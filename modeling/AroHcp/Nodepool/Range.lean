import AroHcp.Nodepool.Floor

/-! When the numbers of a projection stay in `int64`: the pools together, each at the largest node
count that any of them has or may get, are a bound for every state that is reached. -/

namespace AroHcp.Nodepool

open Compute GoInt Tally Relation

/-- The pools of both sides by name, each with the resources of `n` nodes. -/
def sizes (n : Int) (desired : List Pool) (initial : List PoolState) :
    List (String × RoleCapacity) :=
  desired.map (fun d => (d.name, d.resources n)) ++
    initial.map fun c => (c.name, c.pool.resources n)

def totalResources (n : Int) (desired : List Pool) (initial : List PoolState) : RoleCapacity :=
  ((sizes n desired initial).map Prod.snd).sum

/-- No pool has, or may have, more than `n` nodes, and with `n` nodes in every desired and every
observed pool their vCPUs, memory and NICs add up to `int64` numbers. -/
structure FitsInt64 (n : Int) (desired : List Pool) (initial : List PoolState) : Prop where
  nonneg : 0 ≤ n
  desired_le : ∀ d ∈ desired, d.maxCount ≤ n
  initial_le : ∀ c ∈ initial, c.pool.maxCount ≤ n ∧ c.count ≤ n
  total_le : totalResources n desired initial ≤ RoleCapacity.largest

/-- A projection of accepted pools that fit. -/
structure Projection.Bounded (run : Projection) (n : Int) : Prop where
  desired : ∀ d ∈ run.desired, DesiredSound d
  initial : SoundState run.initial
  fits : FitsInt64 n run.desired run.initial

/-- A state whose pools are those of the projection, of at most `n` nodes. -/
structure InRange (n : Int) (run : Projection) (state : List PoolState) : Prop where
  sound : SoundState state
  known : ∀ c ∈ state, (c.name, c.pool.resources n) ∈ sizes n run.desired run.initial
  maxCount_le : ∀ c ∈ state, c.pool.maxCount ≤ n
  count_le : ∀ c ∈ state, c.count ≤ n

variable {run : Projection} {n : Int} {state state' : List PoolState} {c c' : PoolState} {d : Pool}

namespace Projection.Bounded

variable (h : run.Bounded n)

include h

theorem inRange : InRange n run run.initial where
  sound := h.initial
  known _ hc := List.mem_append_right _ (List.mem_map_of_mem hc)
  maxCount_le c hc := (h.fits.initial_le c hc).1
  count_le c hc := (h.fits.initial_le c hc).2

theorem sizes_nonneg : ∀ size ∈ sizes n run.desired run.initial, 0 ≤ size.2 := by
  intro size hsize
  rcases List.mem_append.mp hsize with hsize | hsize
  · obtain ⟨d, hd, hmk⟩ := List.mem_map.mp hsize
    rw [← hmk]
    exact (h.desired d hd).measurable.resources_nonneg h.fits.nonneg
  · obtain ⟨c, hc, hmk⟩ := List.mem_map.mp hsize
    rw [← hmk]
    exact (h.initial.sound c hc).measurable.resources_nonneg h.fits.nonneg

/-- Distinct names make the pools of a state distinct pools of the projection. -/
theorem sum_resources_le (hr : InRange n run state) :
    (state.map fun c => c.pool.resources n).sum ≤
      totalResources n run.desired run.initial := by
  have hnodup : (state.map fun c => (c.name, c.pool.resources n)).Nodup := by
    apply List.Nodup.of_map Prod.fst
    rw [List.map_map]
    exact hr.sound.names_nodup
  have hsub : (state.map fun c => (c.name, c.pool.resources n)).Subperm
      (sizes n run.desired run.initial) := by
    apply List.subperm_of_subset hnodup
    intro size hsize
    obtain ⟨c, hc, rfl⟩ := List.mem_map.mp hsize
    exact hr.known c hc
  obtain ⟨pools, hperm, hsublist⟩ := hsub
  have hsum : (state.map fun c => c.pool.resources n).sum = (pools.map Prod.snd).sum := by
    rw [(hperm.map Prod.snd).sum_eq, List.map_map]
    rfl
  rw [hsum]
  apply (hsublist.map Prod.snd).sum_le_sum
  intro r hr
  obtain ⟨size, hsize, rfl⟩ := List.mem_map.mp hr
  exact h.sizes_nonneg size hsize

theorem ceilingsFit (hr : InRange n run state) : CeilingsFit state := by
  intro key
  have hle : zoneCeiling state key ≤ (state.map fun c => c.pool.resources n).sum := by
    apply sumAt_le_sum
    intro c hc
    have hm := (hr.sound.sound c hc).measurable
    refine ⟨hm.resources_nonneg h.fits.nonneg, hm.resources_mono ?_⟩
    unfold poolCeiling
    split_ifs
    · exact hr.maxCount_le c hc
    · exact hr.count_le c hc
  exact hle.trans ((h.sum_resources_le hr).trans h.fits.total_le)

/-- The buckets of the desired pools are not too large either. -/
theorem wrap_desired (key : RoleZone) :
    (sumAt Pool.roleZoneKey Pool.ceilingResources key run.desired).wrap =
      sumAt Pool.roleZoneKey Pool.ceilingResources key run.desired := by
  have hsizes := h.sizes_nonneg
  apply RoleCapacity.wrap_of_le
  · apply sumAt_nonneg
    intro d hd
    exact (h.desired d hd).measurable.resources_nonneg (h.desired d hd).maxCount_pos.le
  · have hdesired : sumAt Pool.roleZoneKey Pool.ceilingResources key run.desired ≤
        (run.desired.map fun d => d.resources n).sum := by
      apply sumAt_le_sum
      intro d hd
      have hm := (h.desired d hd).measurable
      exact ⟨hm.resources_nonneg h.fits.nonneg, hm.resources_mono (h.fits.desired_le d hd)⟩
    have htotal : (run.desired.map fun d => d.resources n).sum ≤
        totalResources n run.desired run.initial := by
      rw [totalResources, sizes, List.map_append, List.sum_append, List.map_map, List.map_map]
      apply le_add_of_nonneg_right
      apply List.sum_nonneg
      intro r hr
      obtain ⟨c, hc, rfl⟩ := List.mem_map.mp hr
      exact (h.initial.sound c hc).measurable.resources_nonneg h.fits.nonneg
    exact hdesired.trans (htotal.trans h.fits.total_le)

omit h in
theorem vcpus_sum (rs : List RoleCapacity) : rs.sum.vcpus = (rs.map RoleCapacity.vcpus).sum := by
  induction rs with
  | nil => rfl
  | cons r rs ih => rw [List.sum_cons, List.map_cons, List.sum_cons, ← ih, RoleCapacity.add_vcpus]

/-- The vCPUs of one family, for values of at most `n` nodes in each pool. -/
theorem sumAt_vcpus_le (hr : InRange n run state) {nodes : PoolState → Int}
    (hnodes : ∀ c ∈ state, nodes c ≤ n) (family : VMFamily) :
    sumAt (fun c : PoolState => c.pool.spec.family) (fun c => nodes c * c.pool.spec.vcpus) family
      state ≤ (totalResources n run.desired run.initial).vcpus := by
  have hle : sumAt (fun c : PoolState => c.pool.spec.family)
      (fun c => nodes c * c.pool.spec.vcpus) family state ≤
      (state.map fun c => (c.pool.resources n).vcpus).sum := by
    apply sumAt_le_sum
    intro c hc
    have hv := (hr.sound.sound c hc).measurable.vcpus_pos.le
    exact ⟨Int.mul_nonneg h.fits.nonneg hv, Int.mul_le_mul_of_nonneg_right (hnodes c hc) hv⟩
  have hsum := (RoleCapacity.le_iff.mp (h.sum_resources_le hr)).1
  rw [vcpus_sum, List.map_map] at hsum
  exact hle.trans hsum

theorem int64_mul_vcpus (hr : InRange n run state) (hc : c ∈ state) {k : Int} (h0 : 0 ≤ k)
    (hk : k ≤ n) : int64 (k * c.pool.spec.vcpus) = k * c.pool.spec.vcpus := by
  have hm := (hr.sound.sound c hc).measurable
  have hone : c.pool.resources n ≤ (state.map fun c => c.pool.resources n).sum := by
    apply List.single_le_sum _ _ (List.mem_map_of_mem hc)
    intro r hmem
    obtain ⟨p, hp, rfl⟩ := List.mem_map.mp hmem
    exact (hr.sound.sound p hp).measurable.resources_nonneg h.fits.nonneg
  have hle := (hm.resources_mono hk).trans
    (hone.trans ((h.sum_resources_le hr).trans h.fits.total_le))
  have hvcpus : k * c.pool.spec.vcpus ≤ maxInt64 := (RoleCapacity.le_iff.mp hle).1
  have hpos := Int.mul_nonneg h0 hm.vcpus_pos.le
  unfold maxInt64 at hvcpus
  exact int64_of_lt (by omega) (by omega)

/-! ## Every state that is reached -/

theorem inRange_created (hd : d ∈ run.desired) (headroom : FamilyMap) :
    let c := createdState (createPool headroom d) d.name
    (c.name, c.pool.resources n) ∈ sizes n run.desired run.initial ∧
      c.pool.maxCount ≤ n ∧ c.count ≤ n := by
  obtain ⟨m, hcreate, -, hm⟩ := createPool_spec headroom d
  have hm := hm (h.desired d hd).minCount_le
  have hmax := h.fits.desired_le d hd
  rw [hcreate]
  refine ⟨List.mem_append_left _ (List.mem_map.mpr ⟨d, hd, rfl⟩), ?_, ?_⟩
  · exact (min_le_left _ _).trans hmax
  · exact hm.trans ((min_le_left _ _).trans hmax)

theorem maxCount_le_of_change (hr : InRange n run state) (hc : c ∈ state)
    (hchange : Change run state c c') : c'.pool.maxCount ≤ n ∧ c'.count ≤ n := by
  have hmax := hr.maxCount_le c hc
  have hcount := hr.count_le c hc
  cases hchange with
  | unfreeze d _ _ hd => exact ⟨h.fits.desired_le d hd, hcount⟩
  | lowerDesired d _ _ hd => exact ⟨h.fits.desired_le d hd, hcount⟩
  | grow d gap _ _ hd _ _ _ htarget =>
    exact ⟨htarget.trans (h.fits.desired_le d hd), hcount⟩
  | reduceDesired | drain | squeeze | freezeDesired | freezeUndesired | updateConfig =>
    dsimp only
    omega

theorem inRange_effect (hr : InRange n run state) (heffect : Effect run state state') :
    InRange n run state' := by
  have hall := heffect.forall_pools (P := fun c =>
    (c.name, c.pool.resources n) ∈ sizes n run.desired run.initial ∧
      c.pool.maxCount ≤ n ∧ c.count ≤ n) ?_ ?_ ?_
  · exact ⟨hr.sound.effect h.desired heffect, fun c hc => (hall c hc).1,
      fun c hc => (hall c hc).2.1, fun c hc => (hall c hc).2.2⟩
  · intro c hc
    exact ⟨hr.known c hc, hr.maxCount_le c hc, hr.count_le c hc⟩
  · intro d hd _
    exact h.inRange_created hd _
  · intro c hc c' hchange hold
    refine ⟨?_, h.maxCount_le_of_change hr hc hchange⟩
    have hid := hchange.sameIdentity
    rw [hid.name_eq, hid.resources_eq]
    exact hold.1

theorem inRange_of_run (hrun : ReflTransGen run.Step run.initial state) : InRange n run state :=
  Runs.invariant hrun h.inRange fun _ _ hr hstep =>
    h.inRange_effect hr (hstep.effect hr.sound.names_nodup)

theorem keepsFloor_of_run (hk : KeepsFloor run.capacityFloor run.initial)
    (hrun : ReflTransGen run.Step run.initial state) : KeepsFloor run.capacityFloor state := by
  refine (Runs.invariant (P := fun s => InRange n run s ∧ KeepsFloor run.capacityFloor s) hrun
    ⟨h.inRange, hk⟩ ?_).2
  intro a b hab hstep
  have heffect := hstep.effect hab.1.sound.names_nodup
  exact ⟨h.inRange_effect hab.1 heffect,
    hab.2.effect h.desired hab.1.sound (h.ceilingsFit hab.1) heffect⟩

end Projection.Bounded

end AroHcp.Nodepool
