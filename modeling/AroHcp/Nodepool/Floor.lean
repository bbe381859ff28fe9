import AroHcp.Lib.Buckets
import AroHcp.Nodepool.Sound

/-! Every projected change preserves the accepted capacity floor of every role-zone bucket, as long
as the buckets' capacities fit in `int64`. -/

namespace AroHcp.Nodepool

open Compute Compute.CapacityByRoleZone Tally

def zoneCeiling (state : List PoolState) (key : RoleZone) : RoleCapacity :=
  sumAt PoolState.roleZoneKey (fun c => c.pool.resources (poolCeiling c)) key state

/-- No bucket is too large for `int64`. -/
def CeilingsFit (state : List PoolState) : Prop :=
  ∀ key, zoneCeiling state key ≤ RoleCapacity.largest

/-- The floor's buckets are present and at least at their floor. -/
def KeepsFloor (floor : TransitionFloor) (state : List PoolState) : Prop :=
  ∀ key ∈ floor.zones, (∃ c ∈ state, c.roleZoneKey = key) ∧
    valueAt floor.zones key ≤ zoneCeiling state key

variable {run : Projection} {floor : TransitionFloor} {state state' : List PoolState}
  {c c' : PoolState}

section

variable (hs : SoundState state)

include hs

theorem poolZoneCapacities_ceilingPools :
    ∃ zones, poolZoneCapacities (ceilingPools state) = .ok zones ∧
      (∀ key, valueAt zones key = (zoneCeiling state key).wrap) ∧
      ∀ key, key ∈ zones ↔ ∃ c ∈ state, c.roleZoneKey = key := by
  have hm : ∀ p ∈ ceilingPools state, p.Measurable := by
    intro p hp
    obtain ⟨c, hc, rfl⟩ := List.mem_map.mp hp
    exact (hs.sound c hc).ceilingPool_measurable
  refine ⟨_, sumCeilings_ok Pool.roleZoneKey hm, fun key => ?_, fun key => ?_⟩
  · have hsum : zoneCeiling state key =
        valueAt (tally Pool.roleZoneKey Pool.ceilingResources (ceilingPools state)) key := by
      rw [valueAt_tally, ceilingPools, sumAt_map]
      rfl
    rw [hsum]
    exact valueAt_mapEntries _ rfl _ key
  · rw [mem_mapEntries, mem_tally, ceilingPools]
    simp only [List.mem_map, exists_exists_and_eq_and]
    rfl

theorem poolCapacities_ceilingPools :
    ∃ capacity, poolCapacities (ceilingPools state) = .ok capacity := by
  refine ⟨_, sumCeilings_ok Pool.role ?_⟩
  intro p hp
  obtain ⟨c, hc, rfl⟩ := List.mem_map.mp hp
  exact (hs.sound c hc).ceilingPool_measurable

theorem zoneCeiling_nonneg (key : RoleZone) : 0 ≤ zoneCeiling state key := by
  apply sumAt_nonneg
  intro c hc
  exact (hs.sound c hc).measurable.resources_nonneg (hs.sound c hc).ceiling_nonneg

theorem CeilingsFit.wrap_eq (hfit : CeilingsFit state) (key : RoleZone) :
    (zoneCeiling state key).wrap = zoneCeiling state key :=
  RoleCapacity.wrap_of_le (zoneCeiling_nonneg hs key) (hfit key)

theorem ensureMeetsBaseline_of_keepsFloor (hfit : CeilingsFit state) (hk : KeepsFloor floor state)
    {zones : CapacityByRoleZone} (hz : poolZoneCapacities (ceilingPools state) = .ok zones) :
    ensureMeetsBaseline zones floor.zones = .ok () := by
  obtain ⟨zones', hz', hvalue, hmem⟩ := poolZoneCapacities_ceilingPools hs
  cases hz.symm.trans hz'
  rw [ensureMeetsBaseline_ok]
  intro key hkey
  rw [hvalue, hmem, hfit.wrap_eq hs]
  exact hk key hkey

/-! ## The guards -/

/-- A reduction to a nonnegative ceiling leaves a nonnegative bucket. -/
theorem resources_le_zoneCeiling (hc : c ∈ state) {n : Int} (hn : 0 ≤ n) :
    c.pool.resources (poolCeiling c - n) ≤ zoneCeiling state c.roleZoneKey := by
  have hown : c.pool.resources (poolCeiling c) ≤ zoneCeiling state c.roleZoneKey := by
    apply le_sumAt (fun p hp => ?_) hc
    exact (hs.sound p hp).measurable.resources_nonneg (hs.sound p hp).ceiling_nonneg
  exact ((hs.sound c hc).measurable.resources_mono (by omega)).trans hown

theorem allowsCapacityReduction_iff (hfit : CeilingsFit state) (hc : c ∈ state) {n : Int}
    (hn : 0 ≤ n) :
    allowsCapacityReduction state c n floor = true ↔ poolCeiling c ≤ n ∨
      valueAt floor.zones c.roleZoneKey ≤
        zoneCeiling state c.roleZoneKey - c.pool.resources (poolCeiling c - n) := by
  obtain ⟨zones, hz, hvalue, -⟩ := poolZoneCapacities_ceilingPools hs
  unfold allowsCapacityReduction
  rw [hz]
  dsimp only
  by_cases hdelta : poolCeiling c - n ≤ 0
  · rw [if_pos hdelta]
    exact iff_of_true rfl (.inl (by omega))
  · have hwrap : (zoneCeiling state c.roleZoneKey - c.pool.resources (poolCeiling c - n)).wrap =
        zoneCeiling state c.roleZoneKey - c.pool.resources (poolCeiling c - n) := by
      apply RoleCapacity.wrap_of_le (sub_nonneg.mpr (resources_le_zoneCeiling hs hc hn))
      have hpos := (hs.sound c hc).measurable.resources_nonneg (not_le.mp hdelta).le
      exact (sub_le_self _ hpos).trans (hfit _)
    rw [if_neg hdelta, hvalue, Pool.capacityAtCount_eq, RoleCapacity.sub_wrap, hwrap,
      RoleCapacity.covers_iff]
    refine ⟨fun h => .inr h, fun h => ?_⟩
    rcases h with h | h
    · omega
    · exact h

end

theorem allowsCapacityReduction_of_le {n : Int} (h : poolCeiling c ≤ n) :
    allowsCapacityReduction state c n floor = true := by
  unfold allowsCapacityReduction
  rw [if_pos (by omega)]

/-- Every change that is not a deletion passed the guard for its new ceiling, or raised it. -/
theorem Change.allowed (h : Change run state c c') :
    allowsCapacityReduction state c (poolCeiling c') run.capacityFloor = true := by
  cases h with
  | unfreeze d _ _ hd hname hfrozen hle =>
    apply allowsCapacityReduction_of_le
    simpa [poolCeiling, hfrozen] using hle
  | reduceDesired d _ hd hname hfrozen hover hpos hallowed =>
    simpa [poolCeiling, hfrozen] using hallowed
  | lowerDesired d _ _ hd hname hscaled hover hle hallowed =>
    simpa [poolCeiling, hscaled] using hallowed
  | freezeDesired d _ hd hname hscaled hover hallowed => simpa [poolCeiling] using hallowed
  | updateConfig =>
    apply allowsCapacityReduction_of_le
    simp [poolCeiling]
  | grow d gap _ _ hd hname hscaled hgap =>
    apply allowsCapacityReduction_of_le
    simp only [poolCeiling, hscaled, if_true]
    omega
  | squeeze ceiling _ _ hun hscaled hcount hlower hallowed =>
    simpa [poolCeiling, hscaled] using hallowed
  | freezeUndesired _ hun hscaled hle =>
    apply allowsCapacityReduction_of_le
    simpa [poolCeiling, hscaled] using hle
  | drain _ hun hfrozen hpos hallowed => simpa [poolCeiling, hfrozen] using hallowed

theorem allowsPoolDeletion_iff : allowsPoolDeletion state c floor = true ↔
    allowsCapacityReduction state c 0 floor = true ∧
      (c.roleZoneKey ∈ floor.zones →
        ∃ other ∈ state, other.name ≠ c.name ∧ other.roleZoneKey = c.roleZoneKey) := by
  unfold allowsPoolDeletion
  by_cases hred : allowsCapacityReduction state c 0 floor = true
  · by_cases hkey : c.roleZoneKey ∈ floor.zones
    · simp [hred, hkey]
    · simp [hred, hkey]
  · simp [hred]

/-! ## The floor is kept -/

theorem zoneCeiling_append (xs ys : List PoolState) (key : RoleZone) :
    zoneCeiling (xs ++ ys) key = zoneCeiling xs key + zoneCeiling ys key :=
  sumAt_append ..

theorem zoneCeiling_cons (x : PoolState) (xs : List PoolState) (key : RoleZone) :
    zoneCeiling (x :: xs) key = (if x.roleZoneKey = key then
      x.pool.resources (poolCeiling x) else 0) + zoneCeiling xs key :=
  sumAt_cons ..

theorem zoneCeiling_change (l r : List PoolState) (h : SameIdentity c c') (key : RoleZone) :
    zoneCeiling (l ++ c' :: r) key = if c.roleZoneKey = key then
      zoneCeiling (l ++ c :: r) key - c.pool.resources (poolCeiling c - poolCeiling c')
      else zoneCeiling (l ++ c :: r) key := by
  simp only [zoneCeiling_append, zoneCeiling_cons, h.roleZoneKey_eq, h.resources_eq,
    Pool.resources_sub]
  split_ifs
  · abel
  · rfl

theorem zoneCeiling_delete (l r : List PoolState) (c : PoolState) (key : RoleZone) :
    zoneCeiling (l ++ r) key = if c.roleZoneKey = key then
      zoneCeiling (l ++ c :: r) key - c.pool.resources (poolCeiling c)
      else zoneCeiling (l ++ c :: r) key := by
  simp only [zoneCeiling_append, zoneCeiling_cons]
  split_ifs
  · abel
  · simp

/-- A state whose bucket moved from `before` to a value the guard allowed is at its floor. -/
theorem le_of_allowed (hs : SoundState state) (hfit : CeilingsFit state) (hc : c ∈ state) {n : Int}
    (hn : 0 ≤ n) (hallowed : allowsCapacityReduction state c n floor = true)
    (hkeep : valueAt floor.zones c.roleZoneKey ≤ zoneCeiling state c.roleZoneKey) :
    valueAt floor.zones c.roleZoneKey ≤
      zoneCeiling state c.roleZoneKey - c.pool.resources (poolCeiling c - n) := by
  rcases (allowsCapacityReduction_iff hs hfit hc hn).mp hallowed with hle | h
  · have hneg : c.pool.resources (poolCeiling c - n) ≤ c.pool.resources 0 :=
      (hs.sound c hc).measurable.resources_mono (by omega)
    rw [Pool.resources_zero] at hneg
    exact hkeep.trans (le_sub_self_iff _ |>.mpr hneg)
  · exact h

theorem KeepsFloor.create (hk : KeepsFloor floor state) (hc : c.Sound) :
    KeepsFloor floor (state ++ [c]) := by
  intro key hkey
  obtain ⟨⟨p, hp, hpkey⟩, hle⟩ := hk key hkey
  refine ⟨⟨p, List.mem_append_left _ hp, hpkey⟩, ?_⟩
  rw [zoneCeiling_append, zoneCeiling_cons]
  refine hle.trans (le_add_of_nonneg_right (add_nonneg ?_ le_rfl))
  split_ifs
  · exact hc.measurable.resources_nonneg hc.ceiling_nonneg
  · exact le_rfl

theorem KeepsFloor.change {l r : List PoolState} (hs : SoundState (l ++ c :: r))
    (hfit : CeilingsFit (l ++ c :: r)) (hk : KeepsFloor run.capacityFloor (l ++ c :: r))
    (hc' : c'.Sound) (h : Change run (l ++ c :: r) c c') :
    KeepsFloor run.capacityFloor (l ++ c' :: r) := by
  have hid := h.sameIdentity
  intro key hkey
  obtain ⟨⟨p, hp, hpkey⟩, hle⟩ := hk key hkey
  refine ⟨?_, ?_⟩
  · rcases List.mem_append.mp hp with hp | hp
    · exact ⟨p, List.mem_append_left _ hp, hpkey⟩
    · rcases List.mem_cons.mp hp with rfl | hp
      · exact ⟨c', by simp, hid.roleZoneKey_eq.trans hpkey⟩
      · exact ⟨p, by simp [hp], hpkey⟩
  · rw [zoneCeiling_change l r hid]
    split_ifs with hown
    · subst hown
      exact le_of_allowed hs hfit (by simp) hc'.ceiling_nonneg h.allowed hle
    · exact hle

theorem KeepsFloor.delete {l r : List PoolState} (hs : SoundState (l ++ c :: r))
    (hfit : CeilingsFit (l ++ c :: r)) (hk : KeepsFloor floor (l ++ c :: r))
    (hallowed : allowsPoolDeletion (l ++ c :: r) c floor = true) :
    KeepsFloor floor (l ++ r) := by
  obtain ⟨hred, hother⟩ := allowsPoolDeletion_iff.mp hallowed
  intro key hkey
  obtain ⟨⟨p, hp, hpkey⟩, hle⟩ := hk key hkey
  refine ⟨?_, ?_⟩
  · by_cases hown : c.roleZoneKey = key
    · -- the deleted pool's own bucket: the guard found another pool in it
      obtain ⟨other, ho, hne, hkeyeq⟩ := hother (hown ▸ hkey)
      refine ⟨other, ?_, hkeyeq.trans hown⟩
      have hoc : other ≠ c := fun h => hne (by rw [h])
      simpa [hoc] using ho
    · have hpc : p ≠ c := fun h => hown (h ▸ hpkey)
      exact ⟨p, by simpa [hpc] using hp, hpkey⟩
  · rw [zoneCeiling_delete l r c]
    split_ifs with hown
    · subst hown
      simpa using le_of_allowed hs hfit (by simp) le_rfl hred hle
    · exact hle

theorem KeepsFloor.effect (hdesired : ∀ d ∈ run.desired, DesiredSound d) (hs : SoundState state)
    (hfit : CeilingsFit state) (hk : KeepsFloor run.capacityFloor state)
    (h : Effect run state state') :
    KeepsFloor run.capacityFloor state' := by
  cases h with
  | create d hd hmissing hfits => exact hk.create (createdState_sound _ (hdesired d hd) hfits _)
  | change l r c c' hsplit hchange =>
    subst hsplit
    exact hk.change hs hfit (hchange.sound hdesired (hs.sound c (by simp))) hchange
  | delete l r c hsplit hundesired hallowed =>
    subst hsplit
    exact hk.delete hs hfit hallowed

end AroHcp.Nodepool
