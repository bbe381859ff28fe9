import AroHcp.Nodepool.SameFamily
import AroHcp.Nodepool.Termination
import Mathlib.Algebra.BigOperators.Ring.List

/-! Same-family transitions converge unless an all-or-nothing correction of a desired pool is out of
reach. -/

namespace AroHcp.Nodepool

open Compute Compute.CapacityByRoleZone GoInt Tally Relation

/-- No correction of the pool is more than one node away from being possible: it is not frozen two
nodes below its target, not running above its live maximum while within its target, and its live
maximum is at most one above both target and node count. -/
structure Unobstructed (d : Pool) (c : PoolState) : Prop where
  frozen : c.autoScalingEnabled = false → d.maxCount - 1 ≤ c.count
  running : c.autoScalingEnabled = true → c.pool.maxCount < c.count → d.maxCount < c.count
  excess : c.autoScalingEnabled = true → c.pool.maxCount ≤ max d.maxCount c.count + 1

def Clear (desired : List Pool) (state : List PoolState) : Prop :=
  ∀ d ∈ desired, ∀ c ∈ state, d.name = c.name → Unobstructed d c

variable {run : Projection} {state state' : List PoolState} {c c' : PoolState} {d : Pool}
  {spec : VMSpec} {nics : RoleZone → Int} {key : RoleZone}

theorem Change.unobstructed (hn : (run.desired.map Pool.name).Nodup) (hd : d ∈ run.desired)
    (hname : d.name = c.name) (hclear : Unobstructed d c) (h : Change run state c c') :
    Unobstructed d c' := by
  have hsame : ∀ e ∈ run.desired, e.name = c.name → e = d := fun e he hec =>
    List.inj_on_of_nodup_map hn he hd (hec.trans hname.symm)
  cases h with
  | unfreeze e _ _ he hec hfrozen hle =>
    obtain rfl := hsame e he hec
    exact ⟨by simp, by dsimp only; omega, by dsimp only; omega⟩
  | reduceDesired e _ he hec hfrozen hover hpos =>
    obtain rfl := hsame e he hec
    exact ⟨by dsimp only; omega, by simp [hfrozen], by simp [hfrozen]⟩
  | lowerDesired e _ _ he hec hscaled hover hle =>
    obtain rfl := hsame e he hec
    exact ⟨by simp [hscaled], by dsimp only; omega, by dsimp only; omega⟩
  | freezeDesired e _ he hec hscaled hover =>
    obtain rfl := hsame e he hec
    exact ⟨by dsimp only; omega, by simp, by simp⟩
  | updateConfig => exact ⟨hclear.frozen, hclear.running, hclear.excess⟩
  | grow e gap _ _ he hec hscaled hgap htarget =>
    obtain rfl := hsame e he hec
    have hrunning := hclear.running hscaled
    exact ⟨by simp [hscaled], by dsimp only; omega, by dsimp only; omega⟩
  | squeeze _ _ _ hun | freezeUndesired _ hun | drain _ hun => exact absurd hname (hun d hd)

theorem Clear.effect (hu : Uniform spec nics run.desired) (hclear : Clear run.desired state)
    (h : Effect run state state') : Clear run.desired state' := by
  intro d hd
  apply h.forall_pools (hclear d hd)
  · intro e he hfits hname
    obtain rfl := List.inj_on_of_nodup_map hu.names_nodup hd he
      (hname.trans (createPool_name (run.headroom state) e))
    obtain ⟨m, hcreate, -, hm⟩ := createPool_spec (run.headroom state) d
    have hm := hm (hu.sound d hd).minCount_le
    rw [hcreate]
    exact ⟨by simp [createdState], by simp only [createdState]; omega,
      by simp only [createdState]; omega⟩
  · intro c _ c' hchange hc hname
    have hname := hname.trans hchange.sameIdentity.name_eq
    exact hchange.unobstructed hu.names_nodup hd hname (hc hname)

/-! ## Surplus of one pool -/

theorem surplus_matched (hu : Uniform spec nics run.desired)
    (hs : FitState spec nics run.desired state) (hd : d ∈ run.desired) (hc : c ∈ state)
    (hname : d.name = c.name) (key : RoleZone) :
    surplus run.desired key c =
      if c.roleZoneKey = key then poolCeiling c - d.maxCount else 0 := by
  have htarget : targetOf run.desired key c = if d.roleZoneKey = key then d.maxCount else 0 := by
    rw [targetOf, ← hname]
    exact sumAt_of_mem hu.names_nodup hd
  rw [surplus, htarget, ((hs.fits c hc).identity d hd hname).roleZoneKey_eq]
  split_ifs <;> simp

theorem surplus_undesired (hun : ∀ d ∈ run.desired, d.name ≠ c.name) (key : RoleZone) :
    surplus run.desired key c = if c.roleZoneKey = key then poolCeiling c else 0 := by
  have htarget : targetOf run.desired key c = 0 := sumAt_eq_zero hun
  rw [surplus, htarget, sub_zero]

theorem exists_bucket_above
    (h : (run.desired.map Pool.maxCount).sum < (state.map poolCeiling).sum) :
    ∃ key, targetNodes run.desired key < nodes state key :=
  exists_sumAt_lt h

/-! ## A stuck planner has converged -/

/-- A transition on which the planner has run out of actions with no correction out of reach. -/
structure Halted (n : Int) (spec : VMSpec) (nics : RoleZone → Int) (run : Projection)
    (state : List PoolState) : Prop where
  bounded : run.Bounded n
  range : InRange n run state
  uniform : Uniform spec nics run.desired
  floor : FloorWithinTarget spec nics run
  fit : FitState spec nics run.desired state
  stuck : Stuck run state
  clear : Clear run.desired state

namespace Halted

variable {n : Int} (h : Halted n spec nics run state)

include h

theorem int64_vcpus_of_node (hd : d ∈ run.desired) (hc : c ∈ state) :
    int64 (1 * d.spec.vcpus) = d.spec.vcpus := by
  have hone := (h.uniform.sound d hd).maxCount_pos
  have hle := h.bounded.fits.desired_le d hd
  have hspec := (h.uniform.spec_eq d hd).trans (h.fit.fits c hc).spec_eq.symm
  rw [hspec, h.bounded.int64_mul_vcpus h.range hc one_pos.le (by omega), one_mul]

theorem canGrow_pos (hroom : spec.vcpus ≤ valueAt (run.headroom state) spec.family)
    (hd : d ∈ run.desired) : 0 < canGrow (run.headroom state) d := by
  have hv := (h.uniform.sound d hd).measurable.vcpus_pos
  rw [h.uniform.spec_eq d hd] at hv
  rw [canGrow, h.uniform.spec_eq d hd, Int.tdiv_eq_ediv_of_nonneg (by omega)]
  have hone : 1 ≤ valueAt (run.headroom state) spec.family / spec.vcpus :=
    (Int.le_ediv_iff_mul_le hv).mpr (by omega)
  omega

/-- In a bucket above its target every single-node reduction is allowed, so none is left to do. -/
theorem surplus_nonpos (hover : targetNodes run.desired key < nodes state key) (hc : c ∈ state) :
    surplus run.desired key c ≤ 0 := by
  have hallowed : ∀ {n : Int}, c.roleZoneKey = key → 0 ≤ n → poolCeiling c - n ≤ 1 →
      allowsCapacityReduction state c n run.capacityFloor = true := by
    intro n hkey h0 hn
    apply allowed_of_nodes h.floor h.fit (h.bounded.ceilingsFit h.range) hc h0
    rw [hkey]
    omega
  by_cases hmatched : ∃ d ∈ run.desired, d.name = c.name
  · obtain ⟨d, hd, hname⟩ := hmatched
    rw [surplus_matched h.uniform h.fit hd hc hname]
    split_ifs with hkey
    · have hpos := (h.uniform.sound d hd).maxCount_pos
      by_contra hsurplus
      cases hauto : c.autoScalingEnabled with
      | false =>
        simp only [poolCeiling, hauto, Bool.false_eq_true, if_false] at hsurplus hallowed
        have hrefused := h.stuck.frozen_over hd hc hname hauto (by omega) (by omega)
        rw [hallowed hkey (by omega) (by omega)] at hrefused
        cases hrefused
      | true =>
        simp only [poolCeiling, hauto, if_true] at hsurplus hallowed
        have hrefused := h.stuck.scaled_over hd hc hname hauto (.inl (by omega))
        have hone := (h.clear d hd c hc hname).excess hauto
        rw [hallowed hkey (by omega) (by omega)] at hrefused
        cases hrefused
    · exact le_rfl
  · push Not at hmatched
    rw [surplus_undesired hmatched]
    split_ifs with hkey
    · rcases h.stuck.undesired hc hmatched (h.fit.fits c hc).user with
        ⟨hauto, hlt, hrefused⟩ | ⟨hauto, hdrain, -⟩
      · have hcount := (h.fit.sound.sound c hc).count_nonneg
        rw [hallowed hkey (by omega) (by simp [poolCeiling, hauto])] at hrefused
        cases hrefused
      · simp only [poolCeiling, hauto, Bool.false_eq_true, if_false] at hallowed ⊢
        by_contra hpos
        have hrefused := hdrain (by omega)
        rw [hallowed hkey (by omega) (by omega)] at hrefused
        cases hrefused
    · exact le_rfl

theorem count_le_poolCeiling (hc : c ∈ state) : c.count ≤ poolCeiling c := by
  unfold poolCeiling
  split_ifs with hauto
  · by_contra hexcess
    by_cases hmatched : ∃ d ∈ run.desired, d.name = c.name
    · obtain ⟨d, hd, hname⟩ := hmatched
      have hover := (h.clear d hd c hc hname).running hauto (by omega)
      have hrefused := h.stuck.scaled_over hd hc hname hauto (.inr hover)
      rw [allowsCapacityReduction_of_le (by simp only [poolCeiling, hauto, if_true]; omega)]
        at hrefused
      cases hrefused
    · push Not at hmatched
      rcases h.stuck.undesired hc hmatched (h.fit.fits c hc).user with ⟨-, hlt, -⟩ | ⟨hfrozen, -⟩
      · omega
      · simp [hauto] at hfrozen
  · exact le_rfl

theorem committedVCPU_eq :
    committedVCPU spec.family state = (state.map poolCeiling).sum * spec.vcpus := by
  rw [committedVCPU, sumAt, ← List.sum_map_mul_right]
  congr 1
  apply List.map_congr_left
  intro c hc
  rw [if_pos (by rw [(h.fit.fits c hc).spec_eq]), committedOf,
    max_eq_left (h.count_le_poolCeiling hc),
    (h.fit.fits c hc).spec_eq]

/-- With the target and one more node within the quota, a planner without headroom for a node
would have a bucket above its target and hence something to reduce. -/
theorem headroom_of_stuck (hv : 0 < spec.vcpus) (hfamily : spec.family ∈ run.familyBudgets)
    (hbudget : BudgetFits n run.desired run.initial run.familyBudgets spec.family)
    (hlimit : ((run.desired.map Pool.maxCount).sum + 1) * spec.vcpus ≤
      valueAt run.familyBudgets spec.family + valueAt (runningVCPU run.initial) spec.family) :
    spec.vcpus ≤ valueAt (run.headroom state) spec.family := by
  by_contra htight
  have hcommitted := h.committedVCPU_eq
  have hheadroom := headroom_eq h.bounded hbudget h.range hfamily
  have htotal : (run.desired.map Pool.maxCount).sum < (state.map poolCeiling).sum := by
    rw [add_mul] at hlimit
    apply lt_of_mul_lt_mul_right _ hv.le
    omega
  obtain ⟨key, hkey⟩ := exists_bucket_above htotal
  have hbalance := bucket_balance run.desired h.fit.sound.names_nodup key
  have hsum : (state.map (surplus run.desired key)).sum ≤ 0 := by
    have hle := List.sum_le_card_nsmul (state.map (surplus run.desired key)) 0 (by
      intro x hx
      obtain ⟨c, hc, rfl⟩ := List.mem_map.mp hx
      exact h.surplus_nonpos hkey hc)
    simpa using hle
  have hmissing : 0 ≤ missingNodes run.desired state key := by
    apply List.sum_nonneg
    intro x hx
    obtain ⟨d, hd, rfl⟩ := List.mem_map.mp hx
    have := (h.uniform.sound d hd).maxCount_pos
    split_ifs <;> omega
  omega

variable (hroom : spec.vcpus ≤ valueAt (run.headroom state) spec.family)

include hroom

theorem exists_of_stuck (hd : d ∈ run.desired) : ∃ c ∈ state, c.name = d.name := by
  by_contra hmissing
  push Not at hmissing
  have hnone := h.stuck.create d hd hmissing
  have hfits := h.canGrow_pos hroom hd
  omega

/-- With headroom for a node no desired pool is left short. -/
theorem maxCount_le_poolCeiling (hd : d ∈ run.desired) (hc : c ∈ state) (hname : d.name = c.name) :
    d.maxCount ≤ poolCeiling c := by
  unfold poolCeiling
  split_ifs with hauto
  · exact h.stuck.scaled_reached hd hc hname hauto (h.canGrow_pos hroom hd)
  · have hauto : c.autoScalingEnabled = false := by simpa using hauto
    by_contra hshort
    have hone := (h.clear d hd c hc hname).frozen hauto
    have hneed := h.stuck.frozen_short hd hc hname hauto (by omega)
    have hnode : d.maxCount - c.count = 1 := by omega
    rw [hnode, h.int64_vcpus_of_node hd hc, h.uniform.spec_eq d hd] at hneed
    omega

/-- So every bucket is above its target by at least the surplus of any of its pools. -/
theorem target_add_surplus_le (hc : c ∈ state) (key : RoleZone) :
    targetNodes run.desired key + surplus run.desired key c ≤ nodes state key := by
  have hbalance := bucket_balance run.desired h.fit.sound.names_nodup key
  have hmissing : missingNodes run.desired state key = 0 := by
    apply List.sum_eq_zero
    intro x hx
    obtain ⟨d, hd, rfl⟩ := List.mem_map.mp hx
    have hany : state.any (fun c => c.name = d.name) = true := by
      simpa using h.exists_of_stuck hroom hd
    rw [if_pos hany]
  have hnonneg : ∀ x ∈ state.map (surplus run.desired key), 0 ≤ x := by
    intro x hx
    obtain ⟨p, hp, rfl⟩ := List.mem_map.mp hx
    by_cases hmatched : ∃ d ∈ run.desired, d.name = p.name
    · obtain ⟨d, hd, hname⟩ := hmatched
      have hle := h.maxCount_le_poolCeiling hroom hd hp hname
      rw [surplus_matched h.uniform h.fit hd hp hname]
      split_ifs <;> omega
    · push Not at hmatched
      have hceiling := (h.fit.sound.sound p hp).ceiling_nonneg
      rw [surplus_undesired hmatched]
      split_ifs <;> omega
  have hsingle := List.single_le_sum hnonneg _ (List.mem_map_of_mem hc)
  omega

theorem allowed_of_surplus (hc : c ∈ state) {n : Int} (h0 : 0 ≤ n)
    (hn : poolCeiling c - n ≤ surplus run.desired c.roleZoneKey c) :
    allowsCapacityReduction state c n run.capacityFloor = true := by
  have hle := h.target_add_surplus_le hroom hc c.roleZoneKey
  apply allowed_of_nodes h.floor h.fit (h.bounded.ceilingsFit h.range) hc h0
  omega

theorem poolConverged_of_stuck (hd : d ∈ run.desired) (hc : c ∈ state) (hname : d.name = c.name) :
    poolConverged d c = true := by
  have hfit := h.fit.fits c hc
  have hsame := hfit.identity d hd hname
  have hpos := (h.uniform.sound d hd).maxCount_pos
  have hle := h.maxCount_le_poolCeiling hroom hd hc hname
  have hsurplus : surplus run.desired c.roleZoneKey c = poolCeiling c - d.maxCount := by
    rw [surplus_matched h.uniform h.fit hd hc hname, if_pos rfl]
  have hallowed : ∀ {n : Int}, d.maxCount ≤ n →
      allowsCapacityReduction state c n run.capacityFloor = true := by
    intro n hn
    apply h.allowed_of_surplus hroom hc (by omega)
    omega
  have hauto : c.autoScalingEnabled = true := by
    by_contra hfrozen
    have hfrozen : c.autoScalingEnabled = false := by simpa using hfrozen
    by_cases hover : d.maxCount < c.count
    · have hrefused := h.stuck.frozen_over hd hc hname hfrozen (by omega) hover
      rw [hallowed (by omega)] at hrefused
      cases hrefused
    · simp only [poolCeiling, hfrozen, Bool.false_eq_true, if_false] at hle
      have hneed := h.stuck.frozen_short hd hc hname hfrozen (by omega)
      have hnone : d.maxCount - c.count = 0 := by omega
      have hv := (h.uniform.sound d hd).measurable.vcpus_pos
      rw [h.uniform.spec_eq d hd] at hv hneed
      have hzero : int64 0 = 0 := rfl
      rw [hnone, zero_mul, hzero] at hneed
      omega
  have hbounds : ¬(d.maxCount < c.pool.maxCount ∨ d.maxCount < c.count) := by
    intro hover
    have hrefused := h.stuck.scaled_over hd hc hname hauto hover
    rw [hallowed (le_max_left _ _)] at hrefused
    cases hrefused
  simp only [poolCeiling, hauto, if_true] at hle
  have hmax : c.pool.maxCount = d.maxCount := by omega
  have hcount : c.count ≤ d.maxCount := by omega
  obtain ⟨hlabels, htaints⟩ := h.stuck.drift d hd c hc hname
  have hzones := taintsEqual_iff_perm.mpr hsame.zones
  have htaints := taintsEqual_iff_perm.mpr (taintsEqual_iff_perm.mp htaints).symm
  simp [poolConverged, hfit.succeeded, hauto, hmax, hcount, hsame.size, hsame.role,
    hsame.osDiskSizeGB, hsame.maxPods, hsame.enableSwift, hsame.agentPoolMode,
    hsame.secondaryNICs, hzones, hlabels, htaints]

theorem matched_of_stuck (hc : c ∈ state) : ∃ d ∈ run.desired, d.name = c.name := by
  by_contra hun
  push Not at hun
  have hsurplus : surplus run.desired c.roleZoneKey c = poolCeiling c := by
    rw [surplus_undesired hun, if_pos rfl]
  have hallowed : ∀ {n : Int}, 0 ≤ n →
      allowsCapacityReduction state c n run.capacityFloor = true := by
    intro n hn
    apply h.allowed_of_surplus hroom hc hn
    omega
  have hcount := (h.fit.sound.sound c hc).count_nonneg
  rcases h.stuck.undesired hc hun (h.fit.fits c hc).user with
    ⟨hauto, hlt, hrefused⟩ | ⟨hauto, hdrain, hdelete⟩
  · rw [hallowed (by omega)] at hrefused
    cases hrefused
  · by_cases hzero : c.count = 0
    · -- the bucket also holds the desired pool that keeps it
      have hrefused := hdelete hzero
      have hkept : allowsPoolDeletion state c run.capacityFloor = true := by
        rw [allowsPoolDeletion_iff]
        refine ⟨hallowed le_rfl, fun _ => ?_⟩
        obtain ⟨d, hd, hkey⟩ := (h.fit.fits c hc).bucket
        obtain ⟨p, hp, hname⟩ := h.exists_of_stuck hroom hd
        refine ⟨p, hp, ?_, ?_⟩
        · rw [hname]
          exact hun d hd
        · rw [((h.fit.fits p hp).identity d hd hname.symm).roleZoneKey_eq, hkey]
      rw [hkept] at hrefused
      cases hrefused
    · have hrefused := hdrain (by omega)
      rw [hallowed (by omega)] at hrefused
      cases hrefused

theorem configurationConverged_of_stuck (hne : run.desired ≠ []) :
    configurationConverged run.desired state = true := by
  have hperm : (run.desired.map Pool.name).Perm (state.map PoolState.name) := by
    rw [List.perm_ext_iff_of_nodup h.uniform.names_nodup h.fit.sound.names_nodup]
    intro name
    constructor
    · intro hmem
      obtain ⟨d, hd, rfl⟩ := List.mem_map.mp hmem
      obtain ⟨c, hc, hname⟩ := h.exists_of_stuck hroom hd
      exact hname ▸ List.mem_map_of_mem hc
    · intro hmem
      obtain ⟨c, hc, rfl⟩ := List.mem_map.mp hmem
      obtain ⟨d, hd, hname⟩ := h.matched_of_stuck hroom hc
      exact hname ▸ List.mem_map_of_mem hd
  have hlen : run.desired.length = state.length := by simpa using hperm.length_eq
  have hpos : run.desired.length ≠ 0 := by simpa using hne
  rw [configurationConverged, if_neg (by omega)]
  simp only [List.all_eq_true]
  intro d hd
  obtain ⟨c, hc, hname⟩ := h.exists_of_stuck hroom hd
  rw [← hname, Keyed.lookup_index_of_mem h.fit.sound.names_nodup hc]
  exact h.poolConverged_of_stuck hroom hd hc hname.symm

end Halted

/-! ## Runs -/

/-- Inputs whose pools are all succeeded user pools of one VM spec with distinct names, whose plan
covers the existing buckets and keeps the identity of matched pools, and whose family limit covers
the desired ceilings and one more node. -/
structure SameFamilyTransition (spec : VMSpec) (desired : List Pool) (initial : List PoolState)
    (familyBudgets : FamilyMap) : Prop where
  accepted : Accepted desired initial
  desired_names : (desired.map Pool.name).Nodup
  initial_names : (initial.map PoolState.name).Nodup
  desired_spec : ∀ d ∈ desired, d.spec = spec
  initial_spec : ∀ c ∈ initial, c.pool.spec = spec
  desired_user : ∀ d ∈ desired, d.agentPoolMode = .user
  initial_user : ∀ c ∈ initial, c.pool.agentPoolMode = .user
  succeeded : ∀ c ∈ initial, c.provisioningState = .succeeded
  buckets : ∀ c ∈ initial, ∃ d ∈ desired, d.roleZoneKey = c.roleZoneKey
  identity : ∀ d ∈ desired, ∀ c ∈ initial, d.name = c.name → SameSpecification d c
  headroom : 0 ≤ valueAt (computeFamilyHeadroom familyBudgets initial) spec.family
  limit : ((desired.map Pool.maxCount).sum + 1) * spec.vcpus ≤
    valueAt familyBudgets spec.family + valueAt (runningVCPU initial) spec.family

theorem endsProjection_eq_false_of_fit (hs : FitState spec nics run.desired state)
    {action : Action} (h : run.nextAction state = some action) :
    action.endsProjection = false := by
  rcases nextAction_cases hs.sound.names_nodup h with ⟨-, c, hc, hstate⟩ | hprojects
  · rw [(hs.fits c hc).succeeded] at hstate
    simp [isTransitionalState] at hstate
  · exact hprojects.endsProjection_eq_false

theorem stuck_of_fit (hs : FitState spec nics run.desired state) (hne : run.desired ≠ [])
    (h : run.nextAction state = none) : Stuck run state := by
  apply stuck_of_nextAction_eq_none hs.sound.names_nodup hne _ h
  rw [firstInProgressPool, List.find?_eq_none]
  intro c hc
  simp [(hs.fits c hc).succeeded, isTransitionalState]

namespace SameFamilyTransition

variable {desired : List Pool} {initial : List PoolState} {familyBudgets : FamilyMap}
  (h : SameFamilyTransition spec desired initial familyBudgets)

include h

theorem uniform (hdesired : ∀ d ∈ desired, d.secondaryNICs = nics d.roleZoneKey) :
    Uniform spec nics desired :=
  ⟨h.desired_names, h.accepted.desiredSound, h.desired_spec, h.desired_user, hdesired⟩

theorem fitState (hinitial : ∀ c ∈ initial, c.pool.secondaryNICs = nics c.roleZoneKey) :
    FitState spec nics desired initial where
  sound := h.accepted.soundState h.initial_names
  fits c hc := ⟨h.initial_spec c hc, h.initial_user c hc, h.succeeded c hc, hinitial c hc,
    h.buckets c hc, fun d hd hname => h.identity d hd c hc hname⟩

/-- The floor of a fully allocated plan is accepted and asks at most for the targets. -/
theorem exists_floor (hdesired : ∀ d ∈ desired, d.secondaryNICs = nics d.roleZoneKey)
    {n : Int} (hfits : FitsInt64 n desired initial) {zones desiredZones : CapacityByRoleZone}
    (hzones : poolZoneCapacities (ceilingPools initial) = .ok zones)
    (hdz : poolZoneCapacities desired = .ok desiredZones) :
    ∃ floor, resolveEffectiveFloor desiredZones zones true = .ok floor ∧
      FloorWithinTarget spec nics ⟨desired, initial, familyBudgets, ⟨floor⟩⟩ := by
  have hsound := h.accepted.soundState h.initial_names
  have hu := h.uniform hdesired
  obtain ⟨zones', hzones', -, hmem⟩ := poolZoneCapacities_ceilingPools hsound
  cases hzones.symm.trans hzones'
  obtain ⟨-, rfl⟩ := sumCeilings_eq_ok hdz
  have hcovered : ∀ key ∈ zones, key ∈ mapEntries (fun _ => RoleCapacity.wrap)
      (tally Pool.roleZoneKey Pool.ceilingResources desired) := by
    intro key hkey
    obtain ⟨c, hc, rfl⟩ := (hmem key).mp hkey
    exact (mem_mapEntries ..).mpr ((mem_tally ..).mpr (h.buckets c hc))
  obtain ⟨floor, hfloor⟩ := exists_resolveEffectiveFloor_ok hcovered
  have hf := resolveEffectiveFloor_ok hfloor
  refine ⟨floor, hfloor, fun key => ?_⟩
  rw [← ceilingResources_eq hu]
  by_cases hkey : key ∈ zones
  · have hb := h.accepted.bounded h.initial_names hfits familyBudgets ⟨floor⟩
    have hle := hf.le_desired key hkey
    rw [valueAt_mapEntries _ rfl, valueAt_tally, hb.wrap_desired key] at hle
    rw [hf.value_eq key hkey]
    exact hle
  · have hzero : valueAt floor key = 0 := by
      rw [valueAt, AList.lookup_eq_none.mpr (mt (hf.mem_iff key).mp hkey)]
      rfl
    rw [hzero]
    exact ceilingResources_nonneg hu key

end SameFamilyTransition

theorem Clear.of_converged {desired : List Pool}
    (hn : (state.map PoolState.name).Nodup)
    (h : configurationConverged desired state = true) : Clear desired state := by
  unfold configurationConverged at h
  split_ifs at h
  intro d hd c hc hname
  have hpool := List.all_eq_true.mp h d hd
  rw [hname, Keyed.lookup_index_of_mem hn hc] at hpool
  simp only [poolConverged, Bool.and_eq_true, decide_eq_true_eq] at hpool
  obtain ⟨⟨⟨⟨⟨⟨⟨⟨⟨⟨⟨⟨⟨-, hauto⟩, hmax⟩, hcount⟩, -⟩, -⟩, -⟩, -⟩, -⟩, -⟩, -⟩, -⟩, -⟩, -⟩ := hpool
  exact ⟨by simp [hauto], by omega, by omega⟩

def IsWorker (p : Pool) : Prop :=
  p = { workerPool p.name p.maxCount with
    enableSwift := p.enableSwift, secondaryNICs := p.secondaryNICs }

structure WorkerTransition (desired : List Pool) (initial : List PoolState)
    (familyBudgets : FamilyMap) : Prop where
  accepted : Accepted desired initial
  desired_names : (desired.map Pool.name).Nodup
  initial_names : (initial.map PoolState.name).Nodup
  desired_worker : ∀ d ∈ desired, IsWorker d
  initial_worker : ∀ c ∈ initial, IsWorker c.pool ∧ c.provisioningState = .succeeded
  nics : ∀ d ∈ desired, ∀ c ∈ initial, d.name = c.name →
    c.pool.enableSwift = d.enableSwift ∧ c.pool.secondaryNICs = d.secondaryNICs
  planned : initial = [] ∨ desired ≠ []
  headroom : 0 ≤ valueAt (computeFamilyHeadroom familyBudgets initial) "standardDFamily"
  limit : (desired.map Pool.maxCount).sum + 1 ≤
    valueAt familyBudgets "standardDFamily" + valueAt (runningVCPU initial) "standardDFamily"

variable {desired : List Pool} {initial : List PoolState} {familyBudgets : FamilyMap}

theorem WorkerTransition.sameFamily (h : WorkerTransition desired initial familyBudgets) :
    SameFamilyTransition (workerPool "" 0).spec desired initial familyBudgets where
  accepted := h.accepted
  desired_names := h.desired_names
  initial_names := h.initial_names
  desired_spec d hd := by rw [h.desired_worker d hd]; rfl
  initial_spec c hc := by rw [(h.initial_worker c hc).1]; rfl
  desired_user d hd := by rw [h.desired_worker d hd]; rfl
  initial_user c hc := by rw [(h.initial_worker c hc).1]; rfl
  succeeded c hc := (h.initial_worker c hc).2
  buckets c hc := by
    rcases h.planned with rfl | hne
    · cases hc
    · obtain ⟨d, hd⟩ := List.exists_mem_of_ne_nil desired hne
      refine ⟨d, hd, ?_⟩
      rw [PoolState.roleZoneKey, (h.initial_worker c hc).1, h.desired_worker d hd]
      rfl
  identity d hd c hc hname := by
    obtain ⟨hswift, hnics⟩ := h.nics d hd c hc hname
    have hd := h.desired_worker d hd
    have hc := (h.initial_worker c hc).1
    refine ⟨?_, ?_, ?_, ?_, ?_, hswift, hnics, ?_⟩ <;> rw [hc, hd] <;> rfl
  headroom := h.headroom
  limit := by
    have hvcpus : (workerPool "" 0).spec.vcpus = 1 := rfl
    rw [hvcpus, mul_one]
    exact h.limit

def EndsBlocked (desired : List Pool) (initial : List PoolState) (familyBudgets : FamilyMap) :
    Prop :=
  SameFamilyTransition (workerPool "" 0).spec desired initial familyBudgets ∧
    ∃ N : Int, ∀ maxCycles ≥ N,
      (simulateAndTrace desired initial familyBudgets true maxCycles).1.outcome = .blocked

theorem endsBlocked_of_cycle (h : WorkerTransition desired initial familyBudgets)
    (hout : (simulateAndTrace desired initial familyBudgets true 1).1.outcome = .blocked) :
    EndsBlocked desired initial familyBudgets :=
  ⟨h.sameFamily, 1, fun _ hmax => simulateAndTrace_blocked_mono one_pos.le hout hmax⟩

def swiftPool (name : String) (maxCount nics : Int) : Pool :=
  { workerPool name maxCount with enableSwift := true, secondaryNICs := nics }

end AroHcp.Nodepool
