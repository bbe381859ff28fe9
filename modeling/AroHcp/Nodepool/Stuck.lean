import AroHcp.Nodepool.Sound

/-! What it means that the planner has no action: every scan of every phase came back empty. -/

namespace AroHcp.Nodepool

open Compute GoInt Tally

/-- No phase of the planner finds a candidate. -/
structure Stuck (run : Projection) (state : List PoolState) : Prop where
  correct : ∀ d ∈ run.desired, ∀ c ∈ state, d.name = c.name →
    correctDesired (run.headroom state) state run.capacityFloor d c = none
  drift : ∀ d ∈ run.desired, ∀ c ∈ state, d.name = c.name →
    d.labels = c.pool.labels ∧ taintsEqual d.taints c.pool.taints = true
  create : ∀ d ∈ run.desired, (∀ c ∈ state, c.name ≠ d.name) → canGrow (run.headroom state) d ≤ 0
  grow : ∀ d ∈ run.desired, ∀ c ∈ state, d.name = c.name →
    growAction (run.headroom state) d c = none
  squeeze : ∀ c ∈ state, (∀ d ∈ run.desired, d.name ≠ c.name) →
    squeezeAction state run.capacityFloor c = none
  freeze : ∀ c ∈ state, (∀ d ∈ run.desired, d.name ≠ c.name) → freezeUndesiredAction c = none
  drain : ∀ c ∈ state, (∀ d ∈ run.desired, d.name ≠ c.name) →
    drainAction state run.capacityFloor c = none
  delete : ∀ c ∈ state, (∀ d ∈ run.desired, d.name ≠ c.name) →
    deleteEmptyAction state run.capacityFloor c = none

variable {run : Projection} {state : List PoolState}

/-- A scan of the matched pools that finds nothing found nothing at any of them. -/
theorem none_of_matched {f : Pool → PoolState → Option Action} {desired : List Pool}
    (hn : (state.map PoolState.name).Nodup)
    (h : desired.findSome? (fun pool =>
      match (Keyed.index PoolState.name state).lookup pool.name with
      | none => none
      | some cur => f pool cur) = none) :
    ∀ d ∈ desired, ∀ c ∈ state, d.name = c.name → f d c = none := by
  intro d hd c hc hname
  have hd := List.findSome?_eq_none_iff.mp h d hd
  rw [hname, Keyed.lookup_index_of_mem hn hc] at hd
  exact hd

theorem none_of_undesired {f : PoolState → Option Action} {desired : List Pool}
    {order : List PoolState}
    (hperm : order.Perm (undesiredPools state (Keyed.index Pool.name desired)))
    (h : order.findSome? f = none) :
    ∀ c ∈ state, (∀ d ∈ desired, d.name ≠ c.name) → f c = none := by
  intro c hc hun
  exact List.findSome?_eq_none_iff.mp h c (hperm.mem_iff.mpr (mem_undesiredPools.mpr ⟨hc, hun⟩))

theorem stuck_of_nextAction_eq_none (hn : (state.map PoolState.name).Nodup)
    (hdesired : run.desired ≠ []) (hsettled : firstInProgressPool state = none)
    (h : run.nextAction state = none) : Stuck run state := by
  have hlen : ¬(run.desired.length = 0 ∧ state.length > 0) := by
    simp [hdesired]
  unfold Projection.nextAction findNextAction at h
  rw [hsettled] at h
  simp only [if_neg hlen, Option.or_eq_none_iff, findGrowAction, findShrinkAction] at h
  obtain ⟨-, hcorrect, hdrift, ⟨hcreate, hgrow⟩, -, hsqueeze, hfreeze, hdrain, hdelete⟩ := h
  have hname := List.perm_insertionSort (fun a b : PoolState => a.name ≤ b.name)
    (undesiredPools state (Keyed.index Pool.name run.desired))
  have hcount := (List.perm_insertionSort (fun a b : PoolState =>
    a.count < b.count ∨ (a.count = b.count ∧ a.name ≤ b.name)) _).trans hname
  refine
    { correct := none_of_matched hn hcorrect
      drift := ?_
      create := ?_
      grow := none_of_matched hn hgrow
      squeeze := none_of_undesired hname hsqueeze
      freeze := none_of_undesired hname hfreeze
      drain := none_of_undesired hcount hdrain
      delete := none_of_undesired hcount hdelete }
  · intro d hd c hc hdc
    have hsame := none_of_matched hn hdrift d hd c hc hdc
    by_contra hdiffer
    rw [if_neg hdiffer] at hsame
    cases hsame
  · intro d hd hmissing
    have hfits := List.findSome?_eq_none_iff.mp hcreate d hd
    rw [(Keyed.lookup_index_eq_none PoolState.name).mpr hmissing] at hfits
    by_contra hgrows
    unfold Projection.headroom at hgrows
    rw [if_neg hgrows] at hfits
    cases hfits

/-! ## What the empty scans say about one pool -/

variable {c : PoolState} {d : Pool}

section

variable (h : Stuck run state)

include h

section

variable (hd : d ∈ run.desired)

include hd

theorem Stuck.frozen_short (hc : c ∈ state) (hname : d.name = c.name)
    (hfrozen : c.autoScalingEnabled = false) (hle : c.count ≤ d.maxCount) :
    valueAt (run.headroom state) d.spec.family <
      int64 ((d.maxCount - c.count) * d.spec.vcpus) := by
  have hnone := h.correct d hd c hc hname
  unfold correctDesired at hnone
  by_contra hroom
  simp [hfrozen, hle, not_lt.mp hroom] at hnone

theorem Stuck.frozen_over (hc : c ∈ state) (hname : d.name = c.name)
    (hfrozen : c.autoScalingEnabled = false) (hpos : 0 < c.count) (hover : d.maxCount < c.count) :
    allowsCapacityReduction state c (c.count - 1) run.capacityFloor = false := by
  have hnone := h.correct d hd c hc hname
  unfold correctDesired at hnone
  by_contra hallowed
  simp [hfrozen, not_le.mpr hover, hpos, hallowed] at hnone

theorem Stuck.scaled_over (hc : c ∈ state) (hname : d.name = c.name)
    (hscaled : c.autoScalingEnabled = true)
    (hover : d.maxCount < c.pool.maxCount ∨ d.maxCount < c.count) :
    allowsCapacityReduction state c (max d.maxCount c.count) run.capacityFloor = false := by
  have hnone := h.correct d hd c hc hname
  unfold correctDesired at hnone
  by_contra hallowed
  by_cases hle : c.count ≤ d.maxCount
  · rw [max_eq_left hle] at hallowed
    simp [hscaled, hover, hle, hallowed] at hnone
  · rw [max_eq_right (by omega)] at hallowed
    simp [hscaled, hover, hle, hallowed] at hnone

theorem Stuck.scaled_reached (hc : c ∈ state) (hname : d.name = c.name)
    (hscaled : c.autoScalingEnabled = true) (hfits : 0 < canGrow (run.headroom state) d) :
    d.maxCount ≤ c.pool.maxCount := by
  have hnone := h.grow d hd c hc hname
  unfold growAction at hnone
  by_contra hlt
  simp [hscaled, hlt, not_le.mpr hfits] at hnone

end

/-- An undesired user pool that is left is autoscaled and cannot be squeezed by one node, or is
frozen and can neither be drained nor deleted. -/
theorem Stuck.undesired (hc : c ∈ state) (hun : ∀ d ∈ run.desired, d.name ≠ c.name)
    (huser : c.pool.agentPoolMode = .user) :
    (c.autoScalingEnabled = true ∧ c.count < c.pool.maxCount ∧
      allowsCapacityReduction state c (c.pool.maxCount - 1) run.capacityFloor = false) ∨
    (c.autoScalingEnabled = false ∧
      (0 < c.count → allowsCapacityReduction state c (c.count - 1) run.capacityFloor = false) ∧
      (c.count = 0 → allowsPoolDeletion state c run.capacityFloor = false)) := by
  cases hauto : c.autoScalingEnabled with
  | true =>
    left
    have hlt : c.count < c.pool.maxCount := by
      have hnone := h.freeze c hc hun
      unfold freezeUndesiredAction at hnone
      by_contra hle
      simp [hauto, not_lt.mp hle] at hnone
    refine ⟨rfl, hlt, ?_⟩
    have hnone := h.squeeze c hc hun
    unfold squeezeAction at hnone
    rw [if_neg (by simp [hauto, hlt]), Option.map_eq_none_iff, squeezeCeiling,
      List.findSome?_eq_none_iff] at hnone
    have hlast := hnone (c.pool.maxCount - c.count - 1).toNat (by
      rw [List.mem_range]
      omega)
    have hceiling : c.count + ((c.pool.maxCount - c.count - 1).toNat : Int) =
        c.pool.maxCount - 1 := by omega
    rw [hceiling] at hlast
    simpa using hlast
  | false =>
    right
    refine ⟨rfl, fun hpos => ?_, fun hzero => ?_⟩
    · have hnone := h.drain c hc hun
      unfold drainAction at hnone
      by_contra hallowed
      simp [huser, hauto, hpos, hallowed] at hnone
    · have hnone := h.delete c hc hun
      unfold deleteEmptyAction at hnone
      by_contra hallowed
      simp [hauto, hzero, hallowed] at hnone

end

end AroHcp.Nodepool
