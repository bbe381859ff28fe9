import AroHcp.Nodepool.Range

/-! The loop of `simulateAndTrace`: which inputs it accepts, and how it can end on them. -/

namespace AroHcp.Nodepool

open Compute Compute.CapacityByRoleZone Tally Relation

/-- The inputs `simulateAndTrace` projects; it returns an error on all others. -/
structure Accepted (desired : List Pool) (initial : List PoolState) : Prop where
  desired_bounds : desired.find? invalidDesiredBounds = none
  observed_bounds : initial.find? negativeObservedBounds = none
  initial_capacity : ∃ capacity, poolCapacities (ceilingPools initial) = .ok capacity
  desired_capacity : ∃ zones, poolZoneCapacities desired = .ok zones

inductive Ended (run : Projection) (final : List PoolState) (n remaining : ℕ) : Outcome → Prop
  | converged (hnone : run.nextAction final = none)
      (hconv : configurationConverged run.desired final = true) :
        Ended run final n remaining .converged
  | blocked (hnone : run.nextAction final = none)
      (hconv : configurationConverged run.desired final = false) :
        Ended run final n remaining .blocked
  | waiting (action : Action) (hnext : run.nextAction final = some action)
      (hends : action.endsProjection = true) : Ended run final n remaining .waiting
  | stepLimit (action : Action) (hnext : run.nextAction final = some action)
      (hlimit : n = remaining) : Ended run final n remaining .stepLimit

/-- The loop ends without error in a state the planner's own steps lead to. -/
def EndsIn (run : Projection) (state : List PoolState) (remaining : ℕ)
    (result : Trace × Option String) : Prop :=
  ∃ final n, Runs.Steps run.Step n state final ∧ result.2 = none ∧
    result.1.finalState = final ∧ Ended run final n remaining result.1.outcome

variable {run : Projection} {state : List PoolState}

theorem EndsIn.head {state' : List PoolState} {remaining : ℕ} {result : Trace × Option String}
    (hstep : run.Step state state') (h : EndsIn run state' remaining result) :
    EndsIn run state (remaining + 1) result := by
  obtain ⟨final, n, hsteps, herr, hfinal, hended⟩ := h
  refine ⟨final, n + 1, .head hstep hsteps, herr, hfinal, ?_⟩
  generalize result.1.outcome = outcome at hended ⊢
  cases hended with
  | converged hnone hconv => exact .converged hnone hconv
  | blocked hnone hconv => exact .blocked hnone hconv
  | waiting action hnext hends => exact .waiting action hnext hends
  | stepLimit action hnext hlimit => exact .stepLimit action hnext (by omega)

theorem projectLoop_endsIn_none (hnext : run.nextAction state = none) (maxCycles remaining : ℕ)
    (tr : Trace) (htr : tr.finalState = state) (capacity : CapacityByRole)
    (zoneCapacity : CapacityByRoleZone) :
    EndsIn run state remaining
      (projectLoop run none maxCycles remaining tr state capacity zoneCapacity) := by
  unfold projectLoop
  simp only [hnext]
  split_ifs with hconv
  · exact ⟨state, 0, .refl _, rfl, htr, .converged hnext hconv⟩
  · exact ⟨state, 0, .refl _, rfl, htr, .blocked hnext (by simpa using hconv)⟩

theorem projectLoop_endsIn (maxCycles remaining : ℕ)
    (hkeep : ∀ s, ReflTransGen run.Step state s →
      SoundState s ∧ CeilingsFit s ∧ KeepsFloor run.capacityFloor s)
    (tr : Trace) (htr : tr.finalState = state) (capacity : CapacityByRole)
    (zoneCapacity : CapacityByRoleZone) :
    EndsIn run state remaining
      (projectLoop run none maxCycles remaining tr state capacity zoneCapacity) := by
  induction remaining generalizing state tr capacity zoneCapacity with
  | zero =>
    cases hnext : run.nextAction state with
    | none => exact projectLoop_endsIn_none hnext _ _ tr htr _ _
    | some action =>
      unfold projectLoop
      rw [hnext]
      exact ⟨state, 0, .refl _, rfl, htr, .stepLimit action hnext rfl⟩
  | succ remaining ih =>
    cases hnext : run.nextAction state with
    | none => exact projectLoop_endsIn_none hnext _ _ tr htr _ _
    | some action =>
      unfold projectLoop
      simp only [hnext]
      split_ifs with hends
      · exact ⟨state, 0, .refl _, rfl, by simp [Trace.finalState], .waiting action hnext hends⟩
      · -- an ordinary step: it applies, its capacities are known and the floor is met
        obtain ⟨hs, -⟩ := hkeep state .refl
        have hends : action.endsProjection = false := by simpa using hends
        obtain ⟨state', happly, -⟩ := projects_of_nextAction hs.names_nodup hnext hends
        have hstep : run.Step state state' := ⟨action, hnext, hends, happly⟩
        obtain ⟨hs', hfit', hk'⟩ := hkeep state' (.single hstep)
        obtain ⟨capacity', hcap⟩ := poolCapacities_ceilingPools hs'
        obtain ⟨zones', hzones, -⟩ := poolZoneCapacities_ceilingPools hs'
        have hbase := ensureMeetsBaseline_of_keepsFloor hs' hfit' hk' hzones
        simp only [happly, hcap, hzones, hbase]
        apply EndsIn.head hstep
        apply ih
        · intro s hrun
          exact hkeep s (.head hstep hrun)
        · simp [Trace.finalState]

/-- An unaccepted plan is rejected unless an observed operation is waited for first. -/
theorem projectLoop_rejected (run : Projection) (state : List PoolState) (e : String)
    (maxCycles remaining : ℕ) (tr : Trace) (capacity : CapacityByRole)
    (zoneCapacity : CapacityByRoleZone) :
    (projectLoop run (some e) maxCycles (remaining + 1) tr state capacity zoneCapacity).2 = none ∧
      ((projectLoop run (some e) maxCycles (remaining + 1) tr state capacity
          zoneCapacity).1.outcome = .rejected ∨
        (projectLoop run (some e) maxCycles (remaining + 1) tr state capacity
          zoneCapacity).1.outcome = .waiting) := by
  unfold projectLoop
  dsimp only
  cases hnext : run.nextAction state with
  | none => exact ⟨rfl, .inl rfl⟩
  | some action =>
    cases action with
    | wait base delay => exact ⟨rfl, .inr rfl⟩
    | reconcile | create | setScalingBounds | unfreeze | freeze | reduce | delete | updateConfig =>
      exact ⟨rfl, .inl rfl⟩

/-- A projection that ends blocked also does so under a higher step limit. -/
theorem projectLoop_blocked_mono (floorErr : Option String) (maxCycles maxCycles' extra : ℕ)
    (remaining : ℕ) (tr : Trace) (state : List PoolState) (capacity : CapacityByRole)
    (zoneCapacity : CapacityByRoleZone)
    (h : (projectLoop run floorErr maxCycles remaining tr state capacity
      zoneCapacity).1.outcome = .blocked) :
    (projectLoop run floorErr maxCycles' (remaining + extra) tr state capacity
      zoneCapacity).1.outcome = .blocked := by
  induction remaining generalizing tr state capacity zoneCapacity with
  | zero =>
    -- without steps left only a missing action ends blocked, whatever the limit
    unfold projectLoop at h ⊢
    cases floorErr with
    | some e =>
      cases hnext : run.nextAction state with
      | none => simp [hnext] at h
      | some action => cases action <;> simp [hnext] at h
    | none =>
      cases hnext : run.nextAction state with
      | none => simpa [hnext] using h
      | some action => simp [hnext] at h
  | succ remaining ih =>
    rw [Nat.add_right_comm]
    unfold projectLoop at h ⊢
    dsimp only at h ⊢
    split at h
    · exact h
    · split at h
      · exact h
      · split_ifs at h ⊢
        split at h
        · exact h
        · split at h
          · exact h
          · split at h
            · exact h
            · split at h
              · exact h
              · exact ih _ _ _ _ h

/-! ## Accepted inputs -/

variable {desired : List Pool} {initial : List PoolState} {familyBudgets : FamilyMap}
  {fullyAllocated : Bool} {maxCycles : Int}

theorem Accepted.desiredSound (h : Accepted desired initial) : ∀ d ∈ desired, DesiredSound d := by
  intro d hd
  obtain ⟨zones, hzones⟩ := h.desired_capacity
  have hmeas := (sumCeilings_eq_ok hzones).1 d hd
  have hbounds := List.find?_eq_none.mp h.desired_bounds d hd
  simp only [invalidDesiredBounds, Bool.or_eq_true, decide_eq_true_eq, not_or] at hbounds
  exact ⟨hmeas, by omega, by omega, by omega⟩

theorem Accepted.soundState (h : Accepted desired initial)
    (hn : (initial.map PoolState.name).Nodup) : SoundState initial := by
  obtain ⟨capacity, hcap⟩ := h.initial_capacity
  refine ⟨hn, fun c hc => ?_⟩
  have hmeas := (sumCeilings_eq_ok hcap).1 (ceilingPool c) (List.mem_map_of_mem hc)
  have hbounds := List.find?_eq_none.mp h.observed_bounds c hc
  simp only [negativeObservedBounds, Bool.or_eq_true, decide_eq_true_eq, not_or] at hbounds
  exact ⟨{ hmeas with maxCount_nonneg := by omega }, by omega⟩

theorem simulateAndTrace_blocked_mono {maxCycles' : Int} (hmax : 0 ≤ maxCycles)
    (h : (simulateAndTrace desired initial familyBudgets fullyAllocated maxCycles).1.outcome =
      .blocked) (hle : maxCycles ≤ maxCycles') :
    (simulateAndTrace desired initial familyBudgets fullyAllocated maxCycles').1.outcome =
      .blocked := by
  have hcycles : maxCycles'.toNat = maxCycles.toNat + (maxCycles' - maxCycles).toNat := by omega
  unfold simulateAndTrace at h ⊢
  rw [if_neg (by omega)] at h ⊢
  cases hd : desired.find? invalidDesiredBounds with
  | some pool => simp [hd, initialTrace] at h
  | none =>
    cases hi : initial.find? negativeObservedBounds with
    | some pool => simp [hd, hi, initialTrace] at h
    | none =>
      cases hcap : poolCapacities (ceilingPools initial) with
      | error e => simp [hd, hi, hcap, initialTrace] at h
      | ok capacity =>
        cases hzones : poolZoneCapacities desired with
        | error e => simp [hd, hi, hcap, hzones, initialTrace] at h
        | ok zones =>
          simp only [hd, hi, hcap, hzones] at h ⊢
          rw [hcycles]
          exact projectLoop_blocked_mono _ _ _ _ _ _ _ _ _ h

theorem simulateAndTrace_of_accepted (familyBudgets : FamilyMap) (fullyAllocated : Bool)
    (h : Accepted desired initial) (hmax : 0 ≤ maxCycles)
    {zones desiredZones : CapacityByRoleZone}
    (hzones : poolZoneCapacities (ceilingPools initial) = .ok zones)
    (hdesired : poolZoneCapacities desired = .ok desiredZones) :
    ∃ (tr : Trace) (capacity : CapacityByRole), tr.finalState = initial ∧
      tr.outcome ≠ .stepLimit ∧
        simulateAndTrace desired initial familyBudgets fullyAllocated maxCycles =
        match resolveEffectiveFloor desiredZones zones fullyAllocated with
        | .ok floor => projectLoop ⟨desired, initial, familyBudgets, ⟨floor⟩⟩ none maxCycles.toNat
            maxCycles.toNat { tr with zoneFloor := floor } initial capacity zones
        | .error e => projectLoop ⟨desired, initial, familyBudgets, ⟨zones⟩⟩ (some e)
            maxCycles.toNat maxCycles.toNat
              { tr with zoneFloor := zones } initial capacity zones := by
  obtain ⟨capacity, hcap⟩ := h.initial_capacity
  refine ⟨{ initialTrace desired initial familyBudgets fullyAllocated with
    initialCapacity := capacity }, capacity, rfl, by simp [initialTrace], ?_⟩
  have hbind : (Except.ok zones >>= fun zones =>
      resolveEffectiveFloor desiredZones zones fullyAllocated) =
      resolveEffectiveFloor desiredZones zones fullyAllocated := rfl
  unfold simulateAndTrace
  simp only [if_neg (not_lt.mpr hmax), h.desired_bounds, h.observed_bounds, hcap, hzones, hdesired,
    hbind]
  cases resolveEffectiveFloor desiredZones zones fullyAllocated with
  | error e => rfl
  | ok floor => rfl

/-! ## The projection keeps its floor -/

variable {zones desiredZones floor : CapacityByRoleZone}

theorem Accepted.bounded (h : Accepted desired initial) (hn : (initial.map PoolState.name).Nodup)
    {n : Int} (hfits : FitsInt64 n desired initial) (familyBudgets : FamilyMap)
    (floor : TransitionFloor) :
    Projection.Bounded ⟨desired, initial, familyBudgets, floor⟩ n :=
  ⟨h.desiredSound, h.soundState hn, hfits⟩

theorem keepsFloor_initial (hs : SoundState initial) (hfit : CeilingsFit initial)
    (hzones : poolZoneCapacities (ceilingPools initial) = .ok zones)
    (hfloor : resolveEffectiveFloor desiredZones zones fullyAllocated = .ok floor) :
    KeepsFloor ⟨floor⟩ initial := by
  obtain ⟨zones', hzones', hvalue, hmem⟩ := poolZoneCapacities_ceilingPools hs
  cases hzones.symm.trans hzones'
  have hf := resolveEffectiveFloor_ok hfloor
  intro key hkey
  have hbase := (hf.mem_iff key).mp hkey
  refine ⟨(hmem key).mp hbase, ?_⟩
  change valueAt floor key ≤ _
  rw [hf.value_eq key hbase, ← hfit.wrap_eq hs, ← hvalue, floorAt]
  split_ifs
  · exact RoleCapacity.min_le_left _ _
  · exact le_rfl

/-- What holds in every state of a projection whose plan is accepted and whose pools fit. -/
theorem keeps_of_run {n : Int} (hnames : (initial.map PoolState.name).Nodup)
    (haccepted : Accepted desired initial) (hfits : FitsInt64 n desired initial)
    (hzones : poolZoneCapacities (ceilingPools initial) = .ok zones)
    (hfloor : resolveEffectiveFloor desiredZones zones fullyAllocated = .ok floor)
    {state : List PoolState}
    (hrun : ReflTransGen (Projection.Step ⟨desired, initial, familyBudgets, ⟨floor⟩⟩)
      initial state) :
    SoundState state ∧ CeilingsFit state ∧ KeepsFloor ⟨floor⟩ state := by
  have hb := haccepted.bounded hnames hfits familyBudgets ⟨floor⟩
  have hk := keepsFloor_initial hb.initial (hb.ceilingsFit hb.inRange) hzones hfloor
  have hr := hb.inRange_of_run hrun
  exact ⟨hr.sound, hb.ceilingsFit hr, hb.keepsFloor_of_run hk hrun⟩

/-- Every state reached keeps every initial role-zone bucket at or above the floor fixed at the
start, so no projection fails, in particular not for a violated capacity floor. -/
theorem projection_keeps_capacity_floor (desired : List Pool) (initial : List PoolState)
    (familyBudgets : FamilyMap) (fullyAllocated : Bool)
    (hnames : (initial.map PoolState.name).Nodup) (haccepted : Accepted desired initial)
    (n : Int) (hfits : FitsInt64 n desired initial)
    (hzones : poolZoneCapacities (ceilingPools initial) = .ok zones)
    (hdesired : poolZoneCapacities desired = .ok desiredZones)
    (hfloor : resolveEffectiveFloor desiredZones zones fullyAllocated = .ok floor) :
    (∀ state, ReflTransGen (Projection.Step ⟨desired, initial, familyBudgets, ⟨floor⟩⟩)
        initial state →
      ∃ zones', poolZoneCapacities (ceilingPools state) = .ok zones' ∧
        ∀ key ∈ zones, key ∈ zones' ∧
          (valueAt zones' key).covers (valueAt floor key) = true) ∧
    ∀ maxCycles, 0 ≤ maxCycles →
      (simulateAndTrace desired initial familyBudgets fullyAllocated maxCycles).2 = none := by
  have hkeep : ∀ state, ReflTransGen
      (Projection.Step ⟨desired, initial, familyBudgets, ⟨floor⟩⟩) initial state →
      SoundState state ∧ CeilingsFit state ∧ KeepsFloor ⟨floor⟩ state :=
    fun _ => keeps_of_run hnames haccepted hfits hzones hfloor
  refine ⟨fun state hrun => ?_, fun maxCycles hmax => ?_⟩
  · obtain ⟨hs', hfit', hk'⟩ := hkeep state hrun
    obtain ⟨zones', hzones', hvalue, hmem⟩ := poolZoneCapacities_ceilingPools hs'
    refine ⟨zones', hzones', fun key hkey => ?_⟩
    have hfloorKey := ((resolveEffectiveFloor_ok hfloor).mem_iff key).mpr hkey
    obtain ⟨hpresent, hle⟩ := hk' key hfloorKey
    exact ⟨(hmem key).mpr hpresent, by rw [hvalue, hfit'.wrap_eq hs']; exact hle⟩
  · obtain ⟨tr, capacity, htr, -, heq⟩ :=
      simulateAndTrace_of_accepted familyBudgets fullyAllocated haccepted hmax hzones hdesired
    rw [heq, hfloor]
    obtain ⟨final, n, -, herr, -⟩ := projectLoop_endsIn maxCycles.toNat maxCycles.toNat hkeep
      { tr with zoneFloor := floor } htr capacity zones
    exact herr

/-! A two-node pool is replaced by another one in the same bucket with one spare vCPU. -/

/-- A one-vCPU worker pool pinned to zone 1. -/
def workerPool (name : String) (maxCount : Int) : Pool where
  role := "worker"
  agentPoolMode := .user
  name := name
  spec := ⟨"Standard_D1", "standardDFamily", 1, 1, 0⟩
  availabilityZones := ["1"]
  maxCount := maxCount
  minCount := 0
  osDiskSizeGB := 64
  maxPods := 110
  labels := ∅
  taints := []
  enableSwift := false
  secondaryNICs := 0

def workerState (name : String) (autoScalingEnabled : Bool) (maxCount count : Int) : PoolState where
  pool := workerPool name maxCount
  etag := "etag"
  provisioningState := .succeeded
  autoScalingEnabled := autoScalingEnabled
  count := count
  minCount := 0

def workerBudget (vcpus : Int) : FamilyMap :=
  (∅ : FamilyMap).insert "standardDFamily" vcpus

theorem projection_keeps_capacity_floor_replacement :
    ∃ zones desiredZones floor,
      poolZoneCapacities (ceilingPools [workerState "old" true 2 2]) = .ok zones ∧
      poolZoneCapacities [workerPool "new" 2] = .ok desiredZones ∧
      resolveEffectiveFloor desiredZones zones true = .ok floor ∧
      (simulateAndTrace [workerPool "new" 2] [workerState "old" true 2 2] (workerBudget 1)
        true 100).2 = none := by
  refine ⟨_, _, _, rfl, rfl, rfl, ?_⟩
  exact (projection_keeps_capacity_floor [workerPool "new" 2] [workerState "old" true 2 2]
    (workerBudget 1) true (by decide) ⟨by decide, by decide, ⟨_, rfl⟩, ⟨_, rfl⟩⟩ 2
    ⟨by decide, by decide, by decide, by decide⟩ rfl rfl rfl).2 100 (by decide)

/-- Two pools of one node with 2 ^ 62 bytes of memory: the bucket that holds both is negative. -/
theorem capacity_floor_violated_by_overflow :
    let spec : VMSpec := ⟨"Standard_D1", "standardDFamily", 1, 2 ^ 62, 0⟩
    let old := { workerState "old" true 1 1 with pool := { workerPool "old" 1 with spec := spec } }
    let new := { workerPool "new" 1 with spec := spec }
    (∃ zones desiredZones floor, poolZoneCapacities (ceilingPools [old]) = .ok zones ∧
      poolZoneCapacities [new] = .ok desiredZones ∧
      resolveEffectiveFloor desiredZones zones true = .ok floor) ∧
    (simulateAndTrace [new] [old] (workerBudget 1) true 100).2 =
      some ("projected Create on new violates capacity floor: worker capacity " ++
        "\x7bVCPUs:2 MemoryGiB:-8589934592 SwiftNICs:0\x7d in zone \"1\" is below protected " ++
        "baseline \x7bVCPUs:1 MemoryGiB:4294967296 SwiftNICs:0\x7d") := by
  refine ⟨⟨_, _, _, rfl, rfl, rfl⟩, ?_⟩
  decide +kernel

end AroHcp.Nodepool
