import AroHcp.Nodepool.Plan

/-! The shadow simulator: it projects the planner's own actions on a working copy of the pools
until no action is left, a pool needs a new observation, or the step limit is reached. -/

namespace AroHcp.Nodepool

open Compute Compute.CapacityByRoleZone GoInt Tally

/-- Running-node vCPUs per family (count, not ceiling). -/
def runningVCPU (pools : List PoolState) : FamilyMap :=
  tally (fun p : PoolState => p.pool.spec.family) (fun p => p.count * p.pool.spec.vcpus) pools

/-- The budget at the initial usage snapshot, moved by what the simulation itself started and
stopped since; only tracked families are adjusted. -/
def liveBudget (base runInitial runNow : FamilyMap) : FamilyMap :=
  mapEntries (fun family b => int64 (b + valueAt runInitial family - valueAt runNow family)) base

def projectPool (action : Action) (pool : PoolState) : Except String (Option PoolState) :=
  let name := action.poolName
  match action with
  | .setScalingBounds _ _ minCount maxCount =>
    .ok (some { pool with
      pool := { pool.pool with maxCount := maxCount }
      minCount := minCount
      etag := s!"etag-{name}-{maxCount}" })
  | .unfreeze _ _ minCount maxCount =>
    .ok (some { pool with
      autoScalingEnabled := true
      pool := { pool.pool with maxCount := maxCount }
      minCount := minCount
      etag := s!"etag-{name}-unfrozen" })
  | .freeze _ _ count =>
    .ok (some { pool with
      autoScalingEnabled := false
      count := count
      pool := { pool.pool with maxCount := count }
      etag := s!"etag-{name}-frozen" })
  | .reduce _ _ count =>
    .ok (some { pool with
      count := count
      pool := { pool.pool with maxCount := count }
      etag := s!"etag-{name}-cnt{count}" })
  | .updateConfig _ _ labels taints =>
    .ok (some { pool with
      pool := { pool.pool with labels := labels, taints := taints }
      etag := s!"etag-{name}-config" })
  | .delete _ _ => .ok none
  | .wait _ _ => .error "cannot project action nodepool.waitAction"
  | .reconcile _ _ => .error "cannot project action nodepool.reconcileAction"
  | .create _ _ _ => .error "cannot project action nodepool.createAction"

def createdState (pool : Pool) (name : String) : PoolState where
  pool := pool
  minCount := pool.minCount
  autoScalingEnabled := true
  count := pool.minCount
  provisioningState := .succeeded
  etag := s!"etag-{name}-new"

/-- A successful ordinary operation: a create appends, everything else changes the first pool of
the action's name. -/
def applyAction (current : List PoolState) (action : Action) : Except String (List PoolState) :=
  match action with
  | .create _ pool _ => .ok (current ++ [createdState pool action.poolName])
  | _ =>
    match current.dropWhile fun p => p.name ≠ action.poolName with
    | [] => .error s!"projected action targets missing pool {action.poolName}"
    | pool :: after =>
      let before := current.takeWhile fun p => p.name ≠ action.poolName
      (projectPool action pool).map fun pool' => before ++ pool'.toList ++ after

inductive Outcome where
  | unset
  | converged
  | blocked
  | rejected
  | waiting
  | stepLimit
deriving DecidableEq, Repr

structure TraceStep where
  action : Action
  state : List PoolState
  headroomBefore : FamilyMap
  headroomAfter : FamilyMap
  capacity : CapacityByRole
  zoneCapacity : CapacityByRoleZone

structure Trace where
  desired : List Pool
  initial : List PoolState
  familyBudgets : FamilyMap
  steps : List TraceStep
  fullyAllocated : Bool
  initialCapacity : CapacityByRole
  zoneFloor : CapacityByRoleZone
  rejectedPlan : Option String
  outcome : Outcome
  reason : String

def Trace.finalState (tr : Trace) : List PoolState :=
  match tr.steps.getLast? with
  | none => tr.initial
  | some step => step.state

/-- What stays fixed while the loop of `simulateAndTrace` runs. -/
structure Projection where
  desired : List Pool
  initial : List PoolState
  familyBudgets : FamilyMap
  capacityFloor : TransitionFloor

namespace Projection

def live (run : Projection) (state : List PoolState) : FamilyMap :=
  liveBudget run.familyBudgets (runningVCPU run.initial) (runningVCPU state)

def headroom (run : Projection) (state : List PoolState) : FamilyMap :=
  computeFamilyHeadroom (run.live state) state

def nextAction (run : Projection) (state : List PoolState) : Option Action :=
  findNextAction run.desired state (run.live state) run.capacityFloor {}

/-- One projected change: the planner's next action, which is neither a wait nor a
reconciliation, applied. -/
def Step (run : Projection) (state state' : List PoolState) : Prop :=
  ∃ action, run.nextAction state = some action ∧ action.endsProjection = false ∧
    applyAction state action = .ok state'

end Projection

def stepLimitReason (maxCycles : Nat) (action : Action) : String :=
  s!"projection stopped after {maxCycles} actions; next action is {action.kind.text} on " ++
    action.poolName

def waitingReason (action : Action) : String :=
  if action.kind = .wait then
    s!"pool {action.poolName} has an observed in-progress operation; a new observation is required"
  else
    s!"pool {action.poolName} requires reconciliation after failure; its result cannot be projected"

def blockedReason : String :=
  "no safe planner action is available for the remaining configuration difference (quota, " ++
    "capacity floor, or pool safety constraints)"

def projectLoop (run : Projection) (floorErr : Option String) (maxCycles : Nat) :
    Nat → Trace → List PoolState → CapacityByRole → CapacityByRoleZone → Trace × Option String
  | remaining, tr, state, capacity, zoneCapacity =>
    let action := run.nextAction state
    let waiting := match action with
      | some (.wait ..) => true
      | _ => false
    match floorErr, waiting with
    | some e, false =>
      ({ tr with rejectedPlan := some e, outcome := .rejected, reason := e }, none)
    | _, _ =>
      match action with
      | none =>
        if configurationConverged run.desired state then
          ({ tr with outcome := .converged, reason := "pool configuration matches desired" }, none)
        else ({ tr with outcome := .blocked, reason := blockedReason }, none)
      | some action =>
        match remaining with
        | 0 =>
          ({ tr with outcome := .stepLimit, reason := stepLimitReason maxCycles action }, none)
        | remaining + 1 =>
          let before := run.headroom state
          if action.endsProjection then
            ({ tr with
              steps := tr.steps ++ [⟨action, state, before, before, capacity, zoneCapacity⟩]
              outcome := .waiting
              reason := waitingReason action }, none)
          else
            match applyAction state action with
            | .error e => (tr, some e)
            | .ok state =>
              match poolCapacities (ceilingPools state) with
              | .error e => (tr, some s!"projected capacity: {e}")
              | .ok capacity =>
                match poolZoneCapacities (ceilingPools state) with
                | .error e => (tr, some s!"projected role-zone capacity: {e}")
                | .ok zoneCapacity =>
                  let step := ⟨action, state, before, run.headroom state, capacity, zoneCapacity⟩
                  let tr := { tr with steps := tr.steps ++ [step] }
                  match ensureMeetsBaseline zoneCapacity run.capacityFloor.zones with
                  | .error e =>
                    (tr, some (s!"projected {action.kind.text} on {action.poolName} violates " ++
                      s!"capacity floor: {e}"))
                  | .ok () =>
                    projectLoop run floorErr maxCycles remaining tr state capacity zoneCapacity

def invalidDesiredBounds (pool : Pool) : Bool :=
  pool.maxCount ≤ 0 || pool.minCount < 0 || pool.minCount > pool.maxCount

def negativeObservedBounds (pool : PoolState) : Bool :=
  pool.count < 0 || pool.minCount < 0 || pool.pool.maxCount < 0

def initialTrace (desired : List Pool) (initial : List PoolState) (familyBudgets : FamilyMap)
    (fullyAllocated : Bool) : Trace :=
  { desired, initial, familyBudgets, steps := [], fullyAllocated, initialCapacity := ∅
    zoneFloor := ∅, rejectedPlan := none, outcome := .unset, reason := "" }

/-- Projects the planner, never executing its actions. The floor is resolved once from the initial
capacity and stays fixed; when the plan is not accepted the initial capacity stands in for it. -/
def simulateAndTrace (desired : List Pool) (initial : List PoolState) (familyBudgets : FamilyMap)
    (fullyAllocated : Bool) (maxCycles : Int) : Trace × Option String :=
  let tr := initialTrace desired initial familyBudgets fullyAllocated
  if maxCycles < 0 then (tr, some "simulation step limit must be nonnegative")
  else
    match desired.find? invalidDesiredBounds, initial.find? negativeObservedBounds with
    | some pool, _ => (tr, some s!"invalid desired bounds for pool {pool.name}")
    | none, some pool => (tr, some s!"negative observed count or bounds for pool {pool.name}")
    | none, none =>
      match poolCapacities (ceilingPools initial) with
      | .error e => (tr, some s!"initial capacity: {e}")
      | .ok capacity =>
        let tr := { tr with initialCapacity := capacity }
        let initialZones := poolZoneCapacities (ceilingPools initial)
        let zoneCapacity := initialZones.toOption.getD ∅
        match poolZoneCapacities desired with
        | .error e => (tr, some s!"desired role-zone capacity: {e}")
        | .ok desiredZoneCapacity =>
          let resolved := initialZones >>= fun zones =>
            resolveEffectiveFloor desiredZoneCapacity zones fullyAllocated
          let (zoneFloor, floorErr) := match resolved with
            | .ok floor => (floor, none)
            | .error e => (zoneCapacity, some e)
          projectLoop ⟨desired, initial, familyBudgets, ⟨zoneFloor⟩⟩ floorErr maxCycles.toNat
            maxCycles.toNat { tr with zoneFloor := zoneFloor } initial capacity zoneCapacity

end AroHcp.Nodepool
