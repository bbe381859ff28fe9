import AroHcp.Nodepool.Capacity

/-! The planner: the single next operation that advances the current pools toward the desired
ones. Every loop of the source that returns at its first hit is a `findSome?` here. -/

namespace AroHcp.Nodepool

open Compute GoInt Tally

/-- The ceiling a pool has reserved beyond the nodes it already runs. -/
def reservedVCPU (pool : PoolState) : Int :=
  max (poolCeiling pool - pool.count) 0 * pool.pool.spec.vcpus

/-- Pools whose SKU metadata did not resolve carry no vCPUs and are skipped. The `int64` sums of the
source are exact up to the one wrap of a value that is read. -/
def computeFamilyHeadroom (availableVCPUs : FamilyMap) (current : List PoolState) : FamilyMap :=
  let used : FamilyMap := tally (fun pool : PoolState => pool.pool.spec.family) reservedVCPU
    (current.filter fun pool => pool.pool.spec.vcpus ≠ 0)
  mapEntries (fun family budget => int64 (budget - valueAt used family)) availableVCPUs ∪
    mapEntries (fun _ u => int64 (-u)) used

def isTransitionalState : ProvisioningState → Bool
  | .creating | .updating | .scaling | .deleting | .upgrading | .migrating => true
  | _ => false

def firstInProgressPool (current : List PoolState) : Option PoolState :=
  current.find? fun pool => isTransitionalState pool.provisioningState

abbrev CurrentByName := AList fun _ : String => PoolState

def findReconcileAction (desired : List Pool) (currentByName : CurrentByName) : Option Action :=
  desired.findSome? fun pool =>
    match currentByName.lookup pool.name with
    | none => none
    | some cur =>
      if cur.provisioningState = .failed then some (.reconcile (actionBase pool) cur.etag) else none

/-- System pools require a positive minimum; user pools may keep zero. -/
def unfreezeMinCount (pool : Pool) (cur : PoolState) : Int :=
  let minCount := min cur.minCount pool.maxCount
  if pool.agentPoolMode = .system then max minCount 1 else minCount

def correctDesired (headroom : FamilyMap) (current : List PoolState)
    (capacityFloor : TransitionFloor) (pool : Pool) (cur : PoolState) : Option Action :=
  if !cur.autoScalingEnabled then
    if cur.count ≤ pool.maxCount then
      let ceilingIncrease := int64 ((pool.maxCount - cur.count) * pool.spec.vcpus)
      if ceilingIncrease ≤ valueAt headroom pool.spec.family then
        some (.unfreeze (actionBase pool) cur.etag (unfreezeMinCount pool cur) pool.maxCount)
      else none
    else if cur.count > 0 then
      if !allowsCapacityReduction current cur (cur.count - 1) capacityFloor then none
      else some (.reduce (actionBase pool) cur.etag (cur.count - 1))
    else none
  -- the autoscaler does not scale a pool down just because it runs above its maximum
  else if cur.pool.maxCount > pool.maxCount ∨ cur.count > pool.maxCount then
    if pool.maxCount ≥ cur.count then
      if !allowsCapacityReduction current cur pool.maxCount capacityFloor then none
      else some (.setScalingBounds (actionBase pool) cur.etag (min cur.minCount pool.maxCount)
        pool.maxCount)
    else if !allowsCapacityReduction current cur cur.count capacityFloor then none
    else some (.freeze (actionBase pool) cur.etag cur.count)
  else none

def findCorrectDesiredAction (desired : List Pool) (currentByName : CurrentByName)
    (headroom : FamilyMap) (current : List PoolState) (capacityFloor : TransitionFloor) :
    Option Action :=
  desired.findSome? fun pool =>
    match currentByName.lookup pool.name with
    | none => none
    | some cur => correctDesired headroom current capacityFloor pool cur

def findDriftAction (desired : List Pool) (currentByName : CurrentByName) : Option Action :=
  desired.findSome? fun pool =>
    match currentByName.lookup pool.name with
    | none => none
    | some cur =>
      if pool.labels = cur.pool.labels ∧ taintsEqual pool.taints cur.pool.taints then none
      else some (.updateConfig (actionBase pool) cur.etag pool.labels pool.taints)

/-- How many nodes of a pool fit the headroom of its family; Go's division truncates. -/
def canGrow (headroom : FamilyMap) (pool : Pool) : Int :=
  (valueAt headroom pool.spec.family).tdiv pool.spec.vcpus

/-- A created pool starts with the ceiling that fits; its floor is kept below that ceiling. -/
def createPool (headroom : FamilyMap) (pool : Pool) : Pool :=
  let fits := canGrow headroom pool
  if pool.maxCount > fits then { pool with maxCount := fits, minCount := min pool.minCount fits }
  else pool

def growAction (headroom : FamilyMap) (pool : Pool) (cur : PoolState) : Option Action :=
  if !cur.autoScalingEnabled ∨ cur.pool.maxCount ≥ pool.maxCount then none
  else if canGrow headroom pool ≤ 0 then none
  else
    let gap := min (pool.maxCount - cur.pool.maxCount) (canGrow headroom pool)
    let targetMax := cur.pool.maxCount + gap
    some (.setScalingBounds (actionBase pool) cur.etag (min cur.minCount targetMax) targetMax)

def findGrowAction (desired : List Pool) (currentByName : CurrentByName) (headroom : FamilyMap)
    (networkConfig : NetworkConfig) : Option Action :=
  (desired.findSome? fun pool =>
    match currentByName.lookup pool.name with
    | some _ => none
    | none =>
      if canGrow headroom pool ≤ 0 then none
      else some (.create (actionBase pool) (createPool headroom pool) networkConfig)).or
  (desired.findSome? fun pool =>
    match currentByName.lookup pool.name with
    | none => none
    | some cur => growAction headroom pool cur)

abbrev DesiredByName := AList fun _ : String => Pool

def undesiredPools (current : List PoolState) (desiredByName : DesiredByName) : List PoolState :=
  current.filter fun pool => pool.name ∉ desiredByName

def survivorRemains (current : List PoolState) (desiredByName : DesiredByName) : Bool :=
  current.any fun other => other.pool.agentPoolMode = .system && other.name ∈ desiredByName

def squeezeCeiling (current : List PoolState) (capacityFloor : TransitionFloor)
    (cur : PoolState) : Option Int :=
  (List.range (cur.pool.maxCount - cur.count).toNat).findSome? fun i : Nat =>
    let ceiling := cur.count + i
    if allowsCapacityReduction current cur ceiling capacityFloor then some ceiling else none

def deleteSystemAction (current : List PoolState) (desiredByName : DesiredByName)
    (capacityFloor : TransitionFloor) (cur : PoolState) : Option Action :=
  if cur.pool.agentPoolMode ≠ .system then none
  else if !survivorRemains current desiredByName ∨
      !allowsPoolDeletion current cur capacityFloor then none
  else some (.delete (actionBase cur.pool) cur.etag)

def squeezeAction (current : List PoolState) (capacityFloor : TransitionFloor)
    (cur : PoolState) : Option Action :=
  if !cur.autoScalingEnabled ∨ cur.pool.maxCount ≤ cur.count then none
  else (squeezeCeiling current capacityFloor cur).map fun ceiling =>
    .setScalingBounds (actionBase cur.pool) cur.etag (min cur.minCount ceiling) ceiling

def freezeUndesiredAction (cur : PoolState) : Option Action :=
  if cur.autoScalingEnabled ∧ cur.pool.maxCount ≤ cur.count then
    some (.freeze (actionBase cur.pool) cur.etag cur.count)
  else none

def drainAction (current : List PoolState) (capacityFloor : TransitionFloor)
    (cur : PoolState) : Option Action :=
  -- system pools cannot be drained below one node
  if cur.pool.agentPoolMode = .system then none
  else if !cur.autoScalingEnabled ∧ cur.count > 0 then
    if !allowsCapacityReduction current cur (cur.count - 1) capacityFloor then none
    else some (.reduce (actionBase cur.pool) cur.etag (cur.count - 1))
  else none

def deleteEmptyAction (current : List PoolState) (capacityFloor : TransitionFloor)
    (cur : PoolState) : Option Action :=
  if !cur.autoScalingEnabled ∧ cur.count = 0 ∧ allowsPoolDeletion current cur capacityFloor then
    some (.delete (actionBase cur.pool) cur.etag)
  else none

def findShrinkAction (current : List PoolState) (desiredByName : DesiredByName)
    (capacityFloor : TransitionFloor) : Option Action :=
  let undesired := (undesiredPools current desiredByName).insertionSort fun a b => a.name ≤ b.name
  -- the drain order: lowest count first, to reach deletion sooner
  let byCount := undesired.insertionSort fun a b =>
    a.count < b.count ∨ (a.count = b.count ∧ a.name ≤ b.name)
  (undesired.findSome? (deleteSystemAction current desiredByName capacityFloor)).or <|
  (undesired.findSome? (squeezeAction current capacityFloor)).or <|
  (undesired.findSome? freezeUndesiredAction).or <|
  (byCount.findSome? (drainAction current capacityFloor)).or <|
  byCount.findSome? (deleteEmptyAction current capacityFloor)

/-- `none` when converged or blocked, a wait when any pool is in progress. -/
def findNextAction (desired : List Pool) (current : List PoolState) (availableVCPUs : FamilyMap)
    (capacityFloor : TransitionFloor) (networkConfig : NetworkConfig) : Option Action :=
  match firstInProgressPool current with
  | some blocker => some (.wait (actionBase blocker.pool) waitPollHint)
  | none =>
    if desired.length = 0 ∧ current.length > 0 then none
    else
      let desiredByName := Keyed.index Pool.name desired
      let currentByName := Keyed.index PoolState.name current
      let headroom := computeFamilyHeadroom availableVCPUs current
      (findReconcileAction desired currentByName).or <|
      (findCorrectDesiredAction desired currentByName headroom current capacityFloor).or <|
      (findDriftAction desired currentByName).or <|
      (findGrowAction desired currentByName headroom networkConfig).or <|
      findShrinkAction current desiredByName capacityFloor

end AroHcp.Nodepool
