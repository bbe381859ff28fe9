import AroHcp.Compute.Capacity
import AroHcp.Nodepool.Action

/-! Ceilings of observed pools, the floor a transition must preserve and the convergence test. -/

namespace AroHcp.Nodepool

open Compute Tally

def poolCeiling (pool : PoolState) : Int :=
  if pool.autoScalingEnabled then pool.pool.maxCount else pool.count

def ceilingPool (cur : PoolState) : Pool :=
  { cur.pool with maxCount := poolCeiling cur }

def ceilingPools (state : List PoolState) : List Pool :=
  state.map ceilingPool

abbrev PoolState.roleZoneKey (cur : PoolState) : RoleZone := cur.pool.roleZoneKey

structure TransitionFloor where
  zones : CapacityByRoleZone

/-- Protects the accepted floor of the affected role-zone bucket. -/
def allowsCapacityReduction (current : List PoolState) (pool : PoolState) (newCeiling : Int)
    (floor : TransitionFloor) : Bool :=
  let delta := poolCeiling pool - newCeiling
  if delta ≤ 0 then true
  else
    let reduction := pool.pool.capacityAtCount delta
    match poolZoneCapacities (ceilingPools current) with
    -- unattributable capacity: refuse rather than guess
    | .error _ => false
    | .ok zoneCapacity =>
      ((valueAt zoneCapacity pool.roleZoneKey).sub reduction).covers
        (valueAt floor.zones pool.roleZoneKey)

def allowsPoolDeletion (current : List PoolState) (pool : PoolState) (floor : TransitionFloor) :
    Bool :=
  if !allowsCapacityReduction current pool 0 floor then false
  else if pool.roleZoneKey ∉ floor.zones then true
  else current.any fun other => other.name ≠ pool.name && other.roleZoneKey = pool.roleZoneKey

/-- Whether two lists contain the same elements, ignoring order. -/
def taintsEqual (a b : List String) : Bool :=
  if a.length ≠ b.length then false
  else a.insertionSort (· ≤ ·) = b.insertionSort (· ≤ ·)

/-- The comparison of one desired pool with the observed pool of its name. -/
def poolConverged (pool : Pool) (cur : PoolState) : Bool :=
  cur.provisioningState = .succeeded && cur.autoScalingEnabled &&
  cur.pool.maxCount = pool.maxCount && cur.count ≤ pool.maxCount &&
  cur.pool.spec.size = pool.spec.size && cur.pool.role = pool.role &&
  cur.pool.osDiskSizeGB = pool.osDiskSizeGB && cur.pool.maxPods = pool.maxPods &&
  cur.pool.enableSwift = pool.enableSwift && cur.pool.agentPoolMode = pool.agentPoolMode &&
  cur.pool.secondaryNICs = pool.secondaryNICs &&
  taintsEqual cur.pool.availabilityZones pool.availabilityZones &&
  cur.pool.labels = pool.labels && taintsEqual cur.pool.taints pool.taints

/-- Independent of action selection: no available action can also mean that quota or a safety
check is blocking progress. -/
def configurationConverged (desired : List Pool) (current : List PoolState) : Bool :=
  if desired.length = 0 ∨ desired.length ≠ current.length then false
  else
    let byName := Keyed.index PoolState.name current
    desired.all fun pool =>
      match byName.lookup pool.name with
      | none => false
      | some cur => poolConverged pool cur

theorem taintsEqual_iff_perm {a b : List String} : taintsEqual a b = true ↔ a.Perm b := by
  unfold taintsEqual
  split_ifs with hlen
  · exact iff_of_false (by simp) fun h => hlen h.length_eq
  · rw [decide_eq_true_iff]
    constructor
    · intro h
      exact (List.perm_insertionSort _ a).symm.trans (h ▸ List.perm_insertionSort _ b)
    · intro h
      apply List.Perm.eq_of_pairwise' (List.pairwise_insertionSort _ _)
        (List.pairwise_insertionSort _ _)
      exact (List.perm_insertionSort _ a).trans (h.trans (List.perm_insertionSort _ b).symm)

end AroHcp.Nodepool
