import AroHcp.Compute.Pool

/-! Advisory operations on AKS agent pools and the observed pool state they are chosen from. -/

namespace AroHcp.Nodepool

open Compute

/-- The AKS provisioning states relevant to action selection. -/
inductive ProvisioningState where
  | succeeded
  | failed
  | creating
  | updating
  | scaling
  | deleting
  | upgrading
  | migrating
  | other (text : String)
deriving DecidableEq, Repr

/-- The observed state of a managed pool. `minCount` is the observed floor, kept apart from the
`minCount` of the embedded specification. -/
structure PoolState where
  pool : Pool
  etag : String
  provisioningState : ProvisioningState
  autoScalingEnabled : Bool
  count : Int
  minCount : Int
deriving DecidableEq

abbrev PoolState.name (p : PoolState) : String := p.pool.name

inductive ActionType where
  | wait
  | reconcile
  | create
  | setScalingBounds
  | unfreeze
  | freeze
  | reduce
  | delete
  | updateConfig
deriving DecidableEq, Repr

def ActionType.text : ActionType → String
  | .wait => "Wait"
  | .reconcile => "Reconcile"
  | .create => "Create"
  | .setScalingBounds => "SetScalingBounds"
  | .unfreeze => "Unfreeze"
  | .freeze => "Freeze"
  | .reduce => "Reduce"
  | .delete => "Delete"
  | .updateConfig => "UpdateConfig"

/-- The fields common to all actions. -/
structure ActionBase where
  name : String
  size : String
  azZone : String
deriving DecidableEq, Repr

def actionBase (pool : Pool) : ActionBase where
  name := pool.name
  size := pool.spec.size
  azZone := pool.zoneString

inductive Action where
  /-- an observed in-progress pool blocks further planning; the delay is in nanoseconds -/
  | wait (base : ActionBase) (delay : Nat)
  | reconcile (base : ActionBase) (etag : String)
  | create (base : ActionBase) (pool : Pool) (networkConfig : NetworkConfig)
  | setScalingBounds (base : ActionBase) (etag : String) (minCount maxCount : Int)
  | unfreeze (base : ActionBase) (etag : String) (minCount maxCount : Int)
  | freeze (base : ActionBase) (etag : String) (count : Int)
  | reduce (base : ActionBase) (etag : String) (count : Int)
  | delete (base : ActionBase) (etag : String)
  | updateConfig (base : ActionBase) (etag : String) (labels : Finmap fun _ : String => String)
      (taints : List String)
deriving DecidableEq

def Action.base : Action → ActionBase
  | .wait base _ => base
  | .reconcile base _ => base
  | .create base _ _ => base
  | .setScalingBounds base _ _ _ => base
  | .unfreeze base _ _ _ => base
  | .freeze base _ _ => base
  | .reduce base _ _ => base
  | .delete base _ => base
  | .updateConfig base _ _ _ => base

abbrev Action.poolName (a : Action) : String := a.base.name

def Action.kind : Action → ActionType
  | .wait .. => .wait
  | .reconcile .. => .reconcile
  | .create .. => .create
  | .setScalingBounds .. => .setScalingBounds
  | .unfreeze .. => .unfreeze
  | .freeze .. => .freeze
  | .reduce .. => .reduce
  | .delete .. => .delete
  | .updateConfig .. => .updateConfig

/-- `time.Minute` -/
def waitPollHint : Nat := 60000000000

/-- Waits and failed-pool reconciliation end a projection. -/
def Action.endsProjection : Action → Bool
  | .wait .. => true
  | .reconcile .. => true
  | _ => false

end AroHcp.Nodepool
