import AroHcp.Version.Admission

/-! Version changes of one cluster and its node pools as a state machine: the customer's updates,
the assignments of the controllers and the progress of the upgrades, each step taken on the current
documents. -/

namespace AroHcp.Version

open Rollout SemVer

structure Pool (V : Type) where
  nodePool : NodePool
  serviceProviderNodePool : ServiceProviderNodePool V
deriving DecidableEq, Repr

structure State (V : Type) where
  cluster : Cluster V
  serviceProviderCluster : ServiceProviderCluster V
  pools : List (Pool V)
deriving DecidableEq, Repr

inductive Action (V : Type) where
  | updateCluster (version : VersionProfile) (desiredVersionChannels : List String)
      (imageContentSources : Option (List String))
  /-- a sync of the minor upgrade controller, with the rollouts it finds -/
  | assignMinorUpgrade (rollout : String → Read (ControlPlaneVersionRollout V)) (now : Time)
  /-- the control plane starts to move to its stored desired version -/
  | adopt (now : Time)
  /-- the control plane has left all versions but the newest -/
  | settle
  | createNodePool (name id : String) (experimentalFeaturesEnabled : Bool)
  | updateNodePool (i : Nat) (id : String) (experimentalFeaturesEnabled : Bool)
  /-- a sync of the node pool version controller -/
  | storeNodePoolVersion (i : Nat) (subscription : Read Bool) (cincinnati : CincinnatiAnswer)
  /-- the node pool starts to move to its stored desired version -/
  | moveNodePool (i : Nat)
  /-- the node pool has left all versions but the newest -/
  | settleNodePool (i : Nat)

variable {V : Type} [SemVer V]

def State.view (s : State V) (rollout : String → Read (ControlPlaneVersionRollout V)) :
    ClusterView V where
  serviceProviderCluster := .ok s.serviceProviderCluster
  cluster := .ok s.cluster
  rollout := rollout
  nodePools := .ok (s.pools.map Pool.nodePool)
  serviceProviderNodePool name :=
    match s.pools.find? fun pool => pool.nodePool.name = name with
    | some pool => .ok pool.serviceProviderNodePool
    | none => .error .notFound

def State.admissionContext (s : State V) (desiredVersionChannels : List String)
    (imageContentSources : Option (List String)) : ClusterAdmissionContext V where
  serviceProviderCluster := some s.serviceProviderCluster
  desiredVersionChannels := desiredVersionChannels
  imageContentSources := imageContentSources
  clusterNodePools := s.pools.map fun pool =>
    ⟨some pool.nodePool, some pool.serviceProviderNodePool⟩

/-- Replaces the `i`-th pool by what `f` makes of it, if it makes something. -/
def State.changePool (s : State V) (i : Nat) (f : Pool V → Option (Pool V)) : Option (State V) :=
  (s.pools[i]?).bind fun pool => (f pool).map fun pool => { s with pools := s.pools.set i pool }

def State.setActiveVersions (s : State V) (activeVersions : List (ActiveVersion V)) : State V :=
  { s with serviceProviderCluster :=
    { s.serviceProviderCluster with activeVersions := activeVersions } }

def Pool.update (pool : Pool V) (spc : ServiceProviderCluster V) (id : String)
    (experimentalFeaturesEnabled : Bool) : Option (Pool V) :=
  if admitNodePoolVersion (some pool.serviceProviderNodePool) spc experimentalFeaturesEnabled id
      (some pool.nodePool.versionID) = [] then
    some { pool with nodePool := { pool.nodePool with versionID := id } }
  else none

def Pool.store (pool : Pool V) (spc : ServiceProviderCluster V) (subscription : Read Bool)
    (cincinnati : CincinnatiAnswer) : Option (Pool V) :=
  match nodePoolVersionSyncOnce pool.nodePool pool.serviceProviderNodePool spc subscription
      cincinnati with
  | .store version => some { pool with serviceProviderNodePool :=
      { pool.serviceProviderNodePool with desiredVersion := some version } }
  | _ => none

def Pool.setActiveVersions (pool : Pool V) (activeVersions : List (Option V)) : Pool V :=
  { pool with serviceProviderNodePool :=
    { pool.serviceProviderNodePool with activeVersions := activeVersions } }

/-- The state after an action, `none` if the action is refused or not possible. -/
def step (s : State V) : Action V → Option (State V)
  | .updateCluster version channels sources =>
    let cluster := { s.cluster with versionID := version.id, channelGroup := version.channelGroup }
    if admitCluster (s.admissionContext channels sources) cluster (some s.cluster) = [] then
      some { s with cluster := cluster }
    else none
  | .assignMinorUpgrade rollout now =>
    match minorUpgradeSyncOnce (s.view rollout) now with
    | .replace replacement _ => some { s with serviceProviderCluster := replacement }
    | _ => none
  | .adopt now =>
    s.serviceProviderCluster.desiredVersion.map fun desired =>
      s.setActiveVersions
        (⟨some desired, .other "Partial", now⟩ :: s.serviceProviderCluster.activeVersions)
  | .settle =>
    s.serviceProviderCluster.activeVersions.head?.map fun newest =>
      s.setActiveVersions [{ newest with state := .completed }]
  | .createNodePool name id experimentalFeaturesEnabled =>
    if s.pools.any fun pool => pool.nodePool.name = name then none
    else if admitNodePoolVersion none s.serviceProviderCluster experimentalFeaturesEnabled id
        none = [] then
      some { s with pools := s.pools ++ [⟨{ name := name, versionID := id }, ⟨none, []⟩⟩] }
    else none
  | .updateNodePool i id experimentalFeaturesEnabled =>
    s.changePool i fun pool =>
      pool.update s.serviceProviderCluster id experimentalFeaturesEnabled
  | .storeNodePoolVersion i subscription cincinnati =>
    s.changePool i fun pool => pool.store s.serviceProviderCluster subscription cincinnati
  | .moveNodePool i =>
    s.changePool i fun pool => pool.serviceProviderNodePool.desiredVersion.map fun desired =>
      pool.setActiveVersions (some desired :: pool.serviceProviderNodePool.activeVersions)
  | .settleNodePool i =>
    s.changePool i fun pool => pool.serviceProviderNodePool.activeVersions.head?.map fun newest =>
      pool.setActiveVersions [newest]

end AroHcp.Version
