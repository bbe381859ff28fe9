import AroHcp.Lib.DocStore
import AroHcp.Rollout.Assignment

/-! The desired-version controllers at work on one database. Each sync works from copies its caches
hold, however old; its replaces wait and are answered later, in any order. Everyone else may write
or remove any document at any time. -/

namespace AroHcp.Rollout

open DocStore SemVer Version

structure ClusterKey where
  subscriptionID : String
  resourceGroupName : String
  clusterName : String
deriving DecidableEq, Repr

inductive DocKey where
  | serviceProviderCluster (key : ClusterKey)
  | cluster (key : ClusterKey)
  | nodePool (key : ClusterKey) (name : String)
  | serviceProviderNodePool (key : ClusterKey) (name : String)
  | rollout (channel : String)
deriving DecidableEq, Repr

@[reducible] def Doc (V : Type) : DocKey → Type
  | .serviceProviderCluster _ => ServiceProviderCluster V
  | .cluster _ => Cluster V
  | .nodePool _ _ => NodePool
  | .serviceProviderNodePool _ _ => ServiceProviderNodePool V
  | .rollout _ => ControlPlaneVersionRollout V

/-- What the caches answer to a controller that works on one cluster: documents that were stored at
some time, not necessarily at the same time. -/
structure CachedView {V : Type} (s : Store (Doc V)) (key : ClusterKey) extends ClusterView V where
  /-- the ETag of the cached `ServiceProviderCluster` -/
  etag : Nat
  serviceProviderCluster_past : ∀ spc, serviceProviderCluster = .ok spc →
    s.Past (.serviceProviderCluster key) ⟨etag, spc⟩
  cluster_past : ∀ doc, cluster = .ok doc → ∃ etag, s.Past (.cluster key) ⟨etag, doc⟩
  rollout_past : ∀ channel doc, rollout channel = .ok doc →
    ∃ etag, s.Past (.rollout channel) ⟨etag, doc⟩
  nodePools_past : ∀ pools, nodePools = .ok pools →
    ∀ pool ∈ pools, ∃ etag, s.Past (.nodePool key pool.name) ⟨etag, pool⟩
  serviceProviderNodePool_past : ∀ name doc, serviceProviderNodePool name = .ok doc →
    ∃ etag, s.Past (.serviceProviderNodePool key name) ⟨etag, doc⟩

/-- What the caches answer to the progressive rollout of one channel. -/
structure ChannelView {V : Type} (s : Store (Doc V)) (channel : String) where
  rollout : Versioned (ControlPlaneVersionRollout V)
  clusters : List (Cluster V)
  serviceProviderClusters : List (Versioned (ServiceProviderCluster V))
  rollout_past : s.Past (.rollout channel) rollout
  clusters_past : ∀ cluster ∈ clusters, ∃ key etag, s.Past (.cluster key) ⟨etag, cluster⟩
  serviceProviderClusters_past : ∀ copy ∈ serviceProviderClusters,
    ∃ key, s.Past (.serviceProviderCluster key) copy

/-- A replace that has been sent and not been answered. -/
structure PendingReplace (V : Type) where
  key : ClusterKey
  etag : Nat
  replacement : ServiceProviderCluster V

structure World (V : Type) where
  store : Store (Doc V)
  pending : List (PendingReplace V)

variable {V : Type} [SemVer V]

inductive Controller where
  | forced
  | initial
  | minorUpgrade
deriving DecidableEq, Repr

def Controller.syncOnce (controller : Controller) (key : ClusterKey) (view : ClusterView V)
    (now : Time) : Sync V :=
  match controller with
  | .forced => forcedSyncOnce key.clusterName view now
  | .initial => initialSyncOnce view now
  | .minorUpgrade => minorUpgradeSyncOnce view now

def ChannelView.input {s : Store (Doc V)} {channel : String} (view : ChannelView s channel)
    (now : Time) : SyncInput V where
  channel := channel
  rollout := some view.rollout.doc
  clusters := view.clusters
  serviceProviderClusters := view.serviceProviderClusters.map Versioned.doc
  now := now
  reservation := .stored
  assignment _ := .stored

def ChannelView.Assigns {s : Store (Doc V)} {channel : String} (view : ChannelView s channel)
    (config : RolloutConfig) (select : ClusterSelector V) (now : Time) (p : PendingReplace V) :
    Prop :=
  ∃ copy ∈ view.serviceProviderClusters,
    (copy.doc, p.replacement) ∈ (syncOnce config select (view.input now)).assigned ∧
      serviceProviderClusterCoords copy.doc =
        some (p.key.subscriptionID, p.key.resourceGroupName, p.key.clusterName) ∧
      p.etag = copy.etag

/-- The database accepts one of the waiting replaces. -/
inductive Accept : World V → World V → Prop
  | intro (store store' : Store (Doc V)) (before after : List (PendingReplace V))
      (p : PendingReplace V)
      (h : store.replace (.serviceProviderCluster p.key) p.etag p.replacement = some store') :
      Accept ⟨store, before ++ p :: after⟩ ⟨store', before ++ after⟩

inductive Step : World V → World V → Prop
  /-- anyone else stores a document: a customer, an administrator, another controller -/
  | write {w : World V} (k : DocKey) (doc : Doc V k) :
      Step w { w with store := w.store.put k doc }
  | remove {w : World V} (k : DocKey) : Step w { w with store := w.store.remove k }
  | sync {w : World V} (controller : Controller) (key : ClusterKey)
      (view : CachedView w.store key) (now : Time) (replacement : ServiceProviderCluster V)
      (failure : String)
      (h : controller.syncOnce key view.toClusterView now = .replace replacement failure) :
      Step w { w with pending := ⟨key, view.etag, replacement⟩ :: w.pending }
  /-- the progressive rollout reserves a batch, which lets it send its assignments -/
  | reserve {w : World V} (config : RolloutConfig) (permutation : Nat → List Nat)
      (channel : String) (view : ChannelView w.store channel) (now : Time) (store : Store (Doc V))
      (assignments : List (PendingReplace V))
      (h : w.store.replace (.rollout channel) view.rollout.etag
        { view.rollout.doc with lastAssignmentTime := some now } = some store)
      (hassigns : ∀ p ∈ assignments,
        view.Assigns config (randomClusterSelector permutation) now p) :
      Step w ⟨store, assignments ++ w.pending⟩
  | accept {w w' : World V} (h : Accept w w') : Step w w'
  | refuse (store : Store (Doc V)) (before after : List (PendingReplace V))
      (p : PendingReplace V) : Step ⟨store, before ++ p :: after⟩ ⟨store, before ++ after⟩

end AroHcp.Rollout
