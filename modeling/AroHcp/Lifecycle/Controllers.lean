import AroHcp.Lifecycle.ClusterService

/-! The controllers that create a cluster in Cluster Service and delete it there, and the part of
the frontend's delete that they watch. -/

namespace AroHcp.Lifecycle

open DocStore GoFmt Rollout

abbrev Prog := Sys Doc Call.Reply

/-- Twice the observed maximum of a write to Cluster Service. -/
def csWriteTimeout : Int := 15 * second

def csReadTimeout : Int := 15 * second

/-- How long the delete dispatcher waits for a Cluster Service ID, or for a cluster that is not
found, before it takes the cluster for never created. -/
def missingClusterServiceIDTimeout : Int := 120 * second

structure HCPClusterKey where
  subscriptionID : String
  resourceGroupName : String
  hcpClusterName : String
deriving DecidableEq, Repr

/-! ## The pending ID -/

def assignNeedsWork (cluster : Cluster) : Bool :=
  cluster.deletionTimestamp.isNone && cluster.pendingClusterServiceID.isNone &&
    !cluster.hasClusterServiceID

/-- `clusterPendingClusterServiceIDAssignSyncer.SyncOnce`, with the ID that `NewCSClusterUID` makes.
Whether there is work to do is decided on the cached cluster only. -/
def assignPendingClusterServiceID (uid : String) : Prog (Option String) := do
  match ← Sys.cached DocKey.cluster with
  | none => return none
  | some cached =>
    if assignNeedsWork cached.doc = false then return none else
    match ← Sys.get DocKey.cluster with
    | none => return none
    | some cluster =>
      let _ ← Sys.replace DocKey.cluster cluster.etag
        { cluster.doc with pendingClusterServiceID := some ⟨uid⟩ }
      return none

/-! ## Creation -/

/-- The part of `needsWork` that is about the cluster alone. -/
def createNeedsWork (cluster : Cluster) : Bool :=
  cluster.deletionTimestamp.isNone && cluster.pendingClusterServiceID.isSome &&
    !cluster.hasClusterServiceID

def createPreconditionDesiredVersionResolved (cluster : ServiceProviderCluster) : Bool :=
  cluster.desiredVersion.isSome

def createPreconditionDenyAssignmentsCreated (denyAssignmentsEnabled : Bool)
    (cluster : ServiceProviderCluster) : Bool :=
  !denyAssignmentsEnabled ||
    cluster.denyAssignments.pendingAzureResources.isEmpty &&
      !cluster.denyAssignments.azureResources.isEmpty &&
      cluster.denyAssignments.earliestRecheckTime.isSome

def createPreconditionDNSAllocated (cluster : Cluster) : Bool :=
  cluster.baseDomain ≠ "" && cluster.baseDomainPrefix ≠ ""

def HCPClusterKey.azureInfo (key : HCPClusterKey) (tenantID managedResourceGroup : String) :
    AzureInfo where
  subscriptionID := toLower key.subscriptionID
  resourceGroupName := toLower key.resourceGroupName
  resourceName := toLower key.hcpClusterName
  tenantID := tenantID
  managedResourceGroupName := managedResourceGroup

def findClusterByAzureInfo (want : AzureInfo) (clusters : List CSCluster) :
    Except String (Option CSCluster) :=
  clusters.foldlM (fun found cluster =>
    if cluster.azure ≠ some want then .ok found
    else if found.isSome then
      .error (s!"cluster service returned multiple clusters for one Azure resource: subscription_id=" ++
        s!"{quote want.subscriptionID} resource_group={quote want.resourceGroupName} " ++
        s!"resource_name={quote want.resourceName} tenant_id={quote want.tenantID} " ++
        s!"managed_resource_group={quote want.managedResourceGroupName}")
    else .ok (some cluster)) none

def buildCSCluster (key : HCPClusterKey) (tenantID : String) (cluster : Cluster)
    (pending : InternalID) (provisionShardID : String) : CSCluster where
  id := pending.clusterID
  azure := some (key.azureInfo tenantID cluster.managedResourceGroup)
  provisionShardID := provisionShardID

def provisionShardID (serviceProviderCluster : ServiceProviderCluster) :
    Prog (Except String String) := do
  match serviceProviderCluster.managementClusterResourceID with
  | none => return .error "ServiceProviderCluster has no Spec.ManagementClusterResourceID; placement is not resolved"
  | some id =>
    match id.parentName with
    | none => return .error "management cluster resource ID has no parent stamp"
    | some stampIdentifier =>
      match ← Sys.cached (DocKey.managementCluster stampIdentifier) with
      | none => return .error "management cluster not found"
      | some managementCluster =>
        match managementCluster.doc.clusterServiceProvisionShardID with
        | none => return .error "management cluster has no ClusterServiceProvisionShardID"
        | some shard => return .ok shard

def createClusterServiceCluster (key : HCPClusterKey) (deadline : Time) (cluster : Cluster)
    (pending : InternalID) (serviceProviderCluster : ServiceProviderCluster) (tenantID : String) :
    Prog (Except String CSCluster) := do
  match ← provisionShardID serviceProviderCluster with
  | .error err => return .error err
  | .ok shard =>
    let csCluster := buildCSCluster key tenantID cluster pending shard
    Sys.out (Call.postCluster csCluster deadline)
    match ← Sys.out (Call.postReply csCluster deadline) with
    | none => return .error "PostCluster failed"
    | some result =>
      if result.id ≠ pending.clusterID then
        return .error s!"cluster-service did not use our ID: {quote result.id} versus {quote pending.clusterID}"
      else return .ok result

def storeClusterServiceID (cluster : Versioned Cluster) (csCluster : CSCluster) :
    Prog (Option String) := do
  let _ ← Sys.replace DocKey.cluster cluster.etag
    { cluster.doc with
      pendingClusterServiceID := none
      clusterServiceID := some ⟨csCluster.id⟩ }
  return none

/-- What is left once the preconditions hold: adopts the cluster that Cluster Service has for the
Azure resource or makes one. -/
def findOrCreate (key : HCPClusterKey) (cluster : Versioned Cluster) (pending : InternalID)
    (serviceProviderCluster : ServiceProviderCluster) (tenantID : String) :
    Prog (Option String) := do
  let start ← Sys.out Call.now
  let deadline := start + csWriteTimeout
  match ← Sys.out (Call.listClusters deadline) with
  | none => return some "failed to list clusters"
  | some clusters =>
    match findClusterByAzureInfo (key.azureInfo tenantID cluster.doc.managedResourceGroup)
        clusters with
    | .error err => return some err
    | .ok (some csCluster) => storeClusterServiceID cluster csCluster
    | .ok none =>
      if createPreconditionDNSAllocated cluster.doc = false then return none else
      match ← createClusterServiceCluster key deadline cluster.doc pending serviceProviderCluster
          tenantID with
      | .error err => return some s!"failed to create cluster in CS: {err}"
      | .ok csCluster => storeClusterServiceID cluster csCluster

/-- The placement gate of `needsWork`. -/
def placementResolved : Prog Bool := do
  match ← Sys.cached DocKey.serviceProviderCluster with
  | none => return false
  | some serviceProviderCluster =>
    return serviceProviderCluster.doc.managementClusterResourceID.isSome

/-- `SyncOnce` from where the live cluster is found to need work. -/
def createFrom (key : HCPClusterKey) (denyAssignmentsEnabled : Bool) (cluster : Versioned Cluster)
    (pending : InternalID) : Prog (Option String) := do
  match ← Sys.cached DocKey.serviceProviderCluster with
  | none => return some "failed to get ServiceProviderCluster"
  | some existing =>
    if createPreconditionDesiredVersionResolved existing.doc = false then return none else
    if createPreconditionDenyAssignmentsCreated denyAssignmentsEnabled existing.doc = false then
      return none
    else
    match ← Sys.cached DocKey.subscription with
    | none => return some "subscription not found"
    | some subscription =>
      match subscription.doc.tenantId with
      | none => return some s!"subscription {key.subscriptionID} has no tenantId"
      | some tenantID => findOrCreate key cluster pending existing.doc tenantID

def createInClusterService (key : HCPClusterKey) (denyAssignmentsEnabled : Bool) :
    Prog (Option String) := do
  match ← Sys.cached DocKey.cluster with
  | none => return none
  | some cached =>
    if createNeedsWork cached.doc = false then return none else
    if (← placementResolved) = false then return none else
    match ← Sys.get DocKey.cluster with
    | none => return none
    | some cluster =>
      if createNeedsWork cluster.doc = false then return none else
      if (← placementResolved) = false then return none else
      match cluster.doc.pendingClusterServiceID with
      | none => return none
      | some pending => createFrom key denyAssignmentsEnabled cluster pending

/-! ## Deletion -/

/-- The frontend's delete as far as the cluster document goes: the deletion timestamp is set unless
there is one. -/
def deleteCluster : Prog (Option String) := do
  match ← Sys.get DocKey.cluster with
  | none => return none
  | some cluster =>
    let now ← Sys.out Call.now
    let _ ← Sys.replace DocKey.cluster cluster.etag
      { cluster.doc with deletionTimestamp := cluster.doc.deletionTimestamp.or (some now) }
    return none

def dispatchNeedsWork (cluster : Cluster) : Bool :=
  cluster.deletionTimestamp.isSome && cluster.clusterServiceDeletionTimestamp.isNone

def recoverPendingDeletionTarget (cluster : Cluster) : Option Cluster :=
  if cluster.deletionTimestamp.isNone || cluster.clusterServiceDeletionTimestamp.isSome then none
  else if cluster.hasClusterServiceID then none
  else match cluster.pendingClusterServiceID with
    | none => none
    | some pending =>
      if pending.clusterID = "" then none
      else some { cluster with
        clusterServiceID := some pending
        pendingClusterServiceID := none }

def firstSeenDeletionTimestamp : Prog Time := do
  match ← Sys.out Call.firstSeen with
  | some firstSeen => return firstSeen
  | none =>
    let now ← Sys.out Call.now
    Sys.out (Call.addFirstSeen now)
    return now

/-- Records that the deletion has been dispatched. -/
def stampClusterServiceDeletion (cluster : Versioned Cluster) : Prog (Option String) := do
  let now ← Sys.out Call.now
  let accepted ← Sys.replace DocKey.cluster cluster.etag
    { cluster.doc with clusterServiceDeletionTimestamp := some now }
  if accepted = false then return none else
  Sys.out Call.removeFirstSeen
  return none

/-- Stamps the cluster once the dispatcher has waited long enough. -/
def stampAfterWaiting (cluster : Versioned Cluster) (firstSeen : Time) : Prog (Option String) := do
  let now ← Sys.out Call.now
  if now - firstSeen < missingClusterServiceIDTimeout then return none
  else stampClusterServiceDeletion cluster

/-- `SyncOnce` from where the live cluster is found to need work. -/
def dispatchFrom (cluster : Versioned Cluster) : Prog (Option String) := do
  let firstSeen ← firstSeenDeletionTimestamp
  match recoverPendingDeletionTarget cluster.doc with
  | some replacement =>
    if (← Sys.replace DocKey.cluster cluster.etag replacement) then return none
    else return some "failed to replace Cluster"
  | none =>
    let start ← Sys.out Call.now
    match cluster.doc.clusterServiceID.filter (·.clusterID ≠ "") with
    | none => stampAfterWaiting cluster firstSeen
    | some csID =>
      match ← Sys.out (Call.deleteCluster csID (start + csWriteTimeout)) with
      | .ok => stampClusterServiceDeletion cluster
      | .notFound => stampAfterWaiting cluster firstSeen
      | .failed => return some "failed to delete cluster-service Cluster"

/-- `clusterClusterServiceDeleteDispatchSyncer.SyncOnce` -/
def dispatchDelete : Prog (Option String) := do
  match ← Sys.cached DocKey.cluster with
  | none => return none
  | some cached =>
    if dispatchNeedsWork cached.doc = false then return none else
    match ← Sys.get DocKey.cluster with
    | none => return none
    | some cluster =>
      if dispatchNeedsWork cluster.doc = false then return none
      else dispatchFrom cluster

def clearNeedsWork (cluster : Cluster) : Bool :=
  cluster.deletionTimestamp.isSome && cluster.clusterServiceDeletionTimestamp.isSome &&
    cluster.hasClusterServiceID

def clearClusterServiceID : Prog (Option String) := do
  match ← Sys.cached DocKey.cluster with
  | none => return none
  | some cached =>
    if clearNeedsWork cached.doc = false then return none else
    match ← Sys.get DocKey.cluster with
    | none => return none
    | some cluster =>
      if clearNeedsWork cluster.doc = false then return none else
      match cluster.doc.clusterServiceID with
      | none => return none
      | some csID =>
        let start ← Sys.out Call.now
        match ← Sys.out (Call.getClusterStatus csID (start + csReadTimeout)) with
        | .failed => return some "failed to get cluster-service Cluster"
        | .ok => return none
        | .notFound =>
          let _ ← Sys.replace DocKey.cluster cluster.etag
            { cluster.doc with clusterServiceID := none }
          return none

/-! ## The rest of the system -/

/-- Another writer of the cluster document. -/
def allocateDNS (baseDomain baseDomainPrefix : String) : Prog (Option String) := do
  match ← Sys.get DocKey.cluster with
  | none => return none
  | some cluster =>
    let _ ← Sys.replace DocKey.cluster cluster.etag
      { cluster.doc with baseDomain, baseDomainPrefix }
    return none

/-- Whoever maintains the documents beside the cluster. -/
def store (k : DocKey) (doc : Doc k) : Prog (Option String) := do
  match ← Sys.get k with
  | none =>
    let _ ← Sys.create k doc
    return none
  | some v =>
    let _ ← Sys.replace k v.etag doc
    return none

/-- One call of the clock, of Cluster Service or of the dispatcher's cache. -/
def happen (c : Call) : Prog (Option String) := do
  let _ ← Sys.out c
  return none

inductive Task where
  | assignPendingClusterServiceID (uid : String) (h : uid ≠ "")
  | createInClusterService (denyAssignmentsEnabled : Bool)
  | deleteCluster
  | dispatchDelete
  | clearClusterServiceID
  | allocateDNS (baseDomain baseDomainPrefix : String)
  | store (k : DocKey) (h : k ≠ .cluster) (doc : Doc k)
  | tick (duration : Nat)
  | takeEffect (place : Nat)
  | uninstall (id : String)
  | forget

def Task.program (key : HCPClusterKey) : Task → Prog (Option String)
  | assignPendingClusterServiceID uid _ => Lifecycle.assignPendingClusterServiceID uid
  | createInClusterService enabled => Lifecycle.createInClusterService key enabled
  | deleteCluster => Lifecycle.deleteCluster
  | dispatchDelete => Lifecycle.dispatchDelete
  | clearClusterServiceID => Lifecycle.clearClusterServiceID
  | allocateDNS baseDomain baseDomainPrefix => Lifecycle.allocateDNS baseDomain baseDomainPrefix
  | store k _ doc => Lifecycle.store k doc
  | tick duration => happen (.tick duration)
  | takeEffect place => happen (.takeEffect place)
  | uninstall id => happen (.uninstall id)
  | forget => happen .forget

end AroHcp.Lifecycle
