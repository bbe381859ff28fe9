import AroHcp.Lib.DocCall
import AroHcp.Lib.GoFmt
import AroHcp.Operations.Documents

/-! The managed resource group of a cluster: the documents of one cluster, what the controllers ask
of the database and of Azure, and the controller that creates the group and reflects it onto the
ServiceProviderCluster. -/

namespace AroHcp.AzureResources

open DocStore GoFmt Operations Program

/-! ## Documents -/

/-- A parsed Azure resource ID, as far as it is read. -/
structure ResourceID where
  text : String
  subscriptionID : String
  name : String
deriving DecidableEq, Repr

structure Cluster where
  location : String := ""
  managedResourceGroup : String
  deletionTimestamp : Option Time := none
  clusterServiceDeletionTimestamp : Option Time := none
  clusterServiceID : Option String := none
deriving DecidableEq, Repr

structure AzureReference where
  pendingAzureResource : Option ResourceID := none
  azureResource : Option ResourceID := none
deriving DecidableEq, Repr

structure ServiceProviderCluster where
  managedResourceGroup : AzureReference := {}
  kubeAPIServerCertificate : Option String := none
  ingressCertificate : Option String := none
  maestroReadonlyBundles : List String := []
  managementClusterResourceID : Option String := none
deriving DecidableEq, Repr

/-- A pending or confirmed reference is set. -/
def ServiceProviderCluster.hasReference (doc : ServiceProviderCluster) : Bool :=
  doc.managedResourceGroup.pendingAzureResource.isSome ||
    doc.managedResourceGroup.azureResource.isSome

/-- `armresources.ResourceGroup`; the provisioning state is missing if there are no properties. -/
structure ResourceGroup where
  name : Option String := none
  location : Option String := none
  managedBy : Option String := none
  provisioningState : Option String := none
deriving DecidableEq, Repr

structure Subscription where
  tenantId : Option String
deriving DecidableEq, Repr

/-- The documents of one cluster. -/
inductive Key where
  | cluster
  | serviceProviderCluster
deriving DecidableEq, Repr

@[reducible] def Doc : Key → Type
  | .cluster => Cluster
  | .serviceProviderCluster => ServiceProviderCluster

/-! ## Calls -/

structure ChildID where
  /-- the namespace and the type, such as `Microsoft.RedHatOpenShift/hcpOpenShiftClusters/nodePools` -/
  resourceType : String
  parentName : Option String
  name : String
deriving DecidableEq, Repr

/-- `TypedDocument` -/
structure ChildResource where
  cosmosID : String
  resourceID : Option ChildID
  resourceType : String
deriving DecidableEq, Repr

/-- The children that have to be gone before the cluster's own documents. -/
inductive ChildKind where
  | nodePools
  | externalAuths
  | credentialRequests
  | credentialRevocations
deriving DecidableEq, Repr

inductive DesireKind where
  | applyDesire
  | readDesire
deriving DecidableEq, Repr

inductive Call where
  | cachedCluster
  | cachedServiceProviderCluster
  | getCluster
  | getServiceProviderCluster
  | replaceServiceProviderCluster (etag : Nat) (doc : ServiceProviderCluster)
  | subscription (subscriptionID : String)
  /-- the first party application's client for the resource groups of a subscription -/
  | buildResourceGroupsClient (tenantID subscriptionID : String)
  | getResourceGroup (name : String)
  | createOrUpdate (name : String) (group : ResourceGroup)
  | beginDelete (name : String)
  | list (kind : ChildKind)
  | listChildren
  | deleteChild (id : ChildID)
  /-- whether there is a kube-applier client for the management cluster -/
  | kubeApplierClient (managementCluster : String)
  | listDesires (managementCluster : String)
  /-- the tag with the owning controller of a desire -/
  | getDesire (kind : DesireKind) (managementCluster name : String)
  | deleteDesire (managementCluster cosmosID : String)

/-- What a listing yields, and the error that ends it. -/
abbrev Listing (ι : Type) := Except String (List ι × Option String)

inductive ReplaceReply where
  | replaced (v : Versioned ServiceProviderCluster)
  | preconditionFailed
  | failed (err : String)

@[reducible] def Call.Reply : Call → Type
  | cachedCluster | getCluster => Read Cluster
  | cachedServiceProviderCluster | getServiceProviderCluster => Read ServiceProviderCluster
  | replaceServiceProviderCluster _ _ => ReplaceReply
  | subscription _ => Except String Subscription
  | buildResourceGroupsClient _ _ => Option String
  -- none if the resource group is not found
  | getResourceGroup _ => Except String (Option ResourceGroup)
  | createOrUpdate _ _ => Except String ResourceGroup
  -- false if the resource group is not found
  | beginDelete _ => Except String Bool
  | list _ => Listing String
  | listChildren | listDesires _ => Listing ChildResource
  | deleteChild _ | deleteDesire _ _ => Option String
  | kubeApplierClient _ => Bool
  | getDesire _ _ _ => Except String (Option String)

abbrev Prog := Program Call Call.Reply

/-! ## The controller -/

/-- The identity of the cluster, and `azcorearm.ParseResourceID`, which reads it back. -/
structure Site where
  clusterID : ResourceID
  parseResourceID : String → Except String ResourceID
  clusterID_parses : ∃ id, parseResourceID clusterID.text = .ok id ∧
    toLower id.text = toLower clusterID.text

def toResourceGroupResourceIDString (subscriptionID resourceGroupName : String) : String :=
  toLower ("/subscriptions/" ++ subscriptionID ++ "/resourceGroups/" ++ resourceGroupName)

def toResourceGroupResourceID (site : Site) (resourceGroupName : String) : Except String ResourceID :=
  site.parseResourceID
    (toResourceGroupResourceIDString site.clusterID.subscriptionID resourceGroupName)

def ownedByAnotherCluster (site : Site) (managedBy : Option String) : Bool :=
  match managedBy with
  | none => false
  | some text =>
    if text = "" then false
    else
      match site.parseResourceID text with
      | .error _ => true
      | .ok id => toLower id.text ≠ toLower site.clusterID.text

def managedResourceGroupNeedsWork (cluster : Cluster) (spc : ServiceProviderCluster) : Bool :=
  if cluster.deletionTimestamp.isSome then spc.hasReference
  else spc.managedResourceGroup.azureResource.isNone

def buildDesiredManagedResourceGroup (site : Site) (cluster : Cluster) (name : String) :
    ResourceGroup where
  name := some name
  location := some cluster.location
  managedBy := some site.clusterID.text

def managedByValue (managedBy : Option String) : String :=
  managedBy.getD ""

def provisioningStateSucceeded : String := "Succeeded"

def validateManagedResourceGroup (site : Site) (id : ResourceID) (group : ResourceGroup) :
    Except String Bool :=
  if ownedByAnotherCluster site group.managedBy then
    .error (s!"managed resource group {quote id.name} is owned by another cluster (ManagedBy=" ++
      s!"{quote (managedByValue group.managedBy)}), not {quote site.clusterID.text}")
  else
    match group.provisioningState with
    | none => .error s!"managed resource group {quote id.name} has no provisioning state"
    | some state =>
      if state = provisioningStateSucceeded then .ok false
      else if state ∈ ["Accepted", "Creating", "Updating", "Deleting"] then .ok true
      else .error (s!"managed resource group {quote id.name} is in provisioning state " ++
        s!"{quote state}, want {quote provisioningStateSucceeded}")

/-- `persistIfChanged`: the document to use for a later write. A refused write counts as a success.
-/
def persistIfChanged (existing : Versioned ServiceProviderCluster)
    (replacement : ServiceProviderCluster) :
    Prog (Except String (Versioned ServiceProviderCluster)) := do
  if existing.doc = replacement then return .ok existing
  else
    match ← perform (Call.replaceServiceProviderCluster existing.etag replacement) with
    | .preconditionFailed => return .ok existing
    | .failed err => return .error s!"failed to replace ServiceProviderCluster: {err}"
    | .replaced updated => return .ok updated

/-- Writes another reference, by the error. -/
def persistReference (existing : Versioned ServiceProviderCluster) (reference : AzureReference) :
    Prog (Option String) := do
  match ← persistIfChanged existing { existing.doc with managedResourceGroup := reference } with
  | .error err => return some err
  | .ok _ => return none

def persistManagedResourceGroup (existing : Versioned ServiceProviderCluster) (id : ResourceID) :
    Prog (Option String) :=
  persistReference existing { pendingAzureResource := none, azureResource := some id }

def clearManagedResourceGroupReferences (existing : Versioned ServiceProviderCluster) :
    Prog (Option String) :=
  persistReference existing { pendingAzureResource := none, azureResource := none }

def resourceGroupsClient (site : Site) : Prog (Option String) := do
  let subscriptionID := site.clusterID.subscriptionID
  match ← perform (Call.subscription subscriptionID) with
  | .error err => return some s!"failed to get subscription {quote subscriptionID}: {err}"
  | .ok subscription =>
    match subscription.tenantId with
    | none => return some s!"subscription {quote subscriptionID} has no tenant ID"
    | some tenantID =>
      match ← perform (Call.buildResourceGroupsClient tenantID subscriptionID) with
      | some err => return some s!"failed to build resource groups client: {err}"
      | none => return none

/-- What follows once the group is known: an error, a requeue, or the confirmation. -/
def confirmManagedResourceGroup (site : Site) (existing : Versioned ServiceProviderCluster)
    (id : ResourceID) (group : ResourceGroup) : Prog (Option String) :=
  match validateManagedResourceGroup site id group with
  | .error err => return some err
  | .ok true => return none
  | .ok false => persistManagedResourceGroup existing id

/-- The part of `reconcileManagedResourceGroup` that follows the write of the intent. -/
def ensureManagedResourceGroup (site : Site) (cluster : Cluster)
    (existing : Versioned ServiceProviderCluster) (id : ResourceID) : Prog (Option String) := do
  match ← resourceGroupsClient site with
  | some err => return some err
  | none =>
    match ← perform (Call.getResourceGroup id.name) with
    | .error err => return some s!"failed to get managed resource group {quote id.name}: {err}"
    | .ok (some group) => confirmManagedResourceGroup site existing id group
    | .ok none =>
      match ← perform (Call.createOrUpdate id.name
          (buildDesiredManagedResourceGroup site cluster id.name)) with
      | .error err => return some s!"failed to create managed resource group {quote id.name}: {err}"
      | .ok created => confirmManagedResourceGroup site existing id created

def reconcileManagedResourceGroup (site : Site) (cluster : Cluster)
    (existing : Versioned ServiceProviderCluster) : Prog (Option String) := do
  if cluster.managedResourceGroup = "" then
    return some s!"managed resource group name is empty for cluster {quote site.clusterID.text}"
  else
    match toResourceGroupResourceID site cluster.managedResourceGroup with
    | .error err => return some s!"failed to build managed resource group resource ID: {err}"
    | .ok id =>
      if existing.doc.managedResourceGroup.pendingAzureResource.isSome then
        ensureManagedResourceGroup site cluster existing id
      else
        let reference := { existing.doc.managedResourceGroup with pendingAzureResource := some id }
        match ← persistIfChanged existing { existing.doc with managedResourceGroup := reference } with
        | .error err => return some err
        | .ok persisted => ensureManagedResourceGroup site cluster persisted id

/-- The group is there although Cluster Service has deleted the cluster, and nothing deletes it. -/
def isOrphaned (cluster : Cluster) (provisioningState : String) : Bool :=
  cluster.deletionTimestamp.isSome && cluster.clusterServiceDeletionTimestamp.isSome &&
    cluster.clusterServiceID.getD "" = "" && provisioningState ≠ "Deleting"

def deleteManagedResourceGroup (site : Site) (cluster : Cluster)
    (existing : Versioned ServiceProviderCluster) : Prog (Option String) := do
  let reference := existing.doc.managedResourceGroup
  match ← resourceGroupsClient site with
  | some err => return some err
  | none =>
    match reference.azureResource <|> reference.pendingAzureResource with
    | none => return some "nil pointer"
    | some id =>
      match ← perform (Call.getResourceGroup id.name) with
      | .ok none => clearManagedResourceGroupReferences existing
      | .error err => return some err
      | .ok (some group) =>
        if ownedByAnotherCluster site group.managedBy then
          clearManagedResourceGroupReferences existing
        else
          match group.provisioningState with
          | none => return some s!"managed resource group {quote id.name} has no provisioning state"
          | some state =>
            if isOrphaned cluster state then
              match ← perform (Call.beginDelete id.name) with
              | .ok false => clearManagedResourceGroupReferences existing
              | .error err =>
                return some s!"failed to delete managed resource group {quote id.name}: {err}"
              | .ok true => return none
            else return none

def managedResourceGroupSyncOnce (site : Site) : Prog (Option String) := do
  match ← perform Call.cachedCluster with
  | .error err => return some s!"failed to get Cluster: {err}"
  | .ok none => return none
  | .ok (some cluster) =>
    match ← perform Call.cachedServiceProviderCluster with
    | .error err => return some s!"failed to get ServiceProviderCluster: {err}"
    | .ok none => return none
    | .ok (some existing) =>
      if !managedResourceGroupNeedsWork cluster.doc existing.doc then return none
      else if cluster.doc.deletionTimestamp.isSome then
        deleteManagedResourceGroup site cluster.doc existing
      else reconcileManagedResourceGroup site cluster.doc existing

end AroHcp.AzureResources
