import AroHcp.AzureResources.ManagedResourceGroup
import AroHcp.Lib.GoStrings

/-! The controller that deletes the documents below a cluster that is being deleted, the
ServiceProviderCluster among them. -/

namespace AroHcp.AzureResources

open DocStore GoFmt Program

def serviceProviderClusterResourceType : String :=
  "Microsoft.RedHatOpenShift/hcpOpenShiftClusters/serviceProviderClusters"

def clusterControllerResourceType : String :=
  "Microsoft.RedHatOpenShift/hcpOpenShiftClusters/hcpOpenShiftControllers"

def DesireKind.resourceType : DesireKind → String
  | applyDesire => "Microsoft.RedHatOpenShift/hcpOpenShiftClusters/applyDesires"
  | readDesire => "Microsoft.RedHatOpenShift/hcpOpenShiftClusters/readDesires"

/-- The subtrees that have a deletion of their own. -/
def skipSubtreeTypes : List String :=
  ["hcpOpenShiftClusters/nodePools", "hcpOpenShiftClusters/externalAuths",
    "hcpOpenShiftClusters/systemAdminCredentialRequests",
    "hcpOpenShiftClusters/systemAdminCredentialRevocations"]

/-- The type without its namespace. -/
def typeOf (resourceType : String) : String :=
  String.ofList ((resourceType.toList.dropWhile (· ≠ '/')).drop 1)

@[irreducible] def hasSkippedResourceTypePrefix (id : ChildID) (skipSubtreeTypes : List String) :
    Bool :=
  let resourceTypeLower := toLower (typeOf id.resourceType)
  skipSubtreeTypes.any fun skip =>
    resourceTypeLower = toLower skip || GoStrings.startsWith resourceTypeLower (toLower skip ++ "/")

def childCleanupNeedsWork (cluster : Cluster) : Bool :=
  cluster.deletionTimestamp.isSome && cluster.clusterServiceDeletionTimestamp.isSome &&
    cluster.clusterServiceID.isNone

/-- What the errors call the children of a kind. -/
def ChildKind.plural : ChildKind → String
  | nodePools => "node pools"
  | externalAuths => "external auths"
  | credentialRequests => "credential requests"
  | credentialRevocations => "credential revocations"

def ChildKind.singular : ChildKind → String
  | nodePools => "nodepool"
  | externalAuths => "externalauth"
  | credentialRequests => "credential request"
  | credentialRevocations => "credential revocation"

def deletePreconditionAllDeleted (kind : ChildKind) : Prog (Except String Bool) := do
  match ← perform (Call.list kind) with
  | .error err => return .error s!"failed to list {kind.plural}: {err}"
  | .ok (_ :: _, _) => return .ok false
  | .ok ([], some err) => return .error s!"error iterating {kind.plural}: {err}"
  | .ok ([], none) => return .ok true

/-- Whether the children of all the kinds are gone. -/
def allDeleted : List ChildKind → Prog (Except String Bool)
  | [] => return .ok true
  | kind :: kinds => do
    match ← deletePreconditionAllDeleted kind with
    | .error err => return .error s!"failed to check {kind.singular} precondition: {err}"
    | .ok false => return .ok false
    | .ok true => allDeleted kinds

/-! ## Desires -/

def backupScheduleDesireNamePrefix : String := "backupschedule-"

/-- A desire of its kind is left to the controller that owns it. -/
def DesireKind.isKept : DesireKind → String → Bool
  | applyDesire, owner => owner ≠ ""
  | readDesire, owner => owner = "ClusterResources"

def DesireKind.text : DesireKind → String
  | applyDesire => "ApplyDesire"
  | readDesire => "ReadDesire"

/-- `extraDeleteGateShouldDeleteApplyDesire` or `extraDeleteGateShouldDeleteReadDesire`, followed by
`skipBackupDesires` -/
def desireGate (kind : DesireKind) (managementCluster : String) (id : ChildID) :
    Prog (Except String Bool) := do
  match ← perform (Call.getDesire kind managementCluster (toLower id.name)) with
  | .error err => return .error s!"failed to get {kind.text} {quote id.name}: {err}"
  | .ok none => return .ok false
  | .ok (some owner) =>
    if kind.isKept owner then return .ok false
    else return .ok (!GoStrings.startsWith id.name backupScheduleDesireNamePrefix)

def desireShouldDelete (managementCluster : String) (resource : ChildResource) (id : ChildID) :
    Prog (Except String Bool) :=
  if toLower resource.resourceType = toLower DesireKind.applyDesire.resourceType then
    desireGate .applyDesire managementCluster id
  else if toLower resource.resourceType = toLower DesireKind.readDesire.resourceType then
    desireGate .readDesire managementCluster id
  else return .ok true

def deleteDesires (managementCluster : String) : List ChildResource → Prog (Option String)
  | [] => return none
  | resource :: rest => do
    match resource.resourceID with
    | none =>
      return some s!"kube-applier document at cosmosID {quote resource.cosmosID} has no resourceID. Refusing to delete"
    | some id =>
      match ← desireShouldDelete managementCluster resource id with
      | .error err => return some err
      | .ok false => deleteDesires managementCluster rest
      | .ok true =>
        match ← perform (Call.deleteDesire managementCluster resource.cosmosID) with
        | some err =>
          return some s!"failed to delete cluster-scoped kube-applier resource {quote resource.cosmosID}: {err}"
        | none => deleteDesires managementCluster rest

def ensureClusterScopedKubeApplierResourcesDeleted : Prog (Option String) := do
  match ← perform Call.getServiceProviderCluster with
  | .error err => return some s!"failed to get ServiceProviderCluster: {err}"
  | .ok none => return none
  | .ok (some spc) =>
    match spc.doc.managementClusterResourceID with
    | none => return none
    | some managementCluster =>
      if ← perform (Call.kubeApplierClient managementCluster) then
        match ← perform (Call.listDesires managementCluster) with
        | .error err => return some s!"failed to list cluster-scoped kube-applier resources: {err}"
        | .ok (resources, ending) =>
          match ← deleteDesires managementCluster resources with
          | some err => return some err
          | none =>
            return ending.map fun err =>
              s!"error iterating cluster-scoped kube-applier resources: {err}"
      else return none

/-! ## The gate of the ServiceProviderCluster -/

def extraDeleteGateShouldDeleteServiceProviderCluster (id : ChildID) : Prog (Except String Bool) := do
  match id.parentName with
  | none =>
    return .error s!"service provider cluster resource ID missing cluster parent: {id.name}"
  | some _ =>
    match ← perform Call.getServiceProviderCluster with
    | .error err => return .error s!"failed to get ServiceProviderCluster: {err}"
    | .ok none => return .ok false
    | .ok (some spc) =>
      if spc.doc.hasReference then return .ok false
      else if spc.doc.kubeAPIServerCertificate.isSome || spc.doc.ingressCertificate.isSome then
        return .ok false
      else if spc.doc.maestroReadonlyBundles ≠ [] then return .ok false
      else
        match spc.doc.managementClusterResourceID with
        | none => return .ok true
        | some managementCluster =>
          if ← perform (Call.kubeApplierClient managementCluster) then
            match ← perform (Call.listDesires managementCluster) with
            | .error err =>
              return .error s!"failed to list cluster-scoped kube-applier resources: {err}"
            | .ok (_ :: _, _) => return .ok false
            | .ok ([], some err) =>
              return .error s!"error iterating cluster-scoped kube-applier resources: {err}"
            | .ok ([], none) => return .ok true
          else return .ok true

/-! ## The sweep -/

/-- The gate of the resource type, if it has one. -/
@[irreducible] def childShouldDelete (child : ChildResource) (id : ChildID) :
    Prog (Except String Bool) :=
  if toLower child.resourceType = toLower serviceProviderClusterResourceType then
    extraDeleteGateShouldDeleteServiceProviderCluster id
  else return .ok (toLower child.resourceType ≠ toLower clusterControllerResourceType)

def deleteChildren : List ChildResource → Prog (Option String)
  | [] => return none
  | child :: rest => do
    match child.resourceID with
    | none =>
      return some s!"child resource at cosmosID {quote child.cosmosID} has no resourceID; refusing to delete"
    | some id =>
      if hasSkippedResourceTypePrefix id skipSubtreeTypes then deleteChildren rest
      else
        match ← childShouldDelete child id with
        | .error err => return some err
        | .ok false => deleteChildren rest
        | .ok true =>
          match ← perform (Call.deleteChild id) with
          | some err => return some err
          | none => deleteChildren rest

/-- The work of `SyncOnce` on a cluster that needs it. -/
def cleanupChildren : Prog (Option String) := do
  match ← allDeleted [.nodePools, .externalAuths, .credentialRequests, .credentialRevocations] with
  | .error err => return some err
  | .ok false => return none
  | .ok true =>
    match ← ensureClusterScopedKubeApplierResourcesDeleted with
    | some err => return some s!"failed to delete cluster-scoped kube-applier content: {err}"
    | none =>
      match ← perform Call.listChildren with
      | .error err => return some s!"failed to list cluster child resources: {err}"
      | .ok (children, ending) =>
        match ← deleteChildren children with
        | some err => return some err
        | none => return ending

def childCleanupSyncOnce : Prog (Option String) := do
  match ← perform Call.cachedCluster with
  | .error err => return some s!"failed to get cluster from cache: {err}"
  | .ok none => return none
  | .ok (some cachedCluster) =>
    if !childCleanupNeedsWork cachedCluster.doc then return none
    else
      match ← perform Call.getCluster with
      | .error err => return some s!"failed to get cluster: {err}"
      | .ok none => return none
      | .ok (some cluster) =>
        if !childCleanupNeedsWork cluster.doc then return none
        else cleanupChildren

end AroHcp.AzureResources
