import AroHcp.ClusterResources.Classify

/-! One pass of the controller over the resources that Cluster Service reports: it writes a desire
for each of them and turns the desires that none of them stands for into deletes. -/

namespace AroHcp.ClusterResources

open Desires DocStore GoFmt Program Unstructured

def clusterResourcesControllerName : String := "ClusterResources"

def ownerTags : List (String × String) := [(tagControllerName, clusterResourcesControllerName)]

section

variable (lib : Libraries) (managementCluster : String)

/-! ## Building desires -/

def buildApplyDesire (scope : DesireScope) (desireName : String) (target : ResourceReference)
    (obj : Json) : Except String ApplyDesire :=
  let resourceID := DesireKey.toLower ⟨scope, desireName⟩
  match lib.parseApplyDesireID resourceID with
  | .error err => .error ("failed to parse ApplyDesire resource ID: " ++ err)
  | .ok _ =>
    match lib.marshal obj with
    | .error err => .error ("failed to marshal kube object: " ++ err)
    | .ok rawJSON => .ok
      { resourceID
        spec := ⟨managementCluster, .serverSideApply, target, some ⟨some rawJSON, some "work-agent"⟩⟩
        status := {}
        tags := ownerTags }

def buildClusterResourceApplyDesire (desireName : String) : ResourceReference → Json →
    Except String ApplyDesire :=
  buildApplyDesire lib managementCluster .cluster desireName

def buildNodePoolResourceApplyDesire (nodePoolName desireName : String) : ResourceReference → Json →
    Except String ApplyDesire :=
  buildApplyDesire lib managementCluster (.nodePool nodePoolName) desireName

def buildReadDesire (scope : DesireScope) (desireName : String) (target : ResourceReference) :
    Except String ReadDesire :=
  let resourceID := DesireKey.toLower ⟨scope, desireName⟩
  match lib.parseReadDesireID resourceID with
  | .error err => .error ("failed to parse ReadDesire resource ID: " ++ err)
  | .ok _ => .ok ⟨resourceID, managementCluster, target, ownerTags⟩

/-- What a resource of the response is: its object, the reference to it and its desire name. -/
structure Recognized where
  obj : Json
  target : ResourceReference
  classified : ClassifiedResource

/-- Decodes, maps and classifies a resource. -/
def recognize (resourceKey resourceValue : String) : Except String Recognized :=
  match lib.unmarshal resourceValue with
  | .error err => .error ("failed to unmarshal resource " ++ resourceKey ++ ": " ++ err)
  | .ok obj =>
    match resourceFor lib (groupVersionKind obj) with
    | .error err => .error ("failed to resolve resource " ++ resourceKey ++ ": " ++ err)
    | .ok gvr =>
      match classifyClusterResource obj with
      | .error err => .error err
      | .ok classified =>
        .ok ⟨obj, ⟨gvr.group, gvr.version, gvr.resource, getNamespace obj, getName obj⟩, classified⟩

def nodePoolDesire (r : Recognized) : Except String ApplyDesire :=
  match lib.parseScope (.nodePool r.classified.nodePoolName) with
  | .error err => .error ("failed to get node pool kube-applier CRUD for " ++
    r.classified.nodePoolName ++ ": " ++ err)
  | .ok _ => buildNodePoolResourceApplyDesire lib managementCluster r.classified.nodePoolName
    r.classified.desireName.text r.target r.obj

def clusterDesire (resourceKey : String) (r : Recognized) : Except String ApplyDesire :=
  if r.classified.desireName = .hostedCluster then
    match configureHostedCluster resourceKey r.obj with
    | .error err => .error err
    | .ok obj => buildClusterResourceApplyDesire lib managementCluster r.classified.desireName.text
      r.target obj
  else
    buildClusterResourceApplyDesire lib managementCluster r.classified.desireName.text r.target r.obj

def desireFor (resourceKey : String) (r : Recognized) :
    Prog (Except String (Option ApplyDesire)) := do
  if r.classified.nodePoolName ≠ "" then
    match ← perform (Call.nodePool r.classified.nodePoolName) with
    | .error err => return .error s!"failed to get nodepool {r.classified.nodePoolName}: {err}"
    | .ok none => return .ok none
    | .ok (some np) =>
      if np.deletionTimestamp.isSome then return .ok none
      else return (nodePoolDesire lib managementCluster r).map some
  else return (clusterDesire lib managementCluster resourceKey r).map some

/-- The desire to read a resource whose removal is waited for. -/
def readDesireFor (r : Recognized) : Except String ReadDesire :=
  let name := r.classified.nodePoolName
  let scope := if name ≠ "" then .nodePool name else .cluster
  match lib.parseScope scope with
  | .error err =>
    if name ≠ "" then
      .error ("failed to get node pool ReadDesire CRUD for " ++ name ++ ": " ++ err)
    else .error ("failed to get cluster ReadDesire CRUD: " ++ err)
  | .ok _ => buildReadDesire lib managementCluster scope r.classified.desireName.text r.target

/-! ## The pass -/

/-- Stores the desires of a resource; the errors are collected. -/
def ensureDesires (r : Recognized) (desire : ApplyDesire) : Prog (List String) := do
  match ← ensureApplyDesire desire with
  | some err => return [err]
  | none =>
    if shouldCreateReadDesireFor r.classified.desireName.text then
      match readDesireFor lib managementCluster r with
      | .error err => return [err]
      | .ok readDesire => return (← ensureReadDesire readDesire).toList
    else return []

/-- One round of the loop over the resources: the ID that is marked as desired, and the errors. -/
def processResource (resourceKey resourceValue : String) :
    Prog (Option DesireKey × List String) := do
  match recognize lib resourceKey resourceValue with
  | .error err => return (none, [err])
  | .ok r =>
    if managedByKubeAPIServerServingCertificate r.classified.desireName.text then return (none, [])
    else if legacyACMBasedIngressCertificateWiringDesireName r.classified.desireName.text then
      return (none, [])
    else
      match ← desireFor lib managementCluster resourceKey r with
      | .error err => return (none, [err])
      | .ok none => return (none, [])
      | .ok (some desire) =>
        let errs ← ensureDesires lib managementCluster r desire
        return (some desire.resourceID.toLower, errs)

def processResources : List (String × String) → Prog (List DesireKey × List String)
  | [] => return ([], [])
  | (resourceKey, resourceValue) :: rest => do
    let (desired, errs) ← processResource lib managementCluster resourceKey resourceValue
    let (desiredRest, errsRest) ← processResources rest
    return (desired.toList ++ desiredRest, errs ++ errsRest)

def mayBeStale (d : ApplyDesire) : Bool :=
  !managedByKubeAPIServerServingCertificate d.resourceID.name &&
    !legacyACMBasedIngressCertificateWiringDesireName d.resourceID.name &&
    d.tags.lookup tagControllerName = some clusterResourcesControllerName

/-- The loop of `deleteStaleApplyDesires`. The scope of a desire under a cluster always parses. -/
def deleteStale (desired : List DesireKey) : List ApplyDesire → Prog (Option String)
  | [] => return none
  | desire :: rest => do
    if mayBeStale desire = false ∨ desire.resourceID.toLower ∈ desired then deleteStale desired rest
    else
      match ← ensureApplyDesireRemoved desire.resourceID.scope desire.resourceID.name with
      | .error err => return some err
      | .ok false => deleteStale desired rest
      | .ok true =>
        match ← perform (Call.deleteReadDesire desire.resourceID) with
        | .ok | .notFound => deleteStale desired rest
        | err => return some s!"delete stale ReadDesire {desire.resourceID.name}: {err.text}"

def deleteStaleApplyDesires (desired : List DesireKey) : Prog (Option String) := do
  match ← perform Call.listApplyDesires with
  | .error err => return some s!"list ApplyDesires for stale cleanup: {err}"
  | .ok existing =>
    if ← perform Call.dbClient then deleteStale desired existing
    else return none

/-- `processClusterResources`, by the errors it joins. The resources of the response are a map,
whose order of iteration is any. -/
def processClusterResources (resources : List (String × String)) : Prog (List String) := do
  if ← perform Call.dbClient then
    match lib.parseScope .cluster with
    | .error err => return [s!"failed to get kube-applier CRUD: {err}"]
    | .ok _ =>
      let (desired, errs) ← processResources lib managementCluster resources
      return errs ++ (← deleteStaleApplyDesires desired).toList
  else return []

end

end AroHcp.ClusterResources
