import AroHcp.ClusterResources.Process

/-! The teardown of the desires of a cluster that is being deleted: a chain of steps, each of which
waits for the desires of the steps before it. -/

namespace AroHcp.ClusterResources

open Desires GoFmt Program

/-- One step of the chain: the desires it claims, and whether it deletes their objects and waits for
them or only drops the documents. -/
structure RemovalStep where
  name : String
  names : List DesireName
  waits : Bool

def cascadeCoveredRemovalStep : RemovalStep where
  name := "cascade-covered"
  names := [.ocpPullSecret, .externalAuthClientSecret, .externalAuthCAConfigMap,
    .boundServiceAccountSigningKeySecretSync, .boundServiceAccountSigningKeySecretProviderClass,
    .nodePool]
  waits := false

def managedClusterRemovalStep : RemovalStep where
  name := "managed-cluster"
  names := [.managedCluster]
  waits := true

def ingressManifestRemovalStep : RemovalStep where
  name := "ingress-manifests"
  names := [.defaultIngressConfigMap, .defaultIngressWildcardCertSecretProviderClass,
    .defaultIngressWildcardCertSecretSync]
  waits := true

def hostedClusterRemovalStep : RemovalStep where
  name := "hosted-cluster"
  names := [.hostedCluster]
  waits := true

def swiftPodNetworkInstanceRemovalStep : RemovalStep where
  name := "swift-podnetworkinstance"
  names := [.podNetworkInstance]
  waits := true

def swiftPodNetworkRemovalStep : RemovalStep where
  name := "swift-podnetwork"
  names := [.podNetwork]
  waits := true

def namespacesRemovalStep : RemovalStep where
  name := "namespaces"
  names := [.hostedClusterNamespace, .controlPlaneNamespace]
  waits := true

def applyDesireRemovalChain : List RemovalStep :=
  [cascadeCoveredRemovalStep, managedClusterRemovalStep, ingressManifestRemovalStep,
    hostedClusterRemovalStep, swiftPodNetworkInstanceRemovalStep, swiftPodNetworkRemovalStep,
    namespacesRemovalStep]

def claimedDesireNames : List DesireName :=
  applyDesireRemovalChain.flatMap (·.names)

def RemovalStep.selects (step : RemovalStep) (desire : ApplyDesire) : Bool :=
  hasName step.names desire.resourceID.name

/-! ## The two ways of tearing down -/

/-- The end of a step: errors come before desires that are waited for. -/
def stepResult (errs : List String) (waiting : Bool) : Except String Bool :=
  if errs = [] then .ok (!waiting) else .error ("\n".intercalate errs)

def removeMatching (step : RemovalStep) (errs : List String) (waiting : Bool) :
    List ApplyDesire → Prog (Except String Bool)
  | [] => return stepResult errs waiting
  | desire :: rest => do
    if step.selects desire = false then removeMatching step errs waiting rest
    else
      match ← ensureApplyDesireRemoved desire.resourceID.scope desire.resourceID.name with
      | .error err => removeMatching step (errs ++ [err]) waiting rest
      | .ok false => removeMatching step errs true rest
      | .ok true =>
        match ← perform (Call.deleteReadDesire desire.resourceID) with
        | .ok | .notFound => removeMatching step errs waiting rest
        | err => return .error s!"delete ReadDesire {desire.resourceID.name}: {err.text}"

def dropMatching (step : RemovalStep) (errs : List String) :
    List ApplyDesire → Prog (Except String Bool)
  | [] => return stepResult errs false
  | desire :: rest => do
    if step.selects desire = false then dropMatching step errs rest
    else
      match ← perform (Call.deleteApplyDesire desire.resourceID.toLower) with
      | .ok | .notFound => dropMatching step errs rest
      | err =>
        dropMatching step (errs ++ [s!"drop ApplyDesire {desire.resourceID.name}: {err.text}"]) rest

def RemovalStep.remove (step : RemovalStep) (owned : List ApplyDesire) : Prog (Except String Bool) :=
  if step.waits then removeMatching step [] false owned else dropMatching step [] owned

/-! ## The chain -/

/-- The steps one after the other, as long as each is drained; true if all are. -/
def runChain (owned : List ApplyDesire) : List RemovalStep → Prog (Except String Bool)
  | [] => return .ok true
  | step :: rest => do
    match ← step.remove owned with
    | .error err => return .error err
    | .ok false => return .ok false
    | .ok true => runChain owned rest

def sweepReadDesires (applyNames : List String) : List ReadDesire → Prog (Option String)
  | [] => return none
  | readDesire :: rest => do
    if managedByKubeAPIServerServingCertificate readDesire.resourceID.name ∨
        readDesire.tags.lookup tagControllerName ≠ some clusterResourcesControllerName ∨
        toLower readDesire.resourceID.name ∈ applyNames then sweepReadDesires applyNames rest
    else
      match ← perform (Call.deleteReadDesire readDesire.resourceID.toLower) with
      | .ok | .notFound => sweepReadDesires applyNames rest
      | err =>
        return some s!"delete orphaned ReadDesire {toLower readDesire.resourceID.name}: {err.text}"

def isOwned (d : ApplyDesire) : Bool :=
  d.tags.lookup tagControllerName = some clusterResourcesControllerName

def sweepOrphanedReadDesires : Prog (Option String) := do
  match ← perform Call.listApplyDesires with
  | .error err => return some s!"list ApplyDesires for orphan ReadDesire sweep: {err}"
  | .ok applyDesires =>
    match ← perform Call.listReadDesires with
    | .error err => return some s!"list ReadDesires for orphan sweep: {err}"
    | .ok readDesires =>
      sweepReadDesires ((applyDesires.filter isOwned).map fun d => toLower d.resourceID.name)
        readDesires

def deleteAllOwnedApplyDesires : Prog (Option String) := do
  match ← perform Call.listApplyDesires with
  | .error err => return some s!"list ApplyDesires for deletion cleanup: {err}"
  | .ok existing =>
    if ← perform Call.dbClient then
      let owned := existing.filter fun d =>
        !managedByKubeAPIServerServingCertificate d.resourceID.name && isOwned d
      match ← runChain owned applyDesireRemovalChain with
      | .error err => return some err
      | .ok false => return none
      | .ok true => sweepOrphanedReadDesires
    else return none

end AroHcp.ClusterResources
