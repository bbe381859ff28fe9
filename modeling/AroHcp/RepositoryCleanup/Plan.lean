import AroHcp.RepositoryCleanup.Storage
import AroHcp.Rollout.Types

/-! What the repository cleanup controller decides to do from one set of observations. -/

namespace AroHcp.RepositoryCleanup

open GoStrings Rollout Unstructured

inductive Resource where
  | backupRepositoryCleanups
  | backupRepositories
  | backupStorageLocations
  | backups
  | schedules
  | restores
  | dataUploads
  | dataDownloads
  | podVolumeBackups
  | podVolumeRestores
  | hostedClusters
  | jobs
  | pods
deriving DecidableEq, Repr

def Resource.name : Resource → String
  | backupRepositoryCleanups => "backuprepositorycleanups"
  | backupRepositories => "backuprepositories"
  | backupStorageLocations => "backupstoragelocations"
  | backups => "backups"
  | schedules => "schedules"
  | restores => "restores"
  | dataUploads => "datauploads"
  | dataDownloads => "datadownloads"
  | podVolumeBackups => "podvolumebackups"
  | podVolumeRestores => "podvolumerestores"
  | hostedClusters => "hostedclusters"
  | jobs => "jobs"
  | pods => "pods"

def requiredResources : List Resource :=
  [.backupRepositories, .backupRepositoryCleanups, .backupStorageLocations, .backups, .schedules,
    .restores, .dataUploads, .dataDownloads, .podVolumeBackups, .podVolumeRestores, .hostedClusters,
    .jobs, .pods]

def inventoryResources : List Resource :=
  requiredResources.filter fun r => r ≠ .hostedClusters && r ≠ .backupRepositoryCleanups

def veleroNamespace : String := "velero"

def cleanupFinalizer : String := "mgmtagent.aro-hcp.azure.com/repository-cleanup"

def preserveBackupAnnotation : String := "mgmt-agent.aro-hcp.azure.com/preserve-backup"

def repoNameLabel : String := "velero.io/repo-name"

def recheckInterval : Int := minute

def tombstoneRecheckInterval : Int := 10 * minute

structure Condition where
  type : String
  status : String
  reason : String
  message : String
  lastTransitionTime : Time
  observedGeneration : Int
deriving DecidableEq, Repr

/-- Functions of the libraries that the planner calls: the SHA3-224 sum in hexadecimal, the decoding
of a timestamp, which is none for the zero time, and the conversion of a condition. -/
structure Libraries where
  sum224 : String → String
  parseTime : String → Option Time
  toCondition : Json → Option Condition

structure RepositoryIdentity where
  name : String
  uid : String
  volumeNamespace : String
deriving DecidableEq, Repr

structure CleanupSpec where
  repository : RepositoryIdentity
  storage : Target
deriving DecidableEq, Repr

/-- Inventories and directly read lifecycle targets. -/
structure Observations where
  repository : Option Json := none
  cleanup : Option Json := none
  objects : Resource → Option (List Json) := fun _ => none
  dependenciesComplete : Bool := false
  hostedClusters : List Json := []
  now : Time
  swept : Option Target := none

def Observations.list (o : Observations) (r : Resource) : List Json :=
  (o.objects r).getD []

/-- A server-side apply, by the fields of its payload. -/
structure Apply where
  resource : Resource
  kind : String
  name : String
  uid : String := ""
  resourceVersion : String := ""
  finalizers : List String := []
  spec : Option Json := none
  condition : Option Condition := none
  fieldManager : String
  subresource : String := ""
deriving DecidableEq

structure Delete where
  resource : Resource
  name : String
  uid : String
  resourceVersion : String
deriving DecidableEq

structure Plan where
  observeDependencies : Bool := false
  applies : List Apply := []
  deletes : List Delete := []
  deletePrefix : Option Target := none
  requeueAfter : Int := 0
  condition : Option Condition := none
deriving DecidableEq

section

variable (lib : Libraries)

def repositoryLabel (name : String) : String :=
  if name.utf8ByteSize ≤ 63 then name else lib.sum224 name

def preserved (obj : Option Json) : Bool :=
  obj.any fun v => ((getAnnotations v).lookup preserveBackupAnnotation).isSome

def hasFinalizer (obj : Json) : Bool :=
  (getFinalizers obj).contains cleanupFinalizer

/-- `GetDeletionTimestamp() != nil` -/
def deleting (obj : Json) : Bool :=
  ((nestedString obj ["metadata", "deletionTimestamp"]).toOption.bind lib.parseTime).isSome

def identity (repo : Json) : RepositoryIdentity :=
  ⟨getName repo, getUID repo, stringOrEmpty repo ["spec", "volumeNamespace"]⟩

/-- The location that the repository names, among those observed. -/
def locationOf (repo : Json) (locations : List Json) : Option Json :=
  locations.find? fun bsl => getName bsl = stringOrEmpty repo ["spec", "backupStorageLocation"]

def resolve (repo : Json) (o : Observations) : Except String Target :=
  match locationOf repo (o.list .backupStorageLocations) with
  | some bsl => resolveTarget repo bsl
  | none => .error s!"repository {GoFmt.quote (getName repo)} has no observed BSL"

/-! ## The intent -/

def cleanupName (uid : String) : String := "repo-" ++ uid

def CleanupSpec.toJson (spec : CleanupSpec) : Json :=
  .obj [("repository", .obj [("name", .str spec.repository.name), ("uid", .str spec.repository.uid),
      ("volumeNamespace", .str spec.repository.volumeNamespace)]),
    ("storage", .obj [("accountURL", .str spec.storage.accountURL),
      ("container", .str spec.storage.container), ("prefix", .str spec.storage.blobPrefix)])]

/-- The conversion of the raw spec; a field that is missing is empty. -/
def CleanupSpec.ofJson (raw : Json) : CleanupSpec where
  repository := ⟨stringOrEmpty raw ["repository", "name"], stringOrEmpty raw ["repository", "uid"],
    stringOrEmpty raw ["repository", "volumeNamespace"]⟩
  storage := ⟨stringOrEmpty raw ["storage", "accountURL"], stringOrEmpty raw ["storage", "container"],
    stringOrEmpty raw ["storage", "prefix"]⟩

/-- The spec of an intent, if it has exactly the known fields and they are consistent. -/
def intentSpec (obj : Json) : Except String CleanupSpec :=
  match nestedMap obj ["spec"] with
  | .found raw =>
    let spec := CleanupSpec.ofJson (.obj raw)
    if Json.obj raw ≠ spec.toJson then .error "unrecognized cleanup spec fields"
    else if spec.repository.name = "" ∨ isDNS1123Subdomain spec.repository.name = false ∨
        spec.repository.uid = "" ∨ isDNS1123Subdomain (cleanupName spec.repository.uid) = false ∨
        getName obj ≠ cleanupName spec.repository.uid ∨ getNamespace obj ≠ veleroNamespace ∨
        hostedClusterNamespace spec.repository.volumeNamespace = "" ∨
        getOwnerReferences obj ≠ [] then
      .error "invalid cleanup identity or owner references"
    else if endsWith ("/" ++ spec.storage.blobPrefix)
        ("/kopia/" ++ spec.repository.volumeNamespace ++ "/") = false then
      .error "cleanup prefix does not match volume namespace"
    else (validate spec.storage).map fun _ => spec
  | _ => .error "missing cleanup spec"

/-! ## Applies -/

def intentApply (spec : CleanupSpec) : Apply where
  resource := .backupRepositoryCleanups
  kind := "BackupRepositoryCleanup"
  name := cleanupName spec.repository.uid
  finalizers := [cleanupFinalizer]
  spec := some spec.toJson
  fieldManager := "repository-cleanup-intent"

/-- Release is by omission, with the manager that added the entry. -/
def finalizerApply (obj : Json) (resource : Resource) (manager : String) (retain : Bool) : Apply where
  resource := resource
  kind := getKind obj
  name := getName obj
  uid := getUID obj
  resourceVersion := getResourceVersion obj
  finalizers := if retain then [cleanupFinalizer] else []
  spec := if resource = .backupRepositoryCleanups then some ((obj.member "spec").getD .null) else none
  fieldManager := manager

/-- Looks for the stored condition. A condition of the same status keeps its transition time, and
one that is the same altogether is not written again. -/
def settleCondition : List Json → Condition → Condition × Bool
  | [], condition => (condition, false)
  | raw :: rest, condition =>
    match raw.member "type", lib.toCondition raw with
    | some _, some old =>
      if old.type ≠ "Complete" then settleCondition rest condition
      else
        let kept := if old.status = condition.status then
          { condition with lastTransitionTime := old.lastTransitionTime } else condition
        if old = kept then (kept, true) else settleCondition rest kept
    | _, _ => settleCondition rest condition

def conditionPlan (o : Observations) (reason message status : String) : Plan :=
  let condition : Condition := ⟨"Complete", status, reason, message, o.now, 0⟩
  match o.cleanup with
  | none => { requeueAfter := recheckInterval, condition := some condition }
  | some cleanup =>
    let requeueAfter := if status = "True" && !deleting lib cleanup then tombstoneRecheckInterval
      else recheckInterval
    let stored := (nestedSlice cleanup ["status", "conditions"]).toOption.getD []
    match settleCondition lib stored
      { condition with observedGeneration := getGeneration cleanup } with
    | (kept, true) => { requeueAfter, condition := some kept }
    | (kept, false) =>
      { requeueAfter
        condition := some kept
        applies := [{
          resource := .backupRepositoryCleanups
          kind := "BackupRepositoryCleanup"
          name := getName cleanup
          uid := getUID cleanup
          resourceVersion := getResourceVersion cleanup
          condition := some kept
          fieldManager := "repository-cleanup-status"
          subresource := "status" }] }

def blockedPlan (o : Observations) (reason message : String) : Plan :=
  conditionPlan lib o reason message "False"

/-! ## Consumers -/

def bslScope (bsl : Json) : Option Target :=
  if stringOrEmpty bsl ["spec", "provider"] ≠ "azure" then none else
  match nestedStringMap bsl ["spec", "config"] with
  | .found config =>
    let storageAccount := configValue config "storageAccount"
    if isAccountName storageAccount = false then none else
    let url := accountURLOf storageAccount
    let known := config.all fun (key, value) =>
      if key ∈ ["storageAccount", "resourceGroup", "subscriptionId", "useAAD"] then true
      else if key = "storageAccountURI" then trimSuffix value "/" = url
      else if key = "activeDirectoryAuthorityURI" then
        trimSuffix value "/" = "https://login.microsoftonline.com"
      else false
    if known = false then none else
    let container := stringOrEmpty bsl ["spec", "objectStorage", "bucket"]
    if isContainerName container = false then none else
    match nestedString bsl ["spec", "objectStorage", "prefix"] with
    | .malformed => none
    | value =>
      let base := trim (value.toOption.getD "") '/'
      if base = "" then some ⟨url, container, ""⟩
      else if (split base '/').all isPathSegment then some ⟨url, container, base ++ "/"⟩
      else none
  | _ => none

/-- The location is of another cloud, or its whole scope is apart from the target. -/
def locationExcludes (target : Target) (bsl : Json) : Bool :=
  stringOrEmpty bsl ["spec", "provider"] = "aws" || stringOrEmpty bsl ["spec", "provider"] = "gcp" ||
    (bslScope bsl).any fun scope => !overlaps scope target

/-- What the loop over the locations leaves in `disjoint`: the last one of the name decides. -/
def disjointByLocation (target : Target) (repo : Json) (locations : List Json) : Bool :=
  locations.foldl (fun disjoint bsl =>
    if getName bsl = stringOrEmpty repo ["spec", "backupStorageLocation"] then
      locationExcludes target bsl
    else disjoint) false

def repositoryBlock (o : Observations) (spec : CleanupSpec) (retiring : Option Json) (repo : Json) :
    Option String :=
  if retiring.any (fun r => getUID repo = getUID r && getName repo = getName r) then none
  else if getName repo = spec.repository.name then some "Repository name has been replaced"
  else if disjointByLocation spec.storage repo (o.list .backupStorageLocations) then none
  else match resolve repo o with
    | .error err =>
      some ("Cannot exclude physical alias for repository " ++ getName repo ++ ": " ++ err)
    | .ok target =>
      if overlaps target spec.storage then
        some "Another repository references overlapping physical storage"
      else none

def namespaceMayMatch (obj : Json) (volume : String) (path : List String) : Bool :=
  match nestedStringSlice obj (path ++ ["includedNamespaces"]) with
  | .found namespaces => namespaces.isEmpty ||
    namespaces.any fun ns => ns = "*" || ns = volume || !isDNS1123Label ns
  | _ => true

def terminalOperation (obj : Json) (resource : Resource) : Bool :=
  let phase := stringOrEmpty obj ["status", "phase"]
  phase = "Completed" || phase = "Failed" ||
    if resource = .restores then phase = "PartiallyFailed" || phase = "FailedValidation"
    else resource ∈ [.dataUploads, .dataDownloads, .podVolumeBackups, .podVolumeRestores] &&
      phase = "Canceled"

def operationNamespace (obj : Json) : String :=
  let source := stringOrEmpty obj ["spec", "sourceNamespace"]
  if source = "" then stringOrEmpty obj ["spec", "pod", "namespace"] else source

/-- Why an operation blocks. A restore can refer to a backup that is already removed. -/
def operationBlock (spec : CleanupSpec) (resource : Resource) (obj : Json) : Option String :=
  if terminalOperation obj resource then none
  else if resource = .restores ∨ resource = .podVolumeRestores then
    some "Active restore has no safely excludable source repository"
  else if operationNamespace obj = "" ∨ operationNamespace obj = spec.repository.volumeNamespace then
    some ("Active or unscoped " ++ resource.name ++ " remains")
  else none

def operationResources : List Resource :=
  [.dataUploads, .dataDownloads, .restores, .podVolumeBackups, .podVolumeRestores]

def consumerBlock (o : Observations) (spec : CleanupSpec) (retiring : Option Json) : Option String :=
  (inventoryResources.findSome? fun r =>
    if (o.objects r).isNone then some ("Incomplete observations for " ++ r.name) else none).or <|
  (if o.hostedClusters ≠ [] then some "HostedCluster still exists in the base namespace"
    else none).or <|
  ((o.list .backupRepositories).findSome? (repositoryBlock o spec retiring)).or <|
  ((o.list .backups).findSome? fun backup =>
    if namespaceMayMatch backup spec.repository.volumeNamespace ["spec"] then
      some "Associated or unscoped Backup remains" else none).or <|
  ((o.list .schedules).findSome? fun schedule =>
    if namespaceMayMatch schedule spec.repository.volumeNamespace ["spec", "template"] then
      some "Matching or unscoped Schedule remains" else none).or <|
  operationResources.findSome? fun r => (o.list r).findSome? (operationBlock spec r)

/-! ## Maintenance -/

/-- The containers of a Pod, or of the Pods of a Job. -/
def containersPath (job : Bool) : List String :=
  if job then ["spec", "template", "spec", "containers"] else ["spec", "containers"]

def maintenanceRelations (obj : Json) (job : Bool) : List String :=
  let containers := (nestedSlice obj (containersPath job)).toOption.getD []
  let args := containers.flatMap fun container =>
    match container with
    | .obj _ => (nestedStringSlice container ["args"]).toOption.getD []
    | _ => []
  let volumes := args.filterMap fun arg => (cutStart arg "--repo-name=").map ("volume/" ++ ·)
  let owners := (getOwnerReferences obj).filterMap fun owner =>
    if owner.kind = "Job" then some ("owner/" ++ owner.uid) else none
  let byLabel := "label/" ++ getLabel obj repoNameLabel
  if job then byLabel :: volumes
  else byLabel :: volumes ++ owners ++ ["job/" ++ getLabel obj "job-name",
    "job/" ++ getLabel obj "batch.kubernetes.io/job-name"]

/-- Some container works on the repository of the volume. -/
def worksOn (obj : Json) (job : Bool) (volume : String) : Bool :=
  (maintenanceRelations obj job).contains ("volume/" ++ volume)

def terminalJob (job : Json) : Bool :=
  ((nestedSlice job ["status", "conditions"]).toOption.getD []).any fun condition =>
    condition.member "status" = some (.str "True") &&
      (condition.member "type" = some (.str "Complete") ||
        condition.member "type" = some (.str "Failed"))

def terminalPod (pod : Json) : Bool :=
  let phase := stringOrEmpty pod ["status", "phase"]
  phase = "Succeeded" || phase = "Failed"

def maintenanceShape (obj : Json) (volume : String) (job : Bool) : Bool :=
  match nestedSlice obj (containersPath job) with
  | .found [container] =>
    let command := (nestedStringSlice container ["command"]).toOption.getD []
    let args := (nestedStringSlice container ["args"]).toOption.getD []
    container.member "name" = some (.str "velero-repo-maintenance-container") &&
      command = ["/velero"] && args.head? = some "repo-maintenance" &&
      args.contains ("--repo-name=" ++ volume) && args.contains "--repo-type=kopia"
  | _ => false

def maintenanceJobs (label volume : String) : List Json → Except String (List Json)
  | [] => .ok []
  | job :: rest =>
    if getLabel job repoNameLabel ≠ label then
      if worksOn job true volume && !terminalJob job then
        .error "Active foreign maintenance Job may write this prefix"
      else maintenanceJobs label volume rest
    else if maintenanceShape job volume true = false then
      .error "Ambiguous repository-labeled Job shape"
    else if terminalJob job = false then .error "Maintenance Job is not Complete or Failed"
    else (maintenanceJobs label volume rest).map (job :: ·)

/-- The Pod carries the label of the repository or belongs to one of its Jobs. -/
def associatedPod (label : String) (jobs : List Json) (pod : Json) : Bool :=
  getLabel pod repoNameLabel = label ||
    (jobs.map getName).contains (getLabel pod "job-name") ||
    (jobs.map getName).contains (getLabel pod "batch.kubernetes.io/job-name") ||
    (getOwnerReferences pod).any fun owner =>
      owner.kind = "Job" && (jobs.map getUID).contains owner.uid

def maintenancePods (label volume : String) (jobs : List Json) : List Json → Except String (List Json)
  | [] => .ok []
  | pod :: rest =>
    if associatedPod label jobs pod = false then
      if worksOn pod false volume && !terminalPod pod then
        .error "Active foreign maintenance Pod may write this prefix"
      else maintenancePods label volume jobs rest
    else if maintenanceShape pod volume false = false then .error "Ambiguous maintenance Pod shape"
    else if terminalPod pod = false then
      .error "Maintenance Pod is not terminal (termination is not completion)"
    else (maintenancePods label volume jobs rest).map (pod :: ·)

def maintenance (o : Observations) (spec : CleanupSpec) : Except String (List Json × List Json) := do
  let label := repositoryLabel lib spec.repository.name
  let jobs ← maintenanceJobs label spec.repository.volumeNamespace (o.list .jobs)
  let pods ← maintenancePods label spec.repository.volumeNamespace jobs (o.list .pods)
  return (jobs, pods)

/-! ## Plans -/

/-- The part of a plan that changes something other than a status. -/
def lifecycle (p : Plan) : Plan where
  applies := p.applies.filter (·.subresource = "")
  deletes := p.deletes
  deletePrefix := p.deletePrefix

def deletion (obj : Json) (resource : Resource) : Delete :=
  ⟨resource, getName obj, getUID obj, getResourceVersion obj⟩

/-- The repository is being deleted: its finalizer is released once an intent of its identity and
target is stored. -/
def handOverPlan (o : Observations) (r : Json) (spec : CleanupSpec) : Plan :=
  match o.cleanup with
  | none => { applies := [intentApply spec], requeueAfter := recheckInterval }
  | some cleanup =>
    if (intentSpec cleanup).toOption ≠ some spec ∨ deleting lib cleanup = true ∨
      hasFinalizer cleanup = false then
      blockedPlan lib o "Blocked"
        "Durable cleanup identity, target or finalizer does not match repository"
    else
      { applies := [finalizerApply r .backupRepositories "repository-cleanup-repository" false]
        requeueAfter := recheckInterval }

def retirePlan (o : Observations) (r : Json) (target : Target) : Plan :=
  if hasFinalizer r = false then
    { applies := [finalizerApply r .backupRepositories "repository-cleanup-repository" true]
      requeueAfter := recheckInterval }
  else if o.hostedClusters ≠ [] then
    blockedPlan lib o "Blocked" "HostedCluster still exists in the base namespace"
  else if o.dependenciesComplete = false then { observeDependencies := true }
  else match consumerBlock o ⟨identity r, target⟩ (some r) with
    | some message => blockedPlan lib o "Blocked" message
    | none =>
      if deleting lib r = false then
        { deletes := [deletion r .backupRepositories], requeueAfter := recheckInterval }
      else handOverPlan lib o r ⟨identity r, target⟩

/-- The plan for a repository before its status applies are dropped. -/
def repositoryPlan (o : Observations) (r : Json) : Plan :=
  if getNamespace r ≠ veleroNamespace ∨ getUID r = "" ∨
      hostedClusterNamespace (stringOrEmpty r ["spec", "volumeNamespace"]) = "" ∨
      stringOrEmpty r ["spec", "repositoryType"] ≠ "kopia" then
    blockedPlan lib o "Blocked" "Repository is not recognized ARO Kopia storage"
  else if preserved (some r) || preserved o.cleanup then
    blockedPlan lib o "Blocked" "Cleanup is preserved by annotation"
  else if deleting lib r && !hasFinalizer r then {}
  else match resolve r o with
    | .error err => blockedPlan lib o "Blocked" err
    | .ok target => retirePlan lib o r target

/-- `PlanRepository` attaches protection before it requests deletion. -/
def planRepository (o : Observations) : Plan :=
  match o.repository with
  | none => {}
  | some r =>
    let p := repositoryPlan lib o r
    { p with applies := (lifecycle p).applies }

def sweepPlan (o : Observations) (cleanup : Json) (target : Target) : Plan :=
  let stored := (nestedSlice cleanup ["status", "conditions"]).toOption.getD []
  let p := stored.foldl (fun (p : Plan) condition =>
    if condition.member "type" ≠ some (.str "Complete") then p
    else if condition.member "status" = some (.str "True") then
      { requeueAfter := tombstoneRecheckInterval }
    else if condition.member "reason" = some (.str "SweepFailed") then
      { requeueAfter := recheckInterval }
    else p) (blockedPlan lib o "DeletingBlobs" "Sweeping the retired repository prefix")
  { p with deletePrefix := some target }

/-- Removes the first of the terminal maintenance objects. -/
def drainPlan (o : Observations) (resource : Resource) (obj : Json) (message : String) : Plan :=
  let p := blockedPlan lib o "DrainingMaintenance" message
  if deleting lib obj then p else { p with deletes := [deletion obj resource] }

def completePlan (o : Observations) (cleanup : Json) : Plan :=
  let p := conditionPlan lib o "CleanupComplete"
    "Prefix swept and live dependencies absent; tombstone remains monitored" "True"
  if deleting lib cleanup && p.applies.isEmpty then
    { p with applies :=
      [finalizerApply cleanup .backupRepositoryCleanups "repository-cleanup-intent" false] }
  else p

/-- The plan for an intent in order once all dependencies are observed. -/
def dependencyPlan (o : Observations) (cleanup : Json) (spec : CleanupSpec) : Plan :=
  match consumerBlock o spec none with
  | some message => blockedPlan lib o "Blocked" message
  | none =>
    match maintenance lib o spec with
    | .error message => blockedPlan lib o "DrainingMaintenance" message
    | .ok (job :: _, _) => drainPlan lib o .jobs job "Removing terminal maintenance Jobs"
    | .ok ([], pod :: _) => drainPlan lib o .pods pod "Removing terminal orphan maintenance Pods"
    | .ok ([], []) =>
      if o.swept ≠ some spec.storage then sweepPlan lib o cleanup spec.storage
      else completePlan lib o cleanup

def intentPlan (o : Observations) (cleanup : Json) (spec : CleanupSpec) : Plan :=
  if preserved (some cleanup) then
    blockedPlan lib o "Blocked" "Cleanup is preserved by annotation"
  else if hasFinalizer cleanup = false then
    if deleting lib cleanup then
      blockedPlan lib o "Blocked" "Terminating cleanup has no protection"
    else
      { applies := [finalizerApply cleanup .backupRepositoryCleanups "repository-cleanup-intent" true]
        requeueAfter := recheckInterval }
  else if o.repository.isSome then
    blockedPlan lib o "WaitingForRepository" "Repository name is still present (any UID protects)"
  else if o.hostedClusters ≠ [] then
    blockedPlan lib o "Blocked" "HostedCluster still exists in the base namespace"
  else if o.dependenciesComplete = false then { observeDependencies := true }
  else dependencyPlan lib o cleanup spec

/-- `PlanCleanup` always rechecks live dependencies. -/
def planCleanup (o : Observations) : Plan :=
  match o.cleanup with
  | none => {}
  | some cleanup =>
    match intentSpec cleanup with
    | .error err => blockedPlan lib o "Blocked" err
    | .ok spec => intentPlan lib o cleanup spec

end

end AroHcp.RepositoryCleanup
