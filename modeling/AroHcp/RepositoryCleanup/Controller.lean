import Mathlib.Data.List.Sort
import AroHcp.Lib.Trace
import AroHcp.RepositoryCleanup.Plan

/-! The reconciliation of a repository or of a cleanup intent: it observes, plans, observes once
more and acts only if the second plan is the same. -/

namespace AroHcp.RepositoryCleanup

open Program Rollout Unstructured

/-- The objects of one namespace in an informer's store, which holds one object for each name. -/
structure Inventory where
  items : List Json
  nodup : (items.map getName).Nodup

inductive DeleteReply where
  | ok
  | notFound
  | failed (err : String)

inductive Call where
  | now
  /-- a read from the API server -/
  | get (resource : Resource) (name : String)
  /-- the objects of a namespace in the informer's store -/
  | cached (resource : Resource) (ns : String)
  /-- the objects under one key of the maintenance index -/
  | byIndex (resource : Resource) (key : String)
  | listNamespace (resource : Resource) (ns : String)
  | listLabelled (resource : Resource) (label : String)
  | apply (a : Apply)
  | delete (d : Delete)
  | deletePrefix (target : Target)

@[reducible] def Call.Reply : Call → Type
  | now => Time
  | get _ _ => Except String (Option Json)
  | cached _ _ => Except String Inventory
  | byIndex _ _ => Except String (List Json)
  | listNamespace _ _ | listLabelled _ _ => Except String (List Json × String)
  | apply _ | deletePrefix _ => Option String
  | delete _ => DeleteReply

/-- The call changes nothing. -/
def Call.isRead : Call → Bool
  | apply _ | delete _ | deletePrefix _ => false
  | _ => true

abbrev Prog := Program Call Call.Reply

structure Key where
  resource : Resource
  name : String
deriving DecidableEq, Repr

def Observations.set (o : Observations) (r : Resource) (items : List Json) : Observations :=
  { o with objects := fun r' => if r' = r then some items else o.objects r' }

section

variable (lib : Libraries)

def plan (k : Key) (o : Observations) : Plan :=
  if k.resource = .backupRepositories then planRepository lib o else planCleanup lib o

/-! ## Observing -/

def sortByName (objects : List Json) : List Json :=
  objects.insertionSort fun a b => getName a ≤ getName b

def addUnseen (result objects : List Json) : List Json :=
  objects.foldl (fun result obj =>
    if getNamespace obj ≠ veleroNamespace || (result.map getName).contains (getName obj) then result
    else result ++ [obj]) result

def collectByIndex (resource : Resource) : List String → List Json → Prog (Except String (List Json))
  | [], result => return .ok result
  | key :: keys, result => do
    match ← perform (Call.byIndex resource key) with
    | .error err => return .error err
    | .ok objects => collectByIndex resource keys (addUnseen result objects)

def cachedMaintenance (resource : Resource) (volume repository : String) (jobs : List Json) :
    Prog (Except String (List Json)) := do
  let ofJobs := if resource = .pods then
    jobs.flatMap fun job => ["owner/" ++ getUID job, "job/" ++ getName job] else []
  match ← collectByIndex resource
      (["volume/" ++ volume, "label/" ++ repositoryLabel lib repository] ++ ofJobs) [] with
  | .error err => return .error err
  | .ok result => return .ok (sortByName result)

/-- The volume namespace that the key's object names. -/
def observedVolume (k : Key) (o : Observations) : String :=
  if k.resource = .backupRepositories then
    (o.repository.map fun r => stringOrEmpty r ["spec", "volumeNamespace"]).getD ""
  else (o.cleanup.map fun c => stringOrEmpty c ["spec", "repository", "volumeNamespace"]).getD ""

def intentRepositoryName (o : Observations) : String :=
  (o.cleanup.map fun c => stringOrEmpty c ["spec", "repository", "name"]).getD ""

/-- One inventory of the loop over the required resources. -/
def observeInventory (k : Key) (o : Observations) (r : Resource) :
    Prog (Except String (List Json)) := do
  if r = .jobs ∨ r = .pods then
    let repository :=
      if k.resource = .backupRepositoryCleanups then intentRepositoryName o else k.name
    cachedMaintenance lib r (observedVolume k o) repository (o.list .jobs)
  else
    match ← perform (Call.cached r veleroNamespace) with
    | .error err => return .error err
    | .ok inventory => return .ok inventory.items

def observeInventories (k : Key) : List Resource → Observations → Prog (Except String Observations)
  | [], o => return .ok o
  | r :: rest, o => do
    match ← observeInventory lib k o r with
    | .error err => return .error s!"list {r.name}: {err}"
    | .ok items => observeInventories k rest (o.set r items)

/-- The key's object and the one it is handed over to, read from the API server. -/
def observeTargets (k : Key) (o : Observations) (obj : Json) : Prog (Except String Observations) := do
  if k.resource = .backupRepositories then
    if getUID obj = "" then return .ok { o with repository := some obj }
    else
      match ← perform (Call.get .backupRepositoryCleanups (cleanupName (getUID obj))) with
      | .error err => return .error err
      | .ok cleanup => return .ok { o with repository := some obj, cleanup }
  else
    let name := stringOrEmpty obj ["spec", "repository", "name"]
    if name = "" then return .ok { o with cleanup := some obj }
    else
      match ← perform (Call.get .backupRepositories name) with
      | .error err => return .error err
      | .ok repository => return .ok { o with cleanup := some obj, repository }

/-- The locations are observed at once for a repository, whose plan needs its own. -/
def observeLocations (k : Key) (o : Observations) : Prog (Except String Observations) := do
  if k.resource = .backupRepositories && !preserved o.repository && !preserved o.cleanup then
    match ← perform (Call.cached .backupStorageLocations veleroNamespace) with
    | .error err => return .error err
    | .ok inventory => return .ok (o.set .backupStorageLocations inventory.items)
  else return .ok o

def observeDependencies (k : Key) (o : Observations) : Prog (Except String Observations) := do
  if (plan lib k o).observeDependencies = false then return .ok o else
  let ns := hostedClusterNamespace (observedVolume k o)
  if ns = "" then
    return .error "cannot observe HostedClusters for unrecognized volume namespace"
  else
  match ← perform (Call.cached .hostedClusters ns) with
  | .error err => return .error s!"list HostedClusters: {err}"
  | .ok inventory =>
    let o := { o with hostedClusters := inventory.items }
    if (plan lib k o).observeDependencies = false then return .ok o else
    match ← observeInventories lib k inventoryResources o with
    | .error err => return .error err
    | .ok o => return .ok { o with dependenciesComplete := true }

def observe (k : Key) : Prog (Except String Observations) := do
  let now ← perform Call.now
  match ← perform (Call.get k.resource k.name) with
  | .error err => return .error err
  | .ok none => return .ok { now }
  | .ok (some obj) =>
    match ← observeTargets k { now } obj with
    | .error err => return .error err
    | .ok o =>
      match ← observeLocations k o with
      | .error err => return .error err
      | .ok o => observeDependencies lib k o

/-! ## Confirming -/

/-- HostedClusters once more, from the API server. -/
def confirmHostedClusters (k : Key) (o : Observations) : Prog (Except String Observations) := do
  let ns := hostedClusterNamespace (observedVolume k o)
  if ns = "" then return .ok o else
  match ← perform (Call.listNamespace .hostedClusters ns) with
  | .error err => return .error err
  | .ok (items, more) =>
    if more ≠ "" then return .error "incomplete HostedCluster list"
    else return .ok { o with hostedClusters := items }

/-- The location of the repository once more; the others stay as they were cached. -/
def confirmLocation (o : Observations) : Prog (Except String Observations) := do
  match o.repository with
  | none => return .ok o
  | some repository =>
    let name := stringOrEmpty repository ["spec", "backupStorageLocation"]
    match ← perform (Call.get .backupStorageLocations name) with
    | .error err => return .error err
    | .ok bsl =>
      let others := (o.list .backupStorageLocations).filter (getName · ≠ name)
      return .ok (o.set .backupStorageLocations (others ++ bsl.toList))

/-- The Jobs or Pods with the repository's label once more, in the place of the cached ones. -/
def confirmMaintenance (o : Observations) (r : Resource) : Prog (Except String Observations) := do
  let label := repositoryLabel lib (intentRepositoryName o)
  match ← perform (Call.listLabelled r label) with
  | .error err => return .error err
  | .ok (items, more) =>
    if more ≠ "" then return .error s!"incomplete maintenance {r.name} list"
    else
      let others := (o.list r).filter (getLabel · repoNameLabel ≠ label)
      return .ok (o.set r (sortByName (others ++ items)))

def confirm (k : Key) : Prog (Except String Observations) := do
  match ← observe lib k with
  | .error err => return .error err
  | .ok o =>
    if o.dependenciesComplete = false then return .ok o else
    match ← confirmHostedClusters k o with
    | .error err => return .error err
    | .ok o =>
      match ← confirmLocation o with
      | .error err => return .error err
      | .ok o =>
        if k.resource = .backupRepositoryCleanups then
          match ← confirmMaintenance lib o .jobs with
          | .error err => return .error err
          | .ok o => confirmMaintenance lib o .pods
        else return .ok o

/-! ## Acting -/

def applyAll : List Apply → Prog (Option String)
  | [] => return none
  | a :: rest => do
    match ← perform (Call.apply a) with
    | some err => return some err
    | none => applyAll rest

def deleteAll : List Delete → Prog (Option String)
  | [] => return none
  | d :: rest => do
    if d.uid = "" ∨ d.resourceVersion = "" then
      return some "refusing deletion without UID/RV"
    else
      match ← perform (Call.delete d) with
      | .failed err => return some err
      | _ => deleteAll rest

/-- The applies of the plan after a sweep that are legal at once: a status, or the release of the
intent's finalizer by a plan that found everything in order. -/
def legalAfterSweep (p : Plan) : List Apply :=
  p.applies.filter fun a => a.subresource = "status" || p.condition.any (·.status = "True")

/-- What follows a successful sweep. -/
def afterSweep (k : Key) (fresh : Observations) (target : Target) : Prog (Except String Int) := do
  match ← confirm lib k with
  | .error err => return .error err
  | .ok after =>
    match after.cleanup, fresh.cleanup with
    | some cleanup, some before =>
      if getUID cleanup ≠ getUID before ∨
          (cleanup.member "spec").getD .null ≠ (before.member "spec").getD .null then
        return .ok second
      else
        let result := planCleanup lib { after with swept := some target }
        match ← applyAll (legalAfterSweep result) with
        | some err => return .error err
        | none => return .ok result.requeueAfter
    | _, _ => return .ok second

def sweep (k : Key) (fresh : Observations) (target : Target) : Prog (Except String Int) := do
  match ← perform (Call.deletePrefix target) with
  | some err =>
    let failed := blockedPlan lib fresh "SweepFailed" "Prefix sweep failed; retrying"
    match ← applyAll failed.applies with
    | some statusErr => return .error s!"sweep failed: {err}; reporting failure: {statusErr}"
    | none => return .error err
  | none => afterSweep lib k fresh target

def carryOut (k : Key) (fresh : Observations) (confirmed : Plan) : Prog (Except String Int) := do
  match ← applyAll confirmed.applies with
  | some err => return .error err
  | none =>
    match ← deleteAll confirmed.deletes with
    | some err => return .error err
    | none =>
      match confirmed.deletePrefix with
      | some target => sweep lib k fresh target
      | none => return .ok second

/-- What follows the status writes of the first plan. -/
def confirmAndCarryOut (k : Key) (p : Plan) : Prog (Except String Int) := do
  if (lifecycle p).applies.isEmpty && (lifecycle p).deletes.isEmpty &&
      (lifecycle p).deletePrefix.isNone then
    return .ok p.requeueAfter
  else
    match ← confirm lib k with
    | .error err => return .error err
    | .ok fresh =>
      if lifecycle p ≠ lifecycle (plan lib k fresh) then return .ok second
      else carryOut lib k fresh (lifecycle (plan lib k fresh))

def reconcile (k : Key) : Prog (Except String Int) := do
  match ← observe lib k with
  | .error err => return .error err
  | .ok o =>
    match ← applyAll ((plan lib k o).applies.filter (·.subresource = "status")) with
    | some err => return .error err
    | none => confirmAndCarryOut lib k (plan lib k o)

end

end AroHcp.RepositoryCleanup
