import AroHcp.RepositoryCleanup.Authority

/-! A reconciliation sweeps a retired repository's blobs only when nothing else may use them, and it
releases a repository only to an intent that stands for it. -/

namespace AroHcp.RepositoryCleanup

open GoStrings Program Unstructured

variable {lib : Libraries} {k : Key} {t : List (Sigma Call.Reply)}

theorem stringOrEmpty_append {v : Json} {members : List (String × Json)} {path : List String}
    (h : nestedMap v path = .found members) (rest : List String) :
    stringOrEmpty v (path ++ rest) = stringOrEmpty (.obj members) rest := by
  unfold nestedMap at h
  unfold stringOrEmpty nestedString
  rw [nestedField_append]
  cases hfield : nestedField v path with
  | missing =>
    rw [hfield] at h
    cases h
  | malformed =>
    rw [hfield] at h
    cases h
  | found u =>
    rw [hfield] at h
    cases u with
    | obj members' =>
      cases h
      rfl
    | _ => cases h

/-- The fields of a valid intent are those that an observation follows. -/
theorem intentSpec_fields {cleanup : Json} {spec : CleanupSpec} (h : intentSpec cleanup = .ok spec) :
    spec.repository.name = stringOrEmpty cleanup ["spec", "repository", "name"] ∧
    spec.repository.volumeNamespace =
      stringOrEmpty cleanup ["spec", "repository", "volumeNamespace"] ∧
    spec.repository.name ≠ "" ∧ hostedClusterNamespace spec.repository.volumeNamespace ≠ "" := by
  unfold intentSpec at h
  split at h
  · rename_i raw hraw
    dsimp only at h
    split_ifs at h with hknown hidentity hprefix
    simp only [not_or] at hidentity
    obtain ⟨hname, -, -, -, -, -, hvolume, -⟩ := hidentity
    have hspec : spec = CleanupSpec.ofJson (.obj raw) := by
      cases hvalid : validate (CleanupSpec.ofJson (.obj raw)).storage with
      | error err =>
        rw [hvalid] at h
        cases h
      | ok _ =>
        rw [hvalid] at h
        cases h
        rfl
    subst hspec
    exact ⟨(stringOrEmpty_append hraw ["repository", "name"]).symm,
      (stringOrEmpty_append hraw ["repository", "volumeNamespace"]).symm, hname, hvolume⟩
  · cases h

structure Allows (lib : Libraries) (k : Key) (t : List (Sigma Call.Reply)) (o : Observations)
    (cleanup : Json) (spec : CleanupSpec) (target : Target) : Prop where
  maySweep : MaySweep lib o cleanup spec target
  distinct : DistinctLocations o
  intentRead : ⟨Call.get k.resource k.name, .ok (some cleanup)⟩ ∈ t
  repositoryRead : ⟨Call.get .backupRepositories spec.repository.name, .ok none⟩ ∈ t

theorem allows_of_targetsRead {o : Observations} {cleanup : Json} {spec : CleanupSpec}
    {target : Target} (hk : k.resource ≠ .backupRepositories) (hread : TargetsRead k t o)
    (hdistinct : o.repository = none → DistinctLocations o)
    (h : MaySweep lib o cleanup spec target) : Allows lib k t o cleanup spec target := by
  obtain ⟨hname, -, hne, -⟩ := intentSpec_fields h.valid
  refine ⟨h, hdistinct h.repository, hread.ownIntent hk cleanup h.cleanup_eq, ?_⟩
  have hget := hread.repository hk cleanup h.cleanup_eq (hname ▸ hne)
  rwa [← hname, h.repository] at hget

theorem observedVolume_of_maySweep {o : Observations} {cleanup : Json} {spec : CleanupSpec}
    {target : Target} (hk : k.resource ≠ .backupRepositories)
    (h : MaySweep lib o cleanup spec target) :
    observedVolume k o = spec.repository.volumeNamespace := by
  obtain ⟨-, hvolume, -, -⟩ := intentSpec_fields h.valid
  rw [observedVolume, if_neg hk, h.cleanup_eq, hvolume]
  rfl

/-- Both observations before a sweep allow it. The HostedClusters come from the cache in the first
and from the API server in the second. -/
theorem sweep_allowed {target : Target} (h : Reaches (reconcile lib k) t (.deletePrefix target)) :
    ∃ t1 t3 o fresh, Handled lib k t t1 t3 o fresh ∧
      (∃ cleanup spec, Allows lib k t1 o cleanup spec target ∧
        ∃ inventory : Inventory, inventory.items = [] ∧
          ⟨Call.cached .hostedClusters (hostedClusterNamespace spec.repository.volumeNamespace),
            .ok inventory⟩ ∈ t1) ∧
      ∃ cleanup spec, Allows lib k t3 fresh cleanup spec target ∧
        ⟨Call.listNamespace .hostedClusters
          (hostedClusterNamespace spec.repository.volumeNamespace), .ok ([], "")⟩ ∈ t3 := by
  obtain ⟨t1, t3, o, fresh, t4, hhandled, hrun⟩ := reconcile_handled rfl (by rintro a ⟨⟩) h
  have hfresh := carryOut_deletePrefix hrun
  have ho : (plan lib k o).deletePrefix = some target := by
    have hsame := congrArg Plan.deletePrefix hhandled.same
    exact hsame.trans hfresh
  obtain ⟨hk, cleanup, spec, hmay⟩ := plan_deletePrefix ho
  obtain ⟨-, cleanup', spec', hmay'⟩ := plan_deletePrefix hfresh
  have hobserved := observe_ends hhandled.observed
  have hconfirmed := confirm_ends hhandled.confirmed
  refine ⟨t1, t3, o, fresh, hhandled, ⟨cleanup, spec, ?_, ?_⟩, cleanup', spec', ?_, ?_⟩
  · exact allows_of_targetsRead hk hobserved.targets hobserved.distinct hmay
  · obtain ⟨inventory, hmem, hitems⟩ := hobserved.hostedClusters hmay.complete.1
    rw [observedVolume_of_maySweep hk hmay] at hmem
    exact ⟨inventory, hitems.symm.trans hmay.hostedClusters, hmem⟩
  · exact allows_of_targetsRead hk hconfirmed.targets hconfirmed.distinct hmay'
  · have hlist := hconfirmed.hostedClusters hmay'.complete.1
    rw [observedVolume_of_maySweep hk hmay', hmay'.hostedClusters] at hlist
    exact hlist (intentSpec_fields hmay'.valid).2.2.2

/-- A sweep and the release of a repository each rest on two observations, the one that was planned
from and the confirming one, whatever the reads answer. -/
theorem reconcile_authorized (lib : Libraries) (k : Key) (t : List (Sigma Call.Reply)) :
    (∀ target, Reaches (reconcile lib k) t (.deletePrefix target) →
      ∃ t₁ t₃ o fresh, Handled lib k t t₁ t₃ o fresh ∧
        (∃ cleanup spec, Allows lib k t₁ o cleanup spec target ∧
          ∃ inventory : Inventory, inventory.items = [] ∧
            ⟨Call.cached .hostedClusters (hostedClusterNamespace spec.repository.volumeNamespace),
              .ok inventory⟩ ∈ t₁) ∧
        ∃ cleanup spec, Allows lib k t₃ fresh cleanup spec target ∧
          ⟨Call.listNamespace .hostedClusters
            (hostedClusterNamespace spec.repository.volumeNamespace), .ok ([], "")⟩ ∈ t₃) ∧
    (∀ a, Reaches (reconcile lib k) t (.apply a) → a.resource = .backupRepositories →
      cleanupFinalizer ∉ a.finalizers →
      ∃ t₁ t₃ o fresh, Handled lib k t t₁ t₃ o fresh ∧
        (∃ r cleanup, HandedOver lib o r cleanup ∧ a.name = getName r ∧ a.uid = getUID r ∧
          ⟨Call.get k.resource k.name, .ok (some r)⟩ ∈ t₁ ∧
          ⟨Call.get .backupRepositoryCleanups (cleanupName (getUID r)), .ok (some cleanup)⟩ ∈ t₁) ∧
        ∃ r cleanup, HandedOver lib fresh r cleanup ∧ a.name = getName r ∧ a.uid = getUID r ∧
          ⟨Call.get k.resource k.name, .ok (some r)⟩ ∈ t₃ ∧
          ⟨Call.get .backupRepositoryCleanups (cleanupName (getUID r)), .ok (some cleanup)⟩ ∈
            t₃) := by
  refine ⟨fun _ h => sweep_allowed h, ?_⟩
  intro a h hresource hrelease
  have hintent : a.resource ≠ .backupRepositoryCleanups := by
    rw [hresource]
    decide
  obtain ⟨t1, t3, o, fresh, t4, hhandled, hrun⟩ :=
    reconcile_handled rfl (by rintro b ⟨⟩; exact hintent) h
  have hmem := carryOut_apply hintent hrun
  have hmem' : a ∈ (lifecycle (plan lib k o)).applies := by rwa [hhandled.same]
  -- both observations found an intent for exactly this repository
  obtain ⟨hk, r, cleanup, hover, hname, huid⟩ :=
    plan_release (List.mem_of_mem_filter hmem') hresource hrelease
  obtain ⟨-, r', cleanup', hover', hname', huid'⟩ :=
    plan_release (List.mem_of_mem_filter hmem) hresource hrelease
  have hread := (observe_ends hhandled.observed).targets
  have hread' := (confirm_ends hhandled.confirmed).targets
  refine ⟨t1, t3, o, fresh, hhandled, ⟨r, cleanup, hover, hname, huid, ?_, ?_⟩,
    r', cleanup', hover', hname', huid', ?_, ?_⟩
  · exact hread.ownRepository hk r hover.repository_eq
  · exact hread.intent hk r cleanup hover.repository_eq hover.cleanup_eq
  · exact hread'.ownRepository hk r' hover'.repository_eq
  · exact hread'.intent hk r' cleanup' hover'.repository_eq hover'.cleanup_eq

/-! ## A cluster whose caches are up to date -/

/-- The answers of an API server and of caches that all hold the given objects. -/
def replyFrom (objects : Resource → List Json) : (c : Call) → c.Reply
  | .now => (0 : Int)
  | .get r name => .ok ((objects r).find? fun v => getName v = name)
  | .cached r ns =>
    if h : (((objects r).filter fun v => getNamespace v = ns).map getName).Nodup then .ok ⟨_, h⟩
    else .error "two objects of one name"
  | .byIndex r key =>
    .ok ((objects r).filter fun v => (maintenanceRelations v (r = .jobs)).contains key)
  | .listNamespace r ns => .ok ((objects r).filter fun v => getNamespace v = ns, "")
  | .listLabelled r label => .ok ((objects r).filter fun v => getLabel v repoNameLabel = label, "")
  | .apply _ => none
  | .delete _ => .ok
  | .deletePrefix _ => none

def exampleLibraries : Libraries where
  sum224 := id
  parseTime _ := some 0
  toCondition _ := none

def retiredVolume : String := "ocm-int-0123456789abcdef0123456789abcdef"

def retiredSpec : CleanupSpec where
  repository := ⟨"retired", "u1", retiredVolume⟩
  storage := ⟨"https://acct.blob.core.windows.net", "backups", "base/kopia/" ++ retiredVolume ++ "/"⟩

def retiredIntent : Json :=
  .obj [("metadata", .obj [("finalizers", .arr [.str cleanupFinalizer]), ("name", .str "repo-u1"),
    ("namespace", .str veleroNamespace)]), ("spec", retiredSpec.toJson)]

/-- A repository in the default location; the retired one is being deleted. -/
def kopiaRepository (name uid volume : String) (metadata : List (String × Json)) : Json :=
  .obj [("metadata", .obj (metadata ++ [("name", .str name), ("namespace", .str veleroNamespace),
      ("uid", .str uid)])),
    ("spec", .obj [("backupStorageLocation", .str "default"), ("repositoryType", .str "kopia"),
      ("volumeNamespace", .str volume)])]

def retiredRepository : Json :=
  kopiaRepository "retired" "u1" retiredVolume
    [("deletionTimestamp", .str "2026-01-01T00:00:00Z"),
      ("finalizers", .arr [.str cleanupFinalizer])]

def liveRepository : Json :=
  kopiaRepository "live" "u2" "ocm-int-fedcba9876543210fedcba9876543210" []

def defaultLocation : Json :=
  .obj [("metadata", .obj [("name", .str "default"), ("namespace", .str veleroNamespace)]),
    ("spec", .obj [("config", .obj [("storageAccount", .str "acct")]),
      ("objectStorage", .obj [("bucket", .str "backups"), ("prefix", .str "base")]),
      ("provider", .str "azure")])]

def retiringCluster (repositories : List Json) : Resource → List Json
  | .backupRepositoryCleanups => [retiredIntent]
  | .backupRepositories => repositories
  | .backupStorageLocations => [defaultLocation]
  | _ => []

def sweepsRetired : Call → Bool
  | .deletePrefix target => target = retiredSpec.storage
  | _ => false

def releasesRetired : Call → Bool
  | .apply a => a.resource = .backupRepositories && !a.finalizers.contains cleanupFinalizer
  | _ => false

def intentKey : Key := ⟨.backupRepositoryCleanups, "repo-u1"⟩

def repositoryKey : Key := ⟨.backupRepositories, "retired"⟩

/-- With the repository gone its blobs are swept. -/
theorem exists_sweep : ∃ t,
    Reaches (reconcile exampleLibraries intentKey) t (.deletePrefix retiredSpec.storage) ∧
      ∀ e ∈ t, e.2 = replyFrom (retiringCluster [liveRepository]) e.1 := by
  have hsome : (firstCall (replyFrom (retiringCluster [liveRepository])) sweepsRetired
      (reconcile exampleLibraries intentKey)).isSome = true := by decide +kernel
  obtain ⟨⟨t, c⟩, hcall⟩ := Option.isSome_iff_exists.mp hsome
  obtain ⟨hreach, hstop, hreply⟩ := reaches_of_firstCall hcall
  cases c with
  | deletePrefix target =>
    cases of_decide_eq_true hstop
    exact ⟨t, hreach, hreply⟩
  | _ => cases hstop

/-- With the intent stored the repository is released. -/
theorem exists_release : ∃ t a, Reaches (reconcile exampleLibraries repositoryKey) t (.apply a) ∧
    a.resource = .backupRepositories ∧ cleanupFinalizer ∉ a.finalizers := by
  have hsome : (firstCall (replyFrom (retiringCluster [retiredRepository, liveRepository]))
      releasesRetired (reconcile exampleLibraries repositoryKey)).isSome = true := by decide +kernel
  obtain ⟨⟨t, c⟩, hcall⟩ := Option.isSome_iff_exists.mp hsome
  obtain ⟨hreach, hstop, -⟩ := reaches_of_firstCall hcall
  cases c with
  | apply a =>
    refine ⟨t, a, hreach, ?_⟩
    simpa [releasesRetired] using hstop
  | _ => cases hstop

theorem reconcile_authorized_retired :
    (∃ t t₁ t₃ o fresh cleanup spec,
      Reaches (reconcile exampleLibraries intentKey) t (.deletePrefix retiredSpec.storage) ∧
      Handled exampleLibraries intentKey t t₁ t₃ o fresh ∧
      Allows exampleLibraries intentKey t₃ fresh cleanup spec retiredSpec.storage) ∧
    ∃ t t₁ t₃ o fresh r cleanup a,
      Reaches (reconcile exampleLibraries repositoryKey) t (.apply a) ∧
      Handled exampleLibraries repositoryKey t t₁ t₃ o fresh ∧
      HandedOver exampleLibraries fresh r cleanup ∧ a.uid = getUID r := by
  constructor
  · obtain ⟨t, hreach, -⟩ := exists_sweep
    obtain ⟨t₁, t₃, o, fresh, hhandled, -, cleanup, spec, hallows, -⟩ :=
      (reconcile_authorized exampleLibraries intentKey t).1 _ hreach
    exact ⟨t, t₁, t₃, o, fresh, cleanup, spec, hreach, hhandled, hallows⟩
  · obtain ⟨t, a, hreach, hresource, hrelease⟩ := exists_release
    obtain ⟨t₁, t₃, o, fresh, hhandled, -, r, cleanup, hover, -, huid, -⟩ :=
      (reconcile_authorized exampleLibraries repositoryKey t).2 a hreach hresource hrelease
    exact ⟨t, t₁, t₃, o, fresh, r, cleanup, a, hreach, hhandled, hover, huid⟩

def besideTarget (o : Observations) (target : Target) : Bool :=
  (o.list .backupRepositories).any fun repo => (o.list .backupStorageLocations).any fun bsl =>
    getName bsl = stringOrEmpty repo ["spec", "backupStorageLocation"] &&
      stringOrEmpty bsl ["spec", "provider"] = "azure" &&
      (bslScope bsl).any fun scope => overlaps scope target

/-- A location is shared by many repositories: a sweep goes on although an observed repository is in
a location whose account, container and base hold the target. -/
theorem sweep_in_shared_location :
    ∃ lib k t t₁ t₃ o fresh target,
      Reaches (reconcile lib k) t (.deletePrefix target) ∧ Handled lib k t t₁ t₃ o fresh ∧
      ∃ repo ∈ o.list .backupRepositories, ∃ bsl ∈ o.list .backupStorageLocations,
        getName bsl = stringOrEmpty repo ["spec", "backupStorageLocation"] ∧
        stringOrEmpty bsl ["spec", "provider"] = "azure" ∧
        ∃ scope, bslScope bsl = some scope ∧ scope.Shares target := by
  obtain ⟨t, hreach, hreply⟩ := exists_sweep
  obtain ⟨t₁, t₃, o, fresh, hhandled, -⟩ := sweep_allowed hreach
  have ho : .ok o = result (replyFrom (retiringCluster [liveRepository]))
      (observe exampleLibraries intentKey) := by
    refine hhandled.observed.eq_result fun e he => hreply e ?_
    obtain ⟨t₂, t₄, rfl⟩ := hhandled.split
    exact List.mem_append_left _ he
  have hbeside : (result (replyFrom (retiringCluster [liveRepository]))
      (observe exampleLibraries intentKey)).toOption.any (besideTarget · retiredSpec.storage) =
        true := by decide +kernel
  rw [← ho] at hbeside
  refine ⟨_, _, t, t₁, t₃, o, fresh, _, hreach, hhandled, ?_⟩
  simpa [Except.toOption, besideTarget, Option.any_eq_true, overlaps_iff_shares, and_assoc]
    using hbeside

end AroHcp.RepositoryCleanup
