import AroHcp.RepositoryCleanup.Controller

/-! What an observation is like from which a sweep or the release of a repository is planned. -/

namespace AroHcp.RepositoryCleanup

open Unstructured

/-- The location of a repository keeps it apart from the target: it is of another cloud, its whole
scope has no blob name in common with the target, or the repository's own prefix in it has none. -/
def KeepsApart (target : Target) (repo bsl : Json) : Prop :=
  stringOrEmpty bsl ["spec", "provider"] = "aws" ∨ stringOrEmpty bsl ["spec", "provider"] = "gcp" ∨
    (∃ scope, bslScope bsl = some scope ∧ ¬scope.Shares target) ∨
    ∃ own, resolveTarget repo bsl = .ok own ∧ ¬own.Shares target

/-- The intent is in order and nothing that is observed may use its target any more. -/
structure MaySweep (lib : Libraries) (o : Observations) (cleanup : Json) (spec : CleanupSpec)
    (target : Target) : Prop where
  cleanup_eq : o.cleanup = some cleanup
  valid : intentSpec cleanup = .ok spec
  names : spec.storage = target
  notPreserved : preserved (some cleanup) = false
  finalized : hasFinalizer cleanup = true
  repository : o.repository = none
  hostedClusters : o.hostedClusters = []
  complete : o.dependenciesComplete = true ∧ ∀ r ∈ inventoryResources, (o.objects r).isSome = true
  repositories : ∀ repo ∈ o.list .backupRepositories, getName repo ≠ spec.repository.name ∧
    ∃ bsl ∈ o.list .backupStorageLocations,
      getName bsl = stringOrEmpty repo ["spec", "backupStorageLocation"] ∧
      KeepsApart target repo bsl
  backups : ∀ backup ∈ o.list .backups,
    namespaceMayMatch backup spec.repository.volumeNamespace ["spec"] = false
  schedules : ∀ schedule ∈ o.list .schedules,
    namespaceMayMatch schedule spec.repository.volumeNamespace ["spec", "template"] = false
  operations : ∀ r ∈ operationResources, ∀ obj ∈ o.list r, terminalOperation obj r = true ∨
    r ≠ .restores ∧ r ≠ .podVolumeRestores ∧ operationNamespace obj ≠ "" ∧
      operationNamespace obj ≠ spec.repository.volumeNamespace
  jobs : ∀ job ∈ o.list .jobs,
    getLabel job repoNameLabel ≠ repositoryLabel lib spec.repository.name ∧
      (worksOn job true spec.repository.volumeNamespace = true → terminalJob job = true)
  pods : ∀ pod ∈ o.list .pods,
    getLabel pod repoNameLabel ≠ repositoryLabel lib spec.repository.name ∧
      (worksOn pod false spec.repository.volumeNamespace = true → terminalPod pod = true)

structure HandedOver (lib : Libraries) (o : Observations) (r cleanup : Json) : Prop where
  repository_eq : o.repository = some r
  cleanup_eq : o.cleanup = some cleanup
  valid : ∃ target, resolve r o = .ok target ∧ intentSpec cleanup = .ok ⟨identity r, target⟩
  finalized : hasFinalizer cleanup = true
  notDeleting : deleting lib cleanup = false

/-! ## Consumers -/

theorem exists_of_disjointByLocation {target : Target} {repo : Json} {locations : List Json}
    (h : disjointByLocation target repo locations = true) :
    ∃ bsl ∈ locations, getName bsl = stringOrEmpty repo ["spec", "backupStorageLocation"] ∧
      locationExcludes target bsl = true := by
  induction locations using List.reverseRecOn with
  | nil => cases h
  | append_singleton locations bsl ih =>
    unfold disjointByLocation at h ih
    rw [List.foldl_append, List.foldl_cons, List.foldl_nil] at h
    split_ifs at h with hname
    · exact ⟨bsl, by simp, hname, h⟩
    · obtain ⟨bsl', hmem, hrest⟩ := ih h
      exact ⟨bsl', by simp [hmem], hrest⟩

theorem keepsApart_of_locationExcludes {target : Target} {repo bsl : Json}
    (h : locationExcludes target bsl = true) : KeepsApart target repo bsl := by
  simp only [locationExcludes, Bool.or_eq_true, decide_eq_true_eq, Option.any_eq_true,
    Bool.not_eq_true'] at h
  rcases h with (haws | hgcp) | ⟨scope, hscope, hapart⟩
  · exact .inl haws
  · exact .inr (.inl hgcp)
  · refine .inr (.inr (.inl ⟨scope, hscope, ?_⟩))
    rw [← overlaps_iff_shares, hapart]
    exact Bool.false_ne_true

/-- A repository that does not block a cleanup is another one and kept apart by its location. -/
theorem repositoryBlock_eq_none {o : Observations} {spec : CleanupSpec} {repo : Json}
    (h : repositoryBlock o spec none repo = none) :
    getName repo ≠ spec.repository.name ∧ ∃ bsl ∈ o.list .backupStorageLocations,
      getName bsl = stringOrEmpty repo ["spec", "backupStorageLocation"] ∧
      KeepsApart spec.storage repo bsl := by
  unfold repositoryBlock at h
  rw [if_neg (by simp)] at h
  split_ifs at h with hname hdisjoint
  · obtain ⟨bsl, hmem, hbsl, hexcludes⟩ := exists_of_disjointByLocation hdisjoint
    exact ⟨hname, bsl, hmem, hbsl, keepsApart_of_locationExcludes hexcludes⟩
  · refine ⟨hname, ?_⟩
    unfold resolve at h
    cases hlocation : locationOf repo (o.list .backupStorageLocations) with
    | none => simp [hlocation] at h
    | some bsl =>
      have hbsl := List.find?_some
        (p := fun b => decide (getName b = stringOrEmpty repo ["spec", "backupStorageLocation"]))
        hlocation
      refine ⟨bsl, List.mem_of_find?_eq_some hlocation, of_decide_eq_true hbsl, .inr (.inr (.inr ?_))⟩
      cases hown : resolveTarget repo bsl with
      | error err => simp [hlocation, hown] at h
      | ok own =>
        refine ⟨own, rfl, ?_⟩
        rw [← overlaps_iff_shares]
        intro hshares
        simp [hlocation, hown, hshares] at h

theorem operationBlock_eq_none {spec : CleanupSpec} {r : Resource} {obj : Json}
    (h : operationBlock spec r obj = none) :
    terminalOperation obj r = true ∨ r ≠ .restores ∧ r ≠ .podVolumeRestores ∧
      operationNamespace obj ≠ "" ∧ operationNamespace obj ≠ spec.repository.volumeNamespace := by
  unfold operationBlock at h
  split_ifs at h with hterminal hrestore hnamespace
  · exact .inl hterminal
  · rw [not_or] at hrestore hnamespace
    exact .inr ⟨hrestore.1, hrestore.2, hnamespace.1, hnamespace.2⟩

/-- What is known of the observations if no consumer blocks a cleanup. -/
theorem consumerBlock_eq_none {o : Observations} {spec : CleanupSpec}
    (h : consumerBlock o spec none = none) :
    (∀ r ∈ inventoryResources, (o.objects r).isSome = true) ∧
    (∀ repo ∈ o.list .backupRepositories, getName repo ≠ spec.repository.name ∧
      ∃ bsl ∈ o.list .backupStorageLocations,
        getName bsl = stringOrEmpty repo ["spec", "backupStorageLocation"] ∧
        KeepsApart spec.storage repo bsl) ∧
    (∀ backup ∈ o.list .backups,
      namespaceMayMatch backup spec.repository.volumeNamespace ["spec"] = false) ∧
    (∀ schedule ∈ o.list .schedules,
      namespaceMayMatch schedule spec.repository.volumeNamespace ["spec", "template"] = false) ∧
    ∀ r ∈ operationResources, ∀ obj ∈ o.list r, terminalOperation obj r = true ∨
      r ≠ .restores ∧ r ≠ .podVolumeRestores ∧ operationNamespace obj ≠ "" ∧
        operationNamespace obj ≠ spec.repository.volumeNamespace := by
  unfold consumerBlock at h
  simp only [Option.or_eq_none_iff, List.findSome?_eq_none_iff] at h
  obtain ⟨hcomplete, -, hrepositories, hbackups, hschedules, hoperations⟩ := h
  refine ⟨?_, ?_, ?_, ?_, ?_⟩
  · intro r hr
    simpa [Option.isSome_iff_ne_none] using hcomplete r hr
  · intro repo hrepo
    exact repositoryBlock_eq_none (hrepositories repo hrepo)
  · intro backup hbackup
    simpa using hbackups backup hbackup
  · intro schedule hschedule
    simpa using hschedules schedule hschedule
  · intro r hr obj hobj
    exact operationBlock_eq_none (hoperations r hr obj hobj)

/-! ## Maintenance -/

/-- Without a Job to drain, none carries the label and none that still runs works on the volume. -/
theorem maintenanceJobs_eq_nil {label volume : String} {jobs : List Json}
    (h : maintenanceJobs label volume jobs = .ok []) (job : Json) (hmem : job ∈ jobs) :
    getLabel job repoNameLabel ≠ label ∧
      (worksOn job true volume = true → terminalJob job = true) := by
  induction jobs with
  | nil => cases hmem
  | cons head rest ih =>
    unfold maintenanceJobs at h
    split_ifs at h with hlabel hactive hshape hterminal
    · rcases List.mem_cons.mp hmem with rfl | hrest
      · refine ⟨hlabel, ?_⟩
        intro hworks
        simpa [hworks] using hactive
      · exact ih h hrest
    · cases hrec : maintenanceJobs label volume rest <;> simp [hrec, Except.map] at h

theorem maintenancePods_eq_nil {label volume : String} {pods : List Json}
    (h : maintenancePods label volume [] pods = .ok []) (pod : Json) (hmem : pod ∈ pods) :
    getLabel pod repoNameLabel ≠ label ∧
      (worksOn pod false volume = true → terminalPod pod = true) := by
  induction pods with
  | nil => cases hmem
  | cons head rest ih =>
    unfold maintenancePods at h
    split_ifs at h with hassociated hactive hshape hterminal
    · rcases List.mem_cons.mp hmem with rfl | hrest
      · constructor
        · intro hlabel
          simp [associatedPod, hlabel] at hassociated
        · intro hworks
          simpa [hworks] using hactive
      · exact ih h hrest
    · cases hrec : maintenancePods label volume [] rest <;> simp [hrec, Except.map] at h

theorem maintenance_eq_ok {lib : Libraries} {o : Observations} {spec : CleanupSpec}
    {jobs pods : List Json} (h : maintenance lib o spec = .ok (jobs, pods)) :
    maintenanceJobs (repositoryLabel lib spec.repository.name) spec.repository.volumeNamespace
      (o.list .jobs) = .ok jobs ∧
    maintenancePods (repositoryLabel lib spec.repository.name) spec.repository.volumeNamespace jobs
      (o.list .pods) = .ok pods := by
  dsimp only [maintenance, bind, Except.bind] at h
  cases hjobs : maintenanceJobs (repositoryLabel lib spec.repository.name)
      spec.repository.volumeNamespace (o.list .jobs) with
  | error err =>
    rw [hjobs] at h
    cases h
  | ok found =>
    rw [hjobs] at h
    dsimp only at h
    cases hpods : maintenancePods (repositoryLabel lib spec.repository.name)
        spec.repository.volumeNamespace found (o.list .pods) with
    | error err =>
      rw [hpods] at h
      cases h
    | ok found' =>
      rw [hpods] at h
      cases h
      exact ⟨rfl, hpods⟩

/-! ## Plans -/

section

variable {lib : Libraries} {o : Observations}

@[simp] theorem conditionPlan_deletePrefix (reason message status : String) :
    (conditionPlan lib o reason message status).deletePrefix = none := by
  unfold conditionPlan
  split
  · rfl
  · dsimp only
    split <;> rfl

@[simp] theorem blockedPlan_deletePrefix (reason message : String) :
    (blockedPlan lib o reason message).deletePrefix = none :=
  conditionPlan_deletePrefix ..

variable {a : Apply}

theorem conditionPlan_applies {reason message status : String}
    (ha : a ∈ (conditionPlan lib o reason message status).applies) :
    a.resource = .backupRepositoryCleanups ∧ a.subresource = "status" := by
  unfold conditionPlan at ha
  split at ha
  · cases ha
  · dsimp only at ha
    split at ha
    · cases ha
    · rw [List.mem_singleton.mp ha]
      exact ⟨rfl, rfl⟩

theorem blockedPlan_applies {reason message : String}
    (ha : a ∈ (blockedPlan lib o reason message).applies) :
    a.resource = .backupRepositoryCleanups ∧ a.subresource = "status" :=
  conditionPlan_applies ha

theorem drainPlan_deletePrefix (resource : Resource) (obj : Json) (message : String) :
    (drainPlan lib o resource obj message).deletePrefix = none := by
  unfold drainPlan
  split_ifs <;> simp

theorem completePlan_deletePrefix (cleanup : Json) :
    (completePlan lib o cleanup).deletePrefix = none := by
  unfold completePlan
  dsimp only
  split_ifs <;> simp

theorem handOverPlan_deletePrefix (r : Json) (spec : CleanupSpec) :
    (handOverPlan lib o r spec).deletePrefix = none := by
  unfold handOverPlan
  split
  · rfl
  · split_ifs
    · simp
    · rfl

theorem retirePlan_deletePrefix (r : Json) (target : Target) :
    (retirePlan lib o r target).deletePrefix = none := by
  unfold retirePlan
  split
  · rfl
  split
  · simp
  split
  · rfl
  split
  · simp
  split
  · rfl
  · exact handOverPlan_deletePrefix r _

theorem planRepository_deletePrefix : (planRepository lib o).deletePrefix = none := by
  unfold planRepository
  split
  · rfl
  rename_i r _
  unfold repositoryPlan
  split
  · simp
  split
  · simp
  split
  · rfl
  split
  · simp
  · exact retirePlan_deletePrefix r _

/-- A sweep is planned only if the intent is in order and nothing observed uses its target. -/
theorem planCleanup_deletePrefix {target : Target}
    (h : (planCleanup lib o).deletePrefix = some target) :
    ∃ cleanup spec, MaySweep lib o cleanup spec target := by
  unfold planCleanup at h
  split at h
  · cases h
  rename_i cleanup hcleanup
  split at h
  · simp at h
  rename_i spec hspec
  unfold intentPlan at h
  split_ifs at h with hpreserved hfinalizer hdeleting hrepository hhosted hcomplete
  · simp at h
  · simp at h
  · simp at h
  · simp at h
  unfold dependencyPlan at h
  split at h
  · simp at h
  rename_i hblock
  split at h
  · simp at h
  · rw [drainPlan_deletePrefix] at h
    cases h
  · rw [drainPlan_deletePrefix] at h
    cases h
  rename_i hmaintenance
  split_ifs at h
  · obtain ⟨hjobs, hpods⟩ := maintenance_eq_ok hmaintenance
    obtain ⟨hinventories, hrepositories, hbackups, hschedules, hoperations⟩ :=
      consumerBlock_eq_none hblock
    have htarget : spec.storage = target := Option.some.inj h
    subst htarget
    exact ⟨cleanup, spec, hcleanup, hspec, rfl, Bool.eq_false_of_not_eq_true hpreserved,
      Bool.eq_true_of_not_eq_false hfinalizer, Option.not_isSome_iff_eq_none.mp hrepository,
      not_not.mp hhosted, ⟨Bool.eq_true_of_not_eq_false hcomplete, hinventories⟩, hrepositories,
      hbackups, hschedules, hoperations, maintenanceJobs_eq_nil hjobs, maintenancePods_eq_nil hpods⟩
  · rw [completePlan_deletePrefix] at h
    cases h

theorem sweepPlan_applies {cleanup : Json} {target : Target}
    (ha : a ∈ (sweepPlan lib o cleanup target).applies) :
    a.resource = .backupRepositoryCleanups := by
  -- the fold keeps the first plan or replaces it by one without applies
  have hfold : ∀ (stored : List Json) (p : Plan),
      (∀ b ∈ p.applies, b.resource = .backupRepositoryCleanups) →
      ∀ b ∈ (stored.foldl (fun (p : Plan) condition =>
        if condition.member "type" ≠ some (.str "Complete") then p
        else if condition.member "status" = some (.str "True") then
          { requeueAfter := tombstoneRecheckInterval }
        else if condition.member "reason" = some (.str "SweepFailed") then
          { requeueAfter := recheckInterval }
        else p) p).applies, b.resource = .backupRepositoryCleanups := by
    intro stored
    induction stored with
    | nil => exact fun p hp => hp
    | cons condition stored ih =>
      intro p hp
      apply ih
      dsimp only
      split_ifs
      · exact hp
      · simp
      · simp
      · exact hp
  exact hfold _ _ (fun b hb => (blockedPlan_applies hb).1) a ha

theorem drainPlan_applies {resource : Resource} {obj : Json} {message : String}
    (ha : a ∈ (drainPlan lib o resource obj message).applies) :
    a.resource = .backupRepositoryCleanups := by
  unfold drainPlan at ha
  split_ifs at ha
  · exact (blockedPlan_applies ha).1
  · exact (blockedPlan_applies ha).1

theorem completePlan_applies {cleanup : Json} (ha : a ∈ (completePlan lib o cleanup).applies) :
    a.resource = .backupRepositoryCleanups := by
  unfold completePlan at ha
  dsimp only at ha
  split_ifs at ha
  · rw [List.mem_singleton.mp ha]
    rfl
  · exact (conditionPlan_applies ha).1

theorem dependencyPlan_applies {cleanup : Json} {spec : CleanupSpec}
    (ha : a ∈ (dependencyPlan lib o cleanup spec).applies) :
    a.resource = .backupRepositoryCleanups := by
  unfold dependencyPlan at ha
  split at ha
  · exact (blockedPlan_applies ha).1
  split at ha
  · exact (blockedPlan_applies ha).1
  · exact drainPlan_applies ha
  · exact drainPlan_applies ha
  · split_ifs at ha
    · exact sweepPlan_applies ha
    · exact completePlan_applies ha

theorem planCleanup_applies (ha : a ∈ (planCleanup lib o).applies) :
    a.resource = .backupRepositoryCleanups := by
  unfold planCleanup at ha
  split at ha
  · cases ha
  split at ha
  · exact (blockedPlan_applies ha).1
  unfold intentPlan at ha
  split_ifs at ha
  · exact (blockedPlan_applies ha).1
  · exact (blockedPlan_applies ha).1
  · rw [List.mem_singleton.mp ha]
    rfl
  · exact (blockedPlan_applies ha).1
  · exact (blockedPlan_applies ha).1
  · cases ha
  · exact dependencyPlan_applies ha

/-- A repository's finalizer is left out of an apply only when the repository is handed over. -/
theorem planRepository_release (ha : a ∈ (planRepository lib o).applies)
    (hresource : a.resource = .backupRepositories) (hrelease : cleanupFinalizer ∉ a.finalizers) :
    ∃ r cleanup, HandedOver lib o r cleanup ∧ a.name = getName r ∧ a.uid = getUID r := by
  have hblocked : ∀ {reason message : String},
      a ∉ (blockedPlan lib o reason message).applies := by
    intro reason message hmem
    rw [(blockedPlan_applies hmem).1] at hresource
    cases hresource
  unfold planRepository at ha
  split at ha
  · cases ha
  rename_i r hrepository
  have ha := List.mem_of_mem_filter ha
  unfold repositoryPlan at ha
  split at ha
  · exact absurd ha hblocked
  split at ha
  · exact absurd ha hblocked
  split at ha
  · cases ha
  split at ha
  · exact absurd ha hblocked
  rename_i target htarget
  unfold retirePlan at ha
  split at ha
  · -- protection is attached
    rw [List.mem_singleton.mp ha] at hrelease
    exact absurd List.mem_cons_self hrelease
  split at ha
  · exact absurd ha hblocked
  split at ha
  · cases ha
  split at ha
  · exact absurd ha hblocked
  split at ha
  · cases ha
  unfold handOverPlan at ha
  split at ha
  · rw [List.mem_singleton.mp ha] at hresource
    cases hresource
  rename_i cleanup hcleanup
  split at ha
  · exact absurd ha hblocked
  rename_i hmatch
  rw [not_or, not_or, not_not, Bool.not_eq_true, Bool.not_eq_false] at hmatch
  obtain ⟨hspec, hdeleting, hfinalizer⟩ := hmatch
  have hvalid : intentSpec cleanup = .ok ⟨identity r, target⟩ := by
    cases hactual : intentSpec cleanup with
    | error err =>
      rw [hactual] at hspec
      cases hspec
    | ok actual =>
      rw [hactual] at hspec
      exact congrArg Except.ok (Option.some.inj hspec)
  rw [List.mem_singleton.mp ha]
  exact ⟨r, cleanup, ⟨hrepository, hcleanup, ⟨target, htarget, hvalid⟩, hfinalizer, hdeleting⟩, rfl,
    rfl⟩

end

end AroHcp.RepositoryCleanup
