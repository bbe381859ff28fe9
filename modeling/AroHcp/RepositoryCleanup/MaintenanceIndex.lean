import AroHcp.RepositoryCleanup.Sweep

/-! The maintenance index loses nothing: every Job and Pod that the planner reacts to is found under
one of the keys that it looks up. -/

namespace AroHcp.RepositoryCleanup

open GoStrings Program Unstructured

structure MaintenanceIndex where
  objects : Resource → List Json
  names_nodup : ∀ r, ((objects r).map getName).Nodup
  ns : ∀ r, ∀ v ∈ objects r, getNamespace v = veleroNamespace
  byIndex : Resource → String → List Json
  mem_byIndex : ∀ r key v,
    v ∈ byIndex r key ↔ v ∈ objects r ∧ key ∈ maintenanceRelations v (r = .jobs)

def related (r : Resource) (keys : List String) (v : Json) : Bool :=
  keys.any (maintenanceRelations v (r = .jobs)).contains

namespace MaintenanceIndex

variable (index : MaintenanceIndex) {r : Resource}

theorem eq_of_getName {v w : Json} (hv : v ∈ index.objects r) (hw : w ∈ index.objects r)
    (h : getName v = getName w) : v = w :=
  List.inj_on_of_nodup_map (index.names_nodup r) hv hw h

def Collects (r : Resource) (P : Json → Prop) (result : List Json) : Prop :=
  (result.map getName).Nodup ∧ ∀ v, v ∈ result ↔ v ∈ index.objects r ∧ P v

variable {index}

theorem Collects.add_one {P : Json → Prop} {result : List Json} {obj : Json}
    (h : index.Collects r P result) (hobj : obj ∈ index.objects r) :
    index.Collects r (fun v => P v ∨ v = obj) (addUnseen result [obj]) := by
  have hns := index.ns r obj hobj
  by_cases hseen : getName obj ∈ result.map getName
  · -- the object of that name is the object itself
    obtain ⟨w, hw, hname⟩ := List.mem_map.mp hseen
    obtain rfl := index.eq_of_getName ((h.2 w).mp hw).1 hobj hname
    have hadd : addUnseen result [w] = result := by
      simp [addUnseen, -List.mem_map, hseen]
    rw [hadd]
    refine ⟨h.1, fun v => (h.2 v).trans (and_congr_right fun _ => ?_)⟩
    exact ⟨.inl, fun hv => hv.elim id fun hv => hv ▸ ((h.2 w).mp hw).2⟩
  · have hadd : addUnseen result [obj] = result ++ [obj] := by
      simp [addUnseen, hns, -List.mem_map, hseen]
    rw [hadd]
    refine ⟨?_, fun v => ?_⟩
    · rw [List.map_append, List.nodup_append']
      exact ⟨h.1, List.nodup_singleton _, by simpa using hseen⟩
    · rw [List.mem_append, h.2, List.mem_singleton]
      grind

theorem Collects.addUnseen {P : Json → Prop} {result objects : List Json}
    (h : index.Collects r P result) (hobjects : ∀ v ∈ objects, v ∈ index.objects r) :
    index.Collects r (fun v => P v ∨ v ∈ objects) (addUnseen result objects) := by
  induction objects generalizing result P with
  | nil =>
    refine ⟨h.1, fun v => (h.2 v).trans ?_⟩
    simp
  | cons obj objects ih =>
    obtain ⟨hobj, hrest⟩ := List.forall_mem_cons.mp hobjects
    have hnext := ih (h.add_one hobj) hrest
    simp only [or_assoc, ← List.mem_cons] at hnext
    exact hnext

variable (index)

theorem collects_keys (keys : List String) {P : Json → Prop} {result : List Json}
    (h : index.Collects r P result) :
    index.Collects r (fun v => P v ∨ related r keys v = true)
      (keys.foldl (fun l key => addUnseen l (index.byIndex r key)) result) := by
  induction keys generalizing result P with
  | nil => simpa [related] using h
  | cons key keys ih =>
    obtain ⟨hnodup, hmem⟩ := ih (h.addUnseen fun v hv => ((index.mem_byIndex r key v).mp hv).1)
    refine ⟨hnodup, fun v => (hmem v).trans ?_⟩
    simp only [related, List.any_cons, index.mem_byIndex, Bool.or_eq_true, List.contains_iff_mem]
    grind

/-- Sorted by name, what is found under the keys is what the whole inventory has of it. -/
theorem sort_collect (keys : List String) :
    sortByName (keys.foldl (fun l key => addUnseen l (index.byIndex r key)) []) =
      (sortByName (index.objects r)).filter (related r keys) := by
  have hinit : index.Collects r (fun _ => False) [] := ⟨List.nodup_nil, by simp⟩
  obtain ⟨hnodup, hmem⟩ := index.collects_keys keys hinit
  have hsorted (l : List Json) : (sortByName l).Pairwise fun a b => getName a ≤ getName b := by
    exact List.pairwise_insertionSort _ l
  have hperm (l : List Json) : (sortByName l).Perm l := List.perm_insertionSort _ l
  refine List.Perm.eq_of_pairwise ?_ (hsorted _) ((hsorted _).filter _) ?_
  · intro a b ha hb hab hba
    exact index.eq_of_getName ((hmem a).mp ((hperm _).mem_iff.mp ha)).1
      ((hperm _).mem_iff.mp (List.mem_filter.mp hb).1) (le_antisymm hab hba)
  · refine (List.perm_ext_iff_of_nodup ?_ ?_).mpr fun v => ?_
    · exact (hperm _).nodup_iff.mpr hnodup.of_map
    · exact ((hperm _).nodup_iff.mpr (index.names_nodup r).of_map).filter _
    · rw [(hperm _).mem_iff, hmem, List.mem_filter, (hperm _).mem_iff]
      exact and_congr_right fun _ => or_iff_right not_false

def answers (other : (c : Call) → c.Reply) : (c : Call) → c.Reply
  | .byIndex r key => .ok (index.byIndex r key)
  | c => other c

end MaintenanceIndex

/-! ## The planner -/

section

variable {r : Resource} {label volume : String} {jobs l : List Json}

/-- The Jobs that are left out are neither labelled nor working on the volume. -/
theorem maintenanceJobs_filter {selected : Json → Bool}
    (h : ∀ job ∈ l, selected job = false →
      getLabel job repoNameLabel ≠ label ∧ worksOn job true volume = false) :
    maintenanceJobs label volume (l.filter selected) = maintenanceJobs label volume l := by
  induction l with
  | nil => rfl
  | cons job rest ih =>
    have hrest := ih (List.forall_mem_cons.mp h).2
    grind [maintenanceJobs]

theorem maintenancePods_filter {selected : Json → Bool}
    (h : ∀ pod ∈ l, selected pod = false →
      associatedPod label jobs pod = false ∧ worksOn pod false volume = false) :
    maintenancePods label volume jobs (l.filter selected) = maintenancePods label volume jobs l := by
  induction l with
  | nil => rfl
  | cons pod rest ih =>
    have hrest := ih (List.forall_mem_cons.mp h).2
    grind [maintenancePods]

theorem mem_of_maintenanceJobs (h : maintenanceJobs label volume l = .ok jobs) :
    ∀ job ∈ jobs, job ∈ l ∧ getLabel job repoNameLabel = label := by
  induction l generalizing jobs with
  | nil => grind [maintenanceJobs]
  | cons job rest ih =>
    cases hrest : maintenanceJobs label volume rest with
    | error err => grind [maintenanceJobs, Except.map]
    | ok found => grind [maintenanceJobs, Except.map]

/-- A Pod of the repository has a key of the label or of one of the Jobs. -/
theorem exists_relation_of_associatedPod {pod : Json} (h : associatedPod label jobs pod = true) :
    "label/" ++ label ∈ maintenanceRelations pod false ∨
      ∃ job ∈ jobs, "owner/" ++ getUID job ∈ maintenanceRelations pod false ∨
        "job/" ++ getName job ∈ maintenanceRelations pod false := by
  unfold associatedPod at h
  simp only [Bool.or_eq_true, decide_eq_true_eq, List.contains_iff_mem, List.any_eq_true,
    Bool.and_eq_true, List.mem_map] at h
  unfold maintenanceRelations
  rcases h with ((rfl | ⟨job, hjob, hname⟩) | ⟨job, hjob, hname⟩) |
    ⟨owner, howner, hkind, job, hjob, huid⟩
  · exact .inl (by simp)
  · exact .inr ⟨job, hjob, .inr (by simp [hname])⟩
  · exact .inr ⟨job, hjob, .inr (by simp [hname])⟩
  · refine .inr ⟨job, hjob, .inl ?_⟩
    have hmem : "owner/" ++ getUID job ∈ (getOwnerReferences pod).filterMap fun owner =>
        if owner.kind = "Job" then some ("owner/" ++ owner.uid) else none :=
      List.mem_filterMap.mpr ⟨owner, howner, by rw [if_pos hkind, huid]⟩
    simp [hmem]

theorem related_eq_false {keys : List String} {v : Json} :
    related r keys v = false ↔ ∀ key ∈ keys, key ∉ maintenanceRelations v (r = .jobs) := by
  simp [related]

end

/-! ## The selection -/

section

variable (index : MaintenanceIndex) (other : (c : Call) → c.Reply) (lib : Libraries) {r : Resource}

def maintenanceKeys (label volume : String) (r : Resource) (jobs : List Json) : List String :=
  ["volume/" ++ volume, "label/" ++ label] ++
    if r = .pods then jobs.flatMap fun job => ["owner/" ++ getUID job, "job/" ++ getName job] else []

theorem result_collectByIndex (keys : List String) (found : List Json) :
    result (index.answers other) (collectByIndex r keys found) =
      .ok (keys.foldl (fun l key => addUnseen l (index.byIndex r key)) found) := by
  induction keys generalizing found with
  | nil => rfl
  | cons key keys ih => exact ih _

theorem result_cachedMaintenance (volume repository : String) (jobs : List Json) :
    result (index.answers other) (cachedMaintenance lib r volume repository jobs) =
      .ok ((sortByName (index.objects r)).filter
        (related r (maintenanceKeys (repositoryLabel lib repository) volume r jobs))) := by
  unfold cachedMaintenance
  rw [result_bind, result_collectByIndex]
  exact congrArg Except.ok (index.sort_collect _)

theorem Observations.list_set (o : Observations) (r r' : Resource) (items : List Json) :
    (o.set r items).list r' = if r' = r then items else o.list r' := by
  unfold Observations.set Observations.list
  split_ifs with h
  · simp [h]
  · simp [h]

/-- The planner decides the same from what it looks up in the index as from the whole inventories,
sorted by name. -/
theorem maintenance_cachedMaintenance (o : Observations) (spec : CleanupSpec) :
    ∃ jobs pods,
      result (index.answers other) (cachedMaintenance lib .jobs spec.repository.volumeNamespace
        spec.repository.name []) = .ok jobs ∧
      result (index.answers other) (cachedMaintenance lib .pods spec.repository.volumeNamespace
        spec.repository.name jobs) = .ok pods ∧
      maintenance lib ((o.set .jobs jobs).set .pods pods) spec =
        maintenance lib ((o.set .jobs (sortByName (index.objects .jobs))).set .pods
          (sortByName (index.objects .pods))) spec := by
  refine ⟨_, _, result_cachedMaintenance index other lib _ _ _,
    result_cachedMaintenance index other lib _ _ _, ?_⟩
  unfold maintenance
  simp only [Observations.list_set, if_pos, reduceCtorEq, if_false]
  generalize repositoryLabel lib spec.repository.name = label
  generalize spec.repository.volumeNamespace = volume
  have hlabelled {job : Json}
      (hjob : related .jobs (maintenanceKeys label volume .jobs []) job = false) :
      getLabel job repoNameLabel ≠ label := by
    rintro rfl
    have hkey := related_eq_false.mp hjob ("label/" ++ getLabel job repoNameLabel)
      (List.mem_append_left _ (by simp))
    exact hkey (by simp [maintenanceRelations])
  have hworks {r : Resource} {jobs : List Json} {v : Json}
      (hv : related r (maintenanceKeys label volume r jobs) v = false) :
      worksOn v (r = .jobs) volume = false := by
    have hkey := related_eq_false.mp hv ("volume/" ++ volume) (List.mem_append_left _ (by simp))
    simpa [worksOn] using hkey
  rw [maintenanceJobs_filter fun job _ hjob => ⟨hlabelled hjob, hworks hjob⟩]
  rcases hjobs : maintenanceJobs label volume (sortByName (index.objects .jobs)) with _ | jobs
  · rfl
  refine congrArg (fun pods => pods >>= fun pods => Except.ok (jobs, pods))
    (maintenancePods_filter ?_)
  intro pod _ hpod
  refine ⟨?_, hworks hpod⟩
  have hkeys := related_eq_false.mp hpod
  by_contra hassociated
  rw [Bool.not_eq_false] at hassociated
  rcases exists_relation_of_associatedPod hassociated with hlabel | ⟨job, hjob, hkey⟩
  · exact hkeys _ (List.mem_append_left _ (by simp)) hlabel
  · -- the Job is one of those that were looked up
    obtain ⟨hmem, hlabel⟩ := mem_of_maintenanceJobs hjobs job hjob
    have hselected := List.mem_filter.mpr ⟨hmem, Bool.of_not_eq_false fun h => hlabelled h hlabel⟩
    have hofJob (key : String) (h : key ∈ ["owner/" ++ getUID job, "job/" ++ getName job]) :=
      hkeys key (List.mem_append_right _ (List.mem_flatMap.mpr ⟨job, hselected, h⟩))
    rcases hkey with howner | hname
    · exact hofJob _ (by simp) howner
    · exact hofJob _ (by simp) hname

end

/-- The index as the informer keeps it. -/
def MaintenanceIndex.ofObjects (objects : Resource → List Json)
    (hnames : ∀ r, ((objects r).map getName).Nodup)
    (hns : ∀ r, ∀ v ∈ objects r, getNamespace v = veleroNamespace) : MaintenanceIndex where
  objects := objects
  names_nodup := hnames
  ns := hns
  byIndex r key := (objects r).filter fun v => key ∈ maintenanceRelations v (r = .jobs)
  mem_byIndex r key v := by simp

def labelledJob : Json :=
  .obj [("metadata", .obj [("labels", .obj [(repoNameLabel, .str "retired")]), ("name", .str "job"),
    ("namespace", .str veleroNamespace)])]

def labelledIndex : MaintenanceIndex :=
  .ofObjects (fun r => if r = .jobs then [labelledJob] else [])
    (fun r => by split_ifs <;> simp)
    (fun r v hv => by
      split_ifs at hv
      · rw [List.mem_singleton.mp hv]
        decide
      · cases hv)

/-- A Job that only its label ties to the repository is found. -/
theorem maintenance_cachedMaintenance_labelled : ∃ pods,
    result (labelledIndex.answers (replyFrom fun _ => []))
      (cachedMaintenance exampleLibraries .jobs retiredVolume "retired" []) = .ok [labelledJob] ∧
    maintenance exampleLibraries
        ((Observations.set { now := 0 } .jobs [labelledJob]).set .pods pods) retiredSpec =
      maintenance exampleLibraries ((Observations.set { now := 0 } .jobs [labelledJob]).set .pods [])
        retiredSpec := by
  obtain ⟨jobs, pods, hjobs, -, hsame⟩ := maintenance_cachedMaintenance labelledIndex
    (replyFrom fun _ => []) exampleLibraries { now := 0 } retiredSpec
  have hfound : result (labelledIndex.answers (replyFrom fun _ => []))
      (cachedMaintenance exampleLibraries .jobs retiredVolume "retired" []) = .ok [labelledJob] := by
    decide +kernel
  obtain rfl : jobs = [labelledJob] := Except.ok.inj (hjobs.symm.trans hfound)
  exact ⟨pods, hfound, hsame⟩

end AroHcp.RepositoryCleanup
