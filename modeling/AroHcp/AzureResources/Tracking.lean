import AroHcp.AzureResources.ChildCleanup
import AroHcp.Lib.GoStrings
import AroHcp.Lib.Trace

/-! The managed resource group is tracked: whatever creates it finds a reference stored, and the
ServiceProviderCluster is deleted only when the group is gone. -/

namespace AroHcp.AzureResources

open DocStore GoFmt Operations Program Relation

/-! ## The system -/

structure System where
  store : Store Doc
  /-- the resource groups of the subscription -/
  groups : String → Option ResourceGroup
  /-- those of them that the controller has created -/
  ours : List String
  /-- for each `CreateOrUpdate`, whether a reference was stored -/
  creations : List Bool
  /-- for each deletion of the ServiceProviderCluster, the groups of the controller at that moment -/
  removals : List (List String)

def System.empty : System := ⟨Store.empty, fun _ => none, [], [], []⟩

def tracked (s : System) : Bool :=
  (s.store.current .serviceProviderCluster).any (·.doc.hasReference)

def live (s : System) : Bool :=
  (s.store.current .cluster).any (·.doc.deletionTimestamp.isNone)

def isServiceProviderCluster (id : ChildID) : Bool :=
  toLower id.resourceType = toLower serviceProviderClusterResourceType

/-- A write with another ETag than the current one is refused; what is accepted may be reported as
failed. A resource group that exists is never created again. -/
def sem : Semantics System Call Call.Reply
  | .cachedCluster, s, r, s' => s.store.CacheRead .cluster r ∧ s' = s
  | .cachedServiceProviderCluster, s, r, s' => s.store.CacheRead .serviceProviderCluster r ∧ s' = s
  | .getCluster, s, r, s' => s.store.LiveRead .cluster r ∧ s' = s
  | .getServiceProviderCluster, s, r, s' => s.store.LiveRead .serviceProviderCluster r ∧ s' = s
  | .replaceServiceProviderCluster etag doc, s, r, s' =>
    (∃ store, s.store.replace .serviceProviderCluster etag doc = some store ∧
      (∀ v, r = .replaced v → store.current .serviceProviderCluster = some v) ∧
      r ≠ .preconditionFailed ∧ s' = { s with store }) ∨
    (r = .preconditionFailed →
      ∃ v, s.store.current .serviceProviderCluster = some v ∧ v.etag ≠ etag) ∧
      (∀ v, r ≠ .replaced v) ∧ s' = s
  | .getResourceGroup name, s, r, s' => (∀ o, r = .ok o → s.groups name = o) ∧ s' = s
  | .createOrUpdate name group, s, r, s' =>
    (∃ created, s.groups name = none ∧ created.managedBy = group.managedBy ∧
      (∀ g, r = .ok g → g = created) ∧
      s' = { s with
        groups := Function.update s.groups name (some created)
        ours := name :: s.ours
        creations := tracked s :: s.creations }) ∨
    (∀ g, r = .ok g → s.groups name = some g) ∧ s' = { s with creations := tracked s :: s.creations }
  | .beginDelete name, s, r, s' => (r = .ok false → s.groups name = none) ∧ s' = s
  -- the type of a document is that of its resource ID
  | .listChildren, s, r, s' =>
    (∀ children ending, r = .ok (children, ending) → ∀ child ∈ children, ∀ id,
      child.resourceID = some id → child.resourceType = id.resourceType) ∧ s' = s
  | .deleteChild id, s, _, s' =>
    (isServiceProviderCluster id = true ∧
      (∃ v, s.store.current .serviceProviderCluster = some v) ∧
      s' = { s with
        store := s.store.remove .serviceProviderCluster
        removals := s.ours :: s.removals }) ∨ s' = s
  | _, s, _, s' => s' = s

/-- What others do: the cluster is created once, keeps the name of its managed resource group and
the mark of its deletion; the writers of the ServiceProviderCluster leave the references to the
controller; resource groups come and go, and none changes its owner. -/
inductive Others (managedResourceGroup : String) : System → System → Prop
  | createCluster (s : System) (cluster : Cluster) (hnew : ∀ v, ¬s.store.Past .cluster v)
      (hname : cluster.managedResourceGroup = managedResourceGroup) :
      Others managedResourceGroup s { s with store := s.store.put .cluster cluster }
  | updateCluster (s : System) (v : Versioned Cluster) (cluster : Cluster)
      (hcurrent : s.store.current .cluster = some v)
      (hname : cluster.managedResourceGroup = managedResourceGroup)
      (hmark : v.doc.deletionTimestamp.isSome → cluster.deletionTimestamp.isSome) :
      Others managedResourceGroup s { s with store := s.store.put .cluster cluster }
  | deleteCluster (s : System) :
      Others managedResourceGroup s { s with store := s.store.remove .cluster }
  | createServiceProviderCluster (s : System)
      (hnone : s.store.current .serviceProviderCluster = none) :
      Others managedResourceGroup s { s with store := s.store.put .serviceProviderCluster {} }
  | updateServiceProviderCluster (s : System) (v : Versioned ServiceProviderCluster)
      (doc : ServiceProviderCluster) (hcurrent : s.store.current .serviceProviderCluster = some v)
      (hreference : doc.managedResourceGroup = v.doc.managedResourceGroup) :
      Others managedResourceGroup s { s with store := s.store.put .serviceProviderCluster doc }
  | createGroup (s : System) (name : String) (group : ResourceGroup) (hnone : s.groups name = none) :
      Others managedResourceGroup s
        { s with groups := Function.update s.groups name (some group) }
  | updateGroup (s : System) (name : String) (group updated : ResourceGroup)
      (hgroup : s.groups name = some group) (howner : updated.managedBy = group.managedBy) :
      Others managedResourceGroup s
        { s with groups := Function.update s.groups name (some updated) }
  | deleteGroup (s : System) (name : String) :
      Others managedResourceGroup s { s with
        groups := Function.update s.groups name none
        ours := s.ours.filter (· ≠ name) }

inductive Task where
  | managedResourceGroup
  | childCleanup

def program (site : Site) : Task → Prog (Option String)
  | .managedResourceGroup => managedResourceGroupSyncOnce site
  | .childCleanup => childCleanupSyncOnce

/-! ## What the runs have to meet -/

def intentKept : Call → System → Bool
  | .replaceServiceProviderCluster etag doc, s =>
    doc.managedResourceGroup.pendingAzureResource.isNone ||
      (s.store.current .serviceProviderCluster).all fun v => v.etag = etag || v.doc.hasReference
  | _, _ => true

/-- `CreateOrUpdate` is called only while the stored cluster is not being deleted. -/
def createsLive : Call → System → Bool
  | .createOrUpdate _ _, s => live s
  | _, _ => true

/-! ## The invariant -/

def Marked (s : System) : Prop :=
  ∃ v, s.store.Past .cluster v ∧ v.doc.deletionTimestamp.isSome

def AzureReference.Has (reference : AzureReference) (id : ResourceID) : Prop :=
  reference.pendingAzureResource = some id ∨ reference.azureResource = some id

structure Inv (site : Site) (managedResourceGroup : String) (s : System) : Prop where
  named : ∀ v, s.store.Past .cluster v → v.doc.managedResourceGroup = managedResourceGroup
  marked : Marked s → live s = false
  referenced : ∀ v id, s.store.Past .serviceProviderCluster v → v.doc.managedResourceGroup.Has id →
    toResourceGroupResourceID site managedResourceGroup = .ok id
  known : ∀ v, s.store.Past .serviceProviderCluster v → v.doc.hasReference = true →
    ∃ u, s.store.Past .cluster u
  kept : live s = true → ∀ v, s.store.Past .serviceProviderCluster v → v.doc.hasReference = true →
    tracked s = true
  reflected : s.ours ≠ [] → tracked s = true
  present : ∀ name ∈ s.ours,
    (∃ id, toResourceGroupResourceID site managedResourceGroup = .ok id ∧ id.name = name) ∧
      ∃ group, s.groups name = some group ∧ group.managedBy = some site.clusterID.text
  creations : ∀ e ∈ s.creations, e = true
  removals : ∀ e ∈ s.removals, e = []

/-- What is never undone. -/
structure Later (s s' : System) : Prop where
  past : ∀ k v, s.store.Past k v → s'.store.Past k v
  quiet : Marked s → s.ours = [] → s'.ours = []

section

variable {site : Site} {mrg : String} {s s' s'' : System}

theorem Marked.later (h : Marked s) (hlater : Later s s') : Marked s' := by
  obtain ⟨v, hv, hmark⟩ := h
  exact ⟨v, hlater.past .cluster v hv, hmark⟩

theorem Later.refl (s : System) : Later s s :=
  ⟨fun _ _ h => h, fun _ h => h⟩

theorem Later.trans (h : Later s s') (h' : Later s' s'') : Later s s'' where
  past k v hv := h'.past k v (h.past k v hv)
  quiet hmarked hours := h'.quiet (hmarked.later h) (h.quiet hmarked hours)

instance : Std.Refl Later := ⟨Later.refl⟩

instance : IsTrans System Later := ⟨fun _ _ _ => Later.trans⟩

theorem Inv.empty : Inv site mrg System.empty where
  named _ hv := by cases hv
  marked := by
    rintro ⟨v, hv, -⟩
    cases hv
  referenced _ _ hv := by cases hv
  known _ hv := by cases hv
  kept _ _ hv := by cases hv
  reflected h := absurd rfl h
  present _ h := by cases h
  creations _ h := by cases h
  removals _ h := by cases h

/-- If the one group that the controller creates is not there, it has created none that is. -/
theorem Inv.ours_eq_nil (h : Inv site mrg s) {id : ResourceID}
    (hid : toResourceGroupResourceID site mrg = .ok id) (hname : id.name ∉ s.ours) :
    s.ours = [] := by
  rw [List.eq_nil_iff_forall_not_mem]
  intro name hmem
  obtain ⟨⟨id', hid', rfl⟩, -⟩ := h.present name hmem
  cases hid.symm.trans hid'
  exact hname hmem

theorem ownedByAnotherCluster_self (site : Site) :
    ownedByAnotherCluster site (some site.clusterID.text) = false := by
  obtain ⟨id, hparse, heq⟩ := site.clusterID_parses
  unfold ownedByAnotherCluster
  dsimp only
  split_ifs
  · rfl
  · rw [hparse]
    simpa using heq

/-! ## Changes of the documents -/

theorem later_put (s : System) (k : Key) (doc : Doc k) :
    Later s { s with store := s.store.put k doc } :=
  ⟨fun _ _ hv => hv.put k doc, fun _ hours => hours⟩

@[simp] theorem live_putCluster (s : System) (cluster : Cluster) :
    live { s with store := s.store.put .cluster cluster } = cluster.deletionTimestamp.isNone := by
  simp [live]

@[simp] theorem tracked_putServiceProviderCluster (s : System) (doc : ServiceProviderCluster) :
    tracked { s with store := s.store.put .serviceProviderCluster doc } = doc.hasReference := by
  simp [tracked]

section

variable (h : Inv site mrg s)

include h

/-- A cluster that is not being deleted is a new one, or the stored one was not being deleted. -/
theorem Inv.putCluster {cluster : Cluster}
    (hname : cluster.managedResourceGroup = mrg)
    (hmark : cluster.deletionTimestamp = none →
      live s = true ∨ ∀ v, ¬s.store.Past .cluster v) :
    Inv site mrg { s with store := s.store.put .cluster cluster } := by
  refine ⟨?_, ?_, ?_, ?_, ?_, h.reflected, h.present, h.creations, h.removals⟩
  · intro v hv
    rcases Store.past_put hv with hold | hnew
    · exact h.named v hold
    · cases hnew
      exact hname
  · rintro ⟨v, hv, hmarked⟩
    rw [live_putCluster, Option.isNone_eq_false_iff]
    rcases Store.past_put hv with hold | hnew
    · by_contra hnone
      rw [Option.not_isSome_iff_eq_none] at hnone
      rcases hmark hnone with hlive | hnew
      · rw [h.marked ⟨v, hold, hmarked⟩] at hlive
        cases hlive
      · exact hnew v hold
    · cases hnew
      exact hmarked
  · intro v id hv
    exact h.referenced v id (Store.past_put_of_ne (by simp) hv)
  · intro v hv hreference
    obtain ⟨u, hu⟩ := h.known v (Store.past_put_of_ne (by simp) hv) hreference
    exact ⟨u, hu.put .cluster cluster⟩
  · intro hlive v hv hreference
    rw [live_putCluster, Option.isNone_iff_eq_none] at hlive
    have hpast := Store.past_put_of_ne (by simp) hv
    rcases hmark hlive with hold | hnew
    · exact h.kept hold v hpast hreference
    · obtain ⟨u, hu⟩ := h.known v hpast hreference
      exact absurd hu (hnew u)

/-- A document without a reference is stored only when no group of the controller is there, and,
while the cluster is not being deleted, only if there never was a reference. -/
theorem Inv.putServiceProviderCluster {doc : ServiceProviderCluster}
    (hid : ∀ id, doc.managedResourceGroup.Has id →
      toResourceGroupResourceID site mrg = .ok id)
    (hknown : doc.hasReference = true → ∃ u, s.store.Past .cluster u)
    (hclear : doc.hasReference = false → s.ours = [] ∧ (live s = true →
      ∀ v, s.store.Past .serviceProviderCluster v → v.doc.hasReference = false)) :
    Inv site mrg { s with store := s.store.put .serviceProviderCluster doc } := by
  refine ⟨?_, ?_, ?_, ?_, ?_, ?_, h.present, h.creations, h.removals⟩
  · intro v hv
    exact h.named v (Store.past_put_of_ne (by simp) hv)
  · rintro ⟨v, hv, hmarked⟩
    exact h.marked ⟨v, Store.past_put_of_ne (by simp) hv, hmarked⟩
  · intro v id hv hhas
    rcases Store.past_put hv with hold | hnew
    · exact h.referenced v id hold hhas
    · cases hnew
      exact hid id hhas
  · intro v hv hreference
    have hfound : ∃ u, s.store.Past .cluster u := by
      rcases Store.past_put hv with hold | hnew
      · exact h.known v hold hreference
      · cases hnew
        exact hknown hreference
    obtain ⟨u, hu⟩ := hfound
    exact ⟨u, hu.put .serviceProviderCluster doc⟩
  · intro hlive v hv hreference
    rw [tracked_putServiceProviderCluster]
    by_contra hnone
    rw [Bool.not_eq_true] at hnone
    have hlive' : live s = true := hlive
    rcases Store.past_put hv with hold | hnew
    · rw [(hclear hnone).2 hlive' v hold] at hreference
      cases hreference
    · cases hnew
      rw [hnone] at hreference
      cases hreference
  · intro hours
    by_contra hnone
    rw [Bool.not_eq_true] at hnone
    exact hours (hclear hnone).1

/-- The ServiceProviderCluster of a cluster that is being deleted may go when the group is gone. -/
theorem Inv.removeServiceProviderCluster {removals : List (List String)} (hmarked : Marked s)
    (hours : s.ours = []) (hremovals : ∀ e ∈ removals, e = []) :
    Inv site mrg
      { s with store := s.store.remove .serviceProviderCluster, removals } := by
  refine ⟨h.named, h.marked, h.referenced, h.known, ?_, ?_, h.present, h.creations, hremovals⟩
  · intro hlive
    have hlive' : live s = true := hlive
    rw [h.marked hmarked] at hlive'
    cases hlive'
  · intro hne
    exact absurd hours hne

/-- Other resource groups do not matter, and those of the controller may go. -/
theorem Inv.setGroups {groups : String → Option ResourceGroup} {ours : List String}
    (hsub : ∀ name ∈ ours, name ∈ s.ours)
    (hgroups : ∀ name ∈ ours, ∀ group, s.groups name = some group →
      ∃ group', groups name = some group' ∧ group'.managedBy = group.managedBy) :
    Inv site mrg { s with groups, ours } := by
  refine ⟨h.named, h.marked, h.referenced, h.known, h.kept, ?_, ?_, h.creations, h.removals⟩
  · intro hne
    apply h.reflected
    intro hnil
    rw [hnil] at hsub
    exact hne (List.eq_nil_of_subset_nil hsub)
  · intro name hname
    obtain ⟨hid, group, hgroup, howner⟩ := h.present name (hsub name hname)
    obtain ⟨group', hgroup', heq⟩ := hgroups name hname group hgroup
    exact ⟨hid, group', hgroup', heq.trans howner⟩

end

theorem later_setGroups {groups : String → Option ResourceGroup} {ours : List String}
    (hsub : ∀ name ∈ ours, name ∈ s.ours) : Later s { s with groups, ours } := by
  refine ⟨fun _ _ hv => hv, ?_⟩
  intro _ hnil
  rw [hnil] at hsub
  exact List.eq_nil_of_subset_nil hsub

theorem update_managedBy {groups : String → Option ResourceGroup} {name : String}
    {updated : ResourceGroup}
    (h : ∀ group, groups name = some group → updated.managedBy = group.managedBy) (name' : String)
    (group : ResourceGroup) (hgroup : groups name' = some group) :
    ∃ group', Function.update groups name (some updated) name' = some group' ∧
      group'.managedBy = group.managedBy := by
  by_cases hname : name' = name
  · subst hname
    exact ⟨updated, Function.update_self .., h group hgroup⟩
  · exact ⟨group, (Function.update_of_ne hname ..).trans hgroup, rfl⟩

/-- Where no reference is stored, the controller has no group, and a cluster that is not being
deleted never had a reference. -/
theorem Inv.untracked (h : Inv site mrg s) (huntracked : tracked s = false) :
    s.ours = [] ∧ (live s = true →
      ∀ v, s.store.Past .serviceProviderCluster v → v.doc.hasReference = false) := by
  constructor
  · by_contra hne
    rw [h.reflected hne] at huntracked
    cases huntracked
  · intro hlive v hv
    by_contra hreference
    rw [Bool.not_eq_false] at hreference
    rw [h.kept hlive v hv hreference] at huntracked
    cases huntracked

theorem Inv.others (h : Inv site mrg s) (hstep : Others mrg s s') :
    Inv site mrg s' ∧ Later s s' := by
  cases hstep with
  | createCluster cluster hnew hname =>
    exact ⟨h.putCluster hname fun _ => .inr hnew, later_put s .cluster cluster⟩
  | updateCluster v cluster hcurrent hname hmark =>
    refine ⟨h.putCluster hname fun hnone => .inl ?_, later_put s .cluster cluster⟩
    unfold live
    rw [hcurrent, Option.any_some]
    by_contra hsome
    rw [Bool.not_eq_true, Option.isNone_eq_false_iff] at hsome
    have hmarked := hmark hsome
    rw [hnone] at hmarked
    cases hmarked
  | deleteCluster =>
    refine ⟨⟨h.named, ?_, h.referenced, h.known, ?_, h.reflected, h.present, h.creations,
      h.removals⟩, fun _ _ hv => hv, fun _ hours => hours⟩
    · intro _
      simp [live]
    · intro hlive
      simp [live] at hlive
  | createServiceProviderCluster hnone =>
    refine ⟨h.putServiceProviderCluster ?_ ?_ ?_, later_put s .serviceProviderCluster _⟩
    · rintro id (hhas | hhas)
      · cases hhas
      · cases hhas
    · intro hreference
      cases hreference
    · intro _
      exact h.untracked (by simp [tracked, hnone])
  | updateServiceProviderCluster v doc hcurrent hreference =>
    have hpast := s.store.current_mem .serviceProviderCluster v hcurrent
    have hsame : doc.hasReference = v.doc.hasReference := by
      unfold ServiceProviderCluster.hasReference
      rw [hreference]
    have htracked : tracked s = v.doc.hasReference := by
      simp [tracked, hcurrent]
    refine ⟨h.putServiceProviderCluster ?_ ?_ ?_, later_put s .serviceProviderCluster _⟩
    · rw [hreference]
      exact fun id => h.referenced v id hpast
    · rw [hsame]
      exact h.known v hpast
    · rw [hsame, ← htracked]
      exact h.untracked
  | createGroup name group hnone =>
    have hsub : ∀ name ∈ s.ours, name ∈ s.ours := fun _ hname => hname
    refine ⟨h.setGroups hsub fun name' _ => update_managedBy ?_ name', later_setGroups hsub⟩
    intro group' hgroup'
    rw [hnone] at hgroup'
    cases hgroup'
  | updateGroup name group updated hgroup howner =>
    have hsub : ∀ name ∈ s.ours, name ∈ s.ours := fun _ hname => hname
    refine ⟨h.setGroups hsub fun name' _ => update_managedBy ?_ name', later_setGroups hsub⟩
    intro group' hgroup'
    cases hgroup.symm.trans hgroup'
    exact howner
  | deleteGroup name =>
    have hsub : ∀ name' ∈ s.ours.filter (· ≠ name), name' ∈ s.ours :=
      fun _ hname => (List.mem_filter.mp hname).1
    refine ⟨h.setGroups hsub ?_, later_setGroups hsub⟩
    intro name' hname' group hgroup
    have hne : name' ≠ name := by simpa using (List.mem_filter.mp hname').2
    exact ⟨group, (Function.update_of_ne hne ..).trans hgroup, rfl⟩

end

/-! ## The calls -/

section Calls

variable {site : Site} {mrg : String} {s s' : System} {β : Type}
  {Q : β → System → Prop}

/-- Both conditions on the runs. -/
def prompt (c : Call) (s : System) : Prop :=
  intentKept c s = true ∧ createsLive c s = true

variable (site mrg) in
/-- The program keeps the invariant and what is never undone, and ends as `Q` says. -/
abbrev safe (p : Prog β) (Q : β → System → Prop) (s : System) : Prop :=
  wp sem prompt (Inv site mrg) Later p Q s

/-- The program changes nothing. -/
abbrev Reads (p : Prog β) : Prop :=
  Only (fun c => ∀ s r s', sem c s r s' → s' = s) p

theorem safe_reads {γ : Type} {p : Prog γ} {f : γ → Prog β} (hp : Reads p)
    (hinv : Inv site mrg s)
    (h : ∀ b s', Later s s' → Inv site mrg s' →
      safe site mrg (f b) Q s') :
    safe site mrg (p >>= f) Q s := by
  refine wp_seq hinv (hp.keeps ?_ hinv) fun b s' _ => h b s'
  intro c s r s' hread hsem hinv
  rw [hread s r s' hsem]
  exact ⟨hinv, Later.refl s⟩

/-- A reference has been stored at some time. -/
def Intended (s : System) : Prop :=
  ∃ v, s.store.Past .serviceProviderCluster v ∧ v.doc.hasReference = true

theorem ServiceProviderCluster.hasReference_of_pending {doc : ServiceProviderCluster}
    (h : doc.managedResourceGroup.pendingAzureResource.isSome = true) : doc.hasReference = true := by
  unfold ServiceProviderCluster.hasReference
  rw [h, Bool.true_or]

theorem Intended.later (h : Intended s) (hlater : Later s s') : Intended s' := by
  obtain ⟨v, hv, hreference⟩ := h
  exact ⟨v, hlater.past .serviceProviderCluster v hv, hreference⟩

/-- Whoever writes the intent finds a reference stored from then on, whether the write is accepted
or refused. -/
theorem safe_replace {v : Versioned ServiceProviderCluster} {doc : ServiceProviderCluster}
    {f : ReplaceReply → Prog β} (hinv : Inv site mrg s)
    (hpast : s.store.Past .serviceProviderCluster v)
    (hid : ∀ id, doc.managedResourceGroup.Has id →
      toResourceGroupResourceID site mrg = .ok id)
    (hknown : ∃ u, s.store.Past .cluster u)
    (hclear : doc.hasReference = false → Marked s ∧ s.ours = [])
    (h : ∀ r s', Later s s' → Inv site mrg s' →
      (∀ w, r = .replaced w → s'.store.Past .serviceProviderCluster w ∧ w.doc = doc) →
      (r = .preconditionFailed → doc.managedResourceGroup.pendingAzureResource.isSome →
        Intended s') → safe site mrg (f r) Q s') :
    safe site mrg
      (perform (Call.replaceServiceProviderCluster v.etag doc) >>= f) Q s := by
  refine wp_perform_bind ?_
  rintro r s' (⟨store, hreplace, hreply, hreply', rfl⟩ | ⟨hrefused, hreply, rfl⟩) ⟨hintent, -⟩
  · obtain ⟨-, rfl⟩ := hpast.replace_eq_some hreplace
    have hput := hinv.putServiceProviderCluster hid (fun _ => hknown) (by
      intro hnone
      refine ⟨(hclear hnone).2, fun hlive => ?_⟩
      rw [hinv.marked (hclear hnone).1] at hlive
      cases hlive)
    have hlater := later_put s .serviceProviderCluster doc
    refine ⟨⟨hput, hlater⟩, ?_⟩
    intro s'' hlater' hinv''
    refine h r s'' (hlater.trans hlater') hinv'' ?_ fun heq => absurd heq hreply'
    intro w hw
    have hcurrent := hreply w hw
    rw [Store.put_current_self, Option.some.injEq] at hcurrent
    subst hcurrent
    exact ⟨hlater'.past .serviceProviderCluster _ (Store.put_past ..), rfl⟩
  · refine ⟨⟨hinv, Later.refl s'⟩, ?_⟩
    intro s'' hlater hinv''
    refine h r s'' hlater hinv'' (fun w hw => absurd hw (hreply w)) ?_
    intro hr hpending
    obtain ⟨w, hw, hne⟩ := hrefused hr
    refine Intended.later ⟨w, s'.store.current_mem .serviceProviderCluster w hw, ?_⟩ hlater
    dsimp only [intentKept] at hintent
    rw [hw, Option.all_some, Bool.or_eq_true, Option.isNone_iff_eq_none, Bool.or_eq_true] at hintent
    rcases hintent with hnone | hetag | hreference
    · rw [hnone] at hpending
      cases hpending
    · exact absurd (of_decide_eq_true hetag) hne
    · exact hreference

/-- The group is created for a cluster that is not being deleted, so that a reference that was
stored once is still there. -/
theorem safe_createOrUpdate {id : ResourceID} {cluster : Cluster}
    {f : Except String ResourceGroup → Prog β} (hinv : Inv site mrg s)
    (hid : toResourceGroupResourceID site mrg = .ok id) (hintended : Intended s)
    (h : ∀ r s', Later s s' → Inv site mrg s' →
      safe site mrg (f r) Q s') :
    safe site mrg (perform (Call.createOrUpdate id.name
      (buildDesiredManagedResourceGroup site cluster id.name)) >>= f) Q s := by
  refine wp_perform_bind ?_
  rintro r s' hsem ⟨-, hlive⟩
  have hlive' : live s = true := hlive
  have htracked : tracked s = true := by
    obtain ⟨v, hv, hreference⟩ := hintended
    exact hinv.kept hlive' v hv hreference
  have hunmarked : ¬Marked s := by
    intro hmarked
    rw [hinv.marked hmarked] at hlive'
    cases hlive'
  have hcreations : ∀ e ∈ tracked s :: s.creations, e = true :=
    List.forall_mem_cons.mpr ⟨htracked, hinv.creations⟩
  rcases hsem with ⟨created, -, howner, -, rfl⟩ | ⟨-, rfl⟩
  · have hlater : Later s { s with
        groups := Function.update s.groups id.name (some created)
        ours := id.name :: s.ours
        creations := tracked s :: s.creations } :=
      ⟨fun _ _ hv => hv, fun hmarked => absurd hmarked hunmarked⟩
    refine ⟨⟨⟨hinv.named, hinv.marked, hinv.referenced, hinv.known, hinv.kept, fun _ => htracked, ?_,
      hcreations, hinv.removals⟩, hlater⟩, fun s'' hlater' => h r s'' (hlater.trans hlater')⟩
    intro name hname
    by_cases heq : name = id.name
    · subst heq
      exact ⟨⟨id, hid, rfl⟩, created, Function.update_self .., howner⟩
    · obtain ⟨hfound, group, hgroup, hmanaged⟩ :=
        hinv.present name ((List.mem_cons.mp hname).resolve_left heq)
      exact ⟨hfound, group, (Function.update_of_ne heq ..).trans hgroup, hmanaged⟩
  · have hlater : Later s { s with creations := tracked s :: s.creations } :=
      ⟨fun _ _ hv => hv, fun _ hours => hours⟩
    exact ⟨⟨⟨hinv.named, hinv.marked, hinv.referenced, hinv.known, hinv.kept, hinv.reflected,
      hinv.present, hcreations, hinv.removals⟩, hlater⟩,
      fun s'' hlater' => h r s'' (hlater.trans hlater')⟩

/-- A child is deleted, the ServiceProviderCluster only when nothing of the controller is left. -/
theorem safe_deleteChild {id : ChildID} {f : Option String → Prog β}
    (hinv : Inv site mrg s)
    (hgone : isServiceProviderCluster id = true → Marked s ∧ s.ours = [])
    (h : ∀ r s', Later s s' → Inv site mrg s' →
      safe site mrg (f r) Q s') :
    safe site mrg (perform (Call.deleteChild id) >>= f) Q s := by
  refine wp_perform_bind ?_
  rintro r s' (⟨hspc, -, rfl⟩ | rfl) -
  · obtain ⟨hmarked, hours⟩ := hgone hspc
    have hremovals : ∀ e ∈ s.ours :: s.removals, e = [] :=
      List.forall_mem_cons.mpr ⟨hours, hinv.removals⟩
    have hlater : Later s { s with
        store := s.store.remove .serviceProviderCluster, removals := s.ours :: s.removals } :=
      ⟨fun _ _ hv => hv, fun _ hours => hours⟩
    exact ⟨⟨hinv.removeServiceProviderCluster hmarked hours hremovals, hlater⟩,
      fun s'' hlater' => h r s'' (hlater.trans hlater')⟩
  · exact ⟨⟨hinv, Later.refl s'⟩, fun s'' hlater => h r s'' hlater⟩

end Calls

/-! ## The controller of the managed resource group -/

section Controller

variable {site : Site} {mrg : String} {s s' : System}

theorem reads_resourceGroupsClient (site : Site) : Reads (resourceGroupsClient site) := by
  refine only_perform_bind (fun _ _ _ hsem => hsem) ?_
  rintro (err | subscription)
  · exact only_ret _
  dsimp only
  cases subscription.tenantId with
  | none => exact only_ret _
  | some tenantID =>
    refine only_perform_bind (fun _ _ _ hsem => hsem) ?_
    rintro (_ | err) <;> exact only_ret _

section

variable {existing : Versioned ServiceProviderCluster} (hinv : Inv site mrg s)
  (hpast : s.store.Past .serviceProviderCluster existing)

include hinv hpast

section

variable (hknown : ∃ u, s.store.Past .cluster u)

include hknown

/-- The reply is a version of the ServiceProviderCluster. -/
theorem persistIfChanged_safe {replacement : ServiceProviderCluster}
    (hid : ∀ id, replacement.managedResourceGroup.Has id →
      toResourceGroupResourceID site mrg = .ok id)
    (hclear : replacement.hasReference = false → Marked s ∧ s.ours = []) :
    safe site mrg (persistIfChanged existing replacement)
      (fun r s' => ∀ v, r = .ok v → s'.store.Past .serviceProviderCluster v ∧
        (replacement.managedResourceGroup.pendingAzureResource.isSome → Intended s')) s := by
  unfold persistIfChanged
  split_ifs with heq
  · rintro v hv
    cases hv
    refine ⟨hpast, fun hpending => ⟨existing, hpast, ?_⟩⟩
    rw [← heq] at hpending
    exact ServiceProviderCluster.hasReference_of_pending hpending
  · refine safe_replace hinv hpast hid hknown hclear ?_
    intro r s' hlater hinv' hreplaced hrefused
    cases r with
    | replaced updated =>
      obtain ⟨hupdated, rfl⟩ := hreplaced updated rfl
      rintro v hv
      cases hv
      exact ⟨hupdated, fun hpending =>
        ⟨updated, hupdated, ServiceProviderCluster.hasReference_of_pending hpending⟩⟩
    | preconditionFailed =>
      rintro v hv
      cases hv
      exact ⟨hlater.past .serviceProviderCluster existing hpast, hrefused rfl⟩
    | failed err =>
      rintro v hv
      cases hv

theorem persistReference_safe {reference : AzureReference}
    (hid : ∀ id, reference.Has id → toResourceGroupResourceID site mrg = .ok id)
    (hclear : reference.azureResource = none → Marked s ∧ s.ours = []) :
    safe site mrg (persistReference existing reference) (fun _ _ => True) s := by
  refine wp_bind (wp_mono ?_ (persistIfChanged_safe hinv hpast hknown hid ?_))
  · intro r s' _
    cases r <;> trivial
  · intro hnone
    apply hclear
    unfold ServiceProviderCluster.hasReference at hnone
    rw [Bool.or_eq_false_iff, Option.isSome_eq_false_iff, Option.isSome_eq_false_iff,
      Option.isNone_iff_eq_none, Option.isNone_iff_eq_none] at hnone
    exact hnone.2

variable {id : ResourceID} (hid : toResourceGroupResourceID site mrg = .ok id)

include hid

theorem confirmManagedResourceGroup_safe {group : ResourceGroup} :
    safe site mrg (confirmManagedResourceGroup site existing id group)
      (fun _ _ => True) s := by
  unfold confirmManagedResourceGroup
  split
  · trivial
  · trivial
  · refine persistReference_safe hinv hpast hknown ?_ ?_
    · rintro id' (hnone | hsome)
      · cases hnone
      · cases hsome
        exact hid
    · intro hnone
      cases hnone

/-- Once the intent has been stored the group may be created. -/
theorem ensureManagedResourceGroup_safe {cluster : Cluster} (hintended : Intended s) :
    safe site mrg (ensureManagedResourceGroup site cluster existing id)
      (fun _ _ => True) s := by
  have hconfirm {s' : System} {group : ResourceGroup} (hinv' : Inv site mrg s')
      (hlater : Later s s') : safe site mrg
        (confirmManagedResourceGroup site existing id group) (fun _ _ => True) s' := by
    obtain ⟨u, hu⟩ := hknown
    exact confirmManagedResourceGroup_safe hinv'
      (hlater.past .serviceProviderCluster existing hpast) ⟨u, hlater.past .cluster u hu⟩ hid
  refine safe_reads (reads_resourceGroupsClient site) hinv ?_
  rintro (_ | err) s1 hlater1 hinv1
  · refine wp_read_bind hinv1 (fun _ _ hsem => hsem.2) ?_
    intro r s2 _ hlater2 hinv2
    rcases r with err | (_ | group)
    · trivial
    · refine safe_createOrUpdate hinv2 hid (hintended.later (hlater1.trans hlater2)) ?_
      intro r s3 hlater3 hinv3
      cases r with
      | error err => trivial
      | ok created => exact hconfirm hinv3 ((hlater1.trans hlater2).trans hlater3)
    · exact hconfirm hinv2 (hlater1.trans hlater2)
  · trivial

end

variable {cluster : Versioned Cluster} (hcluster : s.store.Past .cluster cluster)

include hcluster

theorem reconcileManagedResourceGroup_safe :
    safe site mrg (reconcileManagedResourceGroup site cluster.doc existing)
      (fun _ _ => True) s := by
  unfold reconcileManagedResourceGroup
  rw [hinv.named cluster hcluster]
  split
  · trivial
  · cases hid : toResourceGroupResourceID site mrg with
    | error err => trivial
    | ok id =>
      split_ifs with hpending
      · exact ensureManagedResourceGroup_safe hinv hpast ⟨cluster, hcluster⟩ hid
          ⟨existing, hpast, ServiceProviderCluster.hasReference_of_pending hpending⟩
      · refine wp_seq hinv (persistIfChanged_safe hinv hpast ⟨cluster, hcluster⟩ ?_ ?_) ?_
        rotate_left 2
        · rintro (err | persisted) s' hreply hlater hinv'
          · trivial
          · obtain ⟨hpersisted, hintended⟩ := hreply persisted rfl
            exact ensureManagedResourceGroup_safe hinv' hpersisted
              ⟨cluster, hlater.past .cluster cluster hcluster⟩ hid (hintended rfl)
        · rintro id' (hnew | hold)
          · cases hnew
            exact hid
          · exact hinv.referenced existing id' hpast (.inr hold)
        · intro hnone
          cases hnone

/-- The references are cleared when the one group that they name is gone or is not the cluster's. -/
theorem deleteManagedResourceGroup_safe (hmark : cluster.doc.deletionTimestamp.isSome) :
    safe site mrg (deleteManagedResourceGroup site cluster.doc existing)
      (fun _ _ => True) s := by
  have hclear {s' : System} (hinv' : Inv site mrg s') (hlater : Later s s')
      (hours : s'.ours = []) : safe site mrg
        (clearManagedResourceGroupReferences existing) (fun _ _ => True) s' := by
    have hcluster' := hlater.past .cluster cluster hcluster
    refine persistReference_safe hinv' (hlater.past .serviceProviderCluster existing hpast)
      ⟨cluster, hcluster'⟩ ?_ fun _ => ⟨⟨cluster, hcluster', hmark⟩, hours⟩
    rintro id' (hnone | hnone)
    · cases hnone
    · cases hnone
  refine safe_reads (reads_resourceGroupsClient site) hinv ?_
  rintro (_ | err) s1 hlater1 hinv1
  swap
  · trivial
  cases hreference : existing.doc.managedResourceGroup.azureResource <|>
      existing.doc.managedResourceGroup.pendingAzureResource with
  | none => trivial
  | some id =>
    have hid : toResourceGroupResourceID site mrg = .ok id := by
      apply hinv.referenced existing id hpast
      cases hazure : existing.doc.managedResourceGroup.azureResource with
      | none =>
        rw [hazure] at hreference
        exact .inl hreference
      | some azure =>
        rw [hazure] at hreference
        cases hreference
        exact .inr hazure
    -- a group that is not there, or belongs to another, is none of the controller's
    have hquiet {s' : System} (hinv' : Inv site mrg s')
        (hgroup : ∀ group, s'.groups id.name = some group →
          ownedByAnotherCluster site group.managedBy = true) : s'.ours = [] := by
      apply hinv'.ours_eq_nil hid
      intro hmem
      obtain ⟨-, group, hfound, howner⟩ := hinv'.present id.name hmem
      have hother := hgroup group hfound
      rw [howner, ownedByAnotherCluster_self] at hother
      cases hother
    have hmarked {s' : System} (hlater : Later s s') : Marked s' :=
      ⟨cluster, hlater.past .cluster cluster hcluster, hmark⟩
    refine wp_read_bind hinv1 (fun _ _ hsem => hsem.2) ?_
    intro r s2 hsem hlater2 hinv2
    have hlater := hlater1.trans hlater2
    rcases r with err | (_ | group)
    · trivial
    · refine hclear hinv2 hlater (hlater2.quiet (hmarked hlater1) (hquiet hinv1 ?_))
      intro group hgroup
      rw [hsem.1 none rfl] at hgroup
      cases hgroup
    · dsimp only
      split_ifs with hother
      · refine hclear hinv2 hlater (hlater2.quiet (hmarked hlater1) (hquiet hinv1 ?_))
        intro group' hgroup'
        rw [hsem.1 (some group) rfl] at hgroup'
        cases hgroup'
        exact hother
      · cases group.provisioningState with
        | none => trivial
        | some state =>
          dsimp only
          split_ifs
          · refine wp_read_bind hinv2 (fun _ _ hsem => hsem.2) ?_
            intro r s3 hsem' hlater3 hinv3
            rcases r with err | (_ | _)
            · trivial
            · refine hclear hinv3 (hlater.trans hlater3)
                (hlater3.quiet (hmarked hlater) (hquiet hinv2 ?_))
              intro group' hgroup'
              rw [hsem'.1 rfl] at hgroup'
              cases hgroup'
            · trivial
          · trivial

end

theorem managedResourceGroupSyncOnce_safe (hinv : Inv site mrg s) :
    safe site mrg (managedResourceGroupSyncOnce site) (fun _ _ => True) s := by
  refine wp_read_bind hinv (fun _ _ hsem => hsem.2) ?_
  intro r s1 hsem1 hlater1 hinv1
  rcases r with err | (_ | cluster)
  · trivial
  · trivial
  have hcluster := hlater1.past .cluster cluster (hsem1.1 cluster rfl)
  refine wp_read_bind hinv1 (fun _ _ hsem => hsem.2) ?_
  intro r s2 hsem2 hlater2 hinv2
  rcases r with err | (_ | existing)
  · trivial
  · trivial
  have hpast := hlater2.past .serviceProviderCluster existing (hsem2.1 existing rfl)
  have hcluster' := hlater2.past .cluster cluster hcluster
  dsimp only
  split_ifs with _ hmark
  · trivial
  · exact deleteManagedResourceGroup_safe hinv2 hpast hcluster' hmark
  · exact reconcileManagedResourceGroup_safe hinv2 hpast hcluster'

end Controller

/-! ## The cleanup -/

section Cleanup

variable {site : Site} {mrg : String} {s s' : System}

theorem reads_allDeleted (kinds : List ChildKind) : Reads (allDeleted kinds) := by
  induction kinds with
  | nil => exact only_ret _
  | cons kind kinds ih =>
    refine Only.bind ?_ ?_
    · refine only_perform_bind (fun _ _ _ hsem => hsem) ?_
      rintro (err | ⟨_ | ⟨item, items⟩, _ | err⟩) <;> exact only_ret _
    · rintro (err | (_ | _))
      · exact only_ret _
      · exact only_ret _
      · exact ih

theorem reads_desireShouldDelete (managementCluster : String) (resource : ChildResource)
    (id : ChildID) : Reads (desireShouldDelete managementCluster resource id) := by
  have hgate (kind : DesireKind) : Reads (desireGate kind managementCluster id) := by
    refine only_perform_bind (fun _ _ _ hsem => hsem) ?_
    rintro (err | (_ | owner))
    · exact only_ret _
    · exact only_ret _
    · dsimp only
      split_ifs <;> exact only_ret _
  unfold desireShouldDelete
  split_ifs
  · exact hgate .applyDesire
  · exact hgate .readDesire
  · exact only_ret _

theorem reads_deleteDesires (managementCluster : String) (resources : List ChildResource) :
    Reads (deleteDesires managementCluster resources) := by
  induction resources with
  | nil => exact only_ret _
  | cons resource rest ih =>
    unfold deleteDesires
    cases resource.resourceID with
    | none => exact only_ret _
    | some id =>
      refine Only.bind (reads_desireShouldDelete _ _ _) ?_
      rintro (err | (_ | _))
      · exact only_ret _
      · exact ih
      · refine only_perform_bind (fun _ _ _ hsem => hsem) ?_
        rintro (_ | err)
        · exact ih
        · exact only_ret _

theorem reads_ensureClusterScopedKubeApplierResourcesDeleted :
    Reads ensureClusterScopedKubeApplierResourcesDeleted := by
  refine only_perform_bind (fun _ _ _ hsem => hsem.2) ?_
  rintro (err | (_ | spc))
  · exact only_ret _
  · exact only_ret _
  dsimp only
  cases spc.doc.managementClusterResourceID with
  | none => exact only_ret _
  | some managementCluster =>
    refine only_perform_bind (fun _ _ _ hsem => hsem) ?_
    rintro (_ | _)
    · exact only_ret _
    refine only_perform_bind (fun _ _ _ hsem => hsem) ?_
    rintro (err | ⟨resources, ending⟩)
    · exact only_ret _
    refine Only.bind (reads_deleteDesires _ _) ?_
    rintro (_ | err) <;> exact only_ret _

section

variable (hinv : Inv site mrg s)

include hinv

/-- The gate opens only when nothing of the controller is left: what it has created is reflected in
the stored document. -/
theorem extraDeleteGateShouldDeleteServiceProviderCluster_safe {id : ChildID} (hmarked : Marked s) :
    safe site mrg (extraDeleteGateShouldDeleteServiceProviderCluster id)
      (fun r s' => r = .ok true → s'.ours = []) s := by
  unfold extraDeleteGateShouldDeleteServiceProviderCluster
  rcases id.parentName with _ | parent
  · nofun
  refine wp_read_bind hinv (fun _ _ hsem => hsem.2) ?_
  intro r s1 hsem hlater1 hinv1
  rcases r with err | (_ | spc)
  · nofun
  · nofun
  dsimp only
  split_ifs with hreference
  · nofun
  · nofun
  · nofun
  have hours : s.ours = [] := by
    by_contra hne
    have htracked := hinv.reflected hne
    unfold tracked at htracked
    rw [hsem.1 (some spc) rfl, Option.any_some] at htracked
    exact hreference htracked
  have hquiet {s' : System} (hlater : Later s s') : s'.ours = [] := hlater.quiet hmarked hours
  cases spc.doc.managementClusterResourceID with
  | none => exact fun _ => hquiet hlater1
  | some managementCluster =>
    refine wp_read_bind hinv1 (fun _ _ hsem => hsem) ?_
    intro r s2 _ hlater2 hinv2
    have hlater := hlater1.trans hlater2
    cases r with
    | false => exact fun _ => hquiet hlater
    | true =>
      refine wp_read_bind hinv2 (fun _ _ hsem => hsem) ?_
      intro r s3 _ hlater3 hinv3
      rcases r with err | ⟨_ | ⟨item, items⟩, _ | err⟩
      all_goals exact fun _ => hquiet (hlater.trans hlater3)

theorem childShouldDelete_safe {child : ChildResource} {id : ChildID} (hmarked : Marked s)
    (htype : child.resourceType = id.resourceType) :
    safe site mrg (childShouldDelete child id)
      (fun r s' => r = .ok true → isServiceProviderCluster id = true → s'.ours = []) s := by
  unfold childShouldDelete
  rw [htype]
  split_ifs with hspc
  · refine wp_mono ?_ (extraDeleteGateShouldDeleteServiceProviderCluster_safe hinv hmarked)
    exact fun r s' hours hr _ => hours hr
  · exact fun _ hid => absurd (of_decide_eq_true hid) hspc

theorem deleteChildren_safe {children : List ChildResource} (hmarked : Marked s)
    (htypes : ∀ child ∈ children, ∀ id, child.resourceID = some id →
      child.resourceType = id.resourceType) :
    safe site mrg (deleteChildren children) (fun _ _ => True) s := by
  induction children generalizing s with
  | nil => trivial
  | cons child rest ih =>
    have hrest {s' : System} (hinv' : Inv site mrg s') (hlater : Later s s') :
        safe site mrg (deleteChildren rest) (fun _ _ => True) s' :=
      ih hinv' (hmarked.later hlater) fun c hc => htypes c (List.mem_cons_of_mem _ hc)
    unfold deleteChildren
    rcases hid : child.resourceID with _ | id
    · trivial
    dsimp only
    split_ifs
    · exact hrest hinv (Later.refl s)
    refine wp_seq hinv
      (childShouldDelete_safe hinv hmarked (htypes child List.mem_cons_self id hid)) ?_
    rintro (err | (_ | _)) s1 hours hlater1 hinv1
    · trivial
    · exact hrest hinv1 hlater1
    · refine safe_deleteChild hinv1 (fun hspc => ⟨hmarked.later hlater1, hours rfl hspc⟩) ?_
      intro r s2 hlater2 hinv2
      cases r with
      | some err => trivial
      | none => exact hrest hinv2 (hlater1.trans hlater2)

theorem cleanupChildren_safe (hmarked : Marked s) :
    safe site mrg cleanupChildren (fun _ _ => True) s := by
  refine safe_reads (reads_allDeleted _) hinv ?_
  rintro (err | (_ | _)) s1 hlater1 hinv1
  · trivial
  · trivial
  refine safe_reads reads_ensureClusterScopedKubeApplierResourcesDeleted hinv1 ?_
  rintro (_ | err) s2 hlater2 hinv2
  swap
  · trivial
  refine wp_read_bind hinv2 (fun _ _ hsem => hsem.2) ?_
  intro r s3 hsem hlater3 hinv3
  rcases r with err | ⟨children, ending⟩
  · trivial
  have hmarked3 := hmarked.later ((hlater1.trans hlater2).trans hlater3)
  refine wp_bind (wp_mono ?_ (deleteChildren_safe hinv3 hmarked3 (hsem.1 children ending rfl)))
  rintro (_ | err) s4 -
  · trivial
  · trivial

theorem childCleanupSyncOnce_safe :
    safe site mrg childCleanupSyncOnce (fun _ _ => True) s := by
  refine wp_read_bind hinv (fun _ _ hsem => hsem.2) ?_
  intro r s1 hsem hlater1 hinv1
  rcases r with err | (_ | cachedCluster)
  · trivial
  · trivial
  dsimp only
  split_ifs with hcached
  · trivial
  have hmark : cachedCluster.doc.deletionTimestamp.isSome := by
    rw [Bool.not_eq_true', Bool.not_eq_false] at hcached
    unfold childCleanupNeedsWork at hcached
    rw [Bool.and_eq_true, Bool.and_eq_true] at hcached
    exact hcached.1.1
  have hmarked : Marked s1 :=
    ⟨cachedCluster, hlater1.past .cluster cachedCluster (hsem.1 cachedCluster rfl), hmark⟩
  refine wp_read_bind hinv1 (fun _ _ hsem => hsem.2) ?_
  intro r s2 _ hlater2 hinv2
  rcases r with err | (_ | cluster)
  · trivial
  · trivial
  dsimp only
  split_ifs
  · trivial
  · exact cleanupChildren_safe hinv2 (hmarked.later hlater2)

end

end Cleanup

/-! ## Every run -/

theorem program_safe {site : Site} {mrg : String} {s : System} (task : Task)
    (hinv : Inv site mrg s) :
    safe site mrg (program site task) (fun _ _ => True) s := by
  cases task with
  | managedResourceGroup => exact managedResourceGroupSyncOnce_safe hinv
  | childCleanup => exact childCleanupSyncOnce_safe hinv

/-- In every run in which a write of the intent is refused only if a reference is stored already,
and in which the group is created only while the stored cluster is not being deleted, every creation
finds a reference stored, and the ServiceProviderCluster is deleted only when no group of the
controller is left. -/
theorem managedResourceGroup_tracked (site : Site) (managedResourceGroup : String)
    {pool : Pool System Call Call.Reply (Option String)}
    (hrun : ReflTransGen (Step sem (program site) (Others managedResourceGroup) fun c s =>
      intentKept c s = true ∧ createsLive c s = true) ⟨System.empty, []⟩ pool) :
    (∀ e ∈ pool.state.creations, e = true) ∧ ∀ e ∈ pool.state.removals, e = [] := by
  have hstart : Ready sem prompt (Inv site managedResourceGroup) Later
      (⟨System.empty, []⟩ : Pool System Call Call.Reply (Option String)) := Ready.initial Inv.empty
  have hready := hstart.run
    (fun task _ hinv => program_safe task hinv) (fun _ _ hinv => hinv.others) hrun
  exact ⟨hready.1.1.creations, hready.1.1.removals⟩

/-! ## Runs of a small system -/

section Examples

/-- How a call of an execution is answered. -/
inductive Hint where
  | fresh
  /-- a cache that stands at this place of the history -/
  | stale (place : Nat)
  | children (l : List ChildResource)

/-- A refused write is reported as such, and what can succeed does. -/
def answer : (c : Call) → Hint → System → Option (c.Reply × System)
  | .cachedCluster, .fresh, s => some (.ok (s.store.current .cluster), s)
  | .cachedCluster, .stale place, s => some (.ok (s.store.versionAt .cluster place), s)
  | .cachedServiceProviderCluster, .fresh, s =>
    some (.ok (s.store.current .serviceProviderCluster), s)
  | .cachedServiceProviderCluster, .stale place, s =>
    some (.ok (s.store.versionAt .serviceProviderCluster place), s)
  | .getCluster, .fresh, s => some (.ok (s.store.current .cluster), s)
  | .getServiceProviderCluster, .fresh, s => some (.ok (s.store.current .serviceProviderCluster), s)
  | .replaceServiceProviderCluster etag doc, .fresh, s =>
    match s.store.current .serviceProviderCluster with
    | none => none
    | some v =>
      if v.etag = etag then
        some (.replaced ⟨s.store.nextETag, doc⟩,
          { s with store := s.store.put .serviceProviderCluster doc })
      else some (.preconditionFailed, s)
  | .subscription _, .fresh, s => some (.ok ⟨some "tenant"⟩, s)
  | .buildResourceGroupsClient _ _, .fresh, s => some (none, s)
  | .getResourceGroup name, .fresh, s => some (.ok (s.groups name), s)
  | .createOrUpdate name group, .fresh, s =>
    if (s.groups name).isNone then
      let created := { group with provisioningState := some "Succeeded" }
      some (.ok created, { s with
        groups := Function.update s.groups name (some created)
        ours := name :: s.ours
        creations := tracked s :: s.creations })
    else none
  | .list _, .fresh, s => some (.ok ([], none), s)
  | .listChildren, .children l, s =>
    if ∀ child ∈ l, ∀ id ∈ child.resourceID, child.resourceType = id.resourceType then
      some (.ok (l, none), s)
    else none
  | .deleteChild id, .fresh, s =>
    if isServiceProviderCluster id ∧ (s.store.current .serviceProviderCluster).isSome then
      some (none, { s with
        store := s.store.remove .serviceProviderCluster
        removals := s.ours :: s.removals })
    else none
  | _, _, _ => none

theorem sem_of_answer {c : Call} {hint : Hint} {s : System} {r : c.Reply} {s' : System}
    (h : answer c hint s = some (r, s')) : sem c s r s' := by
  cases c <;> cases hint <;> simp only [answer, reduceCtorEq] at h
  case cachedCluster.fresh | cachedServiceProviderCluster.fresh =>
    cases h
    exact ⟨s.store.cacheRead_current _, rfl⟩
  case cachedCluster.stale place | cachedServiceProviderCluster.stale place =>
    cases h
    exact ⟨s.store.cacheRead_versionAt _ place, rfl⟩
  case getCluster.fresh | getServiceProviderCluster.fresh =>
    cases h
    exact ⟨s.store.liveRead_current _, rfl⟩
  case replaceServiceProviderCluster.fresh etag doc =>
    split at h
    · cases h
    · rename_i v hcurrent
      split_ifs at h with hetag
      · cases h
        refine .inl ⟨s.store.put .serviceProviderCluster doc, ?_, ?_, by simp, rfl⟩
        · simp [Store.replace, hcurrent, hetag]
        · intro w hw
          cases hw
          exact Store.put_current_self ..
      · cases h
        exact .inr ⟨fun _ => ⟨v, hcurrent, hetag⟩, by simp, rfl⟩
  case getResourceGroup.fresh name =>
    cases h
    refine ⟨?_, rfl⟩
    intro o ho
    rwa [Except.ok.injEq] at ho
  case createOrUpdate.fresh name group =>
    split_ifs at h with hnone
    cases h
    refine .inl ⟨_, Option.isNone_iff_eq_none.mp hnone, ?_, ?_, rfl⟩
    · rfl
    · intro g hg
      cases hg
      rfl
  case listChildren.children l =>
    split_ifs at h with htypes
    cases h
    refine ⟨?_, rfl⟩
    intro children ending heq child hchild id hid
    cases heq
    exact htypes child hchild id hid
  case deleteChild.fresh id =>
    split_ifs at h with hspc
    cases h
    exact .inl ⟨hspc.1, Option.isSome_iff_exists.mp hspc.2, rfl⟩
  all_goals
    cases h
    rfl

def exampleSite : Site where
  clusterID := ⟨"/subscriptions/s/resourceGroups/rg/providers/Microsoft.RedHatOpenShift/" ++
    "hcpOpenShiftClusters/c", "s", "c"⟩
  parseResourceID text :=
    match GoStrings.split text '/' with
    | "" :: "subscriptions" :: subscription :: rest => .ok ⟨text, subscription, rest.getLastD ""⟩
    | _ => .error "invalid resource ID"
  clusterID_parses := ⟨_, rfl, rfl⟩

def exampleCluster : Cluster := { managedResourceGroup := "mrg" }

def deletedCluster : Cluster :=
  { exampleCluster with deletionTimestamp := some 1, clusterServiceDeletionTimestamp := some 2 }

/-- What the others do in an execution. -/
inductive Change where
  | createCluster
  | deleteCluster
  | createServiceProviderCluster
  | touchServiceProviderCluster
  | deleteGroup (name : String)

def change : Change → System → Option System
  | .createCluster, s =>
    if s.store.history = [] then some { s with store := s.store.put .cluster exampleCluster } else none
  | .deleteCluster, s =>
    if (s.store.current .cluster).isSome then
      some { s with store := s.store.put .cluster deletedCluster }
    else none
  | .createServiceProviderCluster, s =>
    if (s.store.current .serviceProviderCluster).isNone then
      some { s with store := s.store.put .serviceProviderCluster {} }
    else none
  | .touchServiceProviderCluster, s =>
    (s.store.current .serviceProviderCluster).map fun v =>
      { s with store := s.store.put .serviceProviderCluster v.doc }
  | .deleteGroup name, s =>
    some { s with
      groups := Function.update s.groups name none
      ours := s.ours.filter (· ≠ name) }

theorem others_of_change (e : Change) (s s' : System) (h : change e s = some s') :
    Others "mrg" s s' := by
  cases e <;> simp only [change] at h
  case createCluster =>
    split_ifs at h with hempty
    cases h
    refine .createCluster s exampleCluster ?_ rfl
    intro v hv
    unfold Store.Past at hv
    rw [hempty] at hv
    cases hv
  case deleteCluster =>
    split_ifs at h with hcluster
    cases h
    obtain ⟨v, hv⟩ := Option.isSome_iff_exists.mp hcluster
    exact .updateCluster s v deletedCluster hv rfl fun _ => rfl
  case createServiceProviderCluster =>
    split_ifs at h with hnone
    cases h
    exact .createServiceProviderCluster s (Option.isNone_iff_eq_none.mp hnone)
  case touchServiceProviderCluster =>
    obtain ⟨v, hv, rfl⟩ := Option.map_eq_some_iff.mp h
    exact .updateServiceProviderCluster s v v.doc hv rfl
  case deleteGroup name =>
    cases h
    exact .deleteGroup s name

abbrev ExampleRun (may : Call → System → Bool) (pool : Pool System Call Call.Reply (Option String)) :
    Prop :=
  ReflTransGen (Step sem (program exampleSite) (Others "mrg") fun c s => may c s = true)
    ⟨System.empty, []⟩ pool

abbrev ExampleTurn := Turn Task Hint Change

/-- The references at the moments of creation, and the groups at the moments of deletion. -/
def outcome (s : System) : List Bool × List (List String) :=
  (s.creations, s.removals)

theorem exists_run (may : Call → System → Bool) (turns : List ExampleTurn)
    (result : List Bool × List (List String))
    (h : (play answer (program exampleSite) may change ⟨System.empty, []⟩ turns).map
      (fun pool => outcome pool.state) = some result) :
    ∃ pool, ExampleRun may pool ∧ outcome pool.state = result := by
  have hanswer : ∀ c hint s r s', answer c hint s = some (r, s') → sem c s r s' :=
    fun _ _ _ _ _ h => sem_of_answer h
  exact exists_run_of_play outcome hanswer others_of_change h

def created : List ExampleTurn := [.env .createCluster, .env .createServiceProviderCluster]

def cleanup (place : Nat) : List ExampleTurn :=
  Turn.program place .childCleanup [.fresh, .fresh, .fresh, .fresh, .fresh, .fresh, .fresh,
    .children [⟨"x", some ⟨serviceProviderClusterResourceType, some "c", "default"⟩,
      serviceProviderClusterResourceType⟩], .fresh, .fresh]

/-- The group is created and confirmed; when it is gone after the deletion of the cluster, the
references are cleared and the ServiceProviderCluster is deleted. -/
theorem managedResourceGroup_tracked_deleted :
    ∃ pool, ExampleRun (fun c s => intentKept c s && createsLive c s) pool ∧
      outcome pool.state = ([true], [[]]) ∧
      (∀ e ∈ pool.state.creations, e = true) ∧ ∀ e ∈ pool.state.removals, e = [] := by
  obtain ⟨pool, hrun, hresult⟩ := exists_run (fun c s => intentKept c s && createsLive c s)
    (created ++ Turn.program 0 .managedResourceGroup (List.replicate 8 .fresh) ++
      [.env .deleteCluster, .env (.deleteGroup "mrg")] ++
      Turn.program 1 .managedResourceGroup (List.replicate 6 .fresh) ++ cleanup 2)
    ([true], [[]]) (by decide +kernel)
  refine ⟨pool, hrun, hresult, managedResourceGroup_tracked exampleSite "mrg" (run_mono ?_ hrun)⟩
  intro c s hmay
  exact Bool.and_eq_true_iff.mp hmay

/-- A run whose copy of the ServiceProviderCluster is old has its intent refused and creates the
group all the same: there is no reference, and the ServiceProviderCluster is deleted while the group
is there. And a run that observes the group as gone, while another still creates it for a cluster
that is being deleted by now, clears the reference of the other. -/
theorem managedResourceGroup_untracked :
    (∃ pool, ExampleRun createsLive pool ∧ outcome pool.state = ([false], [["mrg"]])) ∧
    ∃ pool, ExampleRun intentKept pool ∧ outcome pool.state = ([true], [["mrg"]]) := by
  constructor
  · exact exists_run createsLive
      (created ++ [.env .touchServiceProviderCluster] ++
        Turn.program 0 .managedResourceGroup (.fresh :: .stale 1 :: List.replicate 6 .fresh) ++
        [.env .deleteCluster] ++ cleanup 1) _ (by decide +kernel)
  · exact exists_run intentKept
      (created ++ Turn.program 0 .managedResourceGroup (List.replicate 6 .fresh) ++
        [.env .deleteCluster] ++ Turn.program 1 .managedResourceGroup (List.replicate 5 .fresh) ++
        [.call 0 .fresh, .call 1 .fresh, .call 0 .fresh] ++ cleanup 2) _ (by decide +kernel)

end Examples

end AroHcp.AzureResources
