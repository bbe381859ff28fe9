import AroHcp.RepositoryCleanup.Decision

/-! What a reconciliation has read when it sweeps a prefix or releases a repository. -/

namespace AroHcp.RepositoryCleanup

open Program Unstructured

variable {lib : Libraries} {k : Key} {o o' : Observations} {t : List (Sigma Call.Reply)}

/-! ## Observing only reads -/

abbrev OnlyReads {β : Type} (p : Prog β) : Prop := Only (fun c => c.isRead = true) p

theorem collectByIndex_reads (r : Resource) (keys : List String) (found : List Json) :
    OnlyReads (collectByIndex r keys found) := by
  induction keys generalizing found with
  | nil => exact only_ret _
  | cons key keys ih =>
    refine only_perform_bind rfl ?_
    intro objects
    cases objects with
    | error err => exact only_ret _
    | ok objects => exact ih _

theorem observeInventory_reads (r : Resource) : OnlyReads (observeInventory lib k o r) := by
  unfold observeInventory
  split
  · refine (collectByIndex_reads _ _ _).bind ?_
    intro found
    cases found <;> exact only_ret _
  · refine only_perform_bind rfl ?_
    intro inventory
    cases inventory <;> exact only_ret _

theorem observeInventories_reads (rs : List Resource) :
    OnlyReads (observeInventories lib k rs o) := by
  induction rs generalizing o with
  | nil => exact only_ret _
  | cons r rs ih =>
    refine (observeInventory_reads r).bind ?_
    intro items
    cases items with
    | error err => exact only_ret _
    | ok items => exact ih

theorem observeTargets_reads (obj : Json) : OnlyReads (observeTargets k o obj) := by
  unfold observeTargets
  dsimp only
  split_ifs
  · exact only_ret _
  · refine only_perform_bind rfl ?_
    intro found
    cases found <;> exact only_ret _
  · exact only_ret _
  · refine only_perform_bind rfl ?_
    intro found
    cases found <;> exact only_ret _

theorem observeLocations_reads : OnlyReads (observeLocations k o) := by
  unfold observeLocations
  split_ifs
  · refine only_perform_bind rfl ?_
    intro found
    cases found <;> exact only_ret _
  · exact only_ret _

theorem observeDependencies_reads : OnlyReads (observeDependencies lib k o) := by
  unfold observeDependencies
  dsimp only
  split_ifs
  · exact only_ret _
  · exact only_ret _
  · refine only_perform_bind rfl ?_
    intro inventory
    cases inventory with
    | error err => exact only_ret _
    | ok inventory =>
      dsimp only
      split_ifs
      · exact only_ret _
      · refine (observeInventories_reads _).bind ?_
        intro found
        cases found <;> exact only_ret _

theorem observe_reads : OnlyReads (observe lib k) := by
  refine only_perform_bind rfl fun now => ?_
  refine only_perform_bind rfl ?_
  intro obj
  match obj with
  | .error err => exact only_ret _
  | .ok none => exact only_ret _
  | .ok (some obj) =>
    refine (observeTargets_reads obj).bind ?_
    intro o
    cases o with
    | error err => exact only_ret _
    | ok o =>
      refine observeLocations_reads.bind ?_
      intro o
      cases o with
      | error err => exact only_ret _
      | ok o => exact observeDependencies_reads

theorem confirmHostedClusters_reads : OnlyReads (confirmHostedClusters k o) := by
  unfold confirmHostedClusters
  dsimp only
  split_ifs
  · exact only_ret _
  · refine only_perform_bind rfl ?_
    intro found
    cases found with
    | error err => exact only_ret _
    | ok found =>
      dsimp only
      split_ifs <;> exact only_ret _

theorem confirmLocation_reads : OnlyReads (confirmLocation o) := by
  unfold confirmLocation
  split
  · exact only_ret _
  · refine only_perform_bind rfl ?_
    intro found
    cases found <;> exact only_ret _

theorem confirmMaintenance_reads (r : Resource) : OnlyReads (confirmMaintenance lib o r) := by
  refine only_perform_bind rfl ?_
  intro found
  cases found with
  | error err => exact only_ret _
  | ok found =>
    dsimp only
    split_ifs <;> exact only_ret _

theorem confirm_reads : OnlyReads (confirm lib k) := by
  refine observe_reads.bind ?_
  intro o
  rcases o with _ | o
  · exact only_ret _
  dsimp only
  split
  · exact only_ret _
  · refine confirmHostedClusters_reads.bind ?_
    intro o
    cases o with
    | error err => exact only_ret _
    | ok o =>
      refine confirmLocation_reads.bind ?_
      intro o
      cases o with
      | error err => exact only_ret _
      | ok o =>
        dsimp only
        split
        · refine (confirmMaintenance_reads _).bind ?_
          intro o
          cases o with
          | error err => exact only_ret _
          | ok o => exact confirmMaintenance_reads _
        · exact only_ret _

/-! ## What an observation was read from -/

/-- The observed locations have different names. -/
def DistinctLocations (o : Observations) : Prop :=
  ((o.list .backupStorageLocations).map getName).Nodup

/-- What the later steps of an observation keep. The location of a repository may be read again. -/
structure Kept (o o' : Observations) : Prop where
  repository : o'.repository = o.repository
  cleanup : o'.cleanup = o.cleanup
  distinct : o.repository = none → DistinctLocations o → DistinctLocations o'

theorem Kept.refl (o : Observations) : Kept o o :=
  ⟨rfl, rfl, fun _ h => h⟩

theorem Kept.trans {o'' : Observations} (h : Kept o o') (h' : Kept o' o'') : Kept o o'' where
  repository := h'.repository.trans h.repository
  cleanup := h'.cleanup.trans h.cleanup
  distinct hnone hd := h'.distinct (h.repository.trans hnone) (h.distinct hnone hd)

theorem Kept.observedVolume (h : Kept o o') : observedVolume k o' = observedVolume k o := by
  unfold RepositoryCleanup.observedVolume
  rw [h.repository, h.cleanup]

@[simp] theorem list_set_of_ne (o : Observations) {r r' : Resource} (items : List Json)
    (h : r' ≠ r) : (o.set r items).list r' = o.list r' := by
  simp [Observations.set, Observations.list, h]

theorem kept_set_of_ne (o : Observations) {r : Resource} (items : List Json)
    (h : r ≠ .backupStorageLocations) : Kept o (o.set r items) := by
  refine ⟨rfl, rfl, fun _ hd => ?_⟩
  rwa [DistinctLocations, list_set_of_ne o items h.symm]

theorem kept_set_inventory (o : Observations) (r : Resource) (inventory : Inventory) :
    Kept o (o.set r inventory.items) := by
  by_cases h : r = .backupStorageLocations
  · refine ⟨rfl, rfl, fun _ _ => ?_⟩
    subst h
    exact inventory.nodup
  · exact kept_set_of_ne o inventory.items h

theorem observeInventory_kept {r : Resource} {items : List Json}
    (h : Ends (observeInventory lib k o r) t (.ok items)) : Kept o (o.set r items) := by
  unfold observeInventory at h
  split at h
  · rename_i hmaintenance
    refine kept_set_of_ne o items ?_
    rcases hmaintenance with rfl | rfl <;> decide
  · obtain ⟨inventory, rest, -, hrest⟩ := h.perform_bind_inv
    cases inventory with
    | error err =>
      cases hrest.eq_of_ret
    | ok inventory =>
      cases hrest.eq_of_ret
      exact kept_set_inventory o r inventory

theorem observeInventories_kept {rs : List Resource}
    (h : Ends (observeInventories lib k rs o) t (.ok o')) :
    Kept o o' ∧ o'.hostedClusters = o.hostedClusters := by
  induction rs generalizing o t with
  | nil =>
    cases h.eq_of_ret
    exact ⟨Kept.refl _, rfl⟩
  | cons r rs ih =>
    obtain ⟨first, second, items, -, hfirst, hsecond⟩ := h.bind_inv
    cases items with
    | error err =>
      cases hsecond.eq_of_ret
    | ok items =>
      obtain ⟨hkept, hhosted⟩ := ih hsecond
      exact ⟨(observeInventory_kept hfirst).trans hkept, hhosted⟩

/-- The cached HostedClusters that a complete observation holds. -/
theorem observeDependencies_ends (h : Ends (observeDependencies lib k o) t (.ok o'))
    (hbefore : o.dependenciesComplete = false) :
    Kept o o' ∧ (o'.dependenciesComplete = true →
      ∃ inventory : Inventory, ⟨Call.cached .hostedClusters
        (hostedClusterNamespace (observedVolume k o')), .ok inventory⟩ ∈ t ∧
        o'.hostedClusters = inventory.items) := by
  unfold observeDependencies at h
  dsimp only at h
  split_ifs at h with hobserve hns
  · cases h.eq_of_ret
    refine ⟨Kept.refl _, fun hcomplete => ?_⟩
    rw [hbefore] at hcomplete
    cases hcomplete
  · cases h.eq_of_ret
  obtain ⟨inventory, rest, rfl, hrest⟩ := h.perform_bind_inv
  cases inventory with
  | error err =>
    cases hrest.eq_of_ret
  | ok inventory =>
    dsimp only at hrest
    split_ifs at hrest with hobserve'
    · cases hrest.eq_of_ret
      refine ⟨⟨rfl, rfl, fun _ hd => hd⟩, fun hcomplete => ?_⟩
      rw [hbefore] at hcomplete
      cases hcomplete
    · obtain ⟨first, second, found, -, hfirst, hsecond⟩ := hrest.bind_inv
      cases found with
      | error err =>
        cases hsecond.eq_of_ret
      | ok found =>
        cases hsecond.eq_of_ret
        obtain ⟨hkept, hhosted⟩ := observeInventories_kept hfirst
        have hkept' : Kept o { found with dependenciesComplete := true } :=
          ⟨hkept.repository, hkept.cleanup, hkept.distinct⟩
        refine ⟨hkept', fun _ => ⟨inventory, ?_, hhosted⟩⟩
        rw [hkept'.observedVolume]
        exact List.mem_cons_self

/-- The key's object and the handoff records were read from the API server. -/
structure TargetsRead (k : Key) (t : List (Sigma Call.Reply)) (o : Observations) : Prop where
  ownRepository : k.resource = .backupRepositories → ∀ r, o.repository = some r →
    ⟨Call.get k.resource k.name, .ok (some r)⟩ ∈ t
  ownIntent : k.resource ≠ .backupRepositories → ∀ cleanup, o.cleanup = some cleanup →
    ⟨Call.get k.resource k.name, .ok (some cleanup)⟩ ∈ t
  intent : k.resource = .backupRepositories → ∀ r cleanup, o.repository = some r →
    o.cleanup = some cleanup →
    ⟨Call.get .backupRepositoryCleanups (cleanupName (getUID r)), .ok (some cleanup)⟩ ∈ t
  repository : k.resource ≠ .backupRepositories → ∀ cleanup, o.cleanup = some cleanup →
    stringOrEmpty cleanup ["spec", "repository", "name"] ≠ "" →
    ⟨Call.get .backupRepositories (stringOrEmpty cleanup ["spec", "repository", "name"]),
      .ok o.repository⟩ ∈ t

theorem TargetsRead.mono {t' : List (Sigma Call.Reply)} (h : TargetsRead k t o) (hkept : Kept o o')
    (ht : ∀ e ∈ t, e ∈ t') : TargetsRead k t' o' where
  ownRepository hk r hr := ht _ (h.ownRepository hk r (hkept.repository ▸ hr))
  ownIntent hk cleanup hc := ht _ (h.ownIntent hk cleanup (hkept.cleanup ▸ hc))
  intent hk r cleanup hr hc :=
    ht _ (h.intent hk r cleanup (hkept.repository ▸ hr) (hkept.cleanup ▸ hc))
  repository hk cleanup hc hname := by
    rw [hkept.repository]
    exact ht _ (h.repository hk cleanup (hkept.cleanup ▸ hc) hname)

theorem observeTargets_ends {obj : Json} (h : Ends (observeTargets k o obj) t (.ok o'))
    (hcleanup : o.cleanup = none) :
    TargetsRead k (⟨Call.get k.resource k.name, .ok (some obj)⟩ :: t) o' ∧
      o'.objects = o.objects ∧ o'.dependenciesComplete = o.dependenciesComplete := by
  unfold observeTargets at h
  dsimp only at h
  split_ifs at h with hk huid hname
  · cases h.eq_of_ret
    refine ⟨⟨?_, fun hne => absurd hk hne, ?_, fun hne => absurd hk hne⟩, rfl, rfl⟩
    · rintro _ r ⟨⟩
      exact List.mem_cons_self
    · intro _ r cleanup _ hc
      rw [hcleanup] at hc
      cases hc
  · obtain ⟨cleanup, rest, rfl, hrest⟩ := h.perform_bind_inv
    cases cleanup with
    | error err =>
      cases hrest.eq_of_ret
    | ok cleanup =>
      cases hrest.eq_of_ret
      refine ⟨⟨?_, fun hne => absurd hk hne, ?_, fun hne => absurd hk hne⟩, rfl, rfl⟩
      · rintro _ r ⟨⟩
        exact List.mem_cons_self
      · rintro _ r c ⟨⟩ hc
        dsimp only at hc
        rw [hc]
        exact List.mem_cons_of_mem _ List.mem_cons_self
  · cases h.eq_of_ret
    refine ⟨⟨fun heq => absurd heq hk, ?_, fun heq => absurd heq hk, ?_⟩, rfl, rfl⟩
    · rintro _ c ⟨⟩
      exact List.mem_cons_self
    · rintro _ c ⟨⟩ hne
      exact absurd hname hne
  · obtain ⟨repository, rest, rfl, hrest⟩ := h.perform_bind_inv
    cases repository with
    | error err =>
      cases hrest.eq_of_ret
    | ok repository =>
      cases hrest.eq_of_ret
      refine ⟨⟨fun heq => absurd heq hk, ?_, fun heq => absurd heq hk, ?_⟩, rfl, rfl⟩
      · rintro _ c ⟨⟩
        exact List.mem_cons_self
      · rintro _ c ⟨⟩ _
        exact List.mem_cons_of_mem _ List.mem_cons_self

theorem observeLocations_ends (h : Ends (observeLocations k o) t (.ok o')) :
    Kept o o' ∧ o'.dependenciesComplete = o.dependenciesComplete := by
  unfold observeLocations at h
  split_ifs at h
  · obtain ⟨inventory, rest, rfl, hrest⟩ := h.perform_bind_inv
    cases inventory with
    | error err =>
      cases hrest.eq_of_ret
    | ok inventory =>
      cases hrest.eq_of_ret
      exact ⟨kept_set_inventory o _ inventory, rfl⟩
  · cases h.eq_of_ret
    exact ⟨Kept.refl _, rfl⟩

/-- Everything that the trace of an observation says about its result. -/
structure Observed (k : Key) (t : List (Sigma Call.Reply)) (o : Observations) : Prop where
  targets : TargetsRead k t o
  distinct : o.repository = none → DistinctLocations o
  hostedClusters : o.dependenciesComplete = true → ∃ inventory : Inventory,
    ⟨Call.cached .hostedClusters (hostedClusterNamespace (observedVolume k o)), .ok inventory⟩ ∈ t ∧
      o.hostedClusters = inventory.items

theorem observe_ends (h : Ends (observe lib k) t (.ok o)) : Observed k t o := by
  obtain ⟨now, t1, rfl, h1⟩ := h.perform_bind_inv
  obtain ⟨obj, t2, rfl, h2⟩ := h1.perform_bind_inv
  match obj with
  | .error err =>
    cases h2.eq_of_ret
  | .ok none =>
    cases h2.eq_of_ret
    refine ⟨⟨?_, ?_, ?_, ?_⟩, fun _ => List.nodup_nil, ?_⟩
    · rintro _ r ⟨⟩
    · rintro _ cleanup ⟨⟩
    · rintro _ r cleanup ⟨⟩
    · rintro _ cleanup ⟨⟩
    · rintro ⟨⟩
  | .ok (some obj) =>
    obtain ⟨ta, t3, oa, rfl, ha, h3⟩ := h2.bind_inv
    cases oa with
    | error err =>
      cases h3.eq_of_ret
    | ok oa =>
      obtain ⟨tb, tc, ob, rfl, hb, hc⟩ := h3.bind_inv
      cases ob with
      | error err =>
        cases hc.eq_of_ret
      | ok ob =>
        obtain ⟨hread, hobjects, hcomplete⟩ := observeTargets_ends ha rfl
        obtain ⟨hkept, hcomplete'⟩ := observeLocations_ends hb
        obtain ⟨hkept', hhosted⟩ := observeDependencies_ends hc (hcomplete'.trans hcomplete)
        have hall := hkept.trans hkept'
        refine ⟨hread.mono hall ?_, ?_, ?_⟩
        · intro e he
          rcases List.mem_cons.mp he with rfl | hmem
          · simp
          · simp [hmem]
        · intro hnone
          refine hall.distinct (hall.repository ▸ hnone) ?_
          rw [DistinctLocations, Observations.list, hobjects]
          exact List.nodup_nil
        · intro hdone
          obtain ⟨inventory, hmem, heq⟩ := hhosted hdone
          exact ⟨inventory, by simp [hmem], heq⟩

/-! ## What a confirming observation was read from -/

theorem confirmHostedClusters_ends (h : Ends (confirmHostedClusters k o) t (.ok o')) :
    Kept o o' ∧ o'.dependenciesComplete = o.dependenciesComplete ∧
      (hostedClusterNamespace (observedVolume k o) ≠ "" →
        ⟨Call.listNamespace .hostedClusters (hostedClusterNamespace (observedVolume k o)),
          .ok (o'.hostedClusters, "")⟩ ∈ t) := by
  unfold confirmHostedClusters at h
  dsimp only at h
  split_ifs at h with hns
  · cases h.eq_of_ret
    exact ⟨Kept.refl _, rfl, fun hne => absurd hns hne⟩
  obtain ⟨found, rest, rfl, hrest⟩ := h.perform_bind_inv
  match found with
  | .error err =>
    cases hrest.eq_of_ret
  | .ok (items, more) =>
    dsimp only at hrest
    split_ifs at hrest with hmore
    · cases hrest.eq_of_ret
    · cases hrest.eq_of_ret
      obtain rfl := not_not.mp hmore
      exact ⟨⟨rfl, rfl, fun _ hd => hd⟩, rfl, fun _ => List.mem_cons_self⟩

theorem confirmLocation_ends (h : Ends (confirmLocation o) t (.ok o')) :
    Kept o o' ∧ o'.hostedClusters = o.hostedClusters := by
  unfold confirmLocation at h
  split at h
  · cases h.eq_of_ret
    exact ⟨Kept.refl _, rfl⟩
  rename_i repository hrepository
  obtain ⟨bsl, rest, rfl, hrest⟩ := h.perform_bind_inv
  cases bsl with
  | error err =>
    cases hrest.eq_of_ret
  | ok bsl =>
    cases hrest.eq_of_ret
    refine ⟨⟨rfl, rfl, fun hnone => ?_⟩, rfl⟩
    rw [hrepository] at hnone
    cases hnone

theorem confirmMaintenance_ends {r : Resource} (hr : r ≠ .backupStorageLocations)
    (h : Ends (confirmMaintenance lib o r) t (.ok o')) :
    Kept o o' ∧ o'.hostedClusters = o.hostedClusters := by
  obtain ⟨found, rest, rfl, hrest⟩ := h.perform_bind_inv
  match found with
  | .error err =>
    cases hrest.eq_of_ret
  | .ok (items, more) =>
    dsimp only at hrest
    split_ifs at hrest with hmore
    · cases hrest.eq_of_ret
    · cases hrest.eq_of_ret
      exact ⟨kept_set_of_ne o _ hr, rfl⟩

structure Confirmed (k : Key) (t : List (Sigma Call.Reply)) (o : Observations) : Prop where
  targets : TargetsRead k t o
  distinct : o.repository = none → DistinctLocations o
  hostedClusters : o.dependenciesComplete = true →
    hostedClusterNamespace (observedVolume k o) ≠ "" →
    ⟨Call.listNamespace .hostedClusters (hostedClusterNamespace (observedVolume k o)),
      .ok (o.hostedClusters, "")⟩ ∈ t

/-- What follows the list of HostedClusters keeps it and what was read before. -/
theorem Confirmed.of_kept {fresh : Observations} {t t' : List (Sigma Call.Reply)}
    (hobserved : Observed k t o) (ht : ∀ e ∈ t, e ∈ t') (hkept : Kept o fresh)
    (hhosted : hostedClusterNamespace (observedVolume k o) ≠ "" →
      ⟨Call.listNamespace .hostedClusters (hostedClusterNamespace (observedVolume k o)),
        .ok (fresh.hostedClusters, "")⟩ ∈ t') : Confirmed k t' fresh where
  targets := hobserved.targets.mono hkept ht
  distinct hnone := by
    have hnone' := hkept.repository ▸ hnone
    exact hkept.distinct hnone' (hobserved.distinct hnone')
  hostedClusters _ hne := by
    rw [hkept.observedVolume] at hne ⊢
    exact hhosted hne

theorem confirm_ends (h : Ends (confirm lib k) t (.ok o)) : Confirmed k t o := by
  obtain ⟨t1, t2, o1, rfl, h1, h2⟩ := h.bind_inv
  cases o1 with
  | error err =>
    cases h2.eq_of_ret
  | ok o1 =>
    have hobserved := observe_ends h1
    dsimp only at h2
    split at h2
    · rename_i hincomplete
      cases h2.eq_of_ret
      refine ⟨hobserved.targets.mono (Kept.refl _) ?_, hobserved.distinct, ?_⟩
      · intro e he
        simp [he]
      · intro hcomplete
        rw [hincomplete] at hcomplete
        cases hcomplete
    obtain ⟨t3, t4, o2, rfl, h3, h4⟩ := h2.bind_inv
    cases o2 with
    | error err =>
      cases h4.eq_of_ret
    | ok o2 =>
      obtain ⟨hkept2, -, hhosted2⟩ := confirmHostedClusters_ends h3
      obtain ⟨t5, t6, o3, rfl, h5, h6⟩ := h4.bind_inv
      cases o3 with
      | error err =>
        cases h6.eq_of_ret
      | ok o3 =>
        obtain ⟨hkept3, hhosted3⟩ := confirmLocation_ends h5
        -- what is left keeps the observation apart from the Jobs and Pods
        suffices hrest : Kept o3 o ∧ o.hostedClusters = o3.hostedClusters by
          refine .of_kept hobserved (by simp +contextual) ((hkept2.trans hkept3).trans hrest.1) ?_
          intro hne
          rw [hrest.2, hhosted3]
          simp [hhosted2 hne]
        dsimp only at h6
        split at h6
        · obtain ⟨t7, t8, o4, rfl, h7, h8⟩ := h6.bind_inv
          cases o4 with
          | error err =>
            cases h8.eq_of_ret
          | ok o4 =>
            obtain ⟨hkept4, hhosted4⟩ := confirmMaintenance_ends (by decide) h7
            obtain ⟨hkept5, hhosted5⟩ := confirmMaintenance_ends (by decide) h8
            exact ⟨hkept4.trans hkept5, hhosted5.trans hhosted4⟩
        · cases h6.eq_of_ret
          exact ⟨Kept.refl _, rfl⟩

/-! ## What is changed -/

theorem applyAll_only (applies : List Apply) :
    Only (fun c => ∃ a ∈ applies, c = Call.apply a) (applyAll applies) := by
  induction applies with
  | nil => exact only_ret _
  | cons a rest ih =>
    refine only_perform_bind ⟨a, List.mem_cons_self, rfl⟩ ?_
    intro r
    cases r with
    | some err => exact only_ret _
    | none =>
      intro t c h
      obtain ⟨b, hb, rfl⟩ := ih t c h
      exact ⟨b, List.mem_cons_of_mem _ hb, rfl⟩

theorem deleteAll_only (deletes : List Delete) :
    Only (fun c => ∃ d ∈ deletes, c = Call.delete d) (deleteAll deletes) := by
  induction deletes with
  | nil => exact only_ret _
  | cons d rest ih =>
    unfold deleteAll
    split_ifs
    · exact only_ret _
    refine only_perform_bind ⟨d, List.mem_cons_self, rfl⟩ ?_
    have hrest : Only (fun c => ∃ d' ∈ d :: rest, c = Call.delete d') (deleteAll rest) := by
      intro t c h
      obtain ⟨d', hd', rfl⟩ := ih t c h
      exact ⟨d', List.mem_cons_of_mem _ hd', rfl⟩
    intro r
    cases r with
    | failed err => exact only_ret _
    | ok => exact hrest
    | notFound => exact hrest

def writesIntents : Call → Prop
  | .apply a => a.resource = .backupRepositoryCleanups
  | c => c.isRead = true

theorem writesIntents_of_isRead {c : Call} (h : c.isRead = true) : writesIntents c := by
  cases c <;> first | exact h | cases h

theorem applyAll_writesIntents {applies : List Apply}
    (h : ∀ a ∈ applies, a.resource = .backupRepositoryCleanups) :
    Only writesIntents (applyAll applies) := by
  intro t c hreach
  obtain ⟨a, ha, rfl⟩ := applyAll_only applies t c hreach
  exact h a ha

theorem afterSweep_writesIntents (fresh : Observations) (target : Target) :
    Only writesIntents (afterSweep lib k fresh target) := by
  refine Only.bind (fun t c h => writesIntents_of_isRead (confirm_reads t c h)) ?_
  intro after
  cases after with
  | error err => exact only_ret _
  | ok after =>
    dsimp only
    split
    · split_ifs
      · exact only_ret _
      refine (applyAll_writesIntents ?_).bind ?_
      · intro a ha
        exact planCleanup_applies (List.mem_of_mem_filter ha)
      · intro r
        cases r <;> exact only_ret _
    · exact only_ret _

theorem plan_deletePrefix {target : Target} (h : (plan lib k o).deletePrefix = some target) :
    k.resource ≠ .backupRepositories ∧ ∃ cleanup spec, MaySweep lib o cleanup spec target := by
  unfold plan at h
  split_ifs at h with hk
  · rw [planRepository_deletePrefix] at h
    cases h
  · exact ⟨hk, planCleanup_deletePrefix h⟩

theorem plan_release {a : Apply} (ha : a ∈ (plan lib k o).applies)
    (hresource : a.resource = .backupRepositories) (hrelease : cleanupFinalizer ∉ a.finalizers) :
    k.resource = .backupRepositories ∧ ∃ r cleanup, HandedOver lib o r cleanup ∧
      a.name = getName r ∧ a.uid = getUID r := by
  unfold plan at ha
  split_ifs at ha with hk
  · exact ⟨hk, planRepository_release ha hresource hrelease⟩
  · rw [planCleanup_applies ha] at hresource
    cases hresource

theorem plan_status_applies {a : Apply} (ha : a ∈ (plan lib k o).applies)
    (hstatus : a.subresource = "status") : a.resource = .backupRepositoryCleanups := by
  unfold plan at ha
  split_ifs at ha
  · -- a plan for a repository holds no status writes
    unfold planRepository at ha
    split at ha
    · cases ha
    · have hsub := of_decide_eq_true (List.mem_filter.mp ha).2
      exact absurd (hstatus.symm.trans hsub) (by decide)
  · exact planCleanup_applies ha

/-- The two observations of a reconciliation that changes something other than an intent's status,
and their places in its trace. -/
structure Handled (lib : Libraries) (k : Key) (t t₁ t₃ : List (Sigma Call.Reply))
    (o fresh : Observations) : Prop where
  split : ∃ t₂ t₄, t = t₁ ++ (t₂ ++ (t₃ ++ t₄))
  observed : Ends (observe lib k) t₁ (.ok o)
  confirmed : Ends (confirm lib k) t₃ (.ok fresh)
  same : lifecycle (plan lib k o) = lifecycle (plan lib k fresh)

/-- A call that neither reads nor writes a status is made by the plan on which both observations
agree. -/
theorem reconcile_handled {c : Call} (hread : c.isRead = false)
    (hstatus : ∀ a, c = .apply a → a.resource ≠ .backupRepositoryCleanups)
    (h : Reaches (reconcile lib k) t c) :
    ∃ t1 t3 o fresh t4, Handled lib k t t1 t3 o fresh ∧
      Reaches (carryOut lib k fresh (lifecycle (plan lib k fresh))) t4 c := by
  have hnot : ¬c.isRead = true := by rw [hread]; exact Bool.false_ne_true
  obtain ⟨t1, rest, r, rfl, hobserve, h⟩ := observe_reads.reaches_bind hnot h
  rcases r with _ | o
  · exact absurd h not_reaches_ret
  have hwrites : Only writesIntents
      (applyAll ((plan lib k o).applies.filter (·.subresource = "status"))) := by
    refine applyAll_writesIntents ?_
    intro a ha
    obtain ⟨hmem, hsub⟩ := List.mem_filter.mp ha
    exact plan_status_applies hmem (of_decide_eq_true hsub)
  have hnot' : ¬writesIntents c := by
    intro hw
    cases c with
    | apply a => exact hstatus a rfl hw
    | _ => exact hnot hw
  obtain ⟨t2, rest', r, rfl, -, h⟩ := hwrites.reaches_bind hnot' h
  cases r with
  | some err => exact absurd h not_reaches_ret
  | none =>
    dsimp only at h
    unfold confirmAndCarryOut at h
    split at h
    · exact absurd h not_reaches_ret
    obtain ⟨t3, t4, r, rfl, hconfirm, h⟩ := confirm_reads.reaches_bind hnot h
    cases r with
    | error err => exact absurd h not_reaches_ret
    | ok fresh =>
      dsimp only at h
      split at h
      · exact absurd h not_reaches_ret
      rename_i hsame
      exact ⟨t1, t3, o, fresh, t4, ⟨⟨t2, t4, rfl⟩, hobserve, hconfirm, not_not.mp hsame⟩, h⟩

/-- A plan with a prefix is the only one that sweeps, and it sweeps that prefix. -/
theorem carryOut_deletePrefix {fresh : Observations} {p : Plan} {target : Target}
    (h : Reaches (carryOut lib k fresh p) t (.deletePrefix target)) :
    p.deletePrefix = some target := by
  rcases (applyAll_only p.applies).reaches_bind (by rintro ⟨a, -, ⟨⟩⟩) h with
    ⟨t1, t2, r, rfl, -, h⟩
  cases r with
  | some err => exact absurd h not_reaches_ret
  | none =>
    rcases (deleteAll_only p.deletes).reaches_bind (by rintro ⟨d, -, ⟨⟩⟩) h with
      ⟨t3, t4, r, rfl, -, h⟩
    cases r with
    | some err => exact absurd h not_reaches_ret
    | none =>
      dsimp only at h
      split at h
      · rename_i own hown
        rw [hown]
        rcases h.bind_inv with hfirst | ⟨t5, t6, r, rfl, -, h⟩
        · cases hfirst with
          | here => rfl
          | later _ _ r rest _ hrest => exact absurd hrest not_reaches_ret
        · cases r with
          | some err =>
            rcases (applyAll_only _).reaches_bind (by rintro ⟨a, -, ⟨⟩⟩) h with
              ⟨t7, t8, r, rfl, -, h⟩
            cases r <;> exact absurd h not_reaches_ret
          | none => exact absurd (afterSweep_writesIntents fresh own t6 _ h) Bool.false_ne_true
      · exact absurd h not_reaches_ret

theorem carryOut_apply {fresh : Observations} {p : Plan} {a : Apply}
    (hresource : a.resource ≠ .backupRepositoryCleanups)
    (h : Reaches (carryOut lib k fresh p) t (.apply a)) : a ∈ p.applies := by
  have hnot : ¬writesIntents (.apply a) := hresource
  rcases h.bind_inv with hfirst | ⟨t1, t2, r, rfl, -, h⟩
  · obtain ⟨b, hb, heq⟩ := applyAll_only p.applies t _ hfirst
    cases heq
    exact hb
  cases r with
  | some err => exact absurd h not_reaches_ret
  | none =>
    rcases (deleteAll_only p.deletes).reaches_bind (by rintro ⟨d, -, ⟨⟩⟩) h with
      ⟨t3, t4, r, rfl, -, h⟩
    cases r with
    | some err => exact absurd h not_reaches_ret
    | none =>
      dsimp only at h
      split at h
      · rename_i own hown
        rcases h.bind_inv with hfirst | ⟨t5, t6, r, rfl, -, h⟩
        · cases hfirst with
          | later _ _ r rest _ hrest => exact absurd hrest not_reaches_ret
        · cases r with
          | some err =>
            have hwrites : Only writesIntents (applyAll
                (blockedPlan lib fresh "SweepFailed" "Prefix sweep failed; retrying").applies) :=
              applyAll_writesIntents fun b hb => (blockedPlan_applies hb).1
            obtain ⟨t7, t8, r, rfl, -, h⟩ := hwrites.reaches_bind hnot h
            cases r <;> exact absurd h not_reaches_ret
          | none => exact absurd (afterSweep_writesIntents fresh own t6 _ h) hnot
      · exact absurd h not_reaches_ret

end AroHcp.RepositoryCleanup
