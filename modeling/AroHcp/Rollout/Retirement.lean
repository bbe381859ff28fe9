import AroHcp.Rollout.Assignment
import AroHcp.Rollout.References

/-! The retirement of rollouts below the supported versions. A rollout is deleted once no cluster
references it; the controllers that look up rollouts then never look for the deleted one. -/

namespace AroHcp.Rollout

open GoFmt SemVer Version

variable {V : Type} [SemVer V]

/-! ## Seeding -/

/-- The error of making sure that the rollout of the channel exists. -/
def ensureRollout (channel : String) (rollout : Read (ControlPlaneVersionRollout V))
    (create : WriteResult) : Option String :=
  match rollout with
  | .ok _ => none
  | .error (.failed e) => some s!"failed to get ControlPlaneVersionRollout {quote channel}: {e}"
  | .error .notFound =>
    match rolloutVersionFromName channel with
    | .error e => some e
    | .ok _ =>
      match create with
      | .stored => none
      | .conflict => none
      | .failed e => some s!"failed to create ControlPlaneVersionRollout {quote channel}: {e}"

/-- The channels whose rollout a sync makes sure of, in order, and the error it returns. -/
def seedingSyncOnce (view : ClusterView V) (create : String → WriteResult) :
    List String × Option String :=
  match view.cluster with
  | .error .notFound => ([], none)
  | .error (.failed e) => ([], some s!"failed to get Cluster: {e}")
  | .ok cluster =>
    if cluster.deletionTimestamp.isSome then ([], none)
    -- nightlies use experimental exact versions
    else if cluster.channelGroup = "nightly" then ([], none)
    else match clusterYStreamChannel cluster with
      | none => ([], none)
      | some requested =>
        match ensureRollout requested (view.rollout requested) (create requested) with
        | some e => ([requested], some e)
        | none =>
          match view.serviceProviderCluster with
          | .error .notFound => ([requested], none)
          | .error (.failed e) => ([requested], some s!"failed to get ServiceProviderCluster: {e}")
          | .ok spc =>
            match spc.pinnedVersion.exactVersion with
            | none => ([requested], none)
            | some pin =>
              let pinned := yStreamChannel cluster.channelGroup (minorString pin)
              ([requested, pinned], ensureRollout pinned (view.rollout pinned) (create pinned))

/-! ## Retirement -/

variable (V) in

structure RetirementRollout where
  version : VersionProfile
  referencingClusterCount : Option Int
  cosmosETag : String
deriving DecidableEq, Repr

variable (V) in

inductive DeleteResult where
  | deleted
  | notFound
  | preconditionFailed
  | failed (message : String)
deriving DecidableEq, Repr

variable (V) in

/-! ## Looking up a rollout -/

structure ViewOf (snapshot : Snapshot V) (key : String) (view : ClusterView V) : Prop where
  cluster : ∀ cluster, view.cluster = .ok cluster →
    clusterKey cluster = some key ∧ ∃ document ∈ snapshot.clusters, document.toCluster = cluster
  serviceProviderCluster : ∀ spc, view.serviceProviderCluster = .ok spc →
    parentKey spc = some key ∧ spc ∈ snapshot.serviceProviderClusters

/-- The same caches with another answer for the rollout of one channel. -/
def ClusterView.answering (view : ClusterView V) (channel : String)
    (answer : Read (ControlPlaneVersionRollout V)) : ClusterView V :=
  { view with rollout := Function.update view.rollout channel answer }

/-- No controller looks up the rollout and no cluster is a member of its channel: seeding does not
ensure it, and the assignments end the same whatever is stored for it. -/
structure Unneeded (snapshot : Snapshot V) (profile : VersionProfile) : Prop where
  seeding : ∀ {key view}, ViewOf snapshot key view → ∀ create,
    yStreamChannel profile.1 profile.2 ∉ (seedingSyncOnce view create).1
  initial : ∀ {key view}, ViewOf snapshot key view → ∀ answer now,
    initialSyncOnce (view.answering (yStreamChannel profile.1 profile.2) answer) now =
      initialSyncOnce view now
  minorUpgrade : ∀ {key view}, ViewOf snapshot key view → ∀ answer now,
    minorUpgradeSyncOnce (view.answering (yStreamChannel profile.1 profile.2) answer) now =
      minorUpgradeSyncOnce view now
  forced : ∀ {key view}, ViewOf snapshot key view → ∀ answer clusterName now,
    forcedSyncOnce clusterName (view.answering (yStreamChannel profile.1 profile.2) answer) now =
      forcedSyncOnce clusterName view now
  membership : ∀ members, filterServiceProviderClustersForChannel
    (snapshot.clusters.map (·.toCluster)) snapshot.serviceProviderClusters
      (yStreamChannel profile.1 profile.2) = .ok members → members = []

section Answering

variable (view : ClusterView V) (other : String) (answer : Read (ControlPlaneVersionRollout V))

omit [SemVer V]

@[simp]
theorem answering_cluster : (view.answering other answer).cluster = view.cluster := rfl

@[simp]
theorem answering_serviceProviderCluster :
    (view.answering other answer).serviceProviderCluster = view.serviceProviderCluster := rfl

theorem answering_rollout {channel : String} (h : channel ≠ other) :
    (view.answering other answer).rollout channel = view.rollout channel :=
  Function.update_of_ne h _ _

theorem requestedBest_answering {channel : String} (h : channel ≠ other) :
    requestedBest (view.answering other answer) channel = requestedBest view channel := by
  unfold requestedBest
  rw [answering_rollout view other answer h]

theorem clusterNodePools_answering (nodePools : List NodePool) :
    clusterNodePools (view.answering other answer) nodePools = clusterNodePools view nodePools := by
  induction nodePools with
  | nil => rfl
  | cons nodePool rest ih =>
    unfold clusterNodePools
    rw [ih]
    rfl

end Answering

section Lookups

variable {view : ClusterView V} {other : String}
  (answer : Read (ControlPlaneVersionRollout V)) (now : Time)

theorem validateNodePoolSkew_answering (target : V) :
    validateNodePoolSkew (view.answering other answer) target =
      validateNodePoolSkew view target := by
  unfold validateNodePoolSkew
  simp only [clusterNodePools_answering]
  rfl

theorem initialSyncOnce_answering
    (h : ∀ cluster, view.cluster = .ok cluster → clusterYStreamChannel cluster ≠ some other) :
    initialSyncOnce (view.answering other answer) now = initialSyncOnce view now := by
  unfold initialSyncOnce
  rw [answering_serviceProviderCluster, answering_cluster]
  cases hcluster : view.cluster with
  | error e => cases e <;> rfl
  | ok cluster =>
    dsimp only
    cases hchannel : clusterYStreamChannel cluster with
    | none => rfl
    | some channel =>
      have hne : channel ≠ other := fun heq => h cluster hcluster (heq ▸ hchannel)
      dsimp only
      rw [requestedBest_answering view other answer hne]

theorem minorUpgradeSyncOnce_answering
    (h : ∀ cluster, view.cluster = .ok cluster → clusterYStreamChannel cluster ≠ some other) :
    minorUpgradeSyncOnce (view.answering other answer) now = minorUpgradeSyncOnce view now := by
  unfold minorUpgradeSyncOnce
  rw [answering_serviceProviderCluster, answering_cluster]
  cases hcluster : view.cluster with
  | error e => cases e <;> rfl
  | ok cluster =>
    dsimp only
    cases hchannel : clusterYStreamChannel cluster with
    | none => rfl
    | some channel =>
      have hne : channel ≠ other := fun heq => h cluster hcluster (heq ▸ hchannel)
      simp only [requestedBest_answering view other answer hne, validateNodePoolSkew_answering]

theorem forcedSyncOnce_answering (clusterName : String)
    (h : ∀ cluster spc v, view.cluster = .ok cluster → view.serviceProviderCluster = .ok spc →
      versionForChannel cluster spc = some v →
        yStreamChannel cluster.channelGroup (minorString v) ≠ other) :
    forcedSyncOnce clusterName (view.answering other answer) now =
      forcedSyncOnce clusterName view now := by
  unfold forcedSyncOnce
  rw [answering_serviceProviderCluster, answering_cluster]
  cases hspc : view.serviceProviderCluster with
  | error e => cases e <;> rfl
  | ok spc =>
    cases hcluster : view.cluster with
    | error e => cases e <;> rfl
    | ok cluster =>
      have hbest : bestForChannel clusterName cluster (versionForChannel cluster spc)
          (view.answering other answer).rollout =
            bestForChannel clusterName cluster (versionForChannel cluster spc) view.rollout := by
        unfold bestForChannel
        cases hversion : versionForChannel cluster spc with
        | none => rfl
        | some v =>
          dsimp only
          rw [answering_rollout view other answer (h cluster spc v hcluster hspc hversion)]
      dsimp only
      rw [hbest]

theorem mem_seedingSyncOnce {create : String → WriteResult} {channel : String}
    (h : channel ∈ (seedingSyncOnce view create).1) :
    ∃ cluster, view.cluster = .ok cluster ∧ (clusterYStreamChannel cluster = some channel ∨
      ∃ spc pin, view.serviceProviderCluster = .ok spc ∧ spc.pinnedVersion.exactVersion = some pin ∧
        channel = yStreamChannel cluster.channelGroup (minorString pin)) := by
  unfold seedingSyncOnce at h
  cases hcluster : view.cluster with
  | error e => cases e <;> simp [hcluster] at h
  | ok cluster =>
    refine ⟨cluster, rfl, ?_⟩
    simp only [hcluster] at h
    split_ifs at h
    · simp at h
    · simp at h
    cases hrequested : clusterYStreamChannel cluster with
    | none => simp [hrequested] at h
    | some requested =>
      simp only [hrequested] at h
      cases hensured : ensureRollout requested (view.rollout requested) (create requested) with
      | some e => exact .inl (by simpa [hensured, eq_comm] using h)
      | none =>
        simp only [hensured] at h
        cases hspc : view.serviceProviderCluster with
        | error e =>
          cases e <;> exact .inl (by simpa [hspc, eq_comm] using h)
        | ok spc =>
          simp only [hspc] at h
          cases hpin : spc.pinnedVersion.exactVersion with
          | none => exact .inl (by simpa [hpin, eq_comm] using h)
          | some pin =>
            have hcases : channel = requested ∨
                channel = yStreamChannel cluster.channelGroup (minorString pin) := by
              simpa [hpin] using h
            exact hcases.imp (fun heq => by rw [heq]) fun heq => ⟨spc, pin, rfl, hpin, heq⟩

end Lookups

omit [SemVer V] in
theorem mem_namedVersions_of_versionForChannel {cluster : Cluster V}
    {spc : ServiceProviderCluster V} {v : V} (h : versionForChannel cluster spc = some v) :
    v ∈ namedVersions spc := by
  unfold versionForChannel at h
  cases hpin : spc.pinnedVersion.exactVersion with
  | some pin =>
    simp only [hpin] at h
    cases h
    simp [namedVersions, hpin]
  | none =>
    simp only [hpin] at h
    split_ifs at h
    simp [namedVersions, h]

theorem mem_namedVersions_of_clusterMinor {spc : ServiceProviderCluster V} {minor : String}
    (h : clusterMinor spc = some minor) : ∃ v ∈ namedVersions spc, minorString v = minor := by
  unfold clusterMinor at h
  rw [Option.map_eq_some_iff] at h
  obtain ⟨v, hv, rfl⟩ := h
  refine ⟨v, ?_, rfl⟩
  rw [Option.or_eq_some_iff] at hv
  rcases hv with hdesired | ⟨-, hactive⟩
  · simp [namedVersions, hdesired]
  · rw [Option.map_eq_some_iff] at hactive
    obtain ⟨entry, hentry, rfl⟩ := hactive
    obtain ⟨active, hmem, hactive⟩ := List.exists_of_findSome?_eq_some hentry
    split_ifs at hactive
    rw [Option.map_eq_some_iff] at hactive
    obtain ⟨version, hversion, rfl⟩ := hactive
    rw [List.mem_reverse] at hmem
    simp only [namedVersions, List.mem_filterMap, List.mem_append, List.mem_map]
    exact ⟨some version, .inr ⟨active, hmem, hversion⟩, rfl⟩

omit [SemVer V] in
theorem lookup_channelGroupByClusterID {clusters : List (Cluster V)} {key group : String}
    (h : (channelGroupByClusterID clusters).lookup key = some group) :
    ∃ cluster ∈ clusters, clusterKey cluster = some key ∧ cluster.channelGroup = group := by
  unfold channelGroupByClusterID at h
  suffices hor : (∅ : AList fun _ : String => String).lookup key = some group ∨ _ from
    hor.resolve_left (by simp)
  -- an entry is there from the start or comes from a cluster of the list
  generalize (∅ : AList fun _ : String => String) = seen at h ⊢
  induction clusters generalizing seen with
  | nil => exact .inl h
  | cons cluster rest ih =>
    rcases ih _ h with hhead | ⟨found, hfound, hgroup⟩
    · dsimp only at hhead
      split at hhead
      · rename_i id hid _
        by_cases hkey : key = toLower id
        · subst hkey
          rw [AList.lookup_insert, Option.some_inj] at hhead
          exact .inr ⟨cluster, List.mem_cons_self, clusterKey_eq_some.mpr ⟨id, hid, rfl⟩, hhead⟩
        · rw [AList.lookup_insert_ne hkey] at hhead
          exact .inl hhead
      · exact .inl hhead
    · exact .inr ⟨found, List.mem_cons_of_mem _ hfound, hgroup⟩

/-- A member of the channel of a rollout references the rollout. -/
theorem references_of_member {snapshot : Snapshot V} {profile : VersionProfile}
    {members : List (ServiceProviderCluster V)}
    (h : filterServiceProviderClustersForChannel (snapshot.clusters.map (·.toCluster))
      snapshot.serviceProviderClusters (yStreamChannel profile.1 profile.2) = .ok members)
    {spc : ServiceProviderCluster V} (hspc : spc ∈ members) :
    ∃ clusterID, References snapshot profile clusterID := by
  unfold filterServiceProviderClustersForChannel at h
  cases hname : rolloutVersionFromName (yStreamChannel profile.1 profile.2) with
  | error e => simp [hname] at h
  | ok found =>
    obtain rfl : found = profile := rolloutVersionFromName_yStreamChannel hname
    simp only [hname, Except.ok.injEq] at h
    rw [← h, List.mem_filter] at hspc
    simp only [Bool.and_eq_true, decide_eq_true_eq, Option.bind_eq_some_iff] at hspc
    obtain ⟨hlisted, hminor, clusterID, hparent, hgroup⟩ := hspc
    obtain ⟨v, hv, hminor⟩ := mem_namedVersions_of_clusterMinor hminor
    obtain ⟨cluster, hcluster, hkey, hgroup⟩ := lookup_channelGroupByClusterID hgroup
    rw [List.mem_map] at hcluster
    obtain ⟨document, hdocument, rfl⟩ := hcluster
    refine ⟨clusterID, document, hdocument, hkey, v, .inr ⟨spc, hlisted, hparent, hv⟩, ?_⟩
    rw [hgroup, hminor]
    exact hname

/-! ## A rollout without references is not looked up -/

section NoErrors

variable [ReadsText V] {snapshot : Snapshot V}
  (hok : (collectRolloutReferences snapshot.clusters snapshot.serviceProviderClusters).2 = [])

include hok

variable {profile : VersionProfile}

omit [ReadsText V] in
theorem references_of_requested {document : ClusterDocument V}
    (hdocument : document ∈ snapshot.clusters) {key : String}
    (hkey : clusterKey document.toCluster = some key)
    (hchannel : clusterYStreamChannel document.toCluster =
      some (yStreamChannel profile.1 profile.2)) :
    References snapshot profile key := by
  unfold clusterYStreamChannel at hchannel
  split_ifs at hchannel
  rw [Option.map_eq_some_iff] at hchannel
  obtain ⟨requested, hread, hchannel⟩ := hchannel
  obtain ⟨-, found, hfound⟩ := mem_versionUses_of_cluster hok hdocument hkey
    (List.mem_cons_self : document.versionID ∈ clusterTexts document)
  obtain ⟨read, hparse, hname⟩ := referencedProfile_eq_ok.mp hfound
  rw [ExceptLoop.toOption_eq_some] at hread
  obtain rfl : read = requested := Except.ok.inj (hparse.symm.trans hread)
  rw [hchannel] at hname
  refine ⟨document, hdocument, hkey, read, .inl ?_, ?_⟩
  · simp [clusterVersions, hparse, Except.toOption]
  · rw [hchannel, hname, rolloutVersionFromName_yStreamChannel hname]

theorem references_of_named {document : ClusterDocument V}
    (hdocument : document ∈ snapshot.clusters) {key : String}
    (hkey : clusterKey document.toCluster = some key) {spc : ServiceProviderCluster V}
    (hspc : spc ∈ snapshot.serviceProviderClusters) (hparent : parentKey spc = some key) {v : V}
    (hv : v ∈ namedVersions spc) (hchannel : yStreamChannel document.channelGroup (minorString v) =
      yStreamChannel profile.1 profile.2) :
    References snapshot profile key := by
  obtain ⟨-, found, hfound⟩ :=
    mem_versionUses_of_serviceProviderCluster hok hdocument hkey hspc hparent hv
  have hname := (referencedProfile_text ⟨found, hfound⟩).mp hfound
  refine ⟨document, hdocument, hkey, v, .inr ⟨spc, hspc, hparent, hv⟩, ?_⟩
  rw [hchannel] at hname ⊢
  rw [hname, rolloutVersionFromName_yStreamChannel hname]

omit [ReadsText V] in
theorem requested_ne {key : String} {view : ClusterView V} (hview : ViewOf snapshot key view)
    (hnone : ∀ clusterID, ¬ References snapshot profile clusterID) (cluster : Cluster V)
    (hcluster : view.cluster = .ok cluster) :
    clusterYStreamChannel cluster ≠ some (yStreamChannel profile.1 profile.2) := by
  obtain ⟨hkey, document, hdocument, rfl⟩ := hview.cluster cluster hcluster
  intro hchannel
  exact hnone key (references_of_requested hok hdocument hkey hchannel)

theorem named_ne {key : String} {view : ClusterView V} (hview : ViewOf snapshot key view)
    (hnone : ∀ clusterID, ¬ References snapshot profile clusterID) {cluster : Cluster V}
    (hcluster : view.cluster = .ok cluster) {spc : ServiceProviderCluster V}
    (hspc : view.serviceProviderCluster = .ok spc) {v : V} (hv : v ∈ namedVersions spc) :
    yStreamChannel cluster.channelGroup (minorString v) ≠
      yStreamChannel profile.1 profile.2 := by
  obtain ⟨hkey, document, hdocument, rfl⟩ := hview.cluster cluster hcluster
  obtain ⟨hparent, hmem⟩ := hview.serviceProviderCluster spc hspc
  intro hchannel
  exact hnone key (references_of_named hok hdocument hkey hmem hparent hv hchannel)

theorem unneeded_of_not_references (hnone : ∀ clusterID, ¬ References snapshot profile clusterID) :
    Unneeded snapshot profile where
  seeding := by
    intro key view hview create hmem
    obtain ⟨cluster, hcluster, hrequested | ⟨spc, pin, hspc, hpin, hchannel⟩⟩ :=
      mem_seedingSyncOnce hmem
    · exact requested_ne hok hview hnone cluster hcluster hrequested
    · exact named_ne hok hview hnone hcluster hspc (by simp [namedVersions, hpin]) hchannel.symm
  initial := fun hview answer now =>
    initialSyncOnce_answering answer now (requested_ne hok hview hnone)
  minorUpgrade := fun hview answer now =>
    minorUpgradeSyncOnce_answering answer now (requested_ne hok hview hnone)
  forced := by
    intro key view hview answer clusterName now
    apply forcedSyncOnce_answering
    intro cluster spc v hcluster hspc hv
    exact named_ne hok hview hnone hcluster hspc (mem_namedVersions_of_versionForChannel hv)
  membership := by
    intro members hmembers
    rw [List.eq_nil_iff_forall_not_mem]
    intro spc hspc
    obtain ⟨clusterID, hreferences⟩ := references_of_member hmembers hspc
    exact hnone clusterID hreferences

/-- After a complete scan the counts are the numbers of clusters that reference a rollout, and a
rollout without any is not needed. -/
theorem collectRolloutReferences_sound :
    (∀ profile, referencingClusterCount snapshot.clusters snapshot.serviceProviderClusters
      profile = Set.ncard {clusterID | References snapshot profile clusterID}) ∧
    ∀ profile, referencingClusterCount snapshot.clusters snapshot.serviceProviderClusters
      profile = 0 → Unneeded snapshot profile := by
  refine ⟨referencingClusterCount_eq_ncard hok, ?_⟩
  intro profile hzero
  exact unneeded_of_not_references hok (not_references_of_count_eq_zero hok hzero)

end NoErrors

/-- A cluster on 4.19 whose pin holds it on 4.18. -/
def pinnedSnapshot : Snapshot Release where
  clusters := [⟨⟨some "/subscriptions/S/clusters/One", none, "stable", "4.19", none, ""⟩, ["4.18.3"]⟩]
  serviceProviderClusters := [⟨some ⟨"S", "rg", some ⟨"/subscriptions/s/clusters/one", "one"⟩⟩,
    some ⟨4, 19, 2⟩, none, ⟨some ⟨4, 18, 3⟩, none⟩, [⟨some ⟨4, 18, 3⟩, .completed, 0⟩]⟩]
  distinct := by decide

theorem collectRolloutReferences_sound_pinned :
    referencingClusterCount pinnedSnapshot.clusters pinnedSnapshot.serviceProviderClusters
        ("stable", "4.18") = 1 ∧
      Set.ncard {clusterID | References pinnedSnapshot ("stable", "4.18") clusterID} = 1 ∧
      Unneeded pinnedSnapshot ("stable", "4.17") := by
  have hok : (collectRolloutReferences pinnedSnapshot.clusters
      pinnedSnapshot.serviceProviderClusters).2 = [] := by decide +kernel
  have hsound := collectRolloutReferences_sound hok
  have hone : referencingClusterCount pinnedSnapshot.clusters
      pinnedSnapshot.serviceProviderClusters ("stable", "4.18") = 1 := by decide +kernel
  exact ⟨hone, by rw [← hsound.1, hone], hsound.2 _ (by decide +kernel)⟩

end AroHcp.Rollout
