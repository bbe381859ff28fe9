import AroHcp.Rollout.Types
import AroHcp.Lib.ExceptLoop
import AroHcp.Lib.Keyed
import Mathlib.Data.Finset.Basic
import Mathlib.Data.Set.Card

/-! Which clusters a rollout is still needed for. The scan reads every version that a cluster or its
`ServiceProviderCluster` names, places it in the rollout of its channel, and counts the clusters of
each rollout. -/

namespace AroHcp.Rollout

open GoFmt SemVer

/-- Channel group and minor, as `rolloutVersionFromName` reads them off a channel. -/
abbrev VersionProfile := String × String

/-- A cluster with the versions its status reports. -/
structure ClusterDocument (V : Type) extends Cluster V where
  activeVersions : List String
deriving DecidableEq, Repr

/-- A version that a document of the cluster names. -/
structure VersionUse where
  clusterID : String
  group : String
  version : String
deriving DecidableEq, Repr

variable {V : Type} [SemVer V]

def clusterKey (cluster : Cluster V) : Option String :=
  cluster.id.map toLower

omit [SemVer V] in
theorem clusterKey_eq_some {cluster : Cluster V} {key : String} :
    clusterKey cluster = some key ↔ ∃ id, cluster.id = some id ∧ toLower id = key := by
  simp [clusterKey]

/-! ## The scan -/

/-- The clusters that have an ID, under it. -/
def keyedClusters (clusters : List (ClusterDocument V)) : List (String × ClusterDocument V) :=
  clusters.filterMap fun cluster => (clusterKey cluster.toCluster).map fun key => (key, cluster)

def groups (clusters : List (ClusterDocument V)) (clusterID : String) : Option String :=
  ((Keyed.index Prod.fst (keyedClusters clusters)).lookup clusterID).map (·.2.channelGroup)

/-- Requested version, experimental override and the versions of the status. -/
def clusterTexts (cluster : ClusterDocument V) : List String :=
  cluster.versionID :: (cluster.controlPlaneExactVersion.toList.map text ++ cluster.activeVersions)

def clusterUses (cluster : ClusterDocument V) : List (Except String VersionUse) :=
  match clusterKey cluster.toCluster with
  | none => [.error "cluster without resource ID in rollout reference scan"]
  | some clusterID =>
    (clusterTexts cluster).map fun version => .ok ⟨clusterID, cluster.channelGroup, version⟩

def namedVersions (spc : ServiceProviderCluster V) : List V :=
  ([spc.desiredVersion, spc.pinnedVersion.exactVersion] ++
    spc.activeVersions.map (·.version)).filterMap id

def serviceProviderClusterUses (groups : String → Option String) (spc : ServiceProviderCluster V) :
    List (Except String VersionUse) :=
  match spc.resourceID.bind (·.parent) with
  | none => [.error "service provider cluster without parent in rollout reference scan"]
  | some parent =>
    let clusterID := toLower parent.text
    let group := (groups clusterID).getD ""
    if group = "" then
      [.error s!"cannot determine channel group for {parent.text}/serviceProviderClusters/default"]
    else (namedVersions spc).map fun version => .ok ⟨clusterID, group, text version⟩

variable (V) in
def referencedProfile (group version : String) : Except String VersionProfile :=
  match parseTolerant (V := V) version with
  | .error e => .error s!"invalid version {quote version}: {e}"
  | .ok v =>
    match rolloutVersionFromName (yStreamChannel group (minorString v)) with
    | .error e => .error s!"unsupported channel group {quote group}: {e}"
    | .ok profile => .ok profile

/-- The clusters found for each rollout so far, and the errors met. -/
structure ReferenceScan where
  refs : AList fun _ : VersionProfile => Finset String := ∅
  errs : List String := []

def ReferenceScan.clustersOf (scan : ReferenceScan) (profile : VersionProfile) : Finset String :=
  (scan.refs.lookup profile).getD ∅

variable (V) in
def ReferenceScan.add (scan : ReferenceScan) : Except String VersionUse → ReferenceScan
  | .error e => { scan with errs := scan.errs ++ [e] }
  | .ok v =>
    match referencedProfile V v.group v.version with
    | .error e => { scan with errs := scan.errs ++ [e] }
    | .ok profile =>
      { scan with refs := scan.refs.insert profile (insert v.clusterID (scan.clustersOf profile)) }

def versionUses (clusters : List (ClusterDocument V)) (spcs : List (ServiceProviderCluster V)) :
    List (Except String VersionUse) :=
  clusters.flatMap clusterUses ++ spcs.flatMap (serviceProviderClusterUses (groups clusters))

def scanReferences (clusters : List (ClusterDocument V)) (spcs : List (ServiceProviderCluster V)) :
    ReferenceScan :=
  (versionUses clusters spcs).foldl (ReferenceScan.add V) {}

/-- The number of clusters of each rollout, and the errors of an incomplete scan. -/
def collectRolloutReferences (clusters : List (ClusterDocument V))
    (spcs : List (ServiceProviderCluster V)) : (AList fun _ : VersionProfile => Nat) × List String :=
  let scan := scanReferences clusters spcs
  (scan.refs.keys.foldl (fun counts profile =>
    counts.insert profile (scan.clustersOf profile).card) ∅, scan.errs)

/-- `refs[profile]`, zero for a profile without an entry. -/
def referencingClusterCount (clusters : List (ClusterDocument V))
    (spcs : List (ServiceProviderCluster V)) (profile : VersionProfile) : Nat :=
  ((collectRolloutReferences clusters spcs).1.lookup profile).getD 0

/-! ## What the scan finds -/

def VersionUse.In (V : Type) [SemVer V] (v : VersionUse) (profile : VersionProfile) : Prop :=
  referencedProfile V v.group v.version = .ok profile

variable {profile : VersionProfile}

theorem referencedProfile_eq_ok {group version : String} :
    referencedProfile V group version = .ok profile ↔
      ∃ v : V, parseTolerant version = .ok v ∧
        rolloutVersionFromName (yStreamChannel group (minorString v)) = .ok profile := by
  unfold referencedProfile
  cases hparse : parseTolerant (V := V) version with
  | error e => simp
  | ok v =>
    cases hname : rolloutVersionFromName (yStreamChannel group (minorString v)) with
    | error e => simp [hname]
    | ok found => simp [hname]

theorem clustersOf_insert (scan : ReferenceScan) (profile other : VersionProfile)
    (clusterID : String) (errs : List String) :
    ReferenceScan.clustersOf ⟨scan.refs.insert profile
        (insert clusterID (scan.clustersOf profile)), errs⟩ other =
      if other = profile then insert clusterID (scan.clustersOf profile)
      else scan.clustersOf other := by
  unfold ReferenceScan.clustersOf
  split_ifs with h
  · subst h
    rw [AList.lookup_insert]
    rfl
  · rw [AList.lookup_insert_ne h]

theorem mem_clustersOf_add (scan : ReferenceScan) (found : Except String VersionUse)
    (profile : VersionProfile) (clusterID : String) :
    clusterID ∈ (scan.add V found).clustersOf profile ↔
      clusterID ∈ scan.clustersOf profile ∨
        ∃ v, found = .ok v ∧ v.clusterID = clusterID ∧ v.In V profile := by
  cases found with
  | error e => simp [ReferenceScan.add, ReferenceScan.clustersOf]
  | ok v =>
    unfold ReferenceScan.add VersionUse.In
    cases hprofile : referencedProfile V v.group v.version with
    | error e => simp [ReferenceScan.clustersOf, hprofile]
    | ok other =>
      simp only [clustersOf_insert, Except.ok.injEq, exists_eq_left', hprofile]
      split_ifs with h
      · subst h
        rw [Finset.mem_insert, eq_comm, or_comm]
        simp
      · simp [Ne.symm h]

theorem mem_clustersOf_foldl (uses : List (Except String VersionUse)) (scan : ReferenceScan)
    (profile : VersionProfile) (clusterID : String) :
    clusterID ∈ (uses.foldl (ReferenceScan.add V) scan).clustersOf profile ↔
      clusterID ∈ scan.clustersOf profile ∨
        ∃ v, .ok v ∈ uses ∧ v.clusterID = clusterID ∧ v.In V profile := by
  induction uses generalizing scan with
  | nil => simp
  | cons found uses ih =>
    rw [List.foldl_cons, ih, mem_clustersOf_add, or_assoc]
    apply or_congr_right
    simp only [List.mem_cons, or_and_right, exists_or, eq_comm (b := found)]

theorem mem_clustersOf_scan {clusters : List (ClusterDocument V)}
    {spcs : List (ServiceProviderCluster V)} {clusterID : String} :
    clusterID ∈ (scanReferences clusters spcs).clustersOf profile ↔
      ∃ v, .ok v ∈ versionUses clusters spcs ∧ v.clusterID = clusterID ∧ v.In V profile := by
  rw [scanReferences, mem_clustersOf_foldl]
  simp [ReferenceScan.clustersOf]

theorem errs_foldl (uses : List (Except String VersionUse)) (scan : ReferenceScan)
    (h : (uses.foldl (ReferenceScan.add V) scan).errs = []) :
    scan.errs = [] ∧ ∀ found ∈ uses, ∃ v profile, found = .ok v ∧ v.In V profile := by
  induction uses generalizing scan with
  | nil => exact ⟨h, by simp⟩
  | cons found uses ih =>
    obtain ⟨hadd, hrest⟩ := ih _ h
    unfold ReferenceScan.add at hadd
    cases found with
    | error e => simp at hadd
    | ok v =>
      cases hprofile : referencedProfile V v.group v.version with
      | error e => simp [hprofile] at hadd
      | ok profile =>
        simp only [hprofile] at hadd
        refine ⟨hadd, ?_⟩
        rw [List.forall_mem_cons]
        exact ⟨⟨v, profile, rfl, hprofile⟩, hrest⟩

/-- Without an error every version that is named belongs to a rollout. -/
theorem exists_in_of_no_errs {clusters : List (ClusterDocument V)}
    {spcs : List (ServiceProviderCluster V)}
    (h : (collectRolloutReferences clusters spcs).2 = []) {found : Except String VersionUse}
    (hfound : found ∈ versionUses clusters spcs) :
    ∃ v profile, found = .ok v ∧ v.In V profile :=
  (errs_foldl _ _ h).2 found hfound

theorem referencingClusterCount_eq_card (clusters : List (ClusterDocument V))
    (spcs : List (ServiceProviderCluster V)) (profile : VersionProfile) :
    referencingClusterCount clusters spcs profile =
      ((scanReferences clusters spcs).clustersOf profile).card := by
  unfold referencingClusterCount collectRolloutReferences
  rw [Keyed.lookup_foldl_insert_values
    (fun profile => ((scanReferences clusters spcs).clustersOf profile).card)]
  split_ifs with h
  · rfl
  · have hnone : (scanReferences clusters spcs).refs.lookup profile = none := by
      rw [AList.lookup_eq_none]
      simpa [AList.mem_keys] using h
    simp [ReferenceScan.clustersOf, hnone]

/-! ## References -/

/-- What the informers list: one document under each resource ID. -/
structure Snapshot (V : Type) where
  clusters : List (ClusterDocument V)
  serviceProviderClusters : List (ServiceProviderCluster V)
  distinct : (clusters.filterMap fun cluster => clusterKey cluster.toCluster).Nodup

/-- The versions of the cluster's own document, as far as they can be read. -/
def clusterVersions (cluster : ClusterDocument V) : List V :=
  (parseTolerant cluster.versionID).toOption.toList ++
    (cluster.controlPlaneExactVersion.toList ++
      cluster.activeVersions.filterMap fun version => (parseTolerant version).toOption)

def References (snapshot : Snapshot V) (profile : VersionProfile) (clusterID : String) : Prop :=
  ∃ cluster ∈ snapshot.clusters, clusterKey cluster.toCluster = some clusterID ∧
    ∃ v : V, (v ∈ clusterVersions cluster ∨ ∃ spc ∈ snapshot.serviceProviderClusters,
        parentKey spc = some clusterID ∧ v ∈ namedVersions spc) ∧
      rolloutVersionFromName (yStreamChannel cluster.channelGroup (minorString v)) = .ok profile

omit [SemVer V] in
theorem mem_keyedClusters {clusters : List (ClusterDocument V)} {key : String}
    {cluster : ClusterDocument V} :
    (key, cluster) ∈ keyedClusters clusters ↔
      cluster ∈ clusters ∧ clusterKey cluster.toCluster = some key := by
  simp only [keyedClusters, List.mem_filterMap, Option.map_eq_some_iff, Prod.mk.injEq]
  constructor
  · rintro ⟨listed, hlisted, found, hkey, rfl, rfl⟩
    exact ⟨hlisted, hkey⟩
  · rintro ⟨hlisted, hkey⟩
    exact ⟨cluster, hlisted, key, hkey, rfl, rfl⟩

omit [SemVer V] in
theorem map_fst_keyedClusters (clusters : List (ClusterDocument V)) :
    (keyedClusters clusters).map Prod.fst =
      clusters.filterMap fun cluster => clusterKey cluster.toCluster := by
  unfold keyedClusters
  rw [List.map_filterMap]
  congr 1
  funext cluster
  rw [Option.map_map]
  exact Option.map_id'

omit [SemVer V] in
/-- The group under an ID is the group of the cluster with that ID. -/
theorem groups_eq_some (snapshot : Snapshot V) {clusterID group : String} :
    groups snapshot.clusters clusterID = some group ↔
      ∃ cluster ∈ snapshot.clusters, clusterKey cluster.toCluster = some clusterID ∧
        cluster.channelGroup = group := by
  unfold groups
  rw [Option.map_eq_some_iff]
  constructor
  · rintro ⟨⟨key, cluster⟩, hlookup, rfl⟩
    obtain ⟨hmem, rfl⟩ := Keyed.mem_of_lookup_index _ hlookup
    obtain ⟨hcluster, hkey⟩ := mem_keyedClusters.mp hmem
    exact ⟨cluster, hcluster, hkey, rfl⟩
  · rintro ⟨cluster, hcluster, hkey, hgroup⟩
    have hnodup : ((keyedClusters snapshot.clusters).map Prod.fst).Nodup := by
      rw [map_fst_keyedClusters]
      exact snapshot.distinct
    have hmem : (clusterID, cluster) ∈ keyedClusters snapshot.clusters :=
      mem_keyedClusters.mpr ⟨hcluster, hkey⟩
    exact ⟨_, Keyed.lookup_index_of_mem hnodup hmem, hgroup⟩

omit [SemVer V] in
theorem parentKey_eq_some {spc : ServiceProviderCluster V} {key : String} :
    parentKey spc = some key ↔
      ∃ parent, spc.resourceID.bind (·.parent) = some parent ∧ toLower parent.text = key := by
  unfold parentKey
  cases spc.resourceID with
  | none => simp
  | some id => simp

/-! ## The scan finds the references -/

theorem ok_mem_clusterUses {cluster : ClusterDocument V} {v : VersionUse} :
    .ok v ∈ clusterUses cluster ↔ clusterKey cluster.toCluster = some v.clusterID ∧
      cluster.channelGroup = v.group ∧ v.version ∈ clusterTexts cluster := by
  unfold clusterUses
  cases clusterKey cluster.toCluster with
  | none => simp
  | some clusterID =>
    obtain ⟨found, group, version⟩ := v
    simp only [List.mem_map, Except.ok.injEq, VersionUse.mk.injEq,
      Option.some.injEq]
    constructor
    · rintro ⟨text, htext, hid, hgroup, rfl⟩
      exact ⟨hid, hgroup, htext⟩
    · rintro ⟨hid, hgroup, htext⟩
      exact ⟨version, htext, hid, hgroup, rfl⟩

theorem ok_mem_serviceProviderClusterUses {lookup : String → Option String}
    {spc : ServiceProviderCluster V} {v : VersionUse} :
    .ok v ∈ serviceProviderClusterUses lookup spc ↔ parentKey spc = some v.clusterID ∧
      lookup v.clusterID = some v.group ∧ v.group ≠ "" ∧
        ∃ named ∈ namedVersions spc, text named = v.version := by
  unfold serviceProviderClusterUses
  rw [parentKey_eq_some]
  cases spc.resourceID.bind (·.parent) with
  | none => simp
  | some parent =>
    obtain ⟨clusterID, group, version⟩ := v
    simp only [Option.some.injEq, exists_eq_left']
    split_ifs with hempty
    · suffices hnone : ¬ (toLower parent.text = clusterID ∧ lookup clusterID = some group ∧
          group ≠ "") by
        simpa [← and_assoc] using fun hid hgroup hne => absurd ⟨hid, hgroup, hne⟩ hnone
      rintro ⟨rfl, hgroup, hne⟩
      rw [hgroup] at hempty
      exact hne hempty
    · simp only [List.mem_map, Except.ok.injEq, VersionUse.mk.injEq]
      constructor
      · rintro ⟨named, hnamed, rfl, rfl, rfl⟩
        refine ⟨rfl, ?_, hempty, named, hnamed, rfl⟩
        cases hlookup : lookup (toLower parent.text) with
        | none => simp [hlookup] at hempty
        | some group => rfl
      · rintro ⟨rfl, hgroup, -, named, hnamed, rfl⟩
        exact ⟨named, hnamed, rfl, by rw [hgroup]; rfl, rfl⟩

/-- A version that a scan without errors reads by its text is placed by its own minor. -/
theorem referencedProfile_text [ReadsText V] {group : String} {v : V}
    (hread : ∃ found, referencedProfile V group (text v) = .ok found) :
    referencedProfile V group (text v) = .ok profile ↔
      rolloutVersionFromName (yStreamChannel group (minorString v)) = .ok profile := by
  obtain ⟨found, hfound⟩ := hread
  obtain ⟨read, hparse, hname⟩ := referencedProfile_eq_ok.mp hfound
  rw [ReadsText.minorString_of_read hparse] at hname
  rw [hfound, hname]

section NoErrors

variable {snapshot : Snapshot V}
  (hok : (collectRolloutReferences snapshot.clusters snapshot.serviceProviderClusters).2 = [])

include hok

variable {cluster : ClusterDocument V} {clusterID : String}

theorem mem_versionUses_of_cluster (hcluster : cluster ∈ snapshot.clusters)
    (hkey : clusterKey cluster.toCluster = some clusterID) {version : String}
    (hversion : version ∈ clusterTexts cluster) :
    (Except.ok ⟨clusterID, cluster.channelGroup, version⟩ : Except String VersionUse) ∈
        versionUses snapshot.clusters snapshot.serviceProviderClusters ∧
      ∃ profile, referencedProfile V cluster.channelGroup version = .ok profile := by
  have hmem : (Except.ok ⟨clusterID, cluster.channelGroup, version⟩ : Except String VersionUse) ∈
      versionUses snapshot.clusters snapshot.serviceProviderClusters :=
    List.mem_append_left _ (List.mem_flatMap.mpr
      ⟨cluster, hcluster, ok_mem_clusterUses.mpr ⟨hkey, rfl, hversion⟩⟩)
  obtain ⟨v, profile, hv, hin⟩ := exists_in_of_no_errs hok hmem
  cases hv
  exact ⟨hmem, profile, hin⟩

theorem mem_versionUses_of_serviceProviderCluster (hcluster : cluster ∈ snapshot.clusters)
    (hkey : clusterKey cluster.toCluster = some clusterID) {spc : ServiceProviderCluster V}
    (hspc : spc ∈ snapshot.serviceProviderClusters) (hparent : parentKey spc = some clusterID)
    {v : V} (hv : v ∈ namedVersions spc) :
    (Except.ok ⟨clusterID, cluster.channelGroup, text v⟩ : Except String VersionUse) ∈
        versionUses snapshot.clusters snapshot.serviceProviderClusters ∧
      ∃ profile, referencedProfile V cluster.channelGroup (text v) = .ok profile := by
  have hgroup : groups snapshot.clusters clusterID = some cluster.channelGroup :=
    (groups_eq_some snapshot).mpr ⟨cluster, hcluster, hkey, rfl⟩
  have hall : ∀ found ∈ serviceProviderClusterUses (groups snapshot.clusters) spc,
      found ∈ versionUses snapshot.clusters snapshot.serviceProviderClusters := fun found h =>
    List.mem_append_right _ (List.mem_flatMap.mpr ⟨spc, hspc, h⟩)
  have hne : cluster.channelGroup ≠ "" := by
    -- without a channel group the scan would have reported the document
    intro hempty
    obtain ⟨parent, hid, rfl⟩ := parentKey_eq_some.mp hparent
    obtain ⟨_, _, herror, _⟩ := exists_in_of_no_errs hok (hall (.error _) (by
      unfold serviceProviderClusterUses
      rw [hid]
      dsimp only
      rw [hgroup, hempty]
      exact List.mem_singleton_self _))
    cases herror
  have hmem := hall (.ok ⟨clusterID, cluster.channelGroup, text v⟩)
    (ok_mem_serviceProviderClusterUses.mpr ⟨hparent, hgroup, hne, v, hv, rfl⟩)
  obtain ⟨found, profile, hfound, hin⟩ := exists_in_of_no_errs hok hmem
  cases hfound
  exact ⟨hmem, profile, hin⟩

variable [ReadsText V]

variable {profile : VersionProfile}

theorem exists_text_of_mem_clusterVersions (hcluster : cluster ∈ snapshot.clusters)
    (hkey : clusterKey cluster.toCluster = some clusterID) {v : V}
    (hv : v ∈ clusterVersions cluster)
    (hname : rolloutVersionFromName (yStreamChannel cluster.channelGroup (minorString v)) =
      .ok profile) :
    ∃ version ∈ clusterTexts cluster,
      referencedProfile V cluster.channelGroup version = .ok profile := by
  unfold clusterVersions at hv
  simp only [List.mem_append, Option.mem_toList, List.mem_filterMap] at hv
  rcases hv with hrequested | hexact | ⟨active, hactive, hread⟩
  · refine ⟨cluster.versionID, List.mem_cons_self, referencedProfile_eq_ok.mpr ⟨v, ?_, hname⟩⟩
    exact ExceptLoop.toOption_eq_some.mp hrequested
  · have hmem : text v ∈ clusterTexts cluster := by
      simp [clusterTexts, hexact]
    refine ⟨text v, hmem, ?_⟩
    exact (referencedProfile_text (mem_versionUses_of_cluster hok hcluster hkey hmem).2).mpr hname
  · refine ⟨active, by simp [clusterTexts, hactive], referencedProfile_eq_ok.mpr ⟨v, ?_, hname⟩⟩
    exact ExceptLoop.toOption_eq_some.mp hread

omit hok in
theorem exists_version_of_mem_clusterTexts {version : String}
    (hversion : version ∈ clusterTexts cluster)
    (hprofile : referencedProfile V cluster.channelGroup version = .ok profile) :
    ∃ v ∈ clusterVersions cluster,
      rolloutVersionFromName (yStreamChannel cluster.channelGroup (minorString v)) =
        .ok profile := by
  obtain ⟨read, hread, hname⟩ := referencedProfile_eq_ok.mp hprofile
  simp only [clusterTexts, List.mem_cons, List.mem_append, List.mem_map, Option.mem_toList]
    at hversion
  rcases hversion with rfl | ⟨exactVersion, hexact, rfl⟩ | hactive
  · exact ⟨read, by simp [clusterVersions, hread, Except.toOption], hname⟩
  · rw [ReadsText.minorString_of_read hread] at hname
    exact ⟨exactVersion, by simp [clusterVersions, hexact], hname⟩
  · refine ⟨read, ?_, hname⟩
    simp only [clusterVersions, List.mem_append, List.mem_filterMap]
    exact .inr (.inr ⟨version, hactive, ExceptLoop.toOption_eq_some.mpr hread⟩)

/-- A complete scan finds exactly the clusters that reference a rollout. -/
theorem mem_clustersOf_iff_references :
    clusterID ∈ (scanReferences snapshot.clusters snapshot.serviceProviderClusters).clustersOf
        profile ↔ References snapshot profile clusterID := by
  rw [mem_clustersOf_scan]
  constructor
  · rintro ⟨v, hmem, rfl, hin⟩
    rw [versionUses, List.mem_append, List.mem_flatMap, List.mem_flatMap] at hmem
    rcases hmem with ⟨cluster, hcluster, hmem⟩ | ⟨spc, hspc, hmem⟩
    · obtain ⟨hkey, hgroup, hversion⟩ := ok_mem_clusterUses.mp hmem
      unfold VersionUse.In at hin
      rw [← hgroup] at hin
      obtain ⟨read, hread, hname⟩ := exists_version_of_mem_clusterTexts hversion hin
      exact ⟨cluster, hcluster, hkey, read, .inl hread, hname⟩
    · obtain ⟨hparent, hlookup, -, named, hnamed, hversion⟩ :=
        ok_mem_serviceProviderClusterUses.mp hmem
      obtain ⟨cluster, hcluster, hkey, hgroup⟩ := (groups_eq_some snapshot).mp hlookup
      unfold VersionUse.In at hin
      rw [← hgroup, ← hversion] at hin
      exact ⟨cluster, hcluster, hkey, named, .inr ⟨spc, hspc, hparent, hnamed⟩,
        (referencedProfile_text ⟨profile, hin⟩).mp hin⟩
  · rintro ⟨cluster, hcluster, hkey, v, hv | ⟨spc, hspc, hparent, hnamed⟩, hname⟩
    · obtain ⟨version, hversion, hprofile⟩ :=
        exists_text_of_mem_clusterVersions hok hcluster hkey hv hname
      exact ⟨_, (mem_versionUses_of_cluster hok hcluster hkey hversion).1, rfl, hprofile⟩
    · obtain ⟨hmem, hread⟩ :=
        mem_versionUses_of_serviceProviderCluster hok hcluster hkey hspc hparent hnamed
      exact ⟨_, hmem, rfl, (referencedProfile_text hread).mpr hname⟩

theorem referencingClusterCount_eq_ncard (profile : VersionProfile) :
    referencingClusterCount snapshot.clusters snapshot.serviceProviderClusters profile =
      Set.ncard {clusterID | References snapshot profile clusterID} := by
  have hset : {clusterID | References snapshot profile clusterID} =
      ↑((scanReferences snapshot.clusters snapshot.serviceProviderClusters).clustersOf
        profile) := by
    ext clusterID
    exact (mem_clustersOf_iff_references hok).symm
  rw [referencingClusterCount_eq_card, hset, Set.ncard_coe_finset]

theorem not_references_of_count_eq_zero
    (hzero : referencingClusterCount snapshot.clusters snapshot.serviceProviderClusters
      profile = 0) (clusterID : String) : ¬ References snapshot profile clusterID := by
  rw [referencingClusterCount_eq_card, Finset.card_eq_zero] at hzero
  rw [← mem_clustersOf_iff_references hok, hzero]
  exact Finset.notMem_empty clusterID

end NoErrors

/-! ## Channels and profiles -/

theorem isDigit_of_isCanonicalNumber {s : String} (h : isCanonicalNumber s = true) {c : Char}
    (hc : c ∈ s.toList) : c.isDigit = true := by
  unfold isCanonicalNumber at h
  simp only [Bool.and_eq_true, List.all_eq_true] at h
  exact h.1.1.2 c hc

theorem mem_cut {c d : Char} {s : String} (h : d ∈ s.toList) :
    d ∈ (cut c s).1.toList ∨ d = c ∨ d ∈ (cut c s).2.toList := by
  simp only [cut, String.toList_ofList]
  rw [← List.takeWhile_append_dropWhile (p := fun x => decide (x ≠ c)) (l := s.toList),
    List.mem_append] at h
  refine h.imp_right fun hrest => ?_
  cases hdrop : s.toList.dropWhile (fun x => decide (x ≠ c)) with
  | nil =>
    rw [hdrop] at hrest
    cases hrest
  | cons head rest =>
    have hhead : head = c := by
      have hstop := List.head?_dropWhile_not (fun x => decide (x ≠ c)) s.toList
      rw [hdrop] at hstop
      simpa using hstop
    rw [hdrop, List.mem_cons, hhead] at hrest
    simpa using hrest

theorem cut_append_of_notMem {c : Char} {s : List Char} (rest : List Char) (h : c ∉ s) :
    cut c (String.ofList (s ++ c :: rest)) = (String.ofList s, String.ofList rest) := by
  have hne : ∀ x ∈ s, decide (x ≠ c) = true := fun x hx => by
    simpa using fun hxc : x = c => h (hxc ▸ hx)
  simp only [cut, String.toList_ofList]
  rw [List.takeWhile_append_of_pos hne, List.dropWhile_append_of_pos hne]
  simp

/-- A channel of a rollout is read back as the group and the minor it is made of. -/
theorem rolloutVersionFromName_yStreamChannel {group minor : String}
    (h : rolloutVersionFromName (yStreamChannel group minor) = .ok profile) :
    profile = (group, minor) := by
  have hlist : yStreamChannel group minor =
      String.ofList (group.toList ++ '-' :: minor.toList) := by
    apply String.toList_injective
    simp [yStreamChannel]
  rw [hlist] at h
  by_cases hdash : '-' ∈ group.toList
  · -- the minor would hold a dash, which no number does
    obtain ⟨front, back, hgroup, hfront⟩ := List.eq_append_cons_of_mem hdash
    rw [hgroup, List.append_assoc, List.cons_append] at h
    unfold rolloutVersionFromName at h
    rw [cut_append_of_notMem _ hfront] at h
    dsimp only at h
    split_ifs at h with hvalid
    simp only [Bool.and_eq_true] at hvalid
    have hmem : '-' ∈ (String.ofList (back ++ '-' :: minor.toList)).toList := by simp
    rcases mem_cut (c := '.') hmem with hmajor | heq | hrest
    · exact absurd (isDigit_of_isCanonicalNumber hvalid.1.2 hmajor) (by decide)
    · exact absurd heq (by decide)
    · exact absurd (isDigit_of_isCanonicalNumber hvalid.2 hrest) (by decide)
  · unfold rolloutVersionFromName at h
    rw [cut_append_of_notMem _ hdash] at h
    dsimp only at h
    split_ifs at h
    simpa using (Except.ok.inj h).symm

end AroHcp.Rollout
