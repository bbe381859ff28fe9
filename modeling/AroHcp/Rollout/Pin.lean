import AroHcp.Lib.Runs
import AroHcp.Rollout.Exposure
import AroHcp.Rollout.World

/-! Version pins under every interleaving of the desired-version controllers. -/

namespace AroHcp.Rollout

open DocStore Relation SemVer Version

variable {V : Type} [SemVer V] {s s' : Store (Doc V)} {key : ClusterKey} {now : Time}
  {spc replacement : ServiceProviderCluster V} {failure : String} {best : V}

/-- No rollout document the database ever held reaches the release threshold of the pin. -/
def Held (s : Store (Doc V)) (spc : ServiceProviderCluster V) : Prop :=
  ∀ untilVersion, spc.pinnedVersion.untilExactVersion = some untilVersion →
    ∀ channel etag (rollout : ControlPlaneVersionRollout V) best,
      s.Past (.rollout channel) ⟨etag, rollout⟩ → rollout.bestExactVersion = some best →
        gte best untilVersion = false

/-- What a controller may make of a document with a held pin: start the clock of the desired
version, or set the desired version to the pinned one. -/
def RespectsPin (s : Store (Doc V)) (spc replacement : ServiceProviderCluster V) : Prop :=
  ∀ pin, spc.pinnedVersion.exactVersion = some pin → Held s spc →
    (∃ now, replacement = { spc with desiredVersionLastTransitionTime := some now }) ∨
      ∃ now, replacement = { spc with desiredVersion := some pin,
                                      desiredVersionLastTransitionTime := some now }

theorem RespectsPin.mono (h : RespectsPin s spc replacement)
    (hgrows : ∀ k v, s.Past k v → s'.Past k v) : RespectsPin s' spc replacement := by
  intro pin hpin hheld
  apply h pin hpin
  intro untilVersion huntil channel etag rollout best hpast
  exact hheld untilVersion huntil channel etag rollout best (hgrows _ _ hpast)

theorem RespectsPin.pinnedVersion_eq {pin : V} (h : RespectsPin s spc replacement)
    (hpin : spc.pinnedVersion.exactVersion = some pin) (hheld : Held s spc) :
    replacement.pinnedVersion = spc.pinnedVersion := by
  rcases h pin hpin hheld with ⟨now, rfl⟩ | ⟨now, rfl⟩ <;> rfl

theorem respectsPin_of_unpinned (h : spc.pinnedVersion.exactVersion = none) :
    RespectsPin s spc replacement := by
  intro pin hpin
  rw [h] at hpin
  cases hpin

omit [SemVer V] in
theorem exactVersion_of_not_hasForcedVersion {cluster : Cluster V}
    (h : hasForcedVersion cluster spc = false) : spc.pinnedVersion.exactVersion = none := by
  unfold hasForcedVersion at h
  rw [Bool.or_eq_false_iff, Option.isSome_eq_false_iff, Option.isNone_iff_eq_none] at h
  exact h.1

theorem setDesiredVersion_of_new {newDesired : V}
    (h : (spc.desiredVersion.all fun desired => !eq desired newDesired) = true ∨
      isZero spc.desiredVersionLastTransitionTime = true) :
    setDesiredVersion spc newDesired now =
      { spc with
        desiredVersion := some newDesired, desiredVersionLastTransitionTime := some now } := by
  unfold setDesiredVersion
  rw [if_neg]
  intro hsame
  rw [Bool.and_eq_true, Option.any_eq_true, Bool.not_eq_true'] at hsame
  obtain ⟨⟨desired, hdesired, heq⟩, htime⟩ := hsame
  rcases h with hnew | hzero
  · simp [hdesired, heq] at hnew
  · rw [hzero] at htime
    cases htime

/-! ## Forced assignment -/

theorem bestForChannel_eq_some {clusterName : String} {cluster : Cluster V} {version : Option V}
    {rollout : String → Read (ControlPlaneVersionRollout V)}
    (h : bestForChannel clusterName cluster version rollout = .ok (some best)) :
    ∃ channel doc, rollout channel = .ok doc ∧ doc.bestExactVersion = some best := by
  unfold bestForChannel at h
  cases version with
  | none => cases h
  | some version =>
    dsimp only at h
    split_ifs at h with hgroup
    generalize yStreamChannel cluster.channelGroup (minorString version) = channel at h
    refine ⟨channel, ?_⟩
    split at h
    · rename_i doc hread
      exact ⟨doc, hread, Except.ok.inj h⟩
    · cases h
    · cases h

theorem forcedSyncOnce_replace {clusterName : String} {view : ClusterView V}
    (h : forcedSyncOnce clusterName view now = .replace replacement failure) :
    ∃ spc cluster best newDesired clearPin, view.serviceProviderCluster = .ok spc ∧
      bestForChannel clusterName cluster (versionForChannel cluster spc) view.rollout = .ok best ∧
      forcedDecision cluster spc best = (some newDesired, clearPin) ∧
      (clearPin || spc.desiredVersion.all fun desired => !eq desired newDesired) = true ∧
      replacement = forcedReplacement spc newDesired clearPin now := by
  unfold forcedSyncOnce at h
  split at h
  · cases h
  · cases h
  rename_i spc hspc
  split at h
  · cases h
  · cases h
  rename_i cluster hcluster
  split_ifs at h
  split at h
  · cases h
  rename_i best hbest
  split at h
  · cases h
  rename_i newDesired clearPin hdecision
  split_ifs at h with hchanged
  exact ⟨spc, cluster, best, newDesired, clearPin, hspc, hbest, hdecision, hchanged,
    (Sync.replace.inj h).1.symm⟩

theorem releases_eq_none {best : Option V} (hheld : Held s spc)
    (hbest : ∀ b, best = some b → ∃ channel etag rollout,
      s.Past (.rollout channel) ⟨etag, rollout⟩ ∧ rollout.bestExactVersion = some b) :
    releases spc.pinnedVersion best = none := by
  unfold releases
  rw [Option.filter_eq_none_iff]
  intro b hb hreaches
  obtain ⟨untilVersion, huntil, hgte⟩ := (Option.any_eq_true _ _).mp hreaches
  obtain ⟨channel, etag, rollout, hpast, hrollout⟩ := hbest b hb
  rw [hheld untilVersion huntil channel etag rollout b hpast hrollout] at hgte
  cases hgte

theorem forcedSyncOnce_respectsPin {view : CachedView s key}
    (h : forcedSyncOnce key.clusterName view.toClusterView now = .replace replacement failure) :
    ∃ spc, view.serviceProviderCluster = .ok spc ∧ RespectsPin s spc replacement := by
  obtain ⟨spc, cluster, best, newDesired, clearPin, hspc, hbest, hdecision, hchanged, rfl⟩ :=
    forcedSyncOnce_replace h
  refine ⟨spc, hspc, ?_⟩
  intro pin hpin hheld
  have hkept : releases spc.pinnedVersion best = none := by
    apply releases_eq_none hheld
    rintro b rfl
    obtain ⟨channel, rollout, hread, hrollout⟩ := bestForChannel_eq_some hbest
    obtain ⟨etag, hpast⟩ := view.rollout_past channel rollout hread
    exact ⟨channel, etag, rollout, hpast, hrollout⟩
  unfold forcedDecision at hdecision
  rw [hpin] at hdecision
  rw [hkept, Prod.mk.injEq, Option.some.injEq] at hdecision
  obtain ⟨rfl, rfl⟩ := hdecision
  exact .inr ⟨now, setDesiredVersion_of_new (.inl hchanged)⟩

/-! ## Initial and minor upgrade assignment -/

theorem initialSyncOnce_respectsPin {view : ClusterView V}
    (h : initialSyncOnce view now = .replace replacement failure) :
    ∃ spc, view.serviceProviderCluster = .ok spc ∧ RespectsPin s spc replacement := by
  unfold initialSyncOnce at h
  split at h
  · cases h
  · cases h
  rename_i spc hspc
  refine ⟨spc, hspc, ?_⟩
  split_ifs at h with hidle
  split at h
  · -- a desired version without a transition time
    rename_i desired hdesired
    have hzero : isZero spc.desiredVersionLastTransitionTime = true := by
      simpa [initialNeedsWork, hdesired] using hidle
    intro pin _ _
    left
    refine ⟨now, ?_⟩
    rw [← (Sync.replace.inj h).1, setDesiredVersion_of_new (.inr hzero), ← hdesired]
  · split at h
    · cases h
    · cases h
    split_ifs at h with hforced
    exact respectsPin_of_unpinned
      (exactVersion_of_not_hasForcedVersion (Bool.eq_false_of_not_eq_true hforced))

theorem minorUpgradeSyncOnce_respectsPin {view : ClusterView V}
    (h : minorUpgradeSyncOnce view now = .replace replacement failure) :
    ∃ spc, view.serviceProviderCluster = .ok spc ∧ RespectsPin s spc replacement := by
  obtain ⟨spc, cluster, best, hspc, -, hwork, -⟩ := minorUpgradeSyncOnce_replace h
  refine ⟨spc, hspc, ?_⟩
  unfold minorUpgradeNeedsWork at hwork
  rw [Bool.and_eq_true, Bool.not_eq_true'] at hwork
  exact respectsPin_of_unpinned (exactVersion_of_not_hasForcedVersion hwork.1)

/-! ## Progressive rollout -/

omit [SemVer V] in
theorem randomClusterSelector_subset (permutation : Nat → List Nat)
    (candidates : List (ServiceProviderCluster V)) (n : Nat) :
    randomClusterSelector permutation candidates n ⊆ candidates := by
  unfold randomClusterSelector
  split_ifs with hle
  · exact List.Subset.refl _
  · intro chosen hchosen
    obtain ⟨i, -, hi⟩ := List.mem_filterMap.mp hchosen
    exact List.mem_of_getElem? hi

theorem assigned_eligible {config : RolloutConfig} {select : ClusterSelector V}
    (hselect : ∀ candidates n, select candidates n ⊆ candidates) {input : SyncInput V}
    {pair : ServiceProviderCluster V × ServiceProviderCluster V}
    (h : pair ∈ (syncOnce config select input).assigned) :
    ∃ rollout best, input.rollout = some rollout ∧ rollout.bestExactVersion = some best ∧
      Eligible input.clusters best pair.1 := by
  obtain ⟨rollout, best, members, hrollout, hbest, -, hassigned⟩ :=
    syncOnce_assigned (List.ne_nil_of_mem h)
  refine ⟨rollout, best, hrollout, hbest, ?_⟩
  rw [hassigned] at h
  have hselected := (assigned_spec _ best input.now input.assignment).1.subset
    (List.mem_map_of_mem h)
  unfold planBatch at hselected
  dsimp only [Option.map_some, Option.getD_some] at hselected
  split_ifs at hselected with hpos
  · exact (eligible_of_mem (hselect _ _ hselected)).2
  · cases hselected

theorem assigns_respectsPin {channel : String} {view : ChannelView s channel}
    {config : RolloutConfig} {permutation : Nat → List Nat} {p : PendingReplace V}
    (h : view.Assigns config (randomClusterSelector permutation) now p) :
    ∃ key spc, s.Past (.serviceProviderCluster key) ⟨p.etag, spc⟩ ∧
      RespectsPin s spc p.replacement := by
  obtain ⟨copy, hcopy, hassigned, -, hetag⟩ := h
  obtain ⟨key, hpast⟩ := view.serviceProviderClusters_past copy hcopy
  refine ⟨key, copy.doc, hetag ▸ hpast, ?_⟩
  intro pin hpin hheld
  obtain ⟨rollout, best, hrollout, hbest, heligible⟩ :=
    assigned_eligible (randomClusterSelector_subset permutation) hassigned
  cases hrollout
  -- the pin makes the copy eligible only if the best version reached its threshold
  rcases heligible.pin with hnone | ⟨untilVersion, huntil, hreached⟩
  · rw [hpin] at hnone
    cases hnone
  · rw [lte_iff_gte, hheld untilVersion huntil channel _ _ best view.rollout_past hbest] at hreached
    cases hreached

/-! ## Runs -/

/-- The waiting replace was computed from a copy it carries the ETag of, and respects its pin. -/
def Justified (s : Store (Doc V)) (p : PendingReplace V) : Prop :=
  ∃ key spc, s.Past (.serviceProviderCluster key) ⟨p.etag, spc⟩ ∧ RespectsPin s spc p.replacement

theorem Justified.mono {p : PendingReplace V} (h : Justified s p)
    (hgrows : ∀ k v, s.Past k v → s'.Past k v) : Justified s' p := by
  obtain ⟨key, spc, hpast, hrespects⟩ := h
  exact ⟨key, spc, hgrows _ _ hpast, hrespects.mono hgrows⟩

theorem syncOnce_respectsPin {controller : Controller} {view : CachedView s key}
    (h : controller.syncOnce key view.toClusterView now = .replace replacement failure) :
    ∃ spc, view.serviceProviderCluster = .ok spc ∧ RespectsPin s spc replacement := by
  cases controller with
  | forced => exact forcedSyncOnce_respectsPin h
  | initial => exact initialSyncOnce_respectsPin h
  | minorUpgrade => exact minorUpgradeSyncOnce_respectsPin h

def AllJustified (w : World V) : Prop :=
  ∀ p ∈ w.pending, Justified w.store p

theorem Step.allJustified {w w' : World V} (hw : AllJustified w) (h : Step w w') :
    AllJustified w' := by
  cases h with
  | write k doc => exact fun p hp => (hw p hp).mono fun _ _ hpast => hpast.put k doc
  | remove k => exact fun p hp => (hw p hp).mono fun _ _ hpast => hpast.remove k
  | sync controller key view now replacement failure h =>
    intro p hp
    rcases List.mem_cons.mp hp with rfl | hold
    · obtain ⟨spc, hspc, hrespects⟩ := syncOnce_respectsPin h
      exact ⟨key, spc, view.serviceProviderCluster_past spc hspc, hrespects⟩
    · exact hw p hold
  | reserve config permutation channel view now store assignments h hassigns =>
    obtain ⟨_, -, -, rfl⟩ := Store.replace_eq_some h
    intro p hp
    refine Justified.mono (s := w.store) ?_ fun _ _ hpast => hpast.put _ _
    rcases List.mem_append.mp hp with hnew | hold
    · exact assigns_respectsPin (hassigns p hnew)
    · exact hw p hold
  | accept h =>
    obtain ⟨store, store', before, after, p, h⟩ := h
    obtain ⟨_, -, -, rfl⟩ := Store.replace_eq_some h
    intro q hq
    refine (hw q ?_).mono fun _ _ hpast => hpast.put _ _
    exact List.mem_append.mpr ((List.mem_append.mp hq).imp id (List.mem_cons_of_mem p))
  | refuse store before after p =>
    intro q hq
    exact hw q (List.mem_append.mpr ((List.mem_append.mp hq).imp id (List.mem_cons_of_mem p)))

def pinnedKey : ClusterKey := ⟨"sub", "rg", "a"⟩

def pinnedSample : ServiceProviderCluster Release :=
  { sampleMember "a" with pinnedVersion := ⟨some ⟨4, 20, 2⟩, some ⟨4, 20, 5⟩⟩ }

def pinnedRollout : ControlPlaneVersionRollout Release := ⟨some ⟨4, 20, 3⟩, none⟩

def clusterStore (spc : ServiceProviderCluster Release) : Store (Doc Release) :=
  ((Store.empty.put (.serviceProviderCluster pinnedKey) spc).put
    (.cluster pinnedKey) (sampleCluster "a")).put (.rollout "stable-4.20") pinnedRollout

def pinnedStore : Store (Doc Release) := clusterStore pinnedSample

def pinnedView : CachedView pinnedStore pinnedKey where
  serviceProviderCluster := .ok pinnedSample
  cluster := .ok (sampleCluster "a")
  rollout channel := if channel = "stable-4.20" then .ok pinnedRollout else .error .notFound
  nodePools := .ok []
  serviceProviderNodePool _ := .error .notFound
  etag := 0
  serviceProviderCluster_past := by
    rintro _ ⟨⟩
    exact .tail _ (.tail _ (.head _))
  cluster_past := by
    rintro _ ⟨⟩
    exact ⟨1, .tail _ (.head _)⟩
  rollout_past := by
    intro channel doc h
    split_ifs at h with hchannel
    cases h
    subst hchannel
    exact ⟨2, .head _⟩
  nodePools_past := by
    rintro _ ⟨⟩ pool hpool
    cases hpool
  serviceProviderNodePool_past := by
    rintro _ _ ⟨⟩

theorem pinnedSample_held : Held pinnedStore pinnedSample := by
  rintro _ ⟨⟩ channel etag rollout best hpast hbest
  have hrollout : rollout = pinnedRollout := by
    rcases hpast with _ | ⟨_, _ | ⟨_, _ | ⟨_, ⟨⟩⟩⟩⟩
    rfl
  subst hrollout
  cases hbest
  decide

def pinnedTarget : ServiceProviderCluster Release :=
  { pinnedSample with desiredVersion := some ⟨4, 20, 2⟩,
                      desiredVersionLastTransitionTime := some hour }

def unpinnedView : ChannelView (clusterStore (sampleMember "a")) "stable-4.20" where
  rollout := ⟨2, pinnedRollout⟩
  clusters := [sampleCluster "a"]
  serviceProviderClusters := [⟨0, sampleMember "a"⟩]
  rollout_past := .head _
  clusters_past _ h := ⟨pinnedKey, 1, List.mem_singleton.mp h ▸ .tail _ (.head _)⟩
  serviceProviderClusters_past _ h :=
    ⟨pinnedKey, List.mem_singleton.mp h ▸ .tail _ (.tail _ (.head _))⟩

/-- While the cluster is not pinned, the progressive rollout moves it to the best version. -/
theorem exists_zStream_step : ∃ w : World Release,
    Step ⟨clusterStore (sampleMember "a"), []⟩ w ∧
      w.pending.map (·.replacement.desiredVersion) = [some ⟨4, 20, 3⟩] := by
  have hassigns : unpinnedView.Assigns defaultRolloutConfig (randomClusterSelector List.range)
      (10 * hour) ⟨pinnedKey, 0, { sampleMember "a" with
        desiredVersion := some ⟨4, 20, 3⟩
        desiredVersionLastTransitionTime := some (10 * hour) }⟩ :=
    ⟨_, List.mem_singleton_self _, by decide +kernel, rfl, rfl⟩
  exact ⟨_, .reserve defaultRolloutConfig List.range _ unpinnedView (10 * hour) _ [_] rfl
    (by simpa using hassigns), rfl⟩

end AroHcp.Rollout
