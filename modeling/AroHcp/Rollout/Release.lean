import AroHcp.Lib.ExceptLoop
import AroHcp.Rollout.Pin

/-! The release of a version pin: the progressive rollout and the forced assignment decide on it
independently, and whatever the order of their runs they end at the same version. -/

namespace AroHcp.Rollout

open GoFmt SemVer Version

variable {V : Type} [SemVer V]

/-! ## The pins that the admin API accepts -/

structure VersionPinRequest where
  exactVersion : Option String
  untilExactVersion : Option String

/-! ## Runs of the two controllers -/

inductive ReleaseController where
  | zStream
  | forced
deriving DecidableEq, Repr

def HasBest (best : V) (rollout : ControlPlaneVersionRollout V) : Prop :=
  rollout.bestExactVersion = some best

/-- A run on the current documents, and what is stored after it. -/
inductive ReleaseStep (cluster : Cluster V) (channel : String) (best : V) :
    ReleaseController → ServiceProviderCluster V → ServiceProviderCluster V → Prop
  /-- The batch takes in the cluster. -/
  | assigned (config : RolloutConfig) (select : ClusterSelector V) (input : SyncInput V)
      {spc spc' : ServiceProviderCluster V} {rollout : ControlPlaneVersionRollout V}
      (hselect : ∀ candidates n, select candidates n ⊆ candidates)
        (hchannel : input.channel = channel)
      (hrollout : input.rollout = some rollout) (hbest : HasBest best rollout)
      (hassigned : (spc, spc') ∈ (syncOnce config select input).assigned) :
      ReleaseStep cluster channel best .zStream spc spc'
  /-- The cluster is not in the batch. -/
  | passedOver (spc : ServiceProviderCluster V) : ReleaseStep cluster channel best .zStream spc spc
  | replaced {clusterName failure : String} {view : ClusterView V} {now : Time}
      {spc spc' : ServiceProviderCluster V} {rollout : ControlPlaneVersionRollout V}
      (hspc : view.serviceProviderCluster = .ok spc) (hcluster : view.cluster = .ok cluster)
      (hrollout : view.rollout channel = .ok rollout) (hbest : HasBest best rollout)
      (hsync : forcedSyncOnce clusterName view now = .replace spc' failure) :
      ReleaseStep cluster channel best .forced spc spc'
  | left {clusterName : String} {view : ClusterView V} {now : Time}
      {spc : ServiceProviderCluster V} {rollout : ControlPlaneVersionRollout V}
      (hspc : view.serviceProviderCluster = .ok spc) (hcluster : view.cluster = .ok cluster)
      (hrollout : view.rollout channel = .ok rollout) (hbest : HasBest best rollout)
      (hsync : ∀ replacement failure,
        forcedSyncOnce clusterName view now ≠ .replace replacement failure) :
      ReleaseStep cluster channel best .forced spc spc

/-- Runs of the controllers one after the other. -/
inductive ReleaseRun (cluster : Cluster V) (channel : String) (best : V) :
    List ReleaseController → ServiceProviderCluster V → ServiceProviderCluster V → Prop
  | nil (spc : ServiceProviderCluster V) : ReleaseRun cluster channel best [] spc spc
  | snoc {runs : List ReleaseController} {controller : ReleaseController}
      {spc spc' spc'' : ServiceProviderCluster V}
      (hrun : ReleaseRun cluster channel best runs spc spc')
      (hstep : ReleaseStep cluster channel best controller spc' spc'') :
      ReleaseRun cluster channel best (runs ++ [controller]) spc spc''

variable {cluster : Cluster V} {channel : String} {best pin d : V} {now : Time}
  {spc spc' spc'' : ServiceProviderCluster V}

theorem assigned_pair {config : RolloutConfig} {select : ClusterSelector V} {input : SyncInput V}
    {rollout : ControlPlaneVersionRollout V}
    (hselect : ∀ candidates n, select candidates n ⊆ candidates)
    (hrollout : input.rollout = some rollout) (hbest : HasBest best rollout)
    (h : (spc, spc') ∈ (syncOnce config select input).assigned) :
    Eligible input.clusters best spc ∧ spc' = setDesiredVersion spc best input.now := by
  obtain ⟨rollout', best', members, hrollout', hbest', -, hassigned⟩ :=
    syncOnce_assigned (List.ne_nil_of_mem h)
  rw [hrollout] at hrollout'
  cases hrollout'
  rw [hbest] at hbest'
  cases hbest'
  obtain ⟨rollout', best', hrollout', hbest', heligible⟩ := assigned_eligible hselect h
  rw [hrollout] at hrollout'
  cases hrollout'
  rw [hbest] at hbest'
  cases hbest'
  rw [hassigned] at h
  exact ⟨heligible, (assigned_spec _ best input.now input.assignment).2 _ h⟩

section

variable {clusterName : String} {view : ClusterView V} {rollout : ControlPlaneVersionRollout V}
  (hspc : view.serviceProviderCluster = .ok spc) (hcluster : view.cluster = .ok cluster)
  (hpin : spc.pinnedVersion.exactVersion = some pin) (hgroup : cluster.channelGroup ≠ "")
  (hrollout : view.rollout (yStreamChannel cluster.channelGroup (minorString pin)) = .ok rollout)
  (hbest : HasBest best rollout)

include hpin hgroup hrollout hbest

/-- What the forced assignment finds as the best version of the channel of the pin. -/
theorem bestForChannel_pin :
    bestForChannel clusterName cluster (versionForChannel cluster spc) view.rollout =
      .ok (some best) := by
  unfold versionForChannel bestForChannel
  rw [hpin]
  dsimp only
  rw [if_neg hgroup, hrollout, ← hbest]

include hspc hcluster in
/-- A run of the forced assignment on a pinned cluster. -/
theorem forcedSyncOnce_pinned : forcedSyncOnce clusterName view now =
      match releases spc.pinnedVersion (some best) with
      | some best => .replace (forcedReplacement spc best true now)
          "failed to replace ServiceProviderCluster"
      | none =>
        if spc.desiredVersion.all fun desired => !eq desired pin then
          .replace (forcedReplacement spc pin false now) "failed to replace ServiceProviderCluster"
        else .done := by
  have hforced : hasForcedVersion cluster spc = true := by
    unfold hasForcedVersion
    rw [hpin]
    rfl
  unfold forcedSyncOnce forcedDecision
  rw [hspc, hcluster]
  dsimp only
  rw [hforced, Bool.not_true, Bool.false_and, if_neg Bool.false_ne_true,
    bestForChannel_pin hpin hgroup hrollout hbest, hpin]
  dsimp only
  cases releases spc.pinnedVersion (some best) with
  | some best => rfl
  | none => simp only [Bool.false_or]

end

theorem forcedSyncOnce_unpinned {clusterName : String} {view : ClusterView V}
    (hspc : view.serviceProviderCluster = .ok spc) (hcluster : view.cluster = .ok cluster)
    (hpin : spc.pinnedVersion.exactVersion = none) (hexact : cluster.controlPlaneExactVersion = none)
    (hpolicy : cluster.zStreamUpdatePolicy ≠ immediateZStreamUpdatePolicy) :
    forcedSyncOnce clusterName view now = .done := by
  unfold forcedSyncOnce hasForcedVersion
  rw [hspc, hcluster]
  dsimp only
  rw [hpin, hexact, if_pos]
  simp [hpolicy]

theorem setDesiredVersion_pinnedVersion (spc : ServiceProviderCluster V) (version : V) (now : Time) :
    (setDesiredVersion spc version now).pinnedVersion = spc.pinnedVersion := by
  unfold setDesiredVersion
  split_ifs <;> rfl

/-- A cluster that desires a version, or one below it, desires exactly that version afterwards. -/
theorem setDesiredVersion_desiredVersion
    (h : spc.desiredVersion = some best ∨ ∃ d, spc.desiredVersion = some d ∧ lt d best = true) :
    (setDesiredVersion spc best now).desiredVersion = some best := by
  rcases h with hsame | ⟨d, hd, hlt⟩
  · unfold setDesiredVersion
    split_ifs
    · exact hsame
    · rfl
  · rw [setDesiredVersion_of_below hd hlt]

/-! ## A pin that is released -/

inductive Releasing (pin untilVersion best : V) (spc : ServiceProviderCluster V) : Prop
  | pinned (hpin : spc.pinnedVersion = ⟨some pin, some untilVersion⟩)
      (hdesired : spc.desiredVersion = some best ∨
        ∃ d, spc.desiredVersion = some d ∧ lt d best = true)
  | released (hpin : spc.pinnedVersion = {}) (hdesired : spc.desiredVersion = some best)

variable {untilVersion : V}

theorem Releasing.desired (h : Releasing pin untilVersion best spc) :
    spc.desiredVersion = some best ∨ ∃ d, spc.desiredVersion = some d ∧ lt d best = true := by
  cases h with
  | pinned _ hdesired => exact hdesired
  | released _ hdesired => exact .inl hdesired

theorem releases_of_lte {pinned : PinnedVersion V}
    (hpinned : pinned.untilExactVersion = some untilVersion) (h : lte untilVersion best = true) :
    releases pinned (some best) = some best := by
  unfold releases
  rw [Option.filter_some, hpinned, Option.any_some, ← lte_iff_gte, h]
  rfl

section

variable (hgroup : cluster.channelGroup ≠ "")
  (hchannel : channel = yStreamChannel cluster.channelGroup (minorString pin))

include hgroup hchannel

section

variable (hexact : cluster.controlPlaneExactVersion = none)
  (hpolicy : cluster.zStreamUpdatePolicy ≠ immediateZStreamUpdatePolicy)
  (hreached : lte untilVersion best = true)

include hexact hpolicy hreached

/-- One run keeps the cluster between the two ends, never lowers the desired version, and after the
forced assignment the pin is gone. -/
theorem Releasing.step {controller : ReleaseController} (h : Releasing pin untilVersion best spc)
    (hstep : ReleaseStep cluster channel best controller spc spc') :
    Releasing pin untilVersion best spc' ∧
      (controller = .forced ∨ spc.pinnedVersion = {} → spc'.pinnedVersion = {}) ∧
      (spc'.desiredVersion = spc.desiredVersion ∨ spc'.desiredVersion = some best) := by
  have hnotBelow : spc.desiredVersion = some best →
      ¬∃ d, spc.desiredVersion = some d ∧ lt d best = true := by
    rintro hbest ⟨d, hd, hlt⟩
    rw [hbest] at hd
    cases hd
    rw [lt_self] at hlt
    cases hlt
  cases hstep with
  | passedOver => exact ⟨h, fun h' => h'.elim (by rintro ⟨⟩) id, .inl rfl⟩
  | assigned config select input hselect _ hrollout hbest hassigned =>
    obtain ⟨heligible, rfl⟩ := assigned_pair hselect hrollout hbest hassigned
    have hdesired : (setDesiredVersion spc best input.now).desiredVersion = some best :=
      setDesiredVersion_desiredVersion (.inr heligible.below)
    cases h with
    | pinned hpin _ =>
      refine ⟨.pinned ((setDesiredVersion_pinnedVersion _ _ _).trans hpin) (.inl hdesired), ?_,
        .inr hdesired⟩
      rintro (⟨⟨⟩⟩ | hnone)
      rw [hpin] at hnone
      cases hnone
    | released hpin hbest' => exact absurd heligible.below (hnotBelow hbest')
  | replaced hspc hcluster hrollout hbest hsync =>
    cases h with
    | pinned hpin hdesired =>
      rw [forcedSyncOnce_pinned hspc hcluster (by rw [hpin]) hgroup (hchannel ▸ hrollout) hbest,
        releases_of_lte (by rw [hpin]) hreached] at hsync
      obtain ⟨rfl, -⟩ := Sync.replace.inj hsync
      have hat : ∀ now, (setDesiredVersion spc best now).desiredVersion = some best :=
        fun _ => setDesiredVersion_desiredVersion hdesired
      exact ⟨.released rfl (hat _), fun _ => rfl, .inr (hat _)⟩
    | released hpin hdesired =>
      rw [forcedSyncOnce_unpinned hspc hcluster (by rw [hpin]) hexact hpolicy] at hsync
      cases hsync
  | left hspc hcluster hrollout hbest hsync =>
    cases h with
    | pinned hpin hdesired =>
      rw [forcedSyncOnce_pinned hspc hcluster (by rw [hpin]) hgroup (hchannel ▸ hrollout) hbest,
        releases_of_lte (by rw [hpin]) hreached] at hsync
      exact absurd rfl (hsync _ _)
    | released hpin hdesired => exact ⟨.released hpin hdesired, fun _ => hpin, .inl rfl⟩

theorem Releasing.run {runs : List ReleaseController}
    (h : Releasing pin untilVersion best spc) (hrun : ReleaseRun cluster channel best runs spc spc') :
    Releasing pin untilVersion best spc' ∧ (.forced ∈ runs → spc'.pinnedVersion = {}) := by
  induction hrun with
  | nil spc => exact ⟨h, fun hforced => by cases hforced⟩
  | snoc _ hstep ih =>
    obtain ⟨h', hpin⟩ := ih h
    obtain ⟨h'', hnone, -⟩ := h'.step hgroup hchannel hexact hpolicy hreached hstep
    refine ⟨h'', fun hforced => ?_⟩
    rcases List.mem_append.mp hforced with hforced | hforced
    · exact hnone (.inr (hpin hforced))
    · exact hnone (.inl (List.mem_singleton.mp hforced).symm)

end

/-! ## A pin that holds -/

omit hgroup hchannel in
theorem releases_of_held {pinned : PinnedVersion V}
    (h : ∀ untilVersion, pinned.untilExactVersion = some untilVersion → gt untilVersion best = true) :
    releases pinned (some best) = none := by
  unfold releases
  rw [Option.filter_eq_none_iff]
  rintro _ ⟨⟩ hreaches
  obtain ⟨untilVersion, huntil, hgte⟩ := (Option.any_eq_true _ _).mp hreaches
  rw [← lte_iff_gte, lte, h untilVersion huntil] at hgte
  cases hgte

/-- One run keeps the pin, and changes the desired version only to the pinned one. -/
theorem holding_step (hpin : spc.pinnedVersion.exactVersion = some pin)
    (hheld : ∀ untilVersion, spc.pinnedVersion.untilExactVersion = some untilVersion →
      gt untilVersion best = true) {controller : ReleaseController}
    (hstep : ReleaseStep cluster channel best controller spc spc') :
    spc'.pinnedVersion = spc.pinnedVersion ∧ (spc' = spc ∨ spc'.desiredVersion = some pin ∧
      ∀ d, spc.desiredVersion = some d → eq d pin = false) := by
  cases hstep with
  | passedOver => exact ⟨rfl, .inl rfl⟩
  | assigned config select input hselect _ hrollout hbest hassigned =>
    obtain ⟨heligible, -⟩ := assigned_pair hselect hrollout hbest hassigned
    -- a held pin makes the cluster ineligible
    rcases heligible.pin with hnone | ⟨untilVersion, huntil, hreached⟩
    · rw [hpin] at hnone
      cases hnone
    · rw [lte, hheld untilVersion huntil] at hreached
      cases hreached
  | replaced hspc hcluster hrollout hbest hsync =>
    rw [forcedSyncOnce_pinned hspc hcluster hpin hgroup (hchannel ▸ hrollout) hbest,
      releases_of_held hheld] at hsync
    split_ifs at hsync with hnew
    obtain ⟨rfl, -⟩ := Sync.replace.inj hsync
    refine ⟨setDesiredVersion_pinnedVersion _ _ _, .inr ⟨?_, ?_⟩⟩
    · show (setDesiredVersion spc pin _).desiredVersion = some pin
      rw [setDesiredVersion_of_new (.inl hnew)]
    · intro d hd
      simpa [hd] using hnew
  | left => exact ⟨rfl, .inl rfl⟩

theorem holding_run (hpin : spc.pinnedVersion.exactVersion = some pin)
    (hheld : ∀ untilVersion, spc.pinnedVersion.untilExactVersion = some untilVersion →
      gt untilVersion best = true) {runs : List ReleaseController}
    (hrun : ReleaseRun cluster channel best runs spc spc') :
    spc'.pinnedVersion = spc.pinnedVersion ∧
      (spc'.desiredVersion = spc.desiredVersion ∨ spc'.desiredVersion = some pin) := by
  induction hrun with
  | nil spc => exact ⟨rfl, .inl rfl⟩
  | snoc _ hstep ih =>
    obtain ⟨hkept, hdesired⟩ := ih hpin hheld
    obtain ⟨hkept', hmoved⟩ := holding_step hgroup hchannel (hkept ▸ hpin) (hkept ▸ hheld) hstep
    refine ⟨hkept'.trans hkept, ?_⟩
    rcases hmoved with rfl | ⟨hmoved, -⟩
    · exact hdesired
    · exact .inr hmoved

end

/-! ## The order of the runs -/

/-- A pin whose threshold the best version has reached ends at the best version without a pin after
any runs among which is one of the forced assignment, and no run lowers the desired version on the
way; a pin that holds is kept by every run, and none moves the cluster off the pinned version. -/
theorem pin_release_orderIndependent (cluster : Cluster V) (best pin d : V)
    (spc : ServiceProviderCluster V) (hgroup : cluster.channelGroup ≠ "")
    (hexact : cluster.controlPlaneExactVersion = none)
    (hpolicy : cluster.zStreamUpdatePolicy ≠ immediateZStreamUpdatePolicy)
    (hpin : spc.pinnedVersion.exactVersion = some pin) (hdesired : spc.desiredVersion = some d)
    (hbelow : lt d best = true) :
    (∀ untilVersion, spc.pinnedVersion.untilExactVersion = some untilVersion →
      lte untilVersion best = true → ∀ runs spc',
      ReleaseRun cluster (yStreamChannel cluster.channelGroup (minorString pin)) best runs spc spc' →
        (.forced ∈ runs → spc'.desiredVersion = some best ∧ spc'.pinnedVersion = {}) ∧
        ∀ controller spc'', ReleaseStep cluster
          (yStreamChannel cluster.channelGroup (minorString pin)) best controller spc' spc'' →
          ∃ d' d'', spc'.desiredVersion = some d' ∧ spc''.desiredVersion = some d'' ∧
            lte d' d'' = true) ∧
    ((∀ untilVersion, spc.pinnedVersion.untilExactVersion = some untilVersion →
      gt untilVersion best = true) → ∀ runs spc',
      ReleaseRun cluster (yStreamChannel cluster.channelGroup (minorString pin)) best runs spc spc' →
        spc'.pinnedVersion = spc.pinnedVersion ∧
        (spc'.desiredVersion = some d ∨ spc'.desiredVersion = some pin) ∧
        ∀ controller spc'', ReleaseStep cluster
          (yStreamChannel cluster.channelGroup (minorString pin)) best controller spc' spc'' →
          ∀ d', spc'.desiredVersion = some d' → eq d' pin = true →
            spc''.desiredVersion = some d') := by
  refine ⟨?_, ?_⟩
  · intro untilVersion huntil hreached runs spc' hrun
    have hstart : Releasing pin untilVersion best spc := by
      refine .pinned ?_ (.inr ⟨d, hdesired, hbelow⟩)
      rw [← hpin, ← huntil]
    obtain ⟨h, hforced⟩ := hstart.run hgroup rfl hexact hpolicy hreached hrun
    refine ⟨?_, ?_⟩
    · intro hmem
      cases h with
      | pinned hpin' =>
        rw [hforced hmem] at hpin'
        cases hpin'
      | released hpin' hdesired' => exact ⟨hdesired', hpin'⟩
    · intro controller spc'' hstep
      obtain ⟨-, -, hmoved⟩ := h.step hgroup rfl hexact hpolicy hreached hstep
      obtain ⟨d', hd'⟩ : ∃ d', spc'.desiredVersion = some d' :=
        h.desired.elim (fun h => ⟨_, h⟩) fun ⟨d', h, _⟩ => ⟨d', h⟩
      rcases hmoved with hsame | hbest
      · exact ⟨d', d', hd', hsame.trans hd', lte_self d'⟩
      · refine ⟨d', best, hd', hbest, ?_⟩
        rcases h.desired with hat | ⟨b, hb, hlt⟩
        · rw [hd'] at hat
          cases hat
          exact lte_self _
        · rw [hd'] at hb
          cases hb
          exact lte_of_lt hlt
  · intro hheld runs spc' hrun
    obtain ⟨hkept, hmoved⟩ := holding_run hgroup rfl hpin hheld hrun
    refine ⟨hkept, hdesired ▸ hmoved, ?_⟩
    intro controller spc'' hstep d' hd' heq
    obtain ⟨-, rfl | ⟨-, hother⟩⟩ := holding_step hgroup rfl (hkept ▸ hpin) (hkept ▸ hheld) hstep
    · exact hd'
    · rw [hother d' hd'] at heq
      cases heq

/-! A pin at 4.20.1 until 4.20.3, which the rollout of the channel has reached. -/

def releasingSample : ServiceProviderCluster Release :=
  { sampleMember "a" with pinnedVersion := ⟨some ⟨4, 20, 1⟩, some ⟨4, 20, 3⟩⟩ }

def releasingSync : SyncInput Release :=
  { sampleSync with
    clusters := [sampleCluster "a"]
    serviceProviderClusters := [releasingSample]
    assignment := fun _ => .stored }

def advancedSample : ServiceProviderCluster Release :=
  { releasingSample with
    desiredVersion := some ⟨4, 20, 3⟩
    desiredVersionLastTransitionTime := some (10 * hour) }

def releasingView : ClusterView Release where
  serviceProviderCluster := .ok advancedSample
  cluster := .ok (sampleCluster "a")
  rollout _ := .ok pinnedRollout
  nodePools := .ok []
  serviceProviderNodePool _ := .error .notFound

/-- The progressive rollout advances the cluster and the forced assignment then removes the pin. -/
theorem pin_release_orderIndependent_zStreamFirst :
    ∃ spc', ReleaseRun (sampleCluster "a") "stable-4.20" ⟨4, 20, 3⟩ [.zStream, .forced]
      releasingSample spc' ∧ spc'.desiredVersion = some ⟨4, 20, 3⟩ ∧ spc'.pinnedVersion = {} := by
  have hassigned : (releasingSample, advancedSample) ∈
      (syncOnce defaultRolloutConfig sampleSelector releasingSync).assigned := by decide +kernel
  have hzStream : ReleaseStep (sampleCluster "a") "stable-4.20" ⟨4, 20, 3⟩ .zStream releasingSample
      advancedSample :=
    .assigned defaultRolloutConfig sampleSelector releasingSync
      (randomClusterSelector_subset List.range) rfl rfl rfl hassigned
  have hsync : forcedSyncOnce "a" releasingView (11 * hour) =
      .replace { advancedSample with pinnedVersion := {} }
        "failed to replace ServiceProviderCluster" := by rfl
  have hrollout : releasingView.rollout "stable-4.20" = .ok pinnedRollout := rfl
  have hforced : ReleaseStep (sampleCluster "a") "stable-4.20" ⟨4, 20, 3⟩ .forced advancedSample
      { advancedSample with pinnedVersion := {} } := .replaced rfl rfl hrollout rfl hsync
  have hrun := ReleaseRun.snoc (ReleaseRun.snoc (.nil releasingSample) hzStream) hforced
  have hchannel : yStreamChannel (sampleCluster "a").channelGroup
      (minorString (⟨4, 20, 1⟩ : Release)) = "stable-4.20" := by decide +kernel
  have hends := (pin_release_orderIndependent (sampleCluster "a") ⟨4, 20, 3⟩ ⟨4, 20, 1⟩ ⟨4, 20, 1⟩
    releasingSample (by decide) rfl (by decide) rfl rfl (by decide)).1 ⟨4, 20, 3⟩ rfl (by decide)
    _ _ (hchannel ▸ hrun)
  exact ⟨_, hrun, hends.1 (by decide)⟩

end AroHcp.Rollout
