import AroHcp.Rollout.Assignment

/-! The active versions of a control plane, as the controller derives them from the version history
of the hosted cluster and stores them with the time since when each is in its state. The age of the
completed version decides whether a rollout counts the cluster as ready. -/

namespace AroHcp.Version

open Rollout SemVer

/-! ## Documents -/

structure HistoryEntry where
  version : String
  state : UpdateState
deriving DecidableEq, Repr

structure ClusterVersionStatus where
  history : List HistoryEntry
  desiredChannels : List String
deriving DecidableEq, Repr

structure HostedClusterStatus where
  controlPlaneHistory : List HistoryEntry
  version : Option ClusterVersionStatus
deriving DecidableEq, Repr

/-- The fields of a `ServiceProviderCluster` status that the controller writes. -/
structure VersionStatus (V : Type) where
  activeVersions : List (ActiveVersion V)
  desiredVersionChannels : List String
deriving DecidableEq, Repr

/-- The fields of the customer's cluster document that the controller reads or writes. -/
structure CustomerCluster where
  deletionTimestamp : Option Time
  activeVersions : List String
deriving DecidableEq, Repr

variable {V : Type} [SemVer V]

/-! ## The controller -/

/-- All parseable versions until the first completed one. -/
def activeVersionsFromHistory : List HistoryEntry → List (ActiveVersion V)
  | [] => []
  | entry :: rest =>
    match parse entry.version with
    | .error _ => activeVersionsFromHistory rest
    | .ok version =>
      ⟨some version, entry.state, 0⟩ ::
        if entry.state = .completed then [] else activeVersionsFromHistory rest

def getHostedClusterActiveVersions (hostedCluster : HostedClusterStatus) : List (ActiveVersion V) :=
  if hostedCluster.controlPlaneHistory ≠ [] then
    activeVersionsFromHistory hostedCluster.controlPlaneHistory
  else match hostedCluster.version with
    | none => []
    | some version => activeVersionsFromHistory version.history

def carriesTime (old new : ActiveVersion V) : Bool :=
  (old.version.any fun v => new.version.any fun w => eq v w) && old.state = new.state &&
    old.lastTransitionTime ≠ 0

def mergeActiveVersionLastTransitionTimes (oldVersions newVersions : List (ActiveVersion V))
    (now : Time) : List (ActiveVersion V) :=
  newVersions.map fun new =>
    { new with lastTransitionTime :=
        ((oldVersions.find? fun old => carriesTime old new).map
          ActiveVersion.lastTransitionTime).getD now }

def getHostedClusterDesiredVersionChannels (hostedCluster : HostedClusterStatus) : List String :=
  match hostedCluster.version with
  | none => []
  | some version => version.desiredChannels

def hcpClusterActiveVersionFromServiceProviderActiveVersions
    (activeVersions : List (ActiveVersion V)) : List String :=
  (activeVersions.filterMap fun active => active.version.map minorString).eraseDups

/-- What the caches, the clock and the database answer to one sync. -/
structure SyncInput (V : Type) where
  cluster : Read CustomerCluster
  hostedCluster : Except String (Option HostedClusterStatus)
  serviceProviderCluster : Read (VersionStatus V)
  now : Time
  serviceProviderClusterWrite : WriteResult
  clusterWrite : WriteResult

structure SyncResult (V : Type) where
  /-- the versions the sync arrives at, if it finds all documents -/
  observed : Option (List (ActiveVersion V)) := none
  /-- the replacements sent to the database -/
  serviceProviderCluster : Option (VersionStatus V) := none
  cluster : Option CustomerCluster := none
  error : Option String := none

variable [DecidableEq V]

/-- The second half of a sync, once all documents are found: each document is replaced where it
differs. -/
def storeActiveVersions (input : SyncInput V) (existingCluster : CustomerCluster)
    (hostedCluster : HostedClusterStatus) (cached : VersionStatus V) : SyncResult V :=
  let newActiveVersions := mergeActiveVersionLastTransitionTimes cached.activeVersions
    (getHostedClusterActiveVersions hostedCluster) input.now
  let replacement : VersionStatus V :=
    ⟨newActiveVersions, getHostedClusterDesiredVersionChannels hostedCluster⟩
  let sent := if cached ≠ replacement then some replacement else none
  let newHCPActiveVersions :=
    hcpClusterActiveVersionFromServiceProviderActiveVersions newActiveVersions
  let result : SyncResult V := { observed := newActiveVersions, serviceProviderCluster := sent }
  match sent, input.serviceProviderClusterWrite with
  | some _, .conflict => result
  | some _, .failed e =>
    { result with error := some s!"failed to replace ServiceProviderCluster: {e}" }
  | _, _ =>
    if existingCluster.activeVersions = newHCPActiveVersions then result
    else
      { result with
        cluster := some { existingCluster with activeVersions := newHCPActiveVersions }
        error := match input.clusterWrite with
          | .failed e => some s!"failed to replace Cluster with active versions: {e}"
          | _ => none }

def syncOnce (input : SyncInput V) : SyncResult V :=
  match input.cluster with
  | .error .notFound => {}
  | .error (.failed e) => { error := some s!"failed to get Cluster: {e}" }
  | .ok existingCluster =>
    if existingCluster.deletionTimestamp.isSome then {}
    else match input.hostedCluster with
      | .error e => { error := some s!"failed to get HostedCluster from ReadDesire: {e}" }
      | .ok none => {}
      | .ok (some hostedCluster) =>
        match input.serviceProviderCluster with
        | .error .notFound => {}
        | .error (.failed e) => { error := some s!"failed to get ServiceProviderCluster: {e}" }
        | .ok cached => storeActiveVersions input existingCluster hostedCluster cached

/-! ## Runs -/

structure Observation (V : Type) where
  time : Time
  versions : List (ActiveVersion V)

/-- The stored document and all observations that reached it, newest first. -/
structure World (V : Type) where
  document : VersionStatus V
  log : List (Observation V)

/-- The effect of a sync. A document read from an outdated cache cannot be replaced: the database
compares its ETag. -/
def World.sync (w : World V) (input : SyncInput V) : World V :=
  let result := syncOnce input
  match result.observed with
  | none => w
  | some versions =>
    if input.serviceProviderCluster.toOption ≠ some w.document then w
    else match result.serviceProviderCluster, input.serviceProviderClusterWrite with
      | none, _ => { w with log := ⟨input.now, versions⟩ :: w.log }
      | some document, .stored => ⟨document, ⟨input.now, versions⟩ :: w.log⟩
      | some _, _ => w

/-- The world after the syncs, from a document without active versions. -/
def World.after (channels : List String) (inputs : List (SyncInput V)) : World V :=
  inputs.foldl World.sync ⟨⟨[], channels⟩, []⟩

/-- The list contains the version as completed. -/
def Observation.hasCompleted (same : V → V → Bool) (v : V) (o : Observation V) : Bool :=
  o.versions.any fun active => active.state = .completed && active.version.any fun w => same w v

/-- When the newest block of observations that all have the completed version began. -/
def blockStart (same : V → V → Bool) (v : V) (log : List (Observation V)) : Option Time :=
  (log.takeWhile fun o => o.hasCompleted same v).getLast?.map Observation.time

/-- At most one stored version is completed, it is the last one, and it has been so since the start
of its block of observations. -/
structure ReadinessAge (same : V → V → Bool) (w : World V) : Prop where
  completed_last : ∀ before active after, w.document.activeVersions = before ++ active :: after →
    active.state = .completed → after = []
  age : ∀ active ∈ w.document.activeVersions, active.state = .completed →
    ∃ v, active.version = some v ∧ blockStart same v w.log = some active.lastTransitionTime

/-! ## One observation -/

/-- The shape of a list read from a history: versions throughout, and only the last completed. -/
structure Truncated (versions : List (ActiveVersion V)) : Prop where
  version : ∀ active ∈ versions, active.version ≠ none
  completed_last : ∀ before active after, versions = before ++ active :: after →
    active.state = .completed → after = []

omit [DecidableEq V]

theorem truncated_activeVersionsFromHistory (history : List HistoryEntry) :
    Truncated (activeVersionsFromHistory history : List (ActiveVersion V)) := by
  induction history with
  | nil => exact ⟨by simp [activeVersionsFromHistory], by simp [activeVersionsFromHistory]⟩
  | cons entry rest ih =>
    rw [activeVersionsFromHistory]
    split
    next => exact ih
    next version _ =>
      refine ⟨?_, ?_⟩
      · intro active hactive
        rcases List.mem_cons.mp hactive with rfl | hrest
        · simp
        · split_ifs at hrest
          · exact absurd hrest List.not_mem_nil
          · exact ih.version active hrest
      · intro before active after hsplit hcompleted
        cases before with
        | nil =>
          obtain ⟨rfl, hafter⟩ := List.cons.inj hsplit
          rw [← hafter]
          exact if_pos hcompleted
        | cons first before =>
          obtain ⟨-, hrest⟩ := List.cons.inj hsplit
          split_ifs at hrest
          · simp at hrest
          · exact ih.completed_last before active after hrest hcompleted

theorem truncated_getHostedClusterActiveVersions (hostedCluster : HostedClusterStatus) :
    Truncated (getHostedClusterActiveVersions hostedCluster : List (ActiveVersion V)) := by
  unfold getHostedClusterActiveVersions
  split_ifs
  · exact truncated_activeVersionsFromHistory _
  · split
    next => exact ⟨by simp, by simp⟩
    next => exact truncated_activeVersionsFromHistory _

variable {versions : List (ActiveVersion V)}

theorem Truncated.merge (h : Truncated versions) (old : List (ActiveVersion V)) (now : Time) :
    Truncated (mergeActiveVersionLastTransitionTimes old versions now) := by
  refine ⟨?_, ?_⟩
  · intro active hactive
    obtain ⟨new, hnew, rfl⟩ := List.mem_map.mp hactive
    exact h.version new hnew
  · intro before active after hsplit hcompleted
    obtain ⟨l, r, rfl, -, hr⟩ := List.map_eq_append_iff.mp hsplit
    obtain ⟨new, r', rfl, rfl, rfl⟩ := List.map_eq_cons_iff.mp hr
    rw [h.completed_last l new r' rfl hcompleted, List.map_nil]

/-- The time of a completed version: that of the old list's completed version when the two are
equal, else now. -/
theorem time_of_mem_merge {old : List (ActiveVersion V)} {now : Time} {active : ActiveVersion V}
    {v : V} (hactive : active ∈ mergeActiveVersionLastTransitionTimes old versions now)
    (hcompleted : active.state = .completed) (hv : active.version = some v)
    (htimes : ∀ o ∈ old, o.lastTransitionTime ≠ 0) :
    (∃ o ∈ old, o.state = .completed ∧ (∃ w, o.version = some w ∧ eq w v = true) ∧
        active.lastTransitionTime = o.lastTransitionTime) ∨
      ((∀ o ∈ old, o.state = .completed → ∀ w, o.version = some w → eq w v = false) ∧
        active.lastTransitionTime = now) := by
  obtain ⟨new, hnew, rfl⟩ := List.mem_map.mp hactive
  dsimp only at hcompleted hv ⊢
  cases hfind : old.find? fun o => carriesTime o new with
  | some o =>
    have hcarries := List.find?_some hfind
    simp only [carriesTime, hv, Bool.and_eq_true, decide_eq_true_eq] at hcarries
    obtain ⟨⟨hversion, hstate⟩, -⟩ := hcarries
    obtain ⟨w, hw, heq⟩ := (Option.any_eq_true _ _).mp hversion
    exact .inl ⟨o, List.mem_of_find?_eq_some hfind, hstate.trans hcompleted,
      ⟨w, hw, by simpa using heq⟩, rfl⟩
  | none =>
    refine .inr ⟨?_, rfl⟩
    intro o ho hstate w hw
    have hnot := List.find?_eq_none.mp hfind o ho
    have htime := htimes o ho
    simpa [carriesTime, hw, hv, hstate, hcompleted, htime] using hnot

theorem time_ne_zero_of_mem_merge {old : List (ActiveVersion V)} {now : Time} (hnow : now ≠ 0) :
    ∀ active ∈ mergeActiveVersionLastTransitionTimes old versions now,
      active.lastTransitionTime ≠ 0 := by
  intro active hactive
  obtain ⟨new, -, rfl⟩ := List.mem_map.mp hactive
  cases hfind : old.find? fun o => carriesTime o new with
  | none => exact hnow
  | some o =>
    have hcarries := List.find?_some hfind
    simp only [carriesTime, Bool.and_eq_true, decide_eq_true_eq] at hcarries
    exact hcarries.2

/-! ## Blocks of observations -/

section

variable {same : V → V → Bool} {v : V} {log : List (Observation V)}

omit [SemVer V]

/-- The newest observation lacks the version: there is no block. -/
theorem takeWhile_hasCompleted_eq_nil (h : ∀ o ∈ log.head?, o.hasCompleted same v = false) :
    (log.takeWhile fun o => o.hasCompleted same v) = [] := by
  cases log with
  | nil => rfl
  | cons o rest => simp [h o rfl]

theorem blockStart_cons_of_not (now : Time) (versions : List (ActiveVersion V))
    (hnew : Observation.hasCompleted same v ⟨now, versions⟩ = true)
    (hold : ∀ o ∈ log.head?, o.hasCompleted same v = false) :
    blockStart same v (⟨now, versions⟩ :: log) = some now := by
  rw [blockStart, List.takeWhile_cons_of_pos hnew, takeWhile_hasCompleted_eq_nil hold]
  rfl

/-- A block goes on. -/
theorem blockStart_cons (now : Time) (versions : List (ActiveVersion V)) {start : Time}
    (hnew : Observation.hasCompleted same v ⟨now, versions⟩ = true)
    (hold : blockStart same v log = some start) :
    blockStart same v (⟨now, versions⟩ :: log) = some start := by
  obtain ⟨o, hlast, rfl⟩ := Option.map_eq_some_iff.mp hold
  rw [blockStart, List.takeWhile_cons_of_pos hnew]
  cases hblock : log.takeWhile fun o => o.hasCompleted same v with
  | nil => simp [hblock] at hlast
  | cons first rest =>
    rw [List.getLast?_cons_cons, ← hblock, hlast]
    rfl

end

/-- Blocks of equal versions are the same. -/
theorem blockStart_congr [EqTrans V] {v w : V} (h : eq w v = true) (log : List (Observation V)) :
    blockStart eq w log = blockStart eq v log := by
  have hsame : ∀ u : V, eq u w = eq u v := by
    intro u
    apply Bool.eq_iff_iff.mpr
    refine ⟨fun hu => EqTrans.eq_trans hu h, fun hu => EqTrans.eq_trans hu ?_⟩
    rw [SemVer.eq_comm]
    exact h
  unfold blockStart Observation.hasCompleted
  simp only [hsame]

/-! ## Whole runs -/

/-- What holds after every sync. -/
structure Inv (w : World V) : Prop where
  newest : ∀ o ∈ w.log.head?, o.versions = w.document.activeVersions
  truncated : Truncated w.document.activeVersions
  times : ∀ active ∈ w.document.activeVersions, active.lastTransitionTime ≠ 0
  age : ∀ active ∈ w.document.activeVersions, active.state = .completed →
    ∀ v, active.version = some v → blockStart eq v w.log = some active.lastTransitionTime

theorem Inv.observe [EqTrans V] {w : World V} (h : Inv w) (hostedCluster : HostedClusterStatus)
    {now : Time} (hnow : now ≠ 0) (channels : List String) :
    let versions := mergeActiveVersionLastTransitionTimes w.document.activeVersions
      (getHostedClusterActiveVersions hostedCluster) now
    Inv ⟨⟨versions, channels⟩, ⟨now, versions⟩ :: w.log⟩ := by
  intro versions
  have htruncated : Truncated versions :=
    (truncated_getHostedClusterActiveVersions hostedCluster).merge _ now
  refine ⟨by simp, htruncated, time_ne_zero_of_mem_merge hnow, ?_⟩
  intro active hactive hcompleted v hv
  have hnew : Observation.hasCompleted eq v ⟨now, versions⟩ = true := by
    refine List.any_eq_true.mpr ⟨active, hactive, ?_⟩
    simp [hcompleted, hv, SemVer.eq_self]
  rcases time_of_mem_merge hactive hcompleted hv h.times with
    ⟨o, ho, hstate, ⟨u, hu, heq⟩, htime⟩ | ⟨hnone, htime⟩
  · have hold := h.age o ho hstate u hu
    rw [blockStart_congr heq] at hold
    rw [htime]
    exact blockStart_cons now versions hnew hold
  · rw [htime]
    apply blockStart_cons_of_not now versions hnew
    intro o ho
    rw [Observation.hasCompleted, h.newest o ho, List.any_eq_false]
    intro old hold hmatch
    rw [Bool.and_eq_true, decide_eq_true_eq] at hmatch
    obtain ⟨u, hu, heq⟩ := (Option.any_eq_true _ _).mp hmatch.2
    rw [hnone old hold hmatch.1 u hu] at heq
    cases heq

theorem storeActiveVersions_spec [DecidableEq V] (input : SyncInput V)
    (existingCluster : CustomerCluster) (hostedCluster : HostedClusterStatus)
    (cached : VersionStatus V) :
    let versions := mergeActiveVersionLastTransitionTimes cached.activeVersions
      (getHostedClusterActiveVersions hostedCluster) input.now
    let replacement : VersionStatus V :=
      ⟨versions, getHostedClusterDesiredVersionChannels hostedCluster⟩
    (storeActiveVersions input existingCluster hostedCluster cached).observed = some versions ∧
      (storeActiveVersions input existingCluster hostedCluster cached).serviceProviderCluster =
        if cached ≠ replacement then some replacement else none := by
  intro versions replacement
  unfold storeActiveVersions
  dsimp only
  split
  · exact ⟨rfl, rfl⟩
  · exact ⟨rfl, rfl⟩
  · split_ifs <;> exact ⟨rfl, rfl⟩

/-- A sync that observes anything has found all documents. -/
theorem exists_store_of_observed [DecidableEq V] {input : SyncInput V}
    (h : (syncOnce input).observed = some versions) :
    ∃ existingCluster hostedCluster cached, input.serviceProviderCluster = .ok cached ∧
      syncOnce input = storeActiveVersions input existingCluster hostedCluster cached := by
  unfold syncOnce at h ⊢
  split at h
  next => cases h
  next => cases h
  next existingCluster hcluster =>
    split at h
    next => cases h
    next hactive =>
      split at h
      next => cases h
      next => cases h
      next hostedCluster hhosted =>
        split at h
        next => cases h
        next => cases h
        next cached hcached =>
          refine ⟨existingCluster, hostedCluster, cached, hcached, ?_⟩
          simp [hactive]

/-- A sync that reaches the merge ends with the merged list as document and as observation, or
changes nothing. -/
theorem World.sync_cases [DecidableEq V] (w : World V) (input : SyncInput V) :
    w.sync input = w ∨ ∃ hostedCluster channels,
      let versions := mergeActiveVersionLastTransitionTimes w.document.activeVersions
        (getHostedClusterActiveVersions hostedCluster) input.now
      w.sync input = ⟨⟨versions, channels⟩, ⟨input.now, versions⟩ :: w.log⟩ := by
  cases hobserved : (syncOnce input).observed with
  | none => exact .inl (by simp [World.sync, hobserved])
  | some versions =>
    obtain ⟨existingCluster, hostedCluster, cached, hcached, hsync⟩ :=
      exists_store_of_observed hobserved
    obtain ⟨hversions, hsent⟩ :=
      storeActiveVersions_spec input existingCluster hostedCluster cached
    rw [← hsync] at hversions hsent
    by_cases hfresh : cached = w.document
    · subst hfresh
      set merged := mergeActiveVersionLastTransitionTimes w.document.activeVersions
        (getHostedClusterActiveVersions hostedCluster) input.now
      set channels := getHostedClusterDesiredVersionChannels hostedCluster
      by_cases hsame : w.document = ⟨merged, channels⟩
      · rw [if_neg (not_not.mpr hsame)] at hsent
        refine .inr ⟨hostedCluster, channels, ?_⟩
        simp only [World.sync, hversions, hsent, hcached, Except.toOption, ne_eq, not_true, if_false]
        exact congrArg (World.mk · _) hsame
      · rw [if_pos hsame] at hsent
        cases hwrite : input.serviceProviderClusterWrite with
        | stored =>
          refine .inr ⟨hostedCluster, channels, ?_⟩
          simp [World.sync, hversions, hsent, hcached, hwrite, Except.toOption, merged]
        | conflict =>
          exact .inl (by simp [World.sync, hversions, hsent, hcached, hwrite, Except.toOption])
        | failed e =>
          exact .inl (by simp [World.sync, hversions, hsent, hcached, hwrite, Except.toOption])
    · exact .inl (by simp [World.sync, hversions, hcached, hfresh, Except.toOption])

theorem Inv.sync [DecidableEq V] [EqTrans V] {w : World V} (h : Inv w) {input : SyncInput V}
    (hnow : input.now ≠ 0) : Inv (w.sync input) := by
  rcases w.sync_cases input with hsame | ⟨hostedCluster, channels, hstep⟩
  · rw [hsame]
    exact h
  · rw [hstep]
    exact h.observe hostedCluster hnow channels

theorem inv_after [DecidableEq V] [EqTrans V] (channels : List String)
    {inputs : List (SyncInput V)} (hnow : ∀ input ∈ inputs, input.now ≠ 0) :
    Inv (World.after channels inputs) := by
  have hstart : Inv (⟨⟨[], channels⟩, []⟩ : World V) :=
    ⟨by simp, ⟨by simp, by simp⟩, by simp, by simp⟩
  exact List.foldlRecOn (motive := Inv) _ _ hstart fun w h input hinput => h.sync (hnow input hinput)

/-- After every sequence of syncs, at times other than the zero time, the completed version is the
last stored one and has the age of its block of observations. -/
theorem readiness_age_survives_resyncs [DecidableEq V] [EqTrans V] (channels : List String)
    (inputs : List (SyncInput V)) (hnow : ∀ input ∈ inputs, input.now ≠ 0) :
    ReadinessAge eq (World.after channels inputs) := by
  have h := inv_after channels hnow
  refine ⟨h.truncated.completed_last, ?_⟩
  intro active hactive hcompleted
  obtain ⟨v, hv⟩ := Option.ne_none_iff_exists'.mp (h.truncated.version active hactive)
  exact ⟨v, hv, h.age active hactive hcompleted v hv⟩

def syncOf {W : Type} (document : VersionStatus W) (history : List HistoryEntry) (now : Time) :
    SyncInput W where
  cluster := .ok ⟨none, []⟩
  hostedCluster := .ok (some ⟨history, none⟩)
  serviceProviderCluster := .ok document
  now := now
  serviceProviderClusterWrite := .stored
  clusterWrite := .stored

/-- An upgrade from 4.20.1 to 4.20.2, observed before it starts, twice while it runs, and after. -/
def upgradeSyncs : List (SyncInput Release) :=
  [syncOf ⟨[], []⟩ [⟨"4.20.1", .completed⟩] 1,
    syncOf ⟨[⟨some ⟨4, 20, 1⟩, .completed, 1⟩], []⟩
      [⟨"4.20.2", .other "Partial"⟩, ⟨"4.20.1", .completed⟩] 2,
    syncOf ⟨[⟨some ⟨4, 20, 2⟩, .other "Partial", 2⟩, ⟨some ⟨4, 20, 1⟩, .completed, 1⟩], []⟩
      [⟨"4.20.2", .completed⟩, ⟨"4.20.1", .completed⟩] 3,
    syncOf ⟨[⟨some ⟨4, 20, 2⟩, .completed, 3⟩], []⟩
      [⟨"4.20.2", .completed⟩, ⟨"4.20.1", .completed⟩] 4]

theorem readiness_age_survives_upgrade :
    (World.after [] upgradeSyncs).document.activeVersions = [⟨some ⟨4, 20, 2⟩, .completed, 3⟩] ∧
      (World.after [] upgradeSyncs).log.map Observation.time = [4, 3, 2, 1] ∧
      ReadinessAge eq (World.after [] upgradeSyncs) :=
  ⟨by decide +kernel, by decide +kernel,
    readiness_age_survives_resyncs [] upgradeSyncs (by decide +kernel)⟩

/-- A version first seen at the zero time has no stored time and gets a new one; a version that
differs from the stored one in its build metadata alone keeps the stored time. -/
theorem readiness_age_lost :
    let unset := World.after [] [syncOf ⟨[], []⟩ [⟨"4.20.1", .completed⟩] 0,
      syncOf ⟨[⟨some (⟨4, 20, 1⟩ : Release), .completed, 0⟩], []⟩ [⟨"4.20.1", .completed⟩] 5]
    let rebuilt := World.after [] [syncOf ⟨[], []⟩ [⟨"4.20.1+a", .completed⟩] 1,
      syncOf ⟨[⟨some (⟨⟨4, 20, 1⟩, "a"⟩ : Build), .completed, 1⟩], []⟩
        [⟨"4.20.1+b", .completed⟩] 2]
    unset.log.map Observation.time = [5, 0] ∧ ¬ ReadinessAge eq unset ∧
      rebuilt.log.map Observation.time = [2, 1] ∧
      ¬ ReadinessAge (fun a b : Build => a = b) rebuilt := by
  refine ⟨by decide +kernel, ?_, by decide +kernel, ?_⟩
  · intro h
    obtain ⟨v, hv, hage⟩ := h.age ⟨some ⟨4, 20, 1⟩, .completed, 5⟩ (by decide +kernel) rfl
    cases hv
    revert hage
    decide +kernel
  · intro h
    obtain ⟨v, hv, hage⟩ := h.age ⟨some ⟨⟨4, 20, 1⟩, "b"⟩, .completed, 1⟩ (by decide +kernel) rfl
    cases hv
    revert hage
    decide +kernel

end AroHcp.Version
