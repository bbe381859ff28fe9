import AroHcp.Version.Upgrade
import Mathlib.Data.List.ReduceOption

/-! The version skew policy over runs of the upgrade state machine: where it breaks, and the runs
in which it holds. -/

namespace AroHcp.Version

open Rollout SemVer

variable {V : Type} [SemVer V]

/-- A node pool at `n` may run with a control plane at `c`: it is not ahead, and it is at most two
minors behind or listed for the line of `c`. -/
def Compatible (n c : V) : Prop :=
  LineLe n c ∧ (major n = major c ∧ minor c ≤ minor n + 2 ∨
    minorString c ∈ (allowControlPlaneNodePoolMajorVersionSkew.lookup (minorString n)).getD [])

instance (n c : V) : Decidable (Compatible n c) :=
  inferInstanceAs (Decidable (_ ∧ (_ ∨ _)))

/-- Every stored node pool version may run with every active control plane version. -/
def SkewPolicy (s : State V) : Prop :=
  ∀ pool ∈ s.pools, ∀ n, pool.serviceProviderNodePool.desiredVersion = some n →
    ∀ active ∈ s.serviceProviderCluster.activeVersions, ∀ c, active.version = some c →
      Compatible n c

def Pool.versions (pool : Pool V) : List V :=
  pool.serviceProviderNodePool.desiredVersion.toList ++
    pool.serviceProviderNodePool.activeVersions.reduceOption

def State.activeVersions (s : State V) : List V :=
  (s.serviceProviderCluster.activeVersions.map ActiveVersion.version).reduceOption

/-- A version is assigned to the cluster only if it is compatible with those of all node pools. One
is stored for a node pool only if it is with the cluster's desired version, and with the active ones
if it is of another major than the highest of them. -/
def careful (s : State V) : Action V → Bool
  | .assignMinorUpgrade rollout now =>
    (step s (.assignMinorUpgrade rollout now)).all fun s' =>
      s'.serviceProviderCluster.desiredVersion.all fun target =>
        s.pools.all fun pool => pool.versions.all fun n => Compatible n target
  | .storeNodePoolVersion i _ _ =>
    (s.pools[i]?).all fun pool => (parse pool.nodePool.versionID).toOption.all fun n =>
      (s.serviceProviderCluster.desiredVersion.all fun desired => Compatible n desired) &&
        (findLowestAndHighestClusterVersion s.serviceProviderCluster.activeVersions).2.all
          fun highest => major n = major highest || s.activeVersions.all fun c => Compatible n c
  | _ => true

def run (s : State V) : List (Action V) → Option (State V)
  | [] => some s
  | action :: rest => (step s action).bind fun s => run s rest

def carefulRun (s : State V) : List (Action V) → Bool
  | [] => true
  | action :: rest => careful s action && (step s action).all fun s' => carefulRun s' rest

/-! ## The validated bounds -/

theorem Compatible.of_line_eq {m n c : V} (hmajor : major m = major n) (hminor : minor m = minor n)
    (h : Compatible n c) : Compatible m c := by
  unfold Compatible LineLe minorString at *
  rw [hmajor, hminor]
  exact h

/-- The bounds enclose the release lines of the active versions. -/
theorem findLowestAndHighestVersion_spec {versions : List (Option V)} {v : V}
    (hv : v ∈ versions.reduceOption) :
    ∃ low high, findLowestAndHighestVersion versions = (some low, some high) ∧
      LineLe low v ∧ LineLe v high := by
  obtain ⟨low, hlow, hle⟩ := exists_outermost (R := LineLe) (fun _ _ _ => LineLe.trans)
    (fun _ _ => lineLe_of_lt) (fun _ _ => lineLe_of_not_lt) hv
  obtain ⟨high, hhigh, hge⟩ := exists_outermost (R := fun a b => LineLe b a)
    (fun _ _ _ hab hbc => LineLe.trans hbc hab)
    (fun a b h => lineLe_of_lt (gt_iff_lt a b ▸ h))
    (fun a b h => lineLe_of_not_lt (gt_iff_lt a b ▸ h)) hv
  exact ⟨low, high, Prod.ext hlow hhigh, hle, hge⟩

/-- An accepted version runs on the node pool already, or is not ahead of the lowest control plane
version and at most two minors behind the highest one of the same major. -/
theorem validateNodePoolVersionChange_eq_none {n : V} {activeVersions : List (Option V)}
    {lowest highest : Option V} {allowMajorUpgrade : Bool}
    (h : validateNodePoolVersionChange n activeVersions lowest highest allowMajorUpgrade = none) :
    (∃ active ∈ activeVersions.reduceOption, eq active n = true) ∨
      ∃ low high, lowest = some low ∧ highest = some high ∧ LineLe n low ∧
        (major n = major high → minor high ≤ minor n + 2) := by
  unfold validateNodePoolVersionChange nodePoolChange at h
  split_ifs at h with hactive
  · left
    obtain ⟨entry, hentry, hany⟩ := List.any_eq_true.mp hactive
    obtain ⟨active, rfl, heq⟩ := (Option.any_eq_true _ _).mp hany
    exact ⟨active, List.reduceOption_mem_iff.mpr hentry, heq⟩
  · right
    split at h
    · cases h
    · cases h
    rename_i low high
    refine ⟨low, high, rfl, rfl, ?_⟩
    unfold nodePoolChangeAgainst at h
    split_ifs at h with hahead hbehind hother <;> (unfold LineLe; omega)

/-! ## The invariant -/

/-- All versions on both sides are compatible, those not yet adopted included. -/
def SkewInvariant (s : State V) : Prop :=
  ∀ pool ∈ s.pools, ∀ n ∈ pool.versions,
    (∀ desired, s.serviceProviderCluster.desiredVersion = some desired → Compatible n desired) ∧
      ∀ c ∈ s.activeVersions, Compatible n c

variable {s : State V}

theorem SkewInvariant.skewPolicy (h : SkewInvariant s) : SkewPolicy s := by
  intro pool hpool n hn active hactive c hc
  apply (h pool hpool n (by simp [Pool.versions, hn])).2
  exact List.reduceOption_mem_iff.mpr (hc ▸ List.mem_map_of_mem hactive)

theorem SkewInvariant.of_subset {s' : State V} (h : SkewInvariant s)
    (hpools : ∀ pool ∈ s'.pools, ∀ n ∈ pool.versions, ∃ old ∈ s.pools, n ∈ old.versions)
    (hdesired : s'.serviceProviderCluster.desiredVersion = s.serviceProviderCluster.desiredVersion)
    (hactive : ∀ c ∈ s'.activeVersions, c ∈ s.activeVersions ∨
      s.serviceProviderCluster.desiredVersion = some c) : SkewInvariant s' := by
  intro pool hpool n hn
  obtain ⟨old, hold, hmem⟩ := hpools pool hpool n hn
  obtain ⟨hcompatible, hall⟩ := h old hold n hmem
  refine ⟨fun desired hd => hcompatible desired (hdesired ▸ hd), ?_⟩
  intro c hc
  rcases hactive c hc with hknown | hadopted
  · exact hall c hknown
  · exact hcompatible c hadopted

omit [SemVer V] in
theorem State.changePool_eq_some {s' : State V} {i : Nat} {f : Pool V → Option (Pool V)}
    (h : s.changePool i f = some s') :
    ∃ pool pool', s.pools[i]? = some pool ∧ f pool = some pool' ∧
      s' = { s with pools := s.pools.set i pool' } := by
  obtain ⟨pool, hpool, hrest⟩ := Option.bind_eq_some_iff.mp h
  obtain ⟨pool', hpool', rfl⟩ := Option.map_eq_some_iff.mp hrest
  exact ⟨pool, pool', hpool, hpool', rfl⟩

variable {pool : Pool V}

theorem SkewInvariant.set (h : SkewInvariant s) (i : Nat) (hpool : ∀ n ∈ pool.versions,
      (∀ desired, s.serviceProviderCluster.desiredVersion = some desired → Compatible n desired) ∧
        ∀ c ∈ s.activeVersions, Compatible n c) :
    SkewInvariant { s with pools := s.pools.set i pool } := by
  intro changed hchanged
  rcases List.mem_or_eq_of_mem_set hchanged with hold | rfl
  · exact h changed hold
  · exact hpool

theorem SkewInvariant.changePool {s' : State V} {i : Nat} {f : Pool V → Option (Pool V)}
    (h : SkewInvariant s) (hchange : s.changePool i f = some s')
    (hf : ∀ pool pool', f pool = some pool' → pool'.versions ⊆ pool.versions) :
    SkewInvariant s' := by
  obtain ⟨pool, pool', hpool, hpool', rfl⟩ := State.changePool_eq_some hchange
  apply h.set
  intro n hn
  exact h pool (List.mem_of_getElem? hpool) n (hf pool pool' hpool' hn)

omit [SemVer V] in
theorem Pool.versions_move {desired : V}
    (h : pool.serviceProviderNodePool.desiredVersion = some desired) :
    (pool.setActiveVersions
      (some desired :: pool.serviceProviderNodePool.activeVersions)).versions ⊆ pool.versions := by
  intro n hn
  simp only [Pool.versions, Pool.setActiveVersions, h, List.reduceOption_cons_of_some] at hn ⊢
  simp_all

omit [SemVer V] in
theorem Pool.versions_settle {newest : Option V}
    (h : pool.serviceProviderNodePool.activeVersions.head? = some newest) :
    (pool.setActiveVersions [newest]).versions ⊆ pool.versions := by
  intro n hn
  have hmem := List.mem_of_mem_head? h
  simp only [Pool.versions, Pool.setActiveVersions, List.mem_append,
    List.reduceOption_mem_iff] at hn ⊢
  refine hn.imp id ?_
  intro heq
  rw [List.mem_singleton] at heq
  exact heq ▸ hmem

/-! ## Steps -/

theorem compatible_of_validated (h : SkewInvariant s) (hpool : pool ∈ s.pools) {n : V}
    {experimentalFeaturesEnabled : Bool}
    (hvalid : validateNodePoolVersionChange n pool.serviceProviderNodePool.activeVersions
      (findLowestAndHighestClusterVersion s.serviceProviderCluster.activeVersions).1
      (findLowestAndHighestClusterVersion s.serviceProviderCluster.activeVersions).2
      experimentalFeaturesEnabled = none) (hother : ∀ highest,
      (findLowestAndHighestClusterVersion s.serviceProviderCluster.activeVersions).2 =
        some highest → major n ≠ major highest → ∀ c ∈ s.activeVersions, Compatible n c) :
    ∀ c ∈ s.activeVersions, Compatible n c := by
  intro c hc
  rcases validateNodePoolVersionChange_eq_none hvalid with
    ⟨active, hactive, heq⟩ | ⟨low, high, hlow, hhigh, hahead, hbehind⟩
  · -- the node pool runs the version already
    obtain ⟨hmajor, hminor⟩ := line_eq_of_eq heq
    have hcompatible := (h pool hpool active (List.mem_append_right _ hactive)).2 c hc
    exact hcompatible.of_line_eq hmajor.symm hminor.symm
  · obtain ⟨low', high', hbounds, hlowC, hhighC⟩ := findLowestAndHighestVersion_spec hc
    change findLowestAndHighestClusterVersion _ = _ at hbounds
    rw [hbounds] at hlow hhigh
    cases hlow
    cases hhigh
    by_cases hmajor : major n = major high
    · have hle := hahead.trans hlowC
      refine ⟨hle, .inl ?_⟩
      unfold LineLe at hle hhighC
      omega
    · exact hother high (by rw [hbounds]) hmajor c hc

theorem compatible_of_store (h : SkewInvariant s) {i : Nat} {pool' : Pool V}
    {subscription : Read Bool} {cincinnati : CincinnatiAnswer}
    (hcareful : careful s (.storeNodePoolVersion i subscription cincinnati) = true)
    (hpool : s.pools[i]? = some pool)
    (hstore : pool.store s.serviceProviderCluster subscription cincinnati = some pool') :
    ∀ n ∈ pool'.versions,
      (∀ desired, s.serviceProviderCluster.desiredVersion = some desired → Compatible n desired) ∧
        ∀ c ∈ s.activeVersions, Compatible n c := by
  have hmem := List.mem_of_getElem? hpool
  unfold Pool.store at hstore
  split at hstore
  · rename_i version hsync
    cases hstore
    obtain ⟨hparse, enabled, hvalid⟩ := nodePoolVersionSyncOnce_store hsync
    simp only [careful, hpool, hparse, Option.all_some, Except.toOption, Bool.and_eq_true,
      Option.all_eq_true, Bool.or_eq_true, List.all_eq_true, decide_eq_true_eq] at hcareful
    obtain ⟨hdesired, hother⟩ := hcareful
    intro n hn
    rcases List.mem_append.mp hn with hnew | hold
    · have hversion : n = version := by simpa using hnew
      subst hversion
      refine ⟨hdesired, compatible_of_validated h hmem hvalid ?_⟩
      intro highest hhighest hmajor
      exact (hother highest hhighest).resolve_left hmajor
    · exact h pool hmem n (List.mem_append_right _ hold)
  · cases hstore

theorem setDesiredVersion_activeVersions (spc : ServiceProviderCluster V) (version : V)
    (now : Time) : (setDesiredVersion spc version now).activeVersions = spc.activeVersions := by
  unfold setDesiredVersion
  split_ifs <;> rfl

theorem SkewInvariant.step {s' : State V} {action : Action V} (h : SkewInvariant s)
    (hcareful : careful s action = true) (hstep : step s action = some s') : SkewInvariant s' := by
  cases action with
  | updateCluster version channels sources =>
    unfold Version.step at hstep
    dsimp only at hstep
    split_ifs at hstep
    cases hstep
    exact h
  | assignMinorUpgrade rollout now =>
    have hassigned := hstep
    unfold Version.step at hstep
    dsimp only at hstep
    split at hstep
    · rename_i replacement failure hsync
      cases hstep
      obtain ⟨spc, -, best, hspc, -, -, -, rfl⟩ := minorUpgradeSyncOnce_replace hsync
      cases hspc
      simp only [careful, hassigned, Option.all_some, Option.all_eq_true, List.all_eq_true,
        decide_eq_true_eq] at hcareful
      intro pool hpool n hn
      refine ⟨fun target htarget => hcareful target htarget pool hpool n hn, ?_⟩
      intro c hc
      apply (h pool hpool n hn).2
      unfold State.activeVersions at hc ⊢
      rwa [setDesiredVersion_activeVersions] at hc
    · cases hstep
  | adopt now =>
    obtain ⟨desired, hdesired, rfl⟩ := Option.map_eq_some_iff.mp hstep
    refine h.of_subset (fun pool hpool n hn => ⟨pool, hpool, hn⟩) rfl ?_
    intro c hc
    rcases List.mem_cons.mp hc with rfl | hold
    · exact .inr hdesired
    · exact .inl hold
  | settle =>
    obtain ⟨newest, hnewest, rfl⟩ := Option.map_eq_some_iff.mp hstep
    refine h.of_subset (fun pool hpool n hn => ⟨pool, hpool, hn⟩) rfl ?_
    intro c hc
    left
    unfold State.activeVersions at hc ⊢
    rw [List.reduceOption_mem_iff] at hc ⊢
    have hversion : newest.version = some c := by
      simpa [State.setActiveVersions, eq_comm] using hc
    exact hversion ▸ List.mem_map_of_mem (List.mem_of_mem_head? hnewest)
  | createNodePool name id enabled =>
    unfold Version.step at hstep
    dsimp only at hstep
    split_ifs at hstep
    cases hstep
    refine h.of_subset ?_ rfl fun c hc => .inl hc
    intro pool hpool n hn
    rcases List.mem_append.mp hpool with hold | hnew
    · exact ⟨pool, hold, hn⟩
    · rw [List.mem_singleton] at hnew
      subst hnew
      cases hn
  | updateNodePool i id enabled =>
    refine h.changePool hstep fun pool pool' hpool => ?_
    unfold Pool.update at hpool
    split_ifs at hpool
    cases hpool
    exact List.Subset.refl _
  | storeNodePoolVersion i subscription cincinnati =>
    obtain ⟨pool, pool', hpool, hpool', rfl⟩ := State.changePool_eq_some hstep
    exact h.set i (compatible_of_store h hcareful hpool hpool')
  | moveNodePool i =>
    refine h.changePool hstep fun pool pool' hpool => ?_
    obtain ⟨desired, hdesired, rfl⟩ := Option.map_eq_some_iff.mp hpool
    exact Pool.versions_move hdesired
  | settleNodePool i =>
    refine h.changePool hstep fun pool pool' hpool => ?_
    obtain ⟨newest, hnewest, rfl⟩ := Option.map_eq_some_iff.mp hpool
    exact Pool.versions_settle hnewest

/-- The skew policy holds in every state reached from a cluster without node pools by steps that
assign and store only versions compatible with those on the other side that are not active yet. -/
theorem skew_policy_of_carefulRun {start s : State V} {actions : List (Action V)}
    (hstart : start.pools = []) (hcareful : carefulRun start actions = true)
    (hrun : run start actions = some s) : SkewPolicy s := by
  have hinvariant : SkewInvariant start := by
    intro pool hpool
    rw [hstart] at hpool
    cases hpool
  clear hstart
  apply SkewInvariant.skewPolicy
  induction actions generalizing start with
  | nil =>
    cases hrun
    exact hinvariant
  | cons action rest ih =>
    obtain ⟨next, hnext, hrest⟩ := Option.bind_eq_some_iff.mp hrun
    rw [carefulRun, hnext, Option.all_some, Bool.and_eq_true] at hcareful
    exact ih hcareful.2 hrest (hinvariant.step hcareful.1 hnext)

/-! ## A cluster at 4.22 -/

def clusterAt422 : State Release where
  cluster := ⟨some "/clusters/a", none, "stable", "4.22", none, ""⟩
  serviceProviderCluster :=
    { resourceID := none
      desiredVersion := some ⟨4, 22, 5⟩
      desiredVersionLastTransitionTime := some hour
      pinnedVersion := {}
      activeVersions := [⟨some ⟨4, 22, 5⟩, .completed, hour⟩] }
  pools := []

def rollout423 (channel : String) : Read (ControlPlaneVersionRollout Release) :=
  if channel = "stable-4.23" then .ok ⟨some ⟨4, 23, 3⟩, none⟩ else .error .notFound

def upgradeTo423 : List (Action Release) :=
  [.updateCluster ⟨"4.23", "stable"⟩ [] none, .assignMinorUpgrade rollout423 (2 * hour)]

def addNodePool (id : String) : List (Action Release) :=
  [.createNodePool "workers" id false, .storeNodePoolVersion 0 (.ok false) .found]

def workersAt420 : Pool Release :=
    ⟨{ name := "workers", versionID := "4.20.9" }, ⟨some ⟨4, 20, 9⟩, []⟩⟩

def skewedState : State Release where
  cluster := { clusterAt422.cluster with versionID := "4.23" }
  serviceProviderCluster :=
    { clusterAt422.serviceProviderCluster with
      desiredVersion := some ⟨4, 23, 3⟩
      desiredVersionLastTransitionTime := some (2 * hour)
      activeVersions := ⟨some ⟨4, 23, 3⟩, .other "Partial", 3 * hour⟩ ::
        clusterAt422.serviceProviderCluster.activeVersions }
  pools := [workersAt420]

/-- A node pool at 4.20 is admitted while the assigned 4.23 is not active yet; once the control
plane adopts it, the node pool is three minors behind. -/
theorem skew_policy_violated :
    clusterAt422.pools = [] ∧ clusterAt422.serviceProviderCluster.pinnedVersion = {} ∧
      clusterAt422.cluster.controlPlaneExactVersion = none ∧
      run clusterAt422 (upgradeTo423 ++ addNodePool "4.20.9" ++ [.adopt (3 * hour)]) =
        some skewedState ∧ ¬SkewPolicy skewedState := by
  refine ⟨rfl, rfl, rfl, by decide +kernel, ?_⟩
  intro h
  have hcompatible := h workersAt420 (List.mem_singleton_self _) ⟨4, 20, 9⟩ rfl
    ⟨some ⟨4, 23, 3⟩, .other "Partial", 3 * hour⟩ List.mem_cons_self ⟨4, 23, 3⟩ rfl
  exact absurd hcompatible (by decide +kernel)

/-- With a node pool at 4.21 the same upgrade keeps the policy. -/
theorem skew_policy_of_carefulRun_upgrade :
    let actions := addNodePool "4.21.9" ++ [.moveNodePool 0] ++ upgradeTo423 ++ [.adopt (3 * hour)]
    ∃ s, run clusterAt422 actions = some s ∧ s.pools.length = 1 ∧
      s.serviceProviderCluster.activeVersions.length = 2 ∧ SkewPolicy s := by
  intro actions
  have hcareful : carefulRun clusterAt422 actions = true := by decide +kernel
  have hreached : ((run clusterAt422 actions).map fun s =>
      (s.pools.length, s.serviceProviderCluster.activeVersions.length)) = some (1, 2) := by
    decide +kernel
  obtain ⟨s, hrun, hlengths⟩ := Option.map_eq_some_iff.mp hreached
  exact ⟨s, hrun, congrArg Prod.fst hlengths, congrArg Prod.snd hlengths,
    skew_policy_of_carefulRun rfl hcareful hrun⟩

end AroHcp.Version
