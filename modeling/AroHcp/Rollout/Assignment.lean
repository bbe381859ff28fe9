import AroHcp.Rollout.Progressive
import AroHcp.Version.Skew

/-! The controllers that assign a desired version outside of the progressive rollout: the forced,
the initial and the minor upgrade assignment. Each is a function of what its caches answer; it ends
by itself or by one attempt to replace the `ServiceProviderCluster` it read. -/

namespace AroHcp.Rollout

open GoFmt SemVer Version

inductive ReadError where
  | notFound
  | failed (message : String)
deriving DecidableEq, Repr

/-- What a cache answers. -/
abbrev Read (δ : Type) := Except ReadError δ

/-- How a sync ends, before the answer to its write. -/
inductive Sync (V : Type) where
  | done
  | requeueAfter (delay : Int)
  | fail (message : String)
  /-- a replace, with the error text if the database refuses it for another reason than a conflict -/
  | replace (replacement : ServiceProviderCluster V) (failure : String)

/-- The caches of a controller that works on one cluster. -/
structure ClusterView (V : Type) where
  serviceProviderCluster : Read (ServiceProviderCluster V)
  cluster : Read (Cluster V)
  rollout : String → Read (ControlPlaneVersionRollout V)
  nodePools : Read (List NodePool)
  serviceProviderNodePool : String → Read (ServiceProviderNodePool V)

def ReadError.text : ReadError → String
  | .notFound => "not found"
  | .failed message => message

variable {V : Type} [SemVer V]

/-! ## Forced assignment -/

def versionForChannel (cluster : Cluster V) (spc : ServiceProviderCluster V) : Option V :=
  match spc.pinnedVersion.exactVersion with
  | some pin => some pin
  | none =>
    if cluster.controlPlaneExactVersion.isNone &&
        cluster.zStreamUpdatePolicy = immediateZStreamUpdatePolicy then spc.desiredVersion
    else none

def bestForChannel (clusterName : String) (cluster : Cluster V) (version : Option V)
    (rollout : String → Read (ControlPlaneVersionRollout V)) : Except String (Option V) :=
  match version with
  | none => .ok none
  | some version =>
    if cluster.channelGroup = "" then .error s!"cluster {clusterName} has no channel group"
    else
      let channel := yStreamChannel cluster.channelGroup (minorString version)
      match rollout channel with
      | .ok rollout => .ok rollout.bestExactVersion
      | .error .notFound => .ok none
      | .error (.failed e) =>
        .error s!"failed to get ControlPlaneVersionRollout {quote channel}: {e}"

def releases (pin : PinnedVersion V) (best : Option V) : Option V :=
  best.filter fun best => pin.untilExactVersion.any fun untilVersion => gte best untilVersion

/-- The new desired version and whether the pin is removed. -/
def forcedDecision (cluster : Cluster V) (spc : ServiceProviderCluster V) (best : Option V) :
    Option V × Bool :=
  match spc.pinnedVersion.exactVersion with
  | some pin =>
    match releases spc.pinnedVersion best with
    | some best => (some best, true)
    | none => (some pin, false)
  | none =>
    match cluster.controlPlaneExactVersion with
    | some exactVersion => (some exactVersion, false)
    | none =>
      match best, spc.desiredVersion with
      | some best, some desired =>
        if cluster.zStreamUpdatePolicy = immediateZStreamUpdatePolicy &&
            minorString best = minorString desired && gt best desired then (some best, false)
        else (none, false)
      | _, _ => (none, false)

def forcedReplacement (spc : ServiceProviderCluster V) (newDesired : V) (clearPin : Bool)
    (now : Time) : ServiceProviderCluster V :=
  let replacement := setDesiredVersion spc newDesired now
  if clearPin then { replacement with pinnedVersion := {} } else replacement

def forcedSyncOnce (clusterName : String) (view : ClusterView V) (now : Time) : Sync V :=
  match view.serviceProviderCluster with
  | .error .notFound => .done
  | .error (.failed e) => .fail s!"failed to get ServiceProviderCluster: {e}"
  | .ok spc =>
    match view.cluster with
    | .error .notFound => .done
    | .error (.failed e) => .fail s!"failed to get Cluster: {e}"
    | .ok cluster =>
      if !hasForcedVersion cluster spc &&
          cluster.zStreamUpdatePolicy ≠ immediateZStreamUpdatePolicy then .done
      else match bestForChannel clusterName cluster (versionForChannel cluster spc)
          view.rollout with
        | .error e => .fail e
        | .ok best =>
          match forcedDecision cluster spc best with
          | (none, _) => .done
          | (some newDesired, clearPin) =>
            if clearPin || spc.desiredVersion.all fun desired => !eq desired newDesired then
              .replace (forcedReplacement spc newDesired clearPin now)
                "failed to replace ServiceProviderCluster"
            else .done

/-! ## Initial assignment -/

def initialNeedsWork (spc : ServiceProviderCluster V) : Bool :=
  spc.desiredVersion.isNone || isZero spc.desiredVersionLastTransitionTime

/-- The delay before a controller looks again for a missing rollout or best version. -/
def rolloutRetryDelay : Int := 10 * second

def requestedBest (view : ClusterView V) (channel : String) : Sync V ⊕ V :=
  match view.rollout channel with
  | .error .notFound => .inl (.requeueAfter rolloutRetryDelay)
  | .error (.failed e) => .inl (.fail s!"failed to get rollout {quote channel}: {e}")
  | .ok rollout =>
    match rollout.bestExactVersion with
    | none => .inl (.requeueAfter rolloutRetryDelay)
    | some best => .inr best

def unknownChannelError (cluster : Cluster V) : String :=
  s!"cannot determine requested channel: channel group {quote cluster.channelGroup}, " ++
    s!"requested version {quote cluster.versionID}"

def initialSyncOnce (view : ClusterView V) (now : Time) : Sync V :=
  match view.serviceProviderCluster with
  | .error .notFound => .done
  | .error (.failed e) => .fail s!"failed to get ServiceProviderCluster: {e}"
  | .ok spc =>
    if !initialNeedsWork spc then .done
    else match spc.desiredVersion with
      | some desired =>
        -- documents older than the transition time start their failure clock now
        .replace (setDesiredVersion spc desired now)
          "failed to initialize desired version transition time"
      | none =>
        match view.cluster with
        | .error .notFound => .done
        | .error (.failed e) => .fail s!"failed to get cluster: {e}"
        | .ok cluster =>
          if hasForcedVersion cluster spc then .done
          else match clusterYStreamChannel cluster with
            | none => .fail (unknownChannelError cluster)
            | some channel =>
              match requestedBest view channel with
              | .inl ending => ending
              | .inr best =>
                .replace (setDesiredVersion spc best now) "failed to initialize desired version"

/-! ## Minor upgrade assignment -/

def minorUpgradeNeedsWork (cluster : Cluster V) (spc : ServiceProviderCluster V) : Bool :=
  !hasForcedVersion cluster spc &&
    (spc.desiredVersion.any fun desired =>
      (parseTolerant (V := V) cluster.versionID).toOption.any fun requested =>
        minorString requested ≠ minorString desired)

def clusterNodePools (view : ClusterView V) :
    List NodePool → Except String (List (ClusterAdmissionNodePool V))
  | [] => .ok []
  | nodePool :: rest =>
    match view.serviceProviderNodePool nodePool.name with
    | .error e => .error (s!"failed to get service provider state for node pool " ++
        s!"{quote nodePool.name}: {e.text}")
    | .ok serviceProviderNodePool =>
      (clusterNodePools view rest).map (⟨some nodePool, some serviceProviderNodePool⟩ :: ·)

def validateNodePoolSkew (view : ClusterView V) (target : V) : Option String :=
  match view.nodePools with
  | .error e => some s!"failed to list node pools: {e.text}"
  | .ok nodePools =>
    match clusterNodePools view nodePools with
    | .error e => some e
    | .ok pools =>
      match admitClusterNodePoolsMinorVersionSkew pools target with
      | [] => none
      | errors => some ("\n".intercalate errors)

def minorUpgradeSyncOnce (view : ClusterView V) (now : Time) : Sync V :=
  match view.serviceProviderCluster with
  | .error .notFound => .done
  | .error (.failed e) => .fail s!"failed to get ServiceProviderCluster: {e}"
  | .ok spc =>
    match view.cluster with
    | .error .notFound => .done
    | .error (.failed e) => .fail s!"failed to get cluster: {e}"
    | .ok cluster =>
      match clusterYStreamChannel cluster with
      | none => .fail (unknownChannelError cluster)
      | some channel =>
        if !minorUpgradeNeedsWork cluster spc then .done
        else match requestedBest view channel with
          | .inl ending => ending
          | .inr best =>
            match validateNodePoolSkew view best with
            | some e => .fail s!"cannot assign minor upgrade target {text best}: {e}"
            | none => .replace (setDesiredVersion spc best now)
                "failed to update desired version for minor upgrade"

omit [SemVer V] in
theorem requestedBest_ne_replace (view : ClusterView V) (channel : String)
    (replacement : ServiceProviderCluster V) (failure : String) :
    requestedBest view channel ≠ .inl (.replace replacement failure) := by
  unfold requestedBest
  split
  · simp
  · simp
  · split <;> simp

theorem minorUpgradeSyncOnce_replace {view : ClusterView V} {now : Time}
    {replacement : ServiceProviderCluster V} {failure : String}
    (h : minorUpgradeSyncOnce view now = .replace replacement failure) :
    ∃ spc cluster best, view.serviceProviderCluster = .ok spc ∧ view.cluster = .ok cluster ∧
      minorUpgradeNeedsWork cluster spc = true ∧ validateNodePoolSkew view best = none ∧
      replacement = setDesiredVersion spc best now := by
  unfold minorUpgradeSyncOnce at h
  split at h
  · cases h
  · cases h
  rename_i spc hspc
  split at h
  · cases h
  · cases h
  rename_i cluster hcluster
  split at h
  · cases h
  split_ifs at h with hidle
  split at h
  · rename_i ending hending
    exact absurd (h ▸ hending) (requestedBest_ne_replace view _ replacement failure)
  rename_i best hbest
  split at h
  · cases h
  rename_i hskew
  exact ⟨spc, cluster, best, hspc, hcluster, by simpa using hidle, hskew,
    (Sync.replace.inj h).1.symm⟩

end AroHcp.Rollout
