import AroHcp.Lib.FieldError
import AroHcp.Rollout.Assignment

/-! Admission of version changes of a cluster and of its node pools, and the controller that stores
an admitted node pool version. The admission checks of other fields are left out. -/

namespace AroHcp.Version

open GoFmt Rollout SemVer

structure VersionProfile where
  id : String
  channelGroup : String
deriving DecidableEq, Repr

structure ClusterAdmissionContext (V : Type) where
  serviceProviderCluster : Option (ServiceProviderCluster V)
  desiredVersionChannels : List String
  imageContentSources : Option (List String)
  clusterNodePools : List (ClusterAdmissionNodePool V)

variable {V : Type} [SemVer V]

def findLowestAndHighestClusterVersion (activeVersions : List (ActiveVersion V)) :
    Option V × Option V :=
  findLowestAndHighestVersion (activeVersions.map ActiveVersion.version)

/-! ## Cluster versions -/

def openshiftVersionAtMostOneMinorSkew (V : Type) [SemVer V]
    (previousVersionID newVersionID : String) : Option String :=
  if previousVersionID = "" ∨ newVersionID = "" then none
  else match parseTolerant (V := V) newVersionID, parseTolerant (V := V) previousVersionID with
    | .error e, _ => some e
    | _, .error e => some e
    | .ok desired, .ok previous =>
      if major desired ≠ major previous then
        let allowedLine := (allowMajorUpgradePaths.lookup (minorString previous)).getD ""
        if major desired ≠ major previous + 1 then
          some (s!"invalid upgrade path from {previousVersionID} to {newVersionID}: skipping " ++
            "major versions is not allowed")
        else if minorString desired ≠ allowedLine then
          some (s!"invalid upgrade path from {previousVersionID} to {newVersionID}: cross-major " ++
            s!"upgrade from {minorString previous} is only allowed to {allowedLine}")
        else none
      else if minor previous + 1 < minor desired then
        some (s!"only upgrade to the next minor is allowed: expected {major previous}." ++
          s!"{minor previous + 1} after {major previous}.{minor previous}")
      else none

/-- The checks against a minimum version, which differ in the comparison. -/
def versionMustReach (tooLow : V → V → Bool) (field value minimumVersion : String) :
    List FieldError :=
  if value = "" then []
  else match parseTolerant (V := V) value, parseTolerant (V := V) minimumVersion with
    | .error e, _ => [.invalid field value e]
    | _, .error e => [.invalid field value e]
    | .ok newVersion, .ok minVersion =>
      if tooLow newVersion minVersion
        then [.invalid field value s!"must be at least {minimumVersion}"]
      else []

def versionMustBeAtLeast (V : Type) [SemVer V] : String → String → String → List FieldError :=
  versionMustReach (V := V) lt

def versionMustBeAtLeastMajorMinor (V : Type) [SemVer V] :
    String → String → String → List FieldError :=
  versionMustReach (V := V) fun newVersion minVersion =>
    major newVersion < major minVersion ||
      (major newVersion = major minVersion && minor newVersion < minor minVersion)

def versionMajorMinor (V : Type) [SemVer V] (id : String) : Except String String :=
  (parseTolerant (V := V) id).map minorString

/-- The field path of the cluster and node pool version. -/
def versionPath : String := "properties.version.id"

def admitClusterVersionID (context : ClusterAdmissionContext V) (new : VersionProfile)
    (old : Option VersionProfile) : List FieldError :=
  match old with
  | none => []
  | some old =>
    if new.id = "" ∨ old.id = new.id ∨ new.channelGroup = "" then []
    else if new.channelGroup = "nightly" ∨ new.channelGroup = "candidate" then []
    else if context.serviceProviderCluster.isNone ∨ context.desiredVersionChannels = [] then []
    else match versionMajorMinor V new.id with
      | .error _ => []
      | .ok majorMinor =>
        let expectedChannel := s!"{new.channelGroup}-{majorMinor}"
        if expectedChannel ∈ context.desiredVersionChannels then []
        else [.invalid versionPath new.id
          (s!"no upgrade path to update channel {quote expectedChannel} is currently available " ++
            "for this cluster; a channel appears in the cluster's desired version channels only " ++
            "when an upgrade edge to a release in that channel exists")]

def ocpV5ArtDevMirrorSource : String := "quay.io/openshift-release-dev/ocp-v5.0-art-dev"

def admitClusterV5DataPlaneMirror (context : ClusterAdmissionContext V) (new : VersionProfile)
    (old : Option VersionProfile) : List FieldError :=
  match old with
  | none => []
  | some old =>
    if new.id = old.id then []
    else match parseTolerant (V := V) old.id, parseTolerant (V := V) new.id with
      | .ok oldVersion, .ok newVersion =>
        if major oldVersion ≠ 4 ∨ major newVersion ≠ 5 then []
        else match context.serviceProviderCluster, context.imageContentSources with
          | some _, some sources =>
            if ocpV5ArtDevMirrorSource ∈ sources then []
            else [.invalid versionPath new.id
              (s!"cannot upgrade to OpenShift {major newVersion}.y: this cluster is missing the " ++
                s!"required data-plane image mirror {quote ocpV5ArtDevMirrorSource}, so its nodes " ++
                s!"would be unable to pull {major newVersion}.y images; contact support to have " ++
                "the mirror added before upgrading")]
          | _, _ => [.invalid versionPath new.id
              ("cannot validate the OpenShift 5.y data-plane image mirror yet: the backend has " ++
                "not observed the HostedCluster; retry the update")]
      | _, _ => []

def admitAgainstActiveVersions (context : ClusterAdmissionContext V) (new : VersionProfile)
    (oldVersion : V) : List FieldError :=
  match context.serviceProviderCluster with
  | none => [.internalError versionPath "cannot validate cluster version skew"]
  | some spc =>
    match findLowestAndHighestClusterVersion spc.activeVersions with
    | (some lowest, some highest) =>
      -- from the line of the lowest active version the static validation has checked the skew
      (if major oldVersion ≠ major lowest ∨ minor oldVersion ≠ minor lowest then
        (openshiftVersionAtMostOneMinorSkew V (text lowest) new.id).toList.map
          (.invalid versionPath new.id)
      else []) ++
      (if new.channelGroup = "nightly" then
        versionMustBeAtLeastMajorMinor V versionPath new.id (text highest)
      else versionMustBeAtLeast V versionPath new.id (text highest))
    | _ => []

def admitAgainstNodePools (context : ClusterAdmissionContext V) (new : VersionProfile) :
    List FieldError :=
  match parseTolerant (V := V) new.id with
  | .error e => [.invalid versionPath new.id e]
  | .ok newVersion =>
    match admitClusterNodePoolsMinorVersionSkew context.clusterNodePools newVersion with
    | [] => []
    | errors => [.invalid versionPath new.id ("\n".intercalate errors)]

def admitClusterVersionProfile (context : ClusterAdmissionContext V) (new : VersionProfile)
    (old : Option VersionProfile) : List FieldError :=
  match old with
  | none => []
  | some old =>
    if new.id = "" ∨ old.id = new.id then []
    else match parseTolerant (V := V) old.id with
      | .error e => [.invalid versionPath old.id e]
      | .ok oldVersion =>
        admitAgainstActiveVersions context new oldVersion ++ admitAgainstNodePools context new ++
          admitClusterVersionID context new (some old) ++
          admitClusterV5DataPlaneMirror context new (some old)

def clusterVersionProfile (cluster : Cluster V) : VersionProfile :=
  ⟨cluster.versionID, cluster.channelGroup⟩

def admitCluster (context : ClusterAdmissionContext V) (new : Cluster V) (old : Option (Cluster V)) :
    List FieldError :=
  if old.any fun old => old.deletionTimestamp.isSome then
    [.forbidden "" "cluster is being deleted and cannot be updated"]
  else admitClusterVersionProfile context (clusterVersionProfile new)
    (old.map clusterVersionProfile)

/-! ## Node pool versions -/

def admitNodePoolVersion (serviceProviderNodePool : Option (ServiceProviderNodePool V))
    (serviceProviderCluster : ServiceProviderCluster V) (experimentalFeaturesEnabled : Bool)
    (newID : String) (oldID : Option String) : List FieldError :=
  if newID = "" ∨ oldID = some newID then []
  else match parse (V := V) newID with
    | .error e => [.invalid versionPath newID s!"invalid node pool version format: {e}"]
    | .ok newVersion =>
      if serviceProviderNodePool.any fun state =>
          state.desiredVersion.any fun desired => eq newVersion desired then []
      else
        let activeVersions := (serviceProviderNodePool.map
          ServiceProviderNodePool.activeVersions).getD []
        let bounds := findLowestAndHighestClusterVersion serviceProviderCluster.activeVersions
        (validateNodePoolVersionChange newVersion activeVersions bounds.1 bounds.2
          experimentalFeaturesEnabled).toList.map (.invalid versionPath newID)

/-- What the update graph answers to the question whether a version exists. -/
inductive CincinnatiAnswer where
  | found
  | versionNotFound (message : String)
  | graphError (message : String)
  /-- an error before the graph was asked -/
  | otherError (message : String)
deriving DecidableEq, Repr

inductive NodePoolVersionSync (V : Type) where
  | done
  | fail (message : String)
  | intentFailed (message : String)
  | store (desiredVersion : V)

def nodePoolVersionNeedsWork (nodePool : NodePool)
    (serviceProviderNodePool : ServiceProviderNodePool V)
    (serviceProviderCluster : ServiceProviderCluster V) : Bool :=
  nodePool.versionID ≠ "" && serviceProviderCluster.activeVersions ≠ [] &&
    serviceProviderNodePool.desiredVersion.all fun desired =>
      match parseTolerant (V := V) nodePool.versionID with
      | .error _ => true
      | .ok customerDesiredVersion => !eq customerDesiredVersion desired

/-- `subscription` tells whether experimental release features are registered. -/
def nodePoolVersionSyncOnce (nodePool : NodePool)
    (serviceProviderNodePool : ServiceProviderNodePool V)
    (serviceProviderCluster : ServiceProviderCluster V) (subscription : Read Bool)
    (cincinnati : CincinnatiAnswer) : NodePoolVersionSync V :=
  if !nodePoolVersionNeedsWork nodePool serviceProviderNodePool serviceProviderCluster then .done
  else match parse (V := V) nodePool.versionID, subscription with
    | .error e, _ => .fail e
    | .ok _, .error .notFound => .done
    | .ok _, .error (.failed e) => .fail s!"failed to get Subscription from cache: {e}"
    | .ok customerDesiredVersion, .ok experimentalFeaturesEnabled =>
      let bounds := findLowestAndHighestClusterVersion serviceProviderCluster.activeVersions
      match validateNodePoolVersionChange customerDesiredVersion
          serviceProviderNodePool.activeVersions bounds.1 bounds.2 experimentalFeaturesEnabled with
      | some e => .intentFailed e
      | none =>
        match cincinnati with
        | .found => .store customerDesiredVersion
        | .versionNotFound e => .intentFailed e
        | .otherError e => .intentFailed e
        | .graphError e => .fail e

theorem nodePoolVersionSyncOnce_store {nodePool : NodePool}
    {serviceProviderNodePool : ServiceProviderNodePool V}
    {serviceProviderCluster : ServiceProviderCluster V} {subscription : Read Bool}
    {cincinnati : CincinnatiAnswer} {version : V}
    (h : nodePoolVersionSyncOnce nodePool serviceProviderNodePool serviceProviderCluster
      subscription cincinnati = .store version) :
    parse nodePool.versionID = .ok version ∧ ∃ experimentalFeaturesEnabled,
      validateNodePoolVersionChange version serviceProviderNodePool.activeVersions
        (findLowestAndHighestClusterVersion serviceProviderCluster.activeVersions).1
        (findLowestAndHighestClusterVersion serviceProviderCluster.activeVersions).2
        experimentalFeaturesEnabled = none := by
  unfold nodePoolVersionSyncOnce at h
  split_ifs at h
  split at h
  · cases h
  · cases h
  · cases h
  rename_i parsed enabled hparse
  dsimp only at h
  split at h
  · cases h
  rename_i hvalid
  split at h
  · cases h
    exact ⟨hparse, enabled, hvalid⟩
  · cases h
  · cases h
  · cases h

end AroHcp.Version
