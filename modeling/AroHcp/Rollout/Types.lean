import AroHcp.Lib.GoFmt
import AroHcp.Lib.SemVer
import Mathlib.Algebra.Group.Int.Defs
import Mathlib.Data.List.AList
import Mathlib.Data.String.Basic

/-! The documents of the control plane version rollout: the fields of `Cluster`,
`ServiceProviderCluster` and `ControlPlaneVersionRollout` that the rollout controllers read or
write. Documents are generic in the version type. -/

namespace AroHcp.Rollout

open GoFmt SemVer

/-- Nanoseconds since the zero instant of `time.Time`. -/
abbrev Time := Int

def second : Int := 10 ^ 9

def minute : Int := 60 * second

def hour : Int := 60 * minute

def isZero : Option Time → Bool
  | none => true
  | some t => t = 0

structure ParentID where
  text : String
  name : String
deriving DecidableEq, Repr

structure ResourceID where
  subscriptionID : String
  resourceGroupName : String
  parent : Option ParentID
deriving DecidableEq, Repr

inductive UpdateState where
  | completed
  | other (text : String)
deriving DecidableEq, Repr

structure ActiveVersion (V : Type) where
  version : Option V
  state : UpdateState
  lastTransitionTime : Time
deriving DecidableEq, Repr

/-- A pin of the cluster by an SRE, held until the best version reaches `untilExactVersion`. -/
structure PinnedVersion (V : Type) where
  exactVersion : Option V := none
  untilExactVersion : Option V := none
deriving DecidableEq, Repr

structure ServiceProviderCluster (V : Type) where
  resourceID : Option ResourceID
  desiredVersion : Option V
  desiredVersionLastTransitionTime : Option Time
  pinnedVersion : PinnedVersion V
  activeVersions : List (ActiveVersion V)
deriving DecidableEq, Repr

structure Cluster (V : Type) where
  id : Option String
  deletionTimestamp : Option Time
  channelGroup : String
  versionID : String
  controlPlaneExactVersion : Option V
  zStreamUpdatePolicy : String
deriving DecidableEq, Repr

def immediateZStreamUpdatePolicy : String := "Immediate"

structure ControlPlaneVersionRollout (V : Type) where
  bestExactVersion : Option V
  lastAssignmentTime : Option Time
deriving DecidableEq, Repr

structure RolloutConfig where
  canaryPercentage : Int
  rollingPercentage : Int
  minVersionReadyDuration : Int
  maxUpgradeDuration : AList fun _ : String => Int

def defaultMaxUpgradeDuration : Int := 2 * hour

def RolloutConfig.maxUpgradeDurationForMinor (config : RolloutConfig) (minor : String) : Int :=
  (config.maxUpgradeDuration.lookup minor).getD defaultMaxUpgradeDuration

variable {V : Type} [SemVer V]

def yStreamChannel (channelGroup minor : String) : String :=
  channelGroup ++ "-" ++ minor

/-- The completed version the control plane runs, the last of the newest-first list, and when it
was reached. -/
def earliestActiveVersionEntry (activeVersions : List (ActiveVersion V)) : Option (V × Time) :=
  activeVersions.reverse.findSome? fun active =>
    if active.state = .completed then active.version.map fun v => (v, active.lastTransitionTime)
    else none

def setDesiredVersion (spc : ServiceProviderCluster V) (newDesired : V) (now : Time) :
    ServiceProviderCluster V :=
  if (spc.desiredVersion.any fun current => eq current newDesired) &&
      !isZero spc.desiredVersionLastTransitionTime then spc
  else { spc with desiredVersion := some newDesired, desiredVersionLastTransitionTime := some now }

/-- Forced assignment owns the cluster, even before it has stored the override. -/
def hasForcedVersion (cluster : Cluster V) (spc : ServiceProviderCluster V) : Bool :=
  spc.pinnedVersion.exactVersion.isSome || cluster.controlPlaneExactVersion.isSome

/-- The lowercased ID of the cluster a document is nested under. -/
def parentKey (spc : ServiceProviderCluster V) : Option String :=
  spc.resourceID.bind fun id => id.parent.map fun parent => toLower parent.text

def serviceProviderClusterCoords (spc : ServiceProviderCluster V) :
    Option (String × String × String) :=
  spc.resourceID.bind fun id => id.parent.bind fun parent =>
    if id.subscriptionID = "" || id.resourceGroupName = "" then none
    else some (id.subscriptionID, id.resourceGroupName, parent.name)

/-! ## Channel membership -/

def channelGroups : List String := ["stable", "fast", "candidate", "nightly"]

/-- A decimal number without leading zeros that fits 64 bits. -/
def isCanonicalNumber (s : String) : Bool :=
  s ≠ "" && s.toList.all Char.isDigit && (s = "0" || s.toList.head? ≠ some '0') &&
    Nat.ofDigitChars 10 s.toList 0 < 2 ^ 64

/-- The text before and after the first occurrence of a character. -/
def cut (c : Char) (s : String) : String × String :=
  (String.ofList (s.toList.takeWhile (· ≠ c)), String.ofList ((s.toList.dropWhile (· ≠ c)).drop 1))

def rolloutVersionFromName (name : String) : Except String (String × String) :=
  let (group, minor) := cut '-' name
  let (major, rest) := cut '.' minor
  if group ∈ channelGroups && '.' ∈ minor.toList && isCanonicalNumber major &&
      isCanonicalNumber rest then .ok (group, minor)
  else .error "y-stream channel must be <stable|fast|candidate|nightly>-<major>.<minor>"

def clusterMinor (spc : ServiceProviderCluster V) : Option String :=
  (spc.desiredVersion.or
    ((earliestActiveVersionEntry spc.activeVersions).map Prod.fst)).map minorString

def channelGroupByClusterID (clusters : List (Cluster V)) : AList fun _ : String => String :=
  clusters.foldl (fun groups cluster => match cluster.id, cluster.deletionTimestamp with
    | some id, none => groups.insert (toLower id) cluster.channelGroup
    | _, _ => groups) ∅

def filterServiceProviderClustersForChannel (clusters : List (Cluster V))
    (spcs : List (ServiceProviderCluster V)) (channel : String) :
    Except String (List (ServiceProviderCluster V)) :=
  match rolloutVersionFromName channel with
  | .error e => .error s!"invalid y-stream channel {quote channel}: {e}"
  | .ok (channelGroup, minor) => .ok (spcs.filter fun spc =>
      clusterMinor spc = some minor &&
        ((parentKey spc).bind (channelGroupByClusterID clusters).lookup) = some channelGroup)

/-! ## Requested channel -/

/-- The channel of the minor the customer requested. -/
def clusterYStreamChannel (cluster : Cluster V) : Option String :=
  if cluster.channelGroup = "" then none
  else (parseTolerant (V := V) cluster.versionID).toOption.map fun parsed =>
    yStreamChannel cluster.channelGroup (minorString parsed)

end AroHcp.Rollout
