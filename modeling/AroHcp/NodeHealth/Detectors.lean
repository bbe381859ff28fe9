import Mathlib.Algebra.Group.Int.Defs
import Mathlib.Data.List.ReduceOption

/-! The detection core of the node health controller: from a node and the events and pods held for
it, whether the node is wedged. -/

namespace AroHcp.NodeHealth

/-- Nanoseconds since the zero time; `IsZero` is being zero. -/
abbrev Time := Int

abbrev Duration := Int

def minutes (n : Int) : Duration := n * (60 * 10 ^ 9)

inductive ConditionType where
  | ready
  | podReadyToStartContainers
  | other (text : String)
deriving DecidableEq

inductive ConditionStatus where
  | isTrue
  | isFalse
  | unknown
deriving DecidableEq

structure Condition where
  type : ConditionType
  status : ConditionStatus
  reason : String
  lastTransitionTime : Time
deriving DecidableEq

structure Node where
  labels : List (String × String)
  creationTimestamp : Time
  conditions : List Condition
deriving DecidableEq

inductive PodPhase where
  | pending
  | running
  | succeeded
  | failed
  | unknown
deriving DecidableEq

/-- The names of the resources of a container. -/
structure Container where
  limits : List String
  requests : List String
deriving DecidableEq

/-- The start is that of the terminated state. -/
structure ContainerStatus where
  restartCount : Int
  startedAt : Option Time
deriving DecidableEq

structure Pod where
  uid : String
  deletionTimestamp : Option Time
  hostNetwork : Bool
  initContainers : List Container
  containers : List Container
  phase : PodPhase
  conditions : List Condition
  initContainerStatuses : List ContainerStatus
  containerStatuses : List ContainerStatus
deriving DecidableEq

structure Event where
  kind : String
  uid : String
  reason : String
  message : String
  lastTimestamp : Time
  eventTime : Time
  firstTimestamp : Time
deriving DecidableEq

structure PodEvidence where
  failureCount : Nat := 0
  sustainedCount : Nat := 0
  recentSuccess : Bool := false
deriving DecidableEq

structure Snapshot where
  detectorName : String := ""
  reason : String := ""
  window : Duration := 0
  pods : Option PodEvidence := none
  stuckSince : Time := 0
  matchedSignature : String := ""
  detail : String := ""
deriving DecidableEq

inductive Decision where
  | unknown
  | healthy
  | wedged
  | notApplicable
deriving DecidableEq

/-- What is used of `regexp`, and the text of a duration that is rounded to minutes. -/
structure GoLib where
  matchString : (pattern message : String) → Bool
  roundedText : Duration → String

/-! ## Readings of one object -/

def nodeReadyCondition (node : Node) : Option Condition :=
  node.conditions.find? (·.type = .ready)

def isNodeReady (node : Node) : Bool :=
  (nodeReadyCondition node).any (·.status = .isTrue)

def isSwiftV2Node (node : Node) : Bool :=
  node.labels.lookup "kubernetes.azure.com/podnetwork-swiftv2-enabled" = some "true"

def podRequestsSwiftNIC (p : Pod) : Bool :=
  let swiftNICResourceName := "aro.openshift.io/swift-nic"
  (p.initContainers ++ p.containers).any fun c =>
    c.limits.contains swiftNICResourceName || c.requests.contains swiftNICResourceName

def podReadyToStartCondition (p : Pod) : Option Condition :=
  p.conditions.find? (·.type = .podReadyToStartContainers)

def stuckSince (p : Pod) : Option Time :=
  if p.phase = .succeeded ∨ p.phase = .failed then none
  else match podReadyToStartCondition p with
    | none => none
    | some cond => if cond.status = .isFalse then some cond.lastTransitionTime else none

def firstRunStart (p : Pod) : Option Time :=
  let latest := (p.initContainerStatuses ++ p.containerStatuses).foldl
    (fun latest cs =>
      if cs.restartCount ≠ 0 then latest
      else match cs.startedAt with
        | none => latest
        | some t => if t ≠ 0 ∧ (latest = 0 ∨ latest < t) then t else latest) (0 : Time)
  if latest = 0 then none else some latest

def successAt (p : Pod) : Option Time :=
  if p.hostNetwork then none
  else if p.phase = .succeeded ∨ p.phase = .failed then firstRunStart p
  else match podReadyToStartCondition p with
    | none => none
    | some cond => if cond.status = .isTrue then some cond.lastTransitionTime else none

def eventLastTime (ev : Event) : Time :=
  if ev.lastTimestamp ≠ 0 then ev.lastTimestamp
  else if ev.eventTime ≠ 0 then ev.eventTime
  else ev.firstTimestamp

/-! ## Detectors of a storm of events -/

/-- `signatureDetector`; a missing predicate holds everywhere. -/
structure SignatureDetector where
  name : String
  reason : String
  appliesTo : Option (Node → Bool)
  eventReason : String
  signatures : List String
  failuresFloor : Nat
  window : Duration
  dwell : Duration
  requireZeroSuccess : Bool
  successScope : Option (Pod → Bool)

def swiftVFTeardown : SignatureDetector where
  name := "swift-vf-teardown"
  reason := "SWIFT delegated-NIC teardown: sustained FailedCreatePodSandBox storm with zero successful pod starts"
  appliesTo := some isSwiftV2Node
  eventReason := "FailedCreatePodSandBox"
  signatures := ["no such network interface", "network is unreachable", "mtpnc is not ready",
    "dhcp discover.*timed out"]
  failuresFloor := 2
  window := minutes 10
  dwell := minutes 10
  requireZeroSuccess := true
  successScope := some podRequestsSwiftNIC

def cniPluginNotInitialized : SignatureDetector where
  name := "cni-plugin-not-initialized"
  reason := "CNI plugin not initialized: sustained NetworkNotReady failures with zero successful pod starts"
  appliesTo := some isSwiftV2Node
  eventReason := "NetworkNotReady"
  signatures := ["cni plugin not initialized"]
  failuresFloor := 3
  window := minutes 20
  dwell := minutes 20
  requireZeroSuccess := true
  successScope := none

def podRegistry : List SignatureDetector :=
  [swiftVFTeardown, cniPluginNotInitialized]

/-- What the loop over the pods has seen; `sigCounts` has a place for each signature. -/
structure Seen where
  evidence : PodEvidence := {}
  stuckSince : Time := 0
  sigCounts : List Nat
deriving DecidableEq

/-- `snap.StuckSince` after another stuck pod. -/
def earlier (oldest since : Time) : Time :=
  if oldest = 0 ∨ since < oldest then since else oldest

/-- The first signature that counts most. -/
def dominant (sigCounts : List Nat) : Option Nat :=
  sigCounts.zipIdx.foldl (fun best (n, i) =>
    if 0 < n ∧ best.all (fun b => sigCounts.getD b 0 < n) then some i else best) none

/-- `failing` after another event. -/
def note (failing : String → Option Nat) (item : String × Nat) : String → Option Nat :=
  if (failing item.1).all (item.2 < ·) then Function.update failing item.1 (some item.2)
  else failing

namespace SignatureDetector

variable (lib : GoLib) (d : SignatureDetector) (now : Time)

def applies (node : Node) : Bool := d.appliesTo.all (· node)

def inSuccessScope (p : Pod) : Bool := d.successScope.all (· p)

def matchSignature (message : String) : Option Nat :=
  d.signatures.findIdx? (lib.matchString · message)

def classify (ev : Event) : Option (String × Nat) :=
  if ev.kind ≠ "Pod" ∨ ev.uid = "" then none
  else if ev.reason ≠ d.eventReason then none
  else match d.matchSignature lib ev.message with
    | none => none
    | some idx => if eventLastTime ev < now - d.window then none else some (ev.uid, idx)

/-- The failing pods by UID, with the lowest index of their events. -/
def failing (events : List Event) : String → Option Nat :=
  (events.filterMap (d.classify lib now)).foldl note fun _ => none

/-- The pod is proof of a sandbox that was built within the window. -/
def isSuccess (p : Pod) : Bool :=
  d.inSuccessScope p && (successAt p).any fun t => (now - t).natAbs < d.window

def counted (failing : String → Option Nat) (p : Pod) : Option (Nat × Time) :=
  if p.deletionTimestamp.isSome then none
  else match failing p.uid with
    | none => none
    | some idx => (stuckSince p).map fun since => (idx, since)

/-- The body of the loop over the pods. -/
def see (failing : String → Option Nat) (seen : Seen) (p : Pod) : Seen :=
  let recentSuccess := seen.evidence.recentSuccess || d.isSuccess now p
  match counted failing p with
  | none => { seen with evidence := { seen.evidence with recentSuccess } }
  | some (idx, since) =>
    { evidence :=
        { failureCount := seen.evidence.failureCount + 1
          sustainedCount := seen.evidence.sustainedCount + if d.dwell ≤ now - since then 1 else 0
          recentSuccess }
      stuckSince := earlier seen.stuckSince since
      sigCounts := seen.sigCounts.modify idx (· + 1) }

def evaluate (events : List (Option Event)) (pods : List (Option Pod)) : Snapshot :=
  let seen := pods.reduceOption.foldl (d.see now (d.failing lib now events.reduceOption))
    { sigCounts := d.signatures.map fun _ => 0 }
  { detectorName := d.name
    window := d.window
    pods := some seen.evidence
    stuckSince := seen.stuckSince
    matchedSignature := ((dominant seen.sigCounts).map (d.signatures.getD · "")).getD "" }

def meetsThreshold (snap : Snapshot) : Bool :=
  match snap.pods with
  | none => false
  | some evidence =>
    if evidence.sustainedCount < d.failuresFloor then false
    else if d.requireZeroSuccess && evidence.recentSuccess then false
    else true

end SignatureDetector

/-! ## Decisions -/

section

variable (lib : GoLib) (node : Node) (events : List (Option Event)) (pods : List (Option Pod))
  (now : Time)

def evaluateNode : Decision × Snapshot :=
  let snap : Snapshot := { detectorName := "never-ready", window := minutes 30 }
  match nodeReadyCondition node with
  | none => (.unknown, snap)
  | some cond =>
    let created := node.creationTimestamp
    let transitioned := cond.lastTransitionTime
    if cond.status = .isTrue then (.unknown, snap)
    else if created = 0 ∨ transitioned = 0 then (.unknown, snap)
    else if transitioned < created then (.unknown, snap)
    else if created + minutes 2 < transitioned then (.unknown, snap)
    else
      let reason := if cond.reason = "" then "no reason reported" else cond.reason
      let snap := { snap with
        stuckSince := created
        matchedSignature := cond.reason
        detail := s!"node never reached Ready in {lib.roundedText (now - created)} since creation ({reason})" }
      if now - created < minutes 30 then (.unknown, snap) else (.wedged, snap)

def anyApplies : Bool :=
  podRegistry.any (·.applies node) || isSwiftV2Node node

/-- The loop over the registry on a Ready node. -/
def decideReady (sawSuccess : Bool) : List SignatureDetector → Decision × Snapshot
  | [] => if sawSuccess then (.healthy, {}) else (.unknown, {})
  | d :: rest =>
    if d.applies node then
      let snap := d.evaluate lib now events pods
      let sawSuccess := sawSuccess || snap.pods.any (·.recentSuccess)
      if d.meetsThreshold snap then (.wedged, { snap with reason := d.reason })
      else decideReady sawSuccess rest
    else decideReady sawSuccess rest

def decide : Decision × Snapshot :=
  if !anyApplies node then (.notApplicable, {})
  else if !isNodeReady node then
    match evaluateNode lib node now with
    | (.wedged, snap) => (.wedged, { snap with
        reason := "node registered but never reached Ready: node lifecycle does not rescue a node that never started, so it needs reimaging" })
    | _ => (.unknown, {})
  else decideReady lib node events pods now false podRegistry

end

end AroHcp.NodeHealth
