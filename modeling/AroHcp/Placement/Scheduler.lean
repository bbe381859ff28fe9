import AroHcp.Placement.Documents

/-! The placement controller: the choice of a management cluster with enough SWIFT NICs for a new
cluster, the reservation of the NICs and the record of the decision. -/

namespace AroHcp.Placement

open DocStore GoFmt Operations Program Quantity

def swiftNICsPerHCP : Int := 3

def singleReplicaSwiftNICsPerHCP : Int := 1

def swiftNICsForCluster : Option Cluster → Int
  | none => swiftNICsPerHCP
  | some cluster =>
    if cluster.vnetIntegrationSubnetID = none then 0
    else if cluster.controlPlaneAvailability = .singleReplica then singleReplicaSwiftNICsPerHCP
    else swiftNICsPerHCP

theorem swiftNICsForCluster_bounds (cluster : Option Cluster) :
    0 ≤ swiftNICsForCluster cluster ∧ swiftNICsForCluster cluster ≤ swiftNICsPerHCP := by
  unfold swiftNICsForCluster singleReplicaSwiftNICsPerHCP swiftNICsPerHCP
  split
  · decide
  · split_ifs <;> decide

def swiftNICsForResourceID (id : String) : Prog Int := do
  match ← perform (Call.cachedCluster (toLower id)) with
  | .ok (some cluster) => return swiftNICsForCluster (some cluster.doc)
  | _ => return swiftNICsPerHCP

def swiftNICReservation : List (Option String) → Prog Int
  | [] => return 0
  | none :: rest => swiftNICReservation rest
  | some id :: rest => do
    let nics ← swiftNICsForResourceID id
    let total ← swiftNICReservation rest
    return nics + total

/-! ## Capacity -/

/-- The higher of the usage and the requests, if one of them is there. -/
def consumedSwiftNICs (observed : ObservedResources) : Option Int :=
  match observed.usage.swiftNIC, observed.requests.swiftNIC with
  | none, none => none
  | usage, requests => some (max (usage.getD 0) (requests.getD 0))

def availableSwiftNICs (scheduling : ManagementClusterScheduling) (reservation : Int) :
    Option Int :=
  let afterUse := match consumedSwiftNICs scheduling.observedResources with
    | none => scheduling.scaleCeiling
    | some consumed => some (scheduling.scaleCeiling.getD 0 - consumed)
  if reservation = 0 then afterUse else some (afterUse.getD 0 - ofInt reservation)

def availableResources : Option ManagementClusterScheduling → Prog (Option Int)
  | none => return none
  | some scheduling => do
    let notReady ← swiftNICReservation scheduling.notReadyResourceIDs
    let pending ← swiftNICReservation scheduling.pendingAssignedClusters
    return availableSwiftNICs scheduling (notReady + pending)

def swiftNICCount (available : Option Int) : Int :=
  match available with
  | none => 0
  | some quantity => value quantity

/-- The floating-point numbers that contention is estimated with; a result that is infinite or no
number is `none`. -/
structure Floats where
  approximate : Int → Option Rat
  quotient : Rat → Rat → Option Rat

def contentionOf (floats : Floats) (observed : ObservedResources) (name : ResourceName) :
    Option Rat := do
  let capacity ← observed.capacity.get name
  let requests ← observed.requests.get name
  let usage ← observed.usage.get name
  guard (0 < capacity ∧ 0 ≤ requests ∧ 0 ≤ usage)
  let c ← floats.approximate capacity
  let r ← floats.approximate requests
  let u ← floats.approximate usage
  guard (0 < c)
  floats.quotient (if r < u then u else r) c

def fiveMinutes : Time := 300000000000

def resourceContention (floats : Floats) (now : Time) (scheduling : ManagementClusterScheduling) :
    Option Rat := do
  let observed := scheduling.observedResources
  let reportedAt ← observed.lastReportedAt
  guard (reportedAt ≠ 0 ∧ reportedAt ≤ now ∧ now - reportedAt ≤ fiveMinutes)
  let cpu ← contentionOf floats observed .cpu
  let memory ← contentionOf floats observed .memory
  let score := if 0 < cpu then cpu else 0
  return if score < memory then memory else score

/-! ## Candidates -/

inductive Eligibility where
  | eligible
  | ineligible
  | unknownEligibility
deriving DecidableEq, Repr

structure Evaluation where
  stamp : String
  eligibility : Eligibility
  reason : String
  availableSwiftNICs : Option Int
  contention : Option Rat
  pendingAssignments : Nat
  scheduling : Option (Versioned ManagementClusterScheduling)

def eligibilityOf (managementCluster : ManagementCluster)
    (scheduling : Option ManagementClusterScheduling) : Eligibility × String :=
  match managementCluster.schedulingPolicy with
  | .unschedulable => (.ineligible, "management cluster is not schedulable")
  | .other policy => (.unknownEligibility, "unknown scheduling policy " ++ quote policy)
  | .schedulable =>
    match managementCluster.ready with
    | some .isFalse => (.ineligible, "management cluster is not Ready")
    | none | some .unknown => (.unknownEligibility, "management cluster readiness is unknown")
    | some .isTrue =>
      match scheduling with
      | none => (.unknownEligibility, "no scheduling/capacity data available")
      | some scheduling =>
        if scheduling.capacityDataCurrent && scheduling.scalingDataCurrent then (.eligible, "")
        else (.unknownEligibility, "scheduling/capacity data is not current")

def pendingCount (scheduling : Option ManagementClusterScheduling) : Nat :=
  ((scheduling.elim [] (·.pendingAssignedClusters)).filterMap fun id => id.map toLower).dedup.length

def evaluate (floats : Floats) (now : Time) (managementCluster : ManagementCluster)
    (scheduling : Option (Versioned ManagementClusterScheduling)) : Prog Evaluation := do
  let doc := scheduling.map (·.doc)
  let available ← availableResources doc
  let (eligibility, reason) := eligibilityOf managementCluster doc
  return {
    stamp := managementCluster.stampIdentifier
    eligibility, reason
    availableSwiftNICs := available
    contention := doc.bind (resourceContention floats now)
    pendingAssignments := pendingCount doc
    scheduling }

def evaluateEach (floats : Floats) (now : Time) :
    List (Option ManagementCluster) → Prog (Except String (List Evaluation))
  | [] => return .ok []
  | none :: rest => evaluateEach floats now rest
  | some managementCluster :: rest => do
    let stamp := managementCluster.stampIdentifier
    let scheduling ←
      if stamp = "" then pure (.ok none) else perform (Call.cachedScheduling (toLower stamp))
    match scheduling with
    | .error err =>
      return .error (s!"failed to get scheduling document for management cluster " ++
        s!"{quote (resourceIDText stamp)} from cache: {err}")
    | .ok scheduling =>
      let evaluation ← evaluate floats now managementCluster scheduling
      match ← evaluateEach floats now rest with
      | .error err => return .error err
      | .ok evaluations => return .ok (evaluation :: evaluations)

def evaluateManagementClusters (floats : Floats) (now : Time) :
    Prog (Except String (List Evaluation)) := do
  match ← perform Call.managementClusters with
  | .error err => return .error ("failed to list management clusters: " ++ err)
  | .ok managementClusters => evaluateEach floats now managementClusters

/-! ## The choice -/

/-- The candidate is preferred to the one chosen so far. -/
def isBetter (requiredSwiftNICs : Int) (evaluation chosen : Evaluation) : Bool :=
  let available := swiftNICCount evaluation.availableSwiftNICs
  let highest := swiftNICCount chosen.availableSwiftNICs
  let lowerID : Bool := resourceIDText evaluation.stamp < resourceIDText chosen.stamp
  let byNICs := decide (highest < available) || (available == highest && lowerID)
  if requiredSwiftNICs = 0 then
    match evaluation.contention, chosen.contention with
    | none, none => byNICs
    | none, some _ => false
    | some _, none => true
    | some score, some chosenScore =>
      if score ≠ chosenScore then score < chosenScore
      else if evaluation.pendingAssignments ≠ chosen.pendingAssignments then
        evaluation.pendingAssignments < chosen.pendingAssignments
      else lowerID
  else byNICs

/-- One turn of the loop of `selectByCapacity`. -/
def selectStep (requiredSwiftNICs : Int) (chosen : Option Evaluation) (evaluation : Evaluation) :
    Option Evaluation :=
  if evaluation.eligibility ≠ .eligible then chosen
  else if swiftNICCount evaluation.availableSwiftNICs < requiredSwiftNICs then chosen
  else
    match chosen with
    | none => some evaluation
    | some best => if isBetter requiredSwiftNICs evaluation best then some evaluation else some best

def noPlacementCondition (evaluations : List Evaluation) (requiredSwiftNICs : Int) :
    CapacityCondition :=
  let eliminated := evaluations.map fun evaluation =>
    let id := resourceIDText evaluation.stamp
    match evaluation.eligibility with
    | .eligible =>
      s!"{id}: insufficient swift-NIC capacity (available " ++
        s!"{swiftNICCount evaluation.availableSwiftNICs}, need {requiredSwiftNICs})"
    | _ => s!"{id}: {evaluation.reason}"
  let details := if eliminated = [] then "" else ": " ++ " ; ".intercalate eliminated
  if evaluations.any (·.eligibility = .unknownEligibility) then
    ⟨.unknown, .evaluationIncomplete, "capacity availability could not be established" ++ details⟩
  else if evaluations.any (·.eligibility = .eligible) then
    ⟨.isFalse, .insufficientCapacity,
      s!"no eligible management cluster with at least {requiredSwiftNICs} available swift NICs " ++
        s!"among {evaluations.length} management cluster(s)" ++ details⟩
  else ⟨.isFalse, .noEligibleManagementCluster, "no management cluster is currently eligible" ++
    details⟩

def selectByCapacity (evaluations : List Evaluation) (requiredSwiftNICs : Int) :
    Option Evaluation × CapacityCondition :=
  match evaluations.foldl (selectStep requiredSwiftNICs) none with
  | none => (none, noPlacementCondition evaluations requiredSwiftNICs)
  | some chosen => (some chosen, ⟨.isTrue, .available, "placed on default"⟩)

/-! ## The decision -/

/-- The pending list has the cluster, whatever the case of the letters. -/
def isPending (scheduling : ManagementClusterScheduling) (id : String) : Bool :=
  scheduling.pendingAssignedClusters.any fun entry => entry.map toLower = some (toLower id)

def reservePendingAssignment (stamp id : String)
    (scheduling : Versioned ManagementClusterScheduling) : Prog (Option String) := do
  if isPending scheduling.doc id then return none
  else
    match ← perform (Call.replaceScheduling .placement (toLower stamp) scheduling.etag
        { scheduling.doc with
          pendingAssignedClusters := scheduling.doc.pendingAssignedClusters ++ [some id] }) with
    | none => return none
    | some err =>
      return some s!"failed to reserve pending assignment on management cluster {quote (resourceIDText stamp)}: {err}"

def recordPlacementDecision (id : String) (existing : Versioned ServiceProviderCluster)
    (chosen : Option String) (condition : CapacityCondition) : Prog (Option String) := do
  let updated : ServiceProviderCluster :=
    { existing.doc with
      intended := chosen.or existing.doc.intended
      capacityAvailable := some condition }
  if updated = existing.doc then return none
  else
    match ← perform (Call.replaceServiceProviderCluster (toLower id) existing.etag updated) with
    | none => return none
    | some err => return some ("failed to record ServiceProviderCluster placement: " ++ err)

def needsWork (serviceProviderCluster : ServiceProviderCluster) (cluster : Cluster) : Bool :=
  serviceProviderCluster.intended.isNone && !cluster.isEnded

/-- What follows the choice of a management cluster. -/
def reserveAndRecord (id : String) (serviceProviderCluster : Versioned ServiceProviderCluster)
    (chosen : Option Evaluation) (condition : CapacityCondition) : Prog (Option String) := do
  match chosen with
  | none => recordPlacementDecision id serviceProviderCluster none condition
  | some chosen =>
    match chosen.scheduling with
    -- only a candidate with a scheduling document is eligible
    | none => return none
    | some scheduling =>
      match ← reservePendingAssignment chosen.stamp id scheduling with
      | some err => return some err
      | none => recordPlacementDecision id serviceProviderCluster (some chosen.stamp) condition

def placementSyncOnce (floats : Floats) (now : Time) (id : String) : Prog (Option String) := do
  match ← perform (Call.cachedServiceProviderCluster .placement (toLower id)) with
  | .error err => return some ("failed to get ServiceProviderCluster from cache: " ++ err)
  | .ok none => return none
  | .ok (some serviceProviderCluster) =>
    match ← perform (Call.cachedCluster (toLower id)) with
    | .error err => return some ("failed to get cluster from cache: " ++ err)
    | .ok none => return none
    | .ok (some cluster) =>
      if needsWork serviceProviderCluster.doc cluster.doc = false then return none
      else
        match ← evaluateManagementClusters floats now with
        | .error err => return some err
        | .ok evaluations =>
          let (chosen, condition) :=
            selectByCapacity evaluations (swiftNICsForCluster (some cluster.doc))
          reserveAndRecord id serviceProviderCluster chosen condition

end AroHcp.Placement
