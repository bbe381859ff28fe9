import Mathlib.Algebra.Ring.Int.Defs
import Mathlib.Data.List.Sort
import AroHcp.Placement.Scheduler

/-! The other writers: where Cluster Service has put a cluster, the sweep that drops stale
reservations, and the reports of the observed capacity and of the ceiling to which a management
cluster can grow. -/

namespace AroHcp.Placement

open DocStore GoFmt Operations Program Quantity

/-! ## Where clusters are -/

def managementClusterPlacementSyncOnce (id : String) : Prog (Option String) := do
  match ← perform (Call.cachedServiceProviderCluster .placementSync (toLower id)) with
  | .error err => return some ("failed to get ServiceProviderCluster from cache: " ++ err)
  | .ok none => return none
  | .ok (some cached) =>
    if cached.doc.observed.isSome then return none
    else
      match ← perform (Call.cachedCluster (toLower id)) with
      | .error err => return some ("failed to get cluster from cache: " ++ err)
      | .ok none => return none
      | .ok (some cluster) =>
        if cluster.doc.clusterServiceID.getD "" = "" then return none
        else
          match ← perform (Call.getServiceProviderCluster (toLower id)) with
          | .error err => return some ("failed to get ServiceProviderCluster: " ++ err)
          | .ok none => return none
          | .ok (some existing) =>
            if existing.doc.observed.isSome then return none
            else
              match ← perform (Call.provisionShard (toLower id)) with
              | .error err => return some err
              | .ok none => return none
              | .ok (some stamp) =>
                match ← perform (Call.replaceServiceProviderCluster (toLower id) existing.etag
                    { existing.doc with observed := some stamp }) with
                | none => return none
                | some err => return some ("failed to update ServiceProviderCluster: " ++ err)

/-! ## Stale reservations -/

def shouldKeepPending (stamp : String) : Option String → Prog (Except String Bool)
  | none => return .ok false
  | some id => do
    match ← perform (Call.cachedServiceProviderCluster .pendingCleanup (toLower id)) with
    | .error err =>
      return .error s!"failed to get ServiceProviderCluster for pending assignment {quote id}: {err}"
    | .ok none => return .ok false
    | .ok (some serviceProviderCluster) =>
      -- where the cluster is takes precedence over where it is to be
      match serviceProviderCluster.doc.observed.or serviceProviderCluster.doc.intended with
      | some placement => return .ok (toLower placement = toLower stamp)
      | none =>
        match ← perform (Call.cachedCluster (toLower id)) with
        | .error err => return .error s!"failed to get cluster for pending assignment {quote id}: {err}"
        | .ok none => return .ok true
        | .ok (some cluster) => return .ok (!cluster.doc.isEnded)

/-- The entries that are kept. -/
def keepPending (stamp : String) : List (Option String) → Prog (Except String (List (Option String)))
  | [] => return .ok []
  | entry :: rest => do
    match ← shouldKeepPending stamp entry with
    | .error err => return .error err
    | .ok keep =>
      match ← keepPending stamp rest with
      | .error err => return .error err
      | .ok kept => return .ok (if keep then entry :: kept else kept)

def pendingCleanupSyncOnce (stamp : String) : Prog (Option String) := do
  match ← perform (Call.cachedScheduling (toLower stamp)) with
  | .error err =>
    return some s!"failed to get scheduling document for management cluster {quote stamp} from cache: {err}"
  | .ok none => return none
  | .ok (some existing) =>
    if existing.doc.pendingAssignedClusters = [] then return none
    else
      match ← keepPending stamp existing.doc.pendingAssignedClusters with
      | .error err => return some err
      | .ok kept =>
        if kept = existing.doc.pendingAssignedClusters then return none
        else
          match ← perform (Call.replaceScheduling .pendingCleanup (toLower stamp) existing.etag
              { existing.doc with pendingAssignedClusters := kept }) with
          | none => return none
          | some err =>
            return some s!"failed to update scheduling document for management cluster {quote stamp}: {err}"

/-! ## Observed capacity -/

def getOrCreateScheduling (stamp : String) :
    Prog (Except String (Versioned ManagementClusterScheduling)) := do
  match ← perform (Call.getScheduling stamp) with
  | .error err => return .error err
  | .ok (some existing) => return .ok existing
  | .ok none =>
    match ← perform (Call.createScheduling stamp) with
    | .error err => return .error err
    | .ok (some created) => return .ok created
    | .ok none =>
      match ← perform (Call.getScheduling stamp) with
      | .error err => return .error err
      | .ok (some existing) => return .ok existing
      | .ok none => return .error "not found"

/-- The raw resource IDs of a report that are not empty and parse, lowered, each once. -/
def canonicalIDs (parses : String → Bool) (ids : List String) : List String :=
  ((ids.map toLower).filter fun id => id ≠ "" && parses id).dedup

def parseResourceIDs (parses : String → Bool) (ids : List String) : List (Option String) :=
  ((canonicalIDs parses ids).insertionSort (· ≤ ·)).map some

def dropObservedPendingAssignments (pending : List (Option String)) (listed : List String) :
    List (Option String) :=
  pending.filter fun entry => entry.any fun id => toLower id ∉ listed.map toLower

def computeObservedResources (report : CapacityReport) : ObservedResources where
  lastReportedAt := report.lastReportedAt
  capacity :=
    let total (name : ResourceName) : Option Int :=
      match report.nodes.filterMap fun node => node.allocatable.get name with
      | [] => none
      | quantities => some quantities.sum
    ⟨total .cpu, total .memory, total .swiftNIC⟩
  usage := report.usage
  requests := report.requested

def CapacityReport.listed (report : CapacityReport) : List String :=
  report.readyResourceIDs ++ report.notReadyResourceIDs

def observedUpdate (parses : String → Bool) (report : CapacityReport)
    (existing : ManagementClusterScheduling) : ManagementClusterScheduling :=
  { existing with
    capacityDataCurrent := report.isReportCurrent
    observedResources := computeObservedResources report
    readyResourceIDs := parseResourceIDs parses report.readyResourceIDs
    notReadyResourceIDs := parseResourceIDs parses report.notReadyResourceIDs
    pendingAssignedClusters :=
      dropObservedPendingAssignments existing.pendingAssignedClusters report.listed }

/-- Writes an update of the scheduling document of a stamp, if it changes anything. -/
def persist (stamp : String) (update : ManagementClusterScheduling → ManagementClusterScheduling) :
    Prog (Option String) := do
  match ← getOrCreateScheduling stamp with
  | .error err => return some err
  | .ok existing =>
    if update existing.doc = existing.doc then return none
    else perform (Call.replaceScheduling .reporting stamp existing.etag (update existing.doc))

def capacityReportingSyncOnce (parses : String → Bool) (stamp : String) : Prog (Option String) := do
  match ← perform (Call.capacityReport (toLower stamp)) with
  | .error err => return some err
  | .ok none | .ok (some none) => return none
  | .ok (some (some report)) => persist (toLower stamp) (observedUpdate parses report)

/-! ## The scale ceiling -/

def divideQuantity (q : Int) (n : Int) : Int :=
  if n ≤ 0 then 0 else ofMilli ((milliValue q).tdiv n)

def swiftNICsPerNode (nodes : List NodeSKUCapacity) (pool : AgentPool) (vmSize : String) :
    Option Int :=
  let observed := do
    let node ← nodes.reverse.find? (·.sku = vmSize)
    guard (0 < node.ready ∧ node.allocatable ≠ {})
    return node.allocatable.swiftNIC.map (divideQuantity · node.ready)
  match observed with
  | some quantity => quantity
  | none => pool.secondaryNICs.map ofInt

def maxSwiftNICsOf (nodes : List NodeSKUCapacity) (pool : AgentPool) : Option Int := do
  let vmSize ← pool.vmSize
  let _ ← pool.count
  guard pool.isWorkerPool
  let perNode ← swiftNICsPerNode nodes pool vmSize
  return ofMilli (milliValue perNode * pool.maxCount)

def computeMaxCapacity (nodes : List NodeSKUCapacity) (pools : List AgentPool) : Option Int :=
  match pools.filterMap (maxSwiftNICsOf nodes) with
  | [] => none
  | quantities => some quantities.sum

/-- What `persistMaxCapacity` writes. The time of the last result stays if nothing else changes. -/
def ceilingUpdate (max : Option Int) (now : Time) (existing : ManagementClusterScheduling) :
    ManagementClusterScheduling :=
  let updated := { existing with scalingDataCurrent := true, scaleCeiling := max }
  if existing.scaleCeilingReportedAt.isSome ∧ updated = existing then existing
  else { updated with scaleCeilingReportedAt := some now }

def scaleCeilingSyncOnce (now : Time) (stamp : String) : Prog (Option String) := do
  match ← perform (Call.aksResourceID (toLower stamp)) with
  | .error err => return some err
  | .ok false => return none
  | .ok true =>
    match ← perform (Call.capacityReport (toLower stamp)) with
    | .error err => return some err
    | .ok none => return none
    | .ok (some report) =>
      match ← perform (Call.agentPools (toLower stamp)) with
      | .error err => return some err
      | .ok pools =>
        let max := computeMaxCapacity (report.elim [] (·.nodes)) pools
        persist (toLower stamp) (ceilingUpdate max now)

end AroHcp.Placement
