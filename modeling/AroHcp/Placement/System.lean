import AroHcp.Placement.Reporting

/-! The system of the controllers that place clusters, sweep reservations and report capacity, any
number of each at once, from caches as old as they may be. -/

namespace AroHcp.Placement

open DocStore GoFmt Operations Program Quantity

structure System where
  store : Store Doc
  /-- the stamps with the clusters that a capacity report of theirs has listed -/
  reported : List (String × String)
  /-- the placement writes: a scheduling document before and after -/
  placed : List (ManagementClusterScheduling × ManagementClusterScheduling)

def System.empty : System := ⟨Store.empty, [], []⟩

def WholeNICs (scheduling : ManagementClusterScheduling) : Prop :=
  IsWhole (scheduling.scaleCeiling.getD 0) ∧
    IsWhole (scheduling.observedResources.usage.swiftNIC.getD 0) ∧
    IsWhole (scheduling.observedResources.requests.swiftNIC.getD 0)

instance (scheduling : ManagementClusterScheduling) : Decidable (WholeNICs scheduling) :=
  inferInstanceAs (Decidable (_ ∧ _ ∧ _))

/-- What is known of the runs: that only whole numbers of NICs are reported, and that the cache of a
sweep has every ServiceProviderCluster that is stored and Cluster Service has every cluster where it
is to be. -/
structure Regime where
  whole : Bool
  complete : Bool

/-- The stamp with the clusters that the answer to a request for its report lists. -/
def listedBy (stamp : String) : Except String (Option (Option CapacityReport)) →
    List (String × String)
  | .ok (some (some report)) => report.listed.map fun id => (stamp, toLower id)
  | _ => []

/-- A read of a cache: any version that was stored at some time, nothing, or an error. -/
def cacheRead {k : Key} (s : System) (r : Read (Doc k)) : Prop :=
  ∀ v, r = .ok (some v) → s.store.Past k v

/-- A placement write is remembered. -/
def placements (writer : Actor) (before after : ManagementClusterScheduling) :
    List (ManagementClusterScheduling × ManagementClusterScheduling) :=
  if writer = .placement then [(before, after)] else []

/-- A write with another ETag than the current one is refused; one that is accepted may be reported
as failed. -/
def sem (regime : Regime) : Semantics System Call Call.Reply
  | .cachedCluster id, s, r, s' => cacheRead (k := .cluster id) s r ∧ s' = s
  | .cachedServiceProviderCluster reader id, s, r, s' =>
    cacheRead (k := .serviceProviderCluster id) s r ∧
      (regime.complete = true → reader = .pendingCleanup → r = .ok none →
        s.store.current (.serviceProviderCluster id) = none) ∧ s' = s
  | .cachedScheduling stamp, s, r, s' => cacheRead (k := .scheduling stamp) s r ∧ s' = s
  | .getScheduling stamp, s, r, s' =>
    (∀ o, r = .ok o → s.store.current (.scheduling stamp) = o) ∧ s' = s
  | .getServiceProviderCluster id, s, r, s' =>
    (∀ o, r = .ok o → s.store.current (.serviceProviderCluster id) = o) ∧ s' = s
  | .provisionShard id, s, r, s' =>
    (regime.complete = true → ∀ stamp v, r = .ok (some stamp) →
      s.store.current (.serviceProviderCluster id) = some v → v.doc.intended = some stamp) ∧ s' = s
  | .createScheduling stamp, s, r, s' =>
    (∃ store, s.store.create (.scheduling stamp) {} = some store ∧
      (∀ o, r = .ok o → o = store.current (.scheduling stamp)) ∧ s' = { s with store }) ∨
      (∀ v, r ≠ .ok (some v)) ∧ s' = s
  | .capacityReport stamp, s, r, s' => s' = { s with reported := listedBy stamp r ++ s.reported }
  | .replaceServiceProviderCluster id etag doc, s, r, s' =>
    (∃ store, s.store.replace (.serviceProviderCluster id) etag doc = some store ∧
      s' = { s with store }) ∨ (∃ err, r = some err) ∧ s' = s
  | .replaceScheduling writer stamp etag doc, s, r, s' =>
    (∃ store before, s.store.replace (.scheduling stamp) etag doc = some store ∧
      s.store.current (.scheduling stamp) = some before ∧
      (regime.whole = true → writer = .reporting → WholeNICs doc) ∧
      s' = { s with store, placed := placements writer before.doc doc ++ s.placed }) ∨
      (∃ err, r = some err) ∧ s' = s
  | _, s, _, s' => s' = s

/-! ## The clusters -/

section

variable (profile : String → Option Cluster)

def need (id : String) : Int := swiftNICsForCluster (profile id)

/-- What happens to clusters meanwhile: they are created under names that are new, go through their
operations, and are deleted. -/
inductive Lifecycle : System → System → Prop
  | createCluster (s : System) (id : String) (cluster : Cluster)
      (hnew : ∀ v, ¬s.store.Past (.cluster id) v)
      (hneed : swiftNICsForCluster (some cluster) = need profile id) :
      Lifecycle s { s with store := s.store.put (.cluster id) cluster }
  | updateCluster (s : System) (id : String) (v : Versioned Cluster) (cluster : Cluster)
      (hcurrent : s.store.current (.cluster id) = some v)
      (hneed : swiftNICsForCluster (some cluster) = need profile id) :
      Lifecycle s { s with store := s.store.put (.cluster id) cluster }
  | deleteCluster (s : System) (id : String) :
      Lifecycle s { s with store := s.store.remove (.cluster id) }
  | createServiceProviderCluster (s : System) (id : String)
      (hnew : ∀ v, ¬s.store.Past (.serviceProviderCluster id) v) :
      Lifecycle s { s with store := s.store.put (.serviceProviderCluster id) {} }
  | deleteServiceProviderCluster (s : System) (id : String) :
      Lifecycle s { s with store := s.store.remove (.serviceProviderCluster id) }

/-! ## Accounts -/

def nics : List (Option String) → Int
  | [] => 0
  | none :: rest => nics rest
  | some id :: rest => need profile (toLower id) + nics rest

def load (scheduling : ManagementClusterScheduling) : Int :=
  max (scheduling.observedResources.usage.swiftNIC.getD 0)
      (scheduling.observedResources.requests.swiftNIC.getD 0) +
    ofInt (nics profile scheduling.notReadyResourceIDs) +
    ofInt (nics profile scheduling.pendingAssignedClusters)

def ceiling (scheduling : ManagementClusterScheduling) : Int :=
  scheduling.scaleCeiling.getD 0

end

def HasPending (scheduling : ManagementClusterScheduling) (id : String) : Prop :=
  ∃ entry ∈ scheduling.pendingAssignedClusters, entry.map toLower = some id

/-- Every cluster that is to be on a management cluster, has never been deleting or at the end of an
operation and is in none of its reports yet, is in its pending list. -/
def Accounted (s : System) : Prop :=
  ∀ id v stamp, s.store.current (.serviceProviderCluster id) = some v →
    v.doc.intended = some stamp → (∀ u, s.store.Past (.cluster id) u → u.doc.isEnded = false) →
    (toLower stamp, id) ∉ s.reported →
    ∃ w, s.store.current (.scheduling (toLower stamp)) = some w ∧ HasPending w.doc id

inductive Task where
  | placement (now : Time) (id : String)
  | managementClusterPlacementSync (id : String)
  | pendingCleanup (stamp : String)
  | capacityReporting (stamp : String)
  | scaleCeiling (now : Time) (stamp : String)

def program (floats : Floats) (parses : String → Bool) : Task → Prog (Option String)
  | .placement now id => placementSyncOnce floats now id
  | .managementClusterPlacementSync id => managementClusterPlacementSyncOnce id
  | .pendingCleanup stamp => pendingCleanupSyncOnce stamp
  | .capacityReporting stamp => capacityReportingSyncOnce parses stamp
  | .scaleCeiling now stamp => scaleCeilingSyncOnce now stamp

end AroHcp.Placement
