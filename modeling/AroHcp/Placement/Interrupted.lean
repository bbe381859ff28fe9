import AroHcp.Lib.Trace
import AroHcp.Placement.Accounting
import Mathlib.Data.List.ReduceOption
import Mathlib.Tactic.Ring

/-! A placement that was interrupted after its reservation runs again. The reservations that earlier
runs left behind are counted like those of any other cluster, also against the cluster they are for.
-/

namespace AroHcp.Placement

open DocStore GoFmt Operations Program Quantity

/-- A run with caches that are up to date. The calls that `accepts` names are carried out if their
ETag is the current one; the other writes fail. -/
def handle (managementClusters : List (Option ManagementCluster)) (accepts : Call → Bool) :
    (c : Call) → System → c.Reply × System
  | .cachedCluster id, s => (.ok (s.store.current (.cluster id)), s)
  | .cachedServiceProviderCluster _ id, s | .getServiceProviderCluster id, s =>
    (.ok (s.store.current (.serviceProviderCluster id)), s)
  | .cachedScheduling stamp, s => (.ok (s.store.current (.scheduling stamp)), s)
  | .getScheduling stamp, s => (.ok (s.store.current (.scheduling stamp)), s)
  | .managementClusters, s => (.ok managementClusters, s)
  | .capacityReport _, s => (.ok none, s)
  | .aksResourceID _, s => (.ok false, s)
  | .agentPools _, s => (.ok [], s)
  | .provisionShard _, s => (.ok none, s)
  | .createScheduling _, s => (.error "not available", s)
  | .replaceServiceProviderCluster id etag doc, s =>
    match s.store.replace (.serviceProviderCluster id) etag doc with
    | some store =>
      if accepts (.replaceServiceProviderCluster id etag doc) then (none, { s with store })
      else (some "unavailable", s)
    | none => (some "precondition failed", s)
  | .replaceScheduling writer stamp etag doc, s =>
    match s.store.replace (.scheduling stamp) etag doc, s.store.current (.scheduling stamp) with
    | some store, some before =>
      if accepts (.replaceScheduling writer stamp etag doc) then
        (none, { s with store, placed := placements writer before.doc doc ++ s.placed })
      else (some "unavailable", s)
    | _, _ => (some "precondition failed", s)

/-! ## What is asked -/

def intendedOf (s : System) (id : String) : Option String :=
  (s.store.current (.serviceProviderCluster (toLower id))).bind (·.doc.intended)

section

variable (managementClusters : List (Option ManagementCluster)) (floats : Floats) (now : Time)
  (id : String)

def afterSync (s : System) : System :=
  (run (handle managementClusters fun _ => true) (placementSyncOnce floats now id) s).2

def Places (s : System) : Prop :=
  (intendedOf (afterSync managementClusters floats now id s) id).isSome = true

instance (s : System) : Decidable (Places managementClusters floats now id s) :=
  inferInstanceAs (Decidable (_ = true))

def isOwn (entry : Option String) : Bool :=
  entry.map toLower = some (toLower id)

def schedulingWithoutOwn (scheduling : ManagementClusterScheduling) : ManagementClusterScheduling :=
  { scheduling with
    pendingAssignedClusters := scheduling.pendingAssignedClusters.filter fun e => !isOwn id e }

def dropOwn : (k : Key) → Doc k → Doc k
  | .scheduling _, doc => schedulingWithoutOwn id doc
  | .cluster _, doc => doc
  | .serviceProviderCluster _, doc => doc

/-- The documents without the reservations for the cluster. -/
def withoutOwn (s : System) : System :=
  { s with store := s.store.map (dropOwn id) }

end

/-! ## Room -/

def clusterDocs (s : System) (id : String) : Option Cluster :=
  (s.store.current (.cluster id)).map (·.doc)

def Candidate (managementClusters : List (Option ManagementCluster)) (s : System)
    (scheduling : ManagementClusterScheduling) : Prop :=
  ∃ managementCluster v, some managementCluster ∈ managementClusters ∧
    managementCluster.stampIdentifier ≠ "" ∧
    s.store.current (.scheduling (toLower managementCluster.stampIdentifier)) = some v ∧
    v.doc = scheduling ∧ (eligibilityOf managementCluster (some scheduling)).1 = .eligible

/-- The NICs that are left when no reservation for the cluster counts. -/
def freeSwiftNICs (s : System) (id : String) (scheduling : ManagementClusterScheduling) : Int :=
  ceiling scheduling -
    max (scheduling.observedResources.usage.swiftNIC.getD 0)
      (scheduling.observedResources.requests.swiftNIC.getD 0) -
    ofInt (nics (clusterDocs s) scheduling.notReadyResourceIDs +
      nics (clusterDocs s) (scheduling.pendingAssignedClusters.filter fun e => !isOwn id e))

def ownCount (id : String) (scheduling : ManagementClusterScheduling) : Nat :=
  scheduling.pendingAssignedClusters.countP (isOwn id)

def RoomBesideOwn (managementClusters : List (Option ManagementCluster)) (s : System) (id : String)
    (cluster : Cluster) : Prop :=
  cluster.isEnded = false →
    (∃ scheduling, Candidate managementClusters s scheduling ∧
      swiftNICsForCluster (some cluster) ≤ value (freeSwiftNICs s id scheduling)) →
    ∃ scheduling, Candidate managementClusters s scheduling ∧
      swiftNICsForCluster (some cluster) ≤ value (freeSwiftNICs s id scheduling -
        ofInt (ownCount id scheduling * swiftNICsForCluster (some cluster)))

/-! ## The run -/

section Run

variable {managementClusters : List (Option ManagementCluster)} {accepts : Call → Bool}
  {floats : Floats} {now : Time} {id : String} {s : System}

theorem run_swiftNICsForResourceID :
    run (handle managementClusters accepts) (swiftNICsForResourceID id) s =
      (need (clusterDocs s) (toLower id), s) := by
  unfold swiftNICsForResourceID
  rw [run_perform_bind]
  unfold handle need clusterDocs
  dsimp only
  cases s.store.current (.cluster (toLower id)) with
  | none => rfl
  | some v => rfl

theorem run_swiftNICReservation (ids : List (Option String)) :
    run (handle managementClusters accepts) (swiftNICReservation ids) s =
      (nics (clusterDocs s) ids, s) := by
  induction ids with
  | nil => rfl
  | cons entry rest ih =>
    cases entry with
    | none => exact ih
    | some id =>
      unfold swiftNICReservation
      rw [run_bind, run_swiftNICsForResourceID, run_bind, ih]
      rfl

def availableNow (s : System) (scheduling : ManagementClusterScheduling) : Option Int :=
  availableSwiftNICs scheduling (nics (clusterDocs s) scheduling.notReadyResourceIDs +
    nics (clusterDocs s) scheduling.pendingAssignedClusters)

theorem run_availableResources (sched : Option ManagementClusterScheduling) :
    run (handle managementClusters accepts) (availableResources sched) s =
      (sched.bind (availableNow s), s) := by
  cases sched with
  | none => rfl
  | some sched =>
    unfold availableResources
    rw [run_bind, run_swiftNICReservation, run_bind, run_swiftNICReservation]
    rfl

def schedulingOf (s : System) (managementCluster : ManagementCluster) :
    Option (Versioned ManagementClusterScheduling) :=
  if managementCluster.stampIdentifier = "" then none
  else s.store.current (.scheduling (toLower managementCluster.stampIdentifier))

def evaluationOf (floats : Floats) (now : Time) (s : System) (managementCluster : ManagementCluster) :
    Evaluation :=
  let doc := (schedulingOf s managementCluster).map (·.doc)
  { stamp := managementCluster.stampIdentifier
    eligibility := (eligibilityOf managementCluster doc).1
    reason := (eligibilityOf managementCluster doc).2
    availableSwiftNICs := doc.bind (availableNow s)
    contention := doc.bind (resourceContention floats now)
    pendingAssignments := pendingCount doc
    scheduling := schedulingOf s managementCluster }

theorem run_evaluate (mc : ManagementCluster) :
    run (handle managementClusters accepts)
      (evaluate floats now mc (schedulingOf s mc)) s =
      (evaluationOf floats now s mc, s) := by
  unfold evaluate
  rw [run_bind, run_availableResources]
  rfl

theorem run_evaluateEach (l : List (Option ManagementCluster)) :
    run (handle managementClusters accepts) (evaluateEach floats now l) s =
      (.ok (l.reduceOption.map (evaluationOf floats now s)), s) := by
  induction l with
  | nil => rfl
  | cons entry rest ih =>
    cases entry with
    | none => exact ih
    | some mc =>
      have hevaluate := @run_evaluate managementClusters accepts floats now s mc
      unfold evaluateEach
      by_cases hstamp : mc.stampIdentifier = ""
      · rw [show schedulingOf s mc = none from if_pos hstamp] at hevaluate
        rw [if_pos hstamp, run_bind, run_pure]
        rw [run_bind, hevaluate, run_bind, ih]
        rfl
      · rw [show schedulingOf s mc = _ from if_neg hstamp] at hevaluate
        rw [if_neg hstamp, run_perform_bind]
        show run _ (evaluate floats now mc _ >>= _) s = _
        rw [run_bind, hevaluate, run_bind, ih]
        rfl

theorem run_evaluateManagementClusters :
    run (handle managementClusters accepts) (evaluateManagementClusters floats now) s =
      (.ok (managementClusters.reduceOption.map (evaluationOf floats now s)), s) := by
  exact run_evaluateEach managementClusters

/-! ### The choice -/

/-- Something is chosen exactly if an eligible candidate has enough NICs, whatever is preferred. -/
theorem isSome_foldl_selectStep {required : Int} {evaluations : List Evaluation}
    {init : Option Evaluation} :
    (evaluations.foldl (selectStep required) init).isSome = true ↔ init.isSome = true ∨
      ∃ e ∈ evaluations, e.eligibility = .eligible ∧
        required ≤ swiftNICCount e.availableSwiftNICs := by
  induction evaluations generalizing init with
  | nil => simp
  | cons e rest ih =>
    have hstep : (selectStep required init e).isSome = true ↔ init.isSome = true ∨
        (e.eligibility = .eligible ∧ required ≤ swiftNICCount e.availableSwiftNICs) := by
      unfold selectStep
      by_cases heligible : e.eligibility = .eligible
      · rw [if_neg (not_not_intro heligible)]
        by_cases hroom : swiftNICCount e.availableSwiftNICs < required
        · rw [if_pos hroom]
          simp [heligible, not_le.mpr hroom]
        · rw [if_neg hroom]
          simp only [heligible, not_lt.mp hroom, and_self, or_true, iff_true]
          cases init with
          | none => rfl
          | some best =>
            dsimp only
            split_ifs
            · rfl
            · rfl
      · simp [heligible]
    rw [List.foldl_cons, ih, hstep, or_assoc, List.exists_mem_cons_iff]

theorem isSome_selectByCapacity {required : Int} {evaluations : List Evaluation} :
    (selectByCapacity evaluations required).1.isSome = true ↔ ∃ e ∈ evaluations,
      e.eligibility = .eligible ∧ required ≤ swiftNICCount e.availableSwiftNICs := by
  have hfold := @isSome_foldl_selectStep required evaluations none
  unfold selectByCapacity
  generalize evaluations.foldl (selectStep required) none = chosen at hfold ⊢
  cases chosen with
  | none => simpa using hfold
  | some e => simpa using hfold

/-! ### The writes -/

theorem run_recordPlacementDecision {v : Versioned ServiceProviderCluster} {chosen : Option String}
    {condition : CapacityCondition}
    (hv : s.store.current (.serviceProviderCluster (toLower id)) = some v) :
    intendedOf (run (handle managementClusters fun _ => true)
      (recordPlacementDecision id v chosen condition) s).2 id = chosen.or v.doc.intended := by
  unfold recordPlacementDecision
  dsimp only
  split_ifs with hsame
  · rw [run_pure]
    unfold intendedOf
    rw [hv, Option.bind_some]
    exact (congrArg ServiceProviderCluster.intended hsame).symm
  · rw [run_perform_bind]
    have hreplace := s.store.replace_current hv
      { v.doc with intended := chosen.or v.doc.intended, capacityAvailable := some condition }
    unfold handle
    dsimp only
    rw [hreplace]
    unfold intendedOf
    simp

theorem run_reservePendingAssignment {stamp : String} {w : Versioned ManagementClusterScheduling}
    (hw : s.store.current (.scheduling (toLower stamp)) = some w) :
    (run (handle managementClusters fun _ => true) (reservePendingAssignment stamp id w) s).1 = none ∧
      (run (handle managementClusters fun _ => true)
        (reservePendingAssignment stamp id w) s).2.store.current
          (.serviceProviderCluster (toLower id)) =
        s.store.current (.serviceProviderCluster (toLower id)) := by
  unfold reservePendingAssignment
  split_ifs
  · exact ⟨rfl, rfl⟩
  · rw [run_perform_bind]
    have hreplace := s.store.replace_current hw (withPending w.doc id)
    unfold handle
    dsimp only
    rw [hreplace, hw]
    refine ⟨rfl, ?_⟩
    exact Store.put_current_of_ne s.store _ (by simp)

/-- What follows the choice places the cluster exactly if something was chosen. -/
theorem run_reserveAndRecord {v : Versioned ServiceProviderCluster} {chosen : Option Evaluation}
    {condition : CapacityCondition}
    (hv : s.store.current (.serviceProviderCluster (toLower id)) = some v)
    (hnone : v.doc.intended = none)
    (hchosen : ∀ e, chosen = some e →
      ∃ w, e.scheduling = some w ∧ s.store.current (.scheduling (toLower e.stamp)) = some w) :
    (intendedOf (run (handle managementClusters fun _ => true)
      (reserveAndRecord id v chosen condition) s).2 id).isSome = chosen.isSome := by
  unfold reserveAndRecord
  cases chosen with
  | none =>
    rw [run_recordPlacementDecision hv, hnone]
    rfl
  | some e =>
    obtain ⟨w, hscheduling, hw⟩ := hchosen e rfl
    obtain ⟨hresult, hkept⟩ := @run_reservePendingAssignment managementClusters id s e.stamp w hw
    dsimp only
    rw [hscheduling]
    rw [run_bind, hresult]
    rw [run_recordPlacementDecision (hkept.trans hv)]
    rfl

/-! ### The decision -/

theorem eligible_evaluationOf {mc : ManagementCluster}
    (h : (evaluationOf floats now s mc).eligibility = .eligible) :
    ∃ w, schedulingOf s mc = some w ∧ mc.stampIdentifier ≠ "" ∧
      s.store.current (.scheduling (toLower mc.stampIdentifier)) = some w ∧
      (eligibilityOf mc (some w.doc)).1 = .eligible := by
  have heligible : (eligibilityOf mc
      ((schedulingOf s mc).map (·.doc))).1 = .eligible := h
  cases hscheduling : schedulingOf s mc with
  | none =>
    -- without a scheduling document nothing is known of the capacity
    rw [hscheduling] at heligible
    unfold eligibilityOf at heligible
    split at heligible
    · cases heligible
    · cases heligible
    · split at heligible <;> cases heligible
  | some w =>
    rw [hscheduling] at heligible
    have hfound := hscheduling
    unfold schedulingOf at hfound
    split_ifs at hfound with hstamp
    exact ⟨w, rfl, hstamp, hfound, heligible⟩

/-- An eligible candidate with enough NICs is a management cluster with a scheduling document that
leaves enough of them. -/
theorem exists_evaluation_iff {required : Int} :
    (∃ e ∈ managementClusters.reduceOption.map (evaluationOf floats now s),
      e.eligibility = .eligible ∧ required ≤ swiftNICCount e.availableSwiftNICs) ↔
      ∃ sched, Candidate managementClusters s sched ∧
        required ≤ swiftNICCount (availableNow s sched) := by
  constructor
  · rintro ⟨e, he, heligible, hroom⟩
    obtain ⟨mc, hmem, rfl⟩ := List.mem_map.mp he
    obtain ⟨w, hscheduling, hstamp, hw, heligible'⟩ := eligible_evaluationOf heligible
    refine ⟨w.doc, ⟨mc, w, List.reduceOption_mem_iff.mp hmem, hstamp, hw, rfl,
      heligible'⟩, ?_⟩
    unfold evaluationOf at hroom
    rw [hscheduling] at hroom
    exact hroom
  · rintro ⟨sched, ⟨mc, w, hmem, hstamp, hw, rfl, heligible⟩, hroom⟩
    have hscheduling : schedulingOf s mc = some w := (if_neg hstamp).trans hw
    refine ⟨evaluationOf floats now s mc,
      List.mem_map.mpr ⟨mc, List.reduceOption_mem_iff.mpr hmem, rfl⟩, ?_⟩
    unfold evaluationOf
    rw [hscheduling]
    exact ⟨heligible, hroom⟩

/-- `SyncOnce` places a cluster that is not placed exactly if it is not ended and a candidate has
room for it. -/
theorem places_iff {v : Versioned ServiceProviderCluster} {cluster : Versioned Cluster}
    (hv : s.store.current (.serviceProviderCluster (toLower id)) = some v)
    (hnone : v.doc.intended = none)
    (hcluster : s.store.current (.cluster (toLower id)) = some cluster) :
    Places managementClusters floats now id s ↔ cluster.doc.isEnded = false ∧
      ∃ sched, Candidate managementClusters s sched ∧
        swiftNICsForCluster (some cluster.doc) ≤ swiftNICCount (availableNow s sched) := by
  have hneeds : needsWork v.doc cluster.doc = !cluster.doc.isEnded := by
    unfold needsWork
    rw [hnone]
    rfl
  have hread : handle managementClusters (fun _ => true)
      (.cachedServiceProviderCluster .placement (toLower id)) s = (.ok (some v), s) := by
    rw [handle, hv]
  have hread' : handle managementClusters (fun _ => true) (.cachedCluster (toLower id)) s =
      (.ok (some cluster), s) := by
    rw [handle, hcluster]
  unfold Places afterSync placementSyncOnce
  rw [run_perform_bind, hread]
  rw [run_perform_bind, hread']
  dsimp only
  cases hended : cluster.doc.isEnded with
  | true =>
    rw [hended, Bool.not_true] at hneeds
    rw [if_pos hneeds, run_pure]
    unfold intendedOf
    rw [hv, Option.bind_some, hnone]
    simp
  | false =>
    have hactive : ¬needsWork v.doc cluster.doc = false := by
      rw [hneeds, hended]
      decide
    rw [if_neg hactive, run_bind, run_evaluateManagementClusters]
    rw [run_reserveAndRecord hv hnone, isSome_selectByCapacity, exists_evaluation_iff]
    · simp
    · intro e he
      obtain ⟨hmem, heligible, -⟩ := selectByCapacity_chosen he
      obtain ⟨mc, -, rfl⟩ := List.mem_map.mp hmem
      obtain ⟨w, hscheduling, -, hw, -⟩ := eligible_evaluationOf heligible
      exact ⟨w, hscheduling, hw⟩

/-! ## The cluster's own reservations -/

/-- The reservations for the cluster count once each with the NICs that it needs. -/
theorem nics_eq_filter_add (profile : String → Option Cluster) (ids : List (Option String)) :
    nics profile ids = nics profile (ids.filter fun e => !isOwn id e) +
      ids.countP (isOwn id) * need profile (toLower id) := by
  induction ids with
  | nil => simp [nics]
  | cons entry rest ih =>
    cases entry with
    | none =>
      exact ih
    | some other =>
      cases hown : isOwn id (some other) with
      | true =>
        have hlower : toLower other = toLower id := by simpa [isOwn] using hown
        rw [List.filter_cons, List.countP_cons, hown, nics, ih, hlower]
        simp only [Bool.not_true, Bool.false_eq_true, if_false, if_true]
        push_cast
        ring
      | false =>
        rw [List.filter_cons, List.countP_cons, hown, nics, ih]
        simp [nics, add_assoc]

theorem swiftNICCount_availableNow (sched : ManagementClusterScheduling) :
    swiftNICCount (availableNow s sched) = value (freeSwiftNICs s id sched -
      ofInt (ownCount id sched * need (clusterDocs s) (toLower id))) := by
  unfold availableNow freeSwiftNICs ownCount
  rw [swiftNICCount_eq, availableSwiftNICs_getD,
    @nics_eq_filter_add id (clusterDocs s) sched.pendingAssignedClusters]
  congr 1
  unfold ofInt
  ring

theorem clusterDocs_withoutOwn : clusterDocs (withoutOwn id s) = clusterDocs s := by
  funext other
  unfold clusterDocs withoutOwn
  rw [Store.map_current, Option.map_map]
  rfl

theorem candidate_withoutOwn {sched : ManagementClusterScheduling} :
    Candidate managementClusters (withoutOwn id s) sched ↔
      ∃ before, Candidate managementClusters s before ∧ sched = schedulingWithoutOwn id before := by
  constructor
  · rintro ⟨mc, v, hmem, hstamp, hv, rfl, heligible⟩
    obtain ⟨w, hw, rfl⟩ := Option.map_eq_some_iff.mp hv
    exact ⟨w.doc, ⟨mc, w, hmem, hstamp, hw, rfl, heligible⟩, rfl⟩
  · rintro ⟨before, ⟨mc, w, hmem, hstamp, hw, rfl, heligible⟩, rfl⟩
    refine ⟨mc, ⟨w.etag, schedulingWithoutOwn id w.doc⟩, hmem, hstamp, ?_, rfl, heligible⟩
    unfold withoutOwn
    rw [Store.map_current, hw]
    rfl

/-- Without the reservations for the cluster, what is free is available. -/
theorem swiftNICCount_withoutOwn (sched : ManagementClusterScheduling) :
    swiftNICCount (availableNow (withoutOwn id s) (schedulingWithoutOwn id sched)) =
      value (freeSwiftNICs s id sched) := by
  have hcount : ownCount id (schedulingWithoutOwn id sched) = 0 := by
    unfold ownCount schedulingWithoutOwn
    rw [List.countP_eq_zero]
    intro e he
    simpa using (List.mem_filter.mp he).2
  rw [@swiftNICCount_availableNow id, hcount]
  unfold freeSwiftNICs schedulingWithoutOwn ceiling
  rw [clusterDocs_withoutOwn]
  simp [ofInt]

/-- A cluster that would be placed without the reservations for it is placed with them exactly if
one of the management clusters has room for it beside them. -/
theorem interrupted_placement_iff (managementClusters : List (Option ManagementCluster))
    (floats : Floats) (now : Time) (id : String) (s : System) (v : Versioned ServiceProviderCluster)
    (cluster : Versioned Cluster)
    (hv : s.store.current (.serviceProviderCluster (toLower id)) = some v)
    (hunplaced : v.doc.intended = none)
    (hcluster : s.store.current (.cluster (toLower id)) = some cluster) :
    (Places managementClusters floats now id (withoutOwn id s) →
        Places managementClusters floats now id s) ↔
      RoomBesideOwn managementClusters s id cluster.doc := by
  have hv' : (withoutOwn id s).store.current (.serviceProviderCluster (toLower id)) = some v := by
    unfold withoutOwn
    rw [Store.map_current, hv]
    rfl
  have hcluster' : (withoutOwn id s).store.current (.cluster (toLower id)) = some cluster := by
    unfold withoutOwn
    rw [Store.map_current, hcluster]
    rfl
  have hneed : need (clusterDocs s) (toLower id) = swiftNICsForCluster (some cluster.doc) := by
    unfold need clusterDocs
    rw [hcluster]
    rfl
  rw [places_iff hv hunplaced hcluster, places_iff hv' hunplaced hcluster']
  simp only [candidate_withoutOwn, @swiftNICCount_availableNow id s, hneed]
  constructor
  · rintro h hactive ⟨scheduling, hcandidate, hroom⟩
    refine (h ⟨hactive, _, ⟨scheduling, hcandidate, rfl⟩, ?_⟩).2
    rwa [swiftNICCount_withoutOwn]
  · rintro h ⟨hactive, -, ⟨scheduling, hcandidate, rfl⟩, hroom⟩
    rw [swiftNICCount_withoutOwn] at hroom
    exact ⟨hactive, h hactive ⟨scheduling, hcandidate, hroom⟩⟩

end Run

/-! ## One management cluster -/

section Examples

def onlyManagementCluster : List (Option ManagementCluster) :=
  [some ⟨"m", .schedulable, some .isTrue⟩]

def newCluster (swiftNICs : Int) : System :=
  ⟨((Store.empty.put (.cluster "c") exampleCluster).put (.serviceProviderCluster "c") {}).put
    (.scheduling "m")
    { capacityDataCurrent := true, scalingDataCurrent := true,
      scaleCeiling := some (ofInt swiftNICs) },
    [], []⟩

/-- The first run reserves the NICs, and then its write of the ServiceProviderCluster fails. -/
def interrupted (swiftNICs : Int) : System :=
  (run (handle onlyManagementCluster fun
      | .replaceServiceProviderCluster _ _ _ => false
      | _ => true)
    (placementSyncOnce exampleFloats 1 "c") (newCluster swiftNICs)).2

/-- With three NICs the reservation takes all of them, and the cluster it is for finds none; a sweep
of the reservations keeps it, for the cluster is still to be placed. -/
theorem interrupted_placement_blocks_itself :
    intendedOf (interrupted 3) "c" = none ∧
      Places onlyManagementCluster exampleFloats 1 "c" (withoutOwn "c" (interrupted 3)) ∧
      ¬Places onlyManagementCluster exampleFloats 1 "c" (interrupted 3) ∧
      ¬Places onlyManagementCluster exampleFloats 1 "c"
        (run (handle onlyManagementCluster fun _ => true) (pendingCleanupSyncOnce "m")
          (interrupted 3)).2 := by
  decide +kernel

/-- With six NICs there is room for the cluster beside its own reservation. -/
theorem interrupted_placement_iff_sixNICs :
    RoomBesideOwn onlyManagementCluster (interrupted 6) "c" exampleCluster ∧
      ¬RoomBesideOwn onlyManagementCluster (interrupted 3) "c" exampleCluster := by
  have hcluster : ∀ n, (n = 3 ∨ n = 6) → (interrupted n).store.current (.cluster (toLower "c")) =
      some ⟨0, exampleCluster⟩ := by
    rintro n (rfl | rfl) <;> decide +kernel
  have hv : ∀ n, (n = 3 ∨ n = 6) →
      (interrupted n).store.current (.serviceProviderCluster (toLower "c")) = some ⟨1, {}⟩ := by
    rintro n (rfl | rfl) <;> decide +kernel
  constructor
  · refine (interrupted_placement_iff onlyManagementCluster exampleFloats 1 "c" (interrupted 6)
      ⟨1, {}⟩
      ⟨0, exampleCluster⟩ (hv 6 (.inr rfl)) rfl (hcluster 6 (.inr rfl))).mp ?_
    intro _
    decide +kernel
  · intro hroom
    have hplaces := (interrupted_placement_iff onlyManagementCluster exampleFloats 1 "c"
      (interrupted 3) ⟨1, {}⟩ ⟨0, exampleCluster⟩ (hv 3 (.inl rfl)) rfl
      (hcluster 3 (.inl rfl))).mpr hroom
    revert hplaces
    decide +kernel

end Examples

end AroHcp.Placement
