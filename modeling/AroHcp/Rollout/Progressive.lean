import AroHcp.Rollout.Status

/-! The z-stream progressive rollout of one channel: which clusters may advance, how many advance
now, and the writes of one sync. Logging and the conditions recorded on the rollout are left out. -/

namespace AroHcp.Rollout

open GoFmt SemVer Tally

variable {V : Type} [SemVer V]

/-! ## Eligibility -/

/-- The lowercased IDs of clusters that the forced assignment controller owns. -/
def clustersWithExperimentalAssignment (clusters : List (Cluster V)) : List String :=
  clusters.filterMap fun cluster =>
    if cluster.controlPlaneExactVersion.isSome ||
        cluster.zStreamUpdatePolicy = immediateZStreamUpdatePolicy then
      cluster.id.map toLower
    else none

/-- The cluster has no pin, or one whose release threshold `best` has reached. -/
def pinAllows (pin : PinnedVersion V) (best : V) : Bool :=
  match pin.exactVersion, pin.untilExactVersion with
  | none, _ => true
  | some _, some untilVersion => lte untilVersion best
  | some _, none => false

def eligibleClusters (spcs : List (ServiceProviderCluster V)) (best : V)
    (experimental : List String) : List (ServiceProviderCluster V) :=
  spcs.filter fun spc =>
    !((parentKey spc).any fun key => key ∈ experimental) &&
      (spc.desiredVersion.any fun desired => lt desired best) && pinAllows spc.pinnedVersion best

/-! ## Decision -/

inductive RolloutOutcome where
  | noBest
  | failure
  | stable
  | canary
  | progressing
  | rolling
deriving DecidableEq, Repr

structure RolloutDecision where
  outcome : RolloutOutcome
  selectCount : Int := 0
  message : String
deriving DecidableEq, Repr

def failureBudgetAbsolute : Int := 2

/-- `max(2, 0.05 * desiredAtBest)`. The source computes it in `float64`, which decides the
comparison with a count alike for fewer than 2^50 clusters. -/
def failureBudget (desiredAtBest : Int) : ℚ :=
  max failureBudgetAbsolute (5 / 100 * desiredAtBest)

def rolloutDecision (bestExactVersion : Option V) (status : RolloutCounts)
    (totalClusters eligibleCount : Int) (config : RolloutConfig) : RolloutDecision :=
  match bestExactVersion with
  | none => { outcome := .noBest, message := "no best version selected yet" }
  | some best =>
    let key := text best
    let failed := valueAt status.failed key
    let successful := valueAt status.successful key
    let inFlightOrDone := valueAt status.mismatched key + valueAt status.achieved key
    let canaryThreshold := percentOfCeil config.canaryPercentage totalClusters + 2
    let rollingThreshold := percentOfCeil config.rollingPercentage totalClusters
    let inFlight := max 0 (inFlightOrDone - successful)
    if failureBudget (valueAt status.desired key) < failed then
      { outcome := .failure,
        message := s!"{failed} clusters failed to reach {key}, exceeding the failure budget" }
    else if eligibleCount = 0 then
      { outcome := .stable, message := s!"no clusters eligible to advance to {key}" }
    else if inFlightOrDone < canaryThreshold then
      let n := min (canaryThreshold - inFlightOrDone) eligibleCount
      { outcome := .canary, selectCount := n,
        message := s!"selecting {n} canary clusters for {key}" }
    else if successful < percentOfCeil config.canaryPercentage totalClusters then
      { outcome := .progressing,
        message := s!"waiting for canaries to become successful at {key}" }
    else if inFlight < rollingThreshold then
      let n := min (rollingThreshold - inFlight) eligibleCount
      { outcome := .rolling, selectCount := n,
        message := s!"selecting {n} rolling clusters for {key}" }
    else { outcome := .progressing, message := s!"rollout to {key} in progress" }

/-! ## One sync -/

abbrev ClusterSelector (V : Type) :=
  List (ServiceProviderCluster V) → Nat → List (ServiceProviderCluster V)

def planBatch (config : RolloutConfig) (select : ClusterSelector V) (clusters : List (Cluster V))
    (members : List (ServiceProviderCluster V)) (best : Option V) (now : Time) :
    RolloutDecision × List (ServiceProviderCluster V) :=
  let counts := computeRolloutStatusCounts members config now
  let eligible := (best.map fun best =>
    eligibleClusters members best (clustersWithExperimentalAssignment clusters)).getD []
  let decision := rolloutDecision best counts members.length eligible.length config
  (decision, if 0 < decision.selectCount then select eligible decision.selectCount.toNat else [])

inductive WriteResult where
  | stored
  | conflict
  | failed (message : String)
deriving DecidableEq, Repr

def assignDesiredVersion (spc : ServiceProviderCluster V) (best : V) (now : Time)
    (answer : WriteResult) : Except String (Option (ServiceProviderCluster V)) :=
  match serviceProviderClusterCoords spc with
  | none => .error "ServiceProviderCluster is missing a cluster-scoped resource ID"
  | some (subscription, resourceGroup, cluster) =>
    match answer with
    | .stored => .ok (some (setDesiredVersion spc best now))
    | .conflict => .ok none
    | .failed e => .error (s!"failed to replace ServiceProviderCluster {subscription}/" ++
        s!"{resourceGroup}/{cluster}: {e}")

/-- What one sync reads, and how its reservation and its assignments are answered. -/
structure SyncInput (V : Type) where
  channel : String
  rollout : Option (ControlPlaneVersionRollout V)
  clusters : List (Cluster V)
  serviceProviderClusters : List (ServiceProviderCluster V)
  now : Time
  reservation : WriteResult
  assignment : Nat → WriteResult

structure SyncResult (V : Type) where
  requeueAfter : Option Int := none
  decision : Option RolloutDecision := none
  /-- the documents that were replaced, each with its replacement -/
  assigned : List (ServiceProviderCluster V × ServiceProviderCluster V) := []
  errors : List String := []

/-- What is left of the minute after the last batch. -/
def cooldownRemaining (rollout : ControlPlaneVersionRollout V) (now : Time) : Option Int :=
  rollout.lastAssignmentTime.bind fun last =>
    if 0 < last + minute - now then some (last + minute - now) else none

/-- The assignments of a reserved batch. -/
def assignAll (selected : List (ServiceProviderCluster V)) (best : V) (now : Time)
    (answer : Nat → WriteResult) :
    List (ServiceProviderCluster V × Except String (Option (ServiceProviderCluster V))) :=
  selected.zipIdx.map fun attempt =>
    (attempt.1, assignDesiredVersion attempt.1 best now (answer attempt.2))

def storedAttempt :
    ServiceProviderCluster V × Except String (Option (ServiceProviderCluster V)) →
      Option (ServiceProviderCluster V × ServiceProviderCluster V)
  | (old, .ok (some new)) => some (old, new)
  | _ => none

def failedAttempt :
    ServiceProviderCluster V × Except String (Option (ServiceProviderCluster V)) → Option String
  | (_, .error e) => some e
  | _ => none

def syncOnce (config : RolloutConfig) (select : ClusterSelector V) (input : SyncInput V) :
    SyncResult V :=
  match input.rollout with
  | none => {}
  | some rollout =>
    match cooldownRemaining rollout input.now with
    | some remaining => { requeueAfter := some remaining }
    | none =>
      match filterServiceProviderClustersForChannel input.clusters input.serviceProviderClusters
          input.channel with
      | .error e => { errors := [e] }
      | .ok members =>
        let plan := planBatch config select input.clusters members rollout.bestExactVersion
          input.now
        match rollout.bestExactVersion, input.reservation with
        | some best, .stored =>
          let attempts := assignAll plan.2 best input.now input.assignment
          { decision := some plan.1
            assigned := attempts.filterMap storedAttempt
            errors := attempts.filterMap failedAttempt }
        | some _, .failed e =>
          if 0 < plan.1.selectCount then
            { errors := [s!"failed to reserve rollout assignment batch: {e}"] }
          else { decision := some plan.1 }
        | _, _ => { decision := some plan.1 }

def randomClusterSelector (permutation : Nat → List Nat) : ClusterSelector V := fun candidates n =>
  if candidates.length ≤ n then candidates
  else ((permutation candidates.length).take n).filterMap fun i => candidates[i]?

end AroHcp.Rollout
