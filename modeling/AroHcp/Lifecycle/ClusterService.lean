import AroHcp.Lib.DocWorld
import AroHcp.Lib.GoFmt
import AroHcp.Rollout.Types

/-! The documents of one cluster that its creation and deletion in Cluster Service read and write,
and Cluster Service itself with the clock the controllers share. -/

namespace AroHcp.Lifecycle

open DocStore Rollout

/-- A Cluster Service ID, by the path element after `clusters`; the zero value has none. -/
structure InternalID where
  clusterID : String
deriving DecidableEq, Repr

/-- The fields of a cluster document that its lifecycle in Cluster Service depends on. -/
structure Cluster where
  deletionTimestamp : Option Time := none
  clusterServiceDeletionTimestamp : Option Time := none
  pendingClusterServiceID : Option InternalID := none
  clusterServiceID : Option InternalID := none
  baseDomain : String := ""
  baseDomainPrefix : String := ""
  managedResourceGroup : String := ""
deriving DecidableEq, Repr

def Cluster.hasClusterServiceID (cluster : Cluster) : Bool :=
  cluster.clusterServiceID.any (·.clusterID ≠ "")

structure ManagementClusterResourceID where
  parentName : Option String
deriving DecidableEq, Repr

structure DenyAssignments where
  pendingAzureResources : List String := []
  azureResources : List String := []
  earliestRecheckTime : Option Time := none
deriving DecidableEq, Repr

structure ServiceProviderCluster where
  managementClusterResourceID : Option ManagementClusterResourceID := none
  desiredVersion : Option String := none
  denyAssignments : DenyAssignments := {}
deriving DecidableEq, Repr

structure Subscription where
  tenantId : Option String
deriving DecidableEq, Repr

structure ManagementCluster where
  clusterServiceProvisionShardID : Option String
deriving DecidableEq, Repr

inductive DocKey where
  | cluster
  | serviceProviderCluster
  | subscription
  | managementCluster (stampIdentifier : String)
deriving DecidableEq, Repr

@[reducible] def Doc : DocKey → Type
  | .cluster => Cluster
  | .serviceProviderCluster => ServiceProviderCluster
  | .subscription => Subscription
  | .managementCluster _ => ManagementCluster

/-! ## Cluster Service -/

structure AzureInfo where
  subscriptionID : String
  resourceGroupName : String
  resourceName : String
  tenantID : String
  managedResourceGroupName : String
deriving DecidableEq, Repr

structure CSCluster where
  id : String
  azure : Option AzureInfo
  provisionShardID : String
deriving DecidableEq, Repr

/-- A POST that Cluster Service may carry out until the caller's deadline. -/
structure Post where
  cluster : CSCluster
  deadline : Time
deriving DecidableEq, Repr

/-- What Cluster Service holds for the cluster's Azure resource, beside the clock and the delete
dispatcher's memory. `posted` and `created` list the IDs of every POST sent and of every cluster
made. -/
structure Remote where
  now : Time
  firstSeen : Option Time := none
  inflight : List Post := []
  clusters : List CSCluster := []
  deleting : List String := []
  posted : List String := []
  created : List String := []
deriving DecidableEq, Repr

def Remote.ids (o : Remote) : List String :=
  o.clusters.map (·.id)

inductive Call where
  | now
  | firstSeen
  | addFirstSeen (t : Time)
  | removeFirstSeen
  | listClusters (deadline : Time)
  | postCluster (cluster : CSCluster) (deadline : Time)
  | postReply (cluster : CSCluster) (deadline : Time)
  | deleteCluster (id : InternalID) (deadline : Time)
  | getClusterStatus (id : InternalID) (deadline : Time)
  /-- time passes -/
  | tick (duration : Nat)
  /-- Cluster Service carries out a POST -/
  | takeEffect (place : Nat)
  /-- Cluster Service finishes a deletion -/
  | uninstall (id : String)
  /-- the dispatcher restarts, or its cache drops the entry -/
  | forget
deriving DecidableEq, Repr

inductive Status where
  | ok
  | notFound
  | failed
deriving DecidableEq, Repr

@[reducible] def Call.Reply : Call → Type
  | now => Time
  | firstSeen => Option Time
  | listClusters _ => Option (List CSCluster)
  | postReply _ _ => Option CSCluster
  | deleteCluster _ _ | getClusterStatus _ _ => Status
  | _ => Unit

/-- Whether a call to Cluster Service is answered, fails, or is carried out although its answer is
lost. -/
inductive Outcome where
  | answered
  | failed
  | lost
deriving DecidableEq, Repr

namespace Call

/-- The answer to a call. Nothing is answered or carried out after the caller's deadline. -/
def answer : (c : Call) → Outcome → Remote → Option (c.Reply × Remote)
  | now, _, o => some (o.now, o)
  | firstSeen, _, o => some (o.firstSeen, o)
  | addFirstSeen t, _, o => some ((), { o with firstSeen := some t })
  | removeFirstSeen, _, o => some ((), { o with firstSeen := none })
  | listClusters deadline, outcome, o =>
    if outcome ≠ .answered then some (none, o)
    else if o.now ≤ deadline then some (some o.clusters, o)
    else none
  | postCluster cluster deadline, _, o =>
    if o.now ≤ deadline then
      some ((), { o with
        inflight := ⟨cluster, deadline⟩ :: o.inflight
        posted := cluster.id :: o.posted })
    else some ((), o)
  | postReply cluster deadline, outcome, o =>
    if outcome ≠ .answered then some (none, o)
    else if o.now ≤ deadline ∧ cluster.id ∈ o.created then some (some cluster, o)
    else none
  | deleteCluster id deadline, outcome, o =>
    if outcome = .failed then some (.failed, o)
    else if o.now ≤ deadline then
      if id.clusterID ∈ o.ids then
        some (if outcome = .lost then .failed else .ok,
          { o with deleting := id.clusterID :: o.deleting })
      else some (.notFound, o)
    else none
  | getClusterStatus id deadline, outcome, o =>
    if outcome ≠ .answered then some (.failed, o)
    else if o.now ≤ deadline then some (if id.clusterID ∈ o.ids then .ok else .notFound, o)
    else none
  | tick duration, _, o => some ((), { o with now := o.now + duration })
  | takeEffect place, _, o =>
    match o.inflight[place]? with
    | some post =>
      if o.now ≤ post.deadline ∧ post.cluster.id ∉ o.ids then
        some ((), { o with
          inflight := o.inflight.eraseIdx place
          clusters := post.cluster :: o.clusters
          created := post.cluster.id :: o.created })
      else none
    | none => none
  | uninstall id, _, o =>
    if id ∈ o.deleting then
      some ((), { o with
        clusters := o.clusters.filter (·.id ≠ id)
        deleting := o.deleting.filter (· ≠ id) })
    else none
  | forget, _, o => some ((), { o with firstSeen := none })

def sem : Program.Semantics Remote Call Call.Reply :=
  fun c o r o' => ∃ outcome, answer c outcome o = some (r, o')

theorem sem_of_answer (c : Call) (outcome : Outcome) (o : Remote) (r : c.Reply) (o' : Remote)
    (h : answer c outcome o = some (r, o')) : sem c o r o' :=
  ⟨outcome, h⟩

end Call

end AroHcp.Lifecycle
