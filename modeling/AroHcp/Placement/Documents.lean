import AroHcp.Lib.DocCall
import AroHcp.Lib.Quantity
import AroHcp.Operations.Documents

/-! The documents of the placement of hosted control planes on management clusters: the cluster and
its ServiceProviderCluster in one database, and for every management cluster a scheduling document
in another. -/

namespace AroHcp.Placement

open DocStore GoFmt Operations Program Quantity

/-! ## Clusters -/

inductive ControlPlaneAvailability where
  | singleReplica
  | other (text : String)
deriving DecidableEq, Repr

structure Cluster where
  vnetIntegrationSubnetID : Option String
  controlPlaneAvailability : ControlPlaneAvailability
  deletionTimestamp : Option Time
  provisioningState : ProvisioningState
  clusterServiceID : Option String
deriving DecidableEq, Repr

/-- The cluster is being deleted, or its last operation has ended. -/
def Cluster.isEnded (cluster : Cluster) : Bool :=
  cluster.deletionTimestamp.isSome || cluster.provisioningState.isTerminal

inductive ConditionStatus where
  | isTrue
  | isFalse
  | unknown
deriving DecidableEq, Repr

inductive CapacityReason where
  | available
  | insufficientCapacity
  | noEligibleManagementCluster
  | evaluationIncomplete
deriving DecidableEq, Repr

structure CapacityCondition where
  status : ConditionStatus
  reason : CapacityReason
  message : String
deriving DecidableEq, Repr

/-- Management clusters are known by the stamp that they are the only one of. -/
structure ServiceProviderCluster where
  /-- `Spec.ManagementClusterResourceID`: where the cluster is to be -/
  intended : Option String := none
  /-- `Status.ManagementClusterResourceID`: where the cluster is -/
  observed : Option String := none
  capacityAvailable : Option CapacityCondition := none
deriving DecidableEq, Repr

/-! ## Management clusters -/

inductive SchedulingPolicy where
  | schedulable
  | unschedulable
  | other (text : String)
deriving DecidableEq, Repr

structure ManagementCluster where
  stampIdentifier : String
  schedulingPolicy : SchedulingPolicy
  /-- the status of the condition `Ready`, if it is there -/
  ready : Option ConditionStatus
deriving DecidableEq, Repr

def resourceIDText (stamp : String) : String :=
  "/providers/Microsoft.RedHatOpenShift/stamps/" ++ stamp ++ "/managementClusters/default"

inductive ResourceName where
  | cpu
  | memory
  | swiftNIC
deriving DecidableEq, Repr

/-- The resources that matter for scheduling. -/
structure ResourceList where
  cpu : Option Int := none
  memory : Option Int := none
  swiftNIC : Option Int := none
deriving DecidableEq, Repr

def ResourceList.get (resources : ResourceList) : ResourceName → Option Int
  | .cpu => resources.cpu
  | .memory => resources.memory
  | .swiftNIC => resources.swiftNIC

structure ObservedResources where
  lastReportedAt : Option Time := none
  capacity : ResourceList := {}
  usage : ResourceList := {}
  requests : ResourceList := {}
deriving DecidableEq, Repr

/-- The status of a scheduling document. A missing resource ID of a list is `none`. -/
structure ManagementClusterScheduling where
  capacityDataCurrent : Bool := false
  scalingDataCurrent : Bool := false
  observedResources : ObservedResources := {}
  readyResourceIDs : List (Option String) := []
  notReadyResourceIDs : List (Option String) := []
  /-- the SWIFT NICs of `ScaleCeiling.Capacity` -/
  scaleCeiling : Option Int := none
  scaleCeilingReportedAt : Option Time := none
  pendingAssignedClusters : List (Option String) := []
deriving DecidableEq, Repr

/-- The worker nodes of one VM size. -/
structure NodeSKUCapacity where
  sku : String
  ready : Int
  allocatable : ResourceList
deriving DecidableEq, Repr

/-- What the agent of a management cluster reports about it. -/
structure CapacityReport where
  isReportCurrent : Bool
  lastReportedAt : Option Time
  nodes : List NodeSKUCapacity
  usage : ResourceList
  requested : ResourceList
  readyResourceIDs : List String
  notReadyResourceIDs : List String
deriving DecidableEq, Repr

/-- A node pool of a management cluster as far as its limits go. -/
structure AgentPool where
  vmSize : Option String
  count : Option Int
  isWorkerPool : Bool
  maxCount : Int
  /-- the count of secondary NICs that its tags give -/
  secondaryNICs : Option Int
deriving DecidableEq, Repr

/-! ## The databases -/

/-- Documents are stored under the lowered resource ID of their cluster or the lowered stamp. -/
inductive Key where
  | cluster (id : String)
  | serviceProviderCluster (id : String)
  | scheduling (stamp : String)
deriving DecidableEq, Repr

@[reducible] def Doc : Key → Type
  | .cluster _ => Cluster
  | .serviceProviderCluster _ => ServiceProviderCluster
  | .scheduling _ => ManagementClusterScheduling

/-- The controllers that read or write through a call. -/
inductive Actor where
  | placement
  | placementSync
  | pendingCleanup
  | reporting
deriving DecidableEq, Repr

inductive Call where
  | cachedCluster (id : String)
  | cachedServiceProviderCluster (reader : Actor) (id : String)
  | cachedScheduling (stamp : String)
  | managementClusters
  | capacityReport (stamp : String)
  /-- whether the AKS cluster of the management cluster is known -/
  | aksResourceID (stamp : String)
  | agentPools (stamp : String)
  | getScheduling (stamp : String)
  | createScheduling (stamp : String)
  | getServiceProviderCluster (id : String)
  /-- the management cluster of the provision shard that Cluster Service has the cluster on -/
  | provisionShard (id : String)
  | replaceServiceProviderCluster (id : String) (etag : Nat) (doc : ServiceProviderCluster)
  | replaceScheduling (writer : Actor) (stamp : String) (etag : Nat)
      (doc : ManagementClusterScheduling)

/-- A read that fails has an error; a document that is not found is `none`. -/
abbrev Read (δ : Type) := Except String (Option (Versioned δ))

@[reducible] def Call.Reply : Call → Type
  | cachedCluster _ => Read Cluster
  | cachedServiceProviderCluster _ _ | getServiceProviderCluster _ => Read ServiceProviderCluster
  | cachedScheduling _ | getScheduling _ => Read ManagementClusterScheduling
  -- the created document, or none if there is one already
  | createScheduling _ => Read ManagementClusterScheduling
  | managementClusters => Except String (List (Option ManagementCluster))
  -- none if nothing asks for the report, some none if it has not been mirrored yet
  | capacityReport _ => Except String (Option (Option CapacityReport))
  | aksResourceID _ => Except String Bool
  | agentPools _ => Except String (List AgentPool)
  -- none if no shard is allocated yet
  | provisionShard _ => Except String (Option String)
  -- the error
  | replaceServiceProviderCluster _ _ _ | replaceScheduling _ _ _ _ => Option String

abbrev Prog := Program Call Call.Reply

end AroHcp.Placement
