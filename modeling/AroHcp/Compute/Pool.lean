import Mathlib.Data.Finmap
import Mathlib.Data.String.Basic

/-! The shared node pool types of `fleet/pkg/compute`. Counts are `int32` and capacities `int64` in
the source; they are integers here, and what the source computes from them is wrapped to `int64`
where it is read. -/

namespace AroHcp.Compute

/-- An opaque, nonempty grouping key and node label of a tier. -/
abbrev PoolRole := String

/-- An Azure VM family identifier such as `StandardEdsv6Family`. -/
abbrev VMFamily := String

/-- A Go map from VM families to vCPU counts. -/
abbrev FamilyMap := AList fun _ : VMFamily => Int

inductive AgentPoolMode where
  | system
  | user
  | other (text : String)
deriving DecidableEq, Repr

def AgentPoolMode.text : AgentPoolMode → String
  | system => "System"
  | user => "User"
  | other text => text

structure VMSpec where
  size : String
  family : VMFamily
  vcpus : Int
  memoryBytes : Int
  secondaryNICs : Int
deriving DecidableEq, Repr

structure NetworkConfig where
  vnetSubnetID : String := ""
  podSubnetID : String := ""
deriving DecidableEq, Repr

/-- A single AKS node pool spec, desired or projected from AKS. -/
structure Pool where
  role : PoolRole
  agentPoolMode : AgentPoolMode
  name : String
  spec : VMSpec
  availabilityZones : List String
  maxCount : Int
  minCount : Int
  osDiskSizeGB : Int
  maxPods : Int
  labels : Finmap fun _ : String => String
  taints : List String
  enableSwift : Bool
  /-- attached per node, not the maximum of the SKU -/
  secondaryNICs : Int
deriving DecidableEq

def Pool.zoneString (p : Pool) : String :=
  ",".intercalate p.availabilityZones

end AroHcp.Compute
