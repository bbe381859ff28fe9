import AroHcp.Compute.Tier
import AroHcp.Lib.GoInt
import AroHcp.Lib.GoPtr
import AroHcp.Nodepool.Action

/-! AKS agent pools in the shape of the ARM API: what `agentpoolspec` writes for a pool and what
`agentpools` reads from one. Pointers are options; a nil map is an empty one, since no function
here tells them apart. -/

namespace AroHcp.Nodepool

open Compute GoFmt GoInt GoPtr

/-! ## ARM types -/

inductive OSDiskType where
  | ephemeral
  | managed
  | other (text : String)
deriving DecidableEq, Repr

def OSDiskType.text : OSDiskType → String
  | ephemeral => "Ephemeral"
  | managed => "Managed"
  | other text => text

inductive AgentPoolType where
  | virtualMachineScaleSets
  | other (text : String)
deriving DecidableEq, Repr

inductive OSSKU where
  | azureLinux
  | other (text : String)
deriving DecidableEq, Repr

inductive OSType where
  | linux
  | windows
  | other (text : String)
deriving DecidableEq, Repr

inductive KubeletDiskType where
  | os
  | temporary
  | other (text : String)
deriving DecidableEq, Repr

structure AgentPoolSecurityProfile where
  enableSecureBoot : Option Bool
  enableVTPM : Option Bool
deriving DecidableEq, Repr

structure AgentPoolUpgradeSettings where
  maxSurge : Option String
deriving DecidableEq, Repr

abbrev StringPtrs := Finmap fun _ : String => Option String

structure AgentPoolProperties where
  vmSize : Option String := none
  availabilityZones : List (Option String) := []
  osDiskSizeGB : Option Int := none
  osDiskType : Option OSDiskType := none
  enableAutoScaling : Option Bool := none
  count : Option Int := none
  minCount : Option Int := none
  maxCount : Option Int := none
  mode : Option AgentPoolMode := none
  type : Option AgentPoolType := none
  osSKU : Option OSSKU := none
  osType : Option OSType := none
  kubeletDiskType : Option KubeletDiskType := none
  enableEncryptionAtHost : Option Bool := none
  enableFIPS : Option Bool := none
  enableNodePublicIP : Option Bool := none
  maxPods : Option Int := none
  securityProfile : Option AgentPoolSecurityProfile := none
  upgradeSettings : Option AgentPoolUpgradeSettings := none
  nodeLabels : StringPtrs := ∅
  nodeTaints : List (Option String) := []
  tags : StringPtrs := ∅
  vnetSubnetID : Option String := none
  podSubnetID : Option String := none
  provisioningState : Option ProvisioningState := none
  etag : Option String := none

structure AgentPool where
  name : Option String
  properties : Option AgentPoolProperties

/-! ## Tags -/

def swiftMultiTenancyTag : String := "aks-nic-enable-multi-tenancy"

def swiftSecondaryNICCountTag : String := "aks-nic-secondary-count"

def swiftMultiTenancyEnabledValue : String := "true"

def isSwiftEnabled (tags : StringPtrs) : Bool :=
  deref (entry tags swiftMultiTenancyTag) "" = swiftMultiTenancyEnabledValue

/-- `none` when the tag is absent, an error when it is malformed or negative. -/
def secondaryNICCount (tags : StringPtrs) : Option (Except String Int) :=
  (tags.lookup swiftSecondaryNICCountTag).map fun value =>
    let text := deref value ""
    match (parseInt text).filter fun nics => 0 ≤ nics with
    | none => .error s!"invalid secondary NIC count {quote text}"
    | some nics => .ok nics

def swiftTags (pool : Pool) : StringPtrs :=
  if pool.enableSwift then
    let tags := Finmap.singleton swiftMultiTenancyTag (some swiftMultiTenancyEnabledValue)
    if 0 < pool.secondaryNICs then
      tags.insert swiftSecondaryNICCountTag (some (formatInt pool.secondaryNICs))
    else tags
  else ∅

def build (pool : Pool) (networkConfig : NetworkConfig) : AgentPoolProperties where
  vmSize := some pool.spec.size
  availabilityZones := pool.availabilityZones.map some
  osDiskSizeGB := some pool.osDiskSizeGB
  osDiskType := some .ephemeral
  enableAutoScaling := some true
  minCount := some pool.minCount
  maxCount := some pool.maxCount
  mode := some pool.agentPoolMode
  type := some .virtualMachineScaleSets
  osSKU := some .azureLinux
  osType := some .linux
  kubeletDiskType := some .os
  enableEncryptionAtHost := some true
  enableFIPS := some true
  enableNodePublicIP := some false
  maxPods := some pool.maxPods
  securityProfile := some ⟨some false, some false⟩
  upgradeSettings := some ⟨some "10%"⟩
  nodeLabels := toPtrs pool.labels
  nodeTaints := pool.taints.map some
  tags := swiftTags pool
  vnetSubnetID := if networkConfig.vnetSubnetID ≠ "" then some networkConfig.vnetSubnetID else none
  podSubnetID := if networkConfig.podSubnetID ≠ "" then some networkConfig.podSubnetID else none

/-! ## Reading agent pools -/

def roleFromAgentPool (pool : AgentPool) : String :=
  match pool.properties with
  | none => ""
  | some properties => deref (entry properties.nodeLabels roleLabel) ""

def isManagedPool (pool : AgentPool) : Bool :=
  roleFromAgentPool pool ≠ ""

def poolMaxCount (properties : AgentPoolProperties) : Int :=
  match properties.count with
  | none => 0
  | some count =>
    match properties.enableAutoScaling, properties.maxCount with
    | some true, some maxCount => maxCount
    | _, _ => count

/-! ## The tags written are the tags read -/

theorem swiftTag_ne_nicTag : swiftMultiTenancyTag ≠ swiftSecondaryNICCountTag := by decide

theorem isSwiftEnabled_swiftTags (pool : Pool) :
    isSwiftEnabled (swiftTags pool) = pool.enableSwift := by
  unfold swiftTags
  cases pool.enableSwift with
  | false => rfl
  | true =>
    rw [if_pos rfl]
    split_ifs with hnics
    · rfl
    · rfl

/-- A count is written for Swift pools with secondary NICs only, and read back as it was. -/
theorem secondaryNICCount_swiftTags {pool : Pool} (hmax : pool.secondaryNICs ≤ maxInt64) :
    secondaryNICCount (swiftTags pool) =
      if pool.enableSwift ∧ 0 < pool.secondaryNICs then some (.ok pool.secondaryNICs) else none := by
  unfold swiftTags
  rcases hswift : pool.enableSwift with _ | _
  · rfl
  dsimp only
  rw [if_pos rfl]
  by_cases hnics : 0 < pool.secondaryNICs
  · have hmin : -(maxInt64 + 1) ≤ pool.secondaryNICs := by
      omega
    have hparse : (parseInt (formatInt pool.secondaryNICs)).filter (fun nics => 0 ≤ nics) =
        some pool.secondaryNICs := by
      rw [parseInt_formatInt hmin hmax]
      exact Option.filter_some_pos (by simpa using hnics.le)
    rw [if_pos hnics, if_pos ⟨rfl, hnics⟩, secondaryNICCount, Finmap.lookup_insert]
    simp only [Option.map_some, deref, Option.getD_some, hparse]
  · rw [if_neg hnics, if_neg fun h => hnics h.2, secondaryNICCount, Option.map_eq_none_iff,
      Finmap.lookup_eq_none, Finmap.mem_singleton]
    exact swiftTag_ne_nicTag.symm

end AroHcp.Nodepool
