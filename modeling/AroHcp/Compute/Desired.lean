import AroHcp.Compute.Tier
import AroHcp.Lib.GoInt
import AroHcp.Lib.Tally
import Mathlib.Data.List.Sort
import Mathlib.Data.Nat.Find

/-! The desired node pools of `fleet/pkg/compute/desired.go`: the SKU index, the regional and the
per-zone allocation of a tier, and the loop over the tiers. Limits, quotas and needs (`int64`) are
integers; their sums wrap where they are read, and conversions to `int32` are explicit. A SHA-256
digest in hexadecimal is a parameter, since only pool names contain it. -/

namespace AroHcp.Compute

open GoFmt GoInt Tally

/-! ## SKUs -/

structure SKUMetadata where
  name : String
  family : VMFamily
  vcpus : Int
  memoryBytes : Int
  secondaryNICs : Int
  ephemeralOSDiskSupported : Bool
  ephemeralDiskSizeGB : Int
  zones : List String
  constrainedVCPUs : Bool
  locationRestricted : Bool
deriving DecidableEq, Repr

def newVMSpecFromSKU (sku : SKUMetadata) : VMSpec :=
  ⟨sku.name, sku.family, sku.vcpus, sku.memoryBytes, sku.secondaryNICs⟩

structure EligibleSKU where
  vmSize : String
  metadata : SKUMetadata
deriving DecidableEq, Repr

/-- From VM family and vCPU count to the eligible SKU. -/
abbrev EligibleSKUIndex := AList fun _ : VMFamily => AList fun _ : Int => EligibleSKU

/-- The filter of `BuildEligibleSKUIndex`. -/
def SKUMetadata.isEligible (sku : SKUMetadata) : Bool :=
  !sku.locationRestricted && (sku.ephemeralOSDiskSupported && 0 < sku.ephemeralDiskSizeGB) &&
    sku.ephemeralDiskSizeGB ≤ maxInt32 && !sku.constrainedVCPUs && sku.vcpus ≠ 0

/-- Of several sizes with one vCPU count the smallest name wins. -/
def indexSKU (index : EligibleSKUIndex) (vmSize : String) (sku : SKUMetadata) :
    EligibleSKUIndex :=
  let sizes := (index.lookup sku.family).getD ∅
  if !sku.isEligible then index
  else if (sizes.lookup sku.vcpus).any fun existing => existing.vmSize < vmSize then index
  else index.insert sku.family (sizes.insert sku.vcpus ⟨vmSize, sku⟩)

def buildEligibleSKUIndex (skuMetadata : AList fun _ : String => SKUMetadata) :
    EligibleSKUIndex :=
  skuMetadata.entries.foldl (fun index entry => indexSKU index entry.1 entry.2) ∅

def lookupSKU (index : EligibleSKUIndex) (family : VMFamily) (desiredCores : Int) :
    Option EligibleSKU :=
  (index.lookup family).bind fun sizes => sizes.lookup desiredCores

def intersectZones (zones : List String) (sku : SKUMetadata) : List String :=
  zones.filter fun zone => zone ∈ sku.zones

/-! ## Tiers and pools -/

def tierLabels (tier : TierConfig) : Finmap fun _ : String => String :=
  tier.poolClass.labels ∪ Finmap.singleton roleLabel tier.poolClass.role

/-- The zones a family covers for a regional tier; a family that covers none comes last. -/
def familyRank (tier : TierConfig) (zones : List String) (index : EligibleSKUIndex)
    (family : VMFamily) : Nat :=
  let coverage := ((lookupSKU index family tier.cores).map fun sku =>
    (intersectZones zones sku.metadata).length).getD 0
  if coverage = 0 then zones.length + 1 else coverage

def familyAllocationOrder (tier : TierConfig) (zones : List String) (index : EligibleSKUIndex) :
    List VMFamily :=
  if tier.poolMode ≠ .regional then tier.familyPriority
  else tier.familyPriority.insertionSort fun a b =>
    familyRank tier zones index a ≤ familyRank tier zones index b

def tierSKU (tier : TierConfig) (family : VMFamily) (index : EligibleSKUIndex) :
    Option SKUMetadata :=
  ((lookupSKU index family tier.cores).map EligibleSKU.metadata).filter fun sku =>
    tier.minOSDiskSizeGB ≤ sku.ephemeralDiskSizeGB &&
      (!tier.poolClass.attachSecondaryNICs || 0 < sku.secondaryNICs)

def seedMinCount (initialMinNodes maxCount : Int) : Int :=
  int32 (min (max initialMinNodes 1) maxCount)

def minNonNegative (a b : Int) : Int :=
  max (min a b) 0

def raiseCores (cores : Int) (result : FamilyMap) (family : VMFamily) : FamilyMap :=
  if valueAt result family < cores then result.insert family cores else result

/-- The surge reservation: one upgrade node of the largest SKU of each family. -/
def maxCoresPerFamily (tiers : List TierConfig) : FamilyMap :=
  tiers.foldl (fun result tier => tier.familyPriority.foldl (raiseCores tier.cores) result) ∅

section

variable (sha256Hex : String → String)

def poolName (tier : TierConfig) (vmSize zone : String) (osDiskSizeGB : Int) : String :=
  let input := s!"{tier.poolClass.role}|{vmSize}|{osDiskSizeGB}|{tier.maxPods}|" ++
    s!"{tier.poolClass.enableSwift}|{tier.poolClass.agentPoolMode.text}|" ++
    s!"{tier.poolClass.attachSecondaryNICs}"
  tier.name ++ zone ++ String.ofList ((sha256Hex input).toList.take 6)

/-- The pool literal of both allocations: a regional pool is named after zone 0 and sets none. -/
def tierPool (tier : TierConfig) (sku : SKUMetadata) (zone : String) (zones : List String)
    (nodes : Int) : Pool where
  role := tier.poolClass.role
  name := poolName sha256Hex tier sku.name zone (int32 sku.ephemeralDiskSizeGB)
  agentPoolMode := tier.poolClass.agentPoolMode
  secondaryNICs := if tier.poolClass.attachSecondaryNICs then sku.secondaryNICs else 0
  spec := newVMSpecFromSKU sku
  availabilityZones := zones
  maxCount := int32 nodes
  minCount := seedMinCount tier.initialMinNodes nodes
  osDiskSizeGB := int32 sku.ephemeralDiskSizeGB
  maxPods := tier.maxPods
  labels := tierLabels tier
  taints := tier.poolClass.taints
  enableSwift := tier.poolClass.enableSwift

/-! ## Regional tiers -/

def allocateRegionalFamilies (tier : TierConfig) (budgets : FamilyMap) (index : EligibleSKUIndex)
    (allocatedNodes : Int) : List VMFamily → List Pool × Int
  | [] => ([], allocatedNodes)
  | family :: rest =>
    match tierSKU tier family index with
    | none => allocateRegionalFamilies tier budgets index allocatedNodes rest
    | some sku =>
      let maxCount := minNonNegative ((valueAt budgets family).tdiv sku.vcpus)
        (tier.maxNodes - allocatedNodes)
      if maxCount < 1 then allocateRegionalFamilies tier budgets index allocatedNodes rest
      else
        let pool := tierPool sha256Hex tier sku "0" [] maxCount
        if tier.maxNodes ≤ allocatedNodes + maxCount then ([pool], allocatedNodes + maxCount)
        else
          let result := allocateRegionalFamilies tier budgets index (allocatedNodes + maxCount) rest
          (pool :: result.1, result.2)

def allocateRegionalTier (tier : TierConfig) (zones : List String) (budgets : FamilyMap)
    (index : EligibleSKUIndex) : List Pool × Bool :=
  let result := allocateRegionalFamilies sha256Hex tier budgets index 0
    (familyAllocationOrder tier zones index)
  (result.1, result.1 ≠ [] && result.2 = tier.maxNodes)

end

/-! ## Per-zone tiers -/

/-- A family's SKU for a tier and the nodes of that SKU its quota covers. -/
structure FamilyQuota where
  metadata : SKUMetadata
  quotaNodes : Int
deriving DecidableEq, Repr

abbrev ZoneNodes := AList fun _ : String => Int

/-- Every choice of `k` zones in their order, those with the earliest zones first. -/
def combinations : List String → Nat → List (List String)
  | _, 0 => [[]]
  | [], _ + 1 => []
  | zone :: rest, k + 1 => (combinations rest k).map (zone :: ·) ++ combinations rest (k + 1)

def coversGroup (familiesWithQuota : List FamilyQuota) (zoneNodesNeeded : ZoneNodes)
    (group : List String) : Bool :=
  let groupNodesNeeded := int64 (group.map (valueAt zoneNodesNeeded)).sum
  let groupQuotaNodes := int64 ((familiesWithQuota.filter fun family =>
    intersectZones group family.metadata ≠ []).map FamilyQuota.quotaNodes).sum
  groupNodesNeeded ≤ groupQuotaNodes

/-- Hall's condition over every group of zones. -/
def canFill (familiesWithQuota : List FamilyQuota) (zoneNodesNeeded : ZoneNodes) : Bool :=
  let zones := zoneNodesNeeded.keys.insertionSort (· ≤ ·)
  (List.range' 1 zones.length).all fun groupSize =>
    (combinations zones groupSize).all (coversGroup familiesWithQuota zoneNodesNeeded)

def evenNodes (zones : List String) (nodesPerZone : Int) : ZoneNodes :=
  zones.foldl (fun needed zone => needed.insert zone nodesPerZone) ∅

def maxNodesPerZone (familiesWithQuota : List FamilyQuota) (zones : List String)
    (maxNodes : Int) : Int :=
  Nat.findGreatest (fun n => canFill familiesWithQuota (evenNodes zones n) = true) maxNodes.toNat

/-- The position of the zone, or the length of the list when it is absent. -/
def zoneIndex (zones : List String) (zone : String) : Nat :=
  zones.idxOf zone

/-- The zones of the tier and the most nodes each of them can get; ties keep the earliest zones. -/
def bestZones (familiesWithQuota : List FamilyQuota) (zones requiredZones : List String)
    (zoneCount maxNodes : Int) : List String × Int :=
  let optionalZones := zones.filter fun zone => zone ∉ requiredZones
  let choices := combinations optionalZones (zoneCount - requiredZones.length).toNat
  choices.foldl (fun best extraZones =>
    let candidateZones := (requiredZones ++ extraZones).insertionSort fun a b =>
      zoneIndex zones a ≤ zoneIndex zones b
    let nodesPerZone := maxNodesPerZone familiesWithQuota candidateZones maxNodes
    if best.2 < nodesPerZone then (candidateZones, nodesPerZone) else best) ([], -1)

def mostFillableNodes (before : List FamilyQuota) (family : FamilyQuota) (after : List FamilyQuota)
    (zoneNodesNeeded : ZoneNodes) (zone : String) : Int :=
  let needed := valueAt zoneNodesNeeded zone
  Nat.findGreatest (fun poolNodes =>
      canFill (before ++ { family with quotaNodes := family.quotaNodes - poolNodes } :: after)
        (zoneNodesNeeded.insert zone (needed - poolNodes)) = true)
    (min needed family.quotaNodes).toNat

section

variable (sha256Hex : String → String) (tier : TierConfig)

/-- The inner loop of `allocatePerZoneTier`: the families serve the zone in order. It returns the
remaining quota, the remaining needs and the pools. -/
def fillZone (zone : String) (before : List FamilyQuota) :
    List FamilyQuota → ZoneNodes → List FamilyQuota × ZoneNodes × List Pool
  | [], zoneNodesNeeded => (before, zoneNodesNeeded, [])
  | family :: after, zoneNodesNeeded =>
    let poolNodes := if zone ∈ family.metadata.zones then
        mostFillableNodes before family after zoneNodesNeeded zone
      else 0
    if poolNodes = 0 then fillZone zone (before ++ [family]) after zoneNodesNeeded
    else
      let rest := fillZone zone
        (before ++ [{ family with quotaNodes := family.quotaNodes - poolNodes }]) after
        (zoneNodesNeeded.insert zone (valueAt zoneNodesNeeded zone - poolNodes))
      (rest.1, rest.2.1, tierPool sha256Hex tier family.metadata zone [zone] poolNodes :: rest.2.2)

def fillZones : List String → List FamilyQuota → ZoneNodes → List Pool
  | [], _, _ => []
  | zone :: rest, familiesWithQuota, zoneNodesNeeded =>
    let filled := fillZone sha256Hex tier zone [] familiesWithQuota zoneNodesNeeded
    filled.2.2 ++ fillZones rest filled.1 filled.2.1

def familyQuota (budgets : FamilyMap) (index : EligibleSKUIndex) (family : VMFamily) :
    Option FamilyQuota :=
  (tierSKU tier family index).bind fun sku =>
    let quotaNodes := (valueAt budgets family).tdiv sku.vcpus
    if quotaNodes < 1 then none else some ⟨sku, quotaNodes⟩

def familiesWithQuota (zones : List String) (budgets : FamilyMap) (index : EligibleSKUIndex) :
    List FamilyQuota :=
  (familyAllocationOrder tier zones index).filterMap (familyQuota tier budgets index)

def allocatePerZoneTier (zones requiredZones : List String) (budgets : FamilyMap)
    (index : EligibleSKUIndex) : List Pool × Bool :=
  let zoneCount := min tier.poolCount zones.length
  if zoneCount = 0 && requiredZones = [] then ([], false)
  else
    let families := familiesWithQuota tier zones budgets index
    let best := bestZones families zones requiredZones zoneCount tier.maxNodes
    let pools := fillZones sha256Hex tier best.1 families (evenNodes best.1 best.2)
    (pools, pools ≠ [] && best.2 = tier.maxNodes && zoneCount ≤ best.1.length)

def allocateTier (zones requiredZones : List String) (budgets : FamilyMap)
    (index : EligibleSKUIndex) : List Pool × Bool :=
  match tier.poolMode with
  | .regional => allocateRegionalTier sha256Hex tier zones budgets index
  | .perZone => allocatePerZoneTier sha256Hex tier zones requiredZones budgets index
  | .other _ => ([], false)

end

/-! ## The loop over the tiers -/

/-- Why a tier could not allocate any pools. -/
structure AllocationFailure where
  tierIndex : Nat := 0
  cores : Int := 0
  reason : String
  message : String
  required : Bool := false
deriving DecidableEq, Repr

def exhaustedReason (tierIndex : Nat) (tier : TierConfig) (zones requiredZones : List String)
    (index : EligibleSKUIndex) : String × String :=
  let label := s!"tier {tierIndex} ({tier.cores} cores): "
  let eligible := tier.familyPriority.filterMap fun family => tierSKU tier family index
  let offeredZones := (eligible.flatMap (intersectZones zones)).dedup
  let uncoveredRequiredZones := requiredZones.filter fun zone => zone ∉ offeredZones
  let zonesNeeded : Int := max (min tier.poolCount zones.length) requiredZones.length
  if tier.familyPriority = [] then
    ("NoEligibleFamily", label ++ "family priority list is empty")
  else if eligible = [] then
    ("NoEligibleSKU", label ++ s!"no family has an eligible SKU with exactly {tier.cores} vCPUs " ++
      "(unrestricted in region, unconstrained vCPUs, ephemeral OS disk of at least " ++
      s!"{tier.minOSDiskSizeGB} GB)" ++ if tier.poolClass.attachSecondaryNICs then
        "; a positive secondary NIC capacity is also required" else "")
  else if tier.poolMode = .perZone && uncoveredRequiredZones ≠ [] then
    ("NoZoneCoverage", label ++ "the eligible families' SKUs are not offered in existing zones " ++
      ",".intercalate uncoveredRequiredZones ++ s!" for role {quote tier.poolClass.role}")
  else if tier.poolMode = .perZone && (offeredZones.length : Int) < zonesNeeded then
    ("NoZoneCoverage", label ++
      "the eligible families' SKUs are not offered in enough zones")
  else if tier.poolMode = .regional then
    ("InsufficientQuota", label ++ "the families' quota does not cover at least one node")
  else
    ("InsufficientQuota", label ++ "the families' quota does not cover at least one node per zone")

def tierExhaustedFailure (tierIndex : Nat) (tier : TierConfig) (zones requiredZones : List String)
    (index : EligibleSKUIndex) : AllocationFailure :=
  let exhausted := exhaustedReason tierIndex tier zones requiredZones index
  ⟨tierIndex, tier.cores, exhausted.1, exhausted.2, tier.required⟩

abbrev ZonesByRole := AList fun _ : PoolRole => List String

/-- The existing zones of the tier's role, each once; the non-zonal bucket is not pinned. -/
def requiredZones (existingZones : ZonesByRole) (tier : TierConfig) : List String :=
  if tier.poolMode ≠ .perZone then []
  else ((existingZones.lookup tier.poolClass.role).getD []).foldl
    (fun required zone => if zone ≠ "" && zone ∉ required then required ++ [zone] else required) []

/-- What one iteration of the loop of `ComputeDesiredPools` allocates. -/
structure TierAllocation where
  tierIndex : Nat
  tier : TierConfig
  requiredZones : List String
  pools : List Pool
  fullyAllocated : Bool

def consume (consumed : FamilyMap) (pools : List Pool) : FamilyMap :=
  pools.foldl (fun consumed pool =>
    addAt consumed pool.spec.family (pool.maxCount * pool.spec.vcpus)) consumed

section

variable (sha256Hex : String → String) (zones : List String) (existingZones : ZonesByRole)
  (familyLimits : FamilyMap) (index : EligibleSKUIndex)

/-- The budget left to a tier: the limits less what earlier tiers took and the surge reservation
of the tiers processed so far. -/
def availableBudget (processed : List TierConfig) (consumed : FamilyMap) : FamilyMap :=
  let surge := maxCoresPerFamily processed
  mapEntries (fun family budget => int64 (budget - valueAt consumed family - valueAt surge family))
    familyLimits

/-- The loop, after the `processed` tiers. -/
def allocateTiers (processed : List TierConfig) (consumed : FamilyMap) :
    List TierConfig → List TierAllocation
  | [] => []
  | tier :: rest =>
    let available := availableBudget familyLimits (processed ++ [tier]) consumed
    let required := requiredZones existingZones tier
    let result := allocateTier sha256Hex tier zones required available index
    ⟨processed.length, tier, required, result.1, result.2⟩ ::
      allocateTiers (processed ++ [tier]) (consume consumed result.1) rest

def computeDesiredPools (tiers : List TierConfig) : List Pool × List AllocationFailure × Bool :=
  let allocations := allocateTiers sha256Hex zones existingZones familyLimits index [] ∅ tiers
  let pools := allocations.flatMap TierAllocation.pools
  let failures := (allocations.filter fun a => a.pools = []).map fun a =>
    tierExhaustedFailure a.tierIndex a.tier zones a.requiredZones index
  let failures := if pools = [] && failures = [] then
      [{ reason := "NoTiersConfigured", message := "no pool tiers are configured" }]
    else failures
  (pools, failures, tiers ≠ [] && allocations.all TierAllocation.fullyAllocated)

end

end AroHcp.Compute
