import AroHcp.Compute.Pool
import AroHcp.Lib.ExceptLoop
import AroHcp.Lib.GoFmt
import AroHcp.Lib.GoInt
import AroHcp.Lib.Keyed
import AroHcp.Lib.Tally
import Mathlib.Algebra.Order.Group.Defs
import Mathlib.Data.Int.Bitwise
import Mathlib.Data.List.Sort
import Mathlib.Data.Prod.Lex
import Mathlib.Tactic.Abel
import Mathlib.Tactic.Ring

/-! Configured capacity at the pool ceilings, per role and per role-zone bucket. The source's sums
and products are `int64`; the order and the group of `RoleCapacity` are those of the integers, and
`RoleCapacity.wrap` leads from them to what the source computes. -/

namespace AroHcp.Compute

open GoInt Tally

@[ext]
structure RoleCapacity where
  vcpus : Int
  memoryBytes : Int
  swiftNICs : Int
deriving DecidableEq, Repr

namespace RoleCapacity

def toString (c : RoleCapacity) : String :=
  let memoryGiB := c.memoryBytes >>> 30
  "\x7bVCPUs:" ++ s!"{c.vcpus} MemoryGiB:{memoryGiB} SwiftNICs:{c.swiftNICs}" ++ "\x7d"

def add (c other : RoleCapacity) : RoleCapacity where
  vcpus := int64 (c.vcpus + other.vcpus)
  memoryBytes := int64 (c.memoryBytes + other.memoryBytes)
  swiftNICs := int64 (c.swiftNICs + other.swiftNICs)

def sub (c other : RoleCapacity) : RoleCapacity where
  vcpus := int64 (c.vcpus - other.vcpus)
  memoryBytes := int64 (c.memoryBytes - other.memoryBytes)
  swiftNICs := int64 (c.swiftNICs - other.swiftNICs)

def min (c other : RoleCapacity) : RoleCapacity :=
  ⟨Min.min c.vcpus other.vcpus, Min.min c.memoryBytes other.memoryBytes,
    Min.min c.swiftNICs other.swiftNICs⟩

def covers (c floor : RoleCapacity) : Bool :=
  c.vcpus ≥ floor.vcpus && c.memoryBytes ≥ floor.memoryBytes && c.swiftNICs ≥ floor.swiftNICs

instance : Zero RoleCapacity := ⟨⟨0, 0, 0⟩⟩
instance : Add RoleCapacity := ⟨fun c other =>
  ⟨c.vcpus + other.vcpus, c.memoryBytes + other.memoryBytes, c.swiftNICs + other.swiftNICs⟩⟩
instance : Sub RoleCapacity := ⟨fun c other =>
  ⟨c.vcpus - other.vcpus, c.memoryBytes - other.memoryBytes, c.swiftNICs - other.swiftNICs⟩⟩
instance : Neg RoleCapacity := ⟨fun c => ⟨-c.vcpus, -c.memoryBytes, -c.swiftNICs⟩⟩
instance : LE RoleCapacity := ⟨fun floor c => c.covers floor = true⟩
instance : DecidableLE RoleCapacity := fun floor c =>
    inferInstanceAs (Decidable (c.covers floor = true))

@[simp] theorem zero_vcpus : (0 : RoleCapacity).vcpus = 0 := rfl
@[simp] theorem zero_memoryBytes : (0 : RoleCapacity).memoryBytes = 0 := rfl
@[simp] theorem zero_swiftNICs : (0 : RoleCapacity).swiftNICs = 0 := rfl

section

variable (c other : RoleCapacity)

@[simp] theorem add_vcpus : (c + other).vcpus = c.vcpus + other.vcpus := rfl
@[simp] theorem add_memoryBytes : (c + other).memoryBytes = c.memoryBytes + other.memoryBytes := rfl
@[simp] theorem add_swiftNICs : (c + other).swiftNICs = c.swiftNICs + other.swiftNICs := rfl
@[simp] theorem sub_vcpus : (c - other).vcpus = c.vcpus - other.vcpus := rfl
@[simp] theorem sub_memoryBytes : (c - other).memoryBytes = c.memoryBytes - other.memoryBytes := rfl
@[simp] theorem sub_swiftNICs : (c - other).swiftNICs = c.swiftNICs - other.swiftNICs := rfl
@[simp] theorem neg_vcpus : (-c).vcpus = -c.vcpus := rfl
@[simp] theorem neg_memoryBytes : (-c).memoryBytes = -c.memoryBytes := rfl
@[simp] theorem neg_swiftNICs : (-c).swiftNICs = -c.swiftNICs := rfl

end

theorem le_iff {floor c : RoleCapacity} : floor ≤ c ↔ floor.vcpus ≤ c.vcpus ∧
    floor.memoryBytes ≤ c.memoryBytes ∧ floor.swiftNICs ≤ c.swiftNICs := by
  change c.covers floor = true ↔ _
  simp [covers, and_assoc]

theorem covers_iff {c floor : RoleCapacity} : c.covers floor = true ↔ floor ≤ c := Iff.rfl

instance : AddCommGroup RoleCapacity where
  add_assoc a b c := by ext <;> simp [add_assoc]
  zero_add a := by ext <;> simp
  add_zero a := by ext <;> simp
  add_comm a b := by ext <;> simp [add_comm]
  neg_add_cancel a := by ext <;> simp
  sub_eq_add_neg a b := by ext <;> simp [sub_eq_add_neg]
  nsmul := nsmulRec
  zsmul := zsmulRec

instance : PartialOrder RoleCapacity where
  le_refl a := by simp [le_iff]
  le_trans a b c := by simp only [le_iff]; omega
  le_antisymm a b := by
    simp only [le_iff]
    intro hab hba
    ext <;> omega

instance : IsOrderedAddMonoid RoleCapacity where
  add_le_add_left a b h c := by
    rw [le_iff] at h ⊢
    simp only [add_vcpus, add_memoryBytes, add_swiftNICs]
    omega

theorem min_le_left (a b : RoleCapacity) : a.min b ≤ a := by
  simp [le_iff, min]

theorem min_le_right (a b : RoleCapacity) : a.min b ≤ b := by
  simp [le_iff, min]

/-! ## 64 bits -/

/-- What is left of exact sums in `int64`. -/
def wrap (c : RoleCapacity) : RoleCapacity :=
  ⟨int64 c.vcpus, int64 c.memoryBytes, int64 c.swiftNICs⟩

theorem wrap_add_wrap (a b : RoleCapacity) : (a.wrap + b.wrap).wrap = (a + b).wrap := by
  ext <;> simp [wrap, int64_add_int64]

theorem wrap_sub_wrap (a b : RoleCapacity) : (a.wrap - b.wrap).wrap = (a - b).wrap := by
  ext <;> simp [wrap, int64_sub_int64]

theorem add_wrap (a b : RoleCapacity) : a.wrap.add b.wrap = (a + b).wrap :=
  wrap_add_wrap a b

theorem sub_wrap (a b : RoleCapacity) : a.wrap.sub b.wrap = (a - b).wrap :=
  wrap_sub_wrap a b

/-- The largest capacity that `int64` holds. -/
def largest : RoleCapacity := ⟨maxInt64, maxInt64, maxInt64⟩

theorem wrap_of_le {c : RoleCapacity} (h0 : 0 ≤ c) (h : c ≤ largest) : c.wrap = c := by
  rw [le_iff] at h0 h
  simp only [zero_vcpus, zero_memoryBytes, zero_swiftNICs, largest, maxInt64] at h0 h
  ext
  · exact int64_of_lt (by omega) (by omega)
  · exact int64_of_lt (by omega) (by omega)
  · exact int64_of_lt (by omega) (by omega)

end RoleCapacity

/-! ## Pools -/

def Pool.capacityAtCount (p : Pool) (count : Int) : RoleCapacity where
  vcpus := int64 (count * p.spec.vcpus)
  memoryBytes := int64 (count * p.spec.memoryBytes)
  swiftNICs := int64 (count * p.secondaryNICs)

/-- The resources of `count` nodes, as exact numbers. -/
def Pool.resources (p : Pool) (count : Int) : RoleCapacity where
  vcpus := count * p.spec.vcpus
  memoryBytes := count * p.spec.memoryBytes
  swiftNICs := count * p.secondaryNICs

theorem Pool.capacityAtCount_eq (p : Pool) (count : Int) :
    p.capacityAtCount count = (p.resources count).wrap := rfl

theorem Pool.resources_sub (p : Pool) (a b : Int) :
    p.resources (a - b) = p.resources a - p.resources b := by
  ext <;> simp [resources, sub_mul]

@[simp]
theorem Pool.resources_zero (p : Pool) : p.resources 0 = 0 := by
  ext <;> simp [resources]

def validatePoolCapacity (pool : Pool) : Except String Unit :=
  if pool.spec.vcpus ≤ 0 ∨ pool.spec.memoryBytes ≤ 0 ∨ pool.maxCount < 0 then
    .error s!"cannot determine capacity of pool {GoFmt.quote pool.name}"
  else if pool.secondaryNICs < 0 ∨ (pool.secondaryNICs > 0 ∧ ¬pool.enableSwift) then
    .error s!"invalid configured Swift NIC capacity of pool {GoFmt.quote pool.name}"
  else .ok ()

/-- What `validatePoolCapacity` accepts. -/
structure Pool.Measurable (pool : Pool) : Prop where
  vcpus_pos : 0 < pool.spec.vcpus
  memoryBytes_pos : 0 < pool.spec.memoryBytes
  maxCount_nonneg : 0 ≤ pool.maxCount
  nics_nonneg : 0 ≤ pool.secondaryNICs
  nics_swift : 0 < pool.secondaryNICs → pool.enableSwift = true

theorem validatePoolCapacity_ok {pool : Pool} :
    validatePoolCapacity pool = .ok () ↔ pool.Measurable := by
  unfold validatePoolCapacity
  split_ifs with h₁ h₂
  · refine iff_of_false (by simp) fun hm => ?_
    have := hm.vcpus_pos; have := hm.memoryBytes_pos; have := hm.maxCount_nonneg
    omega
  · refine iff_of_false (by simp) fun hm => ?_
    rcases h₂ with h₂ | ⟨hpos, hswift⟩
    · exact absurd hm.nics_nonneg (not_le.mpr h₂)
    · exact hswift (hm.nics_swift hpos)
  · refine iff_of_true rfl ?_
    push Not at h₁ h₂
    exact ⟨h₁.1, h₁.2.1, h₁.2.2, h₂.1, h₂.2⟩

theorem Pool.Measurable.resources_mono {p : Pool} (hp : p.Measurable) {a b : Int}
    (h : a ≤ b) : p.resources a ≤ p.resources b := by
  rw [RoleCapacity.le_iff]
  exact ⟨Int.mul_le_mul_of_nonneg_right h hp.vcpus_pos.le,
    Int.mul_le_mul_of_nonneg_right h hp.memoryBytes_pos.le,
    Int.mul_le_mul_of_nonneg_right h hp.nics_nonneg⟩

theorem Pool.Measurable.resources_nonneg {p : Pool} (hp : p.Measurable) {a : Int} (h : 0 ≤ a) :
    0 ≤ p.resources a := by
  rw [← p.resources_zero]
  exact hp.resources_mono h

def Pool.ceilingResources (p : Pool) : RoleCapacity :=
  p.resources p.maxCount

/-- A capacity bucket. The empty zone is the non-zonal bucket. -/
structure RoleZone where
  role : PoolRole
  zone : String
deriving DecidableEq, Repr

def Pool.roleZoneKey (p : Pool) : RoleZone :=
  match p.availabilityZones with
  | [zone] => ⟨p.role, zone⟩
  | _ => ⟨p.role, ""⟩

abbrev CapacityByRole := AList fun _ : PoolRole => RoleCapacity

abbrev CapacityByRoleZone := AList fun _ : RoleZone => RoleCapacity

/-- The shared loop of `PoolCapacities` and `PoolZoneCapacities`: sum the ceilings of a complete
pool set under `key`. Unknown capacity never silently counts as zero. -/
def sumCeilings {κ : Type} [DecidableEq κ] (key : Pool → κ) (pools : List Pool) :
    Except String (AList fun _ : κ => RoleCapacity) :=
  pools.foldlM (fun result pool => do
    validatePoolCapacity pool
    return result.insert (key pool)
      ((valueAt result (key pool)).add (pool.capacityAtCount pool.maxCount))) ∅

def poolCapacities (pools : List Pool) : Except String CapacityByRole :=
  sumCeilings Pool.role pools

def poolZoneCapacities (pools : List Pool) : Except String CapacityByRoleZone :=
  sumCeilings Pool.roleZoneKey pools

theorem mapEntries_wrap_addAt {κ : Type} [DecidableEq κ] (m : AList fun _ : κ => RoleCapacity)
    (k : κ) (c : RoleCapacity) :
    mapEntries (fun _ => RoleCapacity.wrap) (addAt m k c) =
      (mapEntries (fun _ => RoleCapacity.wrap) m).insert k
        ((valueAt (mapEntries (fun _ => RoleCapacity.wrap) m) k).add c.wrap) := by
  rw [valueAt_mapEntries _ rfl, RoleCapacity.add_wrap, addAt, mapEntries_insert]

/-- The `int64` sums of a bucket are what is left of its exact sum. -/
theorem sumCeilings_ok {κ : Type} [DecidableEq κ] (key : Pool → κ) {pools : List Pool}
    (hp : ∀ p ∈ pools, p.Measurable) : sumCeilings key pools =
      .ok (mapEntries (fun _ => RoleCapacity.wrap) (tally key Pool.ceilingResources pools)) := by
  have hfold : sumCeilings key pools = .ok (pools.foldl (fun m p => m.insert (key p)
      ((valueAt m (key p)).add p.ceilingResources.wrap)) ∅) := by
    refine ExceptLoop.foldlM_eq_foldl ?_ ∅
    intro p hmem m
    rw [validatePoolCapacity_ok.mpr (hp p hmem)]
    rfl
  rw [hfold]
  congr 1
  change pools.foldl _ (mapEntries (fun _ => RoleCapacity.wrap) ∅) = _
  exact List.foldl_hom (mapEntries fun _ => RoleCapacity.wrap)
    fun m p => (mapEntries_wrap_addAt m (key p) p.ceilingResources).symm

theorem sumCeilings_eq_ok {κ : Type} [DecidableEq κ] {key : Pool → κ} {pools : List Pool}
    {r : AList fun _ : κ => RoleCapacity} (h : sumCeilings key pools = .ok r) :
    (∀ p ∈ pools, p.Measurable) ∧
      r = mapEntries (fun _ => RoleCapacity.wrap) (tally key Pool.ceilingResources pools) := by
  have hp : ∀ p ∈ pools, p.Measurable := by
    intro p hmem
    obtain ⟨m, m', hm⟩ := ExceptLoop.exists_ok_of_foldlM h hmem
    obtain ⟨⟨⟩, hv, -⟩ := ExceptLoop.bind_eq_ok.mp hm
    exact validatePoolCapacity_ok.mp hv
  rw [sumCeilings_ok key hp] at h
  exact ⟨hp, (Except.ok.inj h).symm⟩

/-! ## Capacity maps -/

namespace CapacityByRoleZone

def sortedKeys (capacity : CapacityByRoleZone) : List RoleZone :=
  capacity.keys.insertionSort fun a b => a.role < b.role ∨ (a.role = b.role ∧ a.zone ≤ b.zone)

theorem mem_sortedKeys {capacity : CapacityByRoleZone} {key : RoleZone} :
    key ∈ sortedKeys capacity ↔ key ∈ capacity := by
  rw [sortedKeys, (List.perm_insertionSort _ _).mem_iff, AList.mem_keys]

def ensureMeetsBaseline (capacity baseline : CapacityByRoleZone) : Except String Unit :=
  (sortedKeys baseline).forM fun key =>
    match capacity.lookup key with
    | none => .error s!"missing {key.role} capacity in zone {GoFmt.quote key.zone}"
    | some got =>
      if got.covers (valueAt baseline key) then .ok ()
      else .error (s!"{key.role} capacity {got.toString} in zone {GoFmt.quote key.zone} is " ++
        s!"below protected baseline {(valueAt baseline key).toString}")

/-- One iteration of `resolveEffectiveFloor`. -/
def lowerFloor (desired baseline : CapacityByRoleZone) (fullyAllocated : Bool)
    (floor : CapacityByRoleZone) (key : RoleZone) : Except String CapacityByRoleZone :=
  match desired.lookup key with
  | none => .error s!"desired plan has no {key.role} capacity in zone {GoFmt.quote key.zone}"
  | some target =>
    if fullyAllocated then .ok (floor.insert key ((valueAt baseline key).min target))
    else .ok floor

def resolveEffectiveFloor (desired baseline : CapacityByRoleZone) (fullyAllocated : Bool) :
    Except String CapacityByRoleZone := do
  let floor ← (sortedKeys baseline).foldlM (lowerFloor desired baseline fullyAllocated) baseline
  ensureMeetsBaseline desired floor
  return floor

theorem ensureMeetsBaseline_ok {capacity baseline : CapacityByRoleZone} :
    ensureMeetsBaseline capacity baseline = .ok () ↔
      ∀ key ∈ baseline, key ∈ capacity ∧ valueAt baseline key ≤ valueAt capacity key := by
  rw [ensureMeetsBaseline, ExceptLoop.forM_eq_ok]
  refine forall_congr' fun key => ?_
  rw [mem_sortedKeys]
  refine imp_congr_right fun _ => ?_
  cases hl : capacity.lookup key with
  | none =>
    have hnot : key ∉ capacity := AList.lookup_eq_none.mp hl
    simp [hnot]
  | some got =>
    have hmem : key ∈ capacity := AList.lookup_isSome.mp (by simp [hl])
    have hread : valueAt capacity key = got := by simp [valueAt, hl]
    by_cases hc : got.covers (valueAt baseline key)
    · simp [hc, hmem, hread, ← RoleCapacity.covers_iff]
    · simp [hc, hmem, hread, ← RoleCapacity.covers_iff]

/-- The floor of one bucket: the minimum of both capacities in a fully allocated plan, the whole
current capacity in a partial one. -/
def floorAt (desired baseline : CapacityByRoleZone) (fullyAllocated : Bool) (key : RoleZone) :
    RoleCapacity :=
  if fullyAllocated then (valueAt baseline key).min (valueAt desired key) else valueAt baseline key

/-- The floor protects exactly the existing buckets, each of which the plan must cover. -/
structure IsFloor (desired baseline : CapacityByRoleZone) (fullyAllocated : Bool)
    (floor : CapacityByRoleZone) : Prop where
  mem_iff : ∀ key, key ∈ floor ↔ key ∈ baseline
  mem_desired : ∀ key ∈ baseline, key ∈ desired
  value_eq : ∀ key ∈ baseline, valueAt floor key = floorAt desired baseline fullyAllocated key
  le_desired : ∀ key ∈ baseline, floorAt desired baseline fullyAllocated key ≤ valueAt desired key

theorem foldlM_lowerFloor {desired baseline : CapacityByRoleZone} (fullyAllocated : Bool)
    (hdes : ∀ key ∈ baseline, key ∈ desired) :
    ∃ floor, (sortedKeys baseline).foldlM (lowerFloor desired baseline fullyAllocated) baseline =
        .ok floor ∧
      ∀ key, floor.lookup key =
        if key ∈ baseline then some (floorAt desired baseline fullyAllocated key) else none := by
  have hbody : ∀ key ∈ sortedKeys baseline, ∀ floor,
      lowerFloor desired baseline fullyAllocated floor key = .ok (if fullyAllocated then
        floor.insert key ((valueAt baseline key).min (valueAt desired key)) else floor) := by
    intro key hkey floor
    rw [lowerFloor, lookup_eq_some_valueAt (hdes key (mem_sortedKeys.mp hkey))]
    cases fullyAllocated <;> rfl
  refine ⟨_, ExceptLoop.foldlM_eq_foldl hbody baseline, fun key => ?_⟩
  cases fullyAllocated with
  | false =>
    simp only [Bool.false_eq_true, if_false, List.foldl_fixed, floorAt]
    split_ifs with hkey
    · exact lookup_eq_some_valueAt hkey
    · exact AList.lookup_eq_none.mpr hkey
  | true =>
    simp only [if_true, Keyed.lookup_foldl_insert_values, mem_sortedKeys, floorAt]
    split_ifs with hkey
    · rfl
    · exact AList.lookup_eq_none.mpr hkey

theorem resolveEffectiveFloor_ok {desired baseline floor : CapacityByRoleZone}
    {fullyAllocated : Bool}
    (h : resolveEffectiveFloor desired baseline fullyAllocated = .ok floor) :
    IsFloor desired baseline fullyAllocated floor := by
  obtain ⟨floor', hfold, h⟩ := ExceptLoop.bind_eq_ok.mp h
  obtain ⟨⟨⟩, hbase, h⟩ := ExceptLoop.bind_eq_ok.mp h
  cases h
  have hdes : ∀ key ∈ baseline, key ∈ desired := by
    intro key hkey
    obtain ⟨c, d, hcd⟩ := ExceptLoop.exists_ok_of_foldlM hfold (mem_sortedKeys.mpr hkey)
    cases hl : desired.lookup key with
    | none => simp [lowerFloor, hl] at hcd
    | some target => exact AList.lookup_isSome.mp (by simp [hl])
  obtain ⟨floor', hfold', hlookup⟩ := foldlM_lowerFloor fullyAllocated hdes
  cases hfold.symm.trans hfold'
  have hmem : ∀ key, key ∈ floor ↔ key ∈ baseline := by
    intro key
    rw [← AList.lookup_isSome, hlookup]
    split_ifs with hkey <;> simp [hkey]
  have hvalue : ∀ key ∈ baseline,
      valueAt floor key = floorAt desired baseline fullyAllocated key := by
    intro key hkey
    simp [valueAt, hlookup, hkey]
  refine ⟨hmem, hdes, hvalue, fun key hkey => ?_⟩
  rw [← hvalue key hkey]
  exact (ensureMeetsBaseline_ok.mp hbase key ((hmem key).mpr hkey)).2

/-- A fully allocated plan is only rejected for a missing bucket. -/
theorem exists_resolveEffectiveFloor_ok {desired baseline : CapacityByRoleZone}
    (hdes : ∀ key ∈ baseline, key ∈ desired) :
    ∃ floor, resolveEffectiveFloor desired baseline true = .ok floor := by
  obtain ⟨floor, hfold, hlookup⟩ := foldlM_lowerFloor true hdes
  have hbase : ensureMeetsBaseline desired floor = .ok () := by
    rw [ensureMeetsBaseline_ok]
    intro key hkey
    have hmem : key ∈ baseline := by
      by_contra hnot
      rw [← AList.lookup_isSome, hlookup, if_neg hnot] at hkey
      cases hkey
    refine ⟨hdes key hmem, ?_⟩
    have hvalue : valueAt floor key = floorAt desired baseline true key := by
      simp [valueAt, hlookup, hmem]
    rw [hvalue]
    exact RoleCapacity.min_le_right _ _
  refine ⟨floor, ?_⟩
  rw [resolveEffectiveFloor, hfold]
  change (ensureMeetsBaseline desired floor >>= fun _ => pure floor) = _
  rw [hbase]
  rfl

end CapacityByRoleZone

end AroHcp.Compute
