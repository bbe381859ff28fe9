import AroHcp.Compute.ZoneBalance

/-! Why a tier got no pools: the reason that `tierExhaustedFailure` reports, compared with what the
allocation would do if quota were no limit. -/

namespace AroHcp.Compute

open GoInt Tally Transport

variable {tier : TierConfig} {zones requiredZones T : List String} {budgets : FamilyMap}
  {index : EligibleSKUIndex} {zone : String}

def Offered (tier : TierConfig) (index : EligibleSKUIndex) (zone : String) : Prop :=
  ∃ family ∈ tier.familyPriority, ∃ sku, tierSKU tier family index = some sku ∧ zone ∈ sku.zones

def Coverable (tier : TierConfig) (zones requiredZones : List String) (index : EligibleSKUIndex) :
    Prop :=
  ∃ T, TierZones zones requiredZones (min tier.poolCount zones.length) T ∧
    ∀ zone ∈ T, Offered tier index zone

def zonesNeeded (tier : TierConfig) (zones requiredZones : List String) : Int :=
  max (min tier.poolCount zones.length) requiredZones.length

/-- There are budgets, as large as a 64-bit number, with which the tier gets a pool. -/
def Allocatable (sha256Hex : String → String) (tier : TierConfig) (zones requiredZones : List String)
    (index : EligibleSKUIndex) : Prop :=
  ∃ budgets : FamilyMap, (∀ family, 0 ≤ valueAt budgets family ∧ valueAt budgets family ≤ maxInt64) ∧
    (allocateTier sha256Hex tier zones requiredZones budgets index).1 ≠ []

/-- One node of each family in every zone, with all that is counted on the way, is inside 64 bits.
-/
structure TierFits (tier : TierConfig) (zones requiredZones : List String) : Prop where
  nodes : ((zones.length : Int) + requiredZones.length) * tier.maxNodes ≤ maxInt64
  quota : ((zones.length : Int) + requiredZones.length) *
    (tier.cores * tier.familyPriority.length) ≤ maxInt64

theorem valueAt_evenNodes_mem {keys : List String} {value : Int} (h0 : 0 ≤ value)
    (hmax : value ≤ maxInt64) (key : String) :
    0 ≤ valueAt (evenNodes keys value) key ∧ valueAt (evenNodes keys value) key ≤ maxInt64 := by
  rw [valueAt_evenNodes]
  split_ifs
  · exact ⟨h0, hmax⟩
  · decide

/-! ## Regional tiers -/

theorem allocateRegionalFamilies_ne_nil (sha256Hex : String → String) (families : List VMFamily) :
    (allocateRegionalFamilies sha256Hex tier budgets index 0 families).1 ≠ [] ↔
      ∃ family ∈ families, ∃ sku, tierSKU tier family index = some sku ∧
        1 ≤ minNonNegative ((valueAt budgets family).tdiv sku.vcpus) tier.maxNodes := by
  induction families with
  | nil => simp [allocateRegionalFamilies]
  | cons family rest ih =>
    rw [allocateRegionalFamilies, List.exists_mem_cons_iff]
    cases hsku : tierSKU tier family index with
    | none => simpa using ih
    | some sku =>
      dsimp only
      rw [sub_zero]
      split_ifs with hsmall htarget
      · rw [ih]
        simp only [Option.some.injEq, exists_eq_left']
        exact (or_iff_right (not_le.mpr hsmall)).symm
      · simpa using .inl (not_lt.mp hsmall)
      · simpa using .inl (not_lt.mp hsmall)

/-! ## Per-zone tiers -/

section

variable {n : ℕ} {families : Fin n → FamilyQuota} {needed : ZoneNodes}

theorem fillZone_of_nonpos (sha256Hex : String → String) (tier : TierConfig)
    (before after : List FamilyQuota) (h : valueAt needed zone ≤ 0) :
    fillZone sha256Hex tier zone before after needed = (before ++ after, needed, []) := by
  induction after generalizing before with
  | nil => simp [fillZone]
  | cons q after ih =>
    have hzero : (if zone ∈ q.metadata.zones then
        mostFillableNodes before q after needed zone else 0) = 0 := by
      have hle := mostFillableNodes_le before q after needed zone
      split_ifs <;> omega
    unfold fillZone
    rw [if_pos hzero, ih, List.append_assoc, List.singleton_append]

theorem fillZones_of_nonpos (sha256Hex : String → String) (tier : TierConfig) (zones : List String)
    (quotas : List FamilyQuota) (h : ∀ zone, valueAt needed zone ≤ 0) :
    fillZones sha256Hex tier zones quotas needed = [] := by
  induction zones with
  | nil => rfl
  | cons zone rest ih =>
    rw [fillZones, fillZone_of_nonpos sha256Hex tier [] quotas (h zone)]
    exact ih

theorem fillZone_needs (sha256Hex : String → String) (tier : TierConfig)
    (before after : List FamilyQuota)
    (h : (fillZone sha256Hex tier zone before after needed).2.2 = []) :
    (fillZone sha256Hex tier zone before after needed).2.1 = needed := by
  induction after generalizing before with
  | nil => rfl
  | cons q after ih =>
    unfold fillZone at h ⊢
    generalize (if zone ∈ q.metadata.zones then
      mostFillableNodes before q after needed zone else 0) = nodes at h ⊢
    by_cases hzero : nodes = 0
    · rw [if_pos hzero] at h ⊢
      exact ih _ h
    · rw [if_neg hzero] at h
      exact absurd h (List.cons_ne_nil _ _)

theorem fillZones_ne_nil (sha256Hex : String → String) (tier : TierConfig)
    (h : Fair families needed) (hzone : zone ∈ needed) (hpos : 1 ≤ valueAt needed zone)
    (rest : List String) :
    fillZones sha256Hex tier (zone :: rest) (List.ofFn families) needed ≠ [] := by
  intro hnil
  have hnone := (List.append_eq_nil_iff.mp hnil).1
  obtain ⟨-, -, -, hval, -⟩ := fillZone_fair sha256Hex tier h hzone (List.nil_append _).symm
    fun i hi => absurd hi (Nat.not_lt_zero _)
  rw [fillZone_needs sha256Hex tier [] _ hnone] at hval
  have hzero := congrFun hval zone
  rw [Function.update_self] at hzero
  omega

end

/-- A group of one zone is enough to see that the zone is offered, whatever the quotas add up to. -/
theorem offered_of_canFill (hi : IndexSound index) {nodes : Int} (hpos : 1 ≤ nodes)
    (hmax : nodes ≤ maxInt64)
    (h : canFill (familiesWithQuota tier zones budgets index) (evenNodes T nodes) = true)
    (hzone : zone ∈ T) : Offered tier index zone := by
  have hgroup := canFill_eq_true.mp h [zone] (List.singleton_sublist.mpr
    ((List.mem_insertionSort _).mpr (AList.mem_keys.mpr (mem_evenNodes.mpr hzone))))
  by_contra hnot
  have hnone : (familiesWithQuota tier zones budgets index).filter
      (fun family => intersectZones [zone] family.metadata ≠ []) = [] := by
    rw [List.filter_eq_nil_iff]
    intro quota hquota
    obtain ⟨hfamily, hsku, -⟩ := sku_of_mem_familiesWithQuota hi hquota
    have hout : zone ∉ quota.metadata.zones := fun hin => hnot ⟨_, hfamily, _, hsku, hin⟩
    simp [intersectZones, hout]
  unfold coversGroup at hgroup
  dsimp only at hgroup
  rw [hnone, decide_eq_true_eq, List.map_singleton, List.sum_singleton, valueAt_evenNodes,
    if_pos hzone, int64_of_lt (by omega) (by unfold maxInt64 at hmax; omega)] at hgroup
  exact absurd hgroup (by simp [int64]; omega)

theorem fillable_of_offered (hi : IndexSound index)
    (hquota : ∀ family ∈ tier.familyPriority,
      (valueAt budgets family).tdiv tier.cores = (T.length : Int))
    (h : ∀ zone ∈ T, Offered tier index zone) :
    Fillable (familiesWithQuota tier zones budgets index).get (evenNodes T (1 : ℕ)) := by
  have hindex : ∀ zone ∈ T, ∃ i, zone ∈
      ((familiesWithQuota tier zones budgets index).get i).metadata.zones := by
    intro zone hzone
    obtain ⟨family, hfamily, sku, hsku, hoffered⟩ := h zone hzone
    have hpos := List.length_pos_of_mem hzone
    have hmem : ⟨sku, (T.length : Int)⟩ ∈ familiesWithQuota tier zones budgets index := by
      refine mem_familiesWithQuota.mpr ⟨family, hfamily, hsku, by dsimp only; omega, ?_⟩
      rw [(tierSKU_eq_some hi hsku).2, hquota family hfamily]
    obtain ⟨i, hi'⟩ := List.get_of_mem hmem
    exact ⟨i, hi' ▸ hoffered⟩
  choose pick hpick using hindex
  -- each zone takes its node from the family picked for it
  refine ⟨fun i zone => if h : zone ∈ T then if pick zone h = i then 1 else 0 else 0, ?_, ?_, ?_⟩
  · intro i zone hnot
    split_ifs with hzone heq
    · exact absurd (heq ▸ hpick zone hzone) hnot
    · rfl
    · rfl
  · intro zone hmem
    have hzone : zone ∈ T := mem_evenNodes.mp (List.mem_toFinset.mp hmem)
    rw [valueAt_evenNodes, if_pos hzone]
    simp [hzone]
  · intro i
    obtain ⟨family, hfamily, hsku, -, hnodes⟩ :=
      mem_familiesWithQuota.mp (List.get_mem (familiesWithQuota tier zones budgets index) i)
    rw [(tierSKU_eq_some hi hsku).2, hquota family hfamily] at hnodes
    have hcard : ∑ zone ∈ T.toFinset, ((if h : zone ∈ T then if pick zone h = i then 1 else 0
        else 0 : ℕ) : ℤ) ≤ T.toFinset.card • 1 := by
      refine Finset.sum_le_card_nsmul _ _ _ fun zone _ => ?_
      split_ifs <;> simp
    have hlen := List.toFinset_card_le T
    rw [nsmul_one] at hcard
    rw [keys_evenNodes]
    omega

section

variable (sha256Hex : String → String) (hi : IndexSound index) (hzones : zones.Nodup)
  (hrequired : requiredZones.Nodup) (hcount : 1 ≤ min tier.poolCount (zones.length : Int))

theorem allocatePerZoneTier_pools (hcount : 1 ≤ min tier.poolCount (zones.length : Int))
    {nodes : Int} (hbest : bestZones (familiesWithQuota tier zones budgets index) zones
      requiredZones (min tier.poolCount zones.length) tier.maxNodes = (T, nodes)) :
    (allocatePerZoneTier sha256Hex tier zones requiredZones budgets index).1 =
      fillZones sha256Hex tier T (familiesWithQuota tier zones budgets index)
        (evenNodes T nodes) := by
  unfold allocatePerZoneTier
  dsimp only
  rw [if_neg (by simp; omega), hbest]

include hi hzones hrequired hcount

/-- Pools come only from zones that are all offered. -/
theorem coverable_of_allocated (hmax : tier.maxNodes ≤ maxInt64)
    (h : (allocatePerZoneTier sha256Hex tier zones requiredZones budgets index).1 ≠ []) :
    Coverable tier zones requiredZones index := by
  obtain ⟨T, hbest, hT, -⟩ := bestZones_eq (familiesWithQuota tier zones budgets index) hzones
    hrequired (min_le_right tier.poolCount (zones.length : Int)) tier.maxNodes
  rw [allocatePerZoneTier_pools sha256Hex hcount hbest] at h
  have hpos : 1 ≤ maxNodesPerZone (familiesWithQuota tier zones budgets index) T tier.maxNodes := by
    by_contra hzero
    apply h
    apply fillZones_of_nonpos
    intro zone
    rw [valueAt_evenNodes]
    split_ifs <;> omega
  have hle := maxNodesPerZone_le (familiesWithQuota tier zones budgets index) T tier.maxNodes
  have hfill : canFill (familiesWithQuota tier zones budgets index) (evenNodes T
      (maxNodesPerZone (familiesWithQuota tier zones budgets index) T tier.maxNodes)) = true :=
    Nat.findGreatest_of_ne_zero (P := fun m : ℕ => canFill
      (familiesWithQuota tier zones budgets index) (evenNodes T m) = true) rfl
      (by unfold maxNodesPerZone at hpos; omega)
  exact ⟨T, hT, fun zone hzone => offered_of_canFill hi hpos (by omega) hfill hzone⟩

/-- Zones that can get a node each do get pools. -/
theorem allocated_of_fillable (hnodes : 1 ≤ tier.maxNodes)
    (hsize : zonesNeeded tier zones requiredZones * max tier.maxNodes 0 ≤ maxInt64)
    (hsum : quotaTotal tier budgets ≤ maxInt64)
    (hT : TierZones zones requiredZones (min tier.poolCount zones.length) T)
    (hfill : Fillable (familiesWithQuota tier zones budgets index).get (evenNodes T (1 : ℕ))) :
    (allocatePerZoneTier sha256Hex tier zones requiredZones budgets index).1 ≠ [] := by
  have hquota : ∀ i, 0 ≤ ((familiesWithQuota tier zones budgets index).get i).quotaNodes :=
    fun i => quotaNodes_nonneg hi (List.get_mem _ i)
  have hsums : ∑ i, ((familiesWithQuota tier zones budgets index).get i).quotaNodes ≤ maxInt64 :=
    (sum_quotaNodes_le hi).trans hsum
  obtain ⟨T', nodes, hbest, hT', hfill', hmost⟩ := bestZones_spec hquota hsums hzones hrequired
    (min_le_right tier.poolCount (zones.length : Int)) tier.maxNodes hsize
  have hle := bestZones_le (familiesWithQuota tier zones budgets index) zones requiredZones
    (min tier.poolCount zones.length) tier.maxNodes
  rw [List.ofFn_get] at hbest
  rw [hbest] at hle
  rw [allocatePerZoneTier_pools sha256Hex hcount hbest]
  have hpos : 1 ≤ nodes := by
    by_contra hzero
    exact hmost T hT 1 (by omega) (by simpa using hnodes) hfill
  have hlen := hT'.count
  obtain ⟨zone, rest, rfl⟩ := List.exists_cons_of_length_pos (by omega : 0 < T'.length)
  have hfair : Fair (familiesWithQuota tier zones budgets index).get
      (evenNodes (zone :: rest) nodes) :=
    ⟨hfill', nodesFit_evenNodes hquota hsums (by rw [hlen]; exact hsize) hle⟩
  have hne := fillZones_ne_nil sha256Hex tier hfair (mem_evenNodes.mpr List.mem_cons_self)
    (by rw [valueAt_evenNodes, if_pos List.mem_cons_self]; omega) rest
  rwa [List.ofFn_get] at hne

end

/-! ## What the tier needs -/

theorem TierFits.one_le (h : zones ≠ []) : 1 ≤ (zones.length : Int) + requiredZones.length := by
  have hlen := List.length_pos_iff.mpr h
  omega

theorem TierFits.le_maxInt64 (h : TierFits tier zones requiredZones) (hne : zones ≠ [])
    (hfamilies : tier.familyPriority ≠ []) (hcores : 0 < tier.cores) :
    tier.cores ≤ maxInt64 := by
  have hlen := List.length_pos_iff.mpr hfamilies
  calc tier.cores ≤ tier.cores * tier.familyPriority.length :=
        le_mul_of_one_le_right hcores.le (by omega)
    _ ≤ _ := le_mul_of_one_le_left (by positivity) (one_le hne)
    _ ≤ maxInt64 := h.quota

/-- Quota is all that a regional tier lacks once it has an eligible SKU. -/
theorem allocatable_regional (sha256Hex : String → String) (hi : IndexSound index)
    (hcores : 0 < tier.cores) (hnodes : 1 ≤ tier.maxNodes) (hmode : tier.poolMode = .regional)
    (hne : zones ≠ []) (hfits : TierFits tier zones requiredZones) :
    Allocatable sha256Hex tier zones requiredZones index ↔
      ∃ family ∈ tier.familyPriority, (tierSKU tier family index).isSome := by
  have hpools : ∀ budgets, (allocateTier sha256Hex tier zones requiredZones budgets index).1 ≠ [] ↔
      ∃ family ∈ tier.familyPriority, ∃ sku, tierSKU tier family index = some sku ∧
        1 ≤ minNonNegative ((valueAt budgets family).tdiv sku.vcpus) tier.maxNodes := by
    intro budgets
    unfold allocateTier
    rw [hmode]
    dsimp only [allocateRegionalTier]
    rw [allocateRegionalFamilies_ne_nil]
    simp only [(perm_familyAllocationOrder tier zones index).mem_iff]
  constructor
  · rintro ⟨budgets, -, h⟩
    obtain ⟨family, hfamily, sku, hsku, -⟩ := (hpools budgets).mp h
    exact ⟨family, hfamily, Option.isSome_of_eq_some hsku⟩
  · rintro ⟨family, hfamily, hsome⟩
    obtain ⟨sku, hsku⟩ := Option.isSome_iff_exists.mp hsome
    have hle := hfits.le_maxInt64 hne (List.ne_nil_of_mem hfamily) hcores
    refine ⟨evenNodes tier.familyPriority tier.cores,
      valueAt_evenNodes_mem hcores.le hle, (hpools _).mpr ⟨family, hfamily, sku, hsku, ?_⟩⟩
    rw [valueAt_evenNodes, if_pos hfamily, (tierSKU_eq_some hi hsku).2, Int.tdiv_self hcores.ne']
    unfold minNonNegative
    omega

theorem tdiv_evenNodes (hcores : 0 < tier.cores) (n : ℕ) {family : VMFamily}
    (hfamily : family ∈ tier.familyPriority) :
    (valueAt (evenNodes tier.familyPriority (tier.cores * n)) family).tdiv tier.cores = n := by
  rw [valueAt_evenNodes, if_pos hfamily, Int.mul_tdiv_cancel_left _ hcores.ne']

theorem quotaTotal_evenNodes (hcores : 0 < tier.cores) (n : ℕ) :
    quotaTotal tier (evenNodes tier.familyPriority (tier.cores * n)) =
      tier.familyPriority.length * n := by
  unfold quotaTotal
  rw [List.map_congr_left (g := fun _ => (n : Int)), List.map_const', List.sum_replicate,
    nsmul_eq_mul]
  intro family hfamily
  rw [max_fdiv, tdiv_evenNodes hcores n hfamily, max_eq_left (by omega)]

theorem allocatable_perZone (sha256Hex : String → String) (hi : IndexSound index)
    (hcores : 0 < tier.cores) (hnodes : 1 ≤ tier.maxNodes) (hmode : tier.poolMode = .perZone)
    (hzones : zones.Nodup) (hrequired : requiredZones.Nodup)
    (hcount : 1 ≤ min tier.poolCount (zones.length : Int))
    (hfits : TierFits tier zones requiredZones) :
    Allocatable sha256Hex tier zones requiredZones index ↔
      Coverable tier zones requiredZones index := by
  have hpools : ∀ budgets, (allocateTier sha256Hex tier zones requiredZones budgets index).1 =
      (allocatePerZoneTier sha256Hex tier zones requiredZones budgets index).1 := by
    intro budgets
    unfold allocateTier
    rw [hmode]
  have hneeded : zonesNeeded tier zones requiredZones ≤
      (zones.length : Int) + requiredZones.length := by
    unfold zonesNeeded
    omega
  unfold Allocatable
  simp only [hpools]
  constructor
  · rintro ⟨budgets, -, h⟩
    refine coverable_of_allocated sha256Hex hi hzones hrequired hcount ?_ h
    exact (le_mul_of_one_le_left (by omega) (by omega)).trans hfits.nodes
  · rintro ⟨T, hT, hoffered⟩
    have hlen := hT.count
    change (T.length : Int) = zonesNeeded tier zones requiredZones at hlen
    obtain ⟨zone, hzone⟩ := List.exists_mem_of_length_pos (l := T)
      (by unfold zonesNeeded at hlen; omega)
    obtain ⟨family, hfamily, -⟩ := hoffered zone hzone
    have hfamilies := List.length_pos_of_mem hfamily
    have hbudget : tier.cores * (T.length : Int) * tier.familyPriority.length ≤ maxInt64 := by
      calc _ = T.length * (tier.cores * tier.familyPriority.length) := by
            rw [mul_assoc, mul_left_comm]
        _ ≤ _ := mul_le_mul_of_nonneg_right (by omega) (by positivity)
        _ ≤ maxInt64 := hfits.quota
    refine ⟨evenNodes tier.familyPriority (tier.cores * T.length),
      valueAt_evenNodes_mem (by positivity)
        ((le_mul_of_one_le_right (by positivity) (by omega)).trans hbudget), ?_⟩
    refine allocated_of_fillable sha256Hex hi hzones hrequired hcount hnodes ?_ ?_ hT
      (fillable_of_offered hi (fun _ => tdiv_evenNodes hcores _) hoffered)
    · rw [max_eq_left (by omega)]
      exact (mul_le_mul_of_nonneg_right hneeded (by omega)).trans hfits.nodes
    · rw [quotaTotal_evenNodes hcores]
      calc (tier.familyPriority.length : Int) * T.length
          ≤ tier.cores * (tier.familyPriority.length * T.length) :=
            le_mul_of_one_le_left (by positivity) (by omega)
        _ = tier.cores * T.length * tier.familyPriority.length := by
            rw [mul_assoc, mul_comm (T.length : Int)]
        _ ≤ maxInt64 := hbudget

def eligibleSKUs (tier : TierConfig) (index : EligibleSKUIndex) : List SKUMetadata :=
  tier.familyPriority.filterMap fun family => tierSKU tier family index

def offeredZones (tier : TierConfig) (index : EligibleSKUIndex) (zones : List String) :
    List String :=
  ((eligibleSKUs tier index).flatMap (intersectZones zones)).dedup

theorem mem_offeredZones :
    zone ∈ offeredZones tier index zones ↔ zone ∈ zones ∧ Offered tier index zone := by
  simp only [offeredZones, eligibleSKUs, Offered, intersectZones, List.mem_dedup, List.mem_flatMap,
    List.mem_filterMap, List.mem_filter, decide_eq_true_eq]
  constructor
  · rintro ⟨sku, ⟨family, hfamily, hsku⟩, hzone, hoffered⟩
    exact ⟨hzone, family, hfamily, sku, hsku, hoffered⟩
  · rintro ⟨hzone, family, hfamily, sku, hsku, hoffered⟩
    exact ⟨sku, ⟨family, hfamily, hsku⟩, hzone, hoffered⟩

/-- The tier can be covered when all required zones are offered, and enough zones in all. -/
theorem coverable_iff (hrequired : requiredZones.Nodup) :
    Coverable tier zones requiredZones index ↔
      (∀ zone ∈ requiredZones, zone ∈ offeredZones tier index requiredZones) ∧
        zonesNeeded tier zones requiredZones ≤
          (offeredZones tier index (zones ++ requiredZones)).length := by
  constructor
  · rintro ⟨T, hT, hoffered⟩
    refine ⟨fun zone hz => mem_offeredZones.mpr ⟨hz, hoffered zone (hT.required zone hz)⟩, ?_⟩
    have hle : T.length ≤ (offeredZones tier index (zones ++ requiredZones)).length := by
      apply (List.subperm_of_subset hT.nodup _).length_le
      intro zone hz
      exact mem_offeredZones.mpr ⟨List.mem_append.mpr (hT.given zone hz), hoffered zone hz⟩
    have hcount := hT.count
    unfold zonesNeeded
    omega
  · rintro ⟨hall, hcount⟩
    unfold zonesNeeded at hcount
    have hdedup : (offeredZones tier index (zones ++ requiredZones)).Nodup := List.nodup_dedup _
    have hlen : (offeredZones tier index (zones ++ requiredZones)).length ≤ requiredZones.length +
        ((offeredZones tier index (zones ++ requiredZones)).filter
          fun zone => zone ∉ requiredZones).length := length_le_filter_notMem hdedup
    set others := (offeredZones tier index (zones ++ requiredZones)).filter
      fun zone => zone ∉ requiredZones
    set k := (min tier.poolCount (zones.length : Int) - requiredZones.length).toNat
    have hother : ∀ zone ∈ others.take k,
        zone ∈ zones ∧ zone ∉ requiredZones ∧ Offered tier index zone := by
      intro zone hz
      obtain ⟨hmem, hnot⟩ := List.mem_filter.mp (List.mem_of_mem_take hz)
      obtain ⟨hgiven, hoffered⟩ := mem_offeredZones.mp hmem
      have hnot' : zone ∉ requiredZones := by simpa using hnot
      exact ⟨(List.mem_append.mp hgiven).resolve_right hnot', hnot', hoffered⟩
    refine ⟨requiredZones ++ others.take k, ⟨?_, ?_, ?_, ?_⟩, ?_⟩
    · refine List.nodup_append.mpr ⟨hrequired, (hdedup.filter _).sublist (List.take_sublist _ _), ?_⟩
      rintro a ha b hb rfl
      exact (hother a hb).2.1 ha
    · intro zone hz
      exact List.mem_append_left _ hz
    · intro zone hz
      rcases List.mem_append.mp hz with hz | hz
      · exact .inr hz
      · exact .inl (hother zone hz).1
    · rw [List.length_append, List.length_take]
      omega
    · intro zone hz
      rcases List.mem_append.mp hz with hz | hz
      · exact (mem_offeredZones.mp (hall zone hz)).2
      · exact (hother zone hz).2.2

/-! ## The reported reason -/

/-- The reason is quota exactly when more budget would help, and lack of zone coverage is reported
only for a per-zone tier that has to use a zone no eligible family is offered in. -/
structure Truthful (sha256Hex : String → String) (tier : TierConfig)
    (zones requiredZones : List String) (index : EligibleSKUIndex) (reason : String) : Prop where
  quota : reason = "InsufficientQuota" ↔ Allocatable sha256Hex tier zones requiredZones index
  coverage : reason = "NoZoneCoverage" → tier.poolMode = .perZone ∧
    ∀ T, TierZones zones requiredZones (min tier.poolCount zones.length) T →
      ∃ zone ∈ T, ¬ Offered tier index zone

theorem not_coverable_iff : ¬ Coverable tier zones requiredZones index ↔
    ∀ T, TierZones zones requiredZones (min tier.poolCount zones.length) T →
      ∃ zone ∈ T, ¬ Offered tier index zone := by
  unfold Coverable
  push Not
  rfl

/-- The zones that the classifier looks at: only those it was given. -/
def CoversGiven (tier : TierConfig) (zones requiredZones : List String) (index : EligibleSKUIndex) :
    Prop :=
  (∀ zone ∈ requiredZones, zone ∈ offeredZones tier index zones) ∧
    zonesNeeded tier zones requiredZones ≤ (offeredZones tier index zones).length

theorem reason_eq (tierIndex : Nat) :
    (tierExhaustedFailure tierIndex tier zones requiredZones index).reason =
      if tier.familyPriority = [] then "NoEligibleFamily"
      else if eligibleSKUs tier index = [] then "NoEligibleSKU"
      else if tier.poolMode = .perZone && (requiredZones.filter fun zone =>
        zone ∉ offeredZones tier index zones) ≠ [] then "NoZoneCoverage"
      else if tier.poolMode = .perZone && ((offeredZones tier index zones).length : Int) <
        zonesNeeded tier zones requiredZones then "NoZoneCoverage"
      else "InsufficientQuota" := by
  change (exhaustedReason tierIndex tier zones requiredZones index).1 = _
  unfold exhaustedReason offeredZones eligibleSKUs zonesNeeded
  dsimp only
  split_ifs <;> rfl

theorem offered_iff_of_eligible : (∃ family ∈ tier.familyPriority,
    (tierSKU tier family index).isSome) ↔ eligibleSKUs tier index ≠ [] := by
  unfold eligibleSKUs
  rw [Ne, List.filterMap_eq_nil_iff]
  push Not
  simp only [Option.isSome_iff_ne_none, ne_eq]

theorem not_coverable_of_no_sku (hcount : 1 ≤ min tier.poolCount (zones.length : Int))
    (h : eligibleSKUs tier index = []) : ¬ Coverable tier zones requiredZones index := by
  rintro ⟨T, hT, hoffered⟩
  have hlen := hT.count
  obtain ⟨zone, hzone⟩ := List.exists_mem_of_length_pos (by omega : 0 < T.length)
  obtain ⟨family, hfamily, sku, hsku, -⟩ := hoffered zone hzone
  exact offered_iff_of_eligible.mp ⟨family, hfamily, Option.isSome_of_eq_some hsku⟩ h

theorem CoversGiven.coverable (hrequired : requiredZones.Nodup)
    (h : CoversGiven tier zones requiredZones index) :
    Coverable tier zones requiredZones index := by
  refine (coverable_iff hrequired).mpr ⟨fun zone hz => ?_, h.2.trans ?_⟩
  · exact mem_offeredZones.mpr ⟨hz, (mem_offeredZones.mp (h.1 zone hz)).2⟩
  · refine Int.ofNat_le.mpr (List.subperm_of_subset (List.nodup_dedup _) ?_).length_le
    intro zone hz
    obtain ⟨hgiven, hoffered⟩ := mem_offeredZones.mp hz
    exact mem_offeredZones.mpr ⟨List.mem_append_left _ hgiven, hoffered⟩

/-- When all required zones are among the given ones, the classifier looks at all zones there are.
-/
theorem Coverable.coversGiven (hrequired : requiredZones.Nodup)
    (hsub : ∀ zone ∈ requiredZones, zone ∈ zones)
    (h : Coverable tier zones requiredZones index) :
    CoversGiven tier zones requiredZones index := by
  obtain ⟨hall, hcount⟩ := (coverable_iff hrequired).mp h
  refine ⟨fun zone hz => ?_, hcount.trans ?_⟩
  · exact mem_offeredZones.mpr ⟨hsub zone hz, (mem_offeredZones.mp (hall zone hz)).2⟩
  · refine Int.ofNat_le.mpr (List.subperm_of_subset (List.nodup_dedup _) ?_).length_le
    intro zone hz
    obtain ⟨hgiven, hoffered⟩ := mem_offeredZones.mp hz
    refine mem_offeredZones.mpr ⟨?_, hoffered⟩
    exact (List.mem_append.mp hgiven).elim id (hsub zone)

theorem reason_perZone (tierIndex : Nat) (hmode : tier.poolMode = .perZone)
    (hsku : eligibleSKUs tier index ≠ []) :
    (CoversGiven tier zones requiredZones index →
      (tierExhaustedFailure tierIndex tier zones requiredZones index).reason =
        "InsufficientQuota") ∧
    (¬ CoversGiven tier zones requiredZones index →
      (tierExhaustedFailure tierIndex tier zones requiredZones index).reason =
        "NoZoneCoverage") := by
  have hfamilies : tier.familyPriority ≠ [] := by
    intro hnil
    exact hsku (by simp [eligibleSKUs, hnil])
  have huncovered : (requiredZones.filter fun zone => zone ∉ offeredZones tier index zones) = [] ↔
      ∀ zone ∈ requiredZones, zone ∈ offeredZones tier index zones := by
    simp [List.filter_eq_nil_iff]
  rw [reason_eq, if_neg hfamilies, if_neg hsku]
  simp only [hmode, decide_true, Bool.true_and, decide_eq_true_eq, ne_eq, huncovered]
  constructor
  · rintro ⟨hall, hcount⟩
    rw [if_neg (not_not.mpr hall), if_neg (not_lt.mpr hcount)]
  · intro hnot
    by_cases hall : ∀ zone ∈ requiredZones, zone ∈ offeredZones tier index zones
    · have hfew := not_le.mp fun hcount => hnot ⟨hall, hcount⟩
      rw [if_neg (not_not.mpr hall), if_pos hfew]
    · rw [if_pos hall]

theorem reason_of_no_sku (tierIndex : Nat) (hsku : eligibleSKUs tier index = []) :
    (tierExhaustedFailure tierIndex tier zones requiredZones index).reason ≠ "InsufficientQuota" ∧
      (tierExhaustedFailure tierIndex tier zones requiredZones index).reason ≠
        "NoZoneCoverage" := by
  rw [reason_eq]
  by_cases hfamilies : tier.familyPriority = []
  · rw [if_pos hfamilies]
    decide
  · rw [if_neg hfamilies, if_pos hsku]
    decide

theorem truthful_of_no_sku {sha256Hex : String → String} (tierIndex : Nat)
    (hsku : eligibleSKUs tier index = [])
    (hnot : ¬ Allocatable sha256Hex tier zones requiredZones index) :
    Truthful sha256Hex tier zones requiredZones index
      (tierExhaustedFailure tierIndex tier zones requiredZones index).reason where
  quota := iff_of_false (reason_of_no_sku tierIndex hsku).1 hnot
  coverage h := absurd h (reason_of_no_sku tierIndex hsku).2

theorem truthful_regional (sha256Hex : String → String) (tierIndex : Nat) (hi : IndexSound index)
    (hcores : 0 < tier.cores) (hnodes : 1 ≤ tier.maxNodes) (hmode : tier.poolMode = .regional)
    (hne : zones ≠ []) (hfits : TierFits tier zones requiredZones) :
    Truthful sha256Hex tier zones requiredZones index
      (tierExhaustedFailure tierIndex tier zones requiredZones index).reason := by
  have halloc : Allocatable sha256Hex tier zones requiredZones index ↔
      eligibleSKUs tier index ≠ [] :=
    (allocatable_regional sha256Hex hi hcores hnodes hmode hne hfits).trans offered_iff_of_eligible
  by_cases hsku : eligibleSKUs tier index = []
  · exact truthful_of_no_sku tierIndex hsku fun h => halloc.mp h hsku
  · have hfamilies : tier.familyPriority ≠ [] := by
      intro hnil
      exact hsku (by simp [eligibleSKUs, hnil])
    have hreason : (tierExhaustedFailure tierIndex tier zones requiredZones index).reason =
        "InsufficientQuota" := by
      rw [reason_eq, if_neg hfamilies, if_neg hsku]
      simp [hmode]
    rw [hreason]
    exact ⟨iff_of_true rfl (halloc.mpr hsku), fun h => absurd h (by decide)⟩

theorem truthful_perZone_iff (sha256Hex : String → String) (tierIndex : Nat) (hi : IndexSound index)
    (hcores : 0 < tier.cores) (hnodes : 1 ≤ tier.maxNodes) (hmode : tier.poolMode = .perZone)
    (hzones : zones.Nodup) (hrequired : requiredZones.Nodup)
    (hcount : 1 ≤ min tier.poolCount (zones.length : Int))
    (hfits : TierFits tier zones requiredZones) :
    Truthful sha256Hex tier zones requiredZones index
        (tierExhaustedFailure tierIndex tier zones requiredZones index).reason ↔
      (∀ zone ∈ requiredZones, zone ∈ zones) ∨ ¬ Coverable tier zones requiredZones index := by
  have halloc := allocatable_perZone sha256Hex hi hcores hnodes hmode hzones hrequired hcount hfits
  by_cases hsku : eligibleSKUs tier index = []
  · have hnot : ¬ Coverable tier zones requiredZones index := not_coverable_of_no_sku hcount hsku
    exact iff_of_true (truthful_of_no_sku tierIndex hsku fun h => hnot (halloc.mp h)) (.inr hnot)
  by_cases hgiven : CoversGiven tier zones requiredZones index
  · rw [(reason_perZone tierIndex hmode hsku).1 hgiven]
    refine iff_of_true ⟨iff_of_true rfl (halloc.mpr (hgiven.coverable hrequired)), ?_⟩ (.inl ?_)
    · intro h
      exact absurd h (by decide)
    · intro zone hz
      exact (mem_offeredZones.mp (hgiven.1 zone hz)).1
  · rw [(reason_perZone tierIndex hmode hsku).2 hgiven]
    constructor
    · intro h
      refine .inr fun hcoverable => ?_
      exact absurd (h.quota.mpr (halloc.mpr hcoverable)) (by decide)
    · intro h
      have hnot : ¬ Coverable tier zones requiredZones index := by
        rcases h with hsub | hnot
        · exact fun hcoverable => hgiven (hcoverable.coversGiven hrequired hsub)
        · exact hnot
      refine ⟨iff_of_false (by decide) fun h => hnot (halloc.mp h), fun _ => ⟨hmode, ?_⟩⟩
      exact not_coverable_iff.mp hnot

/-- The reason is truthful exactly when a per-zone tier has all its required zones among the given
zones, or cannot be covered in any case. -/
theorem tierExhaustedFailure_truthful_iff (sha256Hex : String → String) (tierIndex : Nat)
    (profile : Profile) (tier : TierConfig) (zones requiredZones : List String)
    (skuMetadata : AList fun _ : String => SKUMetadata)
    (hvalid : validateProfile profile = .ok ()) (htier : tier ∈ profile.tiers)
    (hnodes : 1 ≤ tier.maxNodes) (hne : zones ≠ []) (hzones : zones.Nodup)
    (hrequired : requiredZones.Nodup) (hfits : TierFits tier zones requiredZones) :
    Truthful sha256Hex tier zones requiredZones (buildEligibleSKUIndex skuMetadata)
        (tierExhaustedFailure tierIndex tier zones requiredZones
          (buildEligibleSKUIndex skuMetadata)).reason ↔
      (tier.poolMode = .perZone → (∀ zone ∈ requiredZones, zone ∈ zones) ∨
        ¬ ((∀ zone ∈ requiredZones,
            zone ∈ offeredZones tier (buildEligibleSKUIndex skuMetadata) requiredZones) ∧
          zonesNeeded tier zones requiredZones ≤ (offeredZones tier
            (buildEligibleSKUIndex skuMetadata) (zones ++ requiredZones)).length)) := by
  have hi := indexSound_build skuMetadata
  have htierValid := (validateProfile_eq_ok.mp hvalid).1 tier htier
  have hcores : 0 < tier.cores := lt_of_lt_of_le (by decide) htierValid.cores
  rw [← coverable_iff hrequired]
  rcases htierValid.poolMode with ⟨hmode, hpools⟩ | ⟨hmode, -⟩
  · have hcount : 1 ≤ min tier.poolCount (zones.length : Int) := by
      have hlen := List.length_pos_iff.mpr hne
      omega
    rw [truthful_perZone_iff sha256Hex tierIndex hi hcores hnodes hmode hzones hrequired hcount
      hfits]
    exact ⟨fun h _ => h, fun h => h hmode⟩
  · refine iff_of_true (truthful_regional sha256Hex tierIndex hi hcores hnodes hmode hne hfits)
      ?_
    intro hperZone
    rw [hmode] at hperZone
    cases hperZone

/-- A tier of two zones of which only zone 1 is offered: more quota would not help. -/
theorem tierExhaustedFailure_truthful_zone_missing :
    let tier := { zonalTier ["standardDFamily"] 2 with poolCount := 2 }
    let skus := AList.singleton "D4" { sampleSKU "D4" 4 with zones := ["1"] }
    (allocateTier (fun _ => "000000") tier ["1", "2"] ["2"] (AList.singleton "standardDFamily" 60)
        (buildEligibleSKUIndex skus)).1 = [] ∧
      (tierExhaustedFailure 0 tier ["1", "2"] ["2"] (buildEligibleSKUIndex skus)).reason =
        "NoZoneCoverage" ∧
      Truthful (fun _ => "000000") tier ["1", "2"] ["2"] (buildEligibleSKUIndex skus)
        (tierExhaustedFailure 0 tier ["1", "2"] ["2"] (buildEligibleSKUIndex skus)).reason := by
  refine ⟨by decide +kernel, by decide +kernel, ?_⟩
  exact (tierExhaustedFailure_truthful_iff _ 0 ⟨[_]⟩ _ _ _ _ (by decide +kernel)
    (List.mem_singleton.mpr rfl) (by decide) (by decide) (by decide)
    (by decide) ⟨by decide, by decide⟩).mpr
    fun _ => .inl (by decide)

/-- An existing zone outside the given zones, in which the SKU is offered: the quota is what is
missing, but lack of zone coverage is reported. -/
theorem tierExhaustedFailure_untruthful :
    let tier := zonalTier ["standardDFamily"] 2
    let index := buildEligibleSKUIndex sampleSKUs
    validateProfile ⟨[tier]⟩ = .ok () ∧
      (allocateTier (fun _ => "000000") tier ["1"] ["2"] (AList.singleton "standardDFamily" 0)
        index).1 = [] ∧
      (allocateTier (fun _ => "000000") tier ["1"] ["2"] (AList.singleton "standardDFamily" 8)
        index).1.map Pool.maxCount = [2] ∧
      (tierExhaustedFailure 0 tier ["1"] ["2"] index).reason = "NoZoneCoverage" ∧
      ¬ Truthful (fun _ => "000000") tier ["1"] ["2"] index
        (tierExhaustedFailure 0 tier ["1"] ["2"] index).reason := by
  refine ⟨by decide +kernel, by decide +kernel, by decide +kernel, by decide +kernel, ?_⟩
  have hcount : 1 ≤ min (zonalTier ["standardDFamily"] 2).poolCount
      ((["1"] : List String).length : Int) := by decide
  rw [truthful_perZone_iff _ 0 (indexSound_build sampleSKUs) (by decide) (by decide) rfl (by decide)
    (by decide) hcount ⟨by decide, by decide⟩, coverable_iff (by decide)]
  decide +kernel

end AroHcp.Compute
