import AroHcp.Compute.DesiredQuota

/-! Where the desired pools come from: each is the pool literal of one tier, for the SKU of one of
the tier's families and either no zone or one zone in which the SKU is offered. -/

namespace AroHcp.Compute

open Tally

variable {sha256Hex : String → String} {tier : TierConfig} {index : EligibleSKUIndex}
  {budgets : FamilyMap} {zones requiredZones : List String} {needed : ZoneNodes} {pool : Pool}

def ZonalPool (sha256Hex : String → String) (tier : TierConfig) (skus : List SKUMetadata)
    (zones : List String) (pool : Pool) : Prop :=
  ∃ sku ∈ skus, ∃ zone ∈ zones, zone ∈ sku.zones ∧ ∃ nodes, 1 ≤ nodes ∧
    pool = tierPool sha256Hex tier sku zone [zone] nodes

theorem ZonalPool.mono {skus skus' : List SKUMetadata} {zones' : List String}
    (h : ZonalPool sha256Hex tier skus zones pool) (hskus : ∀ sku ∈ skus, sku ∈ skus')
    (hzones : ∀ zone ∈ zones, zone ∈ zones') : ZonalPool sha256Hex tier skus' zones' pool := by
  obtain ⟨sku, hsku, zone, hzone, hrest⟩ := h
  exact ⟨sku, hskus sku hsku, zone, hzones zone hzone, hrest⟩

/-! ## The loops -/

theorem skus_fillZone (sha256Hex : String → String) (tier : TierConfig) (zone : String)
    (before after : List FamilyQuota) (needed : ZoneNodes) :
    (fillZone sha256Hex tier zone before after needed).1.map FamilyQuota.metadata =
      (before ++ after).map FamilyQuota.metadata := by
  induction after generalizing before needed with
  | nil => simp [fillZone]
  | cons q after ih =>
    unfold fillZone
    dsimp only
    generalize (if zone ∈ q.metadata.zones then
      mostFillableNodes before q after needed zone else 0) = nodes
    split_ifs
    · rw [ih]
      simp
    · rw [ih]
      simp

theorem zonalPool_of_mem_fillZone (zone : String) (before after : List FamilyQuota)
    (h : pool ∈ (fillZone sha256Hex tier zone before after needed).2.2) :
    ZonalPool sha256Hex tier (after.map FamilyQuota.metadata) [zone] pool := by
  induction after generalizing before needed with
  | nil => exact absurd h List.not_mem_nil
  | cons q after ih =>
    have hlater : ZonalPool sha256Hex tier (after.map FamilyQuota.metadata) [zone] pool →
        ZonalPool sha256Hex tier ((q :: after).map FamilyQuota.metadata) [zone] pool :=
      fun h => h.mono (fun sku hsku => List.mem_cons_of_mem _ hsku) fun _ => id
    unfold fillZone at h
    dsimp only at h
    by_cases hoffered : zone ∈ q.metadata.zones
    · have hnonneg := (mostFillableNodes_le before q after needed zone).1
      split_ifs at h with hzero
      · exact hlater (ih _ h)
      · rcases List.mem_cons.mp h with rfl | h
        · exact ⟨q.metadata, List.mem_cons_self, zone, List.mem_cons_self, hoffered, _, by omega,
            rfl⟩
        · exact hlater (ih _ h)
    · rw [if_neg hoffered, if_pos rfl] at h
      exact hlater (ih _ h)

theorem zonalPool_of_mem_fillZones {quotas : List FamilyQuota}
    (h : pool ∈ fillZones sha256Hex tier zones quotas needed) :
    ZonalPool sha256Hex tier (quotas.map FamilyQuota.metadata) zones pool := by
  induction zones generalizing quotas needed with
  | nil => exact absurd h List.not_mem_nil
  | cons zone rest ih =>
    rcases List.mem_append.mp h with h | h
    · refine (zonalPool_of_mem_fillZone zone [] quotas h).mono (fun _ => id) ?_
      intro z hz
      exact List.mem_singleton.mp hz ▸ List.mem_cons_self
    · have hrest := ih h
      rw [skus_fillZone] at hrest
      exact hrest.mono (fun _ => id) fun z hz => List.mem_cons_of_mem _ hz

theorem mem_allocateRegionalFamilies {families : List VMFamily} {allocatedNodes : Int}
    (h : pool ∈ (allocateRegionalFamilies sha256Hex tier budgets index allocatedNodes families).1) :
    ∃ family ∈ families, ∃ sku, tierSKU tier family index = some sku ∧ ∃ nodes, 1 ≤ nodes ∧
      pool = tierPool sha256Hex tier sku "0" [] nodes := by
  induction families generalizing allocatedNodes with
  | nil => exact absurd h List.not_mem_nil
  | cons family rest ih =>
    rw [allocateRegionalFamilies] at h
    rw [List.exists_mem_cons_iff]
    cases hsku : tierSKU tier family index with
    | none =>
      rw [hsku] at h
      exact .inr (ih h)
    | some sku =>
      rw [hsku] at h
      dsimp only at h
      split_ifs at h with hsmall
      · exact .inr (ih h)
      · exact .inl ⟨sku, rfl, _, not_lt.mp hsmall, List.mem_singleton.mp h⟩
      · rcases List.mem_cons.mp h with h | h
        · exact .inl ⟨sku, rfl, _, not_lt.mp hsmall, h⟩
        · exact .inr (ih h)

/-! ## Tiers -/

def FromTier (sha256Hex : String → String) (tier : TierConfig) (index : EligibleSKUIndex)
    (pool : Pool) : Prop :=
  ∃ family ∈ tier.familyPriority, ∃ sku, tierSKU tier family index = some sku ∧ ∃ nodes, 1 ≤ nodes ∧
    (tier.poolMode = .regional ∧ pool = tierPool sha256Hex tier sku "0" [] nodes ∨
      tier.poolMode = .perZone ∧ ∃ zone ∈ sku.zones,
        pool = tierPool sha256Hex tier sku zone [zone] nodes)

theorem fromTier_of_mem_allocateTier
    (h : pool ∈ (allocateTier sha256Hex tier zones requiredZones budgets index).1) :
    FromTier sha256Hex tier index pool := by
  unfold allocateTier at h
  have horder := perm_familyAllocationOrder tier zones index
  cases hmode : tier.poolMode with
  | regional =>
    rw [hmode] at h
    obtain ⟨family, hfamily, sku, hsku, nodes, hnodes, hpool⟩ := mem_allocateRegionalFamilies h
    exact ⟨family, horder.mem_iff.mp hfamily, sku, hsku, nodes, hnodes, .inl ⟨hmode, hpool⟩⟩
  | perZone =>
    rw [hmode] at h
    dsimp only [allocatePerZoneTier] at h
    split_ifs at h
    · exact absurd h List.not_mem_nil
    · obtain ⟨sku, hsku, zone, -, hoffered, nodes, hnodes, hpool⟩ := zonalPool_of_mem_fillZones h
      obtain ⟨quota, hquota, rfl⟩ := List.mem_map.mp hsku
      obtain ⟨family, hfamily, hsome⟩ := List.mem_filterMap.mp hquota
      exact ⟨family, horder.mem_iff.mp hfamily, quota.metadata,
        (familyQuota_eq_some_iff.mp hsome).1, nodes, hnodes, .inr ⟨hmode, zone, hoffered, hpool⟩⟩
  | other text =>
    rw [hmode] at h
    exact absurd h List.not_mem_nil

/-- The allocations are those of the tiers, in their order. -/
theorem fromTier_of_mem_allocateTiers {existingZones : ZonesByRole} {familyLimits : FamilyMap}
    {processed tiers : List TierConfig} {consumed : FamilyMap} {a : TierAllocation}
    (ha : a ∈ allocateTiers sha256Hex zones existingZones familyLimits index processed consumed tiers)
    (h : pool ∈ a.pools) : FromTier sha256Hex a.tier index pool := by
  induction tiers generalizing processed consumed with
  | nil => exact absurd ha List.not_mem_nil
  | cons tier rest ih =>
    rcases List.mem_cons.mp ha with rfl | ha
    · exact fromTier_of_mem_allocateTier h
    · exact ih ha

end AroHcp.Compute
