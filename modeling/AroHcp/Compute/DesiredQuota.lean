import AroHcp.Compute.Desired
import AroHcp.Lib.Buckets
import Mathlib.Tactic.Linarith

/-! The desired pools stay within the family limits, surge node included, and within the node
targets of their tiers. -/

namespace AroHcp.Compute

open GoInt Tally

/-! ## SKUs -/

/-- Every SKU of the index stands under its own family and vCPU count. -/
def IndexSound (index : EligibleSKUIndex) : Prop :=
  ∀ family cores sku, lookupSKU index family cores = some sku →
    sku.metadata.family = family ∧ sku.metadata.vcpus = cores

variable {index : EligibleSKUIndex}

theorem lookupSKU_insert (sizes : AList fun _ : Int => EligibleSKU) (family' family : VMFamily)
    (cores : Int) :
    lookupSKU (index.insert family' sizes) family cores =
      if family = family' then sizes.lookup cores else lookupSKU index family cores := by
  by_cases h : family = family'
  · subst h
    simp [lookupSKU]
  · simp [lookupSKU, AList.lookup_insert_ne h, h]

/-- What stands in the index after one more SKU: that SKU, under its own key, or what stood there.
-/
theorem lookupSKU_indexSKU {vmSize : String} {sku : SKUMetadata} {family : VMFamily} {cores : Int}
    {found : EligibleSKU} (h : lookupSKU (indexSKU index vmSize sku) family cores = some found) :
    (found = ⟨vmSize, sku⟩ ∧ sku.family = family ∧ sku.vcpus = cores) ∨
      lookupSKU index family cores = some found := by
  unfold indexSKU at h
  dsimp only at h
  split_ifs at h
  · exact .inr h
  · exact .inr h
  · rw [lookupSKU_insert] at h
    split_ifs at h with hfamily
    · subst hfamily
      by_cases hcores : cores = sku.vcpus
      · subst hcores
        rw [AList.lookup_insert, Option.some_inj] at h
        exact .inl ⟨h.symm, rfl, rfl⟩
      · rw [AList.lookup_insert_ne hcores] at h
        apply Or.inr
        unfold lookupSKU
        cases hsizes : index.lookup sku.family with
        | none => simp [hsizes] at h
        | some sizes => simpa [hsizes] using h
    · exact .inr h

theorem indexSound_build (skuMetadata : AList fun _ : String => SKUMetadata) :
    IndexSound (buildEligibleSKUIndex skuMetadata) := by
  have hstart : IndexSound ∅ := by simp [IndexSound, lookupSKU]
  refine List.foldlRecOn (motive := IndexSound) _ _ hstart ?_
  intro index h entry _ family cores found hfound
  rcases lookupSKU_indexSKU hfound with ⟨rfl, hfamily, hcores⟩ | hold
  · exact ⟨hfamily, hcores⟩
  · exact h family cores found hold

def IndexFrom (skuMetadata : AList fun _ : String => SKUMetadata) (index : EligibleSKUIndex) :
    Prop :=
  ∀ family cores found, lookupSKU index family cores = some found →
    ⟨found.vmSize, found.metadata⟩ ∈ skuMetadata.entries

theorem indexFrom_build (skuMetadata : AList fun _ : String => SKUMetadata) :
    IndexFrom skuMetadata (buildEligibleSKUIndex skuMetadata) := by
  have hstart : IndexFrom skuMetadata ∅ := by simp [IndexFrom, lookupSKU]
  refine List.foldlRecOn (motive := IndexFrom skuMetadata) _ _ hstart ?_
  intro index h entry hentry family cores found hfound
  rcases lookupSKU_indexSKU hfound with ⟨rfl, -, -⟩ | hold
  · exact hentry
  · exact h family cores found hold

variable {tier : TierConfig} {family : VMFamily} {sku : SKUMetadata}

theorem tierSKU_eq_some (hi : IndexSound index) (h : tierSKU tier family index = some sku) :
    sku.family = family ∧ sku.vcpus = tier.cores := by
  unfold tierSKU at h
  rw [Option.filter_eq_some_iff, Option.map_eq_some_iff] at h
  obtain ⟨⟨found, hfound, rfl⟩, -⟩ := h
  exact hi _ _ _ hfound

theorem perm_familyAllocationOrder (tier : TierConfig) (zones : List String)
    (index : EligibleSKUIndex) :
    (familyAllocationOrder tier zones index).Perm tier.familyPriority := by
  unfold familyAllocationOrder
  split_ifs
  · exact .refl _
  · exact List.perm_insertionSort _ _

/-! ## Pools of one tier -/

def vcpusOf (family : VMFamily) (pools : List Pool) : Int :=
  sumAt (fun p : Pool => p.spec.family) (fun p => p.maxCount * p.spec.vcpus) family pools

def zoneNodes (zones : List String) (pools : List Pool) : Int :=
  sumAt Pool.availabilityZones Pool.maxCount zones pools

structure Allocated (tier : TierConfig) (budgets : FamilyMap) (families : List VMFamily)
    (pools : List Pool) : Prop where
  family : ∀ p ∈ pools, p.spec.family ∈ families
  vcpus : ∀ p ∈ pools, p.spec.vcpus = tier.cores
  counts : ∀ p ∈ pools, 1 ≤ p.minCount ∧ p.minCount ≤ p.maxCount
  budget : ∀ p ∈ pools, vcpusOf p.spec.family pools ≤ valueAt budgets p.spec.family

variable {sha256Hex : String → String} {zone : String} {zones : List String} {nodes : Int}
  {budgets : FamilyMap} {families : List VMFamily} {pools : List Pool}

theorem tierPool_maxCount (h1 : 1 ≤ nodes) (h : nodes ≤ maxInt32) :
    (tierPool sha256Hex tier sku zone zones nodes).maxCount = nodes :=
  int32_of_le (by omega) h

theorem tierPool_counts (h1 : 1 ≤ nodes) (h : nodes ≤ maxInt32) :
    1 ≤ (tierPool sha256Hex tier sku zone zones nodes).minCount ∧
      (tierPool sha256Hex tier sku zone zones nodes).minCount ≤
        (tierPool sha256Hex tier sku zone zones nodes).maxCount := by
  have hmin : (tierPool sha256Hex tier sku zone zones nodes).minCount =
      min (max tier.initialMinNodes 1) nodes := int32_of_le (by omega) (by omega)
  rw [tierPool_maxCount h1 h, hmin]
  omega

theorem tdiv_mul_le {budget vcpus : Int} (hv : 0 < vcpus) (h : 1 ≤ budget.tdiv vcpus) :
    budget.tdiv vcpus * vcpus ≤ budget := by
  have hb : 0 ≤ budget := by
    by_contra hneg
    have hnonneg : 0 ≤ (-budget).tdiv vcpus := Int.tdiv_nonneg (by omega) hv.le
    rw [Int.neg_tdiv] at hnonneg
    omega
  rw [Int.tdiv_eq_ediv_of_nonneg hb]
  exact Int.ediv_mul_le budget hv.ne'

theorem Allocated.nil : Allocated tier budgets families [] := by
  constructor <;> simp

theorem Allocated.cons_family (h : Allocated tier budgets families pools) (family : VMFamily) :
    Allocated tier budgets (family :: families) pools :=
  { h with family := fun p hp => List.mem_cons_of_mem _ (h.family p hp) }

theorem Allocated.cons (h : Allocated tier budgets families pools) (hfresh : family ∉ families)
    (hfamily : sku.family = family) (hvcpus : sku.vcpus = tier.cores) (h1 : 1 ≤ nodes)
    (hmax : nodes ≤ maxInt32) (hbudget : nodes * tier.cores ≤ valueAt budgets family) :
    Allocated tier budgets (family :: families)
      (tierPool sha256Hex tier sku zone zones nodes :: pools) := by
  subst hfamily
  have hnone : ∀ p ∈ pools, p.spec.family ≠ sku.family :=
    fun p hp he => hfresh (he ▸ h.family p hp)
  constructor
  · rintro p (_ | ⟨_, hp⟩)
    · exact List.mem_cons_self
    · exact List.mem_cons_of_mem _ (h.family p hp)
  · rintro p (_ | ⟨_, hp⟩)
    · exact hvcpus
    · exact h.vcpus p hp
  · rintro p (_ | ⟨_, hp⟩)
    · exact tierPool_counts h1 hmax
    · exact h.counts p hp
  · have hother : ∀ p ∈ pools, vcpusOf p.spec.family
        (tierPool sha256Hex tier sku zone zones nodes :: pools) = vcpusOf p.spec.family pools := by
      intro p hp
      have hne : ¬(newVMSpecFromSKU sku).family = p.spec.family := fun he => hnone p hp he.symm
      simp [vcpusOf, tierPool, hne]
    have hself : vcpusOf sku.family (tierPool sha256Hex tier sku zone zones nodes :: pools) =
        nodes * tier.cores := by
      have hrest : vcpusOf sku.family pools = 0 := sumAt_eq_zero hnone
      have hcount : (tierPool sha256Hex tier sku zone zones nodes).maxCount = nodes :=
        tierPool_maxCount h1 hmax
      unfold vcpusOf at hrest ⊢
      rw [sumAt_cons, hrest, hcount, ← hvcpus, add_zero]
      exact if_pos rfl
    rintro p (_ | ⟨_, hp⟩)
    · exact hself.trans_le hbudget
    · rw [hother p hp]
      exact h.budget p hp

/-! ## Regional tiers -/

theorem allocateRegionalFamilies_spec (sha256Hex : String → String) (budgets : FamilyMap)
    (hi : IndexSound index) (hcores : 0 < tier.cores) (hmax : tier.maxNodes ≤ maxInt32)
    (hn : families.Nodup) {allocatedNodes : Int} (ha : 0 ≤ allocatedNodes) :
    Allocated tier budgets families
        (allocateRegionalFamilies sha256Hex tier budgets index allocatedNodes families).1 ∧
      ((allocateRegionalFamilies sha256Hex tier budgets index allocatedNodes families).1.map
        Pool.maxCount).sum ≤ max (tier.maxNodes - allocatedNodes) 0 := by
  induction families generalizing allocatedNodes with
  | nil => exact ⟨.nil, by simp [allocateRegionalFamilies]⟩
  | cons family rest ih =>
    rw [List.nodup_cons] at hn
    have hskip := ih hn.2 ha
    unfold allocateRegionalFamilies
    cases hsku : tierSKU tier family index with
    | none => exact ⟨hskip.1.cons_family family, hskip.2⟩
    | some sku =>
      obtain ⟨hfamily, hvcpus⟩ := tierSKU_eq_some hi hsku
      dsimp only
      generalize hcount : minNonNegative ((valueAt budgets family).tdiv sku.vcpus)
        (tier.maxNodes - allocatedNodes) = maxCount
      rw [minNonNegative, hvcpus] at hcount
      have hcons : 1 ≤ maxCount → ∀ pools, Allocated tier budgets rest pools →
          Allocated tier budgets (family :: rest)
            (tierPool sha256Hex tier sku "0" [] maxCount :: pools) := by
        intro h1 pools hpools
        refine hpools.cons hn.1 hfamily hvcpus h1 (by omega) ?_
        have hquota : maxCount ≤ (valueAt budgets family).tdiv tier.cores := by omega
        calc maxCount * tier.cores ≤ (valueAt budgets family).tdiv tier.cores * tier.cores :=
              Int.mul_le_mul_of_nonneg_right hquota hcores.le
          _ ≤ valueAt budgets family := tdiv_mul_le hcores (h1.trans hquota)
      split_ifs with hsmall hreached
      · exact ⟨hskip.1.cons_family family, hskip.2⟩
      · refine ⟨hcons (by omega) [] .nil, ?_⟩
        rw [List.map_singleton, List.sum_singleton, tierPool_maxCount (by omega) (by omega)]
        omega
      · have hrest := ih hn.2 (by omega : 0 ≤ allocatedNodes + maxCount)
        refine ⟨hcons (by omega) _ hrest.1, ?_⟩
        rw [List.map_cons, List.sum_cons, tierPool_maxCount (by omega) (by omega)]
        omega

/-! ## Per-zone tiers -/

def nodesOf (family : VMFamily) (pools : List Pool) : Int :=
  sumAt (fun p : Pool => p.spec.family) Pool.maxCount family pools

def quotaOf (family : VMFamily) (quotas : List FamilyQuota) : Int :=
  sumAt (fun q : FamilyQuota => q.metadata.family) FamilyQuota.quotaNodes family quotas

structure Filled (quotas : List FamilyQuota) (needed : ZoneNodes) (left : List FamilyQuota)
    (unmet : ZoneNodes) (pools : List Pool) : Prop where
  skus : left.map FamilyQuota.metadata = quotas.map FamilyQuota.metadata
  spec : ∀ p ∈ pools, ∃ q ∈ quotas, p.spec = newVMSpecFromSKU q.metadata
  counts : ∀ p ∈ pools, 1 ≤ p.minCount ∧ p.minCount ≤ p.maxCount
  zonal : ∀ p ∈ pools, ∃ zone, p.availabilityZones = [zone]
  nonneg : (∀ q ∈ quotas, 0 ≤ q.quotaNodes) → ∀ q ∈ left, 0 ≤ q.quotaNodes
  quota : ∀ family, nodesOf family pools + quotaOf family left = quotaOf family quotas
  zones : ∀ zone, zoneNodes [zone] pools + max (valueAt unmet zone) 0 =
    max (valueAt needed zone) 0
  le : ∀ zone, valueAt unmet zone ≤ valueAt needed zone

variable {quotas before after left : List FamilyQuota} {needed unmet : ZoneNodes}
  {q : FamilyQuota}

theorem Filled.refl (quotas : List FamilyQuota) (needed : ZoneNodes) :
    Filled quotas needed quotas needed [] where
  skus := rfl
  spec := by simp
  counts := by simp
  zonal := by simp
  nonneg h := h
  quota _ := by simp [nodesOf]
  zones _ := by simp [zoneNodes]
  le _ := le_rfl

theorem Filled.trans {left' : List FamilyQuota} {unmet' : ZoneNodes} {pools' : List Pool}
    (h : Filled quotas needed left unmet pools) (h' : Filled left unmet left' unmet' pools') :
    Filled quotas needed left' unmet' (pools ++ pools') where
  skus := h'.skus.trans h.skus
  spec p hp := by
    rcases List.mem_append.mp hp with hp | hp
    · exact h.spec p hp
    · obtain ⟨q, hq, hspec⟩ := h'.spec p hp
      have hmem : q.metadata ∈ quotas.map FamilyQuota.metadata :=
        h.skus ▸ List.mem_map_of_mem hq
      obtain ⟨q', hq', hsku⟩ := List.mem_map.mp hmem
      exact ⟨q', hq', hsku ▸ hspec⟩
  counts p hp := (List.mem_append.mp hp).elim (h.counts p) (h'.counts p)
  zonal p hp := (List.mem_append.mp hp).elim (h.zonal p) (h'.zonal p)
  nonneg hq := h'.nonneg (h.nonneg hq)
  quota family := by
    have h1 := h.quota family
    have h2 := h'.quota family
    unfold nodesOf at h1 h2 ⊢
    rw [sumAt_append]
    omega
  zones zone := by
    have h1 := h.zones zone
    have h2 := h'.zones zone
    unfold zoneNodes at h1 h2 ⊢
    rw [sumAt_append]
    omega
  le zone := (h'.le zone).trans (h.le zone)

/-- A family in the middle of the list gives nodes to a zone. -/
theorem filled_single (h1 : 1 ≤ nodes) (hquota : nodes ≤ q.quotaNodes)
    (hneeded : nodes ≤ valueAt needed zone) (hmax : nodes ≤ maxInt32) :
    Filled (before ++ q :: after) needed
      (before ++ { q with quotaNodes := q.quotaNodes - nodes } :: after)
      (needed.insert zone (valueAt needed zone - nodes))
      [tierPool sha256Hex tier q.metadata zone [zone] nodes] where
  skus := by simp
  spec p hp := by
    rw [List.mem_singleton] at hp
    exact ⟨q, by simp, by rw [hp]; rfl⟩
  counts p hp := by
    rw [List.mem_singleton] at hp
    exact hp ▸ tierPool_counts h1 hmax
  zonal p hp := by
    rw [List.mem_singleton] at hp
    exact ⟨zone, hp ▸ rfl⟩
  nonneg h q' hq' := by
    rcases List.mem_append.mp hq' with hq' | hq'
    · exact h q' (List.mem_append_left _ hq')
    · rcases List.mem_cons.mp hq' with rfl | hq'
      · dsimp only
        omega
      · exact h q' (by simp [hq'])
  quota family := by
    simp only [nodesOf, quotaOf, sumAt_append, sumAt_cons, sumAt_nil, tierPool_maxCount h1 hmax]
    change (if q.metadata.family = family then nodes else 0) + 0 + _ = _
    split_ifs <;> omega
  zones z := by
    simp only [zoneNodes, sumAt_cons, sumAt_nil, tierPool_maxCount h1 hmax]
    change (if [zone] = [z] then nodes else 0) + 0 + _ = _
    by_cases hz : zone = z
    · subst hz
      rw [if_pos rfl, valueAt, AList.lookup_insert, Option.getD_some]
      omega
    · have hne : ¬[zone] = [z] := by simpa using hz
      rw [if_neg hne, valueAt, AList.lookup_insert_ne (Ne.symm hz), ← valueAt]
      omega
  le z := by
    by_cases hz : zone = z
    · subst hz
      rw [valueAt, AList.lookup_insert, Option.getD_some]
      omega
    · rw [valueAt, AList.lookup_insert_ne (Ne.symm hz), ← valueAt]

theorem mostFillableNodes_le (before : List FamilyQuota) (q : FamilyQuota)
    (after : List FamilyQuota) (needed : ZoneNodes) (zone : String) :
    0 ≤ mostFillableNodes before q after needed zone ∧
      mostFillableNodes before q after needed zone ≤
        max (min (valueAt needed zone) q.quotaNodes) 0 := by
  refine ⟨Int.natCast_nonneg _, ?_⟩
  rw [← Int.toNat_eq_max]
  exact Int.ofNat_le.mpr (Nat.findGreatest_le _)

theorem fillZone_filled (sha256Hex : String → String) (tier : TierConfig) (zone : String)
    (before after : List FamilyQuota) (hneeded : ∀ z, valueAt needed z ≤ maxInt32) :
    Filled (before ++ after) needed (fillZone sha256Hex tier zone before after needed).1
      (fillZone sha256Hex tier zone before after needed).2.1
      (fillZone sha256Hex tier zone before after needed).2.2 := by
  induction after generalizing before needed with
  | nil =>
    rw [List.append_nil]
    exact Filled.refl before needed
  | cons q after ih =>
    unfold fillZone
    dsimp only
    generalize hnodes : (if zone ∈ q.metadata.zones then
      mostFillableNodes before q after needed zone else 0) = nodes
    have hle := mostFillableNodes_le before q after needed zone
    split_ifs with hzero
    · have hskip := ih (before ++ [q]) hneeded
      rwa [List.append_assoc, List.singleton_append] at hskip
    · have hz := hneeded zone
      have hstep : Filled (before ++ q :: after) needed
          (before ++ { q with quotaNodes := q.quotaNodes - nodes } :: after)
          (needed.insert zone (valueAt needed zone - nodes))
          [tierPool sha256Hex tier q.metadata zone [zone] nodes] :=
        filled_single (by omega) (by omega) (by omega) (by omega)
      have hrest := ih (before ++ [{ q with quotaNodes := q.quotaNodes - nodes }])
        fun z => (hstep.le z).trans (hneeded z)
      rw [List.append_assoc, List.singleton_append] at hrest
      exact hstep.trans hrest

theorem fillZones_filled (sha256Hex : String → String) (tier : TierConfig)
    (quotas : List FamilyQuota) (zones : List String)
    (hneeded : ∀ z, valueAt needed z ≤ maxInt32) :
    ∃ left unmet, Filled quotas needed left unmet
      (fillZones sha256Hex tier zones quotas needed) := by
  induction zones generalizing quotas needed with
  | nil => exact ⟨quotas, needed, Filled.refl quotas needed⟩
  | cons zone rest ih =>
    have hfirst := fillZone_filled sha256Hex tier zone [] quotas hneeded
    obtain ⟨left, unmet, hrest⟩ := ih _ fun z => (hfirst.le z).trans (hneeded z)
    exact ⟨left, unmet, hfirst.trans hrest⟩

theorem maxNodesPerZone_le (quotas : List FamilyQuota) (zones : List String) (maxNodes : Int) :
    maxNodesPerZone quotas zones maxNodes ≤ max maxNodes 0 := by
  rw [← Int.toNat_eq_max]
  exact Int.ofNat_le.mpr (Nat.findGreatest_le _)

theorem bestZones_le (quotas : List FamilyQuota) (zones requiredZones : List String)
    (zoneCount maxNodes : Int) :
    (bestZones quotas zones requiredZones zoneCount maxNodes).2 ≤ max maxNodes 0 := by
  refine List.foldlRecOn (motive := fun best : List String × Int => best.2 ≤ max maxNodes 0)
    _ _ (by simp) ?_
  intro best hbest extraZones _
  dsimp only
  split_ifs
  · exact maxNodesPerZone_le _ _ _
  · exact hbest

theorem valueAt_evenNodes_le (zones : List String) {bound : Int} (h0 : 0 ≤ bound)
    (hnodes : nodes ≤ bound) (zone : String) : valueAt (evenNodes zones nodes) zone ≤ bound := by
  refine List.foldlRecOn (motive := fun m : ZoneNodes => valueAt m zone ≤ bound) _ _ h0 ?_
  intro m hm z _
  by_cases hz : zone = z
  · subst hz
    simpa [valueAt] using hnodes
  · rwa [valueAt, AList.lookup_insert_ne hz, ← valueAt]

theorem familyQuota_eq_some_iff {quota : FamilyQuota} :
    familyQuota tier budgets index family = some quota ↔
      tierSKU tier family index = some quota.metadata ∧ 1 ≤ quota.quotaNodes ∧
        quota.quotaNodes = (valueAt budgets family).tdiv quota.metadata.vcpus := by
  unfold familyQuota
  rw [Option.bind_eq_some_iff]
  constructor
  · rintro ⟨sku, hsku, h⟩
    dsimp only at h
    split_ifs at h with hsmall
    cases h
    exact ⟨hsku, not_lt.mp hsmall, rfl⟩
  · rintro ⟨hsku, h1, hquota⟩
    refine ⟨quota.metadata, hsku, ?_⟩
    rw [← hquota, if_neg (not_lt.mpr h1)]

theorem familyQuota_eq_some (hi : IndexSound index) (hcores : 0 < tier.cores) {quota : FamilyQuota}
    (h : familyQuota tier budgets index family = some quota) :
    quota.metadata.family = family ∧ quota.metadata.vcpus = tier.cores ∧ 1 ≤ quota.quotaNodes ∧
      quota.quotaNodes * tier.cores ≤ valueAt budgets family := by
  obtain ⟨hsku, h1, hquota⟩ := familyQuota_eq_some_iff.mp h
  obtain ⟨hfamily, hvcpus⟩ := tierSKU_eq_some hi hsku
  rw [hvcpus] at hquota
  rw [hquota] at h1 ⊢
  exact ⟨hfamily, hvcpus, h1, tdiv_mul_le hcores h1⟩

theorem nodup_familiesWithQuota (hi : IndexSound index) (hn : tier.familyPriority.Nodup) :
    ((familiesWithQuota tier zones budgets index).map
      fun quota => quota.metadata.family).Nodup := by
  have horder : (familyAllocationOrder tier zones index).Nodup :=
    (perm_familyAllocationOrder tier zones index).nodup_iff.mpr hn
  unfold familiesWithQuota
  rw [List.map_filterMap]
  apply horder.filterMap
  -- the family of a quota is the family it was computed for
  intro a b family ha hb
  obtain ⟨qa, hqa, rfl⟩ := Option.map_eq_some_iff.mp ha
  obtain ⟨qb, hqb, hab⟩ := Option.map_eq_some_iff.mp hb
  rw [(tierSKU_eq_some hi (familyQuota_eq_some_iff.mp hqa).1).1,
    (tierSKU_eq_some hi (familyQuota_eq_some_iff.mp hqb).1).1] at hab
  exact hab.symm

theorem quotaOf_familiesWithQuota (hi : IndexSound index) (hcores : 0 < tier.cores)
    (hn : tier.familyPriority.Nodup) {quota : FamilyQuota}
    (hq : quota ∈ familiesWithQuota tier zones budgets index) :
    quota.metadata.family ∈ tier.familyPriority ∧ quota.metadata.vcpus = tier.cores ∧
      0 ≤ quota.quotaNodes ∧ quotaOf quota.metadata.family
        (familiesWithQuota tier zones budgets index) * tier.cores ≤
        valueAt budgets quota.metadata.family := by
  obtain ⟨family, hfamily, hquota⟩ := List.mem_filterMap.mp hq
  obtain ⟨rfl, hvcpus, h1, hbudget⟩ := familyQuota_eq_some hi hcores hquota
  refine ⟨(perm_familyAllocationOrder tier zones index).mem_iff.mp hfamily, hvcpus, by omega, ?_⟩
  rw [quotaOf, sumAt_of_mem (nodup_familiesWithQuota hi hn) hq]
  exact hbudget

theorem vcpusOf_eq (h : ∀ p ∈ pools, p.spec.vcpus = tier.cores) (family : VMFamily) :
    vcpusOf family pools = nodesOf family pools * tier.cores := by
  refine sumAt_hom (AddMonoidHom.mulRight tier.cores) ?_
  intro p hp _
  rw [h p hp]
  rfl

theorem allocatePerZoneTier_spec (sha256Hex : String → String) (zones requiredZones : List String)
    (budgets : FamilyMap) (hi : IndexSound index) (hcores : 0 < tier.cores)
    (hn : tier.familyPriority.Nodup) (hmax : tier.maxNodes ≤ maxInt32) :
    Allocated tier budgets tier.familyPriority
        (allocatePerZoneTier sha256Hex tier zones requiredZones budgets index).1 ∧
      (∀ p ∈ (allocatePerZoneTier sha256Hex tier zones requiredZones budgets index).1,
        ∃ zone, p.availabilityZones = [zone]) ∧
      ∀ zone, zoneNodes [zone]
        (allocatePerZoneTier sha256Hex tier zones requiredZones budgets index).1 ≤
          max tier.maxNodes 0 := by
  unfold allocatePerZoneTier
  dsimp only
  split_ifs
  · exact ⟨.nil, by simp, by simp [zoneNodes]⟩
  have hquotas : ∀ quota ∈ familiesWithQuota tier zones budgets index, _ :=
    fun _ => quotaOf_familiesWithQuota hi hcores hn
  generalize familiesWithQuota tier zones budgets index = quotas at hquotas ⊢
  generalize hbest : bestZones quotas zones requiredZones
    (min tier.poolCount zones.length) tier.maxNodes = best
  have hbound : best.2 ≤ max tier.maxNodes 0 := hbest ▸ bestZones_le _ _ _ _ _
  have hneeded := valueAt_evenNodes_le best.1 (le_max_right _ _) hbound
  have hfit : max tier.maxNodes 0 ≤ maxInt32 := max_le hmax (by decide)
  obtain ⟨left, unmet, hfilled⟩ := fillZones_filled sha256Hex tier quotas best.1
    fun z => (hneeded z).trans hfit
  generalize fillZones sha256Hex tier best.1 quotas (evenNodes best.1 best.2) = pools at hfilled ⊢
  have hvcpus : ∀ p ∈ pools, p.spec.vcpus = tier.cores := by
    intro p hp
    obtain ⟨q, hq, hspec⟩ := hfilled.spec p hp
    rw [hspec]
    exact (hquotas q hq).2.1
  refine ⟨⟨?_, hvcpus, hfilled.counts, ?_⟩, hfilled.zonal, ?_⟩
  · intro p hp
    obtain ⟨q, hq, hspec⟩ := hfilled.spec p hp
    rw [hspec]
    exact (hquotas q hq).1
  · intro p hp
    obtain ⟨q, hq, hspec⟩ := hfilled.spec p hp
    have hleft : 0 ≤ quotaOf p.spec.family left :=
      sumAt_nonneg (hfilled.nonneg fun q hq => (hquotas q hq).2.2.1)
    have hquota := hfilled.quota p.spec.family
    calc vcpusOf p.spec.family pools = nodesOf p.spec.family pools * tier.cores :=
          vcpusOf_eq hvcpus _
      _ ≤ quotaOf p.spec.family quotas * tier.cores :=
          Int.mul_le_mul_of_nonneg_right (by omega) hcores.le
      _ ≤ valueAt budgets p.spec.family := by
          rw [hspec]
          exact (hquotas q hq).2.2.2
  · intro zone
    have hzone := hfilled.zones zone
    have hle := hneeded zone
    change zoneNodes [zone] pools ≤ _
    omega

/-! ## The loop over the tiers -/

theorem valueAt_raiseCores (cores : Int) (result : FamilyMap) (family' family : VMFamily) :
    valueAt (raiseCores cores result family') family =
      if family = family' then max (valueAt result family) cores else valueAt result family := by
  unfold raiseCores
  by_cases h : family = family'
  · subst h
    rw [if_pos rfl]
    split_ifs with hlt
    · rw [valueAt, AList.lookup_insert, Option.getD_some, max_eq_right hlt.le]
    · rw [max_eq_left (not_lt.mp hlt)]
  · split_ifs
    · rw [valueAt, AList.lookup_insert_ne h, ← valueAt]
    · rfl

theorem le_foldl_raiseCores (cores : Int) (families : List VMFamily) (result : FamilyMap)
    (family : VMFamily) :
    valueAt result family ≤ valueAt (families.foldl (raiseCores cores) result) family := by
  refine List.foldlRecOn (motive := fun m : FamilyMap => valueAt result family ≤ valueAt m family)
    families (raiseCores cores) le_rfl ?_
  intro m hm f _
  rw [valueAt_raiseCores]
  split_ifs <;> omega

theorem cores_le_foldl_raiseCores (cores : Int) (result : FamilyMap)
    (hfamily : family ∈ families) :
    cores ≤ valueAt (families.foldl (raiseCores cores) result) family := by
  obtain ⟨l, r, rfl⟩ := List.append_of_mem hfamily
  rw [List.foldl_append, List.foldl_cons]
  refine le_trans ?_ (le_foldl_raiseCores cores r _ family)
  rw [valueAt_raiseCores, if_pos rfl]
  exact le_max_right _ _

/-- The surge reservation covers every tier that may use the family. -/
theorem le_maxCoresPerFamily {tiers : List TierConfig} (htier : tier ∈ tiers)
    (hfamily : family ∈ tier.familyPriority) :
    tier.cores ≤ valueAt (maxCoresPerFamily tiers) family := by
  obtain ⟨l, r, rfl⟩ := List.append_of_mem htier
  unfold maxCoresPerFamily
  rw [List.foldl_append, List.foldl_cons]
  refine List.foldlRecOn (motive := fun m : FamilyMap => tier.cores ≤ valueAt m family) r _
    (cores_le_foldl_raiseCores tier.cores _ hfamily) ?_
  intro m hm t _
  exact hm.trans (le_foldl_raiseCores t.cores t.familyPriority m family)

/-- The reservation is the size of one of the tiers that may use the family. -/
theorem maxCoresPerFamily_cases (tiers : List TierConfig) (family : VMFamily) :
    valueAt (maxCoresPerFamily tiers) family = 0 ∨ ∃ tier ∈ tiers,
      family ∈ tier.familyPriority ∧ valueAt (maxCoresPerFamily tiers) family = tier.cores := by
  refine List.foldlRecOn (motive := fun m : FamilyMap => valueAt m family = 0 ∨ ∃ tier ∈ tiers,
    family ∈ tier.familyPriority ∧ valueAt m family = tier.cores) tiers _ (.inl rfl) ?_
  intro m hm tier htier
  refine List.foldlRecOn (motive := fun m : FamilyMap => valueAt m family = 0 ∨ ∃ tier ∈ tiers,
    family ∈ tier.familyPriority ∧ valueAt m family = tier.cores) tier.familyPriority _ hm ?_
  intro m hm f hf
  rw [valueAt_raiseCores]
  split_ifs with h
  · rcases le_total (valueAt m family) tier.cores with hle | hle
    · exact .inr ⟨tier, htier, h ▸ hf, max_eq_right hle⟩
    · rwa [max_eq_left hle]
  · exact hm

/-- The pools of each family fit its limit together with one more node of any of them. -/
def WithinLimits (familyLimits : FamilyMap) (pools : List Pool) : Prop :=
  ∀ family, ∀ p ∈ pools, p.spec.family = family →
    vcpusOf family pools + p.spec.vcpus ≤ valueAt familyLimits family

/-- What a tier allocates is of the tier's size and within its node target. -/
structure TierAllocation.Bounded (a : TierAllocation) : Prop where
  vcpus : ∀ p ∈ a.pools, p.spec.vcpus = a.tier.cores
  counts : ∀ p ∈ a.pools, 1 ≤ p.minCount ∧ p.minCount ≤ p.maxCount
  regional : a.tier.poolMode = .regional → (a.pools.map Pool.maxCount).sum ≤ max a.tier.maxNodes 0
  perZone : a.tier.poolMode = .perZone → (∀ p ∈ a.pools, ∃ zone, p.availabilityZones = [zone]) ∧
    ∀ zone, zoneNodes [zone] a.pools ≤ max a.tier.maxNodes 0

theorem allocateTier_spec (sha256Hex : String → String) (zones requiredZones : List String)
    (budgets : FamilyMap) (hi : IndexSound index) (hvalid : tier.Valid)
    (hmax : tier.maxNodes ≤ maxInt32) (tierIndex : Nat) :
    Allocated tier budgets tier.familyPriority
        (allocateTier sha256Hex tier zones requiredZones budgets index).1 ∧
      TierAllocation.Bounded ⟨tierIndex, tier, requiredZones,
        (allocateTier sha256Hex tier zones requiredZones budgets index).1,
        (allocateTier sha256Hex tier zones requiredZones budgets index).2⟩ := by
  have hcores : 0 < tier.cores := lt_of_lt_of_le (by decide) hvalid.cores
  unfold allocateTier
  rcases hvalid.poolMode with ⟨hmode, -⟩ | ⟨hmode, -⟩
  · obtain ⟨hall, hzonal, hzones⟩ := allocatePerZoneTier_spec sha256Hex zones requiredZones budgets
      hi hcores hvalid.families hmax
    rw [hmode]
    exact ⟨hall, hall.vcpus, hall.counts, fun h => absurd (hmode.symm.trans h) (by simp),
      fun _ => ⟨hzonal, hzones⟩⟩
  · have horder := perm_familyAllocationOrder tier zones index
    obtain ⟨hall, hnodes⟩ := allocateRegionalFamilies_spec sha256Hex budgets hi hcores hmax
      (horder.nodup_iff.mpr hvalid.families) le_rfl
    rw [sub_zero] at hnodes
    rw [hmode]
    exact ⟨{ hall with family := fun p hp => horder.mem_iff.mp (hall.family p hp) },
      hall.vcpus, hall.counts, fun _ => hnodes, fun h => absurd (hmode.symm.trans h) (by simp)⟩

/-- Limits and sizes are `int64` numbers, and so is a limit less the size of a tier that may use the
family. -/
structure LimitsFit (tiers : List TierConfig) (limits : FamilyMap) : Prop where
  limit : ∀ family ∈ limits.keys,
    -2 ^ 63 ≤ valueAt limits family ∧ valueAt limits family ≤ maxInt64
  cores : ∀ tier ∈ tiers, 0 < tier.cores ∧ tier.cores ≤ maxInt64
  reserve : ∀ tier ∈ tiers, ∀ family ∈ tier.familyPriority,
    -2 ^ 63 ≤ valueAt limits family - tier.cores

structure Progress (familyLimits : FamilyMap) (processed : List TierConfig) (consumed : FamilyMap)
    (pools : List Pool) : Prop where
  consumed_eq : ∀ family, valueAt consumed family = vcpusOf family pools
  source : ∀ p ∈ pools, ∃ t ∈ processed, p.spec.family ∈ t.familyPriority ∧ p.spec.vcpus = t.cores
  nonneg : ∀ family, 0 ≤ vcpusOf family pools
  within : WithinLimits familyLimits pools

variable {limits consumed : FamilyMap} {processed : List TierConfig}

theorem vcpusOf_append (family : VMFamily) (pools pools' : List Pool) :
    vcpusOf family (pools ++ pools') = vcpusOf family pools + vcpusOf family pools' :=
  sumAt_append _ _ _ _ _

/-- What is left of a limit does not wrap: as long as the family has no pools only the reservation
is taken from it, and pools leave room for one of their nodes. -/
theorem Progress.valueAt_availableBudget (h : Progress limits processed consumed pools)
    (hfit : LimitsFit (processed ++ [tier]) limits) (hfamily : family ∈ limits) :
    valueAt (availableBudget limits (processed ++ [tier]) consumed) family = valueAt limits family -
      valueAt consumed family - valueAt (maxCoresPerFamily (processed ++ [tier])) family := by
  have hwrapped : valueAt (availableBudget limits (processed ++ [tier]) consumed) family =
      int64 (valueAt limits family - valueAt consumed family -
        valueAt (maxCoresPerFamily (processed ++ [tier])) family) := by
    unfold availableBudget
    rw [valueAt, lookup_mapEntries, lookup_eq_some_valueAt hfamily]
    rfl
  have hlimits := hfit.limit family hfamily
  have hsurge : 0 ≤ valueAt (maxCoresPerFamily (processed ++ [tier])) family ∧
      valueAt (maxCoresPerFamily (processed ++ [tier])) family ≤ maxInt64 ∧
      -2 ^ 63 ≤ valueAt limits family -
        valueAt (maxCoresPerFamily (processed ++ [tier])) family := by
    rcases maxCoresPerFamily_cases (processed ++ [tier]) family with hzero | ⟨t, ht, hlists, heq⟩
    · rw [hzero]
      exact ⟨le_rfl, by decide, by omega⟩
    · rw [heq]
      exact ⟨(hfit.cores t ht).1.le, (hfit.cores t ht).2, hfit.reserve t ht family hlists⟩
  have hused : 0 ≤ valueAt consumed family ∧ (valueAt consumed family = 0 ∨
      valueAt consumed family ≤ valueAt limits family) := by
    rw [h.consumed_eq]
    refine ⟨h.nonneg family, ?_⟩
    by_cases hsome : ∃ p ∈ pools, p.spec.family = family
    · obtain ⟨p, hp, hpf⟩ := hsome
      obtain ⟨t, ht, -, hvcpus⟩ := h.source p hp
      have hpos := (hfit.cores t (List.mem_append_left _ ht)).1
      have hle := h.within family p hp hpf
      exact .inr (by omega)
    · push Not at hsome
      exact .inl (sumAt_eq_zero hsome)
  unfold maxInt64 at hlimits hsurge
  rw [hwrapped]
  exact int64_of_lt (by omega) (by omega)

theorem Allocated.vcpusOf_pos (h : Allocated tier budgets families pools) (hcores : 0 < tier.cores)
    {p : Pool} (hp : p ∈ pools) : 0 < vcpusOf p.spec.family pools := by
  have hterm : ∀ q ∈ pools, 0 < q.maxCount * q.spec.vcpus := by
    intro q hq
    have hcount := h.counts q hq
    rw [h.vcpus q hq]
    exact Int.mul_pos (by omega) hcores
  exact sumAt_pos hterm hp

/-- A family that gets pools has a limit, and what they use leaves the surge reservation free. -/
theorem Progress.within_limit (hprogress : Progress limits processed consumed pools)
    (hfit : LimitsFit (processed ++ [tier]) limits) (hcores : 0 < tier.cores) {pools' : List Pool}
    {p : Pool} (hp : p ∈ pools') (h : Allocated tier
      (availableBudget limits (processed ++ [tier]) consumed) families pools') :
    valueAt consumed p.spec.family + vcpusOf p.spec.family pools' +
      valueAt (maxCoresPerFamily (processed ++ [tier])) p.spec.family ≤
        valueAt limits p.spec.family := by
  have hbudget := h.budget p hp
  by_cases hmem : p.spec.family ∈ limits
  · rw [hprogress.valueAt_availableBudget hfit hmem] at hbudget
    omega
  · have hpos := h.vcpusOf_pos hcores hp
    unfold availableBudget at hbudget
    rw [valueAt, lookup_mapEntries, AList.lookup_eq_none.mpr hmem] at hbudget
    exact absurd (hpos.trans_le hbudget) (lt_irrefl 0)

theorem Progress.step (h : Progress limits processed consumed pools) {pools' : List Pool}
    (hfit : LimitsFit (processed ++ [tier]) limits) (hcores : 0 < tier.cores)
    (hall : Allocated tier (availableBudget limits (processed ++ [tier]) consumed)
      tier.familyPriority pools') :
    Progress limits (processed ++ [tier]) (consume consumed pools') (pools ++ pools') := by
  have hsource : ∀ p ∈ pools ++ pools', ∃ t ∈ processed ++ [tier],
      p.spec.family ∈ t.familyPriority ∧ p.spec.vcpus = t.cores := by
    intro p hp
    rcases List.mem_append.mp hp with hp | hp
    · obtain ⟨t, ht, hfamily⟩ := h.source p hp
      exact ⟨t, List.mem_append_left _ ht, hfamily⟩
    · exact ⟨tier, by simp, hall.family p hp, hall.vcpus p hp⟩
  refine ⟨?_, hsource, ?_, ?_⟩
  · intro family
    rw [vcpusOf_append, ← h.consumed_eq]
    exact valueAt_foldl_addAt _ _ _ _ _
  · intro family
    have hnew : 0 ≤ vcpusOf family pools' := by
      apply sumAt_nonneg
      intro q hq
      have hcount := hall.counts q hq
      rw [hall.vcpus q hq]
      exact Int.mul_nonneg (by omega) hcores.le
    have hold := h.nonneg family
    rw [vcpusOf_append]
    omega
  · rintro family p hp rfl
    rw [vcpusOf_append]
    by_cases hnew : ∃ p' ∈ pools', p'.spec.family = p.spec.family
    · -- the tier used the family: the surge reservation holds back the largest node
      obtain ⟨p', hp', hfamily⟩ := hnew
      obtain ⟨t, ht, hpriority, hvcpus⟩ := hsource p hp
      have hsurge := le_maxCoresPerFamily ht hpriority
      have hlimit := h.within_limit hfit hcores hp' hall
      rw [hfamily, h.consumed_eq] at hlimit
      omega
    · -- the tier left the family alone
      push Not at hnew
      have hzero : vcpusOf p.spec.family pools' = 0 := sumAt_eq_zero hnew
      have hold : p ∈ pools := by
        rcases List.mem_append.mp hp with hp | hp
        · exact hp
        · exact absurd rfl (hnew p hp)
      have hwithin := h.within _ p hold rfl
      omega

theorem allocateTiers_spec (sha256Hex : String → String) (zones : List String)
    (existingZones : ZonesByRole) (hi : IndexSound index) (tiers : List TierConfig)
    (hvalid : ∀ tier ∈ tiers, tier.Valid) (hmax : ∀ tier ∈ tiers, tier.maxNodes ≤ maxInt32)
    (hfit : LimitsFit (processed ++ tiers) limits) (h : Progress limits processed consumed pools) :
    WithinLimits limits (pools ++ (allocateTiers sha256Hex zones existingZones limits
        index processed consumed tiers).flatMap TierAllocation.pools) ∧
      ∀ a ∈ allocateTiers sha256Hex zones existingZones limits index processed consumed tiers,
        a.Bounded := by
  induction tiers generalizing processed consumed pools with
  | nil =>
    refine ⟨?_, by simp [allocateTiers]⟩
    rw [allocateTiers, List.flatMap_nil, List.append_nil]
    exact h.within
  | cons tier rest ih =>
    rw [List.forall_mem_cons] at hvalid hmax
    have hcores : 0 < tier.cores := lt_of_lt_of_le (by decide) hvalid.1.cores
    obtain ⟨hall, hbounded⟩ := allocateTier_spec sha256Hex zones (requiredZones existingZones tier)
      (availableBudget limits (processed ++ [tier]) consumed) hi hvalid.1 hmax.1
      processed.length
    have hsub : ∀ t ∈ processed ++ [tier], t ∈ processed ++ tier :: rest := by
      intro t ht
      simp only [List.mem_append, List.mem_cons] at ht ⊢
      tauto
    have hprefix : LimitsFit (processed ++ [tier]) limits := ⟨hfit.limit,
      fun t ht => hfit.cores t (hsub t ht), fun t ht => hfit.reserve t (hsub t ht)⟩
    have happend : processed ++ tier :: rest = (processed ++ [tier]) ++ rest := by simp
    obtain ⟨hwithin, hrest⟩ := ih hvalid.2 hmax.2 (happend ▸ hfit) (h.step hprefix hcores hall)
    rw [allocateTiers, List.flatMap_cons, List.forall_mem_cons, ← List.append_assoc]
    exact ⟨hwithin, hbounded, hrest⟩

theorem tiers_of_allocateTiers (sha256Hex : String → String) (zones : List String)
    (existingZones : ZonesByRole) (limits : FamilyMap) (index : EligibleSKUIndex)
    (processed : List TierConfig) (consumed : FamilyMap) (tiers : List TierConfig) :
    (allocateTiers sha256Hex zones existingZones limits index processed consumed tiers).map
      TierAllocation.tier = tiers := by
  induction tiers generalizing processed consumed with
  | nil => rfl
  | cons tier rest ih => rw [allocateTiers, List.map_cons, ih]

/-- For an accepted profile whose node targets are 32-bit numbers, and limits from which the size of
a tier can be taken in 64 bits, the desired pools are those the tiers allocate in order, every
family with pools keeps one node of its largest pool free within its limit, and each tier's pools
have its size and stay within its node target, in total or per zone. -/
theorem desired_pools_within_quota (sha256Hex : String → String) (profile : Profile)
    (zones : List String) (existingZones : ZonesByRole) (familyLimits : FamilyMap)
    (skuMetadata : AList fun _ : String => SKUMetadata)
    (hvalid : validateProfile profile = .ok ())
    (hmax : ∀ tier ∈ profile.tiers, tier.maxNodes ≤ maxInt32)
    (hint64 : ∀ family ∈ familyLimits.keys,
      -2 ^ 63 ≤ valueAt familyLimits family ∧ valueAt familyLimits family ≤ maxInt64)
    (hcores : ∀ tier ∈ profile.tiers, tier.cores ≤ maxInt64)
    (hreserve : ∀ tier ∈ profile.tiers, ∀ family ∈ tier.familyPriority,
      -2 ^ 63 ≤ valueAt familyLimits family - tier.cores) :
    let index := buildEligibleSKUIndex skuMetadata
    let allocations := allocateTiers sha256Hex zones existingZones familyLimits index [] ∅
      profile.tiers
    let pools := (computeDesiredPools sha256Hex zones existingZones familyLimits index
      profile.tiers).1
    pools = allocations.flatMap TierAllocation.pools ∧
    allocations.map TierAllocation.tier = profile.tiers ∧
    (∀ family, ∀ p ∈ pools, p.spec.family = family →
      vcpusOf family pools + p.spec.vcpus ≤ valueAt familyLimits family) ∧
    ∀ a ∈ allocations, a.Bounded := by
  intro index allocations pools
  have hstart : Progress familyLimits [] ∅ [] := by
    refine ⟨fun _ => rfl, ?_, fun _ => le_rfl, ?_⟩
    · simp
    · simp [WithinLimits]
  have htiers := (validateProfile_eq_ok.mp hvalid).1
  have hfit : LimitsFit ([] ++ profile.tiers) familyLimits := by
    refine ⟨hint64, fun tier htier => ⟨?_, hcores tier htier⟩, hreserve⟩
    exact lt_of_lt_of_le (by decide) (htiers tier htier).cores
  have hspec := allocateTiers_spec sha256Hex zones existingZones (indexSound_build skuMetadata)
    profile.tiers htiers hmax hfit hstart
  exact ⟨rfl, tiers_of_allocateTiers _ _ _ _ _ _ _ _, hspec.1, hspec.2⟩

/-! ## Two tiers of one family -/

def workerClass : PoolClass := ⟨"worker", .user, false, false, ∅, []⟩

def sampleProfile : Profile where
  tiers :=
    [⟨"sys", workerClass, .regional, 4, 32, 3, 0, ["standardDFamily"], 100, true, 1⟩,
      ⟨"wrk", workerClass, .perZone, 8, 64, 2, 2, ["standardDFamily"], 225, false, 2⟩]

def sampleSKU (name : String) (vcpus : Int) : SKUMetadata :=
  ⟨name, "standardDFamily", vcpus, 16, 0, true, 100, ["1", "2"], false, false⟩

def sampleSKUs : AList fun _ : String => SKUMetadata :=
  (AList.singleton "D4" (sampleSKU "D4" 4)).insert "D8" (sampleSKU "D8" 8)

/-- With 60 vCPUs both tiers reach their targets and use 44 vCPUs. -/
theorem desired_pools_within_quota_two_tiers :
    let pools := (computeDesiredPools (fun _ => "000000") ["1", "2"] ∅
      (AList.singleton "standardDFamily" 60) (buildEligibleSKUIndex sampleSKUs)
      sampleProfile.tiers).1
    pools.map (fun p => (p.name, p.maxCount)) =
      [("sys0000000", 3), ("wrk1000000", 2), ("wrk2000000", 2)] ∧
    ∀ p ∈ pools, p.spec.family = "standardDFamily" →
      vcpusOf "standardDFamily" pools + p.spec.vcpus ≤ 60 := by
  have h := desired_pools_within_quota (fun _ => "000000") sampleProfile ["1", "2"] ∅
    (AList.singleton "standardDFamily" 60) sampleSKUs (by decide +kernel) (by decide)
    (by decide) (by decide) (by decide)
  exact ⟨by decide +kernel, h.2.2.1 "standardDFamily"⟩

/-- With the smallest limit there is, what the reservation leaves of it wraps to a large budget. -/
theorem desired_pools_exceed_smallest_limit :
    let limits : FamilyMap := AList.singleton "standardDFamily" (-2 ^ 63)
    let pools := (computeDesiredPools (fun _ => "000000") ["1", "2"] ∅ limits
      (buildEligibleSKUIndex sampleSKUs) sampleProfile.tiers).1
    validateProfile sampleProfile = .ok () ∧ ∃ p ∈ pools, p.spec.family = "standardDFamily" ∧
      valueAt limits "standardDFamily" < vcpusOf "standardDFamily" pools + p.spec.vcpus := by
  decide +kernel

end AroHcp.Compute
