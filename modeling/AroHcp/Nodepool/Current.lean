import AroHcp.Compute.DesiredShape
import AroHcp.Nodepool.AgentPoolSpec
import AroHcp.Nodepool.Plan

/-! Live agent pools read back as pool states, and what becomes of the desired pools once AKS has
them: the states that are read are converged exactly when the pools have distinct names. -/

namespace AroHcp.Nodepool

open Compute GoFmt GoInt GoPtr

/-! ## Reading the live pools -/

section

variable (skuMetadata : AList fun _ : String => SKUMetadata)

/-- Without metadata only the size is known; no vCPUs mark such a pool. -/
def resolveSpec (vmSize : String) : VMSpec :=
  match skuMetadata.lookup vmSize with
  | none => ⟨vmSize, "", 0, 0, 0⟩
  | some sku => newVMSpecFromSKU sku

def currentSecondaryNICs (name : String) (tags : StringPtrs) : Except String Int :=
  match secondaryNICCount tags with
  | none => .ok 0
  | some nics =>
    if !isSwiftEnabled tags then .error s!"secondary NIC count for pool {quote name} requires Swift"
    else match nics with
      | .error _ => .error s!"invalid secondary NIC count for pool {quote name}"
      | .ok nics => .ok nics

/-- One iteration of the loop; `none` for a pool that is skipped. -/
def currentPoolState (pool : AgentPool) : Except String (Option PoolState) :=
  if !isManagedPool pool then .ok none
  else match pool.properties, pool.name with
    | some properties, some name =>
      match properties.vmSize, properties.osDiskSizeGB with
      | some vmSize, some osDiskSizeGB =>
        let diskType := properties.osDiskType.getD .ephemeral
        if diskType ≠ .ephemeral then
          .error (s!"pool {quote name} has OS disk type {quote diskType.text}, " ++
            s!"expected {quote OSDiskType.ephemeral.text}")
        else do
          let secondaryNICs ← currentSecondaryNICs name properties.tags
          return some
            { pool :=
                { role := roleFromAgentPool pool
                  agentPoolMode := deref properties.mode (.other "")
                  name := name
                  spec := resolveSpec skuMetadata vmSize
                  availabilityZones := properties.availabilityZones.filterMap id
                  maxCount := int32 (poolMaxCount properties)
                  minCount := 0
                  osDiskSizeGB := osDiskSizeGB
                  maxPods := deref properties.maxPods 0
                  labels := fromPtrs properties.nodeLabels
                  taints := properties.nodeTaints.filterMap id
                  enableSwift := isSwiftEnabled properties.tags
                  secondaryNICs := secondaryNICs }
              etag := deref properties.etag ""
              provisioningState := deref properties.provisioningState (.other "")
              autoScalingEnabled := deref properties.enableAutoScaling false
              count := deref properties.count 0
              minCount := deref properties.minCount 0 }
      | _, _ => .ok none
    | _, _ => .ok none

def currentPoolStates : List AgentPool → Except String (List PoolState)
  | [] => .ok []
  | pool :: rest => do
    let state ← currentPoolState skuMetadata pool
    let states ← currentPoolStates rest
    return state.toList ++ states

end

/-! ## Pools as AKS stores them -/

/-- The agent pool that AKS keeps for a pool: what was written, with a node count within the
bounds and some ETag. -/
def StoredAs (networkConfig : NetworkConfig) (pool : Pool) (live : AgentPool) : Prop :=
  ∃ count etag, pool.minCount ≤ count ∧ count ≤ pool.maxCount ∧
    live = ⟨some pool.name, some { build pool networkConfig with
      provisioningState := some .succeeded, count := some count, etag := etag }⟩

/-- The agent pools of a cluster to which all pools were written. AKS keeps one agent pool for
each name, in any order. -/
structure Stored (networkConfig : NetworkConfig) (desired : List Pool) (live : List AgentPool) :
    Prop where
  names : (live.map AgentPool.name).Nodup
  pools : ∀ a ∈ live, ∃ pool ∈ desired, StoredAs networkConfig pool a
  complete : ∀ pool ∈ desired, ∃ a ∈ live, a.name = some pool.name

/-- What reading a stored pool needs of it. -/
structure Readable (pool : Pool) : Prop where
  role : pool.labels.lookup roleLabel = some pool.role
  role_ne : pool.role ≠ ""
  maxCount : int32 pool.maxCount = pool.maxCount
  nics : 0 ≤ pool.secondaryNICs
  swift : 0 < pool.secondaryNICs → pool.enableSwift = true
  int64 : pool.secondaryNICs ≤ maxInt64

def storedState (skuMetadata : AList fun _ : String => SKUMetadata) (pool : Pool) (count : Int)
    (etag : Option String) : PoolState where
  pool := { pool with spec := resolveSpec skuMetadata pool.spec.size, minCount := 0 }
  etag := deref etag ""
  provisioningState := .succeeded
  autoScalingEnabled := true
  count := count
  minCount := pool.minCount

variable {skuMetadata : AList fun _ : String => SKUMetadata} {networkConfig : NetworkConfig}
  {pool : Pool} {desired : List Pool} {live : List AgentPool} {states : List PoolState}

theorem currentSecondaryNICs_swiftTags (h : Readable pool) (name : String) :
    currentSecondaryNICs name (swiftTags pool) = .ok pool.secondaryNICs := by
  unfold currentSecondaryNICs
  rw [secondaryNICCount_swiftTags h.int64, isSwiftEnabled_swiftTags]
  by_cases hnics : 0 < pool.secondaryNICs
  · rw [if_pos ⟨h.swift hnics, hnics⟩, h.swift hnics]
    rfl
  · have hzero : pool.secondaryNICs = 0 := by
      have hnonneg := h.nics
      omega
    rw [if_neg fun both => hnics both.2, hzero]

theorem currentPoolState_stored (h : Readable pool) (count : Int) (etag : Option String) :
    currentPoolState skuMetadata ⟨some pool.name, some { build pool networkConfig with
      provisioningState := some .succeeded, count := some count, etag := etag }⟩ =
        .ok (some (storedState skuMetadata pool count etag)) := by
  have hrole : ∀ properties : AgentPoolProperties, properties.nodeLabels = toPtrs pool.labels →
      roleFromAgentPool ⟨some pool.name, some properties⟩ = pool.role := by
    intro properties hlabels
    change deref (entry properties.nodeLabels roleLabel) "" = pool.role
    rw [hlabels, entry_toPtrs, h.role]
    rfl
  unfold currentPoolState
  rw [isManagedPool, hrole _ rfl, decide_eq_true h.role_ne]
  dsimp only [build]
  rw [currentSecondaryNICs_swiftTags h, isSwiftEnabled_swiftTags, fromPtrs_toPtrs,
    filterMap_map_some, filterMap_map_some]
  simp only [poolMaxCount, h.maxCount]
  rfl

def StateOf (skuMetadata : AList fun _ : String => SKUMetadata) (desired : List Pool)
    (state : PoolState) : Prop :=
  ∃ pool ∈ desired, ∃ count etag, count ≤ pool.maxCount ∧
    state = storedState skuMetadata pool count etag

theorem exists_states (skuMetadata : AList fun _ : String => SKUMetadata)
    (hread : ∀ pool ∈ desired, Readable pool)
    (hlive : ∀ a ∈ live, ∃ pool ∈ desired, StoredAs networkConfig pool a) :
    ∃ states, currentPoolStates skuMetadata live = .ok states ∧
      live.map AgentPool.name = (states.map PoolState.name).map some ∧
      ∀ state ∈ states, StateOf skuMetadata desired state := by
  induction live with
  | nil => exact ⟨[], rfl, rfl, by simp⟩
  | cons a rest ih =>
    obtain ⟨states, hstates, hnames, hown⟩ := ih fun b hb => hlive b (List.mem_cons_of_mem _ hb)
    obtain ⟨pool, hpool, count, etag, -, hcount, rfl⟩ := hlive a List.mem_cons_self
    refine ⟨storedState skuMetadata pool count etag :: states, ?_, ?_, ?_⟩
    · rw [currentPoolStates, currentPoolState_stored (hread pool hpool), hstates]
      rfl
    · rw [List.map_cons, hnames]
      rfl
    · rw [List.forall_mem_cons]
      exact ⟨⟨pool, hpool, count, etag, hcount, rfl⟩, hown⟩

/-! ## Convergence -/

/-- The metadata of a size stands under its own name. -/
def KeyedByName (skuMetadata : AList fun _ : String => SKUMetadata) : Prop :=
  ∀ entry ∈ skuMetadata.entries, entry.2.name = entry.1

theorem size_resolveSpec (hkeyed : KeyedByName skuMetadata) (vmSize : String) :
    (resolveSpec skuMetadata vmSize).size = vmSize := by
  unfold resolveSpec
  split
  next => rfl
  next sku hsku => exact hkeyed ⟨vmSize, sku⟩ (AList.mem_lookup_iff.mp hsku)

theorem poolConverged_storedState (hkeyed : KeyedByName skuMetadata) {count : Int}
    (hcount : count ≤ pool.maxCount) (etag : Option String) :
    poolConverged pool (storedState skuMetadata pool count etag) = true := by
  have htaints : ∀ xs, taintsEqual xs xs = true := fun xs => taintsEqual_iff_perm.mpr (.refl xs)
  simp [poolConverged, storedState, size_resolveSpec hkeyed, htaints, hcount]

/-- One state for each desired pool, found under its name and matching it. -/
theorem configurationConverged_iff (hne : desired ≠ []) :
    configurationConverged desired states = true ↔ desired.length = states.length ∧
      ∀ pool ∈ desired, ∃ cur, (Keyed.index PoolState.name states).lookup pool.name = some cur ∧
        poolConverged pool cur = true := by
  have hlength : desired.length ≠ 0 := fun h => hne (List.length_eq_zero_iff.mp h)
  unfold configurationConverged
  split_ifs with h
  · exact iff_of_false (by simp) fun hconv => h.elim hlength fun hdiff => hdiff hconv.1
  · rw [not_or, not_not] at h
    rw [List.all_eq_true]
    refine ⟨fun hall => ⟨h.2, fun pool hpool => ?_⟩, fun hall pool hpool => ?_⟩
    · have hmatch := hall pool hpool
      cases hcur : (Keyed.index PoolState.name states).lookup pool.name with
      | none => simp [hcur] at hmatch
      | some cur => exact ⟨cur, rfl, by simpa [hcur] using hmatch⟩
    · obtain ⟨cur, hcur, hconv⟩ := hall.2 pool hpool
      simp [hcur, hconv]

/-- With distinct names the states of a converged configuration are the desired pools' own. -/
theorem exists_desired_of_converged (hnames : (desired.map Pool.name).Nodup)
    (hlength : desired.length = states.length)
    (hall : ∀ pool ∈ desired, ∃ cur, (Keyed.index PoolState.name states).lookup pool.name =
      some cur ∧ poolConverged pool cur = true) :
    ∀ state ∈ states, ∃ pool ∈ desired, pool.name = state.name ∧
      poolConverged pool state = true := by
  have hsub : desired.map Pool.name ⊆ states.map PoolState.name := by
    intro name hname
    obtain ⟨pool, hpool, rfl⟩ := List.mem_map.mp hname
    obtain ⟨cur, hcur, -⟩ := hall pool hpool
    obtain ⟨hmem, hkey⟩ := Keyed.mem_of_lookup_index _ hcur
    exact List.mem_map.mpr ⟨cur, hmem, hkey⟩
  have hperm : (desired.map Pool.name).Perm (states.map PoolState.name) :=
    (List.subperm_of_subset hnames hsub).perm_of_length_le (by simp [hlength])
  have hstates : (states.map PoolState.name).Nodup := hperm.nodup_iff.mp hnames
  intro state hstate
  have hname := hperm.mem_iff.mpr (List.mem_map_of_mem hstate)
  obtain ⟨pool, hpool, heq⟩ := List.mem_map.mp hname
  obtain ⟨cur, hcur, hconv⟩ := hall pool hpool
  rw [heq, Keyed.lookup_index_of_mem hstates hstate, Option.some_inj] at hcur
  exact ⟨pool, hpool, heq, hcur ▸ hconv⟩

/-- What the planner reads of a converged state. -/
structure Settled (pool : Pool) (cur : PoolState) : Prop where
  succeeded : cur.provisioningState = .succeeded
  autoScaling : cur.autoScalingEnabled = true
  maxCount : cur.pool.maxCount = pool.maxCount
  count : cur.count ≤ pool.maxCount
  labels : cur.pool.labels = pool.labels
  taints : taintsEqual cur.pool.taints pool.taints = true

theorem settled_of_poolConverged {cur : PoolState} (h : poolConverged pool cur = true) :
    Settled pool cur := by
  simp only [poolConverged, Bool.and_eq_true, decide_eq_true_eq] at h
  obtain ⟨⟨⟨⟨⟨⟨⟨⟨⟨⟨⟨⟨⟨hstate, hauto⟩, hmax⟩, hcount⟩, -⟩, -⟩, -⟩, -⟩, -⟩, -⟩, -⟩, -⟩, hlabels⟩,
    htaints⟩ := h
  exact ⟨hstate, hauto, hmax, hcount, hlabels, htaints⟩

theorem findNextAction_of_converged (hnames : (desired.map Pool.name).Nodup)
    (hconv : configurationConverged desired states = true) (availableVCPUs : FamilyMap)
    (floor : TransitionFloor) (networkConfig : NetworkConfig) :
    findNextAction desired states availableVCPUs floor networkConfig = none := by
  have hne : desired ≠ [] := by
    rintro rfl
    simp [configurationConverged] at hconv
  obtain ⟨hlength, hall⟩ := (configurationConverged_iff hne).mp hconv
  have hown := exists_desired_of_converged hnames hlength hall
  have hsettled : ∀ pool ∈ desired, ∃ cur,
      (Keyed.index PoolState.name states).lookup pool.name = some cur ∧ Settled pool cur := by
    intro pool hpool
    obtain ⟨cur, hcur, hmatch⟩ := hall pool hpool
    exact ⟨cur, hcur, settled_of_poolConverged hmatch⟩
  have hidle : firstInProgressPool states = none := by
    rw [firstInProgressPool, List.find?_eq_none]
    intro state hstate
    obtain ⟨pool, -, -, hmatch⟩ := hown state hstate
    rw [(settled_of_poolConverged hmatch).succeeded]
    simp [isTransitionalState]
  have hundesired : undesiredPools states (Keyed.index Pool.name desired) = [] := by
    rw [undesiredPools, List.filter_eq_nil_iff]
    intro state hstate
    obtain ⟨pool, hpool, heq, -⟩ := hown state hstate
    simpa using (Keyed.mem_index _).mpr ⟨pool, hpool, heq⟩
  have hdesired : ¬ (desired.length = 0 ∧ states.length > 0) :=
    fun h => hne (List.length_eq_zero_iff.mp h.1)
  -- no step of the planner finds anything to do
  have hreconcile : findReconcileAction desired (Keyed.index PoolState.name states) = none := by
    rw [findReconcileAction, List.findSome?_eq_none_iff]
    intro pool hpool
    obtain ⟨cur, hcur, h⟩ := hsettled pool hpool
    simp [hcur, h.succeeded]
  have hcorrect : ∀ headroom, findCorrectDesiredAction desired (Keyed.index PoolState.name states)
      headroom states floor = none := by
    intro headroom
    rw [findCorrectDesiredAction, List.findSome?_eq_none_iff]
    intro pool hpool
    obtain ⟨cur, hcur, h⟩ := hsettled pool hpool
    have hmax := h.maxCount
    have hcount := h.count
    rw [hcur]
    simp only [correctDesired, h.autoScaling]
    rw [if_neg (by simp), if_neg (by omega)]
  have hdrift : findDriftAction desired (Keyed.index PoolState.name states) = none := by
    rw [findDriftAction, List.findSome?_eq_none_iff]
    intro pool hpool
    obtain ⟨cur, hcur, h⟩ := hsettled pool hpool
    have htaints : taintsEqual pool.taints cur.pool.taints = true :=
      taintsEqual_iff_perm.mpr (taintsEqual_iff_perm.mp h.taints).symm
    simp [hcur, h.labels, htaints]
  have hgrow : ∀ headroom, findGrowAction desired (Keyed.index PoolState.name states) headroom
      networkConfig = none := by
    intro headroom
    rw [findGrowAction, Option.or_eq_none_iff, List.findSome?_eq_none_iff,
      List.findSome?_eq_none_iff]
    refine ⟨fun pool hpool => ?_, fun pool hpool => ?_⟩
    · obtain ⟨cur, hcur, -⟩ := hsettled pool hpool
      simp [hcur]
    · obtain ⟨cur, hcur, h⟩ := hsettled pool hpool
      simp [hcur, growAction, h.maxCount]
  have hshrink : findShrinkAction states (Keyed.index Pool.name desired) floor = none := by
    simp [findShrinkAction, hundesired]
  unfold findNextAction
  rw [hidle]
  dsimp only
  rw [if_neg hdesired, hreconcile, hcorrect, hdrift, hgrow, hshrink]
  rfl

/-! ## The desired pools of a profile -/

theorem readable_of_fromTier {sha256Hex : String → String} {tier : TierConfig} (hvalid : tier.Valid)
    (hint64 : ∀ entry ∈ skuMetadata.entries, entry.2.secondaryNICs ≤ maxInt64)
    (h : FromTier sha256Hex tier (buildEligibleSKUIndex skuMetadata) pool) : Readable pool := by
  obtain ⟨family, -, sku, hsku, nodes, -, hpool⟩ := h
  rw [tierSKU, Option.filter_eq_some_iff, Option.map_eq_some_iff] at hsku
  obtain ⟨⟨found, hfound, rfl⟩, hfits⟩ := hsku
  have hbound := hint64 _ (indexFrom_build _ _ _ _ hfound)
  simp only [Bool.and_eq_true, Bool.or_eq_true, Bool.not_eq_true', decide_eq_true_eq] at hfits
  have hpositive : (0 : Int) ≤ maxInt64 := by decide
  have hread : ∀ zone zones, Readable (tierPool sha256Hex tier found.metadata zone zones nodes) := by
    intro zone zones
    refine ⟨?_, hvalid.role, int32_int32 nodes, ?_, ?_, ?_⟩
    · change (tier.poolClass.labels ∪ Finmap.singleton roleLabel tier.poolClass.role).lookup
        roleLabel = some tier.poolClass.role
      rw [Finmap.lookup_union_right hvalid.labels, Finmap.lookup_singleton_eq]
    all_goals
      dsimp only [tierPool]
      split_ifs with hattach
    · exact (hfits.2.resolve_left (by simp [hattach])).le
    · exact le_refl 0
    · exact fun _ => hvalid.swift hattach
    · exact fun hlt => absurd hlt (lt_irrefl 0)
    · exact hbound
    · exact hpositive
  rcases hpool with ⟨-, rfl⟩ | ⟨-, zone, -, rfl⟩
  · exact hread _ _
  · exact hread _ _

/-- The live pools are read without error, their states are converged, and the planner has nothing
to do whatever the budgets, the floor and the network are. -/
def RecognisedAsConverged (skuMetadata : AList fun _ : String => SKUMetadata) (desired : List Pool)
    (live : List AgentPool) : Prop :=
  ∃ states, currentPoolStates skuMetadata live = .ok states ∧
    configurationConverged desired states = true ∧
    ∀ availableVCPUs floor networkConfig,
      findNextAction desired states availableVCPUs floor networkConfig = none

/-- The stored pools of a list with distinct names are converged; a shared name leaves fewer agent
pools than desired ones, which is never converged. -/
theorem recognisedAsConverged_iff (hkeyed : KeyedByName skuMetadata)
    (hread : ∀ pool ∈ desired, Readable pool) (hne : desired ≠ [])
    (hlive : Stored networkConfig desired live) :
    RecognisedAsConverged skuMetadata desired live ↔ (desired.map Pool.name).Nodup := by
  obtain ⟨states, hstates, hmapped, hown⟩ := exists_states skuMetadata hread hlive.pools
  have hstateNames : (states.map PoolState.name).Nodup := (hmapped ▸ hlive.names).of_map
  have hsub : states.map PoolState.name ⊆ desired.map Pool.name := by
    intro name hname
    obtain ⟨state, hstate, rfl⟩ := List.mem_map.mp hname
    obtain ⟨pool, hpool, count, etag, -, rfl⟩ := hown state hstate
    exact List.mem_map.mpr ⟨pool, hpool, rfl⟩
  constructor
  · rintro ⟨states', hstates', hconv, -⟩
    rw [hstates, Except.ok.injEq] at hstates'
    subst hstates'
    have hlength := ((configurationConverged_iff hne).mp hconv).1
    have hperm := (List.subperm_of_subset hstateNames hsub).perm_of_length_le (by simp [hlength])
    exact hperm.nodup_iff.mp hstateNames
  · intro hnames
    have hfound : ∀ pool ∈ desired, ∃ count etag, count ≤ pool.maxCount ∧
        storedState skuMetadata pool count etag ∈ states := by
      intro pool hpool
      obtain ⟨a, ha, hname⟩ := hlive.complete pool hpool
      have hlisted : some pool.name ∈ (states.map PoolState.name).map some :=
        hmapped ▸ List.mem_map.mpr ⟨a, ha, hname⟩
      rw [List.mem_map_of_injective (Option.some_injective _), List.mem_map] at hlisted
      obtain ⟨state, hstate, hstateName⟩ := hlisted
      obtain ⟨pool', hpool', count, etag, hcount, rfl⟩ := hown state hstate
      have hsame : pool' = pool := List.inj_on_of_nodup_map hnames hpool' hpool hstateName
      subst hsame
      exact ⟨count, etag, hcount, hstate⟩
    have hsup : desired.map Pool.name ⊆ states.map PoolState.name := by
      intro name hname
      obtain ⟨pool, hpool, rfl⟩ := List.mem_map.mp hname
      obtain ⟨count, etag, -, hstate⟩ := hfound pool hpool
      exact List.mem_map.mpr ⟨_, hstate, rfl⟩
    have hperm : (desired.map Pool.name).Perm (states.map PoolState.name) :=
      (List.perm_ext_iff_of_nodup hnames hstateNames).mpr fun name =>
        ⟨fun h => hsup h, fun h => hsub h⟩
    have hconv : configurationConverged desired states = true := by
      refine (configurationConverged_iff hne).mpr ⟨by simpa using hperm.length_eq, ?_⟩
      intro pool hpool
      obtain ⟨count, etag, hcount, hstate⟩ := hfound pool hpool
      exact ⟨_, Keyed.lookup_index_of_mem hstateNames hstate,
        poolConverged_storedState hkeyed hcount etag⟩
    exact ⟨states, hstates, hconv, findNextAction_of_converged hnames hconv⟩

section

variable (sha256Hex : String → String) (profile : Profile) (zones : List String)
  (existingZones : ZonesByRole) (familyLimits : FamilyMap)
  (skuMetadata : AList fun _ : String => SKUMetadata)

theorem readable_of_mem_computeDesiredPools (hvalid : validateProfile profile = .ok ())
    (hint64 : ∀ entry ∈ skuMetadata.entries, entry.2.secondaryNICs ≤ maxInt64)
    (hpool : pool ∈ (computeDesiredPools sha256Hex zones existingZones familyLimits
      (buildEligibleSKUIndex skuMetadata) profile.tiers).1) : Readable pool := by
  obtain ⟨a, ha, hpool⟩ := List.mem_flatMap.mp hpool
  have htier : a.tier ∈ profile.tiers := by
    rw [← tiers_of_allocateTiers sha256Hex zones existingZones familyLimits
      (buildEligibleSKUIndex skuMetadata) [] ∅ profile.tiers]
    exact List.mem_map_of_mem ha
  exact readable_of_fromTier ((validateProfile_eq_ok.mp hvalid).1 _ htier) hint64
    (fromTier_of_mem_allocateTiers ha hpool)

/-- What the planner builds it recognises as converged exactly when the desired pools have
distinct names. The NIC counts of SKUs are `int64` in the source. -/
theorem desired_pools_recognised_iff (networkConfig : NetworkConfig) (live : List AgentPool)
    (hvalid : validateProfile profile = .ok ())
    (hkeyed : KeyedByName skuMetadata)
    (hint64 : ∀ entry ∈ skuMetadata.entries, entry.2.secondaryNICs ≤ maxInt64)
    (hpool : pool ∈ (computeDesiredPools sha256Hex zones existingZones familyLimits
      (buildEligibleSKUIndex skuMetadata) profile.tiers).1)
    (hlive : Stored networkConfig (computeDesiredPools sha256Hex zones existingZones familyLimits
      (buildEligibleSKUIndex skuMetadata) profile.tiers).1 live) :
    RecognisedAsConverged skuMetadata (computeDesiredPools sha256Hex zones existingZones
        familyLimits (buildEligibleSKUIndex skuMetadata) profile.tiers).1 live ↔
      ((computeDesiredPools sha256Hex zones existingZones familyLimits
        (buildEligibleSKUIndex skuMetadata) profile.tiers).1.map Pool.name).Nodup :=
  recognisedAsConverged_iff hkeyed
    (fun _ => readable_of_mem_computeDesiredPools sha256Hex profile zones existingZones familyLimits
      skuMetadata hvalid hint64) (List.ne_nil_of_mem hpool) hlive

end

def storedPool (pool : Pool) : AgentPool :=
  ⟨some pool.name, some { build pool ⟨"", ""⟩ with
    provisioningState := some .succeeded, count := some pool.minCount, etag := none }⟩

theorem stored_map_storedPool (hbounds : ∀ pool ∈ desired, pool.minCount ≤ pool.maxCount)
    {kept : List Pool} (hkept : kept ⊆ desired) (hnames : (kept.map Pool.name).Nodup)
    (hcomplete : ∀ pool ∈ desired, ∃ other ∈ kept, other.name = pool.name) :
    Stored ⟨"", ""⟩ desired (kept.map storedPool) := by
  refine ⟨?_, ?_, ?_⟩
  · have hmap : (kept.map storedPool).map AgentPool.name = (kept.map Pool.name).map some := by
      rw [List.map_map, List.map_map]
      rfl
    rw [hmap]
    exact hnames.map (Option.some_injective _)
  · intro a ha
    obtain ⟨pool, hpool, rfl⟩ := List.mem_map.mp ha
    exact ⟨pool, hkept hpool, pool.minCount, none, le_refl _, hbounds pool (hkept hpool), rfl⟩
  · intro pool hpool
    obtain ⟨other, hother, hname⟩ := hcomplete pool hpool
    exact ⟨storedPool other, List.mem_map_of_mem hother, congrArg some hname⟩

/-- Workers with Swift networking and all secondary NICs of their SKU. -/
def swiftTier (name : String) : TierConfig :=
  ⟨name, ⟨"worker", .user, true, true, ∅, ["dedicated=worker:NoSchedule"]⟩, .perZone, 4, 64, 2, 0,
    ["standardDFamily"], 225, false, 2⟩

def swiftSKUs : AList fun _ : String => SKUMetadata :=
  AList.singleton "D4" { sampleSKU "D4" 4 with secondaryNICs := 3, zones := ["1", "11"] }

/-- The zones that are planned with in a region of eleven. -/
def regionZones : List String :=
  ["1", "2", "3", "4", "5", "6", "7", "8", "9", "10", "11"]

def swiftDesired (tiers : List TierConfig) : List Pool :=
  (computeDesiredPools (fun _ => "000000") regionZones ∅ (AList.singleton "standardDFamily" 60)
    (buildEligibleSKUIndex swiftSKUs) tiers).1

theorem desired_pools_recognised_swift :
    (swiftDesired [swiftTier "wrk"]).map Pool.name = ["wrk1000000", "wrk11000000"] ∧
    RecognisedAsConverged swiftSKUs (swiftDesired [swiftTier "wrk"])
      ((swiftDesired [swiftTier "wrk"]).map storedPool) := by
  refine ⟨by decide +kernel, ?_⟩
  have hpool : (swiftDesired [swiftTier "wrk"]).head (by decide +kernel) ∈
    swiftDesired [swiftTier "wrk"] := List.head_mem _
  exact (desired_pools_recognised_iff _ ⟨[swiftTier "wrk"]⟩ _ _ _ swiftSKUs ⟨"", ""⟩ _
    (by decide +kernel) (by unfold KeyedByName; decide +kernel) (by decide +kernel) hpool
    (stored_map_storedPool (by decide +kernel) (List.Subset.refl _) (by decide +kernel)
      fun pool hpool => ⟨pool, hpool, rfl⟩)).mpr (by decide +kernel)

/-- Tier `a` in zone 11 and tier `a1` in zone 1 have pools of one name, whatever the hash is, since
it reads neither the tier's name nor the zone. AKS keeps three agent pools for the four. -/
theorem desired_pools_unrecognised_shared_name :
    validateProfile ⟨[swiftTier "a", swiftTier "a1"]⟩ = .ok () ∧ KeyedByName swiftSKUs ∧
    (swiftDesired [swiftTier "a", swiftTier "a1"]).map Pool.name =
      ["a1000000", "a11000000", "a11000000", "a111000000"] ∧
    Stored ⟨"", ""⟩ (swiftDesired [swiftTier "a", swiftTier "a1"])
      (((swiftDesired [swiftTier "a", swiftTier "a1"]).eraseIdx 2).map storedPool) ∧
    ¬ RecognisedAsConverged swiftSKUs (swiftDesired [swiftTier "a", swiftTier "a1"])
      (((swiftDesired [swiftTier "a", swiftTier "a1"]).eraseIdx 2).map storedPool) := by
  refine ⟨by decide +kernel, by unfold KeyedByName; decide +kernel, by decide +kernel, ?_, ?_⟩
  · exact stored_map_storedPool (by decide +kernel) (List.eraseIdx_subset ..) (by decide +kernel)
      (by decide +kernel)
  · rintro ⟨states, hstates, hconv, -⟩
    have hfailed : (currentPoolStates swiftSKUs (((swiftDesired [swiftTier "a",
        swiftTier "a1"]).eraseIdx 2).map storedPool)).toOption.any
          (configurationConverged (swiftDesired [swiftTier "a", swiftTier "a1"])) = false := by
      decide +kernel
    rw [hstates] at hfailed
    exact absurd hconv (by simpa [Except.toOption] using hfailed)

end AroHcp.Nodepool
