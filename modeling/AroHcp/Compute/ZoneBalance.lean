import AroHcp.Compute.ZoneFill

/-! The per-zone allocation is balanced and optimal: filling zone after zone and family after family
leaves no zone short, because each family gives the most that keeps the remaining needs fillable. -/

namespace AroHcp.Compute

open GoInt Tally Transport

/-! ## One family gives nodes to one zone -/

section

variable {n : ℕ} {families : Fin n → FamilyQuota} {needed : ZoneNodes} {zone : String} {i : Fin n}

def take (families : Fin n → FamilyQuota) (i : Fin n) (p : ℕ) : Fin n → FamilyQuota :=
  Function.update families i { families i with quotaNodes := (families i).quotaNodes - p }

@[simp] theorem metadata_take (families : Fin n → FamilyQuota) (i j : Fin n) (p : ℕ) :
    (take families i p j).metadata = (families j).metadata := by
  unfold take
  rw [Function.update_apply]
  split_ifs with h
  · rw [h]
  · rfl

theorem quotaNodes_take (families : Fin n → FamilyQuota) (i : Fin n) (p : ℕ) :
    (fun j => (take families i p j).quotaNodes) =
      Function.update (fun j => (families j).quotaNodes) i ((families i).quotaNodes - p) := by
  funext j
  unfold take
  rw [Function.update_apply, Function.update_apply]
  split_ifs <;> rfl

theorem valueAt_insert (needed : ZoneNodes) (zone : String) (nodes : Int) :
    valueAt (needed.insert zone nodes) = Function.update (valueAt needed) zone nodes := by
  funext z
  by_cases hz : z = zone
  · subst hz
    simp [valueAt]
  · rw [valueAt, AList.lookup_insert_ne hz, ← valueAt, Function.update_of_ne hz]

theorem keys_insert_of_mem (hzone : zone ∈ needed) (nodes : Int) :
    (needed.insert zone nodes).keys.toFinset = needed.keys.toFinset := by
  ext z
  rw [List.mem_toFinset, List.mem_toFinset]
  change z ∈ needed.insert zone nodes ↔ z ∈ needed
  rw [AList.mem_insert]
  exact or_iff_right_of_imp fun hz => hz ▸ hzone

theorem fills_take {x : Fin n → String → ℕ} {p : ℕ} (hzone : zone ∈ needed) :
    Fills (take families i p) (needed.insert zone (valueAt needed zone - p)) x ↔
      Serves (fun j z => z ∈ (families j).metadata.zones)
        (Function.update (fun j => (families j).quotaNodes) i ((families i).quotaNodes - p))
        needed.keys.toFinset
        (Function.update (valueAt needed) zone (valueAt needed zone - p)) x := by
  unfold Fills
  rw [quotaNodes_take, valueAt_insert, keys_insert_of_mem hzone]
  simp only [metadata_take]

theorem fills_take_iff {x : Fin n → String → ℕ} {p : ℕ} (hzone : zone ∈ needed)
    (hoffered : zone ∈ (families i).metadata.zones) :
    Fills (take families i p) (needed.insert zone (valueAt needed zone - p)) x ↔
      Fills families needed (give x i zone p) := by
  have hgive : Fills families needed (give x i zone p) ↔
      Serves (fun j z => z ∈ (families j).metadata.zones)
        (Function.update (fun j => (families j).quotaNodes) i ((families i).quotaNodes - p))
        needed.keys.toFinset
        (Function.update (valueAt needed) zone (valueAt needed zone - p)) x :=
    serves_give_iff hoffered (List.mem_toFinset.mpr hzone)
  rw [fills_take hzone, hgive]

abbrev Spent (families : Fin n → FamilyQuota) (needed : ZoneNodes) (i : Fin n) (zone : String) :
    Prop :=
  ∀ x, Fills families needed x → x i zone = 0

theorem Spent.take {j : Fin n} {z : String} (h : Spent families needed j z) (hzone : zone ∈ needed)
    (hoffered : zone ∈ (families i).metadata.zones) (p : ℕ) :
    Spent (take families i p) (needed.insert zone (valueAt needed zone - p)) j z := by
  intro x hx
  have hgive := h _ ((fills_take_iff hzone hoffered).mp hx)
  unfold give at hgive
  omega

theorem spent_of_not_offered (hoffered : zone ∉ (families i).metadata.zones) :
    Spent families needed i zone :=
  exhausted_of_not_reaches hoffered

theorem spent_of_not_fillable (hzone : zone ∈ needed)
    (h : 1 ≤ (families i).quotaNodes → 1 ≤ valueAt needed zone →
      ¬ Fillable (take families i 1) (needed.insert zone (valueAt needed zone - (1 : ℕ)))) :
    Spent families needed i zone := by
  apply exhausted_of_not_serves (List.mem_toFinset.mpr hzone)
  rintro hquota hneeded ⟨x, hx⟩
  exact h hquota hneeded ⟨x, (fills_take hzone).mpr hx⟩

variable {before after : List FamilyQuota}

/-- Family `i` stands between `before` and `after`, and may be replaced there. -/
theorem ofFn_split {q : FamilyQuota} (h : List.ofFn families = before ++ q :: after) :
    ∃ i : Fin n, (i : ℕ) = before.length ∧ families i = q ∧
      ∀ q', List.ofFn (Function.update families i q') = before ++ q' :: after := by
  have hlen : n = before.length + (after.length + 1) := by
    simpa using congrArg List.length h
  refine ⟨⟨before.length, by omega⟩, rfl, ?_, ?_⟩
  · have hget := congrArg (fun l => l[before.length]?) h
    simpa [List.getElem?_ofFn, show before.length < n by omega] using hget
  · intro q'
    have hset : List.ofFn (Function.update families ⟨before.length, by omega⟩ q') =
        (List.ofFn families).set before.length q' := by
      apply List.ext_getElem
      · simp
      · intro k hk hk'
        simp only [List.getElem_ofFn, List.getElem_set, Function.update_apply, Fin.ext_iff]
        simp only [eq_comm (a := k)]
    rw [hset, h]
    simp

/-! ## The inner loop -/

/-- Quotas and needs that no one overdrew, and that still fit together. -/
structure Fair (families : Fin n → FamilyQuota) (needed : ZoneNodes) : Prop where
  fillable : Fillable families needed
  fit : NodesFit families needed

theorem update_le {ι : Type} [DecidableEq ι] {f : ι → Int} {i : ι} (p : ℕ) (j : ι) :
    Function.update f i (f i - p) j ≤ f j := by
  rw [Function.update_apply]
  split_ifs with h
  · rw [h]
    omega
  · exact le_rfl

theorem NodesFit.take {p : ℕ} (h : NodesFit families needed) (hzone : zone ∈ needed)
    (hquota : (p : ℤ) ≤ (families i).quotaNodes) (hneeded : (p : ℤ) ≤ valueAt needed zone) :
    NodesFit (take families i p) (needed.insert zone (valueAt needed zone - p)) where
  quota_nonneg j := by
    have hj := h.quota_nonneg j
    have hval : (Compute.take families i p j).quotaNodes = _ :=
      congrFun (quotaNodes_take families i p) j
    rw [hval, Function.update_apply]
    split_ifs <;> omega
  needed_nonneg z := by
    have hz := h.needed_nonneg z
    rw [valueAt_insert, Function.update_apply]
    split_ifs <;> omega
  quota_sum := by
    rw [quotaNodes_take]
    exact (Finset.sum_le_sum fun j _ => update_le p j).trans h.quota_sum
  needed_sum := by
    rw [keys_insert_of_mem hzone, valueAt_insert]
    exact (Finset.sum_le_sum fun z _ => update_le p z).trans h.needed_sum

theorem take_take (families : Fin n → FamilyQuota) (i : Fin n) (p r : ℕ) :
    Compute.take (Compute.take families i p) i r = Compute.take families i (p + r) := by
  unfold Compute.take
  simp only [Function.update_self, Function.update_idem, Nat.cast_add, sub_sub]

/-- The probe of `mostFillableNodes` in terms of assignments. -/
theorem canFill_take {p : ℕ} (h : NodesFit families needed) (hzone : zone ∈ needed)
    (hupdate : ∀ q', List.ofFn (Function.update families i q') = before ++ q' :: after)
    (hquota : (p : ℤ) ≤ (families i).quotaNodes) (hneeded : (p : ℤ) ≤ valueAt needed zone) :
    canFill (before ++ { families i with quotaNodes := (families i).quotaNodes - p } :: after)
        (needed.insert zone (valueAt needed zone - p)) = true ↔
      Fillable (Compute.take families i p) (needed.insert zone (valueAt needed zone - p)) := by
  rw [← hupdate]
  exact canFill_iff_fillable (h.take hzone hquota hneeded)

/-- A family that has given the most it can is spent for the zone. -/
theorem mostFillableNodes_spec (h : Fair families needed) (hzone : zone ∈ needed)
    (hoffered : zone ∈ (families i).metadata.zones)
    (hupdate : ∀ q', List.ofFn (Function.update families i q') = before ++ q' :: after) :
    ∃ p : ℕ, mostFillableNodes before (families i) after needed zone = p ∧
      Fair (Compute.take families i p) (needed.insert zone (valueAt needed zone - p)) ∧
      Spent (Compute.take families i p) (needed.insert zone (valueAt needed zone - p)) i zone := by
  have hq := h.fit.quota_nonneg i
  have hz := h.fit.needed_nonneg zone
  set bound := (min (valueAt needed zone) (families i).quotaNodes).toNat
  set P : ℕ → Prop := fun p => canFill
    (before ++ { families i with quotaNodes := (families i).quotaNodes - p } :: after)
    (needed.insert zone (valueAt needed zone - p)) = true
  have hfits : ∀ p ≤ bound, (p : ℤ) ≤ (families i).quotaNodes ∧ (p : ℤ) ≤ valueAt needed zone := by
    intro p hp
    omega
  have hprobe : ∀ p ≤ bound, (P p ↔ Fillable (Compute.take families i p)
      (needed.insert zone (valueAt needed zone - p))) :=
    fun p hp => canFill_take h.fit hzone hupdate (hfits p hp).1 (hfits p hp).2
  have hzero : P 0 := by
    refine (hprobe 0 (Nat.zero_le _)).mpr ?_
    obtain ⟨x, hx⟩ := h.fillable
    refine ⟨x, (fills_take_iff hzone hoffered).mpr ?_⟩
    rwa [give_zero]
  have hle : Nat.findGreatest P bound ≤ bound := Nat.findGreatest_le bound
  have hspec : P (Nat.findGreatest P bound) := Nat.findGreatest_spec (Nat.zero_le _) hzero
  refine ⟨Nat.findGreatest P bound, rfl, ?_, ?_⟩
  · exact ⟨(hprobe _ hle).mp hspec, h.fit.take hzone (hfits _ hle).1 (hfits _ hle).2⟩
  · generalize hp : Nat.findGreatest P bound = p at hle hspec
    -- the probe would have accepted one node more
    have hmem : zone ∈ needed.insert zone (valueAt needed zone - p) := by simp
    apply spent_of_not_fillable hmem
    intro hquota hneed
    have hquota' : (p : ℤ) + 1 ≤ (families i).quotaNodes := by
      have hval := congrFun (quotaNodes_take families i p) i
      simp only [Function.update_self] at hval
      omega
    rw [valueAt_insert, Function.update_self] at hneed ⊢
    rw [take_take, AList.insert_insert]
    have hnext : p + 1 ≤ bound := by omega
    have hreject : ¬ P (p + 1) := Nat.findGreatest_is_greatest (by omega) hnext
    rw [hprobe _ hnext] at hreject
    rwa [Nat.cast_add, ← sub_sub] at hreject

def ZoneFilled (n : ℕ) (needed : ZoneNodes) (zone : String)
    (filled : List FamilyQuota × ZoneNodes × List Pool) : Prop :=
  ∃ left : Fin n → FamilyQuota, List.ofFn left = filled.1 ∧ Fair left filled.2.1 ∧
    valueAt filled.2.1 = Function.update (valueAt needed) zone 0 ∧
    ∀ z, z ∈ filled.2.1 ↔ z ∈ needed

/-- The families in `before` have served the zone; the others follow. -/
theorem fillZone_fair (sha256Hex : String → String) (tier : TierConfig) (h : Fair families needed)
    (hzone : zone ∈ needed) (hsplit : List.ofFn families = before ++ after)
    (hspent : ∀ i : Fin n, (i : ℕ) < before.length → Spent families needed i zone) :
    ZoneFilled n needed zone (fillZone sha256Hex tier zone before after needed) := by
  induction after generalizing families before needed with
  | nil =>
    rw [List.append_nil] at hsplit
    refine ⟨families, hsplit, h, ?_, fun _ => Iff.rfl⟩
    obtain ⟨x, hx⟩ := h.fillable
    have hlen : n = before.length := by simpa using congrArg List.length hsplit
    have hzero : valueAt needed zone = 0 := by
      apply demand_eq_zero_of_exhausted hx (List.mem_toFinset.mpr hzone)
      intro i
      exact hspent i (by omega)
    funext z
    rw [Function.update_apply]
    split_ifs with hz
    · rw [← hzero, hz]
      rfl
    · rfl
  | cons q after ih =>
    obtain ⟨i, hi, rfl, hupdate⟩ := ofFn_split hsplit
    have hbefore : ∀ r, (before ++ [r]).length = before.length + 1 := by simp
    unfold fillZone
    dsimp only
    -- a family that gives nothing is spent, and the loop goes on with the same state
    have hskip : Spent families needed i zone → ZoneFilled n needed zone
        (fillZone sha256Hex tier zone (before ++ [families i]) after needed) := by
      intro hi'
      refine ih h hzone ?_ ?_
      · rw [List.append_assoc, List.singleton_append]
        exact hsplit
      · intro j hj
        rw [hbefore] at hj
        rcases Nat.lt_succ_iff_lt_or_eq.mp hj with hj | hj
        · exact hspent j hj
        · rwa [Fin.ext (hj.trans hi.symm)]
    by_cases hoffered : zone ∈ (families i).metadata.zones
    · obtain ⟨p, hp, hfair, hlast⟩ := mostFillableNodes_spec h hzone hoffered hupdate
      rw [if_pos hoffered, hp]
      split_ifs with hzero
      · refine hskip fun x hx => hlast x ((fills_take_iff hzone hoffered).mpr ?_)
        rwa [Nat.cast_eq_zero.mp hzero, give_zero]
      have hmem : zone ∈ needed.insert zone (valueAt needed zone - p) := by simp
      have hkeys : ∀ z, z ∈ needed.insert zone (valueAt needed zone - p) ↔ z ∈ needed := by
        intro z
        rw [AList.mem_insert]
        exact or_iff_right_of_imp fun hz => hz ▸ hzone
      have hsplit' : List.ofFn (Compute.take families i p) = (before ++
          [{ families i with quotaNodes := (families i).quotaNodes - p }]) ++ after := by
        rw [List.append_assoc, List.singleton_append]
        exact hupdate _
      obtain ⟨left, hleft, hfair', hval, hkeys'⟩ := ih hfair hmem hsplit' (by
        intro j hj
        rw [hbefore] at hj
        rcases Nat.lt_succ_iff_lt_or_eq.mp hj with hj | hj
        · exact (hspent j hj).take hzone hoffered p
        · rwa [Fin.ext (hj.trans hi.symm)])
      rw [valueAt_insert, Function.update_idem] at hval
      exact ⟨left, hleft, hfair', hval, fun z => (hkeys' z).trans (hkeys z)⟩
    · rw [if_neg hoffered, if_pos rfl]
      exact hskip (spent_of_not_offered hoffered)

/-! ## The loop over the zones -/

theorem fillZones_fair (sha256Hex : String → String) (tier : TierConfig)
    (h : Fair families needed) (hint : ∀ z, valueAt needed z ≤ maxInt32) (zones : List String)
    (hzones : ∀ zone ∈ zones, zone ∈ needed) :
    ∃ left unmet, Filled (List.ofFn families) needed left unmet
        (fillZones sha256Hex tier zones (List.ofFn families) needed) ∧
      ∀ zone, valueAt unmet zone = if zone ∈ zones then 0 else valueAt needed zone := by
  induction zones generalizing families needed with
  | nil => exact ⟨_, _, Filled.refl _ _, by simp⟩
  | cons zone rest ih =>
    have hfilled := fillZone_filled sha256Hex tier zone [] (List.ofFn families) hint
    obtain ⟨left, hleft, hfair, hval, hkeys⟩ :=
      fillZone_fair sha256Hex tier h (hzones zone List.mem_cons_self) (List.nil_append _).symm
        (fun i hi => absurd hi (Nat.not_lt_zero _))
    obtain ⟨left', unmet, hrest, hunmet⟩ := ih hfair (fun z => (hfilled.le z).trans (hint z))
      fun z hz => (hkeys z).mpr (hzones z (List.mem_cons_of_mem _ hz))
    rw [hleft] at hrest
    refine ⟨left', unmet, hfilled.trans hrest, ?_⟩
    intro z
    rw [hunmet, hval, Function.update_apply]
    by_cases hz : z = zone
    · simp [hz]
    · simp [hz]

end

/-! ## The choice of the zones -/

/-- A scan that keeps the first best candidate. -/
theorem foldl_best {α β : Type} {score : α → Int} {value : α → β} {choices : List α}
    {best result : β × Int} (h : choices.foldl (fun best choice =>
      if best.2 < score choice then (value choice, score choice) else best) best = result) :
    (result = best ∨ ∃ choice ∈ choices, result = (value choice, score choice)) ∧
      best.2 ≤ result.2 ∧ ∀ choice ∈ choices, score choice ≤ result.2 := by
  induction choices generalizing best with
  | nil => simp [← h]
  | cons choice choices ih =>
    rw [List.foldl_cons] at h
    split_ifs at h with hbetter
    · obtain ⟨hresult, hle, hall⟩ := ih h
      refine ⟨.inr ?_, hbetter.le.trans hle, List.forall_mem_cons.mpr ⟨hle, hall⟩⟩
      rcases hresult with hresult | ⟨other, hmem, hresult⟩
      · exact ⟨choice, List.mem_cons_self, hresult⟩
      · exact ⟨other, List.mem_cons_of_mem _ hmem, hresult⟩
    · obtain ⟨hresult, hle, hall⟩ := ih h
      refine ⟨?_, hle, List.forall_mem_cons.mpr ⟨(not_lt.mp hbetter).trans hle, hall⟩⟩
      rcases hresult with hresult | ⟨other, hmem, hresult⟩
      · exact .inl hresult
      · exact .inr ⟨other, List.mem_cons_of_mem _ hmem, hresult⟩

/-- Zones that a per-zone tier may use: all required ones and as many others as it still lacks. -/
structure TierZones (zones requiredZones : List String) (zoneCount : Int) (T : List String) :
    Prop where
  nodup : T.Nodup
  required : ∀ zone ∈ requiredZones, zone ∈ T
  given : ∀ zone ∈ T, zone ∈ zones ∨ zone ∈ requiredZones
  count : (T.length : Int) = max zoneCount requiredZones.length

theorem mem_evenNodes {zones : List String} {nodes : Int} {zone : String} :
    zone ∈ evenNodes zones nodes ↔ zone ∈ zones := by
  unfold evenNodes
  suffices h : ∀ m : ZoneNodes,
      zone ∈ zones.foldl (fun needed z => needed.insert z nodes) m ↔ zone ∈ zones ∨ zone ∈ m by
    simpa using h ∅
  induction zones with
  | nil => simp
  | cons z rest ih =>
    intro m
    rw [List.foldl_cons, ih, AList.mem_insert, List.mem_cons]
    tauto

theorem keys_evenNodes (zones : List String) (nodes : Int) :
    (evenNodes zones nodes).keys.toFinset = zones.toFinset := by
  ext zone
  rw [List.mem_toFinset, List.mem_toFinset]
  exact mem_evenNodes

theorem valueAt_evenNodes {zones : List String} {nodes : Int} {zone : String} :
    valueAt (evenNodes zones nodes) zone = if zone ∈ zones then nodes else 0 := by
  unfold evenNodes
  suffices h : ∀ m : ZoneNodes, valueAt (zones.foldl (fun needed z => needed.insert z nodes) m) zone =
      if zone ∈ zones then nodes else valueAt m zone by
    simpa [valueAt] using h ∅
  induction zones with
  | nil => simp
  | cons z rest ih =>
    intro m
    rw [List.foldl_cons, ih, valueAt_insert, Function.update_apply]
    by_cases hrest : zone ∈ rest
    · simp [hrest]
    · by_cases hz : zone = z <;> simp [hrest, hz]

section

variable {n : ℕ} {families : Fin n → FamilyQuota} {zones requiredZones T T' : List String}
  {zoneCount : Int}

theorem fillable_evenNodes_congr (hT : ∀ zone, zone ∈ T ↔ zone ∈ T') {nodes : Int} :
    Fillable families (evenNodes T nodes) ↔ Fillable families (evenNodes T' nodes) := by
  have hkeys : (evenNodes T nodes).keys.toFinset = (evenNodes T' nodes).keys.toFinset := by
    rw [keys_evenNodes, keys_evenNodes]
    ext zone
    rw [List.mem_toFinset, List.mem_toFinset, hT]
  have hvalue : valueAt (evenNodes T nodes) = valueAt (evenNodes T' nodes) := by
    funext zone
    simp only [valueAt_evenNodes, hT]
  unfold Fillable Fills
  rw [hkeys, hvalue]

theorem valueAt_evenNodes_nonneg (nodes : ℕ) (zone : String) :
    0 ≤ valueAt (evenNodes T nodes) zone := by
  rw [valueAt_evenNodes]
  split_ifs <;> omega

/-- Even needs of at most `maxNodes` in every zone fit if the target of all zones does. -/
theorem nodesFit_evenNodes (hquota : ∀ i, 0 ≤ (families i).quotaNodes)
    (hsum : ∑ i, (families i).quotaNodes ≤ maxInt64) {maxNodes : Int}
    (hsize : (zones.length : Int) * max maxNodes 0 ≤ maxInt64) {m : ℕ}
    (hm : (m : Int) ≤ max maxNodes 0) : NodesFit families (evenNodes zones m) := by
  refine ⟨hquota, valueAt_evenNodes_nonneg m, hsum, le_trans ?_ hsize⟩
  have hcard : (zones.toFinset.card : Int) ≤ zones.length := by
    exact_mod_cast List.toFinset_card_le zones
  calc ∑ zone ∈ (evenNodes zones m).keys.toFinset, valueAt (evenNodes zones m) zone
      ≤ ∑ zone ∈ (evenNodes zones m).keys.toFinset, (m : Int) := by
        apply Finset.sum_le_sum
        intro zone _
        rw [valueAt_evenNodes]
        split_ifs <;> omega
    _ = zones.toFinset.card * (m : Int) := by rw [keys_evenNodes, Finset.sum_const, nsmul_eq_mul]
    _ ≤ zones.length * max maxNodes 0 := by gcongr

/-- The zones can get this many nodes each, and no greater number up to the target. -/
theorem maxNodesPerZone_spec (hquota : ∀ i, 0 ≤ (families i).quotaNodes)
    (hsum : ∑ i, (families i).quotaNodes ≤ maxInt64) (zones : List String) (maxNodes : Int)
    (hsize : (zones.length : Int) * max maxNodes 0 ≤ maxInt64) :
    ∃ nodes : ℕ, maxNodesPerZone (List.ofFn families) zones maxNodes = nodes ∧
      Fillable families (evenNodes zones nodes) ∧
      ∀ m : ℕ, nodes < m → (m : Int) ≤ maxNodes → ¬ Fillable families (evenNodes zones m) := by
  have hiff : ∀ m : ℕ, (m : Int) ≤ max maxNodes 0 →
      (canFill (List.ofFn families) (evenNodes zones m) = true ↔
        Fillable families (evenNodes zones m)) :=
    fun m hm => canFill_iff_fillable (nodesFit_evenNodes hquota hsum hsize hm)
  have hzero : Fillable families (evenNodes zones (0 : ℕ)) := by
    refine ⟨fun _ _ => 0, fun _ _ _ => rfl, ?_, ?_⟩
    · intro zone _
      rw [valueAt_evenNodes]
      simp
    · intro i
      simpa using hquota i
  have hspec := Nat.findGreatest_spec
    (P := fun m : ℕ => canFill (List.ofFn families) (evenNodes zones m) = true)
    (Nat.zero_le maxNodes.toNat) ((hiff 0 (by simp)).mpr hzero)
  have hle := Nat.findGreatest_le
    (P := fun m : ℕ => canFill (List.ofFn families) (evenNodes zones m) = true) maxNodes.toNat
  refine ⟨_, rfl, (hiff _ (by omega)).mp hspec, ?_⟩
  intro m hlt hle hfill
  exact Nat.findGreatest_is_greatest hlt (by omega) ((hiff m (by omega)).mpr hfill)

/-- The candidates of `bestZones`, up to order, are the zone lists that the tier may use. -/
theorem perm_candidate (hzones : zones.Nodup) (hrequired : requiredZones.Nodup)
    (hT : TierZones zones requiredZones zoneCount T) :
    ∃ extra ∈ combinations (zones.filter fun zone => zone ∉ requiredZones)
      (zoneCount - requiredZones.length).toNat, (requiredZones ++ extra).Perm T := by
  have hextra : ∀ zone, zone ∈ (zones.filter fun zone => zone ∉ requiredZones).filter
      (fun zone => zone ∈ T) ↔ zone ∈ zones ∧ zone ∉ requiredZones ∧ zone ∈ T := by
    intro zone
    simp only [List.mem_filter, decide_eq_true_eq, and_assoc]
  have hperm : (requiredZones ++ (zones.filter fun zone => zone ∉ requiredZones).filter
      (fun zone => zone ∈ T)).Perm T := by
    refine (List.perm_ext_iff_of_nodup ?_ hT.nodup).mpr ?_
    · refine List.nodup_append.mpr ⟨hrequired, (hzones.filter _).filter _, ?_⟩
      rintro a ha b hb rfl
      exact ((hextra a).mp hb).2.1 ha
    · intro zone
      rw [List.mem_append, hextra]
      constructor
      · rintro (hz | hz)
        · exact hT.required zone hz
        · exact hz.2.2
      · intro hz
        by_cases hreq : zone ∈ requiredZones
        · exact .inl hreq
        · exact .inr ⟨(hT.given zone hz).resolve_right hreq, hreq, hz⟩
  refine ⟨_, mem_combinations.mpr ⟨List.filter_sublist, ?_⟩, hperm⟩
  have hlen := hperm.length_eq
  have hcount := hT.count
  rw [List.length_append] at hlen
  omega

theorem tierZones_candidate (hzones : zones.Nodup) (hrequired : requiredZones.Nodup)
    {extra : List String} (hextra : extra ∈ combinations
      (zones.filter fun zone => zone ∉ requiredZones) (zoneCount - requiredZones.length).toNat)
    (hperm : T.Perm (requiredZones ++ extra)) : TierZones zones requiredZones zoneCount T := by
  obtain ⟨hsub, hlen⟩ := mem_combinations.mp hextra
  have hmem : ∀ zone ∈ extra, zone ∈ zones ∧ zone ∉ requiredZones := by
    intro zone hz
    simpa using List.mem_filter.mp (hsub.subset hz)
  refine ⟨hperm.nodup_iff.mpr ?_, ?_, ?_, ?_⟩
  · refine List.nodup_append.mpr ⟨hrequired, (hzones.filter _).sublist hsub, ?_⟩
    rintro a ha b hb rfl
    exact (hmem a hb).2 ha
  · intro zone hz
    exact hperm.mem_iff.mpr (List.mem_append_left _ hz)
  · intro zone hz
    rcases List.mem_append.mp (hperm.mem_iff.mp hz) with hz | hz
    · exact .inr hz
    · exact .inl (hmem zone hz).1
  · have hT := hperm.length_eq
    rw [List.length_append] at hT
    omega

theorem length_le_filter_notMem {xs ys : List String} (hxs : xs.Nodup) :
    xs.length ≤ ys.length + (xs.filter fun x => x ∉ ys).length := by
  have hshared : (xs.filter fun x => x ∈ ys).length ≤ ys.length := by
    apply (List.subperm_of_subset (hxs.filter _) _).length_le
    intro x hx
    simpa using (List.mem_filter.mp hx).2
  have hsplit : xs.length = (xs.filter fun x => x ∈ ys).length +
      (xs.filter fun x => x ∉ ys).length := by
    rw [List.length_eq_length_filter_add fun x => decide (x ∈ ys)]
    simp
  omega

theorem exists_candidate (hzones : zones.Nodup) (hcount : zoneCount ≤ zones.length) :
    ∃ extra, extra ∈ combinations (zones.filter fun zone => zone ∉ requiredZones)
      (zoneCount - requiredZones.length).toNat := by
  have hlen : zones.length ≤ requiredZones.length +
    (zones.filter fun zone => zone ∉ requiredZones).length := length_le_filter_notMem hzones
  refine ⟨(zones.filter fun zone => zone ∉ requiredZones).take
    (zoneCount - requiredZones.length).toNat, mem_combinations.mpr ⟨List.take_sublist _ _, ?_⟩⟩
  rw [List.length_take]
  omega

/-- The chosen zones are allowed, and among the allowed zones none get more nodes each. -/
theorem bestZones_eq (quotas : List FamilyQuota) (hzones : zones.Nodup)
    (hrequired : requiredZones.Nodup) (hcount : zoneCount ≤ zones.length) (maxNodes : Int) :
    ∃ T, bestZones quotas zones requiredZones zoneCount maxNodes =
        (T, maxNodesPerZone quotas T maxNodes) ∧
      TierZones zones requiredZones zoneCount T ∧
      ∀ T', TierZones zones requiredZones zoneCount T' → ∃ T'', T''.Perm T' ∧
        maxNodesPerZone quotas T'' maxNodes ≤ maxNodesPerZone quotas T maxNodes := by
  set candidate : List String → List String := fun extra =>
    (requiredZones ++ extra).insertionSort fun a b => zoneIndex zones a ≤ zoneIndex zones b
  have hcandidate : ∀ extra, (candidate extra).Perm (requiredZones ++ extra) :=
    fun extra => List.perm_insertionSort _ _
  generalize hbest : bestZones quotas zones requiredZones zoneCount maxNodes = best
  obtain ⟨hresult, -, hall⟩ : (best = ([], -1) ∨ ∃ extra ∈ _, best = (candidate extra,
      maxNodesPerZone quotas (candidate extra) maxNodes)) ∧ -1 ≤ best.2 ∧
      ∀ extra ∈ _, maxNodesPerZone quotas (candidate extra) maxNodes ≤ best.2 :=
    foldl_best hbest
  obtain ⟨some, hsome⟩ : ∃ extra, extra ∈ combinations (zones.filter fun zone =>
      zone ∉ requiredZones) (zoneCount - requiredZones.length).toNat :=
    exists_candidate hzones hcount
  -- there is a candidate, and its number is not negative, so the start value is replaced
  obtain ⟨extra, hextra, rfl⟩ := hresult.resolve_left fun hstart => by
    have hle := hall some hsome
    rw [hstart] at hle
    exact absurd hle (by unfold maxNodesPerZone; omega)
  refine ⟨candidate extra, rfl, tierZones_candidate hzones hrequired hextra (hcandidate extra), ?_⟩
  intro T' hT'
  obtain ⟨extra', hextra', hperm⟩ := perm_candidate hzones hrequired hT'
  exact ⟨candidate extra', (hcandidate extra').trans hperm, hall extra' hextra'⟩

/-- The chosen zones are allowed, can get the chosen number of nodes each, and no allowed zones can
get more. -/
theorem bestZones_spec (hquota : ∀ i, 0 ≤ (families i).quotaNodes)
    (hsum : ∑ i, (families i).quotaNodes ≤ maxInt64) (hzones : zones.Nodup)
    (hrequired : requiredZones.Nodup) (hcount : zoneCount ≤ zones.length) (maxNodes : Int)
    (hsize : max zoneCount requiredZones.length * max maxNodes 0 ≤ maxInt64) :
    ∃ T, ∃ nodes : ℕ,
      bestZones (List.ofFn families) zones requiredZones zoneCount maxNodes = (T, (nodes : Int)) ∧
      TierZones zones requiredZones zoneCount T ∧ Fillable families (evenNodes T nodes) ∧
      ∀ T', TierZones zones requiredZones zoneCount T' → ∀ m : ℕ, nodes < m → (m : Int) ≤ maxNodes →
        ¬ Fillable families (evenNodes T' m) := by
  obtain ⟨T, hbest, hT, hmost⟩ :=
    bestZones_eq (List.ofFn families) hzones hrequired hcount maxNodes
  obtain ⟨nodes, hnodes, hfill, -⟩ :=
    maxNodesPerZone_spec hquota hsum T maxNodes (by rwa [hT.count])
  refine ⟨T, nodes, by rw [hbest, hnodes], hT, hfill, fun T' hT' m hlt hm hfill' => ?_⟩
  obtain ⟨T'', hperm, hle⟩ := hmost T' hT'
  obtain ⟨nodes', hnodes', -, hmost'⟩ :=
    maxNodesPerZone_spec hquota hsum T'' maxNodes (by rwa [hperm.length_eq, hT'.count])
  exact hmost' m (by omega) hm ((fillable_evenNodes_congr fun _ => hperm.mem_iff).mpr hfill')

end

/-! ## Per-zone tiers -/

/-- Whole nodes of the tier's families give each zone of `T` this many: a family serves only zones
in which its SKU is offered, and no more nodes than its budget covers. -/
def Feasible (tier : TierConfig) (budgets : FamilyMap) (index : EligibleSKUIndex) (T : List String)
    (nodes : Int) : Prop :=
  ∃ x : VMFamily → String → ℕ,
    (∀ family zone, x family zone ≠ 0 →
      ∃ sku, tierSKU tier family index = some sku ∧ zone ∈ sku.zones) ∧
    (∀ zone ∈ T, ∑ family ∈ tier.familyPriority.toFinset, (x family zone : ℤ) = nodes) ∧
    ∀ family sku, tierSKU tier family index = some sku →
      ∑ zone ∈ T.toFinset, (x family zone : ℤ) ≤ max ((valueAt budgets family).fdiv sku.vcpus) 0

structure Balanced (tier : TierConfig) (zones requiredZones : List String) (budgets : FamilyMap)
    (index : EligibleSKUIndex) (pools : List Pool) (T : List String) (nodes : Int) : Prop where
  tierZones : TierZones zones requiredZones (min tier.poolCount zones.length) T
  offered : ∀ pool ∈ pools, ∃ zone ∈ T, pool.availabilityZones = [zone] ∧
    ∃ sku, tierSKU tier pool.spec.family index = some sku ∧ pool.spec = newVMSpecFromSKU sku ∧
      zone ∈ sku.zones
  even : ∀ zone ∈ T, zoneNodes [zone] pools = nodes
  pos : pools ≠ [] → 1 ≤ nodes
  within : ∀ family sku, tierSKU tier family index = some sku →
    nodesOf family pools ≤ max ((valueAt budgets family).fdiv sku.vcpus) 0
  most : ∀ T', TierZones zones requiredZones (min tier.poolCount zones.length) T' →
    ∀ m, nodes < m → m ≤ tier.maxNodes → ¬ Feasible tier budgets index T' m

theorem max_fdiv (a b : Int) : max (a.fdiv b) 0 = max (a.tdiv b) 0 := by
  have hdiff : a.fdiv b = a.tdiv b - if b ∣ a then 0 else if 0 ≤ a then if 0 ≤ b then 0 else 1
      else if 0 ≤ b then b.sign else 1 + b.sign := Int.fdiv_eq_tdiv
  rcases le_or_gt 0 a with ha | ha <;> rcases le_or_gt 0 b with hb | hb
  · simp only [ha, hb, if_true, ite_self, sub_zero] at hdiff
    rw [hdiff]
  · have hneg : 0 ≤ a.tdiv (-b) := Int.tdiv_nonneg ha (by omega)
    rw [Int.tdiv_neg] at hneg
    split_ifs at hdiff <;> omega
  · have hneg : 0 ≤ (-a).tdiv b := Int.tdiv_nonneg (by omega) hb
    have hsign : 0 ≤ b.sign := Int.sign_nonneg_iff.mpr hb
    rw [Int.neg_tdiv] at hneg
    split_ifs at hdiff <;> omega
  · have hsign : b.sign = -1 := Int.sign_eq_neg_one_of_neg hb
    split_ifs at hdiff <;> omega

section

variable {tier : TierConfig} {zones requiredZones T : List String} {budgets : FamilyMap}
  {index : EligibleSKUIndex} {nodes : Int}

theorem mem_familiesWithQuota {quota : FamilyQuota} :
    quota ∈ familiesWithQuota tier zones budgets index ↔ ∃ family ∈ tier.familyPriority,
      tierSKU tier family index = some quota.metadata ∧ 1 ≤ quota.quotaNodes ∧
        quota.quotaNodes = (valueAt budgets family).tdiv quota.metadata.vcpus := by
  unfold familiesWithQuota
  simp only [List.mem_filterMap, familyQuota_eq_some_iff,
    (perm_familyAllocationOrder tier zones index).mem_iff]

theorem sku_of_mem_familiesWithQuota (hi : IndexSound index) {quota : FamilyQuota}
    (hquota : quota ∈ familiesWithQuota tier zones budgets index) :
    quota.metadata.family ∈ tier.familyPriority ∧
      tierSKU tier quota.metadata.family index = some quota.metadata ∧ 1 ≤ quota.quotaNodes ∧
      quota.quotaNodes =
        max ((valueAt budgets quota.metadata.family).fdiv quota.metadata.vcpus) 0 := by
  obtain ⟨family, hfamily, hsku, h1, hnodes⟩ := mem_familiesWithQuota.mp hquota
  obtain ⟨rfl, -⟩ := tierSKU_eq_some hi hsku
  refine ⟨hfamily, hsku, h1, ?_⟩
  rw [max_fdiv, ← hnodes]
  omega

theorem quotaNodes_nonneg (hi : IndexSound index) {quota : FamilyQuota}
    (hquota : quota ∈ familiesWithQuota tier zones budgets index) : 0 ≤ quota.quotaNodes := by
  have h1 := (sku_of_mem_familiesWithQuota hi hquota).2.2.1
  omega

theorem sum_filterMap_le {α β : Type} {f : α → Option β} {g : β → Int} {bound : α → Int}
    (h : ∀ a, 0 ≤ bound a ∧ ∀ b, f a = some b → g b ≤ bound a) (l : List α) :
    ((l.filterMap f).map g).sum ≤ (l.map bound).sum := by
  induction l with
  | nil => rfl
  | cons a l ih =>
    rw [List.map_cons, List.sum_cons]
    cases hfa : f a with
    | none =>
      rw [List.filterMap_cons_none hfa]
      have h0 := (h a).1
      omega
    | some b =>
      rw [List.filterMap_cons_some hfa, List.map_cons, List.sum_cons]
      have hle := (h a).2 b hfa
      omega

/-- The nodes that the quotas of all the tier's families cover. -/
def quotaTotal (tier : TierConfig) (budgets : FamilyMap) : Int :=
  (tier.familyPriority.map fun family => max ((valueAt budgets family).fdiv tier.cores) 0).sum

theorem sum_quotaNodes_le (hi : IndexSound index) :
    ∑ i, ((familiesWithQuota tier zones budgets index).get i).quotaNodes ≤
      quotaTotal tier budgets := by
  have hsum := Fin.sum_univ_fun_getElem (familiesWithQuota tier zones budgets index)
    FamilyQuota.quotaNodes
  refine hsum.trans_le ?_
  rw [quotaTotal, familiesWithQuota,
    ← ((perm_familyAllocationOrder tier zones index).map _).sum_eq]
  apply sum_filterMap_le
  intro family
  refine ⟨le_max_right _ _, fun quota hquota => ?_⟩
  obtain ⟨hsku, -, hnodes⟩ := familyQuota_eq_some_iff.mp hquota
  rw [hnodes, (tierSKU_eq_some hi hsku).2, max_fdiv]
  exact le_max_left _ _

theorem eq_zero_of_no_quota {x : VMFamily → String → ℕ} {family : VMFamily} {zone : String}
    (hoffered : ∀ family zone, x family zone ≠ 0 →
      ∃ sku, tierSKU tier family index = some sku ∧ zone ∈ sku.zones)
    (hwithin : ∀ family sku, tierSKU tier family index = some sku →
      ∑ z ∈ T.toFinset, (x family z : ℤ) ≤ max ((valueAt budgets family).fdiv sku.vcpus) 0)
    (hfamily : family ∈ tier.familyPriority) (hzone : zone ∈ T)
    (hnone : ∀ quota ∈ familiesWithQuota tier zones budgets index,
      tierSKU tier family index ≠ some quota.metadata) : x family zone = 0 := by
  by_contra hne
  obtain ⟨sku, hsku, -⟩ := hoffered family zone hne
  have hle := hwithin family sku hsku
  have hterm : (x family zone : ℤ) ≤ ∑ z ∈ T.toFinset, (x family z : ℤ) :=
    Finset.single_le_sum (f := fun z => (x family z : ℤ)) (fun _ _ => Int.natCast_nonneg _)
      (List.mem_toFinset.mpr hzone)
  rw [max_fdiv] at hle
  have hquota : 1 ≤ (valueAt budgets family).tdiv sku.vcpus := by omega
  exact hnone ⟨sku, _⟩ (mem_familiesWithQuota.mpr ⟨family, hfamily, hsku, hquota, rfl⟩) hsku

theorem fillable_of_feasible (hi : IndexSound index) (hn : tier.familyPriority.Nodup)
    (h : Feasible tier budgets index T nodes) :
    Fillable (familiesWithQuota tier zones budgets index).get (evenNodes T nodes) := by
  obtain ⟨x, hoffered, hmet, hwithin⟩ := h
  set quotas := familiesWithQuota tier zones budgets index
  have hmem : ∀ i, quotas.get i ∈ quotas := List.get_mem quotas
  have hsku := fun i => sku_of_mem_familiesWithQuota hi (hmem i)
  have hkeys := keys_evenNodes T nodes
  refine ⟨fun i zone => x (quotas.get i).metadata.family zone, ?_, ?_, ?_⟩
  · intro i zone hzone
    by_contra hne
    obtain ⟨sku, hsome, hz⟩ := hoffered _ _ hne
    rw [(hsku i).2.1] at hsome
    cases hsome
    exact hzone hz
  · intro zone hzone
    rw [hkeys, List.mem_toFinset] at hzone
    rw [valueAt_evenNodes, if_pos hzone, ← hmet zone hzone]
    apply Finset.sum_of_injOn fun i => (quotas.get i).metadata.family
    · intro i _ j _ hij
      have hnodup : (quotas.map fun quota => quota.metadata.family).Nodup :=
        nodup_familiesWithQuota hi hn
      have hinj := List.nodup_iff_injective_get.mp hnodup
      have hcast : (Fin.cast (by simp) i : Fin (quotas.map fun quota =>
          quota.metadata.family).length) = Fin.cast (by simp) j := hinj (by simpa using hij)
      simpa [Fin.ext_iff] using hcast
    · intro i _
      exact List.mem_toFinset.mpr (hsku i).1
    · intro family hfamily hnot
      have hnone : ∀ quota ∈ familiesWithQuota tier zones budgets index,
          tierSKU tier family index ≠ some quota.metadata := by
        intro quota hquota hsome
        obtain ⟨i, rfl⟩ := List.get_of_mem hquota
        exact hnot ⟨i, Finset.mem_coe.mpr (Finset.mem_univ i), (tierSKU_eq_some hi hsome).1⟩
      rw [Nat.cast_eq_zero]
      exact eq_zero_of_no_quota hoffered hwithin (List.mem_toFinset.mp hfamily) hzone hnone
    · intro i _
      rfl
  · intro i
    rw [hkeys, (hsku i).2.2.2]
    exact hwithin _ _ (hsku i).2.1

theorem nodesOf_le_of_filled (hi : IndexSound index) (hn : tier.familyPriority.Nodup)
    {needed unmet : ZoneNodes} {left : List FamilyQuota} {pools : List Pool}
    (h : Filled (familiesWithQuota tier zones budgets index) needed left unmet pools)
    {family : VMFamily} {sku : SKUMetadata} (hsku : tierSKU tier family index = some sku) :
    nodesOf family pools ≤ max ((valueAt budgets family).fdiv sku.vcpus) 0 := by
  have hleft : 0 ≤ quotaOf family left :=
    sumAt_nonneg (h.nonneg fun quota hquota => quotaNodes_nonneg hi hquota)
  have hle : quotaOf family (familiesWithQuota tier zones budgets index) ≤
      max ((valueAt budgets family).fdiv sku.vcpus) 0 := by
    by_cases hsome : ∃ quota ∈ familiesWithQuota tier zones budgets index,
        quota.metadata.family = family
    · obtain ⟨quota, hquota, rfl⟩ := hsome
      obtain ⟨-, hquotaSKU, -, hnodes⟩ := sku_of_mem_familiesWithQuota hi hquota
      rw [hsku] at hquotaSKU
      cases hquotaSKU
      rw [quotaOf, sumAt_of_mem (nodup_familiesWithQuota hi hn) hquota, hnodes]
    · rw [quotaOf, sumAt_eq_zero fun quota hquota hfamily => hsome ⟨quota, hquota, hfamily⟩]
      exact le_max_right _ _
  have hsum := h.quota family
  omega

end

/-- A per-zone tier gets the same number of nodes in every zone it uses, and the most that any zones
it may use allow, if its quotas and its node targets add up to `int64` numbers. -/
theorem allocatePerZoneTier_balanced (sha256Hex : String → String) (tier : TierConfig)
    (zones requiredZones : List String) (budgets : FamilyMap)
    (skuMetadata : AList fun _ : String => SKUMetadata) (hn : tier.familyPriority.Nodup)
    (hmax : tier.maxNodes ≤ maxInt32) (hzones : zones.Nodup) (hrequired : requiredZones.Nodup)
    (hquotas : quotaTotal tier budgets ≤ maxInt64)
    (hsize : max (min tier.poolCount zones.length) requiredZones.length * max tier.maxNodes 0 ≤
      maxInt64) :
    ∃ T nodes, Balanced tier zones requiredZones budgets (buildEligibleSKUIndex skuMetadata)
      (allocatePerZoneTier sha256Hex tier zones requiredZones budgets
        (buildEligibleSKUIndex skuMetadata)).1 T nodes := by
  have hi := indexSound_build skuMetadata
  generalize buildEligibleSKUIndex skuMetadata = index at hi ⊢
  unfold allocatePerZoneTier
  dsimp only
  split_ifs with hnone
  · -- no zones at all: nothing is allocated, and the empty choice allows any number
    obtain ⟨hcount, rfl⟩ : min tier.poolCount (zones.length : Int) = 0 ∧ requiredZones = [] := by
      simpa using hnone
    refine ⟨[], max tier.maxNodes 0, ⟨by simp, by simp, by simp, by simp [hcount]⟩, by simp,
      by simp, by simp, ?_, ?_⟩
    · intro family sku _
      simp [nodesOf]
    · intro T' _ m hlt hle
      omega
  · have hquota : ∀ i, 0 ≤ ((familiesWithQuota tier zones budgets index).get i).quotaNodes :=
      fun i => quotaNodes_nonneg hi (List.get_mem _ i)
    have hsum : ∑ i, ((familiesWithQuota tier zones budgets index).get i).quotaNodes ≤ maxInt64 :=
      (sum_quotaNodes_le hi).trans hquotas
    obtain ⟨T, nodes, hbest, hT, hfill, hmost⟩ := bestZones_spec hquota hsum hzones hrequired
      (min_le_right tier.poolCount (zones.length : Int)) tier.maxNodes hsize
    rw [List.ofFn_get] at hbest
    have hbound := bestZones_le (familiesWithQuota tier zones budgets index) zones requiredZones
      (min tier.poolCount zones.length) tier.maxNodes
    rw [hbest] at hbound ⊢
    have hint : ∀ z, valueAt (evenNodes T (nodes : Int)) z ≤ maxInt32 := by
      refine valueAt_evenNodes_le T (by decide) (hbound.trans (max_le hmax (by decide)))
    have hfair : Fair (familiesWithQuota tier zones budgets index).get (evenNodes T nodes) :=
      ⟨hfill, nodesFit_evenNodes hquota hsum (hT.count ▸ hsize) hbound⟩
    obtain ⟨left, unmet, hfilled, hunmet⟩ := fillZones_fair sha256Hex tier hfair hint T
      fun zone hzone => mem_evenNodes.mpr hzone
    have hin : ∀ pool ∈ fillZones sha256Hex tier T (familiesWithQuota tier zones budgets index)
        (evenNodes T nodes), ZonalPool sha256Hex tier
          ((familiesWithQuota tier zones budgets index).map FamilyQuota.metadata) T pool :=
      fun pool => zonalPool_of_mem_fillZones
    rw [List.ofFn_get] at hfilled
    generalize fillZones sha256Hex tier T (familiesWithQuota tier zones budgets index)
      (evenNodes T nodes) = pools at hfilled hin ⊢
    have heven : ∀ zone ∈ T, zoneNodes [zone] pools = nodes := by
      intro zone hzone
      have hsum := hfilled.zones zone
      rw [hunmet, if_pos hzone, valueAt_evenNodes, if_pos hzone] at hsum
      omega
    refine ⟨T, nodes, hT, ?_, heven, ?_, ?_, ?_⟩
    · intro pool hpool
      obtain ⟨sku, hsku, zone, hzone, hoffered, m, -, rfl⟩ := hin pool hpool
      obtain ⟨quota, hquota, rfl⟩ := List.mem_map.mp hsku
      exact ⟨zone, hzone, rfl, quota.metadata, (sku_of_mem_familiesWithQuota hi hquota).2.1, rfl,
        hoffered⟩
    · intro hne
      obtain ⟨pool, hpool⟩ := List.exists_mem_of_ne_nil _ hne
      obtain ⟨sku, -, zone, hzone, -, m, -, hliteral⟩ := hin pool hpool
      have hzonal : pool.availabilityZones = [zone] := by rw [hliteral]; rfl
      have hpos : 0 < zoneNodes pool.availabilityZones pools := by
        refine sumAt_pos (fun p hp => ?_) hpool
        have hcount := hfilled.counts p hp
        omega
      rw [hzonal, heven zone hzone] at hpos
      omega
    · intro family sku hsku
      exact nodesOf_le_of_filled hi hn hfilled hsku
    · intro T' hT' m hlt hle hfeasible
      lift m to ℕ using by omega
      exact hmost T' hT' m (by omega) hle (fillable_of_feasible hi hn hfeasible)

def zonalTier (families : List VMFamily) (maxNodes : Int) : TierConfig :=
  ⟨"wrk", workerClass, .perZone, 4, 64, maxNodes, 0, families, 225, false, 1⟩

/-- Two required zones and 12 vCPUs: one node each, since a second one needs 16. -/
theorem allocatePerZoneTier_balanced_required :
    let tier := zonalTier ["standardDFamily"] 2
    let pools := (allocatePerZoneTier (fun _ => "000000") tier ["1", "2"] ["2", "1"]
      (AList.singleton "standardDFamily" 12) (buildEligibleSKUIndex sampleSKUs)).1
    pools.map (fun p => (p.availabilityZones, p.maxCount)) = [(["1"], 1), (["2"], 1)] ∧
      ∃ T nodes, Balanced tier ["1", "2"] ["2", "1"] (AList.singleton "standardDFamily" 12)
        (buildEligibleSKUIndex sampleSKUs) pools T nodes :=
  ⟨by decide +kernel, allocatePerZoneTier_balanced _ _ _ _ _ _ (by decide) (by decide) (by decide)
    (by decide) (by decide) (by decide)⟩

theorem feasible_one_zone {tier : TierConfig} {budgets : FamilyMap} {index : EligibleSKUIndex}
    {family : VMFamily} {sku : SKUMetadata} {zone : String} (hfamily : family ∈ tier.familyPriority)
    (hsku : tierSKU tier family index = some sku) (hzone : zone ∈ sku.zones)
    (hbudget : 1 ≤ (valueAt budgets family).fdiv sku.vcpus) :
    Feasible tier budgets index [zone] 1 := by
  refine ⟨fun f z => if f = family ∧ z = zone then 1 else 0, ?_, ?_, ?_⟩
  · intro f z hne
    obtain ⟨rfl, rfl⟩ : f = family ∧ z = zone := by simpa using hne
    exact ⟨sku, hsku, hzone⟩
  · intro z hz
    simp [hfamily, List.mem_singleton.mp hz]
  · intro f sku' hsku'
    by_cases hf : f = family
    · subst hf
      rw [hsku] at hsku'
      cases hsku'
      simpa using hbudget
    · simp [hf]

def BalancedOneZone (tier : TierConfig) (budgets : FamilyMap)
    (skus : AList fun _ : String => SKUMetadata) : Prop :=
  ∃ T nodes, Balanced tier ["1"] [] budgets (buildEligibleSKUIndex skus)
    (allocatePerZoneTier (fun _ => "000000") tier ["1"] [] budgets (buildEligibleSKUIndex skus)).1
      T nodes

theorem not_balanced_of_feasible {tier : TierConfig} {budgets : FamilyMap}
    {skus : AList fun _ : String => SKUMetadata} (hcount : tier.poolCount = 1)
    (hmax : 1 ≤ tier.maxNodes) (hnone : zoneNodes ["1"] (allocatePerZoneTier (fun _ => "000000") tier
      ["1"] [] budgets (buildEligibleSKUIndex skus)).1 < 1)
    (hone : Feasible tier budgets (buildEligibleSKUIndex skus) ["1"] 1) :
    ¬ BalancedOneZone tier budgets skus := by
  rintro ⟨T, nodes, h⟩
  have hzone : "1" ∈ T := by
    have hlen : (T.length : Int) = 1 := by rw [h.tierZones.count, hcount]; rfl
    obtain ⟨zone, hmem⟩ := List.exists_mem_of_length_pos (by omega : 0 < T.length)
    have hgiven : zone = "1" := by simpa using h.tierZones.given zone hmem
    exact hgiven ▸ hmem
  rw [h.even "1" hzone] at hnone
  refine h.most ["1"] ?_ 1 hnone hmax hone
  rw [hcount]
  exact ⟨by decide, by decide, by decide, by decide⟩

def fiveFamilies : List VMFamily := ["A", "B", "C", "D", "E"]

def fiveFamilySKUs : AList fun _ : String => SKUMetadata :=
  fiveFamilies.foldl (fun skus family => skus.insert family { sampleSKU family 4 with family }) ∅

/-- A family listed twice has its quota counted twice, a node target beyond `int32` wraps, and so
does the sum of the quotas of five families without a limit. -/
theorem allocatePerZoneTier_unbalanced :
    ¬ BalancedOneZone (zonalTier ["standardDFamily", "standardDFamily"] 2)
        (AList.singleton "standardDFamily" 4) sampleSKUs ∧
      ¬ BalancedOneZone (zonalTier ["standardDFamily"] 2147483648)
        (AList.singleton "standardDFamily" 8589934592) sampleSKUs ∧
      ¬ BalancedOneZone (zonalTier fiveFamilies 2) (evenNodes fiveFamilies maxInt64)
        fiveFamilySKUs := by
  refine ⟨?_, ?_, ?_⟩
  · rintro ⟨T, nodes, h⟩
    have hwithin := h.within "standardDFamily" (sampleSKU "D4" 4) (by decide +kernel)
    revert hwithin
    decide +kernel
  · have hsku : tierSKU (zonalTier ["standardDFamily"] 2147483648) "standardDFamily"
        (buildEligibleSKUIndex sampleSKUs) = some (sampleSKU "D4" 4) := by decide +kernel
    exact not_balanced_of_feasible rfl (by decide) (by decide +kernel)
      (feasible_one_zone (List.mem_singleton.mpr rfl) hsku (by decide) (by decide))
  · have hsku : tierSKU (zonalTier fiveFamilies 2) "A" (buildEligibleSKUIndex fiveFamilySKUs) =
        some { sampleSKU "A" 4 with family := "A" } := by decide +kernel
    exact not_balanced_of_feasible rfl (by decide) (by decide +kernel)
      (feasible_one_zone (by decide) hsku (by decide) (by decide +kernel))

end AroHcp.Compute
