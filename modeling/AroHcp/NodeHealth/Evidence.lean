import AroHcp.NodeHealth.Detectors
import Mathlib.Data.List.Induction
import Mathlib.Order.Lattice

/-! How the decisions depend on the evidence, and whether the verdict on a node that was never Ready
is true. -/

namespace AroHcp.NodeHealth

/-! ## Loops that do not depend on the order -/

/-- The index that is kept is the lowest of the items of the pod. -/
def Lowest (items : List (String × Nat)) (uid : String) : Option Nat → Prop
  | none => ∀ i, (uid, i) ∉ items
  | some i => (uid, i) ∈ items ∧ ∀ j, (uid, j) ∈ items → i ≤ j

theorem note_apply (f : String → Option Nat) (item : String × Nat) (uid : String) :
    note f item uid = if uid = item.1 ∧ (f uid).all (item.2 < ·) then some item.2 else f uid := by
  unfold note
  by_cases hu : uid = item.1
  · subst hu
    split_ifs <;> simp_all
  · split_ifs <;> simp_all

theorem lowest_foldl_note (items : List (String × Nat)) (uid : String) :
    Lowest items uid (items.foldl note (fun _ => none) uid) := by
  induction items using List.reverseRecOn with
  | nil => exact fun _ => List.not_mem_nil
  | append_singleton items item ih =>
    rw [List.foldl_append, List.foldl_cons, List.foldl_nil, note_apply]
    cases h : items.foldl note (fun _ => none) uid with
    | none => grind [Lowest]
    | some i => grind [Lowest]

theorem Lowest.unique {items items' : List (String × Nat)} {uid : String} {o o' : Option Nat}
    (h : Lowest items uid o) (h' : Lowest items' uid o')
    (hmem : ∀ item, item ∈ items ↔ item ∈ items') :
    o = o' := by
  cases o <;> cases o' <;> grind [Lowest]

/-- Times of which some are missing and the others come after the zero time. -/
def Mixed (P : Time → Prop) : Prop :=
  P 0 ∧ (∃ t, P t ∧ 0 < t) ∧ ∀ t, P t → 0 ≤ t

theorem foldl_earlier_mem (times : List Time) (h : times ≠ []) : times.foldl earlier 0 ∈ times := by
  induction times using List.reverseRecOn with
  | nil => exact absurd rfl h
  | append_singleton times t ih =>
    rw [List.foldl_append, List.foldl_cons, List.foldl_nil, earlier]
    cases times with
    | nil => simp
    | cons s rest =>
      have := ih (List.cons_ne_nil s rest)
      split_ifs
      · simp
      · exact List.mem_append_left _ this

theorem foldl_earlier_le (times : List Time) (h : ¬Mixed (· ∈ times)) :
    ∀ t ∈ times, times.foldl earlier 0 ≤ t := by
  induction times using List.reverseRecOn with
  | nil => simp
  | append_singleton times t ih =>
    rw [List.foldl_append, List.foldl_cons, List.foldl_nil]
    have hmem := foldl_earlier_mem times
    generalize times.foldl earlier 0 = s at ih hmem
    by_cases hmixed : Mixed (· ∈ times)
    · -- the list was mixed, so that the last time comes before the zero time and is the oldest
      obtain ⟨hzero, ⟨p, hp, hpos⟩, hnonneg⟩ := hmixed
      have ht : t < 0 := by
        by_contra hle
        refine h ⟨List.mem_append_left _ hzero, ⟨p, List.mem_append_left _ hp, hpos⟩, ?_⟩
        grind
      grind [earlier]
    · intro t' ht'
      have hle := ih hmixed
      by_contra hlt
      have ht't : t' ∈ times ∧ s = 0 ∧ t' < t := by grind [earlier]
      obtain ⟨hmem', rfl, hlt'⟩ := ht't
      have hzero : 0 ∈ times := hmem (List.ne_nil_of_mem hmem')
      have ht : 0 < t := lt_of_le_of_lt (hle t' hmem') hlt'
      refine h ⟨List.mem_append_left _ hzero, ⟨t, by simp, ht⟩, ?_⟩
      grind

theorem foldl_earlier_perm {times times' : List Time} (h : ¬Mixed (· ∈ times))
    (hperm : times'.Perm times) : times'.foldl earlier 0 = times.foldl earlier 0 := by
  have h' : ¬Mixed (· ∈ times') := by
    simpa only [hperm.mem_iff] using h
  cases times with
  | nil => rw [hperm.eq_nil]
  | cons t rest =>
    have hmem := foldl_earlier_mem (t :: rest) (List.cons_ne_nil t rest)
    have hmem' := foldl_earlier_mem times' (List.ne_nil_of_mem (hperm.mem_iff.mpr hmem))
    exact le_antisymm (foldl_earlier_le _ h' _ (hperm.mem_iff.mpr hmem))
      (foldl_earlier_le _ h _ (hperm.mem_iff.mp hmem'))

/-- A missing time at the end is what comes out, and a time right after one is too. -/
theorem foldl_earlier_mixed {times : List Time} (h : ∀ t ∈ times, 0 ≤ t) {p : Time} (hp : 0 < p) :
    (times ++ [p, 0]).foldl earlier 0 = 0 ∧ (times ++ [0, p]).foldl earlier 0 = p := by
  have hs : 0 ≤ times.foldl earlier 0 := by
    cases times with
    | nil => exact le_rfl
    | cons t rest => exact h _ (foldl_earlier_mem _ (List.cons_ne_nil t rest))
  simp only [List.foldl_append, List.foldl_cons, List.foldl_nil]
  generalize times.foldl earlier 0 = s at hs
  grind [earlier]

/-! ## One detector -/

namespace SignatureDetector

variable (lib : GoLib) (d : SignatureDetector) (now : Time) (events : List (Option Event))
  (pods : List (Option Pod))

def countedPods : List (Nat × Time) :=
  pods.reduceOption.filterMap (counted (d.failing lib now events.reduceOption))

/-- The pod counts towards the floor. -/
def sustained (p : Pod) : Bool :=
  ((counted (d.failing lib now events.reduceOption) p).map fun c =>
    (d.dwell ≤ now - c.2 : Bool)).getD false

/-- The pod cannot start since the given time, and a matching event in the window is about it. -/
structure Stuck (p : Pod) (since : Time) : Prop where
  undeleted : p.deletionTimestamp = none
  stuck : stuckSince p = some since
  subject : ∃ ev, some ev ∈ events ∧ ev.kind = "Pod" ∧ ev.uid = p.uid ∧ ev.uid ≠ "" ∧
    ev.reason = d.eventReason ∧ (∃ sig ∈ d.signatures, lib.matchString sig ev.message) ∧
    now - d.window ≤ eventLastTime ev

def StuckAt (since : Time) : Prop :=
  ∃ p, some p ∈ pods ∧ Stuck lib d now events p since

structure Fired : Prop where
  floor : ∃ stuck : List Pod, stuck.Sublist pods.reduceOption ∧ d.failuresFloor ≤ stuck.length ∧
    ∀ p ∈ stuck, ∃ since, Stuck lib d now events p since ∧ d.dwell ≤ now - since
  noSuccess : d.requireZeroSuccess → ∀ p, some p ∈ pods → d.isSuccess now p = false

variable {lib d now events pods} {events' : List (Option Event)} {pods' : List (Option Pod)}

theorem foldl_see (failing : String → Option Nat) (pods : List Pod) (seen : Seen) :
    pods.foldl (d.see now failing) seen =
      { evidence :=
          { failureCount := seen.evidence.failureCount + (pods.filterMap (counted failing)).length
            sustainedCount := seen.evidence.sustainedCount +
              (pods.filterMap (counted failing)).countP (fun c => d.dwell ≤ now - c.2)
            recentSuccess := seen.evidence.recentSuccess || pods.any (d.isSuccess now) }
        stuckSince := ((pods.filterMap (counted failing)).map (·.2)).foldl earlier seen.stuckSince
        sigCounts := (pods.filterMap (counted failing)).foldl
          (fun counts c => counts.modify c.1 (· + 1)) seen.sigCounts } := by
  induction pods generalizing seen with
  | nil => simp
  | cons p pods ih =>
    rw [List.foldl_cons, ih]
    unfold see
    cases h : counted failing p with
    | none => simp [h, Bool.or_assoc]
    | some c => simp [h, Bool.or_assoc, List.countP_cons, Nat.add_assoc, Nat.add_comm]

theorem evaluate_pods : (d.evaluate lib now events pods).pods = some
    { failureCount := (d.countedPods lib now events pods).length
      sustainedCount := (d.countedPods lib now events pods).countP (fun c => d.dwell ≤ now - c.2)
      recentSuccess := pods.reduceOption.any (d.isSuccess now) } := by
  simp [evaluate, foldl_see, countedPods]

theorem evaluate_stuckSince : (d.evaluate lib now events pods).stuckSince =
    ((d.countedPods lib now events pods).map (·.2)).foldl earlier 0 := by
  simp [evaluate, foldl_see, countedPods]

theorem lowest_failing (events : List Event) (uid : String) :
    Lowest (events.filterMap (d.classify lib now)) uid (d.failing lib now events uid) :=
  lowest_foldl_note _ uid

theorem failing_congr {events events' : List Event} (h : ∀ ev, ev ∈ events' ↔ ev ∈ events) :
    d.failing lib now events' = d.failing lib now events := by
  funext uid
  refine (lowest_failing events' uid).unique (lowest_failing ..) fun item => ?_
  simp only [List.mem_filterMap, h]

theorem countedPods_perm (hpods : pods'.Perm pods) (hevents : ∀ ev, ev ∈ events' ↔ ev ∈ events) :
    (d.countedPods lib now events' pods').Perm (d.countedPods lib now events pods) := by
  have hfailing : d.failing lib now events'.reduceOption = d.failing lib now events.reduceOption :=
    failing_congr fun ev => by simp only [List.reduceOption_mem_iff, hevents]
  unfold countedPods
  rw [hfailing]
  exact (hpods.filterMap id).filterMap _

theorem modify_comm (counts : List Nat) (i j : Nat) :
    (counts.modify i (· + 1)).modify j (· + 1) = (counts.modify j (· + 1)).modify i (· + 1) := by
  apply List.ext_getElem?
  intro k
  simp only [List.getElem?_modify]
  cases counts[k]? <;> grind

/-- Only the time since when the pods are stuck can depend on the order. -/
theorem evaluate_perm (hpods : pods'.Perm pods)
    (hevents : ∀ ev, ev ∈ events' ↔ ev ∈ events) :
    { d.evaluate lib now events' pods' with
      stuckSince := (d.evaluate lib now events pods).stuckSince } =
      d.evaluate lib now events pods := by
  have hperm : (d.countedPods lib now events' pods').Perm (d.countedPods lib now events pods) :=
    countedPods_perm hpods hevents
  have hcounts := hperm.foldl_eq' (f := fun counts c => counts.modify c.1 (· + 1))
    (fun a _ b _ counts => modify_comm counts a.1 b.1) (d.signatures.map fun _ => 0)
  have hany : pods'.reduceOption.any (d.isSuccess now) = pods.reduceOption.any (d.isSuccess now) :=
    (hpods.filterMap id).any_eq
  unfold countedPods at hperm hcounts
  unfold evaluate
  simp only [foldl_see, hperm.length_eq, hperm.countP_eq, hcounts, hany]

theorem stuck_of_counted {p : Pod} {idx : Nat} {since : Time}
    (h : counted (d.failing lib now events.reduceOption) p = some (idx, since)) :
    Stuck lib d now events p since := by
  have hcounted : p.deletionTimestamp = none ∧ stuckSince p = some since ∧
      d.failing lib now events.reduceOption p.uid = some idx := by
    unfold counted at h
    grind [Option.map_eq_some_iff, Option.not_isSome_iff_eq_none]
  obtain ⟨hundeleted, hsince, hfailing⟩ := hcounted
  have hlow : Lowest _ _ (d.failing lib now events.reduceOption p.uid) := lowest_failing ..
  rw [hfailing] at hlow
  obtain ⟨ev, hev, hclass⟩ := List.mem_filterMap.mp hlow.1
  refine ⟨hundeleted, hsince, ev, List.reduceOption_mem_iff.mp hev, ?_⟩
  unfold classify at hclass
  cases hmatch : d.matchSignature lib ev.message with
  | none => grind
  | some i =>
    have hsig := List.findIdx?_eq_some_iff_getElem.mp hmatch
    grind

theorem counted_of_stuck {p : Pod} {since : Time} (h : Stuck lib d now events p since) :
    ∃ idx, counted (d.failing lib now events.reduceOption) p = some (idx, since) := by
  obtain ⟨hundeleted, hsince, ev, hev, hkind, huid, hne, hreason, ⟨sig, hsig, hmatch⟩, hwindow⟩ := h
  have hclass : ∃ i, d.classify lib now ev = some (p.uid, i) := by
    cases hidx : d.matchSignature lib ev.message with
    | none => exact absurd hmatch (by simpa using List.findIdx?_eq_none_iff.mp hidx sig hsig)
    | some i => exact ⟨i, by simp [classify, hkind, hreason, hidx, ← huid, hne, not_lt.mpr hwindow]⟩
  obtain ⟨i, hclass⟩ := hclass
  have hitem := List.mem_filterMap.mpr ⟨ev, List.reduceOption_mem_iff.mpr hev, hclass⟩
  have hlow : Lowest _ _ (d.failing lib now events.reduceOption p.uid) := lowest_failing ..
  cases hfailing : d.failing lib now events.reduceOption p.uid with
  | none =>
    rw [hfailing] at hlow
    exact absurd hitem (hlow i)
  | some idx => exact ⟨idx, by simp [counted, hundeleted, hfailing, hsince]⟩

theorem mem_countedPods_iff {t : Time} :
    t ∈ (d.countedPods lib now events pods).map (·.2) ↔ d.StuckAt lib now events pods t := by
  constructor
  · intro h
    obtain ⟨⟨idx, _⟩, hc, rfl⟩ := List.mem_map.mp h
    obtain ⟨p, hp, hcounted⟩ := List.mem_filterMap.mp hc
    exact ⟨p, List.reduceOption_mem_iff.mp hp, stuck_of_counted hcounted⟩
  · rintro ⟨p, hp, hstuck⟩
    obtain ⟨idx, hcounted⟩ := counted_of_stuck hstuck
    exact List.mem_map.mpr ⟨(idx, t), List.mem_filterMap.mpr
      ⟨p, List.reduceOption_mem_iff.mpr hp, hcounted⟩, rfl⟩

theorem evaluate_eq_of_not_mixed (hpods : pods'.Perm pods)
    (hevents : ∀ ev, ev ∈ events' ↔ ev ∈ events)
    (h : ¬Mixed (d.StuckAt lib now events pods)) :
    d.evaluate lib now events' pods' = d.evaluate lib now events pods := by
  have hsince : (d.evaluate lib now events pods).stuckSince =
      (d.evaluate lib now events' pods').stuckSince := by
    have hmem : ¬Mixed (· ∈ (d.countedPods lib now events pods).map (·.2)) := by
      simpa only [mem_countedPods_iff] using h
    rw [evaluate_stuckSince, evaluate_stuckSince]
    exact (foldl_earlier_perm hmem ((countedPods_perm hpods hevents).map _)).symm
  rw [← evaluate_perm hpods hevents, hsince]

theorem countedPods_append {rest : List (Option Pod)} {a b : Pod} {c c' : Nat × Time}
    (ha : counted (d.failing lib now events.reduceOption) a = some c)
    (hb : counted (d.failing lib now events.reduceOption) b = some c') :
    d.countedPods lib now events (rest ++ [some a, some b]) =
      d.countedPods lib now events rest ++ [c, c'] := by
  simp [countedPods, List.reduceOption_append, ha, hb]

/-- The zero time is the earliest or is lost, as the pods are ordered. -/
theorem exists_perm_of_mixed (h : Mixed (d.StuckAt lib now events pods)) :
    ∃ podsA podsB, podsA.Perm pods ∧ podsB.Perm pods ∧
      (d.evaluate lib now events podsA).stuckSince ≠
        (d.evaluate lib now events podsB).stuckSince := by
  obtain ⟨hzero, ⟨t, ht, hpos⟩, hnonneg⟩ := h
  rw [← mem_countedPods_iff] at hzero ht
  simp only [← mem_countedPods_iff] at hnonneg
  obtain ⟨⟨i, _⟩, hi, rfl⟩ := List.mem_map.mp hzero
  obtain ⟨⟨j, _⟩, hj, rfl⟩ := List.mem_map.mp ht
  obtain ⟨a, ha, hca⟩ := List.mem_filterMap.mp hi
  obtain ⟨b, hb, hcb⟩ := List.mem_filterMap.mp hj
  have hne : some b ≠ some a := by
    rintro ⟨⟩
    grind
  have hrest := (List.perm_cons_erase (List.reduceOption_mem_iff.mp ha)).trans
    ((List.perm_cons_erase ((List.mem_erase_of_ne hne).mpr
      (List.reduceOption_mem_iff.mp hb))).cons _)
  generalize (pods.erase (some a)).erase (some b) = rest at hrest
  have hlast : (rest ++ [some b, some a]).Perm pods :=
    (List.perm_append_comm.trans (List.Perm.swap _ _ rest)).trans hrest.symm
  have hswap : (rest ++ [some a, some b]).Perm pods := List.perm_append_comm.trans hrest.symm
  have hnonneg' : ∀ t ∈ (d.countedPods lib now events rest).map (·.2), 0 ≤ t := by
    intro t' ht'
    refine hnonneg t' (((countedPods_perm hlast fun _ => Iff.rfl).map _).subset ?_)
    rw [countedPods_append hcb hca, List.map_append]
    exact List.mem_append_left _ ht'
  obtain ⟨hzero', hpos'⟩ := foldl_earlier_mixed hnonneg' hpos
  refine ⟨_, _, hlast, hswap, ?_⟩
  rw [evaluate_stuckSince, evaluate_stuckSince, countedPods_append hcb hca,
    countedPods_append hca hcb, List.map_append, List.map_append]
  exact fun hsince => hpos.ne (hzero'.symm.trans (hsince.trans hpos'))

theorem sustained_iff {p : Pod} : d.sustained lib now events p ↔
    ∃ since, Stuck lib d now events p since ∧ d.dwell ≤ now - since := by
  constructor
  · intro h
    cases hc : counted (d.failing lib now events.reduceOption) p with
    | none => simp [sustained, hc] at h
    | some c => exact ⟨c.2, stuck_of_counted hc, by simpa [sustained, hc] using h⟩
  · rintro ⟨since, hstuck, hdwell⟩
    obtain ⟨idx, hc⟩ := counted_of_stuck hstuck
    simpa [sustained, hc] using hdwell

theorem meetsThreshold_iff_fired :
    d.meetsThreshold (d.evaluate lib now events pods) ↔ Fired lib d now events pods := by
  have hcount : (d.countedPods lib now events pods).countP (fun c => d.dwell ≤ now - c.2) =
      (pods.reduceOption.filter (d.sustained lib now events)).length := by
    rw [← List.countP_eq_length_filter]
    exact List.countP_filterMap
  have hsuccess : (d.requireZeroSuccess && pods.reduceOption.any (d.isSuccess now)) = false ↔
      (d.requireZeroSuccess → ∀ p, some p ∈ pods → d.isSuccess now p = false) := by
    cases d.requireZeroSuccess <;> simp [List.reduceOption_mem_iff]
  unfold meetsThreshold
  simp only [evaluate_pods, hcount]
  constructor
  · intro h
    split_ifs at h with hfloor hzero
    exact ⟨⟨_, List.filter_sublist, not_lt.mp hfloor, fun p hp =>
      sustained_iff.mp (List.mem_filter.mp hp).2⟩, hsuccess.mp (Bool.not_eq_true _ ▸ hzero)⟩
  · rintro ⟨⟨stuck, hsub, hfloor, hstuck⟩, hnone⟩
    have hall : stuck.filter (d.sustained lib now events) = stuck :=
      List.filter_eq_self.mpr fun p hp => sustained_iff.mpr (hstuck p hp)
    have hle := (hsub.filter (d.sustained lib now events)).length_le
    rw [hall] at hle
    rw [if_neg (not_lt.mpr (hfloor.trans hle)), hsuccess.mpr hnone]
    rfl

end SignatureDetector

/-! ## Decisions on a Ready node -/

section

variable (lib : GoLib) (node : Node) (events : List (Option Event)) (pods : List (Option Pod))
  (now : Time)

def firing (d : SignatureDetector) : Decision × Snapshot :=
  (.wedged, { d.evaluate lib now events pods with reason := d.reason })

/-- The first detector that applies to the node and fires. -/
structure FirstFired (d : SignatureDetector) : Prop where
  applies : d.applies node
  fired : d.Fired lib now events pods
  first : ∃ before after, podRegistry = before ++ d :: after ∧
    ∀ d' ∈ before, d'.applies node → ¬d'.Fired lib now events pods

/-- The decision depends only on the evidence. -/
structure EvidenceOnly : Prop where
  order : ∀ events' pods', pods'.Perm pods → (∀ ev, ev ∈ events' ↔ ev ∈ events) →
    decide lib node events' pods' now = decide lib node events pods now
  sound : isNodeReady node → (decide lib node events pods now).1 = .wedged → ∃ d ∈ podRegistry,
    (decide lib node events pods now).2.detectorName = d.name ∧ d.Fired lib now events pods
  recovery : ∀ p pods', pods'.Perm (some p :: pods) →
    (∀ d ∈ podRegistry, d.applies node → d.isSuccess now p) →
    (decide lib node events pods now).1 ≠ .wedged → (decide lib node events pods' now).1 ≠ .wedged

variable {lib node events pods now} {events' : List (Option Event)} {pods' : List (Option Pod)}
  {saw : Bool} {registry : List SignatureDetector}

theorem decideReady_find (saw : Bool) :
    match registry.find? fun d =>
      d.applies node && d.meetsThreshold (d.evaluate lib now events pods) with
    | some d => decideReady lib node events pods now saw registry = firing lib events pods now d
    | none => (decideReady lib node events pods now saw registry).1 ≠ .wedged := by
  induction registry generalizing saw with
  | nil => cases saw <;> simp [decideReady]
  | cons d rest ih =>
    unfold decideReady
    rw [List.find?_cons]
    cases happlies : d.applies node with
    | false => exact ih saw
    | true =>
      cases hmeets : d.meetsThreshold (d.evaluate lib now events pods) with
      | true => simp only [hmeets, if_true, Bool.and_self, firing]
      | false =>
        simp only [hmeets, if_true, Bool.and_false, Bool.false_eq_true, if_false]
        exact ih _

theorem decideReady_congr (hpods : pods'.Perm pods) (hevents : ∀ ev, ev ∈ events' ↔ ev ∈ events)
    (h : ∀ d ∈ registry,
      decideReady lib node events pods now saw registry = firing lib events pods now d →
        d.evaluate lib now events' pods' = d.evaluate lib now events pods) :
    decideReady lib node events' pods' now saw registry =
      decideReady lib node events pods now saw registry := by
  induction registry generalizing saw with
  | nil => rfl
  | cons d rest ih =>
    have hevidence : (d.evaluate lib now events' pods').pods =
      (d.evaluate lib now events pods).pods := by
      simpa using congrArg Snapshot.pods (d.evaluate_perm hpods hevents)
    have hmeets : d.meetsThreshold (d.evaluate lib now events' pods') =
        d.meetsThreshold (d.evaluate lib now events pods) := by
      unfold SignatureDetector.meetsThreshold
      rw [hevidence]
    have hhead := h d List.mem_cons_self
    replace h := fun d' hd' => h d' (List.mem_cons_of_mem d hd')
    unfold decideReady at hhead h ⊢
    simp only [hevidence, hmeets] at hhead h ⊢
    split_ifs at hhead h ⊢ with happlies hfires
    · rw [hhead rfl]
    · exact ih h
    · exact ih h

theorem decide_of_ready (h : isNodeReady node) :
    decide lib node events pods now =
      if anyApplies node then decideReady lib node events pods now false podRegistry
      else (.notApplicable, {}) := by
  unfold decide
  rw [h]
  cases anyApplies node <;> rfl

theorem decide_of_not_ready (h : isNodeReady node = false) :
    decide lib node events' pods' now = decide lib node events pods now := by
  unfold decide
  rw [h]
  rfl

theorem find?_podRegistry_iff {d : SignatureDetector} :
    (podRegistry.find? fun d => d.applies node && d.meetsThreshold (d.evaluate lib now events pods)) =
      some d ↔ FirstFired lib node events pods now d := by
  simp only [List.find?_eq_some_iff_append, Bool.and_eq_true, Bool.not_eq_true',
    ← Bool.not_eq_true, SignatureDetector.meetsThreshold_iff_fired, not_and]
  exact ⟨fun ⟨⟨happlies, hfired⟩, hfirst⟩ => ⟨happlies, hfired, hfirst⟩,
    fun h => ⟨⟨h.applies, h.fired⟩, h.first⟩⟩

theorem FirstFired.mem {d : SignatureDetector} (h : FirstFired lib node events pods now d) :
    d ∈ podRegistry := by
  obtain ⟨before, after, heq, -⟩ := h.first
  simp [heq]

theorem FirstFired.decide_eq {d : SignatureDetector} (h : FirstFired lib node events pods now d)
    (hready : isNodeReady node) :
    decide lib node events pods now = firing lib events pods now d := by
  have happlies : anyApplies node := by
    rw [anyApplies, List.any_eq_true.mpr ⟨d, h.mem, h.applies⟩, Bool.true_or]
  rw [decide_of_ready hready, if_pos happlies]
  have hfind := @decideReady_find lib node events pods now podRegistry false
  rwa [find?_podRegistry_iff.mpr h] at hfind

theorem decide_wedged (hready : isNodeReady node)
    (h : (decide lib node events pods now).1 = .wedged) :
    ∃ d, FirstFired lib node events pods now d ∧
      decide lib node events pods now = firing lib events pods now d := by
  rw [decide_of_ready hready] at h ⊢
  split_ifs at h ⊢
  have hfind := @decideReady_find lib node events pods now podRegistry false
  split at hfind
  · next d hd => exact ⟨d, find?_podRegistry_iff.mp hd, hfind⟩
  · exact absurd h hfind

theorem requireZeroSuccess_of_mem {d : SignatureDetector} (h : d ∈ podRegistry) :
    d.requireZeroSuccess = true := by
  rcases List.mem_pair.mp h with rfl | rfl <;> rfl

theorem recovery {p : Pod} (hpods : pods'.Perm (some p :: pods))
    (hp : ∀ d ∈ podRegistry, d.applies node → d.isSuccess now p)
    (h : (decide lib node events pods now).1 ≠ .wedged) :
    (decide lib node events pods' now).1 ≠ .wedged := by
  intro hwedged
  cases hready : isNodeReady node with
  | false => exact h ((congrArg Prod.fst (decide_of_not_ready hready)).trans hwedged)
  | true =>
    obtain ⟨d, hfirst, -⟩ := decide_wedged hready hwedged
    have hnone := hfirst.fired.noSuccess (requireZeroSuccess_of_mem hfirst.mem) p
      (hpods.mem_iff.mpr List.mem_cons_self)
    rw [hp d hfirst.mem hfirst.applies] at hnone
    cases hnone

theorem eq_of_name_eq {d d' : SignatureDetector} (hd : d ∈ podRegistry) (hd' : d' ∈ podRegistry)
    (h : d.name = d'.name) : d = d' := by
  rcases List.mem_pair.mp hd with rfl | rfl <;> rcases List.mem_pair.mp hd' with rfl | rfl
  · rfl
  · exact absurd h (by decide)
  · exact absurd h (by decide)
  · rfl

theorem EvidenceOnly.stuckSince_eq (h : EvidenceOnly lib node events pods now)
    (hready : isNodeReady node) {d : SignatureDetector}
    (hfirst : FirstFired lib node events pods now d) (hpods : pods'.Perm pods) :
    (d.evaluate lib now events pods').stuckSince = (d.evaluate lib now events pods).stuckSince := by
  have hdecide := h.order events pods' hpods fun _ => Iff.rfl
  rw [hfirst.decide_eq hready] at hdecide
  obtain ⟨d', hfirst', heq⟩ := decide_wedged hready (congrArg Prod.fst hdecide)
  have hsnap := congrArg Prod.snd (heq.symm.trans hdecide)
  obtain rfl := eq_of_name_eq hfirst'.mem hfirst.mem (congrArg Snapshot.detectorName hsnap)
  simpa [firing] using congrArg Snapshot.stuckSince hsnap

open SignatureDetector in
/-- Decisions depend only on the evidence, unless the first detector that fires has pods of which
some have no time of transition and the others have one. -/
theorem decide_evidenceOnly_iff : EvidenceOnly lib node events pods now ↔
      (isNodeReady node → ∀ d, FirstFired lib node events pods now d →
        ¬Mixed (d.StuckAt lib now events pods)) := by
  constructor
  · intro h hready d hfirst hmixed
    obtain ⟨podsA, podsB, hA, hB, hne⟩ := exists_perm_of_mixed hmixed
    exact hne ((h.stuckSince_eq hready hfirst hA).trans (h.stuckSince_eq hready hfirst hB).symm)
  · intro h
    refine ⟨fun events' pods' hpods hevents => ?_, fun hready hwedged => ?_, fun p pods' => recovery⟩
    · cases hready : isNodeReady node with
      | false => exact decide_of_not_ready hready
      | true =>
        have hequal : ∀ d ∈ podRegistry,
            decide lib node events pods now = firing lib events pods now d →
              d.evaluate lib now events' pods' = d.evaluate lib now events pods := by
          intro d hd hfires
          obtain ⟨d', hfirst, heq⟩ := decide_wedged hready (congrArg Prod.fst hfires)
          obtain rfl := eq_of_name_eq hfirst.mem hd
            (congrArg (·.2.detectorName) (heq.symm.trans hfires))
          exact evaluate_eq_of_not_mixed hpods hevents (h hready d' hfirst)
        rw [decide_of_ready hready] at hequal ⊢
        rw [decide_of_ready hready]
        split_ifs at hequal ⊢ with happlies
        · exact decideReady_congr hpods hevents hequal
        · rfl
    · obtain ⟨d, hfirst, heq⟩ := decide_wedged hready hwedged
      refine ⟨d, hfirst.mem, ?_, hfirst.fired⟩
      rw [heq]
      rfl

/-- Two pods are stuck, one without a time: the other's time is shown only if it is seen last. -/
theorem stuckSince_depends_on_order :
    let lib : GoLib := ⟨fun pattern message => pattern == message, fun _ => ""⟩
    let node : Node := ⟨[("kubernetes.azure.com/podnetwork-swiftv2-enabled", "true")], 1,
      [⟨.ready, .isTrue, "", 1⟩]⟩
    let ev (uid : String) : Option Event :=
      some ⟨"Pod", uid, "FailedCreatePodSandBox", "network is unreachable", minutes 60, 0, 0⟩
    let pod (uid : String) (since : Time) : Option Pod :=
      some ⟨uid, none, false, [], [], .pending,
        [⟨.podReadyToStartContainers, .isFalse, "", since⟩], [], []⟩
    ¬EvidenceOnly lib node [ev "a", ev "b"] [pod "a" 0, pod "b" (minutes 40)] (minutes 60) := by
  intro lib node ev pod h
  have heq := h.order [ev "a", ev "b"] [pod "b" (minutes 40), pod "a" 0] (List.Perm.swap ..)
    fun _ => Iff.rfl
  exact absurd heq (by decide +kernel)

/-! ## Nodes that are not Ready -/

structure History (node : Node) where
  changes : List (Time × ConditionStatus)
  sorted : changes.Pairwise fun a b => a.1 ≤ b.1
  created_le : ∀ change ∈ changes, node.creationTimestamp ≤ change.1
  recorded : changes.getLast? =
    (nodeReadyCondition node).map fun cond => (cond.lastTransitionTime, cond.status)

theorem evaluateNode_wedged_iff : (evaluateNode lib node now).1 = .wedged ↔
    ∃ cond, nodeReadyCondition node = some cond ∧ cond.status ≠ .isTrue ∧
      node.creationTimestamp ≠ 0 ∧ cond.lastTransitionTime ≠ 0 ∧
      node.creationTimestamp ≤ cond.lastTransitionTime ∧
      cond.lastTransitionTime ≤ node.creationTimestamp + minutes 2 ∧
      minutes 30 ≤ now - node.creationTimestamp := by
  unfold evaluateNode
  cases nodeReadyCondition node with
  | none => simp
  | some cond =>
    simp only [Option.some.injEq, exists_eq_left']
    split_ifs <;> grind

theorem decide_wedged_iff_of_not_ready (h : isNodeReady node = false) :
    (decide lib node events pods now).1 = .wedged ↔
      isSwiftV2Node node ∧ (evaluateNode lib node now).1 = .wedged := by
  have happlies : anyApplies node = isSwiftV2Node node := by
    simp [anyApplies, podRegistry, SignatureDetector.applies, swiftVFTeardown,
      cniPluginNotInitialized]
  unfold decide
  rw [happlies, h]
  obtain ⟨decision, snap⟩ := evaluateNode lib node now
  cases isSwiftV2Node node <;> cases decision <;> simp

theorem History.le_getLast (history : History node) {last : Time × ConditionStatus}
    (hlast : history.changes.getLast? = some last) :
    ∀ change ∈ history.changes, change.1 ≤ last.1 := by
  obtain ⟨rest, heq⟩ := List.getLast?_eq_some_iff.mp hlast
  have hsorted := history.sorted
  rw [heq, List.pairwise_append] at hsorted
  intro change hchange
  rw [heq, List.mem_append, List.mem_singleton] at hchange
  rcases hchange with hrest | rfl
  · exact hsorted.2.2 change hrest last (List.mem_singleton_self last)
  · exact le_rfl

/-- The verdict is true unless the node is old enough and was Ready with no change later than the
tolerance. -/
theorem neverReady_truthful_iff (lib : GoLib) (events : List (Option Event))
    (pods : List (Option Pod)) (now : Time) (history : History node) :
    (isNodeReady node = false → (decide lib node events pods now).1 = .wedged →
      ∀ change ∈ history.changes, change.2 ≠ .isTrue) ↔
    (isSwiftV2Node node → isNodeReady node = false → node.creationTimestamp ≠ 0 →
      (∀ last ∈ history.changes.getLast?, last.1 ≠ 0) → minutes 30 ≤ now - node.creationTimestamp →
      ∀ change ∈ history.changes, change.2 = .isTrue → ∃ later ∈ history.changes,
        change.1 ≤ later.1 ∧ node.creationTimestamp + minutes 2 < later.1) := by
  constructor
  · intro h hswift hready hcreated hzero hdwell change hchange htrue
    obtain ⟨last, hlast⟩ := Option.ne_none_iff_exists'.mp
      (mt List.getLast?_eq_none_iff.mp (List.ne_nil_of_mem hchange))
    have hmem := List.mem_of_getLast? hlast
    refine ⟨last, hmem, history.le_getLast hlast change hchange, ?_⟩
    by_contra htolerance
    have hrecorded := hlast
    rw [history.recorded] at hrecorded
    obtain ⟨cond, hcond, rfl⟩ := Option.map_eq_some_iff.mp hrecorded
    have hstatus : cond.status ≠ .isTrue := by
      simpa [isNodeReady, hcond] using hready
    exact h hready ((decide_wedged_iff_of_not_ready hready).mpr ⟨hswift, evaluateNode_wedged_iff.mpr
      ⟨cond, hcond, hstatus, hcreated, hzero _ hlast, history.created_le _ hmem,
        not_lt.mp htolerance, hdwell⟩⟩) change hchange htrue
  · intro h hready hwedged change hchange htrue
    obtain ⟨hswift, hnode⟩ := (decide_wedged_iff_of_not_ready hready).mp hwedged
    obtain ⟨cond, hcond, -, hcreated, hzero, -, htolerance, hdwell⟩ :=
      evaluateNode_wedged_iff.mp hnode
    have hlast : history.changes.getLast? = some (cond.lastTransitionTime, cond.status) := by
      rw [history.recorded, hcond]
      rfl
    obtain ⟨later, hlater, -, hlt⟩ := h hswift hready hcreated (by simpa [hlast] using hzero) hdwell
      change hchange htrue
    exact absurd ((history.le_getLast hlast later hlater).trans htolerance) (not_le.mpr hlt)

/-- A node that became Ready a minute after its creation and lost it a minute later. -/
theorem neverReady_of_briefly_ready :
    let node : Node := ⟨[("kubernetes.azure.com/podnetwork-swiftv2-enabled", "true")], minutes 100,
      [⟨.ready, .isFalse, "KubeletNotReady", minutes 102⟩]⟩
    ∃ history : History node, (minutes 101, .isTrue) ∈ history.changes ∧
      ∀ lib events pods, (decide lib node events pods (minutes 130)).1 = .wedged := by
  intro node
  refine ⟨⟨[(minutes 100, .isFalse), (minutes 101, .isTrue), (minutes 102, .isFalse)], by decide,
    by decide, rfl⟩, by simp, fun lib events pods => ?_⟩
  refine (decide_wedged_iff_of_not_ready rfl).mpr ⟨by decide, evaluateNode_wedged_iff.mpr ?_⟩
  exact ⟨_, rfl, by decide⟩

end

end AroHcp.NodeHealth
