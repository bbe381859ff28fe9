import AroHcp.Informers.ChangeFeed
import Mathlib.Algebra.Order.Ring.Int
import Mathlib.Data.List.Pairwise

/-! The map of versions follows, for every ID, the newest state that was listed or processed: an
item either leaves it alone or is newer than everything seen of its ID. -/

namespace Informers

variable {Item Obj : Type} {w : Watcher Item Obj}

/-! ## Histories -/

section History

variable {docs : List (Document Item)} {key : String} {a b d : Document Item}

theorem mem_of_current (h : current docs key = some d) : d ∈ docs ∧ d.key = key := by
  exact ⟨List.mem_reverse.mp (List.mem_of_find?_eq_some h), by simpa using List.find?_some h⟩

theorem exists_current (hd : d ∈ docs) : ∃ c, current docs d.key = some c := by
  unfold current
  rw [← Option.isSome_iff_exists, List.find?_isSome]
  exact ⟨d, List.mem_reverse.mpr hd, by simp⟩

abbrev Increasing (docs : List (Document Item)) : Prop :=
  docs.Pairwise fun a b => a.key = b.key → a.version < b.version ∧ a.deleted = false

/-- Before the last state of an ID, all are older and live. -/
theorem eq_or_before_current (h : Increasing docs) (hcurrent : current docs key = some b)
    (ha : a ∈ docs) (hkey : a.key = key) :
    a = b ∨ a.version < b.version ∧ a.deleted = false := by
  have hb := (mem_of_current hcurrent).2
  obtain ⟨-, newer, older, hsplit, hnewer⟩ := List.find?_eq_some_iff_append.mp hcurrent
  have hpair := List.pairwise_reverse.mpr h
  rw [hsplit] at hpair
  have hmem : a ∈ newer ++ b :: older := hsplit ▸ List.mem_reverse.mpr ha
  rcases List.mem_append.mp hmem with hmem | hmem
  · have := hnewer a hmem
    simp [hkey] at this
  · rcases List.mem_cons.mp hmem with rfl | hmem
    · exact .inl rfl
    · have hrest := (List.pairwise_cons.mp (List.pairwise_append.mp hpair).2.1).1
      exact .inr (hrest a hmem (hkey.trans hb.symm))

theorem version_le_current (h : Increasing docs) (hcurrent : current docs key = some b)
    (ha : a ∈ docs) (hkey : a.key = key) :
    a.version ≤ b.version := by
  rcases eq_or_before_current h hcurrent ha hkey with rfl | ⟨hlt, -⟩
  · exact le_refl _
  · exact hlt.le

theorem eq_of_version (h : History Item) (ha : a ∈ h.writes) (hb : b ∈ h.writes)
    (hkey : a.key = b.key) (hversion : a.version = b.version) : a = b := by
  by_contra hne
  have hpair : h.writes.Pairwise fun a b => a.key = b.key → a.version ≠ b.version :=
    h.increasing.imp fun hab hkey => (hab hkey).1.ne
  have : Std.Symm fun a b : Document Item => a.key = b.key → a.version ≠ b.version :=
    ⟨fun _ _ hab hkey => (hab hkey.symm).symm⟩
  exact hpair.forall ha hb hne hkey hversion

end History

/-! ## The newest state of each ID -/

section LastSeen

variable {docs : List (Document Item)} {key : String} {a d p : Document Item}

def newer (a : Option (Document Item)) (d : Document Item) : Option (Document Item) :=
  match a with
  | none => some d
  | some a => if a.version < d.version then some d else some a

/-- The state of the highest version. -/
def lastSeen (docs : List (Document Item)) (key : String) : Option (Document Item) :=
  (docs.filter (·.key = key)).foldl newer none

theorem lastSeen_append_self : lastSeen (docs ++ [d]) d.key = newer (lastSeen docs d.key) d := by
  simp [lastSeen, List.filter_append]

theorem lastSeen_append_of_ne (h : d.key ≠ key) : lastSeen (docs ++ [d]) key = lastSeen docs key := by
  simp [lastSeen, List.filter_append, h]

theorem mem_of_lastSeen (h : lastSeen docs key = some a) : a ∈ docs ∧ a.key = key := by
  induction docs using List.reverseRecOn with
  | nil => cases h
  | append_singleton docs d ih =>
    by_cases hkey : d.key = key
    · subst hkey
      rw [lastSeen_append_self] at h
      cases hseen : lastSeen docs d.key with
      | none =>
        rw [hseen] at h
        cases h
        simp
      | some b =>
        rw [hseen, newer] at h
        split at h
        · cases h
          simp
        · cases h
          obtain ⟨hmem, hb⟩ := ih hseen
          exact ⟨List.mem_append_left _ hmem, hb⟩
    · rw [lastSeen_append_of_ne hkey] at h
      obtain ⟨hmem, ha⟩ := ih h
      exact ⟨List.mem_append_left _ hmem, ha⟩

theorem exists_newer (a : Option (Document Item)) (d : Document Item) :
    ∃ b, newer a d = some b ∧ d.version ≤ b.version ∧ ∀ c, a = some c → c.version ≤ b.version := by
  cases a with
  | none => exact ⟨d, rfl, le_refl _, by simp⟩
  | some a =>
    unfold newer
    dsimp only
    split
    · next h => exact ⟨d, rfl, le_refl _, fun c hc => by cases hc; exact h.le⟩
    · next h => exact ⟨a, rfl, not_lt.mp h, fun c hc => by cases hc; exact le_refl _⟩

theorem lastSeen_append_ge (h : lastSeen docs key = some a) (d : Document Item) :
    ∃ b, lastSeen (docs ++ [d]) key = some b ∧ a.version ≤ b.version := by
  by_cases hkey : d.key = key
  · subst hkey
    obtain ⟨b, hb, -, hge⟩ := exists_newer (lastSeen docs d.key) d
    exact ⟨b, lastSeen_append_self.trans hb, hge a h⟩
  · exact ⟨a, (lastSeen_append_of_ne hkey).trans h, le_refl _⟩

theorem le_lastSeen (hp : p ∈ docs) : ∃ a, lastSeen docs p.key = some a ∧ p.version ≤ a.version := by
  induction docs using List.reverseRecOn with
  | nil => cases hp
  | append_singleton docs d ih =>
    rcases List.mem_append.mp hp with hp | hp
    · obtain ⟨a, ha, hle⟩ := ih hp
      obtain ⟨b, hb, hge⟩ := lastSeen_append_ge ha d
      exact ⟨b, hb, hle.trans hge⟩
    · rw [List.mem_singleton.mp hp]
      obtain ⟨b, hb, hle, -⟩ := exists_newer (lastSeen docs d.key) d
      exact ⟨b, lastSeen_append_self.trans hb, hle⟩

end LastSeen

/-! ## What processing an item does -/

/-- The ways an item of a watched document ends, by the version of its ID in the map. -/
inductive Outcome (w : Watcher Item Obj) (versions : Versions) (d : Document Item) (obj : Obj) :
    Bool → Versions → Option (Event Obj) → Prop
  | skipped {live : Bool} {v : Int} (hv : versions d.key = some v) (hle : d.version ≤ v) :
      Outcome w versions d obj live versions none
  | ignored (hnone : versions d.key = none) : Outcome w versions d obj false versions none
  | removed {v : Int} (hv : versions d.key = some v) (hlt : v < d.version) :
      Outcome w versions d obj false (Function.update versions d.key none) (some ⟨.deleted, obj⟩)
  | shown {type : EventType} (hnew : ∀ v, versions d.key = some v → v < d.version)
      (htype : type = if (versions d.key).isSome then .modified else .added) :
      Outcome w versions d obj true (Function.update versions d.key (some d.version))
        (some ⟨type, obj⟩)

variable {st : Storage w} {versions versions' : Versions} {event : Option (Event Obj)}
  {d : Document Item}

theorem deliver_outcome (hd : st.Faithful d) (hwatched : st.watched d.key = true)
    {doc : TypedDocument} {obj : Obj} (hdoc : w.unmarshalTyped d.item = .ok doc)
    (hobj : w.toInternal d.item = .ok obj) :
    Outcome w versions d obj (st.live d) (w.deliver versions doc obj).1
      (w.deliver versions doc obj).2 := by
  obtain ⟨-, -, hdeleted⟩ := hd.typed doc hdoc
  obtain ⟨hkey, hversion, hquery⟩ := hd.internal obj hobj
  have hlive : st.live d = !(doc.deletionTimestamp.isSome || !w.shouldDeliver obj) := by
    simp [Storage.live, hwatched, hdeleted, hquery]
  unfold Watcher.deliver
  simp only [hkey, hversion]
  split
  · next hseen =>
    obtain ⟨v, hv, hle⟩ := (Option.any_eq_true _ _).mp hseen
    exact .skipped hv (by simpa using hle)
  · next hfresh =>
    have hnew : ∀ v, versions d.key = some v → v < d.version := by
      intro v hv
      rw [hv] at hfresh
      simpa using hfresh
    split
    · next hhidden =>
      rw [hlive, hhidden, Bool.not_true]
      cases hv : versions d.key with
      | none => exact .ignored hv
      | some v => exact .removed hv (hnew v hv)
    · next hshown =>
      rw [Bool.not_eq_true] at hshown
      rw [hlive, hshown, Bool.not_false]
      exact .shown hnew rfl

/-- An item is left alone where it is not of a watched document, and else has one of the outcomes.
-/
theorem processItem_outcome (hd : st.Faithful d)
    (hok : w.processItem versions d.item = .ok (versions', event)) :
    (st.watched d.key = false ∧ versions' = versions ∧ event = none) ∨
      st.watched d.key = true ∧ ∃ obj, w.toInternal d.item = .ok obj ∧
        Outcome w versions d obj (st.live d) versions' event := by
  unfold Watcher.processItem at hok
  split at hok
  · cases hok
  · next doc hdoc =>
    obtain ⟨hmatches, hid, -⟩ := hd.typed doc hdoc
    split at hok
    · next hother =>
      cases hok
      rw [hmatches, Bool.not_eq_true'] at hother
      exact .inl ⟨hother, rfl, rfl⟩
    · next hwatched =>
      rw [hmatches, Bool.not_eq_true', Bool.not_eq_false] at hwatched
      rw [if_neg (by rw [Option.isNone_iff_eq_none]; exact Option.ne_none_iff_isSome.mpr hid)] at hok
      split at hok
      · cases hok
      · next obj hobj =>
        have hout : Outcome w versions d obj (st.live d) (w.deliver versions doc obj).1
            (w.deliver versions doc obj).2 := deliver_outcome hd hwatched hdoc hobj
        rw [Except.ok.inj hok] at hout
        exact .inr ⟨hwatched, obj, hobj, hout⟩

/-! ## The invariant -/

/-- The version, or the object, that is held of the newest state. -/
def held {α : Type} (st : Storage w) (value : Document Item → Option α)
    (seen : Option (Document Item)) : Option α :=
  seen.bind fun d => if st.live d then value d else none

/-- The map follows the newest states, and a newest state that is not live came from the feed. -/
structure Seen (st : Storage w) (h : History Item) (listedDocs : List (Document Item))
    (versions : Versions) (processed : List (Document Item)) : Prop where
  versions : ∀ key, versions key =
    held st (fun d => some d.version) (lastSeen (listedDocs ++ processed) key)
  hidden : ∀ key d, lastSeen (listedDocs ++ processed) key = some d → st.live d = false →
    d ∈ processed
  written : ∀ d ∈ listedDocs ++ processed, d ∈ h.writes
  decodes : ∀ d ∈ listedDocs ++ processed, st.watched d.key = true →
    ∃ obj, w.toInternal d.item = .ok obj

section Seen

variable {h : History Item} {listedDocs processed : List (Document Item)}

section

variable (hs : Seen st h listedDocs versions processed)

include hs

theorem Seen.live_of_versions {key : String} {v : Int} (hv : versions key = some v) :
    ∃ a, lastSeen (listedDocs ++ processed) key = some a ∧ st.live a = true ∧ a.version = v := by
  rw [hs.versions] at hv
  obtain ⟨a, ha, hlive⟩ := Option.bind_eq_some_iff.mp hv
  split at hlive
  · next h =>
    cases hlive
    exact ⟨a, ha, h, rfl⟩
  · cases hlive

theorem Seen.hidden_of_versions {key : String} {a : Document Item} (hnone : versions key = none)
    (ha : lastSeen (listedDocs ++ processed) key = some a) : st.live a = false := by
  rw [hs.versions, ha] at hnone
  by_contra hlive
  simp [held, hlive] at hnone

/-- What is not skipped or ignored is newer than everything seen of its ID. -/
theorem Seen.version_lt (hd : d ∈ h.writes)
    (horder : ∀ p ∈ processed, p.key = d.key → st.live p = false → p.version ≤ d.version)
    (hnew : ∀ v, versions d.key = some v → v < d.version)
    (hshown : versions d.key = none → st.live d = true) {a : Document Item}
    (ha : lastSeen (listedDocs ++ processed) d.key = some a) : a.version < d.version := by
  obtain ⟨hmem, hkey⟩ := mem_of_lastSeen ha
  cases hv : versions d.key with
  | some v =>
    obtain ⟨b, hb, -, rfl⟩ := hs.live_of_versions hv
    rw [ha] at hb
    cases hb
    exact hnew _ hv
  | none =>
    have hhidden := hs.hidden_of_versions hv ha
    have hle := horder a (hs.hidden _ a ha hhidden) hkey hhidden
    refine lt_of_le_of_ne hle fun heq => ?_
    -- one version is one state, and it cannot be live and not live
    have := eq_of_version h (hs.written a hmem) hd hkey heq
    rw [this, hshown hv] at hhidden
    cases hhidden

end

theorem lastSeen_of_lt {docs : List (Document Item)}
    (hlt : ∀ a, lastSeen docs d.key = some a → a.version < d.version) :
    lastSeen (docs ++ [d]) d.key = some d := by
  rw [lastSeen_append_self]
  cases ha : lastSeen docs d.key with
  | none => rfl
  | some a => exact if_pos (hlt a ha)

/-- An item that is skipped or ignored leaves the newest state, or replaces it by one that is not
live as well. -/
theorem held_of_silent {α : Type} {value : Document Item → Option α} {docs : List (Document Item)}
    (hsilent : st.live d = false ∧ (∀ a, lastSeen docs d.key = some a → st.live a = false) ∨
      ∃ a, lastSeen docs d.key = some a ∧ d.version ≤ a.version) (key : String) :
    held st value (lastSeen (docs ++ [d]) key) = held st value (lastSeen docs key) := by
  by_cases hkey : d.key = key
  · subst hkey
    rw [lastSeen_append_self]
    rcases hsilent with ⟨hd, hhidden⟩ | ⟨a, ha, hle⟩
    · cases ha : lastSeen docs d.key with
      | none => simp [newer, held, hd]
      | some a =>
        unfold newer
        dsimp only
        split <;> simp [held, hd, hhidden a ha]
    · rw [ha, newer, if_neg (not_lt.mpr hle)]
  · rw [lastSeen_append_of_ne hkey]

theorem held_of_lt {α : Type} {value : Document Item → Option α} {docs : List (Document Item)}
    (hlt : ∀ a, lastSeen docs d.key = some a → a.version < d.version) (key : String) :
    held st value (lastSeen (docs ++ [d]) key) =
      Function.update (fun key => held st value (lastSeen docs key)) d.key
        (if st.live d then value d else none) key := by
  by_cases hkey : key = d.key
  · subst hkey
    rw [lastSeen_of_lt hlt, Function.update_self]
    rfl
  · rw [Function.update_of_ne hkey, lastSeen_append_of_ne (Ne.symm hkey)]

/-- An item that leaves the map alone leaves what is held alone; any other is newer than all before.
-/
theorem Seen.outcome (hs : Seen st h listedDocs versions processed) (hd : d ∈ h.writes)
    (horder : ∀ p ∈ processed, p.key = d.key → st.live p = false → p.version ≤ d.version) {obj : Obj}
    (hout : Outcome w versions d obj (st.live d) versions' event) :
    (versions' = versions ∧ event = none ∧
      (st.live d = false ∧
        (∀ a, lastSeen (listedDocs ++ processed) d.key = some a → st.live a = false) ∨
      ∃ a, lastSeen (listedDocs ++ processed) d.key = some a ∧ d.version ≤ a.version)) ∨
    (versions' = Function.update versions d.key (if st.live d then some d.version else none) ∧
      (∃ e, event = some e ∧ e.object = obj ∧ (e.type = .deleted ↔ st.live d = false)) ∧
      ∀ a, lastSeen (listedDocs ++ processed) d.key = some a → a.version < d.version) := by
  generalize hlive : st.live d = live at hout ⊢
  cases hout with
  | skipped hv hle =>
    obtain ⟨a, ha, -, rfl⟩ := hs.live_of_versions hv
    exact .inl ⟨rfl, rfl, .inr ⟨a, ha, hle⟩⟩
  | ignored hnone =>
    exact .inl ⟨rfl, rfl, .inl ⟨rfl, fun a ha => hs.hidden_of_versions hnone ha⟩⟩
  | @removed v hv hlt =>
    refine .inr ⟨rfl, ⟨_, rfl, rfl, by simp⟩, fun a ha => hs.version_lt hd horder ?_ ?_ ha⟩
    · intro v' hv'
      rw [hv] at hv'
      cases hv'
      exact hlt
    · intro hnone
      rw [hv] at hnone
      cases hnone
  | shown hnew htype =>
    refine .inr ⟨rfl, ⟨_, rfl, rfl, ?_⟩, fun a ha => hs.version_lt hd horder hnew ?_ ha⟩
    · rw [htype]
      split <;> simp
    · exact fun _ => hlive

theorem Seen.process (hs : Seen st h listedDocs versions processed) (hd : d ∈ h.writes)
    (hfaithful : st.Faithful d)
    (horder : ∀ p ∈ processed, p.key = d.key → st.live p = false → p.version ≤ d.version)
    (hok : w.processItem versions d.item = .ok (versions', event)) :
    Seen st h listedDocs versions' (processed ++ [d]) := by
  have hassoc : listedDocs ++ (processed ++ [d]) = (listedDocs ++ processed) ++ [d] :=
    (List.append_assoc _ _ _).symm
  have hwritten : ∀ p ∈ listedDocs ++ (processed ++ [d]), p ∈ h.writes := by
    rw [hassoc]
    intro p hp
    rcases List.mem_append.mp hp with hp | hp
    · exact hs.written p hp
    · exact List.mem_singleton.mp hp ▸ hd
  have hhidden : ∀ key a, lastSeen (listedDocs ++ (processed ++ [d])) key = some a →
      st.live a = false → a ∈ processed ++ [d] := by
    rw [hassoc]
    intro key a ha hlive
    by_cases hkey : d.key = key
    · subst hkey
      rw [lastSeen_append_self] at ha
      cases hb : lastSeen (listedDocs ++ processed) d.key with
      | none =>
        rw [hb] at ha
        cases ha
        simp
      | some b =>
        rw [hb, newer] at ha
        split at ha
        · cases ha
          simp
        · cases ha
          exact List.mem_append_left _ (hs.hidden _ _ hb hlive)
    · rw [lastSeen_append_of_ne hkey] at ha
      exact List.mem_append_left _ (hs.hidden _ _ ha hlive)
  rcases processItem_outcome hfaithful hok with ⟨hother, rfl, -⟩ | ⟨hwatched, obj, hobj, hout⟩
  · refine ⟨?_, hhidden, hwritten, ?_⟩
    · -- no state of an ID that is not watched is live
      have hlive : ∀ a : Document Item, a.key = d.key → st.live a = false := by
        intro a ha
        simp [Storage.live, ha, hother]
      intro key
      rw [hassoc, held_of_silent (.inl ⟨hlive d rfl, fun a ha => hlive a (mem_of_lastSeen ha).2⟩)]
      exact hs.versions key
    · rw [hassoc]
      intro p hp hp'
      rcases List.mem_append.mp hp with hp | hp
      · exact hs.decodes p hp hp'
      · rw [List.mem_singleton.mp hp, hother] at hp'
        cases hp'
  · refine ⟨?_, hhidden, hwritten, ?_⟩
    · intro key
      rw [hassoc]
      rcases hs.outcome hd horder hout with ⟨rfl, -, hsilent⟩ | ⟨rfl, -, hlt⟩
      · rw [held_of_silent hsilent]
        exact hs.versions key
      · rw [held_of_lt hlt, ← funext hs.versions]
    · rw [hassoc]
      intro p hp hp'
      rcases List.mem_append.mp hp with hp | hp
      · exact hs.decodes p hp hp'
      · rw [List.mem_singleton.mp hp]
        exact ⟨obj, hobj⟩

end Seen

end Informers
