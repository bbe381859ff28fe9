import AroHcp.Informers.Newest
import AroHcp.Lib.ExceptLoop
import AroHcp.Lib.Runs

/-! The list and the events of a watch are a consistent stream of objects. What a reader holds
follows the newest states that were listed or processed; this one invariant carries the order of the
events as well as what is held in the end. -/

namespace Informers

open Relation

variable {Item Obj Range : Type} {w : Watcher Item Obj} {st : Storage w} {versions' : Versions}
  {event : Option (Event Obj)} {d : Document Item}

/-! ## The list -/

section Listed

variable {h : History Item} {docs : List (Document Item)} {listed : List Obj}

/-- A list of live documents with growing versions, put into a map one after the other, is what is
held of the newest ones. -/
theorem foldl_update_eq_held {α : Type} {f : Obj → Option α} {value : Document Item → Option α}
    (hvalue : ∀ d ∈ docs, ∀ obj, w.toInternal d.item = .ok obj → value d = f obj)
    (hfaithful : ∀ d ∈ docs, st.Faithful d) (hlive : ∀ d ∈ docs, st.live d = true)
    (hdecodes : ∀ d ∈ docs, ∃ obj, w.toInternal d.item = .ok obj)
    (hincreasing : Increasing docs) :
    ∀ key, (docs.filterMap fun d => (w.toInternal d.item).toOption).foldl
      (fun m obj => Function.update m (w.canonicalResourceID obj) (f obj)) (fun _ => none) key =
        held st value (lastSeen docs key) := by
  induction docs using List.reverseRecOn with
  | nil => exact fun key => rfl
  | append_singleton docs d ih =>
    have hleft : ∀ p ∈ docs, p ∈ docs ++ [d] := fun p hp => List.mem_append_left _ hp
    have hd : d ∈ docs ++ [d] := by simp
    obtain ⟨hdocs, -, hlast⟩ := List.pairwise_append.mp hincreasing
    have hlt : ∀ a, lastSeen docs d.key = some a → a.version < d.version := by
      intro a ha
      obtain ⟨hmem, hkey⟩ := mem_of_lastSeen ha
      exact (hlast a hmem d (List.mem_singleton_self d) hkey).1
    have ih' := ih (fun p hp => hvalue p (hleft p hp)) (fun p hp => hfaithful p (hleft p hp))
      (fun p hp => hlive p (hleft p hp)) (fun p hp => hdecodes p (hleft p hp)) hdocs
    obtain ⟨obj, hobj⟩ := hdecodes d hd
    have hone : [d].filterMap (fun d => (w.toInternal d.item).toOption) = [obj] := by
      simp [hobj, Except.toOption]
    intro key
    rw [held_of_lt hlt, List.filterMap_append, hone, List.foldl_append, List.foldl_cons,
      List.foldl_nil, ((hfaithful d hd).internal obj hobj).1, funext ih', hlive d hd, if_pos rfl,
      hvalue d hd obj hobj]

theorem mem_listedDocuments :
    d ∈ st.listedDocuments docs ↔ d ∈ docs ∧ st.live d = true ∧
      ∃ c, current docs d.key = some c ∧ c.version = d.version := by
  unfold Storage.listedDocuments
  simp [List.mem_filter, Option.any_eq_true]

section

variable (hfaithful : ∀ d ∈ h.writes, st.Faithful d) {point : ℕ}
  (hlist : st.list (h.writes.take point) = .ok listed)

include hfaithful hlist

/-- The delivery begins with the newest states that were listed. -/
theorem seen_begin :
    Seen st h (st.listedDocuments (h.writes.take point)) (w.listedVersions listed) [] ∧
      ∀ key, replaced w listed key = held st (fun d => (w.toInternal d.item).toOption)
        (lastSeen (st.listedDocuments (h.writes.take point)) key) := by
  obtain ⟨hdecodes, rfl⟩ := ExceptLoop.mapM_eq_ok hlist
  have hmem : ∀ d ∈ st.listedDocuments (h.writes.take point), d ∈ h.writes :=
    fun d hd => List.mem_of_mem_take (mem_listedDocuments.mp hd).1
  have hlive : ∀ d ∈ st.listedDocuments (h.writes.take point), st.live d = true :=
    fun d hd => (mem_listedDocuments.mp hd).2.1
  have hincreasing : Increasing (st.listedDocuments (h.writes.take point)) :=
    h.increasing.sublist (List.filter_sublist.trans (List.take_sublist _ _))
  have hfaithful' := fun d hd => hfaithful d (hmem d hd)
  refine ⟨⟨?_, ?_, ?_, ?_⟩, ?_⟩
  · intro key
    rw [List.append_nil]
    refine foldl_update_eq_held ?_ hfaithful' hlive hdecodes hincreasing key
    intro d hd obj hobj
    rw [((hfaithful' d hd).internal obj hobj).2.1]
  · intro key d hd hhidden
    rw [List.append_nil] at hd
    rw [hlive d (mem_of_lastSeen hd).1] at hhidden
    cases hhidden
  · rw [List.append_nil]
    exact hmem
  · rw [List.append_nil]
    exact fun d hd _ => hdecodes d hd
  · refine foldl_update_eq_held ?_ hfaithful' hlive hdecodes hincreasing
    intro d _ obj hobj
    rw [hobj]
    rfl

/-- Every object of the list is a state that was listed. -/
theorem exists_listedDocument {obj : Obj} (hobj : obj ∈ listed) :
    ∃ d ∈ st.listedDocuments (h.writes.take point),
      d.key = w.canonicalResourceID obj ∧ d.version = w.getInstanceVersion obj := by
  obtain ⟨-, rfl⟩ := ExceptLoop.mapM_eq_ok hlist
  obtain ⟨d, hd, hdecoded⟩ := List.mem_filterMap.mp hobj
  have hmem := List.mem_of_mem_take (mem_listedDocuments.mp hd).1
  have hok : w.toInternal d.item = .ok obj := by
    cases hitem : w.toInternal d.item with
    | error err =>
      rw [hitem] at hdecoded
      cases hdecoded
    | ok o =>
      rw [hitem] at hdecoded
      exact congrArg _ (Option.some.inj hdecoded)
  obtain ⟨hkey, hversion, -⟩ := (hfaithful d hmem).internal obj hok
  exact ⟨d, hd, hkey.symm, hversion.symm⟩

end

end Listed

/-! ## Runs -/

section Runs

variable [DecidableEq Range] {h : History Item} {listedDocs : List (Document Item)}
  {listed : List Obj} {s s' : State Range Item Obj}

/-- Every item of a batch is a state that was written. -/
def FromHistory (h : History Item) (batch : Range → Option (List (Document Item) × String)) : Prop :=
  ∀ r items next, batch r = some (items, next) → ∀ d ∈ items, d ∈ h.writes

structure Inv (st : Storage w) (h : History Item) (listedDocs : List (Document Item))
    (listed : List Obj) (s : State Range Item Obj) : Prop where
  seen : Seen st h listedDocs s.versions s.processed
  batches : FromHistory h s.batch
  bounded : ∀ e ∈ s.events, ∃ d,
    lastSeen (listedDocs ++ s.processed) (w.canonicalResourceID e.object) = some d ∧
      w.getInstanceVersion e.object ≤ d.version
  ordered : s.events.Pairwise fun a b =>
    w.canonicalResourceID a.object = w.canonicalResourceID b.object →
      w.getInstanceVersion a.object < w.getInstanceVersion b.object
  afterListed : ∀ obj ∈ listed, ∀ e ∈ s.events,
    w.canonicalResourceID obj = w.canonicalResourceID e.object →
      w.getInstanceVersion obj < w.getInstanceVersion e.object
  follows : s.stopped = false → ∀ key, replay w listed s.events key =
    held st (fun d => (w.toInternal d.item).toOption) (lastSeen (listedDocs ++ s.processed) key)

theorem batches_update {r : Range} {items : List (Document Item)} {next : String}
    {batch : Range → Option (List (Document Item) × String)} (hbatches : FromHistory h batch)
    (hitems : ∀ d ∈ items, d ∈ h.writes) :
    FromHistory h (Function.update batch r (some (items, next))) := by
  intro r' items' next' heq
  by_cases hr : r' = r
  · rw [hr, Function.update_self] at heq
    cases heq
    exact hitems
  · rw [Function.update_of_ne hr] at heq
    exact hbatches r' items' next' heq

theorem batches_none {r : Range} {batch : Range → Option (List (Document Item) × String)}
    (hbatches : FromHistory h batch) : FromHistory h (Function.update batch r none) := by
  intro r' items' next' heq
  by_cases hr : r' = r
  · rw [hr, Function.update_self] at heq
    cases heq
  · rw [Function.update_of_ne hr] at heq
    exact hbatches r' items' next' heq

theorem bounded_append {events : List (Event Obj)} {docs : List (Document Item)}
    (hbounded : ∀ e ∈ events, ∃ d, lastSeen docs (w.canonicalResourceID e.object) = some d ∧
      w.getInstanceVersion e.object ≤ d.version) (d : Document Item) :
    ∀ e ∈ events, ∃ b, lastSeen (docs ++ [d]) (w.canonicalResourceID e.object) = some b ∧
      w.getInstanceVersion e.object ≤ b.version := by
  intro e he
  obtain ⟨a, ha, hle⟩ := hbounded e he
  obtain ⟨b, hb, hge⟩ := lastSeen_append_ge ha d
  exact ⟨b, hb, hle.trans hge⟩

omit [DecidableEq Range] in
/-- An item either changes nothing that is held, or its event is newer than all before. -/
theorem Inv.process_cases (hi : Inv st h listedDocs listed s)
    (hfaithful : ∀ d ∈ h.writes, st.Faithful d)
    (hd : d ∈ h.writes) (horder : st.InOrder s d)
    (hok : w.processItem s.versions d.item = .ok (versions', event)) :
    (event = none ∧ ∀ key, held st (fun d => (w.toInternal d.item).toOption)
      (lastSeen (listedDocs ++ s.processed ++ [d]) key) =
        held st (fun d => (w.toInternal d.item).toOption) (lastSeen (listedDocs ++ s.processed) key)) ∨
    ∃ e, event = some e ∧ w.canonicalResourceID e.object = d.key ∧
      w.getInstanceVersion e.object = d.version ∧ w.toInternal d.item = .ok e.object ∧
      (e.type = .deleted ↔ st.live d = false) ∧
      ∀ a, lastSeen (listedDocs ++ s.processed) d.key = some a → a.version < d.version := by
  rcases processItem_outcome (hfaithful d hd) hok with ⟨hother, -, rfl⟩ | ⟨-, obj, hobj, hout⟩
  · have hlive : ∀ a : Document Item, a.key = d.key → st.live a = false := by
      intro a ha
      simp [Storage.live, ha, hother]
    exact .inl ⟨rfl, held_of_silent (.inl ⟨hlive d rfl, fun a ha => hlive a (mem_of_lastSeen ha).2⟩)⟩
  · rcases hi.seen.outcome hd horder hout with ⟨-, rfl, hsilent⟩ | ⟨-, ⟨e, rfl, rfl, htype⟩, hlt⟩
    · exact .inl ⟨rfl, held_of_silent hsilent⟩
    · obtain ⟨hkey, hversion, -⟩ := (hfaithful d hd).internal e.object hobj
      exact .inr ⟨e, rfl, hkey, hversion, hobj, htype, hlt⟩

theorem Inv.process (hi : Inv st h listedDocs listed s) (hfaithful : ∀ d ∈ h.writes, st.Faithful d)
    (hlisted : ∀ obj ∈ listed, ∃ d ∈ listedDocs,
      d.key = w.canonicalResourceID obj ∧ d.version = w.getInstanceVersion obj)
    {r : Range} {rest : List (Document Item)} {next : String}
    (hbatch : s.batch r = some (d :: rest, next)) (horder : st.InOrder s d)
    (hok : w.processItem s.versions d.item = .ok (versions', event)) :
    Inv st h listedDocs listed { s with
      versions := versions'
      events := s.events ++ event.toList
      batch := Function.update s.batch r (some (rest, next))
      processed := s.processed ++ [d] } := by
  have hd : d ∈ h.writes := hi.batches r _ next hbatch d List.mem_cons_self
  have hbatches : FromHistory h (Function.update s.batch r (some (rest, next))) :=
    batches_update hi.batches fun p hp => hi.batches r _ next hbatch p (List.mem_cons_of_mem _ hp)
  have hseen := hi.seen.process hd (hfaithful d hd) horder hok
  have hassoc : listedDocs ++ (s.processed ++ [d]) = listedDocs ++ s.processed ++ [d] :=
    (List.append_assoc _ _ _).symm
  rcases hi.process_cases hfaithful hd horder hok with
    ⟨rfl, hsame⟩ | ⟨e, rfl, hkey, hversion, hobj, htype, hlt⟩
  · refine ⟨hseen, hbatches, ?_, ?_, ?_, ?_⟩
    · simp only [hassoc, Option.toList_none, List.append_nil]
      exact bounded_append hi.bounded d
    · simpa using hi.ordered
    · simpa using hi.afterListed
    · intro hrunning key
      simp only [hassoc, Option.toList_none, List.append_nil]
      rw [hsame]
      exact hi.follows hrunning key
  · have hlast := lastSeen_of_lt hlt
    -- whatever was seen of the ID before the event is older
    have holder : ∀ version, (∃ a, lastSeen (listedDocs ++ s.processed) d.key = some a ∧
        version ≤ a.version) → version < w.getInstanceVersion e.object := by
      rintro version ⟨a, ha, hle⟩
      rw [hversion]
      exact hle.trans_lt (hlt a ha)
    refine ⟨hseen, hbatches, ?_, ?_, ?_, ?_⟩
    · simp only [hassoc, Option.toList_some]
      intro e' he'
      rcases List.mem_append.mp he' with he' | he'
      · exact bounded_append hi.bounded d e' he'
      · rw [List.mem_singleton.mp he', hkey]
        exact ⟨d, hlast, hversion.le⟩
    · refine List.pairwise_append.mpr ⟨hi.ordered, List.pairwise_singleton _ _, ?_⟩
      intro e' he' e'' he'' heq
      rw [Option.toList_some, List.mem_singleton] at he''
      subst he''
      obtain ⟨a, ha, hle⟩ := hi.bounded e' he'
      rw [heq, hkey] at ha
      exact holder _ ⟨a, ha, hle⟩
    · intro obj hmem e' he' heq
      rcases List.mem_append.mp he' with he' | he'
      · exact hi.afterListed obj hmem e' he' heq
      · rw [Option.toList_some, List.mem_singleton] at he'
        subst he'
        obtain ⟨p, hp, hpkey, hpversion⟩ := hlisted obj hmem
        obtain ⟨a, ha, hle⟩ := le_lastSeen (List.mem_append_left s.processed hp)
        rw [hpkey, heq, hkey] at ha
        exact holder _ ⟨a, ha, hpversion ▸ hle⟩
    · intro hrunning key
      simp only [hassoc, Option.toList_some]
      unfold replay
      rw [List.foldl_append, List.foldl_cons, List.foldl_nil, held_of_lt hlt,
        ← funext (hi.follows hrunning), applyEvent, hkey, hobj]
      have hvalue : (if e.type = .deleted then none else some e.object) =
          if st.live d = true then (Except.ok e.object : Except String Obj).toOption else none := by
        cases hlive : st.live d <;> simp [htype, hlive, Except.toOption]
      rw [hvalue]
      rfl

theorem Inv.step (hfaithful : ∀ d ∈ h.writes, st.Faithful d)
    (hlisted : ∀ obj ∈ listed, ∃ d ∈ listedDocs,
      d.key = w.canonicalResourceID obj ∧ d.version = w.getInstanceVersion obj)
    (hi : Inv st h listedDocs listed s) (hstep : Step w st.InOrder h s s') :
    Inv st h listedDocs listed s' := by
  cases hstep with
  | read items next _ hitems => exact { hi with batches := batches_update hi.batches hitems }
  | process hbatch horder hok => exact hi.process hfaithful hlisted hbatch horder hok
  | fail | record => exact { hi with batches := batches_none hi.batches }
  | stop => exact { hi with follows := fun h => by cases h }
  | @leave r d rest next _ hbatch =>
    exact { hi with
      batches := batches_update hi.batches fun p hp =>
        hi.batches r _ next hbatch p (List.mem_cons_of_mem _ hp) }
  | @drop r d rest next versions event hstopped hbatch horder hok =>
    have hd : d ∈ h.writes := hi.batches r _ next hbatch d List.mem_cons_self
    refine ⟨hi.seen.process hd (hfaithful d hd) horder hok, ?_, ?_, hi.ordered, hi.afterListed, ?_⟩
    · exact batches_update hi.batches fun p hp =>
        hi.batches r _ next hbatch p (List.mem_cons_of_mem _ hp)
    · rw [← List.append_assoc]
      exact bounded_append hi.bounded d
    · intro hrunning
      rw [hstopped] at hrunning
      cases hrunning

section

variable (hfaithful : ∀ d ∈ h.writes, st.Faithful d) {point : ℕ}
  (hlist : st.list (h.writes.take point) = .ok listed)

include hfaithful hlist

omit [DecidableEq Range] in
theorem inv_begin :
    Inv st h (st.listedDocuments (h.writes.take point)) listed
      (begin w listed : State Range Item Obj) := by
  obtain ⟨hseen, hreplaced⟩ := seen_begin hfaithful hlist
  refine ⟨hseen, ?_, ?_, .nil, ?_, ?_⟩
  · intro r items next hbatch
    cases hbatch
  · intro e he
    cases he
  · intro obj _ e he
    cases he
  · intro _ key
    show replaced w listed key = held st _ (lastSeen (_ ++ []) key)
    rw [List.append_nil]
    exact hreplaced key

variable (hrun : ReflTransGen (Step w st.InOrder h) (begin w listed) s)

include hrun

theorem inv_of_run :
    Inv st h (st.listedDocuments (h.writes.take point)) listed s :=
  Runs.invariant hrun (inv_begin hfaithful hlist) fun _ _ hi hstep =>
    hi.step hfaithful (fun _ hobj => exists_listedDocument hfaithful hlist hobj) hstep

/-- The map is what the reader holds, by versions. -/
theorem versions_eq_replay (hrunning : s.stopped = false) (key : String) :
    s.versions key = (replay w listed s.events key).map w.getInstanceVersion := by
  have hi := inv_of_run hfaithful hlist hrun
  rw [hi.follows hrunning, hi.seen.versions]
  cases hseen : lastSeen (st.listedDocuments (h.writes.take point) ++ s.processed) key with
  | none => rfl
  | some d =>
    by_cases hlive : st.live d = true
    · obtain ⟨hmem, -⟩ := mem_of_lastSeen hseen
      have hwatched : st.watched d.key = true := by
        simp only [Storage.live, Bool.and_eq_true] at hlive
        exact hlive.1.1
      obtain ⟨obj, hobj⟩ := hi.seen.decodes d hmem hwatched
      have hversion := ((hfaithful d (hi.seen.written d hmem)).internal obj hobj).2.1
      simp [held, hlive, hobj, Except.toOption, hversion]
    · simp [held, hlive]

end

/-- The latest state of every watched document has been delivered: by the feed, or by the list where
the list already had it and the feed did not bring back an older one. -/
def UpToDate (st : Storage w) (h : History Item) (point : ℕ) (s : State Range Item Obj) : Prop :=
  ∀ key d, current h.writes key = some d → st.watched key = true → d ∈ s.processed ∨
    current (h.writes.take point) key = some d ∧ (st.live d = true ∨ ∀ p ∈ s.processed, p.key ≠ key)

omit [DecidableEq Range] in
/-- Where the latest state was delivered, it is the newest one seen, or neither is live. -/
theorem held_of_upToDate {α : Type} {value : Document Item → Option α} {point : ℕ}
    (hwritten : ∀ d ∈ st.listedDocuments (h.writes.take point) ++ s.processed, d ∈ h.writes)
    (hupToDate : UpToDate st h point s) (key : String) :
    held st value (lastSeen (st.listedDocuments (h.writes.take point) ++ s.processed) key) =
      held st value (current h.writes key) := by
  cases hlast : lastSeen (st.listedDocuments (h.writes.take point) ++ s.processed) key with
  | none =>
    rcases hcurrent : current h.writes key with _ | d
    · rfl
    -- a live latest state would have been seen
    obtain ⟨hd, hkey⟩ := mem_of_current hcurrent
    have hunseen : d ∉ st.listedDocuments (h.writes.take point) ++ s.processed := by
      intro hmem
      obtain ⟨a, ha, -⟩ := le_lastSeen hmem
      rw [hkey, hlast] at ha
      cases ha
    have hdead : st.live d = false := by
      by_contra hlive
      rw [Bool.not_eq_false] at hlive
      have hwatched : st.watched key = true := by
        simp only [Storage.live, Bool.and_eq_true, hkey] at hlive
        exact hlive.1.1
      rcases hupToDate key d hcurrent hwatched with hmem | ⟨hpoint, -⟩
      · exact hunseen (List.mem_append_right _ hmem)
      · refine hunseen (List.mem_append_left _ (mem_listedDocuments.mpr ⟨?_, hlive, d, ?_, rfl⟩))
        · exact (mem_of_current hpoint).1
        · exact hkey ▸ hpoint
    simp [held, hdead]
  | some a =>
    obtain ⟨hmem, hkey⟩ := mem_of_lastSeen hlast
    have ha := hwritten a hmem
    obtain ⟨d, hcurrent⟩ := exists_current ha
    rw [hkey] at hcurrent
    obtain ⟨hd, hdkey⟩ := mem_of_current hcurrent
    have hle := version_le_current h.increasing hcurrent ha hkey
    -- the latest state was seen, so that it is the newest one seen
    have heq : d ∈ st.listedDocuments (h.writes.take point) ++ s.processed → a = d := by
      intro hseen
      obtain ⟨b, hb, hge⟩ := le_lastSeen hseen
      rw [hdkey, hlast] at hb
      cases hb
      exact eq_of_version h ha hd (hkey.trans hdkey.symm) (le_antisymm hle hge)
    by_cases hwatched : st.watched key = true
    · rcases hupToDate key d hcurrent hwatched with hseen | ⟨hpoint, hlive | hnone⟩
      · rw [hcurrent, heq (List.mem_append_right _ hseen)]
      · have hlisted : d ∈ st.listedDocuments (h.writes.take point) :=
          mem_listedDocuments.mpr ⟨(mem_of_current hpoint).1, hlive, d, hdkey ▸ hpoint, rfl⟩
        rw [hcurrent, heq (List.mem_append_left _ hlisted)]
      · rcases List.mem_append.mp hmem with hlisted | hprocessed
        · obtain ⟨ha', halive, c, hc, hversion⟩ := mem_listedDocuments.mp hlisted
          rw [hkey, hpoint] at hc
          cases hc
          have : d = a := eq_of_version h hd ha (hdkey.trans hkey.symm) hversion
          rw [hcurrent, this]
        · exact absurd hkey (hnone a hprocessed)
    · have hdead : ∀ b : Document Item, b.key = key → st.live b = false := by
        intro b hb
        simp [Storage.live, hb, hwatched]
      rw [hcurrent]
      simp [held, hdead a hkey, hdead d hdkey]

/-- A step that sends an event found its ID absent from the map exactly if the event adds it. -/
theorem added_iff_absent (hi : Inv st h listedDocs listed s)
    (hfaithful : ∀ d ∈ h.writes, st.Faithful d) (hstep : Step w st.InOrder h s s') {e : Event Obj}
    (he : s'.events = s.events ++ [e]) :
    e.type = .added ↔ s.versions (w.canonicalResourceID e.object) = none := by
  have hself : ∀ {events : List (Event Obj)}, events ≠ events ++ [e] := by
    intro events h
    simpa using congrArg List.length h
  cases hstep with
  | @process r d rest next versions event hbatch horder hok =>
    have hd : d ∈ h.writes := hi.batches r _ next hbatch d List.mem_cons_self
    have hevent : event = some e := by
      cases event with
      | none => simp at he
      | some e' => simpa using he
    subst hevent
    rcases processItem_outcome (hfaithful d hd) hok with ⟨-, -, hnone⟩ | ⟨-, obj, hobj, hout⟩
    · cases hnone
    · obtain ⟨hkey, -, -⟩ := (hfaithful d hd).internal obj hobj
      generalize st.live d = live at hout
      cases hout with
      | removed hv => simp [hkey, hv]
      | shown hnew htype =>
        rw [htype, hkey]
        cases hv : s.versions d.key <;> simp
  | read | fail | record | stop | leave | drop => exact absurd he hself

/-- A batch arrives, or a range goes on with its batch. -/
inductive Action (Range Item : Type) where
  | read (r : Range) (items : List (Document Item)) (next : String)
  | advance (r : Range)

variable [DecidableEq Item] {order : State Range Item Obj → Document Item → Prop}
  [∀ s d, Decidable (order s d)]

variable (order) in
def next (w : Watcher Item Obj) (h : History Item) (s : State Range Item Obj) :
    Action Range Item → Option (State Range Item Obj)
  | .read r items next =>
    if (s.batch r).isNone ∧ ∀ d ∈ items, d ∈ h.writes then
      some { s with batch := Function.update s.batch r (some (items, next)) }
    else none
  | .advance r =>
    match s.batch r with
    | none => none
    | some ([], next) => some { s with
        batch := Function.update s.batch r none
        continuationTokens := Function.update s.continuationTokens r (some next) }
    | some (d :: rest, next) =>
      match w.processItem s.versions d.item with
      | .error _ => some { s with batch := Function.update s.batch r none }
      | .ok (versions, event) =>
        if order s d then
          some { s with
            versions := versions
            events := s.events ++ event.toList
            batch := Function.update s.batch r (some (rest, next))
            processed := s.processed ++ [d] }
        else none

theorem step_of_next {action : Action Range Item} (hnext : next order w h s action = some s') :
    Step w order h s s' := by
  unfold next at hnext
  split at hnext
  · split at hnext
    · next hread =>
      cases hnext
      exact .read _ _ (Option.isNone_iff_eq_none.mp hread.1) hread.2
    · cases hnext
  · split at hnext
    · cases hnext
    · next hbatch =>
      cases hnext
      exact .record hbatch
    · next hbatch =>
      split at hnext
      · next herror =>
        cases hnext
        exact .fail hbatch herror
      · next hok =>
        split at hnext
        · next horder =>
          cases hnext
          exact .process hbatch horder hok
        · cases hnext

theorem run_of_foldlM {actions : List (Action Range Item)}
    (hactions : actions.foldlM (next order w h) s = some s') :
      ReflTransGen (Step w order h) s s' := by
  induction actions generalizing s with
  | nil =>
    cases hactions
    exact .refl
  | cons action actions ih =>
    obtain ⟨s1, hnext, hrest⟩ := Option.bind_eq_some_iff.mp hactions
    exact .head (step_of_next hnext) (ih hrest)

end Runs

/-! Two documents, one of which has a state that cannot be decoded. -/

/-- The bytes: an ID, a version and whether it is deleted, or nothing that can be read. -/
abbrev Bytes := Option (String × Int × Bool)

def clusterWatcher : Watcher Bytes (String × Int) where
  desiredResourceTypes := ["clusters"]
  shouldDeliverItemFn := none
  unmarshalTyped
    | none => .error "invalid character"
    | some (id, _, deleted) => .ok ⟨id, "Clusters", some id, if deleted then some 0 else none⟩
  toInternal
    | none => .error "invalid character"
    | some (id, version, _) => .ok (id, version)
  getResourceID := Prod.fst
  getInstanceVersion := Prod.snd

def clusterStorage : Storage clusterWatcher where
  watched _ := true
  query _ := true

def stateOf (key : String) (version : Int) (deleted : Bool) : Document Bytes :=
  ⟨key, version, deleted, some (key, version, deleted)⟩

/-- The second document was once written in a form that the watcher cannot decode. -/
def unreadable : Document Bytes :=
  ⟨"b", 1, false, none⟩

def clusterHistory : History Bytes where
  writes := [stateOf "a" 1 false, unreadable, stateOf "a" 2 false, stateOf "b" 2 false,
    stateOf "a" 3 true]
  increasing := by decide

theorem clusterHistory_faithful : ∀ d ∈ clusterHistory.writes, clusterStorage.Faithful d := by
  have hstate : ∀ key version deleted, GoFmt.toLower key = key →
      clusterStorage.Faithful (stateOf key version deleted) := by
    intro key version deleted hkey
    refine ⟨?_, ?_⟩
    · intro doc hdoc
      cases hdoc
      refine ⟨?_, rfl, ?_⟩
      · show GoStrings.equalFold "Clusters" "clusters" || false = true
        decide +kernel
      · cases deleted <;> rfl
    · intro obj hobj
      cases hobj
      exact ⟨hkey, rfl, rfl⟩
  have ha : GoFmt.toLower "a" = "a" := by decide +kernel
  have hb : GoFmt.toLower "b" = "b" := by decide +kernel
  intro d hd
  simp only [clusterHistory, List.mem_cons, List.not_mem_nil, or_false] at hd
  rcases hd with rfl | rfl | rfl | rfl | rfl
  · exact hstate _ _ _ ha
  · refine ⟨?_, ?_⟩ <;> intro _ h <;> cases h
  · exact hstate _ _ _ ha
  · exact hstate _ _ _ hb
  · exact hstate _ _ _ ha

/-- The first batch fails at its second item and is read again, with the state written since. -/
def replayedSchedule : List (Action Unit Bytes) :=
  [.read () [stateOf "a" 2 false, unreadable] "t1", .advance (), .advance (),
    .read () [stateOf "a" 2 false, stateOf "b" 2 false] "t1", .advance (), .advance (), .advance (),
    .read () [stateOf "a" 3 true] "t2", .advance (), .advance ()]

/-- A batch that fails at its last item, and begins again after the deletion in it was delivered. -/
def undeletedSchedule : List (Action Unit Bytes) :=
  [.read () [stateOf "a" 2 false, stateOf "a" 3 true, unreadable] "t1", .advance (), .advance (),
    .advance (), .read () [stateOf "a" 2 false, stateOf "a" 3 true, unreadable] "t1", .advance ()]

end Informers
