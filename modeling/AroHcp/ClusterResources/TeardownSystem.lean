import AroHcp.ClusterResources.Teardown
import AroHcp.KubeApplier.ApplyDesireController
import AroHcp.Lib.DocCall
import AroHcp.Lib.Workers

/-! The system that tears a cluster down: passes of the backend over the removal chain and one
worker of the kube-applier for each desire, on the stored desires and a management cluster that may
answer anything. -/

namespace AroHcp.ClusterResources

open Conditions Desires DocStore GoFmt KubeApplier Program Workers

/-- What happens to an object of the management cluster on behalf of a desire, and the removal of
the document of a desire. -/
inductive Event where
  | applied (k : DesireKey) (target : ResourceReference)
  | absent (k : DesireKey) (target : ResourceReference)
  | deleteIssued (k : DesireKey) (target : ResourceReference)
  | removed (k : DesireKey)
deriving DecidableEq, Repr

abbrev Desired := Store fun _ : DesireKey => ApplyDesire

/-- The stored desires and the events so far, the latest first. -/
structure TeardownState where
  store : Desired
  log : List Event

def isAbsent {α : Type} : Except KubeError α → Bool
  | .error err => isNotFound err
  | .ok _ => false

def observation (k : DesireKey) (target : ResourceReference) (absent : Bool) : List Event :=
  if absent then [.absent k target] else []

/-- A write that succeeds has happened, and one that fails may have. -/
def written (r : Outcome) : Prop :=
  r = .ok ∨ ∃ err, r = .failed err

def sem : Semantics TeardownState Call Call.Reply
  | .getApplyDesire k, s, r, s' => (r = .ok (s.store.current k) ∨ ∃ err, r = .error err) ∧ s' = s
  -- every stored desire is listed, in this state or an older one
  | .listApplyDesires, s, r, s' => (∀ l, r = .ok l → ∀ k v, s.store.current k = some v →
      ∃ d ∈ l, d.resourceID = v.doc.resourceID ∧ d.tags = v.doc.tags) ∧ s' = s
  | .createApplyDesire d, s, r, s' =>
    (written r ∧ ∃ store, s.store.create d.resourceID.toLower d = some store ∧
      s' = { s with store }) ∨ r ≠ .ok ∧ s' = s
  | .replaceApplyDesire etag d, s, r, s' =>
    (written r ∧ ∃ store, s.store.replace d.resourceID.toLower etag d = some store ∧
      s' = { s with store }) ∨ r ≠ .ok ∧ s' = s
  | .deleteApplyDesire k, s, r, s' =>
    (written r ∧ (s.store.current k).isSome ∧ s' = ⟨s.store.remove k, .removed k :: s.log⟩) ∨
      r ≠ .ok ∧ (r = .notFound → s.store.current k = none) ∧ s' = s
  | .getObject k target, s, r, s' =>
    s' = { s with log := observation k target (isAbsent r) ++ s.log }
  | .deleteObject k target, s, r, s' =>
    s' = { s with log := observation k target (r.any isNotFound) ++ .deleteIssued k target :: s.log }
  | .applyObject k target _ _, s, _, s' => s' = { s with log := .applied k target :: s.log }
  | _, s, _, s' => s' = s

/-- The kube-applier has one worker for each desire; the backend may make any number of passes. -/
inductive Worker where
  | applier (k : DesireKey)
  | backend (n : Nat)
deriving DecidableEq, Repr

def program (decodes : String → Except String Unit) (now : Int) : Worker → Prog (Option String)
  | .applier k => syncOnce decodes now k
  | .backend _ => deleteAllOwnedApplyDesires

/-! ## What the order is -/

/-- Of the applies and observations in question, the latest is an observation of an absent object;
before the first one this is as given. -/
def absentSince (about : DesireKey → ResourceReference → Bool) (before : Bool) : List Event → Bool
  | [] => before
  | .applied k target :: rest => if about k target then false else absentSince about before rest
  | .absent k target :: rest => if about k target then true else absentSince about before rest
  | _ :: rest => absentSince about before rest

/-- The object of the desire was observed absent after its last apply for the desire. -/
def seenAbsent (before : DesireKey → Bool) (log : List Event) (k : DesireKey) : Bool :=
  absentSince (fun k' _ => k' = k) (before k) log

def chainStep (name : String) : Option Nat :=
  applyDesireRemovalChain.findIdx? fun step => hasName step.names name

/-- The first desire belongs to an earlier step than the second. -/
def Earlier (k j : DesireKey) : Prop :=
  ∃ m n, chainStep k.name = some m ∧ chainStep j.name = some n ∧ m < n

section

variable (s₀ : TeardownState) (before : DesireKey → Bool)

/-- A desire of the controller that is stored when the teardown begins. -/
def Stored (k : DesireKey) : Prop :=
  ∃ v, s₀.store.current k = some v ∧ isOwned v.doc = true

def Waited (k : DesireKey) : Prop :=
  Stored s₀ k ∧ ∃ step ∈ applyDesireRemovalChain, step.waits = true ∧ hasName step.names k.name = true

/-- One that is not being deleted yet when the teardown begins. -/
def Untouched (k : DesireKey) : Prop :=
  ∃ v, s₀.store.current k = some v ∧ v.doc.spec.type ≠ .delete

def Targets (k : DesireKey) (target : ResourceReference) : Prop :=
  ∃ v, s₀.store.current k = some v ∧ v.doc.spec.targetItem = target

/-- The event is in order after those before it, and about the object that the desire targets. -/
def Legal (e : Event) (earlier : List Event) : Prop :=
  match e with
  | .applied k target | .absent k target => Targets s₀ k target
  | .deleteIssued j target => Targets s₀ j target ∧
      (Untouched s₀ j → ∀ k, Waited s₀ k → Earlier k j → seenAbsent before earlier k = true)
  | .removed k => Waited s₀ k → seenAbsent before earlier k = true

def Ordered : List Event → Prop
  | [] => True
  | e :: earlier => Legal s₀ before e earlier ∧ Ordered earlier

/-- The state in which a teardown begins: nothing has happened in it yet, and a delete that is
reported as done has been observed. -/
structure Start : Prop where
  log : s₀.log = []
  keyed : ∀ k v, s₀.store.current k = some v → v.doc.resourceID.toLower = k
  fresh : ∀ k v, s₀.store.Past k v → s₀.store.current k = some v
  settled : ∀ k v, s₀.store.current k = some v → v.doc.spec.type = .delete →
    isStatusConditionTrue v.doc.status.conditions .successfullyDeleted = true → before k = true

end

/-! ## The invariant -/

def Doomed (s : TeardownState) (k : DesireKey) : Prop :=
  ∃ v, s.store.Past k v ∧ v.doc.spec.type = .delete

def isDone (d : ApplyDesire) : Prop :=
  d.spec.type = .delete ∧
    isStatusConditionTrue d.status.conditions .successfullyDeleted = true

/-- The delete of the desire has been reported as done. -/
def Confirmed (s : TeardownState) (k : DesireKey) : Prop :=
  ∃ v, s.store.Past k v ∧ isDone v.doc

structure Inv (s₀ : TeardownState) (before : DesireKey → Bool) (s : TeardownState) : Prop where
  keyed : ∀ k v, s.store.Past k v → v.doc.resourceID.toLower = k
  origin : ∀ k v, s.store.Past k v → ∃ v₀, s₀.store.current k = some v₀ ∧
    v.doc.tags = v₀.doc.tags ∧ v.doc.spec.targetItem = v₀.doc.spec.targetItem
  gone : ∀ k, Waited s₀ k → s.store.current k = none → Confirmed s k
  absent : ∀ k, Confirmed s k → seenAbsent before s.log k = true
  doomed : ∀ k v, Doomed s k → s.store.current k = some v → v.doc.spec.type = .delete
  order : ∀ j, Untouched s₀ j → Doomed s j → ∀ k, Waited s₀ k → Earlier k j → Confirmed s k
  ordered : Ordered s₀ before s.log

/-- What is stored is never forgotten, and nothing is created. -/
structure Grows (s s' : TeardownState) : Prop where
  past : ∀ k v, s.store.Past k v → s'.store.Past k v
  none : ∀ k, s.store.current k = none → s'.store.current k = none

/-- What only the worker of the desire changes. -/
structure Keeps (before : DesireKey → Bool) (k : DesireKey) (s s' : TeardownState) : Prop where
  absent : seenAbsent before s.log k = true → seenAbsent before s'.log k = true
  confirmed : Confirmed s' k → Confirmed s k

def rely (before : DesireKey → Bool) (w : Worker) (s s' : TeardownState) : Prop :=
  Grows s s' ∧ ∀ k, w = .applier k → Keeps before k s s'

def guar (before : DesireKey → Bool) (w : Worker) (s s' : TeardownState) : Prop :=
  Grows s s' ∧ ∀ k, w ≠ .applier k → Keeps before k s s'

section

variable {s₀ s s' s'' : TeardownState} {before : DesireKey → Bool} {k : DesireKey} {w : Worker}

theorem Grows.refl (s : TeardownState) : Grows s s :=
  ⟨fun _ _ h => h, fun _ h => h⟩

theorem Grows.trans (h : Grows s s') (h' : Grows s' s'') : Grows s s'' :=
  ⟨fun k v hv => h'.past k v (h.past k v hv), fun k hk => h'.none k (h.none k hk)⟩

theorem Keeps.refl (s : TeardownState) : Keeps before k s s :=
  ⟨fun h => h, fun h => h⟩

theorem Keeps.trans (h : Keeps before k s s') (h' : Keeps before k s' s'') : Keeps before k s s'' :=
  ⟨fun ha => h'.absent (h.absent ha), fun hc => h.confirmed (h'.confirmed hc)⟩

theorem rely_refl (w : Worker) (s : TeardownState) : rely before w s s :=
  ⟨Grows.refl s, fun _ _ => Keeps.refl s⟩

theorem rely_trans (h : rely before w s s') (h' : rely before w s' s'') : rely before w s s'' :=
  ⟨h.1.trans h'.1, fun k hk => (h.2 k hk).trans (h'.2 k hk)⟩

theorem guar_refl (w : Worker) (s : TeardownState) : guar before w s s :=
  ⟨Grows.refl s, fun _ _ => Keeps.refl s⟩

theorem rely_of_guar {w' : Worker} (hne : w ≠ w') (h : guar before w s s') :
    rely before w' s s' := by
  refine ⟨h.1, ?_⟩
  rintro k rfl
  exact h.2 k hne

theorem Confirmed.grow (h : Confirmed s k) (hgrows : Grows s s') : Confirmed s' k := by
  obtain ⟨v, hv, hdone⟩ := h
  exact ⟨v, hgrows.past k v hv, hdone⟩

theorem Doomed.grow (h : Doomed s k) (hgrows : Grows s s') : Doomed s' k := by
  obtain ⟨v, hv, htype⟩ := h
  exact ⟨v, hgrows.past k v hv, htype⟩

theorem Confirmed.toDoomed (h : Confirmed s k) : Doomed s k := by
  obtain ⟨v, hv, hdone⟩ := h
  exact ⟨v, hv, hdone.1⟩

theorem Start.inv (h : Start s₀ before) : Inv s₀ before s₀ where
  keyed k v hv := h.keyed k v (h.fresh k v hv)
  origin k v hv := ⟨v, h.fresh k v hv, rfl, rfl⟩
  gone k hk hnone := by
    obtain ⟨⟨v, hv, -⟩, -⟩ := hk
    rw [hnone] at hv
    cases hv
  absent k hk := by
    obtain ⟨v, hv, hdone⟩ := hk
    rw [h.log]
    exact h.settled k v (h.fresh k v hv) hdone.1 hdone.2
  doomed k v hk hv := by
    obtain ⟨v', hv', htype⟩ := hk
    cases hv.symm.trans (h.fresh k v' hv')
    exact htype
  order j hj hdoomed := by
    obtain ⟨v, hv, htype⟩ := hj
    obtain ⟨v', hv', htype'⟩ := hdoomed
    cases hv.symm.trans (h.fresh j v' hv')
    exact absurd htype' htype
  ordered := by
    rw [h.log]
    trivial

/-! ## Changes of the store -/

theorem grows_put {v : Versioned ApplyDesire} (hv : s.store.current k = some v) (d : ApplyDesire) :
    Grows s { s with store := s.store.put k d } := by
  refine ⟨fun k' v' hv' => hv'.put k d, fun k' hk' => ?_⟩
  have hne : k' ≠ k := by
    rintro rfl
    rw [hv] at hk'
    cases hk'
  rwa [Store.put_current_of_ne _ _ hne]

theorem confirmed_put {k' : DesireKey} {d : ApplyDesire} (h : ¬(k' = k ∧ isDone d))
    (hc : Confirmed { s with store := s.store.put k d } k') : Confirmed s k' := by
  obtain ⟨v, hv, hdone⟩ := hc
  rcases Store.past_put hv with hold | hnew
  · exact ⟨v, hold, hdone⟩
  · cases hnew
    exact absurd ⟨rfl, hdone⟩ h

/-- Replacing a document keeps the invariant if its identity stays, a delete stays one, a new delete
is due, and a delete that is reported as done was observed. -/
theorem Inv.put {v : Versioned ApplyDesire} {d : ApplyDesire} (h : Inv s₀ before s)
    (hv : s.store.current k = some v) (hid : d.resourceID = v.doc.resourceID)
    (htags : d.tags = v.doc.tags) (htarget : d.spec.targetItem = v.doc.spec.targetItem)
    (hstays : v.doc.spec.type = .delete → d.spec.type = .delete)
    (hdue : d.spec.type = .delete → Untouched s₀ k →
      ∀ k', Waited s₀ k' → Earlier k' k → Confirmed s k')
    (hdone : isDone d → seenAbsent before s.log k = true) :
    Inv s₀ before { s with store := s.store.put k d } := by
  have hpast := s.store.current_mem k v hv
  have hgrows := grows_put hv d
  have hdelete : Doomed s k → d.spec.type = .delete := fun hk => hstays (h.doomed k v hk hv)
  refine ⟨?_, ?_, ?_, ?_, ?_, ?_, h.ordered⟩
  · intro k' v' hv'
    rcases Store.past_put hv' with hold | hnew
    · exact h.keyed k' v' hold
    · cases hnew
      rw [hid]
      exact h.keyed k v hpast
  · intro k' v' hv'
    rcases Store.past_put hv' with hold | hnew
    · exact h.origin k' v' hold
    · cases hnew
      obtain ⟨v₀, hv₀, heq, heq'⟩ := h.origin k v hpast
      exact ⟨v₀, hv₀, htags.trans heq, htarget.trans heq'⟩
  · intro k' hk' hnone
    refine Confirmed.grow (h.gone k' hk' ?_) hgrows
    by_cases hne : k' = k
    · subst hne
      rw [Store.put_current_self] at hnone
      cases hnone
    · rwa [Store.put_current_of_ne _ _ hne] at hnone
  · intro k' hk'
    obtain ⟨v', hv', hdone'⟩ := hk'
    rcases Store.past_put hv' with hold | hnew
    · exact h.absent k' ⟨v', hold, hdone'⟩
    · cases hnew
      exact hdone hdone'
  · intro k' v' hk' hv'
    obtain ⟨u, hu, htype⟩ := hk'
    by_cases hne : k' = k
    · subst hne
      rw [Store.put_current_self] at hv'
      cases hv'
      rcases Store.past_put hu with hold | hnew
      · exact hdelete ⟨u, hold, htype⟩
      · cases hnew
        exact htype
    · rw [Store.put_current_of_ne _ _ hne] at hv'
      rcases Store.past_put hu with hold | hnew
      · exact h.doomed k' v' ⟨u, hold, htype⟩ hv'
      · cases hnew
        exact absurd rfl hne
  · intro j hj hdoomed k' hk' hearlier
    obtain ⟨u, hu, htype⟩ := hdoomed
    refine Confirmed.grow ?_ hgrows
    rcases Store.past_put hu with hold | hnew
    · exact h.order j hj ⟨u, hold, htype⟩ k' hk' hearlier
    · cases hnew
      exact hdue htype hj k' hk' hearlier

theorem grows_remove (s : TeardownState) (k : DesireKey) :
    Grows s ⟨s.store.remove k, .removed k :: s.log⟩ := by
  refine ⟨fun k' v' hv' => hv'.remove k, fun k' hk' => ?_⟩
  by_cases hne : k' = k
  · subst hne
    exact Store.remove_current_self ..
  · rwa [Store.remove_current_of_ne _ hne]

/-- Removing a document keeps the invariant if the chain does not wait for it any more. -/
theorem Inv.remove (h : Inv s₀ before s) (hk : Waited s₀ k → Confirmed s k) :
    Inv s₀ before ⟨s.store.remove k, .removed k :: s.log⟩ where
  keyed := h.keyed
  origin := h.origin
  gone k' hk' hnone := by
    by_cases hne : k' = k
    · subst hne
      exact hk hk'
    · rw [Store.remove_current_of_ne _ hne] at hnone
      exact h.gone k' hk' hnone
  absent := h.absent
  doomed k' v' hk' hv' := by
    by_cases hne : k' = k
    · subst hne
      rw [Store.remove_current_self] at hv'
      cases hv'
    · rw [Store.remove_current_of_ne _ hne] at hv'
      exact h.doomed k' v' hk' hv'
  order := h.order
  ordered := ⟨fun hk' => h.absent k (hk hk'), h.ordered⟩

/-! ## Events on the management cluster -/

/-- The calls for a desire are about the object that it targeted when the teardown began. -/
theorem Inv.targets {v : Versioned ApplyDesire} (h : Inv s₀ before s) (hv : s.store.Past k v) :
    Targets s₀ k v.doc.spec.targetItem := by
  obtain ⟨v₀, hv₀, -, htarget⟩ := h.origin k v hv
  exact ⟨v₀, hv₀, htarget.symm⟩

/-- An event keeps the invariant if it is in order and does not undo what was observed of a desire
whose delete is reported as done. -/
theorem Inv.event {e : Event} (h : Inv s₀ before s) (hlegal : Legal s₀ before e s.log)
    (habsent : ∀ k, Confirmed s k → seenAbsent before (e :: s.log) k = true) :
    Inv s₀ before { s with log := e :: s.log } :=
  ⟨h.keyed, h.origin, h.gone, habsent, h.doomed, h.order, hlegal, h.ordered⟩

theorem grows_log (s : TeardownState) (log : List Event) : Grows s { s with log } :=
  ⟨fun _ _ h => h, fun _ h => h⟩

theorem seenAbsent_absent_self (log : List Event) (k : DesireKey) (target : ResourceReference) :
    seenAbsent before (.absent k target :: log) k = true := by
  simp [seenAbsent, absentSince]

theorem seenAbsent_absent {log : List Event} {k' : DesireKey} (target : ResourceReference)
    (h : seenAbsent before log k' = true) :
    seenAbsent before (.absent k target :: log) k' = true := by
  unfold seenAbsent absentSince
  split_ifs
  · rfl
  · exact h

theorem seenAbsent_applied_of_ne {log : List Event} {k' : DesireKey} (target : ResourceReference)
    (hne : k ≠ k') :
    seenAbsent before (.applied k target :: log) k' = seenAbsent before log k' := by
  simp [seenAbsent, absentSince, hne]

theorem seenAbsent_observation {log : List Event} {k' : DesireKey} (target : ResourceReference)
    (absent : Bool) (h : seenAbsent before log k' = true) :
    seenAbsent before (observation k target absent ++ log) k' = true := by
  cases absent with
  | false => exact h
  | true => exact seenAbsent_absent target h

theorem Inv.observation {target : ResourceReference} (h : Inv s₀ before s)
    (htarget : Targets s₀ k target) (absent : Bool) :
    Inv s₀ before { s with log := observation k target absent ++ s.log } := by
  cases absent with
  | false => exact h
  | true => exact h.event htarget fun k' hk' => seenAbsent_absent target (h.absent k' hk')

theorem Inv.deleteIssued {target : ResourceReference} (h : Inv s₀ before s)
    (htarget : Targets s₀ k target) (hk : Doomed s k) :
    Inv s₀ before { s with log := .deleteIssued k target :: s.log } := by
  refine h.event ⟨htarget, ?_⟩ h.absent
  intro huntouched k' hk' hearlier
  exact h.absent k' (h.order k huntouched hk k' hk' hearlier)

theorem Inv.applied {target : ResourceReference} (h : Inv s₀ before s)
    (htarget : Targets s₀ k target) (hk : ¬Confirmed s k) :
    Inv s₀ before { s with log := .applied k target :: s.log } := by
  refine h.event htarget ?_
  intro k' hk'
  have hne : k ≠ k' := by
    rintro rfl
    exact hk hk'
  rw [seenAbsent_applied_of_ne target hne]
  exact h.absent k' hk'

end

end AroHcp.ClusterResources
