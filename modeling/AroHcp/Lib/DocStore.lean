import Mathlib.Data.Sigma.Basic
import Mathlib.Logic.Function.Basic

/-! A document store with optimistic concurrency. Every write gives the document a new ETag and a
replace is accepted only with the ETag of the stored document. The store remembers everything it
ever held, so that a copy read earlier, however old, is an entry of its history. -/

namespace DocStore

variable {K : Type} {α : K → Type}

/-- A document with the ETag of the write that stored it. -/
structure Versioned (δ : Type) where
  etag : Nat
  doc : δ
deriving DecidableEq, Repr

structure Store (α : K → Type) where
  current : (k : K) → Option (Versioned (α k))
  history : List (Sigma fun k => Versioned (α k))
  nextETag : Nat
  current_mem : ∀ k v, current k = some v → ⟨k, v⟩ ∈ history
  etag_lt : ∀ e ∈ history, e.2.etag < nextETag
  etag_inj : ∀ e ∈ history, ∀ e' ∈ history, e.2.etag = e'.2.etag → e = e'

namespace Store

def empty : Store α where
  current _ := none
  history := []
  nextETag := 0
  current_mem _ _ h := by cases h
  etag_lt _ h := by cases h
  etag_inj _ h := by cases h

/-- The document was stored under `k` at some time with this ETag. -/
def Past (s : Store α) (k : K) (v : Versioned (α k)) : Prop :=
  ⟨k, v⟩ ∈ s.history

variable {s : Store α}

/-- A copy that carries the ETag of a stored document is that document. -/
theorem current_eq_of_etag {k k' : K} {v : Versioned (α k)} {c : Versioned (α k')}
    (hpast : s.Past k v) (hcurrent : s.current k' = some c) (hetag : c.etag = v.etag) :
    (⟨k', c⟩ : Sigma fun k => Versioned (α k)) = ⟨k, v⟩ :=
  s.etag_inj _ (s.current_mem k' c hcurrent) _ hpast hetag

/-- The stored documents, whatever their key. -/
def scan (s : Store α) : List (Sigma fun k => Versioned (α k)) :=
  s.history.filter fun e => (s.current e.1).any fun v => v.etag == e.2.etag

theorem mem_scan {k : K} {v : Versioned (α k)} :
    ⟨k, v⟩ ∈ s.scan ↔ s.current k = some v := by
  unfold scan
  rw [List.mem_filter, Option.any_eq_true]
  constructor
  · rintro ⟨hpast, c, hcurrent, hetag⟩
    have heq := current_eq_of_etag hpast hcurrent (beq_iff_eq.mp hetag)
    rw [Sigma.mk.injEq] at heq
    exact eq_of_heq heq.2 ▸ hcurrent
  · intro hcurrent
    exact ⟨s.current_mem k v hcurrent, v, hcurrent, beq_self_eq_true _⟩

/-- What a later store keeps of an earlier one: everything it ever held, and a copy that has been
overwritten is never stored again. -/
structure Later (s s' : Store α) : Prop where
  past : ∀ k v, s.Past k v → s'.Past k v
  current : ∀ k v, s.Past k v → s'.current k = some v → s.current k = some v

theorem Later.refl (s : Store α) : s.Later s :=
  ⟨fun _ _ h => h, fun _ _ _ h => h⟩

theorem Later.trans {s' s'' : Store α} (h : s.Later s') (h' : s'.Later s'') : s.Later s'' where
  past k v hv := h'.past k v (h.past k v hv)
  current k v hv hcurrent := h.current k v hv (h'.current k v (h.past k v hv) hcurrent)

/-- Changes every document, as if it had always been so. -/
def map (s : Store α) (f : (k : K) → α k → α k) : Store α where
  current k := (s.current k).map fun v => { v with doc := f k v.doc }
  history := s.history.map fun e => ⟨e.1, { e.2 with doc := f e.1 e.2.doc }⟩
  nextETag := s.nextETag
  current_mem k v h := by
    obtain ⟨w, hw, rfl⟩ := Option.map_eq_some_iff.mp h
    exact List.mem_map.mpr ⟨⟨k, w⟩, s.current_mem k w hw, rfl⟩
  etag_lt e h := by
    obtain ⟨e', he', rfl⟩ := List.mem_map.mp h
    exact s.etag_lt e' he'
  etag_inj e h e' h' he := by
    obtain ⟨d, hd, rfl⟩ := List.mem_map.mp h
    obtain ⟨d', hd', rfl⟩ := List.mem_map.mp h'
    rw [s.etag_inj d hd d' hd' he]

@[simp] theorem map_current (s : Store α) (f : (k : K) → α k → α k) (k : K) :
    (s.map f).current k = (s.current k).map fun v => { v with doc := f k v.doc } := rfl

variable [DecidableEq K]

/-- Stores a document, new or not, under a new ETag. -/
def put (s : Store α) (k : K) (doc : α k) : Store α where
  current := Function.update s.current k (some ⟨s.nextETag, doc⟩)
  history := ⟨k, ⟨s.nextETag, doc⟩⟩ :: s.history
  nextETag := s.nextETag + 1
  current_mem k' v h := by
    by_cases hk : k' = k
    · subst hk
      rw [Function.update_self, Option.some.injEq] at h
      exact h ▸ List.mem_cons_self
    · rw [Function.update_of_ne hk] at h
      exact List.mem_cons_of_mem _ (s.current_mem k' v h)
  etag_lt e h := by
    rcases List.mem_cons.mp h with rfl | hold
    · exact Nat.lt_succ_self _
    · exact Nat.lt_succ_of_lt (s.etag_lt e hold)
  etag_inj e h e' h' he := by
    rcases List.mem_cons.mp h with rfl | hold
    · rcases List.mem_cons.mp h' with rfl | hold'
      · rfl
      · exact absurd (s.etag_lt e' hold') (he ▸ Nat.lt_irrefl _)
    · rcases List.mem_cons.mp h' with rfl | hold'
      · exact absurd (s.etag_lt e hold) (he ▸ Nat.lt_irrefl _)
      · exact s.etag_inj e hold e' hold' he

def remove (s : Store α) (k : K) : Store α where
  current := Function.update s.current k none
  history := s.history
  nextETag := s.nextETag
  current_mem k' v h := by
    by_cases hk : k' = k
    · subst hk
      rw [Function.update_self] at h
      cases h
    · rw [Function.update_of_ne hk] at h
      exact s.current_mem k' v h
  etag_lt := s.etag_lt
  etag_inj := s.etag_inj

def replace (s : Store α) (k : K) (etag : Nat) (doc : α k) : Option (Store α) :=
  match s.current k with
  | some v => if v.etag = etag then some (s.put k doc) else none
  | none => none

@[simp] theorem put_current_self (s : Store α) (k : K) (doc : α k) :
    (s.put k doc).current k = some ⟨s.nextETag, doc⟩ :=
  Function.update_self ..

@[simp] theorem put_current_of_ne (s : Store α) {k k' : K} (doc : α k) (h : k' ≠ k) :
    (s.put k doc).current k' = s.current k' :=
  Function.update_of_ne h ..

@[simp] theorem remove_current_self (s : Store α) (k : K) : (s.remove k).current k = none :=
  Function.update_self ..

@[simp] theorem remove_current_of_ne (s : Store α) {k k' : K} (h : k' ≠ k) :
    (s.remove k).current k' = s.current k' :=
  Function.update_of_ne h ..

theorem replace_eq_some {s' : Store α} {k : K} {etag : Nat} {doc : α k}
    (h : s.replace k etag doc = some s') :
    ∃ v, s.current k = some v ∧ v.etag = etag ∧ s' = s.put k doc := by
  unfold replace at h
  cases hcurrent : s.current k with
  | none => simp [hcurrent] at h
  | some v =>
    simp only [hcurrent, Option.ite_none_right_eq_some, Option.some.injEq] at h
    exact ⟨v, rfl, h.1, h.2.symm⟩

theorem replace_current (s : Store α) {k : K} {v : Versioned (α k)} (h : s.current k = some v)
    (doc : α k) : s.replace k v.etag doc = some (s.put k doc) := by
  unfold replace
  rw [h]
  exact if_pos rfl

/-- Stores a document under a key that holds none. -/
def create (s : Store α) (k : K) (doc : α k) : Option (Store α) :=
  if (s.current k).isNone then some (s.put k doc) else none

theorem create_eq_some {s' : Store α} {k : K} {doc : α k} (h : s.create k doc = some s') :
    s.current k = none ∧ s' = s.put k doc := by
  unfold create at h
  rw [Option.ite_none_right_eq_some, Option.isNone_iff_eq_none, Option.some.injEq] at h
  exact ⟨h.1, h.2.symm⟩

/-! ## Histories only grow -/

theorem Past.put {k : K} {v : Versioned (α k)} (h : s.Past k v) (k' : K) (doc : α k') :
    (s.put k' doc).Past k v :=
  List.mem_cons_of_mem _ h

theorem Past.remove {k : K} {v : Versioned (α k)} (h : s.Past k v) (k' : K) :
    (s.remove k').Past k v :=
  h

/-- A replace is accepted only if the copy it was made from is still stored. -/
theorem Past.replace_eq_some {s' : Store α} {k : K} {v : Versioned (α k)} {doc : α k}
    (hpast : s.Past k v) (h : s.replace k v.etag doc = some s') :
    s.current k = some v ∧ s' = s.put k doc := by
  obtain ⟨c, hcurrent, hetag, hput⟩ := Store.replace_eq_some h
  have heq := current_eq_of_etag hpast hcurrent hetag
  rw [Sigma.mk.injEq] at heq
  exact ⟨eq_of_heq heq.2 ▸ hcurrent, hput⟩

theorem later_put (s : Store α) (k : K) (doc : α k) : s.Later (s.put k doc) where
  past _ _ h := h.put k doc
  current k' v hv hcurrent := by
    by_cases hk : k' = k
    · subst hk
      rw [put_current_self, Option.some.injEq] at hcurrent
      have hlt := s.etag_lt _ hv
      rw [← hcurrent] at hlt
      exact absurd hlt (Nat.lt_irrefl _)
    · rwa [put_current_of_ne s doc hk] at hcurrent

end Store

/-! ## Batches -/

inductive Write (α : K → Type)
  | create (k : K) (doc : α k)
  | replace (k : K) (etag : Nat) (doc : α k)

namespace Write

def key : Write α → K
  | create k _ => k
  | replace k _ _ => k

def doc : (w : Write α) → α w.key
  | create _ doc => doc
  | replace _ _ doc => doc

variable [DecidableEq K]

def apply (s : Store α) : Write α → Option (Store α)
  | create k doc => s.create k doc
  | replace k etag doc => s.replace k etag doc

theorem apply_eq_put {s s' : Store α} {w : Write α} (h : w.apply s = some s') :
    s' = s.put w.key w.doc := by
  cases w with
  | create k doc => exact (Store.create_eq_some h).2
  | replace k etag doc =>
    obtain ⟨v, -, -, hput⟩ := Store.replace_eq_some h
    exact hput

end Write

namespace Store

variable [DecidableEq K] {s s' : Store α}

/-- Makes all the writes in their order, or none of them if one is refused. -/
def commit (s : Store α) (writes : List (Write α)) : Option (Store α) :=
  writes.foldlM Write.apply s

variable {writes : List (Write α)}

theorem commit_cons_eq_some {w : Write α} (h : s.commit (w :: writes) = some s') :
    ∃ t, w.apply s = some t ∧ t.commit writes = some s' := by
  exact Option.bind_eq_some_iff.mp h

theorem commit_create_eq_some {k : K} {doc : α k} {rest : List (Write α)}
    (h : s.commit (.create k doc :: rest) = some s') :
    s.current k = none ∧ (s.put k doc).commit rest = some s' := by
  obtain ⟨t, hcreate, hrest⟩ := commit_cons_eq_some h
  obtain ⟨hcurrent, rfl⟩ := create_eq_some hcreate
  exact ⟨hcurrent, hrest⟩

theorem Past.commit_replace_eq_some {k : K} {v : Versioned (α k)} {doc : α k}
    {rest : List (Write α)} (hpast : s.Past k v)
    (h : s.commit (.replace k v.etag doc :: rest) = some s') :
    s.current k = some v ∧ (s.put k doc).commit rest = some s' := by
  obtain ⟨t, hreplace, hrest⟩ := commit_cons_eq_some h
  obtain ⟨hcurrent, rfl⟩ := hpast.replace_eq_some hreplace
  exact ⟨hcurrent, hrest⟩

theorem commit_append_eq_some {first second : List (Write α)}
    (h : s.commit (first ++ second) = some s') :
    ∃ t, s.commit first = some t ∧ t.commit second = some s' := by
  unfold commit at h
  rw [List.foldlM_append] at h
  exact Option.bind_eq_some_iff.mp h

/-- The induction rule of batches: what every accepted write keeps, an accepted batch keeps. -/
theorem commit_induction {motive : Store α → Prop} (hcommit : s.commit writes = some s')
    (init : motive s) (step : ∀ w ∈ writes, ∀ t, motive t → motive (t.put w.key w.doc)) :
    motive s' := by
  induction writes generalizing s with
  | nil =>
    cases hcommit
    exact init
  | cons w writes ih =>
    obtain ⟨t, hw, hrest⟩ := commit_cons_eq_some hcommit
    rw [Write.apply_eq_put hw] at hrest
    apply ih hrest (step w List.mem_cons_self s init)
    intro w' hw'
    exact step w' (List.mem_cons_of_mem w hw')

theorem later_commit (h : s.commit writes = some s') : s.Later s' := by
  apply commit_induction h (Later.refl s)
  intro w _ t ht
  exact ht.trans (later_put t w.key w.doc)

/-- What holds of every document ever stored and of every document of a batch holds of every
document ever stored after it. -/
theorem past_of_commit {P : (k : K) → α k → Prop} (hcommit : s.commit writes = some s')
    (hpast : ∀ k v, s.Past k v → P k v.doc) (hwrites : ∀ w ∈ writes, P w.key w.doc) (k : K)
    (v : Versioned (α k)) (hv : s'.Past k v) :
    P k v.doc := by
  suffices h : ∀ k v, s'.Past k v → P k v.doc from h k v hv
  apply commit_induction hcommit hpast
  intro w hw t ht k v hv
  rcases List.mem_cons.mp hv with heq | hold
  · cases heq
    exact hwrites w hw
  · exact ht k v hold

end Store

end DocStore
