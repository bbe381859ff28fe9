import AroHcp.Lib.DocStore
import AroHcp.Lib.Program

/-! Programs that work on a document store: reads of the stored documents and of a cache that may be
arbitrarily old, and batches of writes. -/

namespace DocStore

variable {K : Type} {α : K → Type}

namespace Store

variable {s s' s'' : Store α}

/-- The later store has everything the earlier one ever held, and whatever is new has a newer ETag.
-/
structure Extends (s s' : Store α) : Prop where
  past : ∀ k v, s.Past k v → s'.Past k v
  fresh : ∀ k v, s'.Past k v → s.Past k v ∨ s.nextETag ≤ v.etag
  next : s.nextETag ≤ s'.nextETag

theorem Extends.refl (s : Store α) : s.Extends s :=
  ⟨fun _ _ h => h, fun _ _ h => .inl h, Nat.le_refl _⟩

theorem Extends.trans (h : s.Extends s') (h' : s'.Extends s'') : s.Extends s'' where
  past k v hv := h'.past k v (h.past k v hv)
  fresh k v hv := by
    rcases h'.fresh k v hv with hold | hnew
    · exact h.fresh k v hold
    · exact .inr (h.next.trans hnew)
  next := h.next.trans h'.next

def versionAt [DecidableEq K] (s : Store α) (k : K) (place : Nat) : Option (Versioned (α k)) :=
  match s.history[place]? with
  | some e => if h : e.1 = k then some (h ▸ e.2) else none
  | none => none

variable [DecidableEq K]

theorem versionAt_past {k : K} {place : Nat} {v : Versioned (α k)}
    (h : s.versionAt k place = some v) :
    s.Past k v := by
  unfold versionAt at h
  split at h
  · rename_i e hplace
    split_ifs at h with hk
    subst hk
    cases h
    exact List.mem_of_getElem? hplace
  · cases h

theorem extends_put (s : Store α) (k : K) (doc : α k) : s.Extends (s.put k doc) where
  past _ _ h := h.put k doc
  fresh k' v hv := by
    rcases List.mem_cons.mp hv with heq | hold
    · cases heq
      exact .inr (Nat.le_refl _)
    · exact .inl hold
  next := Nat.le_succ _

theorem put_past (s : Store α) (k : K) (doc : α k) : (s.put k doc).Past k ⟨s.nextETag, doc⟩ :=
  List.mem_cons_self

theorem past_put {k k' : K} {doc : α k} {v : Versioned (α k')} (h : (s.put k doc).Past k' v) :
    s.Past k' v ∨ (⟨k', v⟩ : Sigma fun k => Versioned (α k)) = ⟨k, ⟨s.nextETag, doc⟩⟩ :=
  (List.mem_cons.mp h).symm

theorem past_put_of_ne {k k' : K} {doc : α k} {v : Versioned (α k')} (hne : k' ≠ k)
    (h : (s.put k doc).Past k' v) : s.Past k' v := by
  rcases past_put h with hold | hnew
  · exact hold
  · cases hnew
    exact absurd rfl hne

theorem extends_remove (s : Store α) (k : K) : s.Extends (s.remove k) :=
  ⟨fun _ _ h => h, fun _ _ h => .inl h, Nat.le_refl _⟩

end Store

/-! ## Reads that may fail -/

/-- A read that fails has an error; a document that is not found is `none`. -/
abbrev Read (δ : Type) := Except String (Option (Versioned δ))

namespace Store

/-- A read of a cache: any version that was stored at some time, nothing, or an error. -/
def CacheRead (s : Store α) (k : K) (r : Read (α k)) : Prop :=
  ∀ v, r = .ok (some v) → s.Past k v

def LiveRead (s : Store α) (k : K) (r : Read (α k)) : Prop :=
  ∀ o, r = .ok o → s.current k = o

theorem cacheRead_current (s : Store α) (k : K) : s.CacheRead k (.ok (s.current k)) := by
  intro v hv
  rw [Except.ok.injEq] at hv
  exact s.current_mem k v hv

theorem cacheRead_versionAt [DecidableEq K] (s : Store α) (k : K) (place : Nat) :
    s.CacheRead k (.ok (s.versionAt k place)) := by
  intro v hv
  rw [Except.ok.injEq] at hv
  exact versionAt_past hv

theorem liveRead_current (s : Store α) (k : K) : s.LiveRead k (.ok (s.current k)) := by
  intro o ho
  rwa [Except.ok.injEq] at ho

end Store

inductive DocCall (α : K → Type)
  | get (k : K)
  /-- a read of a cache, which may hold any earlier version or nothing -/
  | cached (k : K)
  | scan
  | commit (writes : List (Write α))

namespace DocCall

@[reducible] def Reply : DocCall α → Type
  | get k | cached k => Option (Versioned (α k))
  | scan => List (Sigma fun k => Versioned (α k))
  | commit _ => Bool

variable [DecidableEq K]

def sem : Program.Semantics (Store α) (DocCall α) Reply
  | get k, s, r, s' => r = s.current k ∧ s' = s
  | cached k, s, r, s' => (∀ v, r = some v → s.Past k v) ∧ s' = s
  | scan, s, r, s' => r = s.scan ∧ s' = s
  | commit writes, s, r, s' =>
    r = true ∧ s.commit writes = some s' ∨ r = false ∧ s.commit writes = none ∧ s' = s

/-- One of the answers; the hint is the place in the history where the cache stands. -/
def answer : (c : DocCall α) → Option Nat → Store α → Option (c.Reply × Store α)
  | get k, _, s => some (s.current k, s)
  | cached k, hint, s => some (hint.bind (s.versionAt k), s)
  | scan, _, s => some (s.scan, s)
  | commit writes, _, s =>
    match s.commit writes with
    | some s' => some (true, s')
    | none => some (false, s)

theorem sem_of_answer {c : DocCall α} {hint : Option Nat} {s : Store α} {r : c.Reply}
    {s' : Store α} (h : answer c hint s = some (r, s')) : sem c s r s' := by
  cases c with
  | get k =>
    cases h
    exact ⟨rfl, rfl⟩
  | cached k =>
    cases h
    refine ⟨?_, rfl⟩
    intro v hv
    obtain ⟨place, -, hplace⟩ := Option.bind_eq_some_iff.mp hv
    exact Store.versionAt_past hplace
  | scan =>
    cases h
    exact ⟨rfl, rfl⟩
  | commit writes =>
    dsimp only [answer] at h
    split at h
    · rename_i t hcommit
      cases h
      exact .inl ⟨rfl, hcommit⟩
    · rename_i hcommit
      cases h
      exact .inr ⟨rfl, hcommit, rfl⟩

end DocCall

/-! ## The calls as programs -/

abbrev Db (α : K → Type) := Program (DocCall α) DocCall.Reply

namespace Db

open Program

def get (k : K) : Db α (Option (Versioned (α k))) := perform (DocCall.get k)

def cached (k : K) : Db α (Option (Versioned (α k))) := perform (DocCall.cached k)

def scan : Db α (List (Sigma fun k => Versioned (α k))) := perform DocCall.scan

def commit (writes : List (Write α)) : Db α Bool := perform (DocCall.commit writes)

def create (k : K) (doc : α k) : Db α Bool := commit [.create k doc]

def replace (k : K) (etag : Nat) (doc : α k) : Db α Bool := commit [.replace k etag doc]

section Rules

variable [DecidableEq K] {β : Type} {allowed : DocCall α → Store α → Prop} {inv : Store α → Prop}
  {rely : Store α → Store α → Prop} {Q : β → Store α → Prop} {s : Store α}

section

variable [Std.Refl rely] (hinv : inv s)

include hinv

theorem wp_get {k : K} {f : Option (Versioned (α k)) → Db α β}
    (h : ∀ s', rely s s' → inv s' → wp DocCall.sem allowed inv rely (f (s.current k)) Q s') :
    wp DocCall.sem allowed inv rely (get k >>= f) Q s := by
  refine wp_read_bind (c := DocCall.get k) hinv (fun _ _ hsem => hsem.2) ?_
  rintro r s' ⟨rfl, -⟩
  exact h s'

theorem wp_cached {k : K} {f : Option (Versioned (α k)) → Db α β}
    (h : ∀ r, (∀ v, r = some v → s.Past k v) → ∀ s', rely s s' → inv s' →
      wp DocCall.sem allowed inv rely (f r) Q s') :
    wp DocCall.sem allowed inv rely (cached k >>= f) Q s :=
  wp_read_bind (c := DocCall.cached k) hinv (fun _ _ hsem => hsem.2) fun r s' hsem =>
    h r hsem.1 s'

theorem wp_scan {f : List (Sigma fun k => Versioned (α k)) → Db α β}
    (h : ∀ s', rely s s' → inv s' → wp DocCall.sem allowed inv rely (f s.scan) Q s') :
    wp DocCall.sem allowed inv rely (scan >>= f) Q s := by
  refine wp_read_bind (c := DocCall.scan) hinv (fun _ _ hsem => hsem.2) ?_
  rintro r s' ⟨rfl, -⟩
  exact h s'

/-- A batch keeps the invariant if it is accepted; if it is refused nothing has changed. -/
theorem wp_commit {writes : List (Write α)} {f : Bool → Db α β}
    (haccept : ∀ s', allowed (.commit writes) s → s.commit writes = some s' →
      (inv s' ∧ rely s s') ∧ ∀ s'', rely s' s'' → inv s'' →
        wp DocCall.sem allowed inv rely (f true) Q s'')
    (hrefuse : s.commit writes = none → ∀ s', rely s s' → inv s' →
      wp DocCall.sem allowed inv rely (f false) Q s') :
    wp DocCall.sem allowed inv rely (commit writes >>= f) Q s := by
  refine wp_perform_bind (c := DocCall.commit writes) ?_
  rintro r s' (⟨rfl, hcommit⟩ | ⟨rfl, hcommit, rfl⟩) hallowed
  · exact haccept s' hallowed hcommit
  · exact ⟨⟨hinv, refl s'⟩, hrefuse hcommit⟩

theorem wp_replace {k : K} {v : Versioned (α k)} {doc : α k} {f : Bool → Db α β}
    (hpast : s.Past k v)
    (haccept : s.current k = some v → (inv (s.put k doc) ∧ rely s (s.put k doc)) ∧
      ∀ s', rely (s.put k doc) s' → inv s' → wp DocCall.sem allowed inv rely (f true) Q s')
    (hrefuse : ∀ s', rely s s' → inv s' → wp DocCall.sem allowed inv rely (f false) Q s') :
    wp DocCall.sem allowed inv rely (replace k v.etag doc >>= f) Q s := by
  refine wp_commit hinv ?_ fun _ => hrefuse
  intro s' _ hcommit
  obtain ⟨hcurrent, hdone⟩ := hpast.commit_replace_eq_some hcommit
  cases hdone
  exact haccept hcurrent

theorem wp_create {k : K} {doc : α k} {f : Bool → Db α β}
    (haccept : allowed (.commit [.create k doc]) s → s.current k = none →
      (inv (s.put k doc) ∧ rely s (s.put k doc)) ∧
      ∀ s', rely (s.put k doc) s' → inv s' → wp DocCall.sem allowed inv rely (f true) Q s')
    (hrefuse : (∃ v, s.current k = some v) → ∀ s', rely s s' → inv s' →
      wp DocCall.sem allowed inv rely (f false) Q s') :
    wp DocCall.sem allowed inv rely (create k doc >>= f) Q s := by
  refine wp_commit hinv ?_ ?_
  · intro s' hallowed hcommit
    obtain ⟨hcurrent, hdone⟩ := Store.commit_create_eq_some hcommit
    cases hdone
    exact haccept hallowed hcurrent
  · intro hcommit
    apply hrefuse
    rw [← Option.ne_none_iff_exists']
    intro hcurrent
    simp [Store.commit, Write.apply, Store.create, hcurrent] at hcommit

end

end Rules

end Db

end DocStore
