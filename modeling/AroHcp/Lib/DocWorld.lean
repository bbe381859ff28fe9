import AroHcp.Lib.DocCall

/-! Programs that work on a document store and on a second system beside it, which has calls of its
own. -/

namespace DocStore

variable {K : Type} {α : K → Type} {X τ κ : Type} {S : X → Type}

structure World (α : K → Type) (τ : Type) where
  store : Store α
  outside : τ

inductive WorldCall (α : K → Type) (X : Type)
  | doc (c : DocCall α)
  | out (x : X)

/-- Which of the possible answers a call of an execution gets. -/
inductive Hint (κ : Type)
  | store (place : Option Nat)
  | out (hint : κ)

namespace WorldCall

@[reducible] def Reply (S : X → Type) : WorldCall α X → Type
  | doc c => c.Reply
  | out x => S x

variable [DecidableEq K]

def sem (ext : Program.Semantics τ X S) :
    Program.Semantics (World α τ) (WorldCall α X) (Reply S)
  | doc c, w, r, w' => DocCall.sem c w.store r w'.store ∧ w'.outside = w.outside
  | out x, w, r, w' => ext x w.outside r w'.outside ∧ w'.store = w.store

def answer (ext : (x : X) → κ → τ → Option (S x × τ)) :
    (c : WorldCall α X) → Hint κ → World α τ → Option (Reply S c × World α τ)
  | doc c, .store place, w => (c.answer place w.store).map fun (r, s) => (r, { w with store := s })
  | out x, .out hint, w => (ext x hint w.outside).map fun (r, o) => (r, { w with outside := o })
  | _, _, _ => none

theorem sem_of_answer {ext : (x : X) → κ → τ → Option (S x × τ)} {sem' : Program.Semantics τ X S}
    (hext : ∀ x hint o r o', ext x hint o = some (r, o') → sem' x o r o') {c : WorldCall α X}
    {hint : Hint κ} {w w' : World α τ} {r : Reply S c} (h : answer ext c hint w = some (r, w')) :
    sem sem' c w r w' := by
  cases c with
  | doc c =>
    cases hint with
    | store place =>
      obtain ⟨⟨r', s⟩, hanswer, heq⟩ := Option.map_eq_some_iff.mp h
      cases heq
      exact ⟨DocCall.sem_of_answer hanswer, rfl⟩
    | out hint => cases h
  | out x =>
    cases hint with
    | store place => cases h
    | out hint =>
      obtain ⟨⟨r', o⟩, hanswer, heq⟩ := Option.map_eq_some_iff.mp h
      cases heq
      exact ⟨hext x hint _ _ _ hanswer, rfl⟩

end WorldCall

/-! ## The calls as programs -/

abbrev Sys (α : K → Type) (S : X → Type) := Program (WorldCall α X) (WorldCall.Reply S)

namespace Sys

open Program

def get (k : K) : Sys α S (Option (Versioned (α k))) := perform (WorldCall.doc (DocCall.get k))

def cached (k : K) : Sys α S (Option (Versioned (α k))) := perform (WorldCall.doc (DocCall.cached k))

def commit (writes : List (Write α)) : Sys α S Bool := perform (WorldCall.doc (DocCall.commit writes))

def create (k : K) (doc : α k) : Sys α S Bool := commit [.create k doc]

def replace (k : K) (etag : Nat) (doc : α k) : Sys α S Bool := commit [.replace k etag doc]

def out (x : X) : Sys α S (S x) := perform (WorldCall.out x)

section Rules

variable [DecidableEq K] {β : Type} {ext : Semantics τ X S}
  {allowed : WorldCall α X → World α τ → Prop} {inv : World α τ → Prop}
  {rely : World α τ → World α τ → Prop} {Q : β → World α τ → Prop} {w : World α τ}

section

variable [Std.Refl rely] (hinv : inv w)

include hinv

theorem wp_get {k : K} {f : Option (Versioned (α k)) → Sys α S β} (h : ∀ w', rely w w' → inv w' →
      wp (WorldCall.sem ext) allowed inv rely (f (w.store.current k)) Q w') :
    wp (WorldCall.sem ext) allowed inv rely (get k >>= f) Q w := by
  refine wp_perform_bind (c := WorldCall.doc (DocCall.get k)) ?_
  rintro r ⟨s', o'⟩ ⟨⟨rfl, hstore⟩, houtside⟩ _
  cases hstore
  cases houtside
  exact ⟨⟨hinv, refl _⟩, h⟩

theorem wp_cached {k : K} {f : Option (Versioned (α k)) → Sys α S β}
    (h : ∀ r, (∀ v, r = some v → w.store.Past k v) → ∀ w', rely w w' → inv w' →
      wp (WorldCall.sem ext) allowed inv rely (f r) Q w') :
    wp (WorldCall.sem ext) allowed inv rely (cached k >>= f) Q w := by
  refine wp_perform_bind (c := WorldCall.doc (DocCall.cached k)) ?_
  rintro r ⟨s', o'⟩ ⟨⟨hpast, hstore⟩, houtside⟩ _
  cases hstore
  cases houtside
  exact ⟨⟨hinv, refl _⟩, h r hpast⟩

/-- A batch keeps the invariant if it is accepted; if it is refused nothing has changed. -/
theorem wp_commit {writes : List (Write α)} {f : Bool → Sys α S β}
    (haccept : ∀ s', allowed (.doc (.commit writes)) w → w.store.commit writes = some s' →
      (inv { w with store := s' } ∧ rely w { w with store := s' }) ∧
        ∀ w', rely { w with store := s' } w' → inv w' →
          wp (WorldCall.sem ext) allowed inv rely (f true) Q w')
    (hrefuse : w.store.commit writes = none → ∀ w', rely w w' → inv w' →
      wp (WorldCall.sem ext) allowed inv rely (f false) Q w') :
    wp (WorldCall.sem ext) allowed inv rely (commit writes >>= f) Q w := by
  refine wp_perform_bind (c := WorldCall.doc (DocCall.commit writes)) ?_
  rintro r ⟨s', o'⟩ ⟨⟨rfl, hcommit⟩ | ⟨rfl, hcommit, hstore⟩, houtside⟩ hallowed
  · cases houtside
    exact haccept s' hallowed hcommit
  · cases hstore
    cases houtside
    exact ⟨⟨hinv, refl _⟩, hrefuse hcommit⟩

theorem wp_replace {k : K} {v : Versioned (α k)} {doc : α k} {f : Bool → Sys α S β}
    (hpast : w.store.Past k v)
    (haccept : allowed (.doc (.commit [.replace k v.etag doc])) w → w.store.current k = some v →
      (inv { w with store := w.store.put k doc } ∧ rely w { w with store := w.store.put k doc }) ∧
        ∀ w', rely { w with store := w.store.put k doc } w' → inv w' →
          wp (WorldCall.sem ext) allowed inv rely (f true) Q w')
    (hrefuse : ∀ w', rely w w' → inv w' →
      wp (WorldCall.sem ext) allowed inv rely (f false) Q w') :
    wp (WorldCall.sem ext) allowed inv rely (replace k v.etag doc >>= f) Q w := by
  refine wp_commit hinv ?_ fun _ => hrefuse
  intro s' hallowed hcommit
  obtain ⟨t, hreplace, hdone⟩ := Store.commit_cons_eq_some hcommit
  cases hdone
  obtain ⟨hcurrent, rfl⟩ := hpast.replace_eq_some hreplace
  exact haccept hallowed hcurrent

theorem wp_create {k : K} {doc : α k} {f : Bool → Sys α S β}
    (haccept : allowed (.doc (.commit [.create k doc])) w → w.store.current k = none →
      (inv { w with store := w.store.put k doc } ∧ rely w { w with store := w.store.put k doc }) ∧
        ∀ w', rely { w with store := w.store.put k doc } w' → inv w' →
          wp (WorldCall.sem ext) allowed inv rely (f true) Q w')
    (hrefuse : ∀ w', rely w w' → inv w' →
      wp (WorldCall.sem ext) allowed inv rely (f false) Q w') :
    wp (WorldCall.sem ext) allowed inv rely (create k doc >>= f) Q w := by
  refine wp_commit hinv ?_ fun _ => hrefuse
  intro s' hallowed hcommit
  obtain ⟨t, hcreate, hdone⟩ := Store.commit_cons_eq_some hcommit
  cases hdone
  obtain ⟨hcurrent, rfl⟩ := Store.create_eq_some hcreate
  exact haccept hallowed hcurrent

end

/-- The rule of a call to the second system. -/
theorem wp_out {x : X} {f : S x → Sys α S β}
    (h : ∀ r o', ext x w.outside r o' → allowed (.out x) w →
      (inv { w with outside := o' } ∧ rely w { w with outside := o' }) ∧
        ∀ w', rely { w with outside := o' } w' → inv w' →
          wp (WorldCall.sem ext) allowed inv rely (f r) Q w') :
    wp (WorldCall.sem ext) allowed inv rely (out x >>= f) Q w := by
  refine wp_perform_bind (c := WorldCall.out x) ?_
  rintro r ⟨s', o'⟩ ⟨hext, hstore⟩ hallowed
  cases hstore
  exact h r o' hext hallowed

/-- The rule of a call to the second system that changes nothing. -/
theorem wp_ask [Std.Refl rely] {x : X} {f : S x → Sys α S β} (hinv : inv w)
    (hread : ∀ r o', ext x w.outside r o' → o' = w.outside)
    (h : ∀ r, ext x w.outside r w.outside → ∀ w', rely w w' → inv w' →
      wp (WorldCall.sem ext) allowed inv rely (f r) Q w') :
    wp (WorldCall.sem ext) allowed inv rely (out x >>= f) Q w := by
  refine wp_out ?_
  intro r o' hext _
  obtain rfl := hread r o' hext
  exact ⟨⟨hinv, refl _⟩, h r hext⟩

end Rules

end Sys

end DocStore
