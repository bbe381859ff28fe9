import Mathlib.Algebra.BigOperators.Group.Finset.Sigma
import Mathlib.Algebra.BigOperators.Ring.Finset
import Mathlib.Algebra.Order.BigOperators.Group.Finset
import Mathlib.Combinatorics.Hall.Basic
import Mathlib.Data.Fintype.BigOperators
import Mathlib.Tactic.Linarith

/-! Sources with limited supply serve sinks with fixed demand, each only the sinks it may reach.
A whole-number assignment exists exactly when every group of sinks is reached by enough supply. -/

namespace Transport

variable {ι κ : Type} [Fintype ι]

structure Serves (reaches : ι → κ → Prop) (supply : ι → ℤ) (sinks : Finset κ) (demand : κ → ℤ)
    (x : ι → κ → ℕ) : Prop where
  reached : ∀ i k, ¬ reaches i k → x i k = 0
  met : ∀ k ∈ sinks, ∑ i, (x i k : ℤ) = demand k
  within : ∀ i, ∑ k ∈ sinks, (x i k : ℤ) ≤ supply i

variable {reaches : ι → κ → Prop} {supply : ι → ℤ} {sinks : Finset κ} {demand : κ → ℤ}
  {x : ι → κ → ℕ}

/-- Hall's condition with quantities. -/
def Covered (reaches : ι → κ → Prop) [∀ i k, Decidable (reaches i k)] (supply : ι → ℤ)
    (sinks : Finset κ) (demand : κ → ℤ) : Prop :=
  ∀ group ⊆ sinks, ∑ k ∈ group, demand k ≤ ∑ i with ∃ k ∈ group, reaches i k, supply i

section Hall

variable [∀ i k, Decidable (reaches i k)]

theorem Serves.covered (h : Serves reaches supply sinks demand x) :
    Covered reaches supply sinks demand := by
  intro group hgroup
  have hidle : ∀ i, (¬ ∃ k ∈ group, reaches i k) → ∑ k ∈ group, (x i k : ℤ) = 0 := by
    intro i hi
    refine Finset.sum_eq_zero fun k hk => ?_
    rw [h.reached i k fun hr => hi ⟨k, hk, hr⟩, Nat.cast_zero]
  have hpart : ∀ i, ∑ k ∈ group, (x i k : ℤ) ≤ supply i := by
    intro i
    refine le_trans ?_ (h.within i)
    exact Finset.sum_le_sum_of_subset_of_nonneg hgroup fun k _ _ => Int.natCast_nonneg _
  calc ∑ k ∈ group, demand k
      = ∑ k ∈ group, ∑ i, (x i k : ℤ) :=
        Finset.sum_congr rfl fun k hk => (h.met k (hgroup hk)).symm
    _ = ∑ i, ∑ k ∈ group, (x i k : ℤ) := Finset.sum_comm
    _ = ∑ i with ∃ k ∈ group, reaches i k, ∑ k ∈ group, (x i k : ℤ) := by
        rw [Finset.sum_filter]
        refine Finset.sum_congr rfl fun i _ => ?_
        split_ifs with hi
        · rfl
        · exact hidle i hi
    _ ≤ ∑ i with ∃ k ∈ group, reaches i k, supply i := Finset.sum_le_sum fun i _ => hpart i

/-! The converse gives each demanded unit a unit of supply of its own, by Hall's theorem. -/

/-- One element for each unit that the sinks demand. -/
abbrev Wanted (sinks : Finset κ) (demand : κ → ℤ) := Σ k : sinks, Fin (demand k).toNat

/-- One element for each unit that the sources have. -/
abbrev Supplied (supply : ι → ℤ) := Σ i, Fin (supply i).toNat

theorem card_supplied (supply : ι → ℤ) (p : ι → Prop) [DecidablePred p] :
    Finset.card {b : Supplied supply | p b.1} = ∑ i with p i, (supply i).toNat := by
  have hsigma : ({b : Supplied supply | p b.1} : Finset (Supplied supply)) =
      ({i | p i} : Finset ι).sigma fun _ => Finset.univ := by
    ext b
    simp
  rw [hsigma, Finset.card_sigma]
  simp

variable [DecidableEq κ]

theorem card_wanted_le (A : Finset (Wanted sinks demand)) :
    A.card ≤ ∑ k ∈ A.image fun a => (a.1 : κ), (demand k).toNat := by
  have hsub : A ⊆ (A.image Sigma.fst).sigma fun _ => Finset.univ := by
    intro a ha
    exact Finset.mem_sigma.mpr ⟨Finset.mem_image_of_mem _ ha, Finset.mem_univ _⟩
  have himage : A.image (fun a => (a.1 : κ)) =
      (A.image Sigma.fst).map (Function.Embedding.subtype _) := by
    ext k
    simp
  calc A.card ≤ ((A.image Sigma.fst).sigma fun _ => Finset.univ).card := Finset.card_le_card hsub
    _ = ∑ k ∈ A.image Sigma.fst, (demand k).toNat := by simp [Finset.card_sigma]
    _ = ∑ k ∈ A.image fun a => (a.1 : κ), (demand k).toNat := by
        rw [himage, Finset.sum_map]
        rfl

theorem Covered.exists_matching (h : Covered reaches supply sinks demand)
    (hsupply : ∀ i, 0 ≤ supply i) (hdemand : ∀ k, 0 ≤ demand k) :
    ∃ f : Wanted sinks demand → Supplied supply,
      Function.Injective f ∧ ∀ a, reaches (f a).1 a.1 := by
  have hall := Fintype.all_card_le_filter_rel_iff_exists_injective
    fun (a : Wanted sinks demand) (b : Supplied supply) => reaches b.1 a.1
  refine hall.mp fun A => ?_
  have hgroup : A.image (fun a => (a.1 : κ)) ⊆ sinks := by
    intro k hk
    obtain ⟨a, -, rfl⟩ := Finset.mem_image.mp hk
    exact a.1.2
  have hnat : ∑ k ∈ A.image (fun a => (a.1 : κ)), (demand k).toNat ≤
      ∑ i with ∃ k ∈ A.image (fun a : Wanted sinks demand => (a.1 : κ)), reaches i k,
        (supply i).toNat := by
    have hcast := h _ hgroup
    rw [← Finset.sum_congr rfl fun k _ => Int.toNat_of_nonneg (hdemand k),
      ← Finset.sum_congr rfl fun i _ => Int.toNat_of_nonneg (hsupply i)] at hcast
    exact_mod_cast hcast
  rw [← card_supplied] at hnat
  refine (card_wanted_le A).trans (hnat.trans (Finset.card_le_card ?_))
  intro b hb
  simpa using hb

end Hall

section Matching

variable [DecidableEq ι] [DecidableEq κ] (f : Wanted sinks demand → Supplied supply)

/-- What a matching of the units gives from `i` to `k`. -/
def assigned (i : ι) (k : κ) : ℕ :=
  Finset.card {a : Wanted sinks demand | a.1 = k ∧ (f a).1 = i}

theorem sum_assigned_source (hdemand : ∀ k, 0 ≤ demand k) {k : κ} (hk : k ∈ sinks) :
    ∑ i, (assigned f i k : ℤ) = demand k := by
  have hunits : Finset.card {a : Wanted sinks demand | (a.1 : κ) = k} = (demand k).toNat := by
    have hsigma : ({a : Wanted sinks demand | (a.1 : κ) = k} : Finset (Wanted sinks demand)) =
        ({⟨k, hk⟩} : Finset sinks).sigma fun _ => Finset.univ := by
      ext a
      simp [Subtype.ext_iff]
    rw [hsigma, Finset.card_sigma]
    simp
  have hfibres := Finset.card_eq_sum_card_fiberwise
    (f := fun a : Wanted sinks demand => (f a).1) (t := Finset.univ)
    (s := ({a : Wanted sinks demand | (a.1 : κ) = k} : Finset (Wanted sinks demand)))
    fun _ _ => Finset.mem_coe.mpr (Finset.mem_univ _)
  rw [hunits] at hfibres
  rw [← Int.toNat_of_nonneg (hdemand k), hfibres, Nat.cast_sum]
  refine Finset.sum_congr rfl fun i _ => ?_
  rw [assigned, Finset.filter_filter]

theorem sum_assigned_sink (hsupply : ∀ i, 0 ≤ supply i) (hf : Function.Injective f) (i : ι) :
    ∑ k ∈ sinks, (assigned f i k : ℤ) ≤ supply i := by
  have hunits : Finset.card {b : Supplied supply | b.1 = i} = (supply i).toNat := by
    rw [card_supplied supply fun j => j = i]
    simp [Finset.filter_eq']
  have hfibres := Finset.card_eq_sum_card_fiberwise
    (f := fun a : Wanted sinks demand => (a.1 : κ)) (t := sinks)
    (s := ({a : Wanted sinks demand | (f a).1 = i} : Finset (Wanted sinks demand)))
    fun a _ => a.1.2
  have hle : Finset.card {a : Wanted sinks demand | (f a).1 = i} ≤
      Finset.card {b : Supplied supply | b.1 = i} := by
    refine Finset.card_le_card_of_injOn f ?_ hf.injOn
    intro a ha
    simpa using ha
  rw [hunits, hfibres] at hle
  rw [← Int.toNat_of_nonneg (hsupply i), ← Nat.cast_sum, Nat.cast_le]
  refine le_trans (Finset.sum_le_sum fun k _ => ?_) hle
  exact Finset.card_le_card fun a ha => by simpa [and_comm] using ha

theorem exists_serves_iff [∀ i k, Decidable (reaches i k)] (hsupply : ∀ i, 0 ≤ supply i)
    (hdemand : ∀ k, 0 ≤ demand k) :
    (∃ x, Serves reaches supply sinks demand x) ↔ Covered reaches supply sinks demand := by
  constructor
  · rintro ⟨x, hx⟩
    exact hx.covered
  · intro h
    obtain ⟨f, hinj, hf⟩ := h.exists_matching hsupply hdemand
    refine ⟨assigned f, ?_, fun k hk => sum_assigned_source f hdemand hk,
      sum_assigned_sink f hsupply hinj⟩
    intro i k hik
    rw [assigned, Finset.card_eq_zero, Finset.filter_eq_empty_iff]
    rintro a - ⟨rfl, rfl⟩
    exact hik (hf a)

end Matching

/-! ## Giving units one by one -/

section Giving

variable [DecidableEq ι] [DecidableEq κ] {i : ι} {k : κ} {p : ℕ}

def give (x : ι → κ → ℕ) (i : ι) (k : κ) (p : ℕ) : ι → κ → ℕ :=
  fun j l => x j l + if j = i ∧ l = k then p else 0

omit [Fintype ι] in
@[simp] theorem give_zero (x : ι → κ → ℕ) (i : ι) (k : κ) : give x i k 0 = x := by
  funext j l
  simp [give]

theorem sum_give_source (x : ι → κ → ℕ) (i : ι) (k : κ) (p : ℕ) (l : κ) :
    ∑ j, (give x i k p j l : ℤ) = ∑ j, (x j l : ℤ) + if l = k then (p : ℤ) else 0 := by
  simp only [give, Nat.cast_add, Nat.cast_ite, Nat.cast_zero, Finset.sum_add_distrib, ite_and]
  rw [Finset.sum_ite_eq' Finset.univ i, if_pos (Finset.mem_univ i)]

omit [Fintype ι] in
theorem sum_give_sink (x : ι → κ → ℕ) (i : ι) (p : ℕ) (hk : k ∈ sinks) (j : ι) :
    ∑ l ∈ sinks, (give x i k p j l : ℤ) =
      ∑ l ∈ sinks, (x j l : ℤ) + if j = i then (p : ℤ) else 0 := by
  simp only [give, Nat.cast_add, Nat.cast_ite, Nat.cast_zero, Finset.sum_add_distrib]
  by_cases hj : j = i
  · simp [hj, hk]
  · simp [hj]

theorem serves_give_iff (hreach : reaches i k) (hk : k ∈ sinks) :
    Serves reaches supply sinks demand (give x i k p) ↔
      Serves reaches (Function.update supply i (supply i - p)) sinks
        (Function.update demand k (demand k - p)) x := by
  have hreached : (∀ j l, ¬ reaches j l → give x i k p j l = 0) ↔
      ∀ j l, ¬ reaches j l → x j l = 0 := by
    refine forall₂_congr fun j l => imp_congr_right fun hjl => ?_
    have hne : ¬ (j = i ∧ l = k) := by
      rintro ⟨rfl, rfl⟩
      exact hjl hreach
    rw [give, if_neg hne, add_zero]
  have hmet : (∀ l ∈ sinks, ∑ j, (give x i k p j l : ℤ) = demand l) ↔
      ∀ l ∈ sinks, ∑ j, (x j l : ℤ) = Function.update demand k (demand k - p) l := by
    refine forall₂_congr fun l _ => ?_
    rw [sum_give_source, Function.update_apply]
    split_ifs with hl
    · subst hl
      omega
    · omega
  have hwithin : (∀ j, ∑ l ∈ sinks, (give x i k p j l : ℤ) ≤ supply j) ↔
      ∀ j, ∑ l ∈ sinks, (x j l : ℤ) ≤ Function.update supply i (supply i - p) j := by
    refine forall_congr' fun j => ?_
    rw [sum_give_sink x i p hk, Function.update_apply]
    split_ifs with hj
    · subst hj
      omega
    · omega
  constructor
  · rintro ⟨h1, h2, h3⟩
    exact ⟨hreached.mp h1, hmet.mp h2, hwithin.mp h3⟩
  · rintro ⟨h1, h2, h3⟩
    exact ⟨hreached.mpr h1, hmet.mpr h2, hwithin.mpr h3⟩

/-- No assignment lets source `i` give anything to sink `k`. -/
def Exhausted (reaches : ι → κ → Prop) (supply : ι → ℤ) (sinks : Finset κ) (demand : κ → ℤ)
    (i : ι) (k : κ) : Prop :=
  ∀ x, Serves reaches supply sinks demand x → x i k = 0

omit [DecidableEq ι] [DecidableEq κ] in
theorem exhausted_of_not_reaches (h : ¬ reaches i k) :
    Exhausted reaches supply sinks demand i k :=
  fun _ hx => hx.reached i k h

theorem exhausted_of_not_serves (hk : k ∈ sinks)
    (h : 1 ≤ supply i → 1 ≤ demand k → ¬ ∃ x, Serves reaches
      (Function.update supply i (supply i - (1 : ℕ))) sinks
      (Function.update demand k (demand k - (1 : ℕ))) x) :
    Exhausted reaches supply sinks demand i k := by
  intro x hx
  by_contra hne
  have hreach : reaches i k := by
    by_contra hnot
    exact hne (hx.reached i k hnot)
  have hsplit : give (fun j l => x j l - if j = i ∧ l = k then 1 else 0) i k 1 = x := by
    funext j l
    unfold give
    dsimp only
    split_ifs with hjl
    · obtain ⟨rfl, rfl⟩ := hjl
      omega
    · omega
  have hsupply : (x i k : ℤ) ≤ ∑ l ∈ sinks, (x i l : ℤ) :=
    Finset.single_le_sum (fun _ _ => Int.natCast_nonneg _) hk
  have hdemand : (x i k : ℤ) ≤ ∑ j, (x j k : ℤ) :=
    Finset.single_le_sum (f := fun j => (x j k : ℤ)) (fun _ _ => Int.natCast_nonneg _)
      (Finset.mem_univ i)
  have hwithin := hx.within i
  have hmet := hx.met k hk
  rw [← hsplit] at hx
  exact h (by omega) (by omega) ⟨_, (serves_give_iff hreach hk).mp hx⟩

omit [DecidableEq ι] [DecidableEq κ] in
/-- A sink that no source can give anything demands nothing. -/
theorem demand_eq_zero_of_exhausted (hx : Serves reaches supply sinks demand x) (hk : k ∈ sinks)
    (h : ∀ i, Exhausted reaches supply sinks demand i k) : demand k = 0 := by
  rw [← hx.met k hk]
  refine Finset.sum_eq_zero fun i _ => ?_
  rw [h i x hx, Nat.cast_zero]

end Giving

end Transport
