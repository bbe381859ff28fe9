import AroHcp.Desires.Documents

/-! What `EnsureApplyDesire` leaves in the store, against the desire that it is called with. -/

namespace AroHcp.Desires

open DocStore GoFmt JsonText Program

/-- The texts have the same value, exact numbers included, or are the same. -/
def SameContent (a b : String) : Prop :=
  a = b ∨ ∃ v, parse a = some v ∧ parse b = some v

/-- The texts are both missing, or their values differ at most in numbers of the same float64. -/
def Alike (a b : String) : Prop :=
  a = "" ∧ b = "" ∨ ∃ x y, parse a = some x ∧ parse b = some y ∧
    (toFloats x).isSome ∧ toFloats x = toFloats y

theorem jsonBytesEqual_iff {a b : String} : jsonBytesEqual a b = true ↔ Alike a b := by
  unfold jsonBytesEqual Alike unmarshal
  split_ifs with hempty
  · simp [hempty]
  · cases parse a with
    | none => simp [hempty]
    | some x =>
      cases parse b with
      | none => cases toFloats x <;> simp [hempty]
      | some y => cases hx : toFloats x <;> cases hy : toFloats y <;> simp [hempty, hx, hy]

/-- The text is missing, or all its numbers are in the range of float64. -/
def Decodes (a : String) : Prop :=
  a = "" ∨ ∃ x, parse a = some x ∧ (toFloats x).isSome

theorem SameContent.alike_iff {a b : String} (h : SameContent a b) : Alike a b ↔ Decodes a := by
  obtain rfl | ⟨v, hv, hv'⟩ := h
  · cases ha : parse a <;> simp [Alike, Decodes, ha]
  · have hempty : parse "" = none := by decide
    have ha : a ≠ "" := by grind
    simp [Alike, Decodes, hv, hv', ha]

namespace ApplyDesire

def raw (d : ApplyDesire) : String :=
  (d.spec.serverSideApply.bind (·.kubeContent)).getD ""

def fieldManager (d : ApplyDesire) : Option String :=
  d.spec.serverSideApply.bind (·.fieldManager)

variable (d desire : ApplyDesire)

/-- The desires agree in all that `EnsureApplyDesire` compares without decoding it. -/
def SameTarget : Prop :=
  toLower d.spec.managementCluster = toLower desire.spec.managementCluster ∧
    d.spec.targetItem = desire.spec.targetItem ∧ d.spec.type = desire.spec.type ∧
    d.tags = desire.tags

def Matches : Prop :=
  d.SameTarget desire ∧ d.fieldManager = desire.fieldManager ∧ SameContent d.raw desire.raw

/-- Different numbers of the contents do not round to the same float64, and the same content comes
with another field manager if and only if it does not decode. -/
@[mk_iff]
structure ToldApart : Prop where
  rounding : ∀ x y, parse d.raw = some x → parse desire.raw = some y → (toFloats x).isSome →
    toFloats x = toFloats y → x = y
  manager : SameContent d.raw desire.raw →
    (d.fieldManager = desire.fieldManager ↔ Decodes d.raw)

end ApplyDesire

/-- The stored desire, and how often it has been written. -/
structure Stored where
  doc : Option (Versioned ApplyDesire)
  writes : Nat := 0

/-- The lister shows the stored desire, and a write ends with the given outcome. -/
def Stored.answer (outcome : Outcome) : (c : Call) → Stored → c.Reply × Stored
  | .cachedApplyDesire _, s => (.ok s.doc, s)
  | .createApplyDesire d, s | .replaceApplyDesire _ d, s =>
    (outcome, ⟨if outcome = .ok then some ⟨0, d⟩ else s.doc, s.writes + 1⟩)
  -- the other calls are not made
  | .dbClient, s => (false, s)
  | .nodePool _, s | .listApplyDesires, s | .listReadDesires, s | .cachedReadDesire _, s
  | .getApplyDesire _, s => (.error "", s)
  | .deleteApplyDesire _, s | .createReadDesire _, s | .replaceReadDesire _ _, s
  | .deleteReadDesire _, s => (outcome, s)
  | .getObject _ _, s | .applyObject _ _ _ _, s => (.error (.other ""), s)
  | .deleteObject _ _, s => (none, s)

/-- Every call that returns nil, and whose write if any does not come too late, leaves what was
asked for, and does not write when it was already there. -/
def Converges (doc : Option (Versioned ApplyDesire)) (desire : ApplyDesire) : Prop :=
  ∀ outcome s, outcome ≠ .conflict → outcome ≠ .preconditionFailed →
    run (Stored.answer outcome) (ensureApplyDesire desire) ⟨doc, 0⟩ = (none, s) →
    (∃ d, s.doc = some d ∧ d.doc.Matches desire) ∧
      ((∃ existing, doc = some existing ∧ existing.doc.Matches desire) → s.writes = 0)

variable {desire : ApplyDesire} {existing : Versioned ApplyDesire}

theorem matches_of_eq {d : ApplyDesire} (hspec : d.spec = desire.spec)
    (htags : d.tags = desire.tags) : d.Matches desire := by
  refine ⟨⟨?_, ?_, ?_, htags⟩, ?_, .inl ?_⟩
  all_goals simp only [ApplyDesire.fieldManager, ApplyDesire.raw, hspec]

theorem drifted_iff :
    (applyDesireSpecEqual existing.doc.spec desire.spec = false ∨
      existing.doc.tags ≠ desire.tags) ↔
      ¬(existing.doc.SameTarget desire ∧ Alike existing.doc.raw desire.raw) := by
  rw [← Bool.not_eq_true, ← not_and_or, not_iff_not]
  simp only [applyDesireSpecEqual, ApplyDesire.SameTarget, ApplyDesire.raw, jsonBytesEqual_iff,
    Bool.and_eq_true, decide_eq_true_eq]
  tauto

/-- A desire that has drifted is replaced, and one that has not is left. -/
theorem converges_some_iff (htag : (desire.tags.lookup tagControllerName).isSome) :
    Converges (some existing) desire ↔ (existing.doc.Matches desire ↔
      existing.doc.SameTarget desire ∧ Alike existing.doc.raw desire.raw) := by
  have hnone : ¬(desire.tags.lookup tagControllerName).isNone := by simpa using htag
  unfold Converges ensureApplyDesire
  simp only [if_neg hnone, run_perform_bind, Stored.answer]
  by_cases h : existing.doc.SameTarget desire ∧ Alike existing.doc.raw desire.raw
  · simp only [if_neg fun hdrifted => drifted_iff.mp hdrifted h, run_pure, iff_true_intro h, iff_true]
    constructor
    · intro hconv
      obtain ⟨⟨d, hd, hmatch⟩, -⟩ := hconv .ok _ nofun nofun rfl
      cases hd
      exact hmatch
    · rintro hmatch outcome s - - ⟨⟩
      exact ⟨⟨existing, rfl, hmatch⟩, fun _ => rfl⟩
  · simp only [if_pos (drifted_iff.mpr h), run_perform_bind, Stored.answer, iff_false_intro h,
      iff_false]
    constructor
    · intro hconv hmatch
      obtain ⟨-, hquiet⟩ := hconv .ok _ nofun nofun rfl
      cases hquiet ⟨existing, rfl, hmatch⟩
    · intro hmatch outcome s hconflict hprecondition hs
      cases outcome with
      | ok =>
        cases hs
        refine ⟨⟨_, rfl, matches_of_eq rfl rfl⟩, ?_⟩
        rintro ⟨_, ⟨⟩, hold⟩
        exact absurd hold hmatch
      | conflict => exact absurd rfl hconflict
      | preconditionFailed => exact absurd rfl hprecondition
      | notFound | failed _ => cases hs

theorem toldApart_iff_alike {d : ApplyDesire} : d.ToldApart desire ↔
    (d.fieldManager = desire.fieldManager ∧ SameContent d.raw desire.raw ↔
      Alike d.raw desire.raw) := by
  have hrounding : (Alike d.raw desire.raw → SameContent d.raw desire.raw) ↔
      ∀ x y, parse d.raw = some x → parse desire.raw = some y → (toFloats x).isSome →
        toFloats x = toFloats y → x = y := by
    grind [Alike, SameContent]
  have hdecodes := @SameContent.alike_iff d.raw desire.raw
  rw [ApplyDesire.toldApart_iff, ← hrounding]
  grind

/-- `EnsureApplyDesire` converges unless it finds a desire for the same target that it cannot tell
from the one asked for, or that it tells apart although both are the same. -/
theorem ensureApplyDesire_converges_iff (doc : Option (Versioned ApplyDesire))
    (desire : ApplyDesire) : Converges doc desire ↔
      ((desire.tags.lookup tagControllerName).isSome → ∀ existing, doc = some existing →
        existing.doc.SameTarget desire → existing.doc.ToldApart desire) := by
  by_cases htag : (desire.tags.lookup tagControllerName).isSome
  · cases doc with
    | none =>
      refine iff_of_true ?_ nofun
      intro outcome s hconflict _ hs
      rw [ensureApplyDesire, if_neg (by simpa using htag)] at hs
      cases outcome with
      | ok =>
        cases hs
        exact ⟨⟨_, rfl, matches_of_eq rfl rfl⟩, by rintro ⟨_, ⟨⟩, _⟩⟩
      | conflict => exact absurd rfl hconflict
      | preconditionFailed | notFound | failed _ => cases hs
    | some existing =>
      rw [converges_some_iff htag, ApplyDesire.Matches, and_congr_right_iff]
      simp only [htag, Option.some.injEq, forall_eq', true_imp_iff]
      exact imp_congr_right fun _ => toldApart_iff_alike.symm
  · refine iff_of_true ?_ fun h => absurd h htag
    intro outcome s _ _ hs
    rw [ensureApplyDesire, if_pos (Option.isNone_iff_eq_none.mpr
      (Option.not_isSome_iff_eq_none.mp htag))] at hs
    cases hs

/-- Only the field manager differs, and it is not written. -/
theorem fieldManager_not_written :
    let desire (manager : String) : ApplyDesire :=
      { resourceID := ⟨.cluster, "hostedcluster"⟩
        spec := ⟨"mc-1", .serverSideApply, ⟨"", "v1", "configmaps", "ns", "name"⟩,
          some ⟨some "[]", some manager⟩⟩
        status := {}
        tags := [(tagControllerName, "desires-creator")] }
    ¬Converges (some ⟨1, desire "old"⟩) (desire "new") := by
  intro desire h
  have halike : Alike "[]" "[]" := jsonBytesEqual_iff.mp (by decide +kernel)
  have hmatch := ((converges_some_iff (by decide)).mp h).mpr ⟨⟨rfl, rfl, rfl, rfl⟩, halike⟩
  exact absurd hmatch.2.1 (by decide)

end AroHcp.Desires
