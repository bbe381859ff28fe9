import AroHcp.Lib.GoInt
import AroHcp.Version.SkewPolicy

/-! The two skew validators in the fixed-width arithmetic of the source, where release numbers are
`uint64` and the cluster side converts them to `int64`. Below `2 ^ 63` they are the unbounded rules.
They agree but for one pair of lines, at which the conversion wraps. -/

namespace AroHcp.Version

open GoFmt GoInt SemVer

variable {V : Type} [SemVer V]

/-! ## The source's arithmetic -/

namespace Fixed

def clusterVersionSkewVersusNodePool : String → V → V → Option String :=
  clusterSkew fun nodePool cluster => int64 (int64 cluster - 2) ≤ int64 nodePool

def behind (desired highest : Nat) : Prop := 2 < uint64 ((highest : Int) - desired)

def skips (lowest desired : Nat) : Prop := uint64 ((lowest : Int) + 2) < desired

instance : DecidableRel behind := fun _ _ => inferInstanceAs (Decidable (_ < _))

instance : DecidableRel skips := fun _ _ => inferInstanceAs (Decidable (_ < _))

def validateNodePoolVersionChange : V → List (Option V) → Option V → Option V → Bool →
    Option String :=
  nodePoolChange behind skips

end Fixed

variable {active : List (Option V)}

/-! ## The tables -/

variable {name : String} {n c d : V}

theorem validateCrossMajorNodePoolSkew_eq_none_iff :
    validateCrossMajorNodePoolSkew n c = none ↔
      minorString c ∈
        (allowControlPlaneNodePoolMajorVersionSkew.lookup (minorString n)).getD [] := by
  unfold validateCrossMajorNodePoolSkew
  cases allowControlPlaneNodePoolMajorVersionSkew.lookup (minorString n) with
  | none => simp
  | some allowed =>
    dsimp only
    split_ifs with h <;> simpa using h

/-- Every node pool line that may be upgraded across majors goes from 4 to 5, and no control plane
beyond major 5 runs with it. -/
theorem major_of_validateMajorUpgrade {lowest : V} (hupgrade : validateMajorUpgrade lowest d = none)
    (hskew : minorString c ∈
      (allowControlPlaneNodePoolMajorVersionSkew.lookup (minorString lowest)).getD []) :
    major d = 5 ∧ major c = 5 := by
  have hline : ∀ {v : V} {y : Nat}, minorString v = s!"{5}.{y}" → major v = 5 :=
    fun h => (minorString_eq_iff.mp h).1
  unfold validateMajorUpgrade at hupgrade
  generalize minorString lowest = line at hupgrade hskew
  by_cases h22 : line = "4.22"
  · subst h22
    have hd : "5.0" = minorString d := by
      by_contra hne
      simp [allowMajorUpgradePaths, hne] at hupgrade
    have hc : minorString c = "5.0" ∨ minorString c = "5.1" := by
      simpa [allowControlPlaneNodePoolMajorVersionSkew, List.lookup_cons] using hskew
    exact ⟨hline (y := 0) hd.symm, hc.elim (hline (y := 0)) (hline (y := 1))⟩
  · by_cases h23 : line = "4.23"
    · subst h23
      have hd : "5.1" = minorString d := by
        by_contra hne
        simp [allowMajorUpgradePaths, List.lookup_cons, hne] at hupgrade
      have hc : minorString c = "5.1" ∨ minorString c = "5.2" := by
        simpa [allowControlPlaneNodePoolMajorVersionSkew, List.lookup_cons] using hskew
      exact ⟨hline (y := 1) hd.symm, hc.elim (hline (y := 1)) (hline (y := 2))⟩
    · have h22' : (line == "4.22") = false := by simpa using h22
      have h23' : (line == "4.23") = false := by simpa using h23
      simp [allowMajorUpgradePaths, List.lookup_cons, h22', h23'] at hupgrade

/-! ## The cluster side -/

theorem fixed_skew_eq_none_iff : Fixed.clusterVersionSkewVersusNodePool name n c = none ↔
    major n = major c ∧ (minor n = minor c ∨
        int64 (int64 (minor c) - 2) ≤ int64 (minor n)) ∨
      major n ≠ major c ∧ minorString c ∈
        (allowControlPlaneNodePoolMajorVersionSkew.lookup (minorString n)).getD [] := by
  unfold Fixed.clusterVersionSkewVersusNodePool clusterSkew
  split_ifs with hline hmajor hminor <;> simp_all

theorem fixed_skew_congr {m : V} (hmajor : major m = major n) (hminor : minor m = minor n) :
    Fixed.clusterVersionSkewVersusNodePool name m c = none ↔
      Fixed.clusterVersionSkewVersusNodePool name n c = none := by
  rw [fixed_skew_eq_none_iff, fixed_skew_eq_none_iff, hmajor, hminor,
    minorString_congr hmajor hminor]

/-- The one pair of lines for which the test for two minors fails though they are one apart:
`int64` reads the node pool's minor as the least number and `int64(c) - 2` as the greatest. -/
def WrapsAt (d c : V) : Prop :=
  major d = major c ∧ minor d = 2 ^ 63 ∧ minor c = 2 ^ 63 + 1

instance (d c : V) : Decidable (WrapsAt d c) :=
  inferInstanceAs (Decidable (_ ∧ _))

theorem int64_sub_two_le {x y : Nat} (hy : y < 2 ^ 64) (hle : x ≤ y) (hnear : y ≤ x + 2)
    (hwrap : ¬ (x = 2 ^ 63 ∧ y = 2 ^ 63 + 1)) (hne : x ≠ y) :
    int64 (int64 y - 2) ≤ int64 x := by
  unfold int64
  rw [Int.bmod_def, Int.bmod_def, Int.bmod_def]
  omega

/-! ## The node pool side -/

/-- The unsigned difference does not wrap: the control plane is not behind. -/
theorem near_of_uint64 (hc : minor c < 2 ^ 64) (hline : LineLe d c) (hmajor : major d = major c)
    (h : ¬ 2 < uint64 ((minor c : Int) - minor d)) : minor c ≤ minor d + 2 := by
  unfold LineLe at hline
  rw [uint64_of_lt (by omega) (by omega)] at h
  omega

/-- What acceptance against a single control plane version says. -/
theorem fixed_against_eq_none {allowMajorUpgrade : Bool} (hc : minor c < 2 ^ 64)
    (h : nodePoolChangeAgainst Fixed.behind Fixed.skips d active c c allowMajorUpgrade = none) :
    LineLe d c ∧ (major d = major c → minor c ≤ minor d + 2) ∧
      (major d ≠ major c → minorString c ∈
          (allowControlPlaneNodePoolMajorVersionSkew.lookup (minorString d)).getD [] ∨
        ∃ lowest, (findLowestAndHighestVersion active).1 = some lowest ∧
          major lowest < major d ∧ validateMajorUpgrade lowest d = none) := by
  unfold nodePoolChangeAgainst at h
  dsimp only at h
  split_ifs at h with hahead hbehind hother hallow hcross hallow'
  all_goals
    have hline : LineLe d c := by
      unfold LineLe
      omega
    refine ⟨hline, fun hmajor => ?_, fun hmajor => ?_⟩
    · exact near_of_uint64 hc hline hmajor fun hfar => hbehind ⟨hmajor, hfar⟩
  · -- the node pool stays on its major, and the control plane is on another
    exact .inl (validateCrossMajorNodePoolSkew_eq_none_iff.mp h)
  · split at h
    next lowest hupgrade hlowest =>
      rw [hlowest, Option.any_some, decide_eq_true_eq] at hupgrade
      exact .inr ⟨lowest, hlowest, hupgrade, h⟩
    next => exact .inl (validateCrossMajorNodePoolSkew_eq_none_iff.mp h)
  · -- a highest version of another major makes the change one across majors
    refine absurd ⟨hmajor, ?_⟩ hother
    rw [Option.all_eq_true]
    intro highest hhighest
    obtain ⟨low, high, hbounds, hlow, -⟩ :=
      findLowestAndHighestVersion_spec (mem_of_outermost hhighest)
    rw [hbounds] at hcross hhighest
    cases hhighest
    unfold LineLe at hlow
    simp only [Option.any_some, Bool.or_eq_true, decide_eq_true_eq, not_or] at hcross
    simp only [decide_eq_true_eq]
    omega

/-! ## Orders of the active versions -/

/-- Both versions are of one release line, or both are missing. -/
def SameLine : Option V → Option V → Prop
  | some a, some b => major a = major b ∧ minor a = minor b
  | none, none => True
  | _, _ => False

theorem sameLine_of_perm {versions versions' : List V} (h : versions'.Perm versions) :
    SameLine (findLowestAndHighestVersion (versions'.map some)).1
        (findLowestAndHighestVersion (versions.map some)).1 ∧
      SameLine (findLowestAndHighestVersion (versions'.map some)).2
        (findLowestAndHighestVersion (versions.map some)).2 := by
  have hreduce : ∀ xs : List V, (xs.map some).reduceOption = xs := by
    intro xs
    simp [List.reduceOption]
  cases versions with
  | nil =>
    rw [h.eq_nil]
    exact ⟨trivial, trivial⟩
  | cons v rest =>
    have hv : v ∈ ((v :: rest).map some).reduceOption := by simp [hreduce]
    have hv' : v ∈ (versions'.map some).reduceOption := by
      rw [hreduce, h.mem_iff]
      exact List.mem_cons_self
    obtain ⟨low, high, hbounds, -⟩ := findLowestAndHighestVersion_spec hv
    obtain ⟨low', high', hbounds', -⟩ := findLowestAndHighestVersion_spec hv'
    have hkept : ∀ {xs : List V} {l g : V}, findLowestAndHighestVersion (xs.map some) =
        (some l, some g) → l ∈ xs ∧ g ∈ xs := by
      intro xs l g hxs
      have hlow := mem_of_outermost (congrArg Prod.fst hxs)
      have hhigh := mem_of_outermost (congrArg Prod.snd hxs)
      rw [hreduce] at hlow hhigh
      exact ⟨hlow, hhigh⟩
    have hspec : ∀ {xs : List V} {l g u : V}, findLowestAndHighestVersion (xs.map some) =
        (some l, some g) → u ∈ xs → LineLe l u ∧ LineLe u g := by
      intro xs l g u hxs hu
      have hmem : u ∈ (xs.map some).reduceOption := by rwa [hreduce]
      obtain ⟨l', g', hxs', hle⟩ := findLowestAndHighestVersion_spec hmem
      rw [hxs] at hxs'
      cases hxs'
      exact hle
    have hin := hkept hbounds
    have hin' := hkept hbounds'
    have hlow := hspec hbounds (h.mem_iff.mp hin'.1)
    have hlow' := hspec hbounds' (h.mem_iff.mpr hin.1)
    have hhigh := hspec hbounds (h.mem_iff.mp hin'.2)
    have hhigh' := hspec hbounds' (h.mem_iff.mpr hin.2)
    rw [hbounds, hbounds']
    unfold LineLe at hlow hlow' hhigh hhigh'
    unfold SameLine
    omega

/-- The rules read nothing of the bounds but their lines. -/
theorem fixed_against_congr {activeVersions' : List (Option V)}
    (hlowest : SameLine (findLowestAndHighestVersion activeVersions').1
      (findLowestAndHighestVersion active).1)
    (hhighest : SameLine (findLowestAndHighestVersion activeVersions').2
      (findLowestAndHighestVersion active).2) (low high : V) (allowMajorUpgrade : Bool) :
    nodePoolChangeAgainst Fixed.behind Fixed.skips d activeVersions' low high allowMajorUpgrade =
      none ↔
      nodePoolChangeAgainst Fixed.behind Fixed.skips d active low high allowMajorUpgrade = none := by
  unfold nodePoolChangeAgainst
  generalize findLowestAndHighestVersion activeVersions' = bounds' at hlowest hhighest ⊢
  generalize findLowestAndHighestVersion active = bounds at hlowest hhighest ⊢
  obtain ⟨lowest', highest'⟩ := bounds'
  obtain ⟨lowest, highest⟩ := bounds
  dsimp only at hlowest hhighest ⊢
  have hall : (highest'.all fun highest => major d = major highest) =
      highest.all fun highest => major d = major highest := by
    cases highest' <;> cases highest <;> simp_all [SameLine]
  have hdown : (highest'.any fun highest => major d < major highest) =
      highest.any fun highest => major d < major highest := by
    cases highest' <;> cases highest <;> simp_all [SameLine]
  rw [hall, hdown]
  cases lowest' with
  | none =>
    cases lowest with
    | none => exact Iff.rfl
    | some l => exact absurd hlowest id
  | some l' =>
    cases lowest with
    | none => exact absurd hlowest id
    | some l =>
      have hupgrade : validateMajorUpgrade l' d = none ↔ validateMajorUpgrade l d = none := by
        unfold validateMajorUpgrade
        rw [minorString_congr hlowest.1 hlowest.2]
        split
        next => simp
        next => split_ifs <;> simp
      simp only [Option.any_some, hlowest.1, hlowest.2]
      split_ifs with hahead hbehind hother hallow hcross hallow hskip
      -- the errors differ in their texts only
      all_goals try simp
      cases decide (major l < major d) with
      | true => exact hupgrade
      | false => exact Iff.rfl

/-! ## Agreement -/

/-- What an accepted version satisfies beside the node pool's rules. -/
structure SkewAgreement (name : String) (c d : V) (active : List V) (allowMajorUpgrade : Bool) :
    Prop where
  cluster : Fixed.clusterVersionSkewVersusNodePool name d c = none
  not_ahead : LineLe d c ∨ ∃ version ∈ active, eq version d = true
  order : ∀ active' : List V, active'.Perm active →
    (Fixed.validateNodePoolVersionChange d (active'.map some) (some c) (some c) allowMajorUpgrade =
        none ↔
      Fixed.validateNodePoolVersionChange d (active.map some) (some c) (some c) allowMajorUpgrade =
        none)

theorem any_active_iff {active : List V} :
    ((active.map some).any fun entry => entry.any fun version => eq version d) = true ↔
      ∃ version ∈ active, eq version d = true := by
  simp

theorem fixed_change_perm {active active' : List V} (h : active'.Perm active)
    (allowMajorUpgrade : Bool) :
    Fixed.validateNodePoolVersionChange d (active'.map some) (some c) (some c) allowMajorUpgrade =
        none ↔
      Fixed.validateNodePoolVersionChange d (active.map some) (some c) (some c) allowMajorUpgrade =
        none := by
  have hany : ((active'.map some).any fun entry => entry.any fun version => eq version d) =
      (active.map some).any fun entry => entry.any fun version => eq version d := by
    rw [Bool.eq_iff_iff, any_active_iff, any_active_iff]
    simp only [h.mem_iff]
  unfold Fixed.validateNodePoolVersionChange nodePoolChange
  rw [hany]
  split_ifs
  · exact Iff.rfl
  · exact fixed_against_congr (sameLine_of_perm h).1 (sameLine_of_perm h).2 c c allowMajorUpgrade

/-- A version that the node pool side accepts is accepted by the cluster side, except at the one
pair of lines where the conversion to `int64` wraps. -/
theorem skew_validators_agree (name : String) (c d : V) (active : List V) (allowMajorUpgrade : Bool)
    (hc : minor c < 2 ^ 64) (hwrap : ¬ WrapsAt d c)
    (hactive : ∀ version ∈ active, Fixed.clusterVersionSkewVersusNodePool name version c = none)
    (haccept : Fixed.validateNodePoolVersionChange d (active.map some) (some c) (some c)
      allowMajorUpgrade = none) :
    SkewAgreement name c d active allowMajorUpgrade := by
  suffices hcluster : Fixed.clusterVersionSkewVersusNodePool name d c = none ∧
      (LineLe d c ∨ ∃ version ∈ active, eq version d = true) from
    ⟨hcluster.1, hcluster.2, fun active' h => fixed_change_perm h allowMajorUpgrade⟩
  unfold Fixed.validateNodePoolVersionChange nodePoolChange at haccept
  split_ifs at haccept with hrunning
  · -- the node pool runs a version of this line already
    obtain ⟨version, hversion, heq⟩ := any_active_iff.mp hrunning
    obtain ⟨hmajor, hminor⟩ := line_eq_of_eq heq
    refine ⟨?_, .inr ⟨version, hversion, heq⟩⟩
    exact (fixed_skew_congr hmajor hminor).mp (hactive version hversion)
  · obtain ⟨hline, hnear, hother⟩ := fixed_against_eq_none hc haccept
    refine ⟨fixed_skew_eq_none_iff.mpr ?_, .inl hline⟩
    by_cases hmajor : major d = major c
    · refine .inl ⟨hmajor, or_iff_not_imp_left.mpr fun hne => ?_⟩
      have hle : minor d ≤ minor c := by
        unfold LineLe at hline
        omega
      exact int64_sub_two_le hc hle (hnear hmajor) (fun h => hwrap ⟨hmajor, h.1, h.2⟩) hne
    · refine .inr ⟨hmajor, (hother hmajor).resolve_right ?_⟩
      rintro ⟨lowest, hlowest, hbelow, hupgrade⟩
      -- the lowest active version runs with the control plane, so that is of major 5 as well
      have hmem : lowest ∈ active := by
        have hreduced := mem_of_outermost hlowest
        simpa [List.reduceOption] using hreduced
      rcases fixed_skew_eq_none_iff.mp (hactive lowest hmem) with ⟨hsame, -⟩ | ⟨-, hskew⟩
      · unfold LineLe at hline
        omega
      · obtain ⟨hd, hcluster⟩ := major_of_validateMajorUpgrade hupgrade hskew
        exact hmajor (hd.trans hcluster.symm)

/-- A node pool in the middle of an upgrade across majors, with the versions in either order. -/
theorem skew_validators_agree_across_majors :
    Fixed.validateNodePoolVersionChange (⟨4, 23, 1⟩ : Release)
        ([⟨5, 1, 0⟩, ⟨4, 22, 3⟩].map some) (some ⟨5, 1, 2⟩) (some ⟨5, 1, 2⟩) true = none ∧
      SkewAgreement "workers" (⟨5, 1, 2⟩ : Release) ⟨4, 23, 1⟩ [⟨5, 1, 0⟩, ⟨4, 22, 3⟩] true := by
  refine ⟨by decide +kernel, ?_⟩
  exact skew_validators_agree _ _ _ _ _ (by decide) (by decide) (by decide +kernel)
    (by decide +kernel)

/-- One minor apart, with the sign bit of `int64` between them. -/
theorem skew_validators_disagree :
    Fixed.validateNodePoolVersionChange (⟨4, 2 ^ 63, 0⟩ : Release) []
        (some ⟨4, 2 ^ 63 + 1, 0⟩) (some ⟨4, 2 ^ 63 + 1, 0⟩) false = none ∧
      Fixed.clusterVersionSkewVersusNodePool "workers" (⟨4, 2 ^ 63, 0⟩ : Release)
        ⟨4, 2 ^ 63 + 1, 0⟩ ≠ none := by
  refine ⟨by decide +kernel, ?_⟩
  decide +kernel

end AroHcp.Version
