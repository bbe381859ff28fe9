import AroHcp.Lib.GoFmt
import AroHcp.Lib.GoInt
import AroHcp.Lib.SemVer
import AroHcp.Lib.SortFunc
import Mathlib.Data.UInt

/-! The selection of a release from the update graph of a channel, by its rank among the releases of
the channel's minor version. -/

namespace AroHcp.Version.Selection

open GoFmt GoInt SemVer

/-- `node` of the update graph. -/
structure Node where
  version : String
  payload : String
deriving DecidableEq, Repr

structure ConfigRelease where
  version : String
  image : String
deriving DecidableEq, Repr

def Node.toRelease (node : Node) : ConfigRelease where
  version := node.version
  image := node.payload

section Select

variable (V : Type) [SemVer V] (sortFunc : SortFunc ConfigRelease)

/-- The version as `semver.MustParse` reads it; `none` is a panic. -/
def mustParse (release : ConfigRelease) : Option V :=
  (parse release.version).toOption

/-- The descending order of `nodesToReleases`, in which versions that cannot be read come last. -/
def notOlder (a b : ConfigRelease) : Bool :=
  match mustParse V a, mustParse V b with
  | some vA, some vB => lte vB vA
  | some _, none => true
  | none, b => b.isNone

/-- `nodesToReleases`; `none` is a panic. Of two releases or more, each one is compared with
another. -/
def nodesToReleases (nodes : List Node) : Option (List ConfigRelease) :=
  let releases := nodes.map Node.toRelease
  if 2 ≤ releases.length ∧ releases.any fun release => (mustParse V release).isNone then none
  else some (sortFunc.sort (notOlder V) releases)

def afterLastDash (channel : String) : String :=
  String.ofList (channel.toList.reverse.takeWhile (· ≠ '-')).reverse

/-- The version can be read and has the major and minor numbers of another. -/
def sameMinor (channelVersion : V) (release : ConfigRelease) : Bool :=
  match parseTolerant (V := V) release.version with
  | .error _ => false
  | .ok v => major v = major channelVersion ∧ minor v = minor channelVersion

def filterReleasesToChannelMinor (releases : List ConfigRelease) (channel : String) :
    Except String (List ConfigRelease) :=
  match parseTolerant (V := V) (afterLastDash channel) with
  | .error err => .error s!"parse major.minor from channel {quote channel}: {err}"
  | .ok channelVersion => .ok (releases.filter (sameMinor V channelVersion))

def selectControlPlaneVersion (graph : Except String (List Node)) (updateService channel : String)
    (offset : UInt64) : Option (Except String ConfigRelease) :=
  match graph with
  | .error err => some (.error err)
  | .ok nodes =>
    match nodesToReleases V sortFunc nodes with
    | none => none
    | some releases =>
      match filterReleasesToChannelMinor V releases channel with
      | .error err => some (.error err)
      | .ok releases =>
        if releases.length = 0 then some (.error s!"no releases found in {updateService}")
        else if releases.length ≤ int64 offset.toNat then
          some (.error (s!"{releases.length} releases found in {updateService}, which is not " ++
            s!"enough for the requested {offset.toNat} offset"))
        else
          -- an index out of range panics
          releases[offset.toNat]?.map .ok

end Select

/-! ## What is to be selected -/

section Specification

variable (V : Type) [SemVer V]

def candidates (nodes : List Node) (channelVersion : V) : List ConfigRelease :=
  (nodes.map Node.toRelease).filter (sameMinor V channelVersion)

def newer (a b : ConfigRelease) : Bool :=
  match parseTolerant (V := V) a.version, parseTolerant (V := V) b.version with
  | .ok vA, .ok vB => gt vA vB
  | _, _ => false

/-- No panic, an error only if there are too few candidates, and otherwise the candidate of that
rank. -/
def SelectsOrderStatistic (nodes : List Node) (channelVersion : V) (offset : Nat) :
    Option (Except String ConfigRelease) → Prop
  | none => False
  | some (.error _) => (candidates V nodes channelVersion).length < offset + 1
  | some (.ok release) => IsNthLargest (newer V) (candidates V nodes channelVersion) offset release

/-- Every version of the graph can be read strictly. -/
def Readable (nodes : List Node) : Prop :=
  ∀ node ∈ nodes, mustParse V node.toRelease ≠ none

end Specification

variable {V : Type} [SemVer V]

theorem newer_self (a : ConfigRelease) : newer V a a = false := by
  unfold newer
  cases parseTolerant (V := V) a.version with
  | error err => rfl
  | ok v => exact (gt_iff_lt v v).trans (lt_self v)

theorem afterLastDash_append (group : String) {line : String} (hline : '-' ∉ line.toList) :
    afterLastDash (group ++ "-" ++ line) = line := by
  have hdash : ∀ c ∈ line.toList.reverse, decide (c ≠ '-') = true := by
    intro c hc
    rw [List.mem_reverse] at hc
    exact decide_eq_true fun heq => hline (heq ▸ hc)
  have hchars : (group ++ "-" ++ line).toList.reverse =
      line.toList.reverse ++ '-' :: group.toList.reverse := by
    simp
  rw [afterLastDash, hchars, List.takeWhile_append_of_pos hdash]
  simp

variable {channelVersion : V}

/-- An offset with the sign bit is a negative number, and passes the check of the length. -/
theorem selectControlPlaneVersion_of_sorted {sortFunc : SortFunc ConfigRelease} {nodes : List Node}
    {releases : List ConfigRelease} {updateService channel : String}
    (hchannel : parseTolerant (afterLastDash channel) = .ok channelVersion)
    (hnodes : nodesToReleases V sortFunc nodes = some releases) (hlength : releases.length < 2 ^ 63)
    (hsorted : releases.Pairwise fun a b => newer V b a = false)
    (hperm : releases.Perm (nodes.map Node.toRelease)) (offset : UInt64) :
    SelectsOrderStatistic V nodes channelVersion offset.toNat
        (selectControlPlaneVersion V sortFunc (.ok nodes) updateService channel offset) ↔
      offset.toNat < 2 ^ 63 ∨ candidates V nodes channelVersion = [] := by
  have hcandidates : (releases.filter (sameMinor V channelVersion)).Perm
      (candidates V nodes channelVersion) := hperm.filter _
  have hfiltered : (releases.filter (sameMinor V channelVersion)).Pairwise
      fun a b => newer V b a = false := hsorted.filter _
  have hshort : (releases.filter (sameMinor V channelVersion)).length < 2 ^ 63 :=
    lt_of_le_of_lt (List.length_filter_le _ _) hlength
  have hoffset := offset.toNat_lt
  rw [selectControlPlaneVersion]
  simp only [hnodes, filterReleasesToChannelMinor, hchannel]
  generalize releases.filter (sameMinor V channelVersion) = matching at *
  have hlen := hcandidates.length_eq
  by_cases hempty : matching.length = 0
  · have hnil : candidates V nodes channelVersion = [] :=
      List.eq_nil_of_length_eq_zero (hlen ▸ hempty)
    rw [if_pos hempty]
    exact iff_of_true (by simp [SelectsOrderStatistic, hnil]) (.inr hnil)
  · have hne : candidates V nodes channelVersion ≠ [] := by
      intro hnil
      rw [hnil, List.length_nil] at hlen
      exact hempty hlen
    rw [if_neg hempty]
    by_cases hsign : offset.toNat < 2 ^ 63
    · rw [int64_of_lt (by omega) (by omega)]
      refine iff_of_true ?_ (.inl hsign)
      split_ifs with hfew
      · change (candidates V nodes channelVersion).length < offset.toNat + 1
        omega
      · have hlt : offset.toNat < matching.length := by omega
        rw [List.getElem?_eq_getElem hlt]
        have hnth := isNthLargest_of_getElem? (fun a _ => newer_self a) hfiltered
          (List.getElem?_eq_getElem hlt)
        exact hnth.perm hcandidates
    · rw [int64_of_ge (by omega) (by omega), if_neg (by omega), List.getElem?_eq_none (by omega)]
      exact iff_of_false id fun h => h.elim hsign hne

section Sorted

variable [LawfulSemVer V] {sortFunc : SortFunc ConfigRelease} {nodes : List Node}

theorem notOlder_trans (a b c : ConfigRelease) (hab : notOlder V a b = true)
    (hbc : notOlder V b c = true) : notOlder V a c = true := by
  unfold notOlder at *
  generalize mustParse V a = x at hab ⊢
  generalize mustParse V b = y at hab hbc
  generalize mustParse V c = z at hbc ⊢
  cases x with
  | none =>
    cases y with
    | none => exact hbc
    | some vB => cases hab
  | some vA =>
    cases z with
    | none => rfl
    | some vC =>
      cases y with
      | none => cases hbc
      | some vB => exact LawfulSemVer.lte_trans hbc hab

omit [LawfulSemVer V] in
theorem notOlder_total (a b : ConfigRelease) : (notOlder V a b || notOlder V b a) = true := by
  unfold notOlder
  cases mustParse V a with
  | none => cases mustParse V b <;> rfl
  | some vA =>
    cases mustParse V b with
    | none => rfl
    | some vB =>
      change (lte vB vA || lte vA vB) = true
      unfold lte gt
      rw [compare_swap vA vB]
      cases SemVer.compare vA vB <;> rfl

/-- For versions that can be read strictly, the order of the sort is that of precedence. -/
theorem newer_of_notOlder {a b : ConfigRelease} (ha : mustParse V a ≠ none)
    (hb : mustParse V b ≠ none) (h : notOlder V a b = true) : newer V b a = false := by
  have hparse : ∀ release v, mustParse V release = some v →
      parseTolerant (V := V) release.version = .ok v := by
    intro release v hv
    apply LawfulSemVer.parseTolerant_of_parse
    unfold mustParse at hv
    cases hp : parse (V := V) release.version <;> simp_all [Except.toOption]
  obtain ⟨vA, hvA⟩ := Option.ne_none_iff_exists'.mp ha
  obtain ⟨vB, hvB⟩ := Option.ne_none_iff_exists'.mp hb
  rw [notOlder, hvA, hvB] at h
  rw [newer, hparse a vA hvA, hparse b vB hvB]
  simpa [lte] using h

end Sorted

/-- The release of the wanted rank is selected exactly if all versions of the graph can be read
strictly, unless there is at most one, and the offset has no sign bit, unless there is no candidate.
-/
theorem selectControlPlaneVersion_orderStatistic_iff [LawfulSemVer V]
    (sortFunc : SortFunc ConfigRelease) (nodes : List Node) (hlength : nodes.length < 2 ^ 63)
    (updateService group line : String) (channelVersion : V) (hdash : '-' ∉ line.toList)
    (hline : parseTolerant line = .ok channelVersion) (offset : UInt64) :
    SelectsOrderStatistic V nodes channelVersion offset.toNat (selectControlPlaneVersion V sortFunc
        (.ok nodes) updateService (group ++ "-" ++ line) offset) ↔
      (nodes.length ≤ 1 ∨ Readable V nodes) ∧
        (offset.toNat < 2 ^ 63 ∨ candidates V nodes channelVersion = []) := by
  have hchannel : parseTolerant (afterLastDash (group ++ "-" ++ line)) = .ok channelVersion := by
    rw [afterLastDash_append group hdash, hline]
  have hperm := sortFunc.perm (notOlder V) (nodes.map Node.toRelease)
  have hpairwise := sortFunc.pairwise (notOlder V) (nodes.map Node.toRelease) notOlder_trans
    notOlder_total
  by_cases hreadable : nodes.length ≤ 1 ∨ Readable V nodes
  · rw [and_iff_right hreadable]
    refine selectControlPlaneVersion_of_sorted hchannel (if_neg ?_) (by simpa [hperm.length_eq]) ?_
      hperm offset
    · rintro ⟨hmany, hany⟩
      obtain ⟨release, hmem, hnone⟩ := List.any_eq_true.mp hany
      obtain ⟨node, hnode, rfl⟩ := List.mem_map.mp hmem
      rw [List.length_map] at hmany
      rcases hreadable with hfew | hall
      · omega
      · exact hall node hnode (Option.isNone_iff_eq_none.mp hnone)
    · rcases hreadable with hfew | hall
      · have hone := hperm.length_eq
        rw [List.length_map] at hone
        match sortFunc.sort (notOlder V) (nodes.map Node.toRelease), hone with
        | [], _ => exact .nil
        | [release], _ => exact List.pairwise_singleton _ release
        | _ :: _ :: _, hone =>
          rw [List.length_cons, List.length_cons] at hone
          omega
      · refine hpairwise.imp_of_mem ?_
        intro a b ha hb hab
        obtain ⟨node, hnode, rfl⟩ := List.mem_map.mp (hperm.mem_iff.mp ha)
        obtain ⟨node', hnode', rfl⟩ := List.mem_map.mp (hperm.mem_iff.mp hb)
        exact newer_of_notOlder (hall node hnode) (hall node' hnode') hab
  · refine iff_of_false ?_ fun h => hreadable h.1
    rw [not_or] at hreadable
    have hpanics : nodesToReleases V sortFunc nodes = none := by
      refine if_pos ⟨by simp; omega, ?_⟩
      have hnot := hreadable.2
      unfold Readable at hnot
      push Not at hnot
      obtain ⟨node, hnode, hnone⟩ := hnot
      rw [List.any_eq_true]
      exact ⟨node.toRelease, List.mem_map_of_mem hnode, Option.isNone_iff_eq_none.mpr hnone⟩
    rw [selectControlPlaneVersion]
    simp only [hpanics]
    exact id

/-- The second release of 4.20, among releases of two minor versions. -/
theorem selectControlPlaneVersion_orderStatistic_second :
    SelectsOrderStatistic Release [⟨"4.20.1", "a"⟩, ⟨"4.19.7", "b"⟩, ⟨"4.20.3", "c"⟩] ⟨4, 20, 0⟩ 1
      (selectControlPlaneVersion Release (.insertionSort _)
        (.ok [⟨"4.20.1", "a"⟩, ⟨"4.19.7", "b"⟩, ⟨"4.20.3", "c"⟩]) "service" ("fast" ++ "-" ++ "4.20")
        1) := by
  apply (selectControlPlaneVersion_orderStatistic_iff (.insertionSort _) _ (by decide) "service"
    "fast" "4.20" (⟨4, 20, 0⟩ : Release) (by decide) ?_ 1).mpr
  · refine ⟨.inr ?_, .inl (by decide)⟩
    unfold Readable
    decide
  · have hread : (Release.parseTolerant "4.20").toOption = some ⟨4, 20, 0⟩ := by decide
    cases h : Release.parseTolerant "4.20" with
    | error err =>
      rw [h] at hread
      cases hread
    | ok v =>
      cases hread
      rfl

/-- A text that is no version, beside one release, and an offset with the sign bit panic. -/
theorem selectControlPlaneVersion_panics :
    selectControlPlaneVersion Release (.insertionSort _)
        (.ok [⟨"4.20.1", "a"⟩, ⟨"nightly", "b"⟩]) "service" "fast-4.20" 0 = none ∧
      selectControlPlaneVersion Release (.insertionSort _) (.ok [⟨"4.20.1", "a"⟩]) "service"
        "fast-4.20" (2 ^ 63) = none := by
  decide +kernel

end AroHcp.Version.Selection
