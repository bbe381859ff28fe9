import AroHcp.Nsg.Evaluator

/-! What the rules mean for single packets, and how far the evaluation of whole paths agrees with
it. The evaluation widens a rule that overlaps the path: an Allow to all sources and source ports, a
Deny to the whole path. Up to that it is exact. -/

namespace Nsg

open GoStrings Netip

/-! ## Packets -/

structure Packet where
  source : Addr
  sourcePort : UInt16
  destination : Addr
  port : Int

def OnPath (path : RequiredPath) (packet : Packet) : Prop :=
  path.worker.contains packet.source = true ∧ path.destination.contains packet.destination = true ∧
    packet.port = path.port

variable (parsers : Parsers)

/-- One entry of an address field names the address. The subnets of a path are in the virtual
network, so its tag names all their addresses, and the tag for the internet none. -/
def entryMatches (p : String) (a : Addr) : Bool :=
  isAnyAddressPrefix (trimSpace p) || isVirtualNetworkTag (trimSpace p) ||
    match parsePrefixOrAddr parsers (trimSpace p) with
    | .ok q => q.contains a
    | .error _ => false

def addressMatches (prefixes : List String) (a : Addr) : Bool :=
  prefixes.isEmpty || prefixes.any (entryMatches parsers · a)

/-- The port is in one of the ranges that the validation accepts: `*` may stand alone or in a list.
-/
def portMatches (ranges : List String) (port : Int) : Bool :=
  ranges.isEmpty || ranges.any fun r =>
    isAnyPort (trimSpace r) || (split (trimSpace r) ',').any fun part =>
      isAnyPort (trimSpace part) ||
        match parsers.parsePortRange (trimSpace part) with
        | .ok pr => pr.contains port
        | .error _ => false

def ruleMatchesPacket (rule : SecurityRule) (packet : Packet) : Bool :=
  protocolMatchesTCP rule.protocol &&
    addressMatches parsers rule.sourceAddressPrefixes packet.source &&
    addressMatches parsers rule.destinationAddressPrefixes packet.destination &&
    portMatches parsers rule.sourcePortRanges packet.sourcePort.toNat &&
    portMatches parsers rule.destinationPortRanges packet.port

/-- The matching rule of the lowest priority number decides; unmatched packets are denied. -/
def PacketAllowed (rules : List SecurityRule) (packet : Packet) : Prop :=
  DecisionList.Accepts SecurityRule.priority isAllow
    (fun rule => ruleMatchesPacket parsers rule packet = true) rules

/-! ## The rules as the evaluation reads them -/

def widenedMatches (path : RequiredPath) (rule : SecurityRule) (a : Addr) : Bool :=
  protocolMatchesTCP rule.protocol && ruleMatchesPath parsers rule path &&
    (!isAllow rule || rule.destinationAddressPrefixes.any (entryMatches parsers · a))

def WidenedAllowed (path : RequiredPath) (rules : List SecurityRule) (a : Addr) : Prop :=
  DecisionList.Accepts SecurityRule.priority isAllow
    (fun rule => widenedMatches parsers path rule a = true) rules

variable {parsers}

/-! ### The texts of prefixes -/

theorem slash_mem_string (p : Prefix) : '/' ∈ (parsers.string p).toList :=
  contains_singleton_iff.mp (parsers.string_contains_slash p)

theorem trimSpace_trimSpace_string (p : Prefix) :
    trimSpace (trimSpace (parsers.string p)) = parsers.string p := by
  rw [parsers.trimSpace_string, parsers.trimSpace_string]

theorem not_isAnyAddressPrefix_string (p : Prefix) :
    isAnyAddressPrefix (trimSpace (parsers.string p)) = false := by
  have hslash : '/' ∈ (parsers.string p).toList := slash_mem_string p
  have hfold : equalFold (parsers.string p) "Any" = false :=
    not_equalFold hslash (by decide) (by decide)
  have hempty : parsers.string p ≠ "" := by
    intro h
    rw [h] at hslash
    simp at hslash
  have hstar : parsers.string p ≠ "*" := by
    intro h
    rw [h] at hslash
    simp at hslash
  simp [isAnyAddressPrefix, trimSpace_trimSpace_string, hfold, hempty, hstar]

theorem not_isVirtualNetworkTag_string (p : Prefix) :
    isVirtualNetworkTag (trimSpace (parsers.string p)) = false := by
  unfold isVirtualNetworkTag
  rw [trimSpace_trimSpace_string]
  exact not_equalFold (slash_mem_string p) (by decide) (by decide)

theorem parsePrefixOrAddr_string (p : Prefix) :
    parsePrefixOrAddr parsers (trimSpace (parsers.string p)) = .ok p := by
  unfold parsePrefixOrAddr
  dsimp only
  rw [trimSpace_trimSpace_string, if_pos (parsers.string_contains_slash p),
    parsers.parsePrefix_string]

theorem entryMatches_string (p : Prefix) (a : Addr) :
    entryMatches parsers (parsers.string p) a = p.contains a := by
  simp only [entryMatches, not_isAnyAddressPrefix_string, not_isVirtualNetworkTag_string,
    parsePrefixOrAddr_string, Bool.false_or]

theorem parsePrefixOrAddr_internet {p : String} (h : isInternetTag p = true) (q : Prefix) :
    parsePrefixOrAddr parsers p ≠ .ok q := by
  intro hq
  have hnot : ∀ c, GoStrings.foldRune c = c → c ∉ "Internet".toList.map foldRune →
      c ∉ (trimSpace p).toList := by
    intro c hc ht hmem
    have hfalse := not_equalFold hmem hc ht
    unfold isInternetTag at h
    rw [h] at hfalse
    cases hfalse
  unfold parsePrefixOrAddr at hq
  dsimp only at hq
  split at hq
  · next hslash => exact hnot '/' (by decide) (by decide) (contains_singleton_iff.mp hslash)
  · split at hq
    · next a ha =>
      rcases parsers.parseAddr_separator _ a ha with hdot | hcolon
      · exact hnot '.' (by decide) (by decide) hdot
      · exact hnot ':' (by decide) (by decide) hcolon
    · cases hq

/-! ### Coverage -/

/-- The address is in one of the prefixes. -/
def InPartials (partials : List Prefix) (a : Addr) : Prop :=
  ∃ q ∈ partials, q.contains a = true

variable {dest : Prefix} {prefixes : List String} {a : Addr}

theorem entryMatches_of_allowCoversPrefix (h : allowCoversPrefix parsers prefixes dest = true)
    (ha : dest.contains a = true) :
    prefixes.any (entryMatches parsers · a) = true := by
  obtain ⟨p, hp, hcovers⟩ := List.any_eq_true.mp h
  refine List.any_eq_true.mpr ⟨p, hp, ?_⟩
  unfold entryMatches
  dsimp only at hcovers
  rw [Bool.or_eq_true] at hcovers ⊢
  refine hcovers.imp id fun hprefix => ?_
  cases hq : parsePrefixOrAddr parsers (trimSpace p) with
  | error err =>
    rw [hq] at hprefix
    cases hprefix
  | ok q =>
    rw [hq] at hprefix
    dsimp only at hprefix
    rw [Bool.and_eq_true, decide_eq_true_eq] at hprefix
    exact Prefix.contains_of_covers hprefix.2 hprefix.1 ha

variable {partials : List Prefix}

theorem inPartials_of_allowCoversPrefix
    (h : allowCoversPrefix parsers (partials.map parsers.string) dest = true)
    (ha : dest.contains a = true) : InPartials partials a := by
  obtain ⟨text, htext, hmatch⟩ := List.any_eq_true.mp (entryMatches_of_allowCoversPrefix h ha)
  obtain ⟨q, hq, rfl⟩ := List.mem_map.mp htext
  rw [entryMatches_string] at hmatch
  exact ⟨q, hq, hmatch⟩

theorem partialRanges_valid :
    ∀ r ∈ partialRanges partials dest, r.first ≤ r.last := by
  intro r hr
  obtain ⟨q, hq, rfl⟩ := List.mem_map.mp hr
  obtain ⟨a, hqa, hda⟩ := Prefix.exists_common_of_overlaps (List.mem_filter.mp hq).2
  rw [Prefix.contains_iff] at hqa hda
  obtain ⟨hfirst, hlast⟩ := NatRange.has_inter.mpr ⟨hqa.2, hda.2⟩
  exact hfirst.trans hlast

/-- The ranges of the partial prefixes have exactly the addresses of the destination that are in one
of the prefixes. -/
theorem inSome_partialRanges (ha : dest.contains a = true) :
    NatRange.InSome (partialRanges partials dest) a.value ↔ InPartials partials a := by
  have hda := Prefix.contains_iff.mp ha
  constructor
  · rintro ⟨r, hr, hhas⟩
    obtain ⟨q, hq, rfl⟩ := List.mem_map.mp hr
    obtain ⟨hmem, hoverlaps⟩ := List.mem_filter.mp hq
    obtain ⟨b, hqb, hdb⟩ := Prefix.exists_common_of_overlaps hoverlaps
    rw [Prefix.contains_iff] at hqb hdb
    have hfamily : q.addr.family = a.family := hqb.1.trans (hdb.1.symm.trans hda.1)
    exact ⟨q, hmem, Prefix.contains_iff.mpr ⟨hfamily, (NatRange.has_inter.mp hhas).1⟩⟩
  · rintro ⟨q, hq, hqa⟩
    refine ⟨q.range.inter dest.range, List.mem_map.mpr ⟨q, ?_, rfl⟩, ?_⟩
    · exact List.mem_filter.mpr ⟨hq, Prefix.overlaps_of_common hqa ha⟩
    · exact NatRange.has_inter.mpr ⟨(Prefix.contains_iff.mp hqa).2, hda.2⟩

/-- The ranges have all the numbers of the destination exactly if every address of it is in a
prefix: every number of its range is an address. -/
theorem forall_inSome_partialRanges :
    (∀ x, dest.range.Has x → NatRange.InSome (partialRanges partials dest) x) ↔
      ∀ a, dest.contains a = true → InPartials partials a := by
  constructor
  · intro hall a ha
    exact (inSome_partialRanges ha).mp (hall a.value (Prefix.contains_iff.mp ha).2)
  · intro hall x hx
    have hbound : x < 2 ^ dest.addr.family.bitLen := lt_of_le_of_lt hx.2 Prefix.last_lt
    have ha : dest.contains ⟨dest.addr.family, x, hbound⟩ = true :=
      Prefix.contains_iff.mpr ⟨rfl, hx⟩
    exact (inSome_partialRanges ha).mpr (hall _ ha)

/-- The merged ranges cover the destination exactly if every address of it is in a prefix. -/
theorem prefixUnionCoversDest_iff :
    prefixUnionCoversDest partials dest = true ↔
      ∀ a, dest.contains a = true → InPartials partials a := by
  have hvalid : ∀ r ∈ partialRanges partials dest, r.first ≤ r.last := partialRanges_valid
  have hdest : dest.range.first ≤ dest.range.last := Prefix.first_le_last
  obtain ⟨hmerged, hunion⟩ := NatRange.merged_merge hvalid
  have hvalid' : ∀ r ∈ NatRange.merge (partialRanges partials dest), r.first ≤ r.last :=
    fun r hr => hmerged.valid r (List.mem_reverse.mpr hr)
  have hcovers := NatRange.covers_merge hvalid' hdest
  rw [← forall_inSome_partialRanges]
  unfold prefixUnionCoversDest addrRangeCovers
  simp only [Bool.and_eq_true, Bool.not_eq_true', List.isEmpty_eq_false_iff]
  constructor
  · rintro ⟨-, -, hall⟩ x hx
    exact (hunion x).mp (hcovers.mp hall x hx)
  · intro hall
    have hfirst := hall dest.first ⟨le_refl _, Prefix.first_le_last⟩
    obtain ⟨r', hr', -⟩ := (hunion dest.first).mpr hfirst
    obtain ⟨r, hr, -⟩ := hfirst
    refine ⟨List.ne_nil_of_mem hr, List.ne_nil_of_mem hr', ?_⟩
    exact hcovers.mpr fun x hx => (hunion x).mpr (hall x hx)

theorem partialSubnetsCoverDestination_iff :
    partialSubnetsCoverDestination parsers partials dest = true ↔
      ∀ a, dest.contains a = true → InPartials partials a := by
  unfold partialSubnetsCoverDestination
  rw [Bool.and_eq_true, Bool.or_eq_true, prefixUnionCoversDest_iff]
  constructor
  · rintro ⟨-, hcovers | hall⟩
    · exact fun a ha => inPartials_of_allowCoversPrefix hcovers ha
    · exact hall
  · intro hall
    obtain ⟨q, hq, -⟩ := hall dest.addr Prefix.contains_addr
    refine ⟨?_, .inr hall⟩
    simp [List.ne_nil_of_mem hq]

variable {rule : SecurityRule}

/-- Where no entry of an Allow covers the destination, the addresses its entries name are added. -/
theorem inPartials_appendPartialAllowDestinations (ha : dest.contains a = true)
    (hcovers : allowCoversPrefix parsers rule.destinationAddressPrefixes dest = false) :
    InPartials (appendPartialAllowDestinations parsers partials rule dest) a ↔
      InPartials partials a ∨
        rule.destinationAddressPrefixes.any (entryMatches parsers · a) = true := by
  have hentries := List.any_eq_false.mp hcovers
  unfold InPartials appendPartialAllowDestinations
  simp only [List.mem_append, List.mem_filterMap, or_and_right, exists_or]
  refine or_congr_right ?_
  rw [List.any_eq_true]
  constructor
  · rintro ⟨q, ⟨p, hp, hq⟩, hqa⟩
    refine ⟨p, hp, ?_⟩
    split at hq
    · cases hq
    · split at hq
      · next q' hq' =>
        split at hq
        · cases hq
          simp only [entryMatches, hq', hqa, Bool.or_true]
        · cases hq
      · cases hq
  · rintro ⟨p, hp, hmatch⟩
    have hnone := hentries p hp
    simp only [Bool.or_eq_true, not_or, Bool.not_eq_true] at hnone
    obtain ⟨⟨hany, hvnet⟩, -⟩ := hnone
    simp only [entryMatches, hany, hvnet, Bool.false_or] at hmatch
    split at hmatch
    · next q hq =>
      refine ⟨q, ⟨p, hp, ?_⟩, hmatch⟩
      have hinternet : isInternetTag (trimSpace p) = false := by
        rw [Bool.eq_false_iff]
        exact fun h => parsePrefixOrAddr_internet h q hq
      simp only [hany, hvnet, hinternet, hq, Prefix.overlaps_of_common hmatch ha, Bool.or_self,
        Bool.false_eq_true, if_true, if_false]
    · cases hmatch

/-! ### The loop over the rules -/

variable {path : RequiredPath}

theorem widenedMatches_of_skip
    (h : (!protocolMatchesTCP rule.protocol || !ruleMatchesPath parsers rule path) = true) :
    widenedMatches parsers path rule a = false := by
  unfold widenedMatches
  rw [← Bool.not_and, Bool.not_eq_true'] at h
  rw [h, Bool.false_and]

theorem widenedMatches_of_match
    (h : ¬(!protocolMatchesTCP rule.protocol || !ruleMatchesPath parsers rule path) = true) :
    widenedMatches parsers path rule a =
      (!isAllow rule || rule.destinationAddressPrefixes.any (entryMatches parsers · a)) := by
  unfold widenedMatches
  rw [← Bool.not_and, Bool.not_eq_true', Bool.not_eq_false] at h
  rw [h, Bool.true_and]

theorem coverage_eq_none {violation : ViolationDetails} :
    (if partialSubnetsCoverDestination parsers partials dest then none else some violation) = none ↔
      ∀ a, dest.contains a = true → InPartials partials a := by
  have hiff : partialSubnetsCoverDestination parsers partials dest = true ↔
      ∀ a, dest.contains a = true → InPartials partials a := partialSubnetsCoverDestination_iff
  rw [← hiff]
  split
  · next hcovers => exact iff_of_true rfl hcovers
  · next hcovers => exact iff_of_false (Option.some_ne_none _) hcovers

variable {direction : Direction}

/-- What is left of the loop reports nothing exactly if the first widened rule to match allows every
address that no rule before allowed. -/
theorem evaluateRules_eq_none {ports : List Int} (sorted : List SecurityRule)
    (partials : List Prefix) :
    evaluateRules parsers path direction ports sorted partials = none ↔
      ∀ a, path.destination.contains a = true → InPartials partials a ∨
        DecisionList.FirstAccepts isAllow (fun rule => widenedMatches parsers path rule a = true)
          sorted := by
  induction sorted generalizing partials with
  | nil =>
    simp only [evaluateRules, DecisionList.FirstAccepts, or_false]
    exact coverage_eq_none
  | cons rule sorted ih =>
    unfold evaluateRules
    split
    · next hskip =>
      rw [ih]
      refine forall_congr' fun a => imp_congr_right fun _ => or_congr_right ?_
      refine (DecisionList.firstAccepts_cons_of_not_applies ?_).symm
      rw [widenedMatches_of_skip hskip]
      exact Bool.false_ne_true
    · next hmatch =>
      split
      · next hallow =>
        -- an Allow adds what it names to the addresses allowed before
        simp only [DecisionList.firstAccepts_cons_of_accepts hallow, widenedMatches_of_match hmatch,
          hallow, Bool.not_true, Bool.false_or]
        split
        · next hcovers =>
          refine iff_of_true rfl fun a ha => .inr (.inl ?_)
          exact entryMatches_of_allowCoversPrefix hcovers ha
        · next hcovers =>
          rw [Bool.not_eq_true] at hcovers
          rw [ih]
          refine forall_congr' fun a => imp_congr_right fun ha => ?_
          rw [inPartials_appendPartialAllowDestinations ha hcovers, or_assoc]
      · next hdeny =>
        -- a Deny decides for every address that is left
        rw [Bool.not_eq_true] at hdeny
        have hrejects : ∀ a, ¬DecisionList.FirstAccepts isAllow
            (fun rule => widenedMatches parsers path rule a = true) (rule :: sorted) := by
          intro a
          refine DecisionList.not_firstAccepts_cons ?_ hdeny
          rw [widenedMatches_of_match hmatch, hdeny, Bool.not_false, Bool.true_or]
        simp only [hrejects, or_false]
        exact coverage_eq_none

variable {rules : List SecurityRule}

theorem evaluateSingleRequiredNSGPath_eq_none {ports : List Int}
    (hdistinct : (rules.map (·.priority)).Nodup) :
    evaluateSingleRequiredNSGPath parsers (sortByPriority rules) path direction ports = none ↔
      ∀ a, path.destination.contains a = true → WidenedAllowed parsers path rules a := by
  unfold evaluateSingleRequiredNSGPath sortByPriority WidenedAllowed
  rw [evaluateRules_eq_none]
  refine forall_congr' fun a => imp_congr_right fun _ => ?_
  rw [DecisionList.accepts_iff_sorted hdistinct]
  simp [InPartials]

theorem evaluateRequiredNSGPathViolations_eq_nil {paths : List RequiredPath}
    (hdistinct : (rules.map (·.priority)).Nodup) :
    evaluateRequiredNSGPathViolations parsers rules paths direction = .ok [] ↔
      ∀ path ∈ paths, ∀ a, path.destination.contains a = true →
        WidenedAllowed parsers path rules a := by
  unfold evaluateRequiredNSGPathViolations
  rw [Except.ok.injEq, List.filterMap_eq_nil_iff]
  exact forall₂_congr fun path _ => evaluateSingleRequiredNSGPath_eq_none hdistinct

/-! ## Rules that apply to a path as a whole -/

def wholeOn (parsers : Parsers) (path : RequiredPath) (rule : SecurityRule) : Bool :=
  (rule.sourceAddressPrefixes.isEmpty ||
      allowCoversPrefix parsers rule.sourceAddressPrefixes path.worker) &&
    (rule.sourcePortRanges.isEmpty || rule.sourcePortRanges.any (isAnyPort <| trimSpace ·)) &&
    if isAllow rule then !rule.destinationAddressPrefixes.isEmpty
    else rule.destinationAddressPrefixes.isEmpty ||
      allowCoversPrefix parsers rule.destinationAddressPrefixes path.destination

theorem not_isInternetTag_of_isVirtualNetworkTag {p : String} (h : isVirtualNetworkTag p = true) :
    isInternetTag p = false := by
  simp only [isVirtualNetworkTag, isInternetTag, equalFold, decide_eq_true_eq] at h ⊢
  rw [h]
  decide

theorem entryOverlaps_of_contains {p : String} {q subnet : Prefix}
    (hq : parsePrefixOrAddr parsers p = .ok q) (hqa : q.contains a = true)
    (ha : subnet.contains a = true) : entryOverlaps parsers p subnet = true := by
  unfold entryOverlaps
  rw [hq]
  exact Prefix.overlaps_of_common hqa ha

theorem sourceMatchesSubnet_of_addressMatches {subnet : Prefix} (ha : subnet.contains a = true)
    (h : addressMatches parsers prefixes a = true) :
    sourceMatchesSubnet parsers prefixes subnet = true := by
  unfold sourceMatchesSubnet
  unfold addressMatches at h
  rw [Bool.or_eq_true] at h ⊢
  refine h.imp id fun hany => ?_
  obtain ⟨p, hp, hentry⟩ := List.any_eq_true.mp hany
  refine List.any_eq_true.mpr ⟨p, hp, ?_⟩
  unfold entryMatches at hentry
  rw [Bool.or_eq_true] at hentry ⊢
  refine hentry.imp id fun hprefix => ?_
  split at hprefix
  · next q hq => exact entryOverlaps_of_contains hq hprefix ha
  · cases hprefix

theorem destinationOverlapsSubnet_of_addressMatches {subnet : Prefix}
    (ha : subnet.contains a = true) (h : addressMatches parsers prefixes a = true) :
    destinationOverlapsSubnet parsers prefixes subnet = true := by
  unfold destinationOverlapsSubnet destinationMatchesSubnet
  split
  · rfl
  · next hempty =>
    unfold addressMatches at h
    rw [Bool.not_eq_true] at hempty
    rw [hempty, Bool.false_or] at h
    obtain ⟨p, hp, hentry⟩ := List.any_eq_true.mp h
    refine List.any_eq_true.mpr ⟨p, hp, ?_⟩
    dsimp only
    split
    · rfl
    · next hany =>
      rw [Bool.not_eq_true] at hany
      simp only [entryMatches, hany, Bool.false_or, Bool.or_eq_true] at hentry
      rcases hentry with hvnet | hprefix
      · rw [not_isInternetTag_of_isVirtualNetworkTag hvnet, hvnet]
        rfl
      · split at hprefix
        · next q hq =>
          have hinternet : isInternetTag (trimSpace p) = false := by
            rw [Bool.eq_false_iff]
            exact fun h => parsePrefixOrAddr_internet h q hq
          rw [hinternet, entryOverlaps_of_contains hq hprefix ha, Bool.or_true]
          rfl
        · cases hprefix

theorem addressMatches_of_covers {subnet : Prefix}
    (h : (prefixes.isEmpty || allowCoversPrefix parsers prefixes subnet) = true)
    (ha : subnet.contains a = true) : addressMatches parsers prefixes a = true := by
  unfold addressMatches
  rw [Bool.or_eq_true] at h ⊢
  exact h.imp id fun hcovers => entryMatches_of_allowCoversPrefix hcovers ha

theorem portMatches_of_any {ranges : List String} (port : Int)
    (h : (ranges.isEmpty || ranges.any (isAnyPort <| trimSpace ·)) = true) :
    portMatches parsers ranges port = true := by
  unfold portMatches
  rw [Bool.or_eq_true] at h ⊢
  refine h.imp id fun hany => ?_
  obtain ⟨r, hr, hstar⟩ := List.any_eq_true.mp hany
  refine List.any_eq_true.mpr ⟨r, hr, ?_⟩
  rw [hstar, Bool.true_or]

/-- A packet of the path that a rule matches is seen by the evaluation. -/
theorem ruleMatchesPath_of_packet {packet : Packet}
    (hports : portMatches parsers rule.destinationPortRanges path.port =
      portRangesMatch parsers rule.destinationPortRanges path.port) (hpacket : OnPath path packet)
    (h : ruleMatchesPacket parsers rule packet = true) :
    protocolMatchesTCP rule.protocol = true ∧ ruleMatchesPath parsers rule path = true := by
  obtain ⟨hsource, hdestination, hport⟩ := hpacket
  simp only [ruleMatchesPacket, Bool.and_eq_true, hport, hports] at h
  obtain ⟨⟨⟨⟨hprotocol, hfrom⟩, hto⟩, -⟩, hrange⟩ := h
  refine ⟨hprotocol, ?_⟩
  simp only [ruleMatchesPath, Bool.and_eq_true]
  exact ⟨⟨sourceMatchesSubnet_of_addressMatches hsource hfrom,
    destinationOverlapsSubnet_of_addressMatches hdestination hto⟩, hrange⟩

theorem ruleMatchesPacket_eq_widenedMatches {packet : Packet}
    (hports : portMatches parsers rule.destinationPortRanges path.port =
      portRangesMatch parsers rule.destinationPortRanges path.port)
    (hwhole : ruleMatchesPath parsers rule path = true → wholeOn parsers path rule = true)
    (hpacket : OnPath path packet) :
    ruleMatchesPacket parsers rule packet = widenedMatches parsers path rule packet.destination := by
  by_cases hmatch : protocolMatchesTCP rule.protocol = true ∧ ruleMatchesPath parsers rule path = true
  · obtain ⟨hprotocol, hpath⟩ := hmatch
    have hrange : portRangesMatch parsers rule.destinationPortRanges path.port = true := by
      simp only [ruleMatchesPath, Bool.and_eq_true] at hpath
      exact hpath.2
    have hrule := hwhole hpath
    simp only [wholeOn, Bool.and_eq_true] at hrule
    obtain ⟨⟨hsource, hsourcePorts⟩, hdestination⟩ := hrule
    simp only [ruleMatchesPacket, widenedMatches, hprotocol, hpath, hpacket.2.2, hports, hrange,
      addressMatches_of_covers hsource hpacket.1, portMatches_of_any _ hsourcePorts, Bool.true_and,
      Bool.and_true]
    split at hdestination
    · next hallow =>
      rw [Bool.not_eq_true'] at hdestination
      rw [hallow, addressMatches, hdestination]
      rfl
    · next hdeny =>
      rw [Bool.not_eq_true] at hdeny
      rw [addressMatches_of_covers hdestination hpacket.2.1, hdeny]
      rfl
  · have hnone : ruleMatchesPacket parsers rule packet = false := by
      rw [Bool.eq_false_iff]
      exact fun h => hmatch (ruleMatchesPath_of_packet hports hpacket h)
    have hskip : widenedMatches parsers path rule packet.destination = false := by
      rw [Bool.eq_false_iff]
      intro h
      simp only [widenedMatches, Bool.and_eq_true] at h
      exact hmatch h.1
    rw [hnone, hskip]

/-- Widening changes nothing if every rule that overlaps the path applies to it as a whole. -/
theorem widenedAllowed_iff_of_whole
    (hports : ∀ rule ∈ rules, portMatches parsers rule.destinationPortRanges path.port =
      portRangesMatch parsers rule.destinationPortRanges path.port)
    (hwhole : ∀ rule ∈ rules, ruleMatchesPath parsers rule path = true →
      wholeOn parsers path rule = true) :
    (∀ a, path.destination.contains a = true → WidenedAllowed parsers path rules a) ↔
      ∀ packet, OnPath path packet → PacketAllowed parsers rules packet := by
  have hagree : ∀ packet, OnPath path packet →
      (PacketAllowed parsers rules packet ↔
        WidenedAllowed parsers path rules packet.destination) := by
    intro packet hpacket
    have heq : ∀ rule ∈ rules, ruleMatchesPacket parsers rule packet =
        widenedMatches parsers path rule packet.destination := fun rule hrule =>
      ruleMatchesPacket_eq_widenedMatches (hports rule hrule) (hwhole rule hrule) hpacket
    exact DecisionList.accepts_congr fun rule hrule => by rw [heq rule hrule]
  constructor
  · intro hall packet hpacket
    exact (hagree packet hpacket).mpr (hall _ hpacket.2.1)
  · intro hall a ha
    have hpacket : OnPath path ⟨path.worker.addr, 0, a, path.port⟩ :=
      ⟨Prefix.contains_addr, ha, rfl⟩
    exact (hagree _ hpacket).mp (hall _ hpacket)

def workerSubnet : Prefix :=
  ⟨⟨.v4, 0x0a000000, by decide⟩, 24, by decide⟩

def controlPlaneSubnet : Prefix :=
  ⟨⟨.v4, 0x0a000500, by decide⟩, 24, by decide⟩

def apiPath : RequiredPath :=
  ⟨workerSubnet, controlPlaneSubnet, 443⟩

def allowOneWorker (parsers : Parsers) : SecurityRule where
  name := "AllowOneWorker"
  priority := 100
  access := .allow
  protocol := "Tcp"
  sourceAddressPrefixes := [parsers.string (.ofAddr ⟨.v4, 0x0a000004, by decide⟩)]
  destinationAddressPrefixes := ["*"]
  sourcePortRanges := ["*"]
  destinationPortRanges := ["*"]

def otherWorkerPacket : Packet :=
  ⟨⟨.v4, 0x0a000005, by decide⟩, 50000, ⟨.v4, 0x0a000504, by decide⟩, 443⟩

theorem ruleMatchesPath_allowOneWorker (parsers : Parsers) :
    ruleMatchesPath parsers (allowOneWorker parsers) apiPath = true := by
  have hoverlaps : (Prefix.ofAddr ⟨.v4, 0x0a000004, by decide⟩).overlaps workerSubnet = true := by
    decide +kernel
  have hdestination : isAnyAddressPrefix (trimSpace "*") = true := by decide +kernel
  have hport : isAnyPort (trimSpace "*") = true := by decide +kernel
  simp only [ruleMatchesPath, allowOneWorker, apiPath, sourceMatchesSubnet, entryOverlaps,
    destinationOverlapsSubnet, destinationMatchesSubnet, portRangesMatch, List.any_cons,
    parsePrefixOrAddr_string, hoverlaps, hdestination, hport, Bool.or_true, Bool.true_or,
    List.isEmpty_cons, Bool.false_eq_true, if_false, if_true, Bool.and_self]

/-- Allows for the two halves of the destination, and then a Deny for all of it. -/
def splitAllows (parsers : Parsers) : List SecurityRule :=
  [⟨"DenyAll", 120, .deny, "*", ["*"], ["*"], ["*"], ["*"]⟩,
    ⟨"AllowSecond", 110, .allow, "Tcp", ["VirtualNetwork"],
      [parsers.string ⟨⟨.v4, 0x0a000580, by decide⟩, 25, by decide⟩], ["*"], ["*"]⟩,
    ⟨"AllowFirst", 100, .allow, "Tcp", [],
      [parsers.string ⟨⟨.v4, 0x0a000500, by decide⟩, 25, by decide⟩], [], []⟩]

end Nsg
