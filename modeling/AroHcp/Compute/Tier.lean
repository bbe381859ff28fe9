import AroHcp.Compute.Pool
import AroHcp.Lib.ExceptLoop
import AroHcp.Lib.GoFmt

/-! Tier configuration of `fleet/pkg/compute/tiers.go` and its validation. The budget strategy of a
profile and the built-in profiles are left out: the allocation reads neither. -/

namespace AroHcp.Compute

open GoFmt ExceptLoop

/-- How a tier maps to AKS agent pools. -/
inductive PoolMode where
  | perZone
  | regional
  | other (text : String)
deriving DecidableEq, Repr

def roleLabel : String := "aro-hcp.azure.com/role"

structure PoolClass where
  role : PoolRole
  agentPoolMode : AgentPoolMode
  enableSwift : Bool
  /-- attach the maximum secondary NIC count of the SKU -/
  attachSecondaryNICs : Bool
  labels : Finmap fun _ : String => String
  taints : List String
deriving DecidableEq

structure TierConfig where
  name : String
  poolClass : PoolClass
  poolMode : PoolMode
  cores : Int
  minOSDiskSizeGB : Int
  maxNodes : Int
  initialMinNodes : Int
  familyPriority : List VMFamily
  maxPods : Int
  required : Bool
  poolCount : Int
deriving DecidableEq

structure Profile where
  tiers : List TierConfig

def minCoresPerTier : Int := 4

def tierNameRegex : String := "^[a-z][a-z0-9]\x7b0,4\x7d$"

def isLowerAlpha (c : Char) : Bool := 'a' ≤ c && c ≤ 'z'

def matchesTierName (name : String) : Bool :=
  match name.toList with
  | [] => false
  | c :: rest =>
    isLowerAlpha c && rest.length ≤ 4 && rest.all fun c => isLowerAlpha c || '0' ≤ c && c ≤ '9'

/-- The first family that an earlier entry of the list repeats. -/
def repeatedFamily (seen : List VMFamily) : List VMFamily → Option VMFamily
  | [] => none
  | family :: rest =>
    if family ∈ seen then some family else repeatedFamily (family :: seen) rest

def ensure (ok : Bool) (message : String) : Except String Unit :=
  if ok then .ok () else .error message

theorem ensure_eq_ok {ok : Bool} {message : String} :
    ensure ok message = .ok () ↔ ok = true := by
  cases ok <;> simp [ensure]

def validateAgentPoolMode (i : Nat) (mode : AgentPoolMode) : Except String Unit :=
  ensure (mode = .user || mode = .system) s!"tier {i}: unknown agent pool mode {quote mode.text}"

def validatePoolMode (i : Nat) (tier : TierConfig) : Except String Unit :=
  match tier.poolMode with
  | .perZone => ensure (1 ≤ tier.poolCount)
      s!"tier {i}: PoolModePerZone requires PoolCount >= 1, got {tier.poolCount}"
  | .regional => ensure (tier.poolCount = 1)
      s!"tier {i}: PoolModeRegional requires PoolCount == 1, got {tier.poolCount}"
  | .other text => .error s!"tier {i}: unknown pool mode {quote text}"

def validateFamilyPriority (i : Nat) (tier : TierConfig) : Except String Unit :=
  match repeatedFamily [] tier.familyPriority with
  | none => .ok ()
  | some family =>
    .error s!"tier {i}: family {quote family} appears more than once in FamilyPriority"

/-- One iteration of the loop of `ValidateProfile`. -/
def validateTier (i : Nat) (seenNames : List String) (tier : TierConfig) : Except String Unit := do
  ensure (matchesTierName tier.name) (s!"tier {i}: name {quote tier.name} must match " ++
    tierNameRegex ++ " (1-5 chars, leading lowercase letter)")
  ensure (tier.name ∉ seenNames)
    s!"tier {i}: name {quote tier.name} is not unique within the profile"
  ensure (tier.poolClass.role ≠ "") s!"tier {i}: role must not be empty"
  validateAgentPoolMode i tier.poolClass.agentPoolMode
  ensure (!tier.poolClass.attachSecondaryNICs || tier.poolClass.enableSwift)
    s!"tier {i}: attaching secondary NICs requires Swift"
  ensure (minCoresPerTier ≤ tier.cores) (s!"tier {i}: cores {tier.cores} below minimum " ++
    s!"{minCoresPerTier} (smaller VMs lack multi-NIC support for Swift)")
  ensure (tier.initialMinNodes ≤ tier.maxNodes)
    s!"tier {i}: initialMinNodes {tier.initialMinNodes} exceeds maxNodes {tier.maxNodes}"
  ensure (roleLabel ∉ tier.poolClass.labels) (s!"tier {i}: label {quote roleLabel} must not be " ++
    "set in Class.Labels; it is derived from Class.Role")
  validatePoolMode i tier
  validateFamilyPriority i tier

def validateTiers (i : Nat) (seenNames : List String) : List TierConfig → Except String Unit
  | [] => .ok ()
  | tier :: rest => do
    validateTier i seenNames tier
    validateTiers (i + 1) (tier.name :: seenNames) rest

def validateProfile (profile : Profile) : Except String Unit :=
  validateTiers 0 [] profile.tiers

theorem repeatedFamily_eq_none {seen families : List VMFamily} :
    repeatedFamily seen families = none ↔ families.Nodup ∧ ∀ f ∈ families, f ∉ seen := by
  induction families generalizing seen with
  | nil => simp [repeatedFamily]
  | cons family rest ih =>
    rw [repeatedFamily]
    split_ifs with h
    · simp [h]
    · rw [ih]
      simp only [List.nodup_cons, List.mem_cons, forall_eq_or_imp, not_or]
      constructor
      · rintro ⟨hn, hseen⟩
        exact ⟨⟨fun hf => (hseen family hf).1 rfl, hn⟩, h, fun f hf => (hseen f hf).2⟩
      · rintro ⟨⟨hfamily, hn⟩, -, hseen⟩
        refine ⟨hn, fun f hf => ⟨?_, hseen f hf⟩⟩
        rintro rfl
        exact hfamily hf

/-- What the validation of a profile guarantees for each of its tiers. -/
structure TierConfig.Valid (tier : TierConfig) : Prop where
  name : matchesTierName tier.name = true
  role : tier.poolClass.role ≠ ""
  agentPoolMode : tier.poolClass.agentPoolMode = .user ∨ tier.poolClass.agentPoolMode = .system
  swift : tier.poolClass.attachSecondaryNICs = true → tier.poolClass.enableSwift = true
  cores : minCoresPerTier ≤ tier.cores
  initialMinNodes : tier.initialMinNodes ≤ tier.maxNodes
  labels : roleLabel ∉ tier.poolClass.labels
  poolMode : tier.poolMode = .perZone ∧ 1 ≤ tier.poolCount ∨
    tier.poolMode = .regional ∧ tier.poolCount = 1
  families : tier.familyPriority.Nodup

theorem validatePoolMode_eq_ok {i : Nat} {tier : TierConfig} :
    validatePoolMode i tier = .ok () ↔ tier.poolMode = .perZone ∧ 1 ≤ tier.poolCount ∨
      tier.poolMode = .regional ∧ tier.poolCount = 1 := by
  unfold validatePoolMode
  cases tier.poolMode <;> simp [ensure_eq_ok]

theorem validateFamilyPriority_eq_ok {i : Nat} {tier : TierConfig} :
    validateFamilyPriority i tier = .ok () ↔ tier.familyPriority.Nodup := by
  have h : repeatedFamily [] tier.familyPriority = none ↔
      tier.familyPriority.Nodup ∧ ∀ f ∈ tier.familyPriority, f ∉ [] := repeatedFamily_eq_none
  unfold validateFamilyPriority
  cases hr : repeatedFamily [] tier.familyPriority <;> simp_all

theorem validateTier_eq_ok {i : Nat} {seenNames : List String} {tier : TierConfig} :
    validateTier i seenNames tier = .ok () ↔ tier.Valid ∧ tier.name ∉ seenNames := by
  simp only [validateTier, seq_eq_ok, ensure_eq_ok, validateAgentPoolMode, validatePoolMode_eq_ok,
    validateFamilyPriority_eq_ok, decide_eq_true_eq, Bool.or_eq_true, Bool.not_eq_true']
  constructor
  · rintro ⟨hname, hseen, hrole, hmode, hswift, hcores, hmin, hlabels, hpool, hfamilies⟩
    refine ⟨⟨hname, hrole, hmode, fun h => ?_, hcores, hmin, hlabels, hpool, hfamilies⟩, hseen⟩
    exact hswift.resolve_left (by simp [h])
  · rintro ⟨h, hseen⟩
    refine ⟨h.name, hseen, h.role, h.agentPoolMode, ?_, h.cores, h.initialMinNodes, h.labels,
      h.poolMode, h.families⟩
    by_cases hattach : tier.poolClass.attachSecondaryNICs = true
    · exact .inr (h.swift hattach)
    · exact .inl (by simpa using hattach)

theorem validateTiers_eq_ok {i : Nat} {seenNames : List String} {tiers : List TierConfig} :
    validateTiers i seenNames tiers = .ok () ↔ (∀ tier ∈ tiers, tier.Valid) ∧
      (tiers.map TierConfig.name).Nodup ∧ ∀ tier ∈ tiers, tier.name ∉ seenNames := by
  induction tiers generalizing i seenNames with
  | nil => simp [validateTiers]
  | cons tier rest ih =>
    simp only [validateTiers, seq_eq_ok, validateTier_eq_ok, ih, forall_eq_or_imp,
      List.map_cons, List.nodup_cons, List.mem_map, List.mem_cons, not_or]
    constructor
    · rintro ⟨⟨hvalid, hseen⟩, hrest, hnames, hfresh⟩
      refine ⟨⟨hvalid, hrest⟩, ⟨?_, hnames⟩, hseen, fun t ht => (hfresh t ht).2⟩
      rintro ⟨t, ht, hname⟩
      exact (hfresh t ht).1 hname
    · rintro ⟨⟨hvalid, hrest⟩, ⟨hname, hnames⟩, hseen, hfresh⟩
      exact ⟨⟨hvalid, hseen⟩, hrest, hnames,
        fun t ht => ⟨fun heq => hname ⟨t, ht, heq⟩, hfresh t ht⟩⟩

theorem validateProfile_eq_ok {profile : Profile} :
    validateProfile profile = .ok () ↔
      (∀ tier ∈ profile.tiers, tier.Valid) ∧ (profile.tiers.map TierConfig.name).Nodup := by
  rw [validateProfile, validateTiers_eq_ok]
  simp

end AroHcp.Compute
