import AroHcp.Lib.GoFmt
import AroHcp.Lib.SemVer

/-! The version skew rules between the control plane and the node pools. Errors are
`Option String`, with `none` for the nil error, and release numbers are unbounded: the `uint64`
arithmetic on the minors of real releases does not wrap. -/

namespace AroHcp.Version

open GoFmt SemVer

/-- The fields of a node pool document that the version rules read. -/
structure NodePool where
  name : String
  versionID : String
  channelGroup : String := ""
deriving DecidableEq, Repr

structure ServiceProviderNodePool (V : Type) where
  desiredVersion : Option V
  activeVersions : List (Option V)
deriving DecidableEq, Repr

structure ClusterAdmissionNodePool (V : Type) where
  nodePool : Option NodePool
  serviceProviderNodePool : Option (ServiceProviderNodePool V)
deriving DecidableEq, Repr

/-- The only line a line may be upgraded to across majors. -/
def allowMajorUpgradePaths : List (String × String) :=
  [("4.22", "5.0"), ("4.23", "5.1")]

def allowControlPlaneNodePoolMajorVersionSkew : List (String × List String) :=
  [("4.21", ["5.0"]), ("4.22", ["5.0", "5.1"]), ("4.23", ["5.1", "5.2"])]

variable {V : Type} [SemVer V]

/-- The version kept after one more is seen. -/
def keepOutermost (beyond : V → V → Bool) (kept : Option V) (version : V) : Option V :=
  if kept.all (beyond version) then some version else kept

def outermost (beyond : V → V → Bool) (versions : List V) : Option V :=
  versions.foldl (keepOutermost beyond) none

/-- The source's walk over active versions. An entry without a version is skipped; one that follows
an entry with a version would be a nil dereference in the source. -/
def findLowestAndHighestVersion (versions : List (Option V)) : Option V × Option V :=
  (outermost lt versions.reduceOption, outermost gt versions.reduceOption)

section Outermost

variable {beyond : V → V → Bool} {R : V → V → Prop} (htrans : ∀ a b c, R a b → R b c → R a c)
  (hbeyond : ∀ a b, beyond a b = true → R a b) (hwithin : ∀ a b, beyond a b = false → R b a)

omit [SemVer V]

include hbeyond hwithin in
theorem refl_of_beyond (a : V) : R a a := by
  cases h : beyond a a with
  | true => exact hbeyond a a h
  | false => exact hwithin a a h

include hbeyond hwithin in
theorem keepOutermost_spec (kept : Option V) (version : V) :
    ∃ next, keepOutermost beyond kept version = some next ∧ R next version ∧
      ∀ old, kept = some old → R next old := by
  have hrefl := refl_of_beyond hbeyond hwithin
  cases kept with
  | none => exact ⟨version, rfl, hrefl version, by simp⟩
  | some old =>
    cases h : beyond version old with
    | true =>
      refine ⟨version, by simp [keepOutermost, h], hrefl version, ?_⟩
      rintro _ ⟨⟩
      exact hbeyond version old h
    | false =>
      refine ⟨old, by simp [keepOutermost, h], hwithin version old h, ?_⟩
      rintro _ ⟨⟩
      exact hrefl old

include htrans hbeyond hwithin in
theorem exists_outermost {versions : List V} {v : V} (hv : v ∈ versions) :
    ∃ kept, outermost beyond versions = some kept ∧ R kept v := by
  suffices hwalk : ∀ start, (∀ old, start = some old →
      ∃ kept, versions.foldl (keepOutermost beyond) start = some kept ∧ R kept old) ∧
      ∀ v ∈ versions, ∃ kept, versions.foldl (keepOutermost beyond) start = some kept ∧ R kept v from
    (hwalk none).2 v hv
  clear hv
  induction versions with
  | nil =>
    intro start
    refine ⟨?_, by simp⟩
    rintro old rfl
    exact ⟨old, rfl, refl_of_beyond hbeyond hwithin old⟩
  | cons version rest ih =>
    intro start
    obtain ⟨next, hnext, hversion, hold⟩ := keepOutermost_spec hbeyond hwithin start version
    rw [List.foldl_cons, hnext]
    obtain ⟨kept, hkept, hle⟩ := (ih (some next)).1 next rfl
    refine ⟨fun old hstart => ⟨kept, hkept, htrans _ _ _ hle (hold old hstart)⟩, ?_⟩
    intro v hv
    rcases List.mem_cons.mp hv with rfl | hrest
    · exact ⟨kept, hkept, htrans _ _ _ hle hversion⟩
    · exact (ih (some next)).2 v hrest

theorem mem_of_outermost {versions : List V} {kept : V}
    (h : outermost beyond versions = some kept) : kept ∈ versions := by
  have hwalk : ∀ start, versions.foldl (keepOutermost beyond) start = some kept →
      start = some kept ∨ kept ∈ versions := by
    clear h
    induction versions with
    | nil => exact fun _ h => .inl h
    | cons version rest ih =>
      intro start hstart
      rcases ih _ hstart with hnext | hrest
      · unfold keepOutermost at hnext
        split_ifs at hnext
        · exact .inr (Option.some_inj.mp hnext ▸ List.mem_cons_self)
        · exact .inl hnext
      · exact .inr (List.mem_cons_of_mem _ hrest)
  exact (hwalk none h).resolve_left (by simp)

end Outermost

/-! ## Changing the cluster version -/

/-- The rules with the test of two minors as a parameter. -/
def clusterSkew (near : Nat → Nat → Prop) [DecidableRel near] (nodePoolName : String)
    (nodePoolVer clusterVersion : V) : Option String :=
  let nodePoolLine := minorString nodePoolVer
  let clusterLine := minorString clusterVersion
  -- the source parses both lines again and compares the parsed versions
  if major nodePoolVer = major clusterVersion ∧ minor nodePoolVer = minor clusterVersion then none
  else if major nodePoolVer = major clusterVersion then
    if near (minor nodePoolVer) (minor clusterVersion) then none
    else some (s!"cluster minor {clusterLine} must not be more than two minor versions ahead of " ++
      s!"node pool {quote nodePoolName} (minor {nodePoolLine})")
  else if clusterLine ∈
      (allowControlPlaneNodePoolMajorVersionSkew.lookup nodePoolLine).getD [] then none
  else some (s!"cluster minor {clusterLine} incompatible with node pool {quote nodePoolName} " ++
    s!"minor {nodePoolLine}")

/-- The comparison in unbounded numbers. -/
def clusterVersionSkewVersusNodePool : String → V → V → Option String :=
  clusterSkew fun nodePool cluster => (cluster : Int) - 2 ≤ nodePool

def requestedVersionSkew (nodePool : NodePool) (clusterVersion : V) : Option String :=
  if nodePool.versionID = "" then none
  else match parseTolerant (V := V) nodePool.versionID with
    | .error e => some (s!"cannot validate skew for node pool {quote nodePool.name}: " ++
        s!"invalid version {quote nodePool.versionID}: {e}")
    | .ok parsed => clusterVersionSkewVersusNodePool nodePool.name parsed clusterVersion

def activeVersionSkew (nodePool : NodePool) (serviceProviderNodePool : ServiceProviderNodePool V)
    (clusterVersion : V) : List String :=
  match findLowestAndHighestVersion serviceProviderNodePool.activeVersions with
  | (some lowest, some highest) =>
    (clusterVersionSkewVersusNodePool nodePool.name lowest clusterVersion).toList ++
      (clusterVersionSkewVersusNodePool nodePool.name highest clusterVersion).toList
  | _ => []

/-- The errors that are joined; the version is admitted if there are none. -/
def admitClusterNodePoolsMinorVersionSkew (clusterNodePools : List (ClusterAdmissionNodePool V))
    (clusterVersion : V) : List String :=
  clusterNodePools.flatMap fun entry => match entry.nodePool with
    | none => []
    | some nodePool =>
      (requestedVersionSkew nodePool clusterVersion).toList ++
        (entry.serviceProviderNodePool.map fun serviceProviderNodePool =>
          activeVersionSkew nodePool serviceProviderNodePool clusterVersion).getD []

/-! ## Changing a node pool version -/

def validateCrossMajorNodePoolSkew (nodePoolVersion controlPlaneVersion : V) : Option String :=
  match allowControlPlaneNodePoolMajorVersionSkew.lookup (minorString nodePoolVersion) with
  | none => some (s!"node pool version {text nodePoolVersion} is not allowed to coexist with a " ++
      "different-major control plane")
  | some allowedCPs =>
    if minorString controlPlaneVersion ∈ allowedCPs then none
    else some (s!"node pool version {text nodePoolVersion} cannot coexist with control plane " ++
      s!"version {text controlPlaneVersion}")

def validateMajorUpgrade (fromVersion toVersion : V) : Option String :=
  match allowMajorUpgradePaths.lookup (minorString fromVersion) with
  | none => some (s!"invalid upgrade path from {text fromVersion} to {text toVersion}: " ++
      "major version upgrades are not supported")
  | some allowedTarget =>
    if allowedTarget = minorString toVersion then none
    else some (s!"invalid upgrade path from {text fromVersion} to {text toVersion}: " ++
      s!"{minorString fromVersion} can only upgrade to {allowedTarget}")

section

variable (behind skips : Nat → Nat → Prop) [DecidableRel behind] [DecidableRel skips]

/-- The rules after both bounds of the control plane versions are known, with the tests of two
minors as parameters. -/
def nodePoolChangeAgainst (desiredVersion : V) (activeVersions : List (Option V))
    (lowestCPVersion highestCPVersion : V) (allowMajorUpgrade : Bool) : Option String :=
  let (lowest, highest) := findLowestAndHighestVersion activeVersions
  let isSameMajorNPChange := highest.all fun highest => major desiredVersion = major highest
  let isCrossMajorUpgrade := lowest.any fun lowest => major lowest < major desiredVersion
  let isCrossMajorDowngrade := highest.any fun highest => major desiredVersion < major highest
  if major lowestCPVersion < major desiredVersion ∨
      major desiredVersion = major lowestCPVersion ∧
        minor lowestCPVersion < minor desiredVersion then
    some (s!"invalid node pool version {text desiredVersion}: cannot exceed control plane " ++
      s!"version {text lowestCPVersion}")
  else if major desiredVersion = major highestCPVersion ∧
      behind (minor desiredVersion) (minor highestCPVersion) then
    some (s!"invalid node pool version {text desiredVersion}: must be within 2 minor versions " ++
      s!"of control plane version {text highestCPVersion}")
  else if major desiredVersion ≠ major highestCPVersion ∧ isSameMajorNPChange then
    if allowMajorUpgrade then validateCrossMajorNodePoolSkew desiredVersion highestCPVersion
    else some ("node pool version changes are not supported while the control plane is on a " ++
      s!"different major version (node pool major version {major desiredVersion} vs control " ++
      s!"plane major version {major highestCPVersion})")
  else if isCrossMajorUpgrade || isCrossMajorDowngrade then
    if !allowMajorUpgrade then some "major version changes are not supported"
    else match isCrossMajorUpgrade, lowest with
      | true, some lowest => validateMajorUpgrade lowest desiredVersion
      | _, _ => validateCrossMajorNodePoolSkew desiredVersion highestCPVersion
  else match lowest with
    | some lowest =>
      if skips (minor lowest) (minor desiredVersion) then
        some (s!"invalid upgrade path from {text lowest} to {text desiredVersion}: skipping " ++
          "more than 2 minor versions is not allowed")
      else none
    | none => none

def nodePoolChange (desiredVersion : V) (activeVersions : List (Option V))
    (lowestCPVersion highestCPVersion : Option V) (allowMajorUpgrade : Bool) : Option String :=
  if activeVersions.any fun active => active.any fun version => eq version desiredVersion then none
  else match lowestCPVersion, highestCPVersion with
    | none, _ => some ("cannot validate node pool version change because lowest control plane " ++
        "version is not known")
    | some _, none => some ("cannot validate node pool version change because highest control " ++
        "plane version is not known")
    | some lowest, some highest =>
      nodePoolChangeAgainst behind skips desiredVersion activeVersions lowest highest
        allowMajorUpgrade

end

/-- The comparisons in unbounded numbers. The difference is not negative, since the lowest control
plane version was not exceeded. -/
def validateNodePoolVersionChange : V → List (Option V) → Option V → Option V → Bool →
    Option String :=
  nodePoolChange (fun desired highest => 2 < highest - desired) fun lowest desired =>
    lowest + 2 < desired

end AroHcp.Version
