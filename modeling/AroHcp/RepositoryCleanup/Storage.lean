import AroHcp.Lib.GoFmt
import AroHcp.Lib.Unstructured

/-! Where a Kopia repository keeps its blobs: the target of a sweep, its validation, and how a
repository and its backup storage location determine it. -/

namespace AroHcp.RepositoryCleanup

open GoFmt GoStrings Unstructured

/-- One repository, never an entire container or account. -/
structure Target where
  accountURL : String
  container : String
  blobPrefix : String
deriving DecidableEq, Repr

/-- `^[a-z0-9]{3,24}$` -/
def isAccountName (s : String) : Bool :=
  3 ≤ s.toList.length && s.toList.length ≤ 24 && s.toList.all isLowerAlnum

def isAccountEndpoint (url : String) : Bool :=
  (cutStart url "https://").any fun rest =>
    let host := trimSuffix rest "/"
    endsWith host ".blob.core.windows.net" && isAccountName (trimSuffix host ".blob.core.windows.net")

/-- `^[a-z0-9][a-z0-9-]{1,61}[a-z0-9]$` without two hyphens in a row. -/
def isContainerName (s : String) : Bool :=
  3 ≤ s.toList.length && s.toList.length ≤ 63 && isLabel s.toList && !contains s "--"

/-- `^[a-zA-Z0-9._-]+$`, other than `.` and `..` -/
def isPathSegment (s : String) : Bool :=
  s ≠ "" && s.toList.all (fun c => isLowerAlnum c.toLower || c = '.' || c = '_' || c = '-') &&
    s ≠ "." && s ≠ ".."

/-- The first group of
`^(ocm-[a-z][a-z0-9]{0,9}-[a-z0-9]{32})(?:-([a-z0-9](?:[-a-z0-9]*[a-z0-9])?))?$`. The groups hold no
hyphen, so that the parts between the hyphens decide. -/
def volumeBase (volume : String) : Option String :=
  match volume.toList.splitOn '-' with
  | ocm :: env :: id :: rest =>
    if ocm = "ocm".toList && env.head?.any (fun c => 'a' ≤ c && c ≤ 'z') && env.length ≤ 10 &&
        env.all isLowerAlnum && id.length = 32 && id.all isLowerAlnum &&
        (rest.isEmpty || isLabel (['-'].intercalate rest)) then
      some (String.ofList (['-'].intercalate [ocm, env, id]))
    else none
  | _ => none

def hostedClusterNamespace (volume : String) : String :=
  if isDNS1123Label volume then (volumeBase volume).getD "" else ""

def validate (target : Target) : Except String Unit :=
  if isAccountEndpoint target.accountURL = false then
    .error "accountURL must be a public Azure HTTPS blob account endpoint without credentials, query, port, or path"
  else if isContainerName target.container = false then
    .error "container must be a 3-63 character Azure container DNS name"
  else if endsWith target.blobPrefix "/" = false ∨ 1024 < target.blobPrefix.utf8ByteSize then
    .error "repository prefix must end in / and fit an Azure blob name"
  else
    let parts := split (trimSuffix target.blobPrefix "/") '/'
    if parts.length < 3 ∨ parts.getD (parts.length - 2) "" ≠ "kopia" then
      .error "repository prefix must be <base>/kopia/<ARO volume namespace>/"
    else if parts.all isPathSegment = false then
      .error "repository prefix contains an unsafe or non-normalized path segment"
    else
      let volume := parts.getLastD ""
      if volumeBase volume = none ∨ isDNS1123Label volume = false then
        .error "repository prefix does not end in an ARO volume namespace DNS label"
      else .ok ()

def requireString (v : Json) (path : List String) : Except String String :=
  let value := stringOrEmpty v path
  if value = "" then .error (".".intercalate path ++ " must be a nonempty string") else .ok value

def configValue (config : List (String × String)) (key : String) : String :=
  (config.lookup key).getD ""

/-- The loop of `Resolve` over the configuration, in the order of the keys. -/
def checkConfig : List (String × String) → Except String Unit
  | [] => .ok ()
  | (key, value) :: rest =>
    if key ∈ ["storageAccount", "storageAccountURI", "resourceGroup", "subscriptionId", "useAAD"] then
      checkConfig rest
    else if key = "activeDirectoryAuthorityURI" then
      if trimSuffix value "/" ≠ "https://login.microsoftonline.com" then
        .error "unsupported Azure authority endpoint"
      else checkConfig rest
    else .error s!"unsupported Azure storage configuration key {quote key}"

def accountURLOf (storageAccount : String) : String :=
  "https://" ++ storageAccount ++ ".blob.core.windows.net"

/-- `Resolve` uses only the current Azure and Kopia shape of a location. The path that is joined has
been checked segment by segment, so that cleaning it changes nothing. -/
def resolveTarget (repo bsl : Json) : Except String Target := do
  let repositoryType ← requireString repo ["spec", "repositoryType"]
  let volumeNamespace ← requireString repo ["spec", "volumeNamespace"]
  let location ← requireString repo ["spec", "backupStorageLocation"]
  let provider ← requireString bsl ["spec", "provider"]
  let bucket ← requireString bsl ["spec", "objectStorage", "bucket"]
  let basePath ← requireString bsl ["spec", "objectStorage", "prefix"]
  if repositoryType ≠ "kopia" ∨ provider ≠ "azure" then
    throw "only Azure kopia repositories are supported"
  if location ≠ getName bsl ∨ getNamespace repo ≠ getNamespace bsl then
    throw "backup storage location does not match the repository reference"
  let config := ((nestedStringMap bsl ["spec", "config"]).toOption).getD []
  if isAccountName (configValue config "storageAccount") = false then
    throw "spec.config.storageAccount must be a public Azure storage account name"
  checkConfig config
  let accountURL := accountURLOf (configValue config "storageAccount")
  if (config.lookup "storageAccountURI").any (fun uri => trimSuffix uri "/" ≠ accountURL) then
    throw "storageAccountURI must match the public Azure storageAccount endpoint"
  let base := trim basePath '/'
  if (split base '/').all isPathSegment = false then
    throw "objectStorage.prefix must contain safe nonempty path segments"
  if volumeBase volumeNamespace = none ∨ isDNS1123Label volumeNamespace = false then
    throw "volumeNamespace must be an ARO volume namespace DNS label"
  let target : Target :=
    ⟨accountURL, bucket, base ++ "/kopia/" ++ volumeNamespace ++ "/"⟩
  validate target
  return target

/-- The two targets have a possible blob name in common, as the planner decides it. -/
def overlaps (a b : Target) : Bool :=
  trimSuffix a.accountURL "/" = trimSuffix b.accountURL "/" && a.container = b.container &&
    (startsWith a.blobPrefix b.blobPrefix || startsWith b.blobPrefix a.blobPrefix)

/-- Some blob name of one container lies in both. -/
def Target.Shares (a b : Target) : Prop :=
  trimSuffix a.accountURL "/" = trimSuffix b.accountURL "/" ∧ a.container = b.container ∧
    ∃ name : List Char, a.blobPrefix.toList <+: name ∧ b.blobPrefix.toList <+: name

theorem overlaps_iff_shares (a b : Target) : overlaps a b = true ↔ a.Shares b := by
  unfold overlaps Target.Shares
  rw [Bool.and_eq_true, Bool.and_eq_true, decide_eq_true_eq, decide_eq_true_eq, Bool.or_eq_true,
    startsWith_iff, startsWith_iff, and_assoc]
  refine and_congr_right fun _ => and_congr_right fun _ => ?_
  constructor
  · rintro (h | h)
    · exact ⟨_, List.prefix_rfl, h⟩
    · exact ⟨_, h, List.prefix_rfl⟩
  · rintro ⟨name, ha, hb⟩
    exact (List.prefix_or_prefix_of_prefix ha hb).symm

end AroHcp.RepositoryCleanup
