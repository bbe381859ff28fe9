import AroHcp.Lib.DocCall
import AroHcp.Lib.GoFmt
import AroHcp.Operations.Documents

/-! The allocation of DNS base domains: a cluster gets a candidate, claims it in the fleet database,
and publishes it once it has seen its own claim. Claims of clusters that are gone are marked, kept
for a week and released. -/

namespace AroHcp.Dns

open DocStore GoFmt Operations Program

/-! ## Documents -/

structure Cluster where
  clusterUID : String
  baseDomain : String := ""
  baseDomainPrefix : String := ""
  deletionTimestamp : Option Time := none
  clusterServiceID : Option String := none
  pendingClusterServiceID : Option String := none
  managedResourceGroup : String := ""
deriving DecidableEq, Repr

/-- Management clusters are known by the stamp that they are the only one of. -/
structure ServiceProviderCluster where
  desiredDNSBaseDomain : String := ""
  managementCluster : Option String := none
deriving DecidableEq, Repr

structure ClaimID where
  zone : String
  slug : String
deriving DecidableEq, Repr

structure DNSClaim where
  resourceID : ClaimID
  baseDomain : String
  clusterUUID : String
  clusterResourceID : Option String
  createdAt : Time
  deletionTimestamp : Option Time := none
deriving DecidableEq, Repr

/-- Clusters are known by their resource ID, which a later incarnation may have again. -/
inductive Key where
  | cluster (id : String)
  | serviceProviderCluster (id : String)
  | claim (id : ClaimID)
deriving DecidableEq, Repr

@[reducible] def Doc : Key → Type
  | .cluster _ => Cluster
  | .serviceProviderCluster _ => ServiceProviderCluster
  | .claim _ => DNSClaim

/-! ## Calls -/

inductive Call where
  | cachedCluster (id : String)
  | cachedServiceProviderCluster (id : String)
  | cachedClaim (id : ClaimID)
  | getCluster (id : String)
  /-- the tenant of the subscription of a cluster -/
  | tenantID (id : String)
  /-- whether Cluster Service has a cluster for the Azure resource -/
  | findClusterByAzureInfo (id tenantID managedResourceGroup : String)
  /-- the name of the public DNS zone of a management cluster -/
  | publicDNSZone (managementCluster : String)
  | generateDNSSlug
  | now
  | replaceServiceProviderCluster (id : String) (etag : Nat) (doc : ServiceProviderCluster)
  | replaceCluster (id : String) (etag : Nat) (doc : Cluster)
  | createClaim (id : ClaimID) (doc : DNSClaim)
  | replaceClaim (id : ClaimID) (etag : Nat) (doc : DNSClaim)
  | deleteClaimWithETag (id : ClaimID) (etag : Nat)

inductive WriteError where
  | conflict
  | preconditionFailed
  | notFound
  | other (text : String)
deriving DecidableEq, Repr

@[reducible] def Call.Reply : Call → Type
  | cachedCluster _ | getCluster _ => Read Cluster
  | cachedServiceProviderCluster _ => Read ServiceProviderCluster
  | cachedClaim _ => Read DNSClaim
  | tenantID _ | publicDNSZone _ => Except String (Option String)
  | findClusterByAzureInfo _ _ _ => Except String Bool
  | generateDNSSlug => String
  | now => Time
  | replaceServiceProviderCluster _ _ _ | replaceCluster _ _ _ | createClaim _ _
  | replaceClaim _ _ _ | deleteClaimWithETag _ _ => Option WriteError

abbrev Prog := Program Call Call.Reply

/-! ## Names -/

section

variable (parseResourceID : String → Except String ClaimID)

def dnsClaimResourceID (baseDomain : String) : Except String ClaimID :=
  let lower := toLower baseDomain
  let slug := String.ofList (lower.toList.takeWhile (· ≠ '.'))
  let zone := String.ofList ((lower.toList.dropWhile (· ≠ '.')).drop 1)
  if '.' ∉ lower.toList ∨ slug = "" ∨ zone = "" then
    .error s!"invalid DNS base domain {quote baseDomain}"
  else
    parseResourceID
      ("/providers/Microsoft.RedHatOpenShift/dnsZones/" ++ zone ++ "/dnsClaims/" ++ slug)

def getCachedClaim (baseDomain : String) : Prog (Read DNSClaim) :=
  match dnsClaimResourceID parseResourceID baseDomain with
  | .error err => return .error err
  | .ok id => perform (Call.cachedClaim id)

/-- `metav1.Time` is stored with its seconds only. -/
def truncateToSecond (t : Time) : Time := t - t % 1000000000

/-! ## Allocation -/

inductive AllocateError where
  | own (text : String)
  | write (err : WriteError)
deriving DecidableEq, Repr

def written (reply : Option WriteError) : Option AllocateError :=
  reply.map .write

def allocateStep (id : String) (cluster : Versioned Cluster) (spc : Versioned ServiceProviderCluster)
    (parentZone desiredDomain : String) (claim : Option DNSClaim) : Prog (Option AllocateError) := do
  let committedDomain := cluster.doc.baseDomain
  let owner := cluster.doc.clusterUID
  let unavailable := claim.any fun c => c.clusterUUID ≠ owner || c.deletionTimestamp.isSome
  let claimOwner := (claim.map (·.clusterUUID)).getD ""
  if unavailable && committedDomain ≠ "" then
    return some (.own s!"committed DNS base domain {quote desiredDomain} has an unavailable claim owned by {quote claimOwner}")
  else if desiredDomain = "" || unavailable then
    let slug ← perform Call.generateDNSSlug
    let candidate := slug ++ "." ++ toLower parentZone
    return written (← perform (Call.replaceServiceProviderCluster id spc.etag
      { spc.doc with desiredDNSBaseDomain := candidate }))
  else
    match claim with
    | none =>
      match dnsClaimResourceID parseResourceID desiredDomain with
      | .error err => return some (.own err)
      | .ok claimID =>
        let now ← perform Call.now
        return written (← perform (Call.createClaim claimID
          { resourceID := claimID
            baseDomain := desiredDomain
            clusterUUID := owner
            clusterResourceID := some id
            createdAt := truncateToSecond now }))
    | some _ =>
      if committedDomain = "" || cluster.doc.baseDomainPrefix = "" then
        let baseDomainPrefix :=
          if cluster.doc.baseDomainPrefix = "" then "cluster" else cluster.doc.baseDomainPrefix
        return written (← perform (Call.replaceCluster id cluster.etag
          { cluster.doc with baseDomain := desiredDomain, baseDomainPrefix := baseDomainPrefix }))
      else return none

def allocate (id : String) (cluster : Versioned Cluster) (spc : Versioned ServiceProviderCluster)
    (parentZone : String) : Prog (Option AllocateError) := do
  let committedDomain := cluster.doc.baseDomain
  if committedDomain ≠ "" && spc.doc.desiredDNSBaseDomain ≠ "" &&
      committedDomain ≠ spc.doc.desiredDNSBaseDomain then
    return some (.own "committed DNS base domain differs from allocation intent")
  else if parentZone = "" then
    return some (.own "DNS allocation requires the selected shard's parent zone")
  else
    let desiredDomain :=
      if spc.doc.desiredDNSBaseDomain = "" then committedDomain else spc.doc.desiredDNSBaseDomain
    if desiredDomain = "" then
      allocateStep parseResourceID id cluster spc parentZone desiredDomain none
    else
      match ← getCachedClaim parseResourceID desiredDomain with
      | .error err => return some (.own err)
      | .ok claim =>
        allocateStep parseResourceID id cluster spc parentZone desiredDomain (claim.map (·.doc))

def allocationNeedsWork (cluster : Cluster) : Bool :=
  cluster.deletionTimestamp.isNone && cluster.clusterServiceID.isNone &&
    cluster.pendingClusterServiceID.isSome && cluster.baseDomain = ""

/-- What `SyncOnce` makes of the result of `allocate`: a lost race is no error. -/
def AllocateError.text? : AllocateError → Option String
  | own text => some text
  | write .conflict | write .preconditionFailed => none
  | write .notFound => some "not found"
  | write (.other text) => some text

def allocationSyncOnce (id : String) : Prog (Option String) := do
  match ← perform (Call.cachedCluster id) with
  | .error err => return some err
  | .ok none => return none
  | .ok (some cluster) =>
    if !allocationNeedsWork cluster.doc then return none
    else
      match ← perform (Call.cachedServiceProviderCluster id) with
      | .error err => return some err
      | .ok none => return some "not found"
      | .ok (some spc) =>
        match spc.doc.managementCluster with
        | none => return none
        | some managementCluster =>
          match ← perform (Call.tenantID id) with
          | .error err => return some err
          | .ok none => return some "subscription has no tenant ID"
          | .ok (some tenantID) =>
            match ← perform (Call.findClusterByAzureInfo id tenantID
                cluster.doc.managedResourceGroup) with
            | .error err => return some err
            | .ok true => return none
            | .ok false =>
              match ← perform (Call.publicDNSZone managementCluster) with
              | .error err => return some err
              | .ok none => return some "selected management cluster has no public DNS zone"
              | .ok (some zone) =>
                return (← allocate parseResourceID id cluster spc zone).bind AllocateError.text?

/-! ## Cleanup -/

def deletedClaimRetention : Time := 7 * 24 * 3600 * 1000000000

def cleanupNeedsWork (claim : DNSClaim) : Prog Bool := do
  match claim.deletionTimestamp with
  | none => return true
  | some marked =>
    let now ← perform Call.now
    return !(now < marked + deletedClaimRetention)

/-- Whether the cluster is the incarnation that owns the claim. -/
def isOwner (claim : DNSClaim) (cluster : Option (Versioned Cluster)) : Bool :=
  cluster.any fun c => c.doc.clusterUID = claim.clusterUUID

def markOrRelease (claim : Versioned DNSClaim) : Prog (Option WriteError) := do
  if claim.doc.deletionTimestamp.isNone then
    let now ← perform Call.now
    perform (Call.replaceClaim claim.doc.resourceID claim.etag
      { claim.doc with deletionTimestamp := some (truncateToSecond now) })
  else perform (Call.deleteClaimWithETag claim.doc.resourceID claim.etag)

def cleanupSyncOnce (baseDomain : String) : Prog (Option String) := do
  match ← getCachedClaim parseResourceID baseDomain with
  | .error err => return some err
  | .ok none => return none
  | .ok (some claim) =>
    if !(← cleanupNeedsWork claim.doc) then return none
    else
      match claim.doc.clusterResourceID with
      | none => return some "DNS claim has no owning cluster resource ID"
      | some ownerID =>
        match ← perform (Call.cachedCluster ownerID) with
        | .error err => return some err
        | .ok cached =>
          if isOwner claim.doc cached then return none
          else
            match ← perform (Call.getCluster ownerID) with
            | .error err => return some err
            | .ok cluster =>
              if isOwner claim.doc cluster then return none
              else
                match ← markOrRelease claim with
                | none | some .preconditionFailed | some .notFound => return none
                | some .conflict => return some "conflict"
                | some (.other text) => return some text

end

end AroHcp.Dns
