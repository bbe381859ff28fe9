import AroHcp.Credentials.Documents

/-! The requests and controllers that work on the admin credentials of a cluster, one database call
after the other. Each ends with the text of the error it returns, if any. -/

namespace AroHcp.Credentials

open DocStore Operations

/-! ## Frontend -/

/-- The check of a request against the copy of the cluster; `busy` is the text for a revocation in
progress. The ID of the cluster is left out of the text. -/
def clusterConflict (id : ResourceID) (request : OperationRequest) (busy : String)
    (cluster : Resource) : Option String :=
  ((checkForProvisioningStateConflict request id cluster.provisioningState (.other "")).map
      ConflictError.message).or
    (if cluster.clusterServiceID = none then some "cluster has no ClusterServiceID"
    else if cluster.revokeCredentialsOperationID ≠ "" then some busy
    else none)

def requestAdminCredential (id : ResourceID)
    (name certificateSigningRequest notificationURI : String) (now : Time) :
    Db Doc (Option String) := do
  if certificateSigningRequest = "" then
    return some "certificateSigningRequest: Required value"
  else
    match ← Db.get DocKey.cluster with
    | none => return some "not found"
    | some cluster =>
      match clusterConflict id .systemAdminCredentialRequest
          "Cannot request credential while credentials are being revoked" cluster.doc with
      | some conflict => return some conflict
      | none =>
        let accepted ← Db.create (DocKey.operation name)
          { newOperation .systemAdminCredentialRequest id notificationURI now with
            systemAdminCredentialRequest := some ⟨certificateSigningRequest, none⟩ }
        return if accepted then none else some "transaction failed"

def revokeOptions (id : ResourceID) : ListActiveOperationDocsOptions where
  request := some .systemAdminCredentialRequest
  externalID := some id

def revokeTransaction (id : ResourceID) (cluster : Versioned Resource)
    (active : List (String × Versioned Operation)) (name notificationURI : String) (now : Time) :
    List (Write Doc) :=
  active.map (fun (name, operation) =>
      .replace (.operation name) operation.etag (cancelOperation operation.doc now)) ++
    [.create (.operation name)
        (newOperation .systemAdminCredentialRevocation id notificationURI now),
      .replace .cluster cluster.etag { cluster.doc with revokeCredentialsOperationID := name }]

def revokeCredentials (id : ResourceID) (name notificationURI : String) (now : Time) :
    Db Doc (Option String) := do
  match ← Db.get DocKey.cluster with
  | none => return some "not found"
  | some cluster =>
    match clusterConflict id .systemAdminCredentialRevocation
        "Credentials are already being revoked" cluster.doc with
    | some conflict => return some conflict
    | none =>
      let docs ← Db.scan
      let accepted ← Db.commit (revokeTransaction id cluster
        (activeOperations docs (revokeOptions id)) name notificationURI now)
      return if accepted then none else some "transaction failed"

/-! ## Dispatch -/

def dispatchRequestShouldProcess (operation : Operation) : Bool :=
  !operation.status.isTerminal && operation.request = .systemAdminCredentialRequest &&
    operation.systemAdminCredentialRequest.any
      (·.systemAdminCredentialRequestResourceID.isNone)

def stampCredential (operation : Operation) (credential : String) : Operation :=
  { operation with
    systemAdminCredentialRequest := some
      { operation.systemAdminCredentialRequest.getD ⟨"", none⟩ with
        systemAdminCredentialRequestResourceID := some credential } }

def day : Int := 24 * 3600 * 10 ^ 9

def dispatchRequestCredential (name credential : String) (now : Time) :
    Db Doc (Option String) := do
  match ← Db.get (DocKey.operation name) with
  | none => return none
  | some operation =>
    if dispatchRequestShouldProcess operation.doc = false then return none
    else
      match ← Db.cached DocKey.cluster with
      | none => return some "not found"
      | some cluster =>
        if cluster.doc.revokeCredentialsOperationID ≠ "" then
          let _ ← Db.replace (DocKey.operation name) operation.etag (cancelOperation operation.doc now)
          return none
        else
          let docs ← Db.scan
          match (credentialRequests docs).find? (·.2.doc.operationID = name) with
          | some (existing, _) =>
            let _ ← Db.replace (DocKey.operation name) operation.etag
              (stampCredential operation.doc existing)
            return none
          | none =>
            match operation.doc.systemAdminCredentialRequest with
            | none => return some s!"operation {name} has no CertificateSigningRequest"
            | some request =>
              if request.certificateSigningRequest = "" then
                return some s!"operation {name} has no CertificateSigningRequest"
              else
                let created ← Db.create (DocKey.request credential)
                  { creationTimestamp := now
                    expirationTimestamp := now + day
                    operationID := name
                    certificateSigningRequestPEM := request.certificateSigningRequest }
                if created = false then
                  return some "failed to create SystemAdminCredentialRequest"
                else
                  let _ ← Db.replace (DocKey.operation name) operation.etag
                    (stampCredential operation.doc credential)
                  return none

def dispatchRevokeShouldProcess (operation : Operation) : Bool :=
  !operation.status.isTerminal && operation.request = .systemAdminCredentialRevocation &&
    operation.status = .accepted

/-- The first 16 hexadecimal digits of the operation's name. -/
def revokeOpSuffix (name : String) : String :=
  String.ofList ((name.toList.filter (· ≠ '-')).take 16)

/-- A read of a revocation, which does not see a deleted one. -/
def getRevocation (name : String) :
    Db Doc (Option (Versioned SystemAdminCredentialRevocation)) := do
  let revocation ← Db.get (DocKey.revocation name)
  return revocation.filter (!·.doc.softDeleted)

def dispatchedRevocation (operation : Operation) (name : String) (now : Time) : Operation :=
  { operation with
    systemAdminCredentialRevocation := some (revokeOpSuffix name)
    status := .deleting
    lastTransitionTime := now }

def dispatchRevokeCredentials (name : String) (now : Time) : Db Doc (Option String) := do
  match ← Db.get (DocKey.operation name) with
  | none => return none
  | some operation =>
    if dispatchRevokeShouldProcess operation.doc = false then return none
    else
      match ← Db.cached DocKey.cluster with
      | none => return some "not found"
      | some cluster =>
        if cluster.doc.revokeCredentialsOperationID ≠ name then return none
        else
          match ← getRevocation (revokeOpSuffix name) with
          | some _ =>
            let _ ← Db.replace (DocKey.operation name) operation.etag
              (dispatchedRevocation operation.doc name now)
            return none
          | none =>
            -- a conflict is no error: the document is there, or was until it was deleted
            let _ ← Db.create (DocKey.revocation (revokeOpSuffix name))
              { operationID := name, revokeOpSuffix := revokeOpSuffix name }
            let _ ← Db.replace (DocKey.operation name) operation.etag
              (dispatchedRevocation operation.doc name now)
            return none

/-! ## Revocation -/

/-- Marks the credential requests in their order, until a write is refused. -/
def markRequests (now : Time) :
    List (String × Versioned SystemAdminCredentialRequest) → Db Doc (Option String)
  | [] => return none
  | (name, request) :: rest => do
    if request.doc.deletionTimestamp.isSome then markRequests now rest
    else
      let accepted ← Db.replace (DocKey.request name) request.etag
        { request.doc with deletionTimestamp := some now }
      if accepted = false then return some s!"failed to mark credential {name} for deletion"
      else markRequests now rest

def revocationMarkRequests (revocationName : String) (now : Time) : Db Doc (Option String) := do
  match ← getRevocation revocationName with
  | none => return none
  | some revocation =>
    if revocation.doc.deletionTimestamp.isSome || revocation.doc.isMarked then return none
    else
      let docs ← Db.scan
      match ← markRequests now (credentialRequests docs) with
      | some failure => return some failure
      | none =>
        let _ ← Db.replace (DocKey.revocation revocationName) revocation.etag
          { revocation.doc with
            conditions := setStatusCondition
              ⟨.credentialsMarkedForDeletion, true, "CredentialsMarked",
                "All credential requests have been marked for deletion"⟩
              revocation.doc.conditions }
        return none

def withCertificatesRevoked (revocation : SystemAdminCredentialRevocation) :
    SystemAdminCredentialRevocation :=
  { revocation with
    conditions := setStatusCondition
      ⟨.certificatesRevoked, true, "CertificatesRevoked",
        "Hosted cluster confirmed previously-issued certificates are revoked"⟩
      revocation.conditions }

def completeRevocation (revocationName : String) (now : Time)
    (revocation : Versioned SystemAdminCredentialRevocation) : Db Doc (Option String) := do
  if isStatusConditionTrue revocation.doc.conditions .certificatesRevoked && revocation.doc.isMarked
  then
    let _ ← Db.replace (DocKey.revocation revocationName) revocation.etag
      { revocation.doc with
        conditions := setStatusCondition
          ⟨.complete, true, "Complete", "Revocation is complete and ready for teardown"⟩
          revocation.doc.conditions
        deletionTimestamp := some now }
    return none
  else return none

/-- `revocationCompletion.SyncOnce`; `mirrored` tells whether the certificate revocation request has
been mirrored back, and then whether it confirms the revocation. -/
def revocationCompletion (revocationName : String) (mirrored : Option Bool) (now : Time) :
    Db Doc (Option String) := do
  match ← getRevocation revocationName with
  | none => return none
  | some revocation =>
    if revocation.doc.deletionTimestamp.isSome then return none
    else if isStatusConditionTrue revocation.doc.conditions .certificatesRevoked then
      completeRevocation revocationName now revocation
    else if mirrored ≠ some true then return none
    else
      let accepted ← Db.replace (DocKey.revocation revocationName) revocation.etag
        (withCertificatesRevoked revocation.doc)
      if accepted = false then return none
      else
        -- the copy in memory keeps the old ETag
        completeRevocation revocationName now
          { revocation with doc := withCertificatesRevoked revocation.doc }

/-- `revocationDeletion.SyncOnce`; `tornDown` tells whether the desires of the revocation are gone.
-/
def revocationDeletion (revocationName : String) (tornDown : Bool) : Db Doc (Option String) := do
  match ← getRevocation revocationName with
  | none => return none
  | some revocation =>
    if revocation.doc.deletionTimestamp.isNone || !tornDown then return none
    else
      match ← Db.get (DocKey.revocation revocationName) with
      | none => return none
      | some item =>
        if item.doc.softDeleted then return none
        else
          let accepted ← Db.replace (DocKey.revocation revocationName) item.etag
            { item.doc with softDeleted := true }
          return if accepted then none
            else some "failed to delete SystemAdminCredentialRevocation"

/-! ## Polling -/

def pollShouldProcess (operation : Operation) : Bool :=
  !operation.status.isTerminal && operation.request = .systemAdminCredentialRevocation &&
    operation.status = .deleting

def statusTransaction (name : String) (existing : Versioned Operation)
    (cluster : Option (Versioned Resource)) (newStatus : ProvisioningState) (now : Time) :
    List (Write Doc) :=
  .replace (.operation name) existing.etag
      { existing.doc with lastTransitionTime := now, status := newStatus } ::
    if existing.doc.externalID.isNone then []
    else (getClusterForUpdate cluster name newStatus).toList.map fun r =>
      .replace .cluster r.etag r.doc

/-- What is written back to the cluster with a status keeps the mark of the revocation. -/
theorem getClusterForUpdate_eq_some {cluster : Option (Versioned Resource)} {name : String}
    {newStatus : ProvisioningState} {r : Versioned Resource}
    (h : getClusterForUpdate cluster name newStatus = some r) :
    ∃ c, cluster = some c ∧ r.etag = c.etag ∧
      r.doc.revokeCredentialsOperationID = c.doc.revokeCredentialsOperationID := by
  unfold getClusterForUpdate getForUpdate at h
  cases cluster with
  | none => cases h
  | some c =>
    dsimp only at h
    split_ifs at h
    all_goals
      cases h
      exact ⟨c, rfl, rfl, rfl⟩

def notifyOperationOwner (name notificationURI : String) (newStatus : ProvisioningState)
    (notified : Bool) : Db Doc (Option String) := do
  if notified && newStatus.isTerminal && notificationURI ≠ "" then
    match ← Db.get (DocKey.operation name) with
    | none => return none
    | some operation =>
      let _ ← Db.replace (DocKey.operation name) operation.etag
        { operation.doc with notificationURI := "" }
      return none
  else return none

def updateOperationStatus (name : String) (existing : Versioned Operation)
    (newStatus : ProvisioningState) (notified : Bool) (now : Time) : Db Doc (Option String) := do
  if needToPatchOperation existing.doc newStatus none false = false then return none
  else
    let cluster ← Db.get DocKey.cluster
    let accepted ← Db.commit (statusTransaction name existing cluster newStatus now)
    if accepted = false then return some "transaction failed"
    else notifyOperationOwner name existing.doc.notificationURI newStatus notified

def operationRevokeCredentialsPoll (name : String) (notified : Bool) (now : Time) :
    Db Doc (Option String) := do
  match ← Db.get (DocKey.operation name) with
  | none => return none
  | some operation =>
    if pollShouldProcess operation.doc = false then return none
    else
      match operation.doc.systemAdminCredentialRevocation with
      | none => return none
      | some revocationName =>
        match ← getRevocation revocationName with
        | some _ => return none
        | none =>
          let cachedCluster ← Db.cached DocKey.cluster
          if (cachedCluster.any (·.doc.revokeCredentialsOperationID = name)) = true then
            match ← Db.get DocKey.cluster with
            | none => return some "not found"
            | some cluster =>
              let accepted ← Db.replace DocKey.cluster cluster.etag
                { cluster.doc with revokeCredentialsOperationID := "" }
              if accepted = false then return none
              else updateOperationStatus name operation .succeeded notified now
          else updateOperationStatus name operation .succeeded notified now

/-! ## All of them -/

/-- What can be started for the cluster. -/
inductive Task where
  | requestAdminCredential (name certificateSigningRequest notificationURI : String) (now : Time)
  | revokeCredentials (name notificationURI : String) (now : Time)
  | dispatchRequestCredential (name credential : String) (now : Time)
  | dispatchRevokeCredentials (name : String) (now : Time)
  | revocationMarkRequests (revocationName : String) (now : Time)
  | revocationCompletion (revocationName : String) (mirrored : Option Bool) (now : Time)
  | revocationDeletion (revocationName : String) (tornDown : Bool)
  | operationRevokeCredentialsPoll (name : String) (notified : Bool) (now : Time)

def Task.program (id : ResourceID) : Task → Db Doc (Option String)
  | .requestAdminCredential name certificateSigningRequest notificationURI now =>
    Credentials.requestAdminCredential id name certificateSigningRequest notificationURI now
  | .revokeCredentials name notificationURI now =>
    Credentials.revokeCredentials id name notificationURI now
  | .dispatchRequestCredential name credential now =>
    Credentials.dispatchRequestCredential name credential now
  | .dispatchRevokeCredentials name now => Credentials.dispatchRevokeCredentials name now
  | .revocationMarkRequests revocationName now =>
    Credentials.revocationMarkRequests revocationName now
  | .revocationCompletion revocationName mirrored now =>
    Credentials.revocationCompletion revocationName mirrored now
  | .revocationDeletion revocationName tornDown =>
    Credentials.revocationDeletion revocationName tornDown
  | .operationRevokeCredentialsPoll name notified now =>
    Credentials.operationRevokeCredentialsPoll name notified now

inductive Purge : Store Doc → Store Doc → Prop
  | intro (s : Store Doc) (name : String) (v : Versioned SystemAdminCredentialRevocation)
      (hcurrent : s.current (.revocation name) = some v) (hdeleted : v.doc.softDeleted = true) :
      Purge s (s.remove (.revocation name))

end AroHcp.Credentials
