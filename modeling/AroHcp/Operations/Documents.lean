import AroHcp.Lib.DocStore
import AroHcp.Lib.GoFmt

/-! The documents behind an asynchronous request: the operation that tracks it and the cluster, node
pool or external auth it works on. They are the documents of one subscription, which is one
partition of the database, so that a transaction can write both. -/

namespace AroHcp.Operations

open DocStore GoFmt

/-- Nanoseconds since the zero instant of `time.Time`. -/
abbrev Time := Int

inductive ProvisioningState where
  | succeeded
  | failed
  | canceled
  | accepted
  | deleting
  | provisioning
  | updating
  | awaitingSecret
  /-- a text that is none of the constants; the zero value is `other ""` -/
  | other (value : String)
deriving DecidableEq, Repr

namespace ProvisioningState

def text : ProvisioningState → String
  | succeeded => "Succeeded"
  | failed => "Failed"
  | canceled => "Canceled"
  | accepted => "Accepted"
  | deleting => "Deleting"
  | provisioning => "Provisioning"
  | updating => "Updating"
  | awaitingSecret => "AwaitingSecret"
  | other value => value

def isTerminal : ProvisioningState → Bool
  | succeeded | failed | canceled => true
  | _ => false

end ProvisioningState

inductive OperationRequest where
  | create
  | update
  | delete
  | systemAdminCredentialRequest
  | systemAdminCredentialRevocation
deriving DecidableEq, Repr

namespace OperationRequest

def text : OperationRequest → String
  | create => "Create"
  | update => "Update"
  | delete => "Delete"
  | systemAdminCredentialRequest => "RequestCredential"
  | systemAdminCredentialRevocation => "RevokeCredentials"

def isLifecycle : OperationRequest → Bool
  | create | update | delete => true
  | _ => false

end OperationRequest

inductive ResourceID where
  | cluster (resourceGroupName name : String)
  | nodePool (resourceGroupName clusterName name : String)
  | externalAuth (resourceGroupName clusterName name : String)
deriving DecidableEq, Repr

namespace ResourceID

def parent : ResourceID → Option ResourceID
  | cluster _ _ => none
  | nodePool resourceGroupName clusterName _ => some (cluster resourceGroupName clusterName)
  | externalAuth resourceGroupName clusterName _ => some (cluster resourceGroupName clusterName)

def isNestedIn (id root : ResourceID) : Bool :=
  id.parent = some root

end ResourceID

structure CloudErrorBody where
  code : String
  message : String
deriving DecidableEq, Repr

structure OperationSystemAdminCredentialRequest where
  certificateSigningRequest : String
  systemAdminCredentialRequestResourceID : Option String := none
deriving DecidableEq, Repr

structure Operation where
  request : OperationRequest
  externalID : Option ResourceID
  notificationURI : String
  startTime : Time
  lastTransitionTime : Time
  status : ProvisioningState
  error : Option CloudErrorBody := none
  systemAdminCredentialRequest : Option OperationSystemAdminCredentialRequest := none
  /-- the name of the revocation document, once it is dispatched -/
  systemAdminCredentialRevocation : Option String := none
deriving DecidableEq, Repr

def newOperation (request : OperationRequest) (externalID : ResourceID) (notificationURI : String)
    (now : Time) : Operation where
  request := request
  externalID := some externalID
  notificationURI := notificationURI
  startTime := now
  lastTransitionTime := now
  status := if request = .delete then .deleting else .accepted

theorem newOperation_not_isTerminal (request : OperationRequest) (externalID : ResourceID)
    (notificationURI : String) (now : Time) :
    (newOperation request externalID notificationURI now).status.isTerminal = false := by
  unfold newOperation
  split_ifs <;> rfl

def cancelOperation (operation : Operation) (now : Time) : Operation :=
  { operation with
    lastTransitionTime := now
    status := .canceled
    error := some ⟨"Canceled", "This operation was superseded by another"⟩ }

/-- What the operations read and write of a cluster, a node pool or an external auth. The last four
fields are those of clusters. -/
structure Resource where
  activeOperationID : String
  provisioningState : ProvisioningState
  deletionTimestamp : Option Time := none
  deleteOperationCompletionTimeout : Option Int := none
  deleteOperationCompletionDeadline : Option Time := none
  clusterServiceID : Option String := none
  revokeCredentialsOperationID : String := ""
deriving DecidableEq, Repr

inductive DocKey where
  | operation (name : String)
  | resource (id : ResourceID)
deriving DecidableEq, Repr

@[reducible] def Doc : DocKey → Type
  | .operation _ => Operation
  | .resource _ => Resource

structure ConflictError where
  resourceID : ResourceID
  message : String
deriving DecidableEq, Repr

def stateConflict (operationRequest : OperationRequest) (provisioningState : ProvisioningState) :
    Option String :=
  let whileBusy (action : String) :=
    if !provisioningState.isTerminal then
      some s!"Cannot {action} while resource is {quote (toLower provisioningState.text)}"
    else none
  match operationRequest with
  | .create => none
  | .delete => if provisioningState = .deleting then some "Resource is already deleting" else none
  | .update => whileBusy "update resource"
  | .systemAdminCredentialRequest => whileBusy "request credential"
  | .systemAdminCredentialRevocation => whileBusy "revoke credentials"

def parentConflict (operationRequest : OperationRequest) (parent : ProvisioningState) :
    Option String :=
  if parent = .provisioning then
    some s!"Cannot {toLower operationRequest.text} resource while parent resource is provisioning"
  else if parent = .deleting then
    some s!"Cannot {toLower operationRequest.text} resource while parent resource is deleting"
  else none

def checkForProvisioningStateConflict (operationRequest : OperationRequest)
    (resourceID : ResourceID) (provisioningState cluster : ProvisioningState) :
    Option ConflictError :=
  ((stateConflict operationRequest provisioningState).or
    (if resourceID.parent.isSome then parentConflict operationRequest cluster else none)).map
      (⟨resourceID, ·⟩)

example : checkForProvisioningStateConflict .update (.cluster "rg" "c") .provisioning (.other "") =
    some ⟨.cluster "rg" "c", "Cannot update resource while resource is \"provisioning\""⟩ := by
  decide

theorem isTerminal_of_update {id : ResourceID} {state cluster : ProvisioningState}
    (h : checkForProvisioningStateConflict .update id state cluster = none) :
    state.isTerminal = true := by
  unfold checkForProvisioningStateConflict at h
  by_contra hstate
  simp [stateConflict, hstate] at h

end AroHcp.Operations
