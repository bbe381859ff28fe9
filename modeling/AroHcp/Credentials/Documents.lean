import AroHcp.Lib.Conditions
import AroHcp.Lib.DocCall
import AroHcp.Operations.Transactions

/-! The documents of the admin credentials of one cluster: the operations that request and revoke
them, the cluster with the mark of a running revocation, the credential requests and the
revocations. -/

namespace AroHcp.Credentials

open DocStore Operations

inductive ConditionType where
  | credentialsMarkedForDeletion
  | certificatesRevoked
  | complete
deriving DecidableEq, Repr

abbrev Condition := Conditions.Condition ConditionType

export Conditions (isStatusConditionTrue setStatusCondition isStatusConditionTrue_set)

structure SystemAdminCredentialRequest where
  creationTimestamp : Time
  expirationTimestamp : Time
  operationID : String
  certificateSigningRequestPEM : String
  deletionTimestamp : Option Time := none
deriving DecidableEq, Repr

structure SystemAdminCredentialRevocation where
  operationID : String
  revokeOpSuffix : String
  conditions : List Condition := []
  deletionTimestamp : Option Time := none
  /-- the document is deleted, and hidden from reads, until the database purges it -/
  softDeleted : Bool := false
deriving DecidableEq, Repr

def SystemAdminCredentialRevocation.isMarked (revocation : SystemAdminCredentialRevocation) : Bool :=
  isStatusConditionTrue revocation.conditions .credentialsMarkedForDeletion

inductive DocKey where
  | operation (name : String)
  | cluster
  | request (name : String)
  | revocation (name : String)
deriving DecidableEq, Repr

@[reducible] def Doc : DocKey → Type
  | .operation _ => Operation
  | .cluster => Resource
  | .request _ => SystemAdminCredentialRequest
  | .revocation _ => SystemAdminCredentialRevocation

def activeOperations (docs : List (Sigma fun k => Versioned (Doc k)))
    (options : ListActiveOperationDocsOptions) : List (String × Versioned Operation) :=
  docs.filterMap fun
    | ⟨.operation name, operation⟩ =>
      if options.selects operation.doc then some (name, operation) else none
    | _ => none

def credentialRequests (docs : List (Sigma fun k => Versioned (Doc k))) :
    List (String × Versioned SystemAdminCredentialRequest) :=
  docs.filterMap fun
    | ⟨.request name, request⟩ => some (name, request)
    | _ => none

theorem mem_credentialRequests {docs : List (Sigma fun k => Versioned (Doc k))} {name : String}
    {request : Versioned SystemAdminCredentialRequest} :
    (name, request) ∈ credentialRequests docs ↔ ⟨.request name, request⟩ ∈ docs := by
  unfold credentialRequests
  rw [List.mem_filterMap]
  constructor
  · rintro ⟨⟨key, doc⟩, hmem, h⟩
    cases key with
    | request name' =>
      cases h
      exact hmem
    | operation _ | cluster | revocation _ => cases h
  · intro hmem
    exact ⟨_, hmem, rfl⟩

theorem mem_activeOperations {docs : List (Sigma fun k => Versioned (Doc k))}
    {options : ListActiveOperationDocsOptions} {name : String} {operation : Versioned Operation}
    (h : (name, operation) ∈ activeOperations docs options) :
    ⟨.operation name, operation⟩ ∈ docs ∧ options.selects operation.doc = true := by
  obtain ⟨⟨key, doc⟩, hmem, hdoc⟩ := List.mem_filterMap.mp h
  cases key with
  | operation name' =>
    dsimp only at hdoc
    rw [Option.ite_none_right_eq_some, Option.some.injEq, Prod.mk.injEq] at hdoc
    obtain ⟨hselects, rfl, rfl⟩ := hdoc
    exact ⟨hmem, hselects⟩
  | request _ | cluster | revocation _ => cases hdoc

end AroHcp.Credentials
