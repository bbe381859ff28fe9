import AroHcp.Operations.Documents
import Mathlib.Algebra.Group.Int.Defs

/-! The transactions that write operations and resources together: those of the frontend, which
start an operation, and that of the backend, which moves one on. -/

namespace AroHcp.Operations

open DocStore

/-! ## Create and update -/

/-- The write of `createHCPCluster`, `createNodePool` and `createExternalAuth`. -/
def createTransaction (id : ResourceID) (name notificationURI : String) (now : Time) :
    List (Write Doc) :=
  let operation := newOperation .create id notificationURI now
  [.create (.operation name) operation,
    .create (.resource id) { activeOperationID := name, provisioningState := operation.status }]

/-- The write of `updateHCPClusterInCosmos`, `updateNodePoolInCosmos` and
`updateExternalAuthInCosmos`, which carries the ETag of the copy that was read. -/
def updateTransaction (id : ResourceID) (old : Versioned Resource) (name notificationURI : String)
    (now : Time) : List (Write Doc) :=
  let operation := newOperation .update id notificationURI now
  [.create (.operation name) operation,
    .replace (.resource id) old.etag
      { old.doc with activeOperationID := name, provisioningState := operation.status }]

/-! ## Delete -/

structure ListActiveOperationDocsOptions where
  request : Option OperationRequest := none
  externalID : Option ResourceID := none
  includeNestedResources : Bool := false

def ListActiveOperationDocsOptions.selects (options : ListActiveOperationDocsOptions)
    (operation : Operation) : Bool :=
  !operation.status.isTerminal &&
    options.request.all (operation.request = ·) &&
    options.externalID.all fun id =>
      operation.externalID.any fun externalID =>
        externalID = id || (options.includeNestedResources && externalID.isNestedIn id)

def listActiveOperations (s : Store Doc) (options : ListActiveOperationDocsOptions) :
    List (String × Versioned Operation) :=
  s.scan.filterMap fun
    | ⟨.operation name, operation⟩ =>
      if options.selects operation.doc then some (name, operation) else none
    | ⟨.resource _, _⟩ => none

theorem mem_listActiveOperations {s : Store Doc} {options : ListActiveOperationDocsOptions}
    {name : String} {operation : Versioned Operation} :
    (name, operation) ∈ listActiveOperations s options ↔
      s.current (.operation name) = some operation ∧ options.selects operation.doc = true := by
  unfold listActiveOperations
  rw [List.mem_filterMap]
  constructor
  · rintro ⟨⟨key, doc⟩, hscan, h⟩
    cases key with
    | resource id => cases h
    | operation name' =>
      rw [Option.ite_none_right_eq_some, Option.some.injEq, Prod.mk.injEq] at h
      obtain ⟨hselects, rfl, rfl⟩ := h
      exact ⟨Store.mem_scan.mp hscan, hselects⟩
  · rintro ⟨hcurrent, hselects⟩
    refine ⟨⟨.operation name, operation⟩, Store.mem_scan.mpr hcurrent, ?_⟩
    dsimp only
    rw [if_pos hselects]

def cancelActiveOperations (active : List (String × Versioned Operation)) (now : Time) :
    List (Write Doc) :=
  active.map fun (name, operation) =>
    .replace (.operation name) operation.etag (cancelOperation operation.doc now)

structure DeleteTarget where
  id : ResourceID
  resource : Versioned Resource
  active : List (String × Versioned Operation)
  name : String
  notificationURI : String
  now : Time

def DeleteTarget.operation (target : DeleteTarget) : Operation :=
  newOperation .delete target.id target.notificationURI target.now

def addDeleteToTransaction (finish : Time → Resource → Resource) (target : DeleteTarget) :
    List (Write Doc) :=
  let resource := target.resource.doc
  cancelActiveOperations target.active target.now ++
    [.create (.operation target.name) target.operation,
      .replace (.resource target.id) target.resource.etag
        (finish target.now { resource with
          deletionTimestamp := resource.deletionTimestamp.or (some target.now)
          activeOperationID := target.name
          provisioningState := target.operation.status })]

def defaultDeleteOperationCompletionDeadlineDuration : Int := 12 * 3600 * 10 ^ 9

def computeDeleteOperationCompletionDeadline (cluster : Resource) (now : Time) : Time :=
  now + cluster.deleteOperationCompletionTimeout.getD
    defaultDeleteOperationCompletionDeadlineDuration

def addDeleteClusterToTransaction : DeleteTarget → List (Write Doc) :=
  addDeleteToTransaction fun now cluster =>
    { cluster with
      deleteOperationCompletionDeadline :=
        some (computeDeleteOperationCompletionDeadline cluster now) }

def addDeleteNodePoolToTransaction : DeleteTarget → List (Write Doc) :=
  addDeleteToTransaction fun _ nodePool => nodePool

def addDeleteExternalAuthToTransaction : DeleteTarget → List (Write Doc) :=
  addDeleteToTransaction fun _ externalAuth => externalAuth

def DeleteTarget.transaction (target : DeleteTarget) : List (Write Doc) :=
  match target.id with
  | .cluster _ _ => addDeleteClusterToTransaction target
  | .nodePool _ _ _ => addDeleteNodePoolToTransaction target
  | .externalAuth _ _ _ => addDeleteExternalAuthToTransaction target

def deleteOptions (id : ResourceID) : ListActiveOperationDocsOptions where
  externalID := some id
  includeNestedResources :=
    match id with
    | .cluster _ _ => false
    | .nodePool _ _ _ | .externalAuth _ _ _ => true

/-- Nothing is nested below a node pool or an external auth. -/
theorem deleteOptions_selects {id : ResourceID} {operation : Operation} :
    (deleteOptions id).selects operation = true ↔
      operation.status.isTerminal = false ∧ operation.externalID = some id := by
  unfold ListActiveOperationDocsOptions.selects
  have hnested : ∀ externalID : ResourceID,
      ((deleteOptions id).includeNestedResources && externalID.isNestedIn id) = false := by
    intro externalID
    cases id <;> cases externalID <;> simp [deleteOptions, ResourceID.isNestedIn, ResourceID.parent]
  cases operation.externalID with
  | none => simp [deleteOptions]
  | some externalID =>
    have hexternal : (deleteOptions id).externalID = some id := rfl
    have hrequest : (deleteOptions id).request = none := rfl
    simp [hexternal, hrequest, hnested]

/-! ## UpdateOperationStatus -/

/-- `oldOperation.Error != newOperationError` compares pointers: `same` tells whether two errors are
the same object. -/
def errorChanged (old new : Option CloudErrorBody) (same : Bool) : Bool :=
  match old, new with
  | none, none => false
  | some _, some _ => !same
  | _, _ => true

def needToPatchOperation (old : Operation) (newStatus : ProvisioningState)
    (newError : Option CloudErrorBody) (same : Bool) : Bool :=
  old.status ≠ newStatus || errorChanged old.error newError same ||
    (old.notificationURI ≠ "" && newStatus.isTerminal)

/-- The resource with the new state and the ETag it was read with, or nothing if it is not to be
updated: it is gone, another operation owns it, or it has the state already. -/
def getForUpdate (curr : Option (Versioned Resource)) (operationName : String)
    (newStatus : ProvisioningState) : Option (Versioned Resource) :=
  match curr with
  | none => none
  | some curr =>
    if curr.doc.activeOperationID ≠ operationName then none
    else if curr.doc.provisioningState = newStatus ∧ newStatus.isTerminal = false then none
    else some { curr with
      doc := { curr.doc with
        provisioningState := newStatus
        activeOperationID := if newStatus.isTerminal then "" else curr.doc.activeOperationID } }

def getClusterForUpdate := getForUpdate

def getNodePoolForUpdate := getForUpdate

def getExternalAuthForUpdate := getForUpdate

def updateOperationStatus (operationName : String) (existing : Versioned Operation)
    (newStatus : ProvisioningState) (newError : Option CloudErrorBody) (same : Bool) (now : Time)
    (get : ResourceID → Option (Versioned Resource)) : List (Write Doc) :=
  if needToPatchOperation existing.doc newStatus newError same then
    let updated := { existing.doc with
      lastTransitionTime := now
      status := newStatus
      error := newError.or existing.doc.error }
    let resource (id : ResourceID) : Option (Versioned Resource) :=
      match id with
      | .cluster _ _ => getClusterForUpdate (get id) operationName newStatus
      | .nodePool _ _ _ => getNodePoolForUpdate (get id) operationName newStatus
      | .externalAuth _ _ _ => getExternalAuthForUpdate (get id) operationName newStatus
    .replace (.operation operationName) existing.etag updated ::
      match existing.doc.externalID with
      | none => []
      | some id => (resource id).toList.map fun r => .replace (.resource id) r.etag r.doc
  else []

end AroHcp.Operations
