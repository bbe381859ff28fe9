import AroHcp.Lib.DocCall
import AroHcp.Lib.Workers
import AroHcp.Operations.Transactions

/-! The controller of a cluster's delete operation. Once the cluster document is gone it removes
what is left under the cluster's resource ID and completes the operation. The frontend may meanwhile
accept a new cluster under the same ID, as soon as no document is stored there. -/

namespace AroHcp.Operations.DeleteOperation

open DocStore Program GoFmt

/-! ## Documents -/

structure ChildID where
  resourceType : String
  name : String
deriving DecidableEq, Repr

/-- The documents stored under the resource ID of the cluster. -/
inductive ItemKey where
  | cluster
  | child (id : ChildID)
deriving DecidableEq, Repr

structure ClusterContent where
  resource : Resource
  clusterServiceDeletionTimestamp : Option Time := none
deriving DecidableEq, Repr

/-- What the controller reads of a document besides its metadata: nothing of a child. -/
@[reducible] def Content : ItemKey → Type
  | .cluster => ClusterContent
  | .child _ => Unit

structure Item (δ : Type) where
  /-- the accepted create request the document goes back to, by its number; the cluster of the
  delete operation and what belongs to it have number 0 -/
  createdBy : Nat
  /-- the time of the soft delete -/
  deletionTimestamp : Option Time := none
  content : δ

inductive Key where
  | operation
  | item (k : ItemKey)
deriving DecidableEq, Repr

@[reducible] def Doc : Key → Type
  | .operation => Operation
  | .item k => Item (Content k)

/-! ## Calls -/

structure ListedChild where
  cosmosID : String
  resourceType : String
  resourceID : Option ChildID
deriving DecidableEq, Repr

inductive ClusterServiceStatus where
  | failed (message : String)
  | notFound
  | ready
  | converted (status : ProvisioningState) (error : Option CloudErrorBody)

/-- An error, and whether the ETag of a write was out of date. -/
structure Failure where
  message : String
  preconditionFailed : Bool := false
deriving DecidableEq, Repr

inductive Call where
  | now
  | getOperation
  | getCluster
  /-- a read of the stored document, soft deleted or not -/
  | readItem (k : ItemKey)
  | replaceItem (k : ItemKey) (etag : Nat) (item : Item (Content k))
  /-- the query for the children and the error that ends its iteration -/
  | listChildren
  | replaceOperation (etag : Nat) (operation : Operation)
  | execute (writes : List (Write Doc))
  | clusterServiceStatus
  | buildDeletionTimeoutMessage
  | postAsyncNotification
  /-- a step of the frontend, of another controller or of the database -/
  | others

@[reducible] def Call.Reply : Call → Type
  | now => Time
  | getOperation => Read Operation
  | getCluster => Read (Item ClusterContent)
  | readItem k => Read (Item (Content k))
  | listChildren => Except String (List ListedChild × Option String)
  | replaceItem _ _ _ | replaceOperation _ _ | execute _ | postAsyncNotification => Except Failure Unit
  | clusterServiceStatus => ClusterServiceStatus
  | buildDeletionTimeoutMessage => String
  | others => Unit

abbrev Prog := Program Call Call.Reply

def now : Prog Time := perform Call.now

def getOperation : Prog (Read Operation) := perform Call.getOperation

def getCluster : Prog (Read (Item ClusterContent)) := perform Call.getCluster

def readItem (k : ItemKey) : Prog (Read (Item (Content k))) := perform (Call.readItem k)

def replaceItem (k : ItemKey) (etag : Nat) (item : Item (Content k)) : Prog (Except Failure Unit) :=
  perform (Call.replaceItem k etag item)

def listChildren : Prog (Except String (List ListedChild × Option String)) :=
  perform Call.listChildren

def replaceOperation (etag : Nat) (operation : Operation) : Prog (Except Failure Unit) :=
  perform (Call.replaceOperation etag operation)

def execute (writes : List (Write Doc)) : Prog (Except Failure Unit) :=
  perform (Call.execute writes)

def clusterServiceStatus : Prog ClusterServiceStatus := perform Call.clusterServiceStatus

def buildDeletionTimeoutMessage : Prog String := perform Call.buildDeletionTimeoutMessage

def postAsyncNotification : Prog (Except Failure Unit) := perform Call.postAsyncNotification

def others : Prog Unit := perform Call.others

/-! ## The controller -/

def shouldProcess (operation : Operation) : Bool :=
  !operation.status.isTerminal && operation.request = .delete &&
    match operation.externalID with
    | some (.cluster _ _) => true
    | _ => false

def softDeleteByCosmosID (k : ItemKey) : Prog (Except Failure Unit) := do
  match ← readItem k with
  | .error e => return .error ⟨e, false⟩
  | .ok none => return .ok ()
  | .ok (some item) =>
    if item.doc.deletionTimestamp.isSome then return .ok ()
    else
      let time ← now
      replaceItem k item.etag { item.doc with deletionTimestamp := some time }

def clusterControllerResourceType : String :=
  "Microsoft.RedHatOpenShift/hcpOpenShiftClusters/hcpOpenShiftControllers"

def nodePoolControllerResourceType : String :=
  "Microsoft.RedHatOpenShift/hcpOpenShiftClusters/nodePools/hcpOpenShiftControllers"

def externalAuthControllerResourceType : String :=
  "Microsoft.RedHatOpenShift/hcpOpenShiftClusters/externalAuths/hcpOpenShiftControllers"

def isControllerStatus (resourceType : String) : Bool :=
  toLower resourceType ∈ [clusterControllerResourceType, nodePoolControllerResourceType,
    externalAuthControllerResourceType].map toLower

def deleteChildren : List ListedChild → Prog (Except Failure Unit)
  | [] => return .ok ()
  | child :: rest =>
    if isControllerStatus child.resourceType then deleteChildren rest
    else
      match child.resourceID with
      | none => return .error ⟨s!"child resource at cosmosID {quote child.cosmosID} has no " ++
          "resourceID; refusing to delete", false⟩
      | some id => do
        match ← softDeleteByCosmosID (.child id) with
        | .error e => return .error e
        | .ok () => deleteChildren rest

/-- Tells the owner of a finished operation, once. What fails is logged. -/
def notifyOperationOwner (operation : Operation) : Prog Unit := do
  if operation.status.isTerminal && operation.notificationURI ≠ "" then
    match ← postAsyncNotification with
    | .error _ => return ()
    | .ok () =>
      match ← getOperation with
      | .ok (some current) =>
        let _ ← replaceOperation current.etag { current.doc with notificationURI := "" }
        return ()
      | _ => return ()
  else return ()

def moveOperation (operation : Operation) (newStatus : ProvisioningState)
    (newError : Option CloudErrorBody) (now : Time) : Operation :=
  { operation with
    lastTransitionTime := now
    status := newStatus
    error := newError.or operation.error }

def patchOperation (operation : Versioned Operation) (newStatus : ProvisioningState)
    (newError : Option CloudErrorBody) : Prog (Except Failure Unit) := do
  if needToPatchOperation operation.doc newStatus newError false then
    let time ← now
    let updated := moveOperation operation.doc newStatus newError time
    match ← replaceOperation operation.etag updated with
    | .error e => return .error e
    | .ok () =>
      notifyOperationOwner updated
      return .ok ()
  else return .ok ()

def setDeleteOperationAsCompleted (operation : Versioned Operation) : Prog (Except Failure Unit) := do
  match ← softDeleteByCosmosID .cluster with
  | .error e => return .error e
  | .ok () =>
    match ← listChildren with
    | .error e => return .error ⟨e, false⟩
    | .ok (children, iterationError) =>
      match ← deleteChildren children with
      | .error e => return .error e
      | .ok () =>
        match iterationError with
        | some e => return .error ⟨e, false⟩
        | none => patchOperation operation .succeeded none

def clusterWrite (name : String) (curr : Option (Versioned (Item ClusterContent)))
    (newStatus : ProvisioningState) : List (Write Doc) :=
  match curr with
  | none => []
  | some curr =>
    (getClusterForUpdate (some ⟨curr.etag, curr.doc.content.resource⟩) name newStatus).toList.map
      fun updated => .replace (.item .cluster) updated.etag
        { curr.doc with content := { curr.doc.content with resource := updated.doc } }

def updateOperationStatus (name : String) (operation : Versioned Operation)
    (newStatus : ProvisioningState) (newError : Option CloudErrorBody) :
    Prog (Except Failure Unit) := do
  if needToPatchOperation operation.doc newStatus newError false then
    let time ← now
    let updated := moveOperation operation.doc newStatus newError time
    match ← getCluster with
    | .error e => return .error ⟨e, false⟩
    | .ok curr =>
      match ← execute (.replace .operation operation.etag updated ::
          clusterWrite name curr newStatus) with
      | .error e => return .error e
      | .ok () =>
        notifyOperationOwner updated
        return .ok ()
  else return .ok ()

def shouldReconcileOperationAndResourceStatus (cluster : ClusterContent) : Bool :=
  cluster.resource.deletionTimestamp.isSome && cluster.clusterServiceDeletionTimestamp.isSome &&
    cluster.resource.clusterServiceID.isSome

def reconcileOperationAndResourceStatus (name : String) (operation : Versioned Operation) :
    Prog (Except Failure Unit) := do
  match ← clusterServiceStatus with
  | .failed message => return .error ⟨s!"failed to get cluster-service Cluster status: {message}", false⟩
  | .notFound => return .ok ()
  | .ready => return .ok ()
  | .converted newStatus newError => updateOperationStatus name operation newStatus newError

def synchronizeOperation (name : String) : Prog (Except Failure Unit) := do
  match ← getOperation with
  | .error e => return .error ⟨s!"failed to get active operation: {e}", false⟩
  | .ok none => return .ok ()
  | .ok (some operation) =>
    if !shouldProcess operation.doc then return .ok ()
    else
      match ← getCluster with
      | .error e => return .error ⟨s!"failed to get cluster: {e}", false⟩
      | .ok none => setDeleteOperationAsCompleted operation
      | .ok (some cluster) =>
        let time ← now
        if cluster.doc.content.resource.deleteOperationCompletionDeadline.any (· < time) then
          let message ← buildDeletionTimeoutMessage
          match ← updateOperationStatus name operation .failed
              (some ⟨"InternalServerError", message⟩) with
          | .error e => if e.preconditionFailed then return .ok () else return .error e
          | .ok () => return .ok ()
        else if !shouldReconcileOperationAndResourceStatus cluster.doc.content then return .ok ()
        else reconcileOperationAndResourceStatus name operation

/-! ## The system -/

structure World where
  store : Store Doc
  /-- how many create requests for the cluster have been accepted -/
  accepted : Nat := 0
  /-- what the controller has soft deleted, with the create request it goes back to -/
  deletions : List (ItemKey × Nat) := []

/-- The delete operation is stored and not finished. -/
def World.Active (w : World) : Prop :=
  ∃ operation, w.store.current .operation = some operation ∧
    operation.doc.status.isTerminal = false

/-- What else happens to the documents. A create request is accepted if `accepts` lets it and no
document is stored under the ID, soft deleted or not. -/
inductive Others (accepts : World → Prop) : World → World → Prop
  | create (w : World) (content : ClusterContent) (haccepts : accepts w)
      (hfree : w.store.current (.item .cluster) = none) :
      Others accepts w { w with
        store := w.store.put (.item .cluster) ⟨w.accepted + 1, none, content⟩
        accepted := w.accepted + 1 }
  /-- a child that goes back to an accepted request -/
  | createChild (w : World) (id : ChildID) (createdBy : Nat) (hcreatedBy : createdBy ≤ w.accepted)
      (hfree : w.store.current (.item (.child id)) = none) :
      Others accepts w { w with store := w.store.put (.item (.child id)) ⟨createdBy, none, ()⟩ }
  /-- a write or a soft delete by another controller -/
  | write (w : World) (k : ItemKey) (old : Versioned (Item (Content k))) (new : Item (Content k))
      (hold : w.store.current (.item k) = some old) (hsame : new.createdBy = old.doc.createdBy) :
      Others accepts w { w with store := w.store.put (.item k) new }
  | purge (w : World) (k : ItemKey) (old : Versioned (Item (Content k)))
      (hold : w.store.current (.item k) = some old)
      (hdeleted : old.doc.deletionTimestamp.isSome = true) :
      Others accepts w { w with store := w.store.remove (.item k) }
  /-- the finished operation expires -/
  | expire (w : World) (operation : Versioned Operation)
      (hoperation : w.store.current .operation = some operation)
      (hfinished : operation.doc.status.isTerminal = true) :
      Others accepts w { w with store := w.store.remove .operation }

/-- A write succeeds, fails, or fails for the caller only. -/
def Writes {σ : Type} (attempt : Option σ) (s : σ) (r : Except Failure Unit) (s' : σ) : Prop :=
  attempt = some s' ∨ (∃ e, r = .error e) ∧ s' = s

def World.replaceItem (w : World) (k : ItemKey) (etag : Nat) (item : Item (Content k)) :
    Option World :=
  (w.store.replace (.item k) etag item).map fun store =>
    { w with store := store, deletions := (k, item.createdBy) :: w.deletions }

def World.replaceOperation (w : World) (etag : Nat) (operation : Operation) : Option World :=
  (w.store.replace .operation etag operation).map fun store => { w with store := store }

def World.execute (w : World) (writes : List (Write Doc)) : Option World :=
  (w.store.commit writes).map fun store => { w with store := store }

def World.cluster (w : World) : Option (Versioned (Item ClusterContent)) :=
  (w.store.current (.item .cluster)).filter fun item => item.doc.deletionTimestamp.isNone

def sem (accepts : World → Prop) : Semantics World Call Call.Reply
  | .now, w, _, w' => w' = w
  | .getOperation, w, r, w' => w.store.LiveRead .operation r ∧ w' = w
  | .getCluster, w, r, w' => (∀ o, r = .ok o → o = w.cluster) ∧ w' = w
  | .readItem k, w, r, w' => w.store.LiveRead (.item k) r ∧ w' = w
  | .replaceItem k etag item, w, r, w' => Writes (w.replaceItem k etag item) w r w'
  | .listChildren, w, r, w' =>
    (∀ children e, r = .ok (children, e) → ∀ child ∈ children, ∀ id, child.resourceID = some id →
      ∃ item, w.store.current (.item (.child id)) = some item ∧
        item.doc.deletionTimestamp = none) ∧ w' = w
  | .replaceOperation etag operation, w, r, w' => Writes (w.replaceOperation etag operation) w r w'
  | .execute writes, w, r, w' => Writes (w.execute writes) w r w'
  | .clusterServiceStatus, w, _, w' => w' = w
  | .buildDeletionTimeoutMessage, w, _, w' => w' = w
  | .postAsyncNotification, w, _, w' => w' = w
  | .others, w, _, w' => Others accepts w w'

/-- The controller works on the operation one run at a time; everyone else acts in between. -/
inductive Actor where
  | controller
  | others
deriving DecidableEq, Repr

def program (name : String) : Actor → Prog (Except Failure Unit)
  | .controller => synchronizeOperation name
  | .others => do
    others
    return .ok ()

/-- The documents of the delete operation's own cluster, before any create request. -/
structure Start (w : World) : Prop where
  accepted : w.accepted = 0
  deletions : w.deletions = []
  items : ∀ k item, w.store.Past (.item k) item → item.doc.createdBy = 0

end AroHcp.Operations.DeleteOperation
