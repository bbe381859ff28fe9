import AroHcp.Operations.Transactions

/-! The frontend and the backend at work on the documents of one subscription. Every transaction is
made from copies read earlier; what it found on the way is kept here until it is executed, and any
other step may come in between. -/

namespace AroHcp.Operations

open DocStore

/-- A call of `UpdateOperationStatus` that has read the resource and not yet been executed. -/
structure StatusUpdate where
  name : String
  existing : Versioned Operation
  newStatus : ProvisioningState
  newError : Option CloudErrorBody
  same : Bool
  now : Time
  get : ResourceID → Option (Versioned Resource)

def StatusUpdate.transaction (update : StatusUpdate) : List (Write Doc) :=
  updateOperationStatus update.name update.existing update.newStatus update.newError update.same
    update.now update.get

structure World where
  store : Store Doc
  /-- delete requests, each with the resources added to its transaction so far -/
  deletes : List (List DeleteTarget)
  updates : List StatusUpdate

def World.empty : World :=
  ⟨Store.empty, [], []⟩

def ReadsCluster (s : Store Doc) (id : ResourceID) (cluster : ProvisioningState) : Prop :=
  ∀ parent, id.parent = some parent →
    ∃ v, s.Past (.resource parent) v ∧ v.doc.provisioningState = cluster

def deleteTarget (s : Store Doc) (id : ResourceID) (resource : Versioned Resource)
    (name notificationURI : String) (now : Time) : DeleteTarget :=
  ⟨id, resource, listActiveOperations s (deleteOptions id), name, notificationURI, now⟩

inductive Step : World → World → Prop
  | create {w : World} (id : ResourceID) (name notificationURI : String) (now : Time)
      (cluster : ProvisioningState) (store : Store Doc)
      (hcluster : ReadsCluster w.store id cluster)
      (hcheck : checkForProvisioningStateConflict .create id (.other "") cluster = none)
      (hname : name ≠ "")
      (hcommit : w.store.commit (createTransaction id name notificationURI now) = some store) :
      Step w { w with store := store }
  | update {w : World} (id : ResourceID) (old : Versioned Resource) (name notificationURI : String)
      (now : Time) (cluster : ProvisioningState) (store : Store Doc)
      (hold : w.store.Past (.resource id) old) (hcluster : ReadsCluster w.store id cluster)
      (hcheck : checkForProvisioningStateConflict .update id old.doc.provisioningState cluster =
        none)
      (hname : name ≠ "")
      (hcommit : w.store.commit (updateTransaction id old name notificationURI now) = some store) :
      Step w { w with store := store }
  /-- a delete request for one resource lists the operations on it -/
  | delete {w : World} (id : ResourceID) (resource : Versioned Resource)
      (name notificationURI : String) (now : Time) (cluster : ProvisioningState)
      (hresource : w.store.Past (.resource id) resource)
      (hcluster : ReadsCluster w.store id cluster)
      (hcheck : checkForProvisioningStateConflict .delete id resource.doc.provisioningState
        cluster = none)
      (hname : name ≠ "") :
      Step w { w with
        deletes := [deleteTarget w.store id resource name notificationURI now] :: w.deletes }
  /-- the delete request for a cluster adds a nested resource -/
  | deleteNested {w : World} (request : List DeleteTarget) (root : DeleteTarget) (id : ResourceID)
      (resource : Versioned Resource) (name : String) (now : Time)
      (hrequest : request ∈ w.deletes) (hroot : root ∈ request) (hid : id.parent = some root.id)
      (hresource : w.store.Past (.resource id) resource)
      (hdeletion : resource.doc.deletionTimestamp = none) (hname : name ≠ "") :
      Step w { w with
        deletes := (request ++ [deleteTarget w.store id resource name "" now]) :: w.deletes }
  /-- the deletion of the subscription starts, or adds a cluster that is not being deleted -/
  | deleteSubscription {w : World} (request : List DeleteTarget) (id : ResourceID)
      (resource : Versioned Resource) (name : String) (now : Time)
      (hrequest : request = [] ∨ request ∈ w.deletes) (hid : id.parent = none)
      (hresource : w.store.Past (.resource id) resource)
      (hstate : resource.doc.provisioningState ≠ .deleting) (hname : name ≠ "") :
      Step w { w with
        deletes := (request ++ [deleteTarget w.store id resource name "" now]) :: w.deletes }
  | executeDelete {w : World} (request : List DeleteTarget) (store : Store Doc)
      (hrequest : request ∈ w.deletes)
      (hcommit : w.store.commit (request.flatMap DeleteTarget.transaction) = some store) :
      Step w { w with store := store }
  /-- the backend reads the resource of an operation whose copy is not terminal -/
  | updateStatus {w : World} (name : String) (existing : Versioned Operation)
      (newStatus : ProvisioningState) (newError : Option CloudErrorBody) (same : Bool) (now : Time)
      (hexisting : w.store.Past (.operation name) existing)
      (hrunning : existing.doc.status.isTerminal = false) :
      Step w { w with
        updates := ⟨name, existing, newStatus, newError, same, now,
          fun id => w.store.current (.resource id)⟩ :: w.updates }
  | executeUpdate {w : World} (update : StatusUpdate) (store : Store Doc)
      (hupdate : update ∈ w.updates)
      (hcommit : w.store.commit update.transaction = some store) :
      Step w { w with store := store }
  /-- `notifyOperationOwner` has told the owner -/
  | clearNotificationURI {w : World} (name : String) (operation : Versioned Operation)
      (store : Store Doc) (hoperation : w.store.Past (.operation name) operation)
      (hreplace : w.store.replace (.operation name) operation.etag
        { operation.doc with notificationURI := "" } = some store) :
      Step w { w with store := store }

theorem Step.later {w w' : World} (h : Step w w') : w.store.Later w'.store := by
  cases h with
  | create _ _ _ _ _ _ _ _ _ hcommit | update _ _ _ _ _ _ _ _ _ _ _ hcommit
  | executeDelete _ _ _ hcommit | executeUpdate _ _ _ hcommit => exact Store.later_commit hcommit
  | clearNotificationURI name operation store hoperation hreplace =>
    rw [(hoperation.replace_eq_some hreplace).2]
    exact Store.later_put _ _ _
  | delete | deleteNested | deleteSubscription | updateStatus => exact Store.Later.refl _

end AroHcp.Operations
