import AroHcp.Lib.JobRegistry
import AroHcp.Operations.World

/-! Operations and resources agree in every state that the transactions reach. The database is seen
as a registry of jobs: operations are the jobs, resources the items. -/

namespace AroHcp.Operations

open DocStore JobRegistry Relation ProvisioningState

variable {s s' : Store Doc} {id : ResourceID} {name : String} {now : Time}

def activeOperation (resource : Resource) : Option String :=
  if resource.activeOperationID = "" then none else some resource.activeOperationID

def registry (s : Store Doc) : JobRegistry String ResourceID ProvisioningState where
  job name := (s.current (.operation name)).bind fun operation =>
    operation.doc.externalID.map (·, operation.doc.status)
  item id := (s.current (.resource id)).map fun resource =>
    (activeOperation resource.doc, resource.doc.provisioningState)

theorem registry_job {op : Versioned Operation}
    (hcurrent : s.current (.operation name) = some op)
    (hid : op.doc.externalID = some id) :
    (registry s).job name = some (id, op.doc.status) := by
  simp [registry, hcurrent, hid]

theorem registry_job_eq_some {status : ProvisioningState}
    (h : (registry s).job name = some (id, status)) :
    ∃ op, s.current (.operation name) = some op ∧
      op.doc.externalID = some id ∧ op.doc.status = status := by
  obtain ⟨op, hoperation, hdoc⟩ := Option.bind_eq_some_iff.mp h
  obtain ⟨i, hid, hpair⟩ := Option.map_eq_some_iff.mp hdoc
  rw [Prod.mk.injEq] at hpair
  exact ⟨op, hoperation, hpair.1 ▸ hid, hpair.2⟩

theorem registry_item {resource : Versioned Resource}
    (hcurrent : s.current (.resource id) = some resource) :
    (registry s).item id = some (activeOperation resource.doc, resource.doc.provisioningState) := by
  simp [registry, hcurrent]

theorem registry_put_operation (s : Store Doc) (name : String) (op : Operation) :
    registry (s.put (.operation name) op) =
      { registry s with
        job := Function.update (registry s).job name
          (op.externalID.map (·, op.status)) } := by
  unfold registry
  congr 1
  · funext k
    by_cases hk : k = name
    · subst hk
      simp
    · have hkey : DocKey.operation k ≠ .operation name := by
        simpa using hk
      rw [Store.put_current_of_ne _ _ hkey, Function.update_of_ne hk]

theorem registry_put_resource (s : Store Doc) (id : ResourceID) (resource : Resource) :
    registry (s.put (.resource id) resource) =
      { registry s with
        item := Function.update (registry s).item id
          (some (activeOperation resource, resource.provisioningState)) } := by
  unfold registry
  congr 1
  · funext i
    by_cases hi : i = id
    · subst hi
      simp
    · have hkey : DocKey.resource i ≠ .resource id := by
        simpa using hi
      rw [Store.put_current_of_ne _ _ hkey, Function.update_of_ne hi]

/-! ## Starting an operation -/

theorem starts_of_idle {op : Operation} {resource : Resource}
    (hfresh : s.current (.operation name) = none) (hname : name ≠ "")
    (hid : op.externalID = some id) (hrunning : op.status.isTerminal = false)
    (hactive : resource.activeOperationID = name)
    (hstate : resource.provisioningState = op.status)
    (hidle : ∀ k old, (registry s).job k = some (id, old) → old.isTerminal = true) :
    Starts isTerminal id name op.status (registry s)
      (registry ((s.put (.operation name) op).put (.resource id) resource)) := by
  have howner : activeOperation resource = some name := by
    rw [activeOperation, hactive, if_neg hname]
  rw [registry_put_resource, registry_put_operation, howner, hstate, hid]
  refine ⟨?_, hrunning, ?_, ?_, rfl⟩
  · simp [registry, hfresh]
  · exact Function.update_self ..
  · intro k hk
    exact .inl ⟨Function.update_of_ne hk .., hidle k⟩

variable {notificationURI : String}

theorem createTransaction_starts (hs : Consistent isTerminal (registry s)) (hname : name ≠ "")
    (hcommit : s.commit (createTransaction id name notificationURI now) = some s') :
    Starts isTerminal id name (newOperation .create id notificationURI now).status (registry s)
      (registry s') := by
  obtain ⟨t, hoperation, hrest⟩ := Store.commit_cons_eq_some hcommit
  obtain ⟨t', hresource, hdone⟩ := Store.commit_cons_eq_some hrest
  cases hdone
  obtain ⟨hfresh, rfl⟩ := Store.create_eq_some hoperation
  obtain ⟨habsent, rfl⟩ := Store.create_eq_some hresource
  rw [Store.put_current_of_ne _ _ (by simp)] at habsent
  refine starts_of_idle hfresh hname rfl rfl rfl rfl ?_
  intro k old hjob
  by_contra hrunning
  have hitem := hs.active k id old hjob (Bool.eq_false_of_not_eq_true hrunning)
  simp [registry, habsent] at hitem

theorem updateTransaction_starts {old : Versioned Resource}
    (hs : Consistent isTerminal (registry s)) (hname : name ≠ "") (hold : s.Past (.resource id) old)
    (hterminal : old.doc.provisioningState.isTerminal = true)
    (hcommit : s.commit (updateTransaction id old name notificationURI now) = some s') :
    Starts isTerminal id name (newOperation .update id notificationURI now).status (registry s)
      (registry s') := by
  obtain ⟨t, hoperation, hrest⟩ := Store.commit_cons_eq_some hcommit
  obtain ⟨t', hresource, hdone⟩ := Store.commit_cons_eq_some hrest
  cases hdone
  obtain ⟨hfresh, rfl⟩ := Store.create_eq_some hoperation
  obtain ⟨hcurrent, rfl⟩ := (hold.put _ _).replace_eq_some hresource
  rw [Store.put_current_of_ne _ _ (by simp)] at hcurrent
  refine starts_of_idle hfresh hname rfl rfl rfl rfl ?_
  intro k status hjob
  by_contra hrunning
  have hitem := hs.active k id status hjob (Bool.eq_false_of_not_eq_true hrunning)
  rw [registry_item hcurrent, Option.some.injEq, Prod.mk.injEq] at hitem
  rw [← hitem.2] at hrunning
  exact hrunning hterminal

/-! ## Deleting -/

/-- What a delete request knows of one resource when its transaction is executed: as long as the
copy it read is stored, the operation that owns the resource is among those it has listed. -/
structure DeleteTarget.Ready (s : Store Doc) (target : DeleteTarget) : Prop where
  resource : s.Past (.resource target.id) target.resource
  active : ∀ e ∈ target.active, s.Past (.operation e.1) e.2 ∧
    e.2.doc.status.isTerminal = false ∧ e.2.doc.externalID = some target.id
  covers : s.current (.resource target.id) = some target.resource →
    ∀ owner, activeOperation target.resource.doc = some owner →
      ∃ operation, (owner, operation) ∈ target.active
  name : target.name ≠ ""

variable {target : DeleteTarget}

theorem DeleteTarget.Ready.mono (h : target.Ready s) (hlater : s.Later s') : target.Ready s' where
  resource := hlater.past _ _ h.resource
  active e he := by
    obtain ⟨hpast, hrest⟩ := h.active e he
    exact ⟨hlater.past _ _ hpast, hrest⟩
  covers hcurrent := h.covers (hlater.current _ _ h.resource hcurrent)
  name := h.name

/-- The listing that follows the read covers the owner: while the copy is stored, its owner is
running. -/
theorem deleteTarget_ready {resource : Versioned Resource} (hs : Consistent isTerminal (registry s))
    (hresource : s.Past (.resource id) resource) (hname : name ≠ "") :
    (deleteTarget s id resource name notificationURI now).Ready s where
  resource := hresource
  active e he := by
    obtain ⟨hcurrent, hselects⟩ := mem_listActiveOperations.mp he
    exact ⟨s.current_mem _ _ hcurrent, deleteOptions_selects.mp hselects⟩
  covers hcurrent owner howner := by
    have hitem := registry_item hcurrent
    rw [howner] at hitem
    obtain ⟨hjob, hrunning⟩ := hs.owned id owner _ hitem
    obtain ⟨op, hoperation, hid, hstatus⟩ := registry_job_eq_some hjob
    refine ⟨op, mem_listActiveOperations.mpr ⟨hoperation, ?_⟩⟩
    exact deleteOptions_selects.mpr ⟨hstatus ▸ hrunning, hid⟩
  name := hname

theorem cancelActiveOperations_ends {active : List (String × Versioned Operation)}
    (hactive : ∀ e ∈ active, s.Past (.operation e.1) e.2 ∧ e.2.doc.status.isTerminal = false ∧
      e.2.doc.externalID = some id)
    (hcommit : s.commit (cancelActiveOperations active now) = some s') :
    Ends isTerminal id (registry s) (registry s') ∧
      ∀ e ∈ active, ∀ i status, (registry s').job e.1 = some (i, status) →
        status.isTerminal = true := by
  induction active generalizing s with
  | nil =>
    cases hcommit
    exact ⟨.refl _, fun e he => by cases he⟩
  | cons e active ih =>
    obtain ⟨t, hreplace, hrest⟩ := Store.commit_cons_eq_some hcommit
    obtain ⟨hpast, hrunning, hid⟩ := hactive e List.mem_cons_self
    obtain ⟨hcurrent, rfl⟩ := hpast.replace_eq_some hreplace
    have hcanceled : (registry (s.put (.operation e.1) (cancelOperation e.2.doc now))).job e.1 =
        some (id, .canceled) :=
      registry_job (Store.put_current_self ..) hid
    have hend : Ends isTerminal id (registry s)
        (registry (s.put (.operation e.1) (cancelOperation e.2.doc now))) := by
      refine ⟨?_, by rw [registry_put_operation]⟩
      intro k
      by_cases hk : k = e.1
      · subst hk
        exact .inr ⟨e.2.doc.status, .canceled, registry_job hcurrent hid, hrunning, hcanceled, rfl⟩
      · rw [registry_put_operation]
        exact .inl (Function.update_of_ne hk ..)
    obtain ⟨hends, hfinal⟩ := ih (fun e' he' => by
      obtain ⟨hpast', hrest'⟩ := hactive e' (List.mem_cons_of_mem e he')
      exact ⟨hpast'.put _ _, hrest'⟩) hrest
    refine ⟨hend.trans hends, ?_⟩
    intro e' he' i status hjob
    rcases List.mem_cons.mp he' with rfl | htail
    · by_contra hrunning'
      have hjob' := hends.job_of_running hjob (Bool.eq_false_of_not_eq_true hrunning')
      rw [hcanceled, Option.some.injEq, Prod.mk.injEq] at hjob'
      rw [← hjob'.2] at hrunning'
      exact hrunning' rfl
    · exact hfinal e' htail i status hjob

/-- The common part of the three transactions, whatever else they write to the resource. -/
theorem addDeleteToTransaction_starts {finish : Time → Resource → Resource}
    (hactive : ∀ now resource, (finish now resource).activeOperationID = resource.activeOperationID)
    (hstate : ∀ now resource, (finish now resource).provisioningState = resource.provisioningState)
    (hs : Consistent isTerminal (registry s)) (hready : target.Ready s)
    (hcommit : s.commit (addDeleteToTransaction finish target) = some s') :
    Starts isTerminal target.id target.name target.operation.status (registry s)
      (registry s') := by
  obtain ⟨t, hcancel, hwrite⟩ := Store.commit_append_eq_some hcommit
  obtain ⟨u, hoperation, hrest⟩ := Store.commit_cons_eq_some hwrite
  obtain ⟨u', hresource, hdone⟩ := Store.commit_cons_eq_some hrest
  cases hdone
  have hlater : s.Later t := Store.later_commit hcancel
  obtain ⟨hfresh, rfl⟩ := Store.create_eq_some hoperation
  obtain ⟨hcurrent, rfl⟩ :=
    ((hlater.past _ _ hready.resource).put _ _).replace_eq_some hresource
  obtain ⟨hends, hfinal⟩ := cancelActiveOperations_ends hready.active hcancel
  refine Starts.of_ends hends (starts_of_idle hfresh hready.name rfl
    (newOperation_not_isTerminal ..) (hactive _ _) (hstate _ _) ?_)
  -- a running operation would own the copy, so it was listed and is canceled by now
  intro k status hjob
  by_contra hrunning
  have hrunning' := Bool.eq_false_of_not_eq_true hrunning
  have howner := hs.active k target.id status (hends.job_of_running hjob hrunning') hrunning'
  have hstored := hlater.current _ _ hready.resource hcurrent
  rw [registry_item hstored, Option.some.injEq, Prod.mk.injEq] at howner
  obtain ⟨op, hlisted⟩ := hready.covers hstored k howner.1
  exact hrunning (hfinal _ hlisted target.id status hjob)

theorem DeleteTarget.transaction_starts (hs : Consistent isTerminal (registry s))
    (hready : target.Ready s) (hcommit : s.commit target.transaction = some s') :
    Starts isTerminal target.id target.name target.operation.status (registry s)
      (registry s') := by
  unfold DeleteTarget.transaction at hcommit
  split at hcommit <;>
    exact addDeleteToTransaction_starts (by intros; rfl) (by intros; rfl) hs hready hcommit

theorem deleteRequest_run {request : List DeleteTarget} (hs : Consistent isTerminal (registry s))
    (hready : ∀ target ∈ request, target.Ready s)
    (hcommit : s.commit (request.flatMap DeleteTarget.transaction) = some s') :
    ReflTransGen (JobRegistry.Step isTerminal) (registry s) (registry s') := by
  induction request generalizing s with
  | nil =>
    cases hcommit
    exact .refl
  | cons target request ih =>
    obtain ⟨t, htarget, hrest⟩ := Store.commit_append_eq_some hcommit
    have hstarts := target.transaction_starts hs (hready target List.mem_cons_self) htarget
    refine .head (.starts _ _ _ hstarts) (ih (hstarts.consistent hs) ?_ hrest)
    intro target' htarget'
    exact (hready target' (List.mem_cons_of_mem target htarget')).mono (Store.later_commit htarget)

/-! ## UpdateOperationStatus -/

/-- What a status update knows when its transaction is executed: as long as the copy of the
operation is stored, the resource it has read is owned by the operation. -/
structure StatusUpdate.Ready (s : Store Doc) (update : StatusUpdate) : Prop where
  existing : s.Past (.operation update.name) update.existing
  running : update.existing.doc.status.isTerminal = false
  owns : s.current (.operation update.name) = some update.existing →
    ∀ id, update.existing.doc.externalID = some id →
      ∃ resource, update.get id = some resource ∧ s.Past (.resource id) resource ∧
        activeOperation resource.doc = some update.name ∧
        resource.doc.provisioningState = update.existing.doc.status

variable {update : StatusUpdate}

theorem StatusUpdate.Ready.mono (h : update.Ready s) (hlater : s.Later s') : update.Ready s' where
  existing := hlater.past _ _ h.existing
  running := h.running
  owns hcurrent id hid := by
    obtain ⟨resource, hget, hpast, howner⟩ :=
      h.owns (hlater.current _ _ h.existing hcurrent) id hid
    exact ⟨resource, hget, hlater.past _ _ hpast, howner⟩

theorem statusUpdate_ready {existing : Versioned Operation} {newStatus : ProvisioningState}
    {newError : Option CloudErrorBody} {same : Bool} (hs : Consistent isTerminal (registry s))
    (hexisting : s.Past (.operation name) existing)
    (hrunning : existing.doc.status.isTerminal = false) :
    StatusUpdate.Ready s ⟨name, existing, newStatus, newError, same, now,
      fun id => s.current (.resource id)⟩ where
  existing := hexisting
  running := hrunning
  owns hcurrent id hid := by
    have hitem := hs.active name id _ (registry_job hcurrent hid) hrunning
    obtain ⟨resource, hresource, hpair⟩ := Option.map_eq_some_iff.mp hitem
    rw [Prod.mk.injEq] at hpair
    exact ⟨resource, hresource, s.current_mem _ _ hresource, hpair.1, hpair.2⟩

theorem activeOperation_eq_some {resource : Resource}
    (h : activeOperation resource = some name) :
    resource.activeOperationID = name ∧ name ≠ "" := by
  unfold activeOperation at h
  rw [Option.ite_none_left_eq_some, Option.some.injEq] at h
  exact ⟨h.2, h.2 ▸ h.1⟩

/-- The resource is left alone only if it has the new state already. -/
theorem getForUpdate_of_owner {resource : Versioned Resource} (newStatus : ProvisioningState)
    (howner : activeOperation resource.doc = some name) :
    getForUpdate (some resource) name newStatus = none ∧
        resource.doc.provisioningState = newStatus ∨
      ∃ updated, getForUpdate (some resource) name newStatus = some ⟨resource.etag, updated⟩ ∧
        activeOperation updated = (if newStatus.isTerminal then none else some name) ∧
        updated.provisioningState = newStatus := by
  obtain ⟨hactive, hname⟩ := activeOperation_eq_some howner
  unfold getForUpdate
  dsimp only
  rw [if_neg (not_not.mpr hactive)]
  by_cases hsame : resource.doc.provisioningState = newStatus ∧ newStatus.isTerminal = false
  · rw [if_pos hsame]
    exact .inl ⟨rfl, hsame.1⟩
  · rw [if_neg hsame]
    refine .inr ⟨_, rfl, ?_, rfl⟩
    by_cases hterminal : newStatus.isTerminal = true
    · simp [activeOperation, hterminal]
    · simp [activeOperation, hterminal, hactive, hname]

/-- The update as a write to the operation and, perhaps, one to the resource. -/
theorem StatusUpdate.transaction_eq (hid : update.existing.doc.externalID = some id)
    (hpatch : needToPatchOperation update.existing.doc update.newStatus update.newError
      update.same = true) :
    update.transaction =
      .replace (.operation update.name) update.existing.etag
        { update.existing.doc with
          lastTransitionTime := update.now
          status := update.newStatus
          error := update.newError.or update.existing.doc.error } ::
        (getForUpdate (update.get id) update.name update.newStatus).toList.map
          fun r => .replace (.resource id) r.etag r.doc := by
  unfold StatusUpdate.transaction updateOperationStatus
  rw [if_pos hpatch, hid]
  cases id <;> rfl

theorem StatusUpdate.transaction_run (hready : update.Ready s)
    (hid : update.existing.doc.externalID = some id)
    (hcommit : s.commit update.transaction = some s') :
    ReflTransGen (JobRegistry.Step isTerminal) (registry s) (registry s') := by
  cases hpatch : needToPatchOperation update.existing.doc update.newStatus update.newError
      update.same with
  | false =>
    unfold StatusUpdate.transaction updateOperationStatus at hcommit
    rw [if_neg (by rw [hpatch]; exact Bool.false_ne_true)] at hcommit
    cases hcommit
    exact .refl
  | true =>
    rw [StatusUpdate.transaction_eq hid hpatch] at hcommit
    obtain ⟨t, hoperation, hrest⟩ := Store.commit_cons_eq_some hcommit
    obtain ⟨hcurrent, rfl⟩ := hready.existing.replace_eq_some hoperation
    obtain ⟨resource, hget, hpast, howner, hstate⟩ := hready.owns hcurrent id hid
    have hjob := registry_job hcurrent hid
    rw [hget] at hrest
    rcases getForUpdate_of_owner update.newStatus howner with
      ⟨hskip, hsame⟩ | ⟨updated, hupdated, hactive, hnew⟩
    · -- the resource has the new state, so the operation had it as well
      rw [hskip] at hrest
      cases hrest
      rw [registry_put_operation, hid, Option.map_some, ← hsame, hstate, ← hjob,
        Function.update_eq_self]
    · rw [hupdated] at hrest
      obtain ⟨t, hresource, hdone⟩ := Store.commit_cons_eq_some hrest
      cases hdone
      obtain ⟨-, rfl⟩ := (hpast.put _ _).replace_eq_some hresource
      refine .single (.advances id update.name update.newStatus ⟨?_, ?_, ?_⟩)
      · exact ⟨_, hjob, hready.running⟩
      · rw [registry_put_resource, registry_put_operation, hid]
        rfl
      · rw [registry_put_resource, registry_put_operation, hactive, hnew]

/-! ## Every state reached -/

/-- Every operation ever stored creates, updates or deletes a resource. -/
def LifecycleDoc : (k : DocKey) → Doc k → Prop
  | .operation _, operation => operation.request.isLifecycle = true ∧ operation.externalID.isSome
  | .resource _, _ => True

structure Invariant (w : World) : Prop where
  consistent : Consistent isTerminal (registry w.store)
  lifecycle : ∀ k v, w.store.Past k v → LifecycleDoc k v.doc
  deletes : ∀ request ∈ w.deletes, ∀ target ∈ request, target.Ready w.store
  updates : ∀ update ∈ w.updates, update.Ready w.store

theorem Invariant.empty : Invariant World.empty where
  consistent := by
    refine ⟨?_, ?_, ?_⟩
    · intro j i status hjob
      cases hjob
    · intro i status hitem
      cases hitem
    · intro i j status hitem
      cases hitem
  lifecycle _ _ h := by cases h
  deletes _ h := by cases h
  updates _ h := by cases h

variable {w w' : World}

theorem Step.registry_run (hw : Invariant w) (h : Step w w') :
    ReflTransGen (JobRegistry.Step isTerminal) (registry w.store) (registry w'.store) := by
  cases h with
  | create id name uri now cluster store _ _ hname hcommit =>
    exact .single (.starts _ _ _ (createTransaction_starts hw.consistent hname hcommit))
  | update id old name uri now cluster store hold _ hcheck hname hcommit =>
    exact .single (.starts _ _ _ (updateTransaction_starts hw.consistent hname hold
      (isTerminal_of_update hcheck) hcommit))
  | executeDelete request store hrequest hcommit =>
    exact deleteRequest_run hw.consistent (hw.deletes request hrequest) hcommit
  | executeUpdate update store hupdate hcommit =>
    have hready := hw.updates update hupdate
    obtain ⟨id, hid⟩ := Option.isSome_iff_exists.mp (hw.lifecycle _ _ hready.existing).2
    exact update.transaction_run hready hid hcommit
  | clearNotificationURI name op store hoperation hreplace =>
    obtain ⟨hcurrent, rfl⟩ := hoperation.replace_eq_some hreplace
    obtain ⟨id, hid⟩ := Option.isSome_iff_exists.mp (hw.lifecycle _ _ hoperation).2
    have hjob := registry_job hcurrent hid
    rw [registry_put_operation, hid, Option.map_some, ← hjob, Function.update_eq_self]
  | delete | deleteNested | deleteSubscription | updateStatus => exact .refl

/-! The documents that the transactions write. -/

theorem lifecycleDoc_addDelete {finish : Time → Resource → Resource}
    (hactive : ∀ e ∈ target.active, LifecycleDoc (.operation e.1) e.2.doc) :
    ∀ write ∈ addDeleteToTransaction finish target, LifecycleDoc write.key write.doc := by
  intro write hwrite
  rcases List.mem_append.mp hwrite with hcancel | hrest
  · obtain ⟨e, he, rfl⟩ := List.mem_map.mp hcancel
    exact hactive e he
  · rcases List.mem_pair.mp hrest with rfl | rfl
    · exact ⟨rfl, rfl⟩
    · trivial

theorem lifecycleDoc_deleteTarget
    (hactive : ∀ e ∈ target.active, LifecycleDoc (.operation e.1) e.2.doc) :
    ∀ write ∈ target.transaction, LifecycleDoc write.key write.doc := by
  unfold DeleteTarget.transaction
  split <;> exact lifecycleDoc_addDelete hactive

theorem lifecycleDoc_statusUpdate
    (hexisting : LifecycleDoc (.operation update.name) update.existing.doc) :
    ∀ write ∈ update.transaction, LifecycleDoc write.key write.doc := by
  obtain ⟨id, hid⟩ := Option.isSome_iff_exists.mp hexisting.2
  intro write hwrite
  cases hpatch : needToPatchOperation update.existing.doc update.newStatus update.newError
      update.same with
  | false =>
    unfold StatusUpdate.transaction updateOperationStatus at hwrite
    rw [if_neg (by rw [hpatch]; exact Bool.false_ne_true)] at hwrite
    cases hwrite
  | true =>
    rw [StatusUpdate.transaction_eq hid hpatch] at hwrite
    rcases List.mem_cons.mp hwrite with rfl | hresource
    · exact hexisting
    · obtain ⟨resource, -, rfl⟩ := List.mem_map.mp hresource
      trivial

theorem Step.lifecycle (hw : Invariant w) (h : Step w w') (k : DocKey) (v : Versioned (Doc k))
    (hv : w'.store.Past k v) : LifecycleDoc k v.doc := by
  cases h with
  | create id name uri now cluster store _ _ _ hcommit =>
    refine Store.past_of_commit hcommit hw.lifecycle ?_ k v hv
    exact List.forall_mem_cons.mpr ⟨⟨rfl, rfl⟩, List.forall_mem_singleton.mpr trivial⟩
  | update id old name uri now cluster store _ _ _ _ hcommit =>
    refine Store.past_of_commit hcommit hw.lifecycle ?_ k v hv
    exact List.forall_mem_cons.mpr ⟨⟨rfl, rfl⟩, List.forall_mem_singleton.mpr trivial⟩
  | executeDelete request store hrequest hcommit =>
    refine Store.past_of_commit hcommit hw.lifecycle ?_ k v hv
    intro write hwrite
    obtain ⟨target, htarget, hmem⟩ := List.mem_flatMap.mp hwrite
    refine lifecycleDoc_deleteTarget ?_ write hmem
    intro e he
    exact hw.lifecycle _ _ ((hw.deletes request hrequest target htarget).active e he).1
  | executeUpdate update store hupdate hcommit =>
    refine Store.past_of_commit hcommit hw.lifecycle ?_ k v hv
    exact lifecycleDoc_statusUpdate (hw.lifecycle _ _ (hw.updates update hupdate).existing)
  | clearNotificationURI name op store hoperation hreplace =>
    obtain ⟨-, rfl⟩ := hoperation.replace_eq_some hreplace
    rcases List.mem_cons.mp hv with heq | hold
    · cases heq
      have hdoc := hw.lifecycle _ _ hoperation
      exact hdoc
    · exact hw.lifecycle k v hold
  | delete | deleteNested | deleteSubscription | updateStatus => exact hw.lifecycle k v hv

theorem Step.deletes (hw : Invariant w) (h : Step w w') :
    ∀ request ∈ w'.deletes, ∀ target ∈ request, target.Ready w'.store := by
  have hkept : ∀ request ∈ w.deletes, ∀ target ∈ request, target.Ready w'.store :=
    fun request hrequest target htarget => (hw.deletes request hrequest target htarget).mono h.later
  -- a target that is ready joins the earlier ones of its request
  have hadded {l : List DeleteTarget} {new : DeleteTarget}
      (hearlier : ∀ target ∈ l, target.Ready w'.store) (hnew : new.Ready w'.store) :
      ∀ request ∈ (l ++ [new]) :: w.deletes, ∀ target ∈ request, target.Ready w'.store :=
    List.forall_mem_cons.mpr
      ⟨List.forall_mem_append.mpr ⟨hearlier, List.forall_mem_singleton.mpr hnew⟩, hkept⟩
  cases h with
  | delete id resource name uri now cluster hresource _ _ hname =>
    exact hadded (l := []) (by simp) (deleteTarget_ready hw.consistent hresource hname)
  | deleteNested request root id resource name now hrequest _ _ hresource _ hname =>
    exact hadded (hkept request hrequest) (deleteTarget_ready hw.consistent hresource hname)
  | deleteSubscription request id resource name now hrequest _ hresource _ hname =>
    refine hadded ?_ (deleteTarget_ready hw.consistent hresource hname)
    rcases hrequest with rfl | hmem
    · simp
    · exact hkept request hmem
  | create | update | executeDelete | updateStatus | executeUpdate | clearNotificationURI =>
    exact hkept

theorem Step.updates (hw : Invariant w) (h : Step w w') :
    ∀ update ∈ w'.updates, update.Ready w'.store := by
  have hkept : ∀ update ∈ w.updates, update.Ready w'.store :=
    fun update hupdate => (hw.updates update hupdate).mono h.later
  cases h with
  | updateStatus name existing newStatus newError same now hexisting hrunning =>
    intro update hupdate
    rcases List.mem_cons.mp hupdate with rfl | hold
    · exact statusUpdate_ready hw.consistent hexisting hrunning
    · exact hkept update hold
  | create | update | delete | deleteNested | deleteSubscription | executeDelete | executeUpdate |
      clearNotificationURI =>
    exact hkept

theorem Invariant.step (hw : Invariant w) (h : Step w w') : Invariant w' where
  consistent := consistent_of_run (h.registry_run hw) hw.consistent
  lifecycle := h.lifecycle hw
  deletes := h.deletes hw
  updates := h.updates hw

theorem invariant_of_run (hrun : ReflTransGen Step World.empty w) : Invariant w :=
  Runs.invariant hrun Invariant.empty fun _ _ hw h => hw.step h

theorem registry_run (hw : Invariant w) (hrun : ReflTransGen Step w w') :
    ReflTransGen (JobRegistry.Step isTerminal) (registry w.store) (registry w'.store) := by
  suffices h : Invariant w' ∧
      ReflTransGen (JobRegistry.Step isTerminal) (registry w.store) (registry w'.store) from h.2
  refine Runs.invariant (P := fun v => Invariant v ∧ ReflTransGen (JobRegistry.Step isTerminal)
    (registry w.store) (registry v.store)) hrun ⟨hw, .refl⟩ ?_
  rintro a b ⟨ha, hregistry⟩ h
  exact ⟨ha.step h, hregistry.trans (h.registry_run ha)⟩

structure Agree (s : Store Doc) : Prop where
  owner : ∀ id resource, s.current (.resource id) = some resource →
    resource.doc.activeOperationID = "" ∧ resource.doc.provisioningState.isTerminal = true ∨
      ∃ operation, s.current (.operation resource.doc.activeOperationID) = some operation ∧
        operation.doc.request.isLifecycle = true ∧ operation.doc.externalID = some id ∧
        operation.doc.status.isTerminal = false ∧
        operation.doc.status = resource.doc.provisioningState
  unique : ∀ id resource name operation, s.current (.resource id) = some resource →
    s.current (.operation name) = some operation → operation.doc.request.isLifecycle = true →
    operation.doc.externalID = some id → operation.doc.status.isTerminal = false →
    name = resource.doc.activeOperationID

theorem Invariant.agree (hw : Invariant w) : Agree w.store where
  owner id resource hresource := by
    have hitem := registry_item hresource
    cases howner : activeOperation resource.doc with
    | none =>
      rw [howner] at hitem
      refine .inl ⟨?_, hw.consistent.idle id _ hitem⟩
      by_contra hactive
      rw [activeOperation, if_neg hactive] at howner
      cases howner
    | some owner =>
      rw [howner] at hitem
      obtain ⟨hjob, hrunning⟩ := hw.consistent.owned id owner _ hitem
      obtain ⟨op, hoperation, hid, hstatus⟩ := registry_job_eq_some hjob
      rw [(activeOperation_eq_some howner).1]
      refine .inr ⟨op, hoperation, ?_, hid, hstatus ▸ hrunning, hstatus⟩
      exact (hw.lifecycle _ _ (w.store.current_mem _ _ hoperation)).1
  unique id resource name op hresource hoperation _ hid hrunning := by
    have hitem := hw.consistent.active name id _ (registry_job hoperation hid) hrunning
    rw [registry_item hresource, Option.some.injEq, Prod.mk.injEq] at hitem
    exact (activeOperation_eq_some hitem.1).1.symm

/-- In every state reached operations and resources agree, and from then on no operation that has
reached a terminal status changes it. -/
theorem documents_agree (hrun : ReflTransGen Step World.empty w) :
    Agree w.store ∧
      ∀ name operation, w.store.current (.operation name) = some operation →
        operation.doc.status.isTerminal = true → ∀ w', ReflTransGen Step w w' →
          ∃ later, w'.store.current (.operation name) = some later ∧
            later.doc.status = operation.doc.status := by
  have hw := invariant_of_run hrun
  refine ⟨hw.agree, ?_⟩
  intro name operation hoperation hterminal w' hrun'
  obtain ⟨id, hid⟩ := Option.isSome_iff_exists.mp
    (hw.lifecycle _ _ (w.store.current_mem _ _ hoperation)).2
  have hjob := job_of_run (registry_run hw hrun') (registry_job hoperation hid) hterminal
  obtain ⟨later, hlater, -, hstatus⟩ := registry_job_eq_some hjob
  exact ⟨later, hlater, hstatus⟩

/-- A cluster is created and deleted while the create operation is running. -/
theorem documents_agree_delete :
    ∃ w, ReflTransGen Step World.empty w ∧
      (w.store.current (.operation "create")).map (·.doc.status) = some .canceled ∧
      (w.store.current (.operation "delete")).map (·.doc.status) = some .deleting ∧
      Agree w.store := by
  let id : ResourceID := .cluster "group" "cluster"
  let resource : Resource := { activeOperationID := "create", provisioningState := .accepted }
  let created : Store Doc :=
    (Store.empty.put (.operation "create") (newOperation .create id "" 0)).put (.resource id) resource
  let target := deleteTarget created id ⟨1, resource⟩ "delete" "" 1
  let deleted : Store Doc :=
    ((created.put (.operation "create") (cancelOperation (newOperation .create id "" 0) 1)).put
      (.operation "delete") (newOperation .delete id "" 1)).put (.resource id)
        { resource with
          deletionTimestamp := some 1
          activeOperationID := "delete"
          provisioningState := .deleting
          deleteOperationCompletionDeadline :=
            some (computeDeleteOperationCompletionDeadline resource 1) }
  have hcreate : Step World.empty ⟨created, [], []⟩ :=
    .create id "create" "" 0 (.other "") created (by intro p hp; cases hp) rfl (by decide) rfl
  have hlist : Step ⟨created, [], []⟩ ⟨created, [[target]], []⟩ :=
    .delete id ⟨1, resource⟩ "delete" "" 1 (.other "") List.mem_cons_self
      (by intro p hp; cases hp) rfl (by decide)
  have hexecute : Step ⟨created, [[target]], []⟩ ⟨deleted, [[target]], []⟩ :=
    .executeDelete [target] deleted List.mem_cons_self rfl
  have hrun : ReflTransGen Step World.empty ⟨deleted, [[target]], []⟩ :=
    .tail (.tail (.single hcreate) hlist) hexecute
  exact ⟨_, hrun, rfl, rfl, (documents_agree hrun).1⟩

end AroHcp.Operations
