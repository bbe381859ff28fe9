import AroHcp.Operations.DeleteOperation

/-! What the completion of a delete operation may remove. Nothing it reads or writes tells the
cluster it was started for from a later one of the same name, so it relies on the frontend: as long
as no create request is accepted while the operation is active, it removes only what belonged to the
deleted cluster. -/

namespace AroHcp.Operations.DeleteOperation

open DocStore Program Workers Relation

/-- Only a finished operation leaves room for later clusters, and nothing of those was removed. -/
structure Inv (w : World) : Prop where
  items : ∀ k item, w.store.Past (.item k) item → item.doc.createdBy ≤ w.accepted
  active : w.Active → w.accepted = 0
  deletions : ∀ deletion ∈ w.deletions, deletion.2 = 0

/-- The database forgets nothing it ever held. -/
def Grows (w w' : World) : Prop :=
  ∀ k v, w.store.Past k v → w'.store.Past k v

/-- What the controller counts on while others act. -/
structure Later (w w' : World) : Prop where
  past : Grows w w'
  active : w.Active → w'.Active

theorem Later.refl (w : World) : Later w w :=
  ⟨fun _ _ h => h, fun h => h⟩

variable {w : World}

theorem Later.trans {w' w'' : World} (h : Later w w') (h' : Later w' w'') : Later w w'' :=
  ⟨fun k v hv => h'.past k v (h.past k v hv), fun hactive => h'.active (h.active hactive)⟩

theorem Start.inv (h : Start w) : Inv w where
  items k item hitem := by
    rw [h.items k item hitem]
    exact Nat.zero_le _
  active _ := h.accepted
  deletions deletion hdeletion := by
    rw [h.deletions] at hdeletion
    cases hdeletion

/-! ## Writes -/

theorem active_put_item {k : ItemKey} {item : Item (Content k)} {accepted : Nat}
    {deletions : List (ItemKey × Nat)} :
    World.Active ⟨w.store.put (.item k) item, accepted, deletions⟩ ↔ w.Active := by
  unfold World.Active
  rw [Store.put_current_of_ne _ _ (by simp)]

section

variable (hinv : Inv w)

include hinv

theorem items_put_item {k : ItemKey} {new : Item (Content k)} {accepted : Nat}
    (hle : w.accepted ≤ accepted) (hnew : new.createdBy ≤ accepted) (k' : ItemKey)
    (item : Versioned (Item (Content k'))) (h : (w.store.put (.item k) new).Past (.item k') item) :
    item.doc.createdBy ≤ accepted := by
  rcases Store.past_put h with hold | hput
  · exact (hinv.items k' item hold).trans hle
  · cases hput
    exact hnew

theorem Inv.put_item {k : ItemKey} {new : Item (Content k)} (hnew : new.createdBy ≤ w.accepted) :
    Inv { w with store := w.store.put (.item k) new } ∧
      Later w { w with store := w.store.put (.item k) new } :=
  ⟨⟨items_put_item hinv (Nat.le_refl _) hnew, fun hactive => hinv.active (active_put_item.mp hactive),
    hinv.deletions⟩, ⟨fun _ _ hv => hv.put _ _, active_put_item.mpr⟩⟩

theorem items_put_operation {operation : Operation} (k : ItemKey)
    (item : Versioned (Item (Content k)))
    (h : (w.store.put .operation operation).Past (.item k) item) :
    item.doc.createdBy ≤ w.accepted :=
  hinv.items k item (Store.past_put_of_ne (by simp) h)

theorem inv_replaceItem {w' : World} {k : ItemKey} {old : Versioned (Item (Content k))}
    {time : Time} (hactive : w.Active) (hold : w.store.Past (.item k) old)
    (h : w.replaceItem k old.etag { old.doc with deletionTimestamp := some time } = some w') :
    Inv w' ∧ Later w w' := by
  obtain ⟨store, hreplace, rfl⟩ := Option.map_eq_some_iff.mp h
  obtain ⟨-, rfl⟩ := hold.replace_eq_some hreplace
  have hle := hinv.items k old hold
  refine ⟨⟨items_put_item hinv (Nat.le_refl _) hle, fun _ => hinv.active hactive, ?_⟩,
    ⟨fun _ _ hv => hv.put _ _, active_put_item.mpr⟩⟩
  intro deletion hdeletion
  rcases List.mem_cons.mp hdeletion with rfl | hbefore
  · rw [hinv.active hactive] at hle
    exact Nat.le_zero.mp hle
  · exact hinv.deletions deletion hbefore

/-- A write of the operation from a copy that is not finished, or to the same status. -/
theorem inv_replaceOperation {w' : World} {old : Versioned Operation} {new : Operation}
    (hold : w.store.Past .operation old)
    (hstatus : old.doc.status.isTerminal = false ∨ new.status = old.doc.status)
    (h : w.replaceOperation old.etag new = some w') : Inv w' ∧ Grows w w' := by
  obtain ⟨store, hreplace, rfl⟩ := Option.map_eq_some_iff.mp h
  obtain ⟨hcurrent, rfl⟩ := hold.replace_eq_some hreplace
  refine ⟨⟨items_put_operation hinv, ?_, hinv.deletions⟩, fun _ _ hv => hv.put _ _⟩
  rintro ⟨operation, hoperation, hrunning⟩
  apply hinv.active
  refine ⟨old, hcurrent, ?_⟩
  rcases hstatus with hactive | hsame
  · exact hactive
  · rw [Store.put_current_self, Option.some_inj] at hoperation
    rw [← hsame]
    rwa [← hoperation] at hrunning

/-- The transaction of a status update from a copy of the operation that is not finished. -/
theorem inv_execute {w' : World} {old : Versioned Operation} {new : Operation} {name : String}
    {curr : Option (Versioned (Item ClusterContent))} {newStatus : ProvisioningState}
    (hold : w.store.Past .operation old) (hrunning : old.doc.status.isTerminal = false)
    (hcurr : ∀ cluster, curr = some cluster → w.store.Past (.item .cluster) cluster)
    (h : w.execute (.replace .operation old.etag new :: clusterWrite name curr newStatus) =
      some w') : Inv w' ∧ Grows w w' := by
  obtain ⟨store, hcommit, rfl⟩ := Option.map_eq_some_iff.mp h
  obtain ⟨middle, hreplace, hrest⟩ := Store.commit_cons_eq_some hcommit
  obtain ⟨hcurrent, rfl⟩ := hold.replace_eq_some hreplace
  have hzero : w.accepted = 0 := hinv.active ⟨old, hcurrent, hrunning⟩
  refine ⟨⟨?_, fun _ => hzero, hinv.deletions⟩, (Store.later_commit hcommit).past⟩
  refine Store.commit_induction (motive := fun s => ∀ k item, s.Past (.item k) item →
    item.doc.createdBy ≤ w.accepted) hrest (fun k item => items_put_operation hinv k item) ?_
  intro write hwrite s hs k item hitem
  -- the write of the cluster keeps the request the document goes back to
  unfold clusterWrite at hwrite
  cases curr with
  | none => cases hwrite
  | some cluster =>
    rw [List.mem_map] at hwrite
    obtain ⟨updated, -, rfl⟩ := hwrite
    rcases Store.past_put hitem with hbefore | hnew
    · exact hs k item hbefore
    · cases hnew
      exact hinv.items .cluster cluster (hcurr cluster rfl)

end

/-! ## The others -/

theorem inv_others {accepts : World → Prop} (haccepts : ∀ w, accepts w → ¬ w.Active) {w' : World}
    (hinv : Inv w) (h : Others accepts w w') : Inv w' ∧ Later w w' := by
  cases h with
  | create content hallowed hfree =>
    refine ⟨⟨items_put_item hinv (Nat.le_succ _) (Nat.le_refl _), ?_, hinv.deletions⟩,
      ⟨fun _ _ hv => hv.put _ _, ?_⟩⟩
    · intro hactive
      exact absurd (active_put_item.mp hactive) (haccepts w hallowed)
    · exact fun hactive => active_put_item.mpr hactive
  | createChild id createdBy hcreatedBy hfree =>
    exact hinv.put_item hcreatedBy
  | write k old new hold hsame =>
    exact hinv.put_item (hsame ▸ hinv.items k old (w.store.current_mem _ _ hold))
  | purge k old hold hdeleted =>
    have hsame : World.Active { w with store := w.store.remove (.item k) } ↔ w.Active := by
      unfold World.Active
      rw [Store.remove_current_of_ne _ (by simp)]
    exact ⟨⟨hinv.items, fun hactive => hinv.active (hsame.mp hactive), hinv.deletions⟩,
      ⟨fun _ _ hv => hv, hsame.mpr⟩⟩
  | expire operation hoperation hfinished =>
    refine ⟨⟨hinv.items, ?_, hinv.deletions⟩, ⟨fun _ _ hv => hv, ?_⟩⟩
    · rintro ⟨other, hother, -⟩
      cases hother
    · rintro ⟨other, hother, hrunning⟩
      rw [hoperation, Option.some_inj] at hother
      rw [hother, hrunning] at hfinished
      cases hfinished

/-! ## The controller -/

section Controller

variable {accepts : World → Prop}

/-- The controller keeps the invariant while the others do what it counts on. -/
abbrev safe {β : Type} (accepts : World → Prop) (p : Prog β) (Q : β → World → Prop)
    (w : World) : Prop :=
  wpg (sem accepts) Inv Grows Later p Q w

variable {β : Type} {Q : β → World → Prop} {w : World}

theorem safe_read {c : Call} {f : c.Reply → Prog β} (hinv : Inv w)
    (hread : ∀ r w', sem accepts c w r w' → w' = w)
    (h : ∀ r, sem accepts c w r w → ∀ w', Later w w' → Inv w' → safe accepts (f r) Q w') :
    safe accepts (perform c >>= f) Q w :=
  wpg_read_bind hinv (Later.refl w).past hread h

theorem safe_write {c : Call} {f : c.Reply → Prog β}
    (hwrite : ∀ r w', sem accepts c w r w' → Inv w' ∧ Grows w w')
    (h : ∀ r w', sem accepts c w r w' → ∀ w'', Later w' w'' → Inv w'' → safe accepts (f r) Q w'') :
    safe accepts (perform c >>= f) Q w := by
  apply wpg_perform_bind
  intro r w' hsem
  exact ⟨hwrite r w' hsem, h r w' hsem⟩

theorem safe_bind {γ : Type} {p : Prog γ} {f : γ → Prog β} {P : γ → World → Prop} (hinv : Inv w)
    (hp : safe accepts p P w)
    (h : ∀ b w', P b w' → Inv w' → Grows w w' → safe accepts (f b) Q w') :
    safe accepts (p >>= f) Q w := by
  apply wpg_bind
  refine wpg_mono ?_ (wpg_frame (fun _ _ _ h h' k v hv => h' k v (h k v hv)) (fun _ _ h => h)
    (fun _ _ h => h.past) hinv (Later.refl w).past hp)
  rintro b w' ⟨hb, hinv', hgrows⟩
  exact h b w' hb hinv' hgrows

/-- A write that leaves nothing behind when it fails. -/
theorem inv_of_writes {w w' : World} {attempt : Option World} {r : Except Failure Unit}
    (hinv : Inv w) (hattempt : attempt = some w' → Inv w' ∧ Grows w w')
    (h : Writes attempt w r w') : Inv w' ∧ Grows w w' := by
  rcases h with hdone | ⟨-, rfl⟩
  · exact hattempt hdone
  · exact ⟨hinv, (Later.refl w').past⟩

theorem past_of_liveRead {k : Key} {r : Read (Doc k)} {v : Versioned (Doc k)}
    (h : w.store.LiveRead k r) (hr : r = .ok (some v)) : w.store.Past k v :=
  w.store.current_mem k v (h _ hr)

theorem softDeleteByCosmosID_safe (k : ItemKey) (hinv : Inv w) (hactive : w.Active) :
    safe accepts (softDeleteByCosmosID k) (fun _ w' => w'.Active) w := by
  refine safe_read (c := .readItem k) hinv (fun _ _ h => h.2) ?_
  intro r hread w1 hlater1 hinv1
  have hactive1 := hlater1.active hactive
  rcases r with e | _ | item
  · exact hactive1
  · exact hactive1
  · have hpast := hlater1.past _ _ (past_of_liveRead hread.1 rfl)
    dsimp only
    split_ifs
    · exact hactive1
    · refine safe_read (c := .now) hinv1 (fun _ _ h => h) ?_
      intro time _ w2 hlater2 hinv2
      have hactive2 := hlater2.active hactive1
      have hpast2 := hlater2.past _ _ hpast
      intro r w3 hwrite
      have hafter : Inv w3 ∧ Later w2 w3 := by
        rcases hwrite with hdone | ⟨-, rfl⟩
        · exact inv_replaceItem hinv2 hactive2 hpast2 hdone
        · exact ⟨hinv2, Later.refl w3⟩
      exact ⟨⟨hafter.1, hafter.2.past⟩,
        fun w4 hlater4 _ => hlater4.active (hafter.2.active hactive2)⟩

theorem deleteChildren_safe (children : List ListedChild) (hinv : Inv w) (hactive : w.Active) :
    safe accepts (deleteChildren children) (fun _ w' => w'.Active) w := by
  induction children generalizing w with
  | nil => exact hactive
  | cons child rest ih =>
    unfold deleteChildren
    split_ifs
    · exact ih hinv hactive
    · cases child.resourceID with
      | none => exact hactive
      | some id =>
        refine safe_bind hinv (softDeleteByCosmosID_safe (.child id) hinv hactive) ?_
        rintro (e | _) w' hactive' hinv' -
        · exact hactive'
        · exact ih hinv' hactive'

theorem notifyOperationOwner_safe (operation : Operation) (hinv : Inv w) :
    safe accepts (notifyOperationOwner operation) (fun _ _ => True) w := by
  unfold notifyOperationOwner
  split_ifs
  · refine safe_read (c := .postAsyncNotification) hinv (fun _ _ h => h) ?_
    rintro (e | _) - w1 - hinv1
    · trivial
    refine safe_read (c := .getOperation) hinv1 (fun _ _ h => h.2) ?_
    rintro (e | _ | current) hread w2 hlater2 hinv2
    · trivial
    · trivial
    have hpast := hlater2.past _ _ (past_of_liveRead hread.1 rfl)
    refine safe_write (c := .replaceOperation _ _) ?_ fun _ _ _ _ _ _ => trivial
    have hsame : ({ current.doc with notificationURI := "" } : Operation).status =
        current.doc.status := rfl
    exact fun _ _ => inv_of_writes hinv2 (inv_replaceOperation hinv2 hpast (.inr hsame))
  · trivial

theorem patchOperation_safe {operation : Versioned Operation} (newStatus : ProvisioningState)
    (newError : Option CloudErrorBody) (hinv : Inv w) (hpast : w.store.Past .operation operation)
    (hrunning : operation.doc.status.isTerminal = false) :
    safe accepts (patchOperation operation newStatus newError) (fun _ _ => True) w := by
  unfold patchOperation
  split_ifs
  · refine safe_read (c := .now) hinv (fun _ _ h => h) ?_
    intro time _ w1 hlater1 hinv1
    have hpast1 := hlater1.past _ _ hpast
    refine safe_write (c := .replaceOperation _ _) (fun _ _ =>
      inv_of_writes hinv1 (inv_replaceOperation hinv1 hpast1 (.inl hrunning))) ?_
    rintro (e | _) w2 - w3 - hinv3
    · trivial
    · exact safe_bind hinv3 (notifyOperationOwner_safe _ hinv3) fun _ _ _ _ _ => trivial
  · trivial

theorem updateOperationStatus_safe {operation : Versioned Operation} (name : String)
    (newStatus : ProvisioningState) (newError : Option CloudErrorBody) (hinv : Inv w)
    (hpast : w.store.Past .operation operation)
    (hrunning : operation.doc.status.isTerminal = false) :
    safe accepts (updateOperationStatus name operation newStatus newError)
      (fun _ _ => True) w := by
  unfold updateOperationStatus
  split_ifs
  · refine safe_read (c := .now) hinv (fun _ _ h => h) ?_
    intro time _ w1 hlater1 hinv1
    have hpast1 := hlater1.past _ _ hpast
    refine safe_read (c := .getCluster) hinv1 (fun _ _ h => h.2) ?_
    rintro (e | curr) ⟨hread, -⟩ w2 hlater2 hinv2
    · trivial
    have hpast2 := hlater2.past _ _ hpast1
    have hcurr : ∀ cluster, curr = some cluster → w2.store.Past (.item .cluster) cluster := by
      intro cluster hcluster
      have hstored : w1.cluster = some cluster := (hread curr rfl).symm.trans hcluster
      unfold World.cluster at hstored
      rw [Option.filter_eq_some_iff] at hstored
      exact hlater2.past _ _ (w1.store.current_mem _ _ hstored.1)
    refine safe_write (c := .execute _) (fun _ _ =>
      inv_of_writes hinv2 (inv_execute hinv2 hpast2 hrunning hcurr)) ?_
    rintro (e | _) w3 - w4 - hinv4
    · trivial
    · exact safe_bind hinv4 (notifyOperationOwner_safe _ hinv4) fun _ _ _ _ _ => trivial
  · trivial

/-- The completion of an active operation; the operation stays active until it is patched. -/
theorem setDeleteOperationAsCompleted_safe {operation : Versioned Operation} (hinv : Inv w)
    (hpast : w.store.Past .operation operation)
    (hrunning : operation.doc.status.isTerminal = false) (hactive : w.Active) :
    safe accepts (setDeleteOperationAsCompleted operation) (fun _ _ => True) w := by
  refine safe_bind hinv (softDeleteByCosmosID_safe .cluster hinv hactive) ?_
  rintro (e | _) w1 hactive1 hinv1 hgrows1
  · trivial
  refine safe_read (c := .listChildren) hinv1 (fun _ _ h => h.2) ?_
  rintro (e | ⟨children, iterationError⟩) - w2 hlater2 hinv2
  · trivial
  refine safe_bind hinv2 (deleteChildren_safe children hinv2 (hlater2.active hactive1)) ?_
  rintro (e | _) w3 - hinv3 hgrows3
  · trivial
  have hpast3 := hgrows3 _ _ (hlater2.past _ _ (hgrows1 _ _ hpast))
  cases iterationError with
  | some e => trivial
  | none => exact patchOperation_safe .succeeded none hinv3 hpast3 hrunning

theorem synchronizeOperation_safe (name : String) (hinv : Inv w) :
    safe accepts (synchronizeOperation name) (fun _ _ => True) w := by
  refine safe_read (c := .getOperation) hinv (fun _ _ h => h.2) ?_
  rintro (e | _ | operation) ⟨hread, -⟩ w1 hlater1 hinv1
  · trivial
  · trivial
  have hpast := hlater1.past _ _ (past_of_liveRead hread rfl)
  dsimp only
  split_ifs with hprocess
  · trivial
  have hrunning : operation.doc.status.isTerminal = false := by
    simp only [shouldProcess, Bool.not_eq_true', Bool.not_eq_false, Bool.and_eq_true] at hprocess
    exact hprocess.1.1
  have hactive : w1.Active := hlater1.active ⟨operation, hread _ rfl, hrunning⟩
  refine safe_read (c := .getCluster) hinv1 (fun _ _ h => h.2) ?_
  rintro (e | _ | cluster) - w2 hlater2 hinv2
  · trivial
  · exact setDeleteOperationAsCompleted_safe hinv2 (hlater2.past _ _ hpast) hrunning
      (hlater2.active hactive)
  refine safe_read (c := .now) hinv2 (fun _ _ h => h) ?_
  intro time _ w3 hlater3 hinv3
  have hpast3 := hlater3.past _ _ (hlater2.past _ _ hpast)
  split_ifs
  · refine safe_read (c := .buildDeletionTimeoutMessage) hinv3 (fun _ _ h => h) ?_
    intro message _ w4 hlater4 hinv4
    refine safe_bind hinv4 (updateOperationStatus_safe name .failed _ hinv4
      (hlater4.past _ _ hpast3) hrunning) ?_
    rintro (e | _) w5 - - -
    · dsimp only
      split_ifs <;> trivial
    · trivial
  · trivial
  · refine safe_read (c := .clusterServiceStatus) hinv3 (fun _ _ h => h) ?_
    rintro (message | _ | _ | ⟨newStatus, newError⟩) - w4 hlater4 hinv4
    · trivial
    · trivial
    · trivial
    · exact updateOperationStatus_safe name newStatus newError hinv4 (hlater4.past _ _ hpast3)
        hrunning

end Controller

/-! ## Whole runs -/

def guarantee : Actor → World → World → Prop
  | .controller => Grows
  | .others => Later

def rely : Actor → World → World → Prop
  | .controller => Later
  | .others => fun _ _ => True

theorem program_safe {accepts : World → Prop} (haccepts : ∀ w, accepts w → ¬ w.Active)
    (name : String) (actor : Actor) (w : World) (hinv : Inv w) :
    wpg (sem accepts) Inv (guarantee actor) (rely actor) (program name actor)
      (fun _ _ => True) w := by
  cases actor with
  | controller => exact synchronizeOperation_safe name hinv
  | others =>
    intro r w' hsem
    exact ⟨inv_others haccepts hinv hsem, fun _ _ _ => trivial⟩

/-- As long as create requests wait for the delete operation to finish, its completion soft deletes
nothing that goes back to a later create request. -/
theorem synchronizeOperation_keeps_newer {accepts : World → Prop}
    (haccepts : ∀ w, accepts w → ¬ w.Active) {name : String} {start : World} (hstart : Start start)
    {c : Config Actor World Call Call.Reply (Except Failure Unit)}
    (hrun : ReflTransGen (Workers.Step (sem accepts) (program name)) (Workers.initial start) c) :
    ∀ deletion ∈ c.state.deletions, deletion.2 = 0 := by
  refine (invariant_of_programs ?_ ?_ ?_ (program_safe haccepts name) hstart.inv hrun).deletions
  · intro actor w
    cases actor with
    | controller => exact Later.refl w
    | others => trivial
  · intro actor w w' w'' h h'
    cases actor with
    | controller => exact h.trans h'
    | others => trivial
  · intro actor actor' w w' hne h
    cases actor' with
    | controller =>
      cases actor with
      | controller => exact absurd rfl hne
      | others => exact h
    | others => trivial

/-! ## Executions -/

/-- One of the steps of the others. -/
inductive Move where
  | create (content : ClusterContent)
  | createChild (id : ChildID) (createdBy : Nat)
  | purge (k : ItemKey)

def Move.apply (may : World → Bool) (w : World) : Move → Option World
  | .create content =>
    if may w && (w.store.current (.item .cluster)).isNone then
      some { w with
        store := w.store.put (.item .cluster) ⟨w.accepted + 1, none, content⟩
        accepted := w.accepted + 1 }
    else none
  | .createChild id createdBy =>
    if createdBy ≤ w.accepted && (w.store.current (.item (.child id))).isNone then
      some { w with store := w.store.put (.item (.child id)) ⟨createdBy, none, ()⟩ }
    else none
  | .purge k =>
    if (w.store.current (.item k)).any fun item => item.doc.deletionTimestamp.isSome then
      some { w with store := w.store.remove (.item k) }
    else none

theorem Move.others_of_apply {may : World → Bool} {move : Move} {w' : World}
    (h : move.apply may w = some w') : Others (fun w => may w = true) w w' := by
  cases move with
  | create content =>
    simp only [Move.apply, Option.ite_none_right_eq_some, Bool.and_eq_true,
      Option.isNone_iff_eq_none, Option.some.injEq] at h
    obtain ⟨⟨hmay, hfree⟩, rfl⟩ := h
    exact .create w content hmay hfree
  | createChild id createdBy =>
    simp only [Move.apply, Option.ite_none_right_eq_some, Bool.and_eq_true, decide_eq_true_eq,
      Option.isNone_iff_eq_none, Option.some.injEq] at h
    obtain ⟨⟨hcreatedBy, hfree⟩, rfl⟩ := h
    exact .createChild w id createdBy hcreatedBy hfree
  | purge k =>
    simp only [Move.apply, Option.ite_none_right_eq_some, Option.any_eq_true,
      Option.some.injEq] at h
    obtain ⟨⟨item, hitem, hdeleted⟩, rfl⟩ := h
    exact .purge w k item hitem hdeleted

def World.children (w : World) : List ListedChild :=
  w.store.scan.filterMap fun
    | ⟨.item (.child id), item⟩ =>
      if item.doc.deletionTimestamp.isNone then some ⟨id.name, id.resourceType, some id⟩ else none
    | _ => none

/-- The answers of a database without failures, at time 0. -/
def answer (may : World → Bool) : (c : Call) → Option Move → World → Option (c.Reply × World)
  | .now, _, w => some (0, w)
  | .getOperation, _, w => some (.ok (w.store.current .operation), w)
  | .getCluster, _, w => some (.ok w.cluster, w)
  | .readItem k, _, w => some (.ok (w.store.current (.item k)), w)
  | .replaceItem k etag item, _, w => (w.replaceItem k etag item).map fun w' => (.ok (), w')
  | .listChildren, _, w => some (.ok (w.children, none), w)
  | .replaceOperation etag operation, _, w =>
    (w.replaceOperation etag operation).map fun w' => (.ok (), w')
  | .execute writes, _, w => (w.execute writes).map fun w' => (.ok (), w')
  | .clusterServiceStatus, _, w => some (.ready, w)
  | .buildDeletionTimeoutMessage, _, w => some ("", w)
  | .postAsyncNotification, _, w => some (.ok (), w)
  | .others, some move, w => (move.apply may w).map fun w' => ((), w')
  | .others, none, _ => none

theorem sem_of_answer {may : World → Bool} (c : Call) (hint : Option Move) (w : World)
    (r : c.Reply) (w' : World) (h : answer may c hint w = some (r, w')) :
    sem (fun w => may w = true) c w r w' := by
  cases c with
  | now | clusterServiceStatus | buildDeletionTimeoutMessage | postAsyncNotification =>
    cases h
    exact rfl
  | getOperation | readItem k =>
    cases h
    exact ⟨w.store.liveRead_current _, rfl⟩
  | getCluster =>
    cases h
    exact ⟨fun o ho => (Except.ok.inj ho).symm, rfl⟩
  | listChildren =>
    cases h
    refine ⟨?_, rfl⟩
    intro children e heq child hchild id hid
    cases heq
    obtain ⟨⟨key, item⟩, hscan, hlisted⟩ := List.mem_filterMap.mp hchild
    match key, item, hscan, hlisted with
    | .operation, _, _, hlisted => cases hlisted
    | .item .cluster, _, _, hlisted => cases hlisted
    | .item (.child listed), item, hscan, hlisted =>
      rw [Option.ite_none_right_eq_some, Option.some.injEq] at hlisted
      obtain ⟨hstored, rfl⟩ := hlisted
      cases hid
      exact ⟨item, Store.mem_scan.mp hscan, Option.isNone_iff_eq_none.mp hstored⟩
  | replaceItem k etag item | replaceOperation etag operation | execute writes =>
    obtain ⟨done, hdone, heq⟩ := Option.map_eq_some_iff.mp h
    cases heq
    exact .inl hdone
  | others =>
    cases hint with
    | none => cases h
    | some move =>
      obtain ⟨done, hdone, heq⟩ := Option.map_eq_some_iff.mp h
      cases heq
      exact Move.others_of_apply hdone

def deletedCluster : World where
  store := ((Store.empty.put Key.operation (newOperation .delete (.cluster "rg" "c") "" 0)).put
    (.item .cluster) ⟨0, some 0, ⟨⟨"op", .deleting, some 0, none, none, none, ""⟩, some 0⟩⟩).put
      (.item (.child ⟨"serviceProviderClusters", "default"⟩)) ⟨0, none, ()⟩

theorem deletedCluster_start : Start deletedCluster where
  accepted := rfl
  deletions := rfl
  items k item h := by
    rcases Store.past_put h with hrest | hnew
    · rcases Store.past_put hrest with hrest | hnew
      · rcases Store.past_put hrest with hempty | hnew
        · cases hempty
        · cases hnew
      · cases hnew
        rfl
    · cases hnew
      rfl

def newCluster : ClusterContent := ⟨⟨"create", .accepted, none, none, none, none, ""⟩, none⟩

/-- The name is free again once the controller has found the cluster gone; it then deletes the new
cluster in place of the old one. -/
def reusedName : List (Workers.Choice Actor (Option Move)) :=
  [.start .controller, .call .controller none, .call .controller none] ++
    Workers.Choice.run .others [some (.purge .cluster)] ++
    Workers.Choice.run .others [some (.create newCluster)] ++
    [.call .controller none, .call .controller none, .call .controller none]

theorem reusedName_deletes_newer : ∃ c : Config Actor World Call Call.Reply (Except Failure Unit),
    ReflTransGen (Workers.Step (sem fun _ => True) (program "op"))
      (Workers.initial deletedCluster) c ∧
      Start deletedCluster ∧ (.cluster, 1) ∈ c.state.deletions := by
  have hexec : ((Workers.execute (answer fun _ => true) (program "op")
      (Workers.initial deletedCluster) reusedName).map fun c => c.state.deletions) =
        some [(.cluster, 1)] := by
    decide +kernel
  obtain ⟨c, hc, hdeletions⟩ := Option.map_eq_some_iff.mp hexec
  have hrun := Workers.run_of_execute sem_of_answer hc
  have hall : (fun w : World => (fun _ : World => true) w = true) = fun _ => True := by
    funext w
    exact eq_true rfl
  rw [hall] at hrun
  exact ⟨c, hrun, deletedCluster_start, by simp [hdeletions]⟩

/-- The controller completes the operation, then the name is used again. -/
def waitingCreate : List (Workers.Choice Actor (Option Move)) :=
  Workers.Choice.run .controller (List.replicate 9 none) ++
    Workers.Choice.run .others [some (.purge .cluster)] ++
      Workers.Choice.run .others [some (.create newCluster)]

def finished (w : World) : Bool :=
  (w.store.current .operation).all fun operation => operation.doc.status.isTerminal

theorem synchronizeOperation_keeps_newer_waiting :
    ∃ c : Config Actor World Call Call.Reply (Except Failure Unit),
      ReflTransGen (Workers.Step (sem fun w => finished w = true) (program "op"))
        (Workers.initial deletedCluster) c ∧ c.state.accepted = 1 ∧ c.state.deletions.length = 1 ∧
        ∀ deletion ∈ c.state.deletions, deletion.2 = 0 := by
  have hexec : ((Workers.execute (answer finished) (program "op")
      (Workers.initial deletedCluster) waitingCreate).map fun c =>
        (c.state.accepted, c.state.deletions.length)) = some (1, 1) := by
    decide +kernel
  obtain ⟨c, hc, hresult⟩ := Option.map_eq_some_iff.mp hexec
  rw [Prod.mk.injEq] at hresult
  have hrun := Workers.run_of_execute sem_of_answer hc
  have hactive : ∀ w, finished w = true → ¬ w.Active := by
    rintro w hfinished ⟨operation, hoperation, hrunning⟩
    simp [finished, hoperation, hrunning] at hfinished
  exact ⟨c, hrun, hresult.1, hresult.2,
    synchronizeOperation_keeps_newer hactive deletedCluster_start hrun⟩

end AroHcp.Operations.DeleteOperation
