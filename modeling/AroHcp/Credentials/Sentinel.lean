import AroHcp.Credentials.Controllers
import AroHcp.Lib.Tagged

/-! The mark that a running revocation leaves on its cluster. The frontend sets it together with the
operation, the dispatch goes on only while the mark names the operation, and the poll removes it at
the end. Every change of the mark is written down here with the program that made it. -/

namespace AroHcp.Credentials

open DocStore Operations Program Relation

/-! ## Runs with authors -/

def sentinel (s : Store Doc) : String :=
  (s.current .cluster).elim "" (·.doc.revokeCredentialsOperationID)

structure Change where
  author : Task
  before : String
  after : String

structure MarkedWorld where
  store : Store Doc
  /-- every change of the mark so far, the last one first -/
  changes : List Change

/-- A call of a task that is known by what it has read so far. -/
abbrev TaskCall := Tagged Task (DocCall.Reply (α := Doc))

def recordChange (author : Task) (s s' : Store Doc) (changes : List Change) : List Change :=
  if sentinel s' = sentinel s then changes else ⟨author, sentinel s, sentinel s'⟩ :: changes

def markedSem : Semantics MarkedWorld TaskCall Tagged.Reply := fun c w r w' =>
  DocCall.sem c.call w.store r w'.store ∧
    w'.changes = recordChange c.author w.store w'.store w.changes

/-- Operation names are made up afresh and not empty. -/
structure NamedTask where
  task : Task
  named : ∀ name notificationURI now, task = .revokeCredentials name notificationURI now → name ≠ ""

def NamedTask.program (id : ResourceID) (t : NamedTask) :
    Program TaskCall Tagged.Reply (Option String) :=
  tag t.task [] (t.task.program id)

/-- What else happens to the documents: a purge, or a write to the cluster that keeps the mark. -/
inductive Elsewhere : MarkedWorld → MarkedWorld → Prop
  | purge (w : MarkedWorld) (store : Store Doc) (h : Purge w.store store) :
      Elsewhere w { w with store := store }
  | cluster (w : MarkedWorld) (old : Versioned Resource) (new : Resource)
      (hold : w.store.current .cluster = some old)
      (hsame : new.revokeCredentialsOperationID = old.doc.revokeCredentialsOperationID) :
      Elsewhere w { w with store := w.store.put .cluster new }

abbrev MarkedStep (id : ResourceID) (allowed : TaskCall → MarkedWorld → Prop) :
    Pool MarkedWorld TaskCall Tagged.Reply (Option String) →
      Pool MarkedWorld TaskCall Tagged.Reply (Option String) → Prop :=
  Step markedSem (NamedTask.program id) Elsewhere allowed

def Undispatched (s : Store Doc) (name : String) : Prop :=
  ∃ v, s.current (.operation name) = some v ∧
    v.doc.request = .systemAdminCredentialRevocation ∧ v.doc.status = .accepted

/-- The operation has not ended, and its mark is on the cluster. -/
def RunningWithMark (s : Store Doc) (name : String) : Prop :=
  sentinel s = name ∧ ∃ v, s.current (.operation name) = some v ∧
    v.doc.request = .systemAdminCredentialRevocation ∧ v.doc.status.isTerminal = false

def Task.polled : Task → Option String
  | .operationRevokeCredentialsPoll name _ _ => some name
  | _ => none

/-! ## What a write may do -/

/-- What holds of the documents. -/
structure MarkInv (s : Store Doc) : Prop where
  named : ∀ name v, s.Past (.operation name) v →
    v.doc.request = .systemAdminCredentialRevocation → name ≠ ""
  undispatched : ∀ name, Undispatched s name → sentinel s = name

/-- A revocation that has been dispatched, or has ended, stays so. -/
def Dispatched (s : Store Doc) (name : String) : Prop :=
  ∃ v, s.current (.operation name) = some v ∧ v.doc.status ≠ .accepted

structure MarkLater (s s' : Store Doc) : Prop where
  past : ∀ k v, s.Past k v → s'.Past k v
  dispatched : ∀ name, Dispatched s name → Dispatched s' name

theorem MarkLater.refl (s : Store Doc) : MarkLater s s :=
  ⟨fun _ _ h => h, fun _ h => h⟩

theorem MarkLater.trans {s s' s'' : Store Doc} (h : MarkLater s s') (h' : MarkLater s' s'') :
    MarkLater s s'' :=
  ⟨fun k v hv => h'.past k v (h.past k v hv), fun name hd => h'.dispatched name (h.dispatched name hd)⟩

instance : Std.Refl MarkLater := ⟨MarkLater.refl⟩

instance : IsTrans (Store Doc) MarkLater := ⟨fun _ _ _ => MarkLater.trans⟩

/-- A write that leaves the mark alone and takes no operation back. -/
def Harmless (s : Store Doc) : (k : DocKey) → Doc k → Prop
  | .cluster, doc => doc.revokeCredentialsOperationID = sentinel s
  | .operation name, doc =>
    (s.current (.operation name) = none ∧ doc.request ≠ .systemAdminCredentialRevocation) ∨
      ∃ v, s.current (.operation name) = some v ∧ doc.request = v.doc.request ∧
        (doc.status = .accepted → v.doc.status = .accepted)
  | .request _, _ => True
  | .revocation _, _ => True

variable {s s' : Store Doc}

@[simp]
theorem sentinel_put_cluster (s : Store Doc) (doc : Resource) :
    sentinel (s.put .cluster doc) = doc.revokeCredentialsOperationID := by
  rfl

theorem sentinel_put_of_ne (s : Store Doc) {k : DocKey} (doc : Doc k) (h : k ≠ .cluster) :
    sentinel (s.put k doc) = sentinel s := by
  unfold sentinel
  rw [Store.put_current_of_ne _ _ h.symm]

theorem sentinel_of_current {cluster : Versioned Resource} (h : s.current .cluster = some cluster) :
    sentinel s = cluster.doc.revokeCredentialsOperationID := by
  unfold sentinel
  rw [h]
  rfl

theorem Harmless.sentinel_put {k : DocKey} {doc : Doc k} (h : Harmless s k doc) :
    sentinel (s.put k doc) = sentinel s := by
  cases k with
  | cluster =>
    exact h
  | operation | request | revocation => exact sentinel_put_of_ne s _ (by simp)

theorem MarkInv.put_harmless {k : DocKey} {doc : Doc k} (hs : MarkInv s) (h : Harmless s k doc) :
    MarkInv (s.put k doc) ∧ MarkLater s (s.put k doc) := by
  refine ⟨⟨?_, ?_⟩, ⟨fun _ _ hv => hv.put _ _, ?_⟩⟩
  · intro name v hv hrequest
    rcases Store.past_put hv with hold | hnew
    · exact hs.named name v hold hrequest
    · cases hnew
      rcases h with ⟨-, hother⟩ | ⟨old, hcurrent, hsame, -⟩
      · exact absurd hrequest hother
      · exact hs.named name old (s.current_mem _ _ hcurrent) (hsame ▸ hrequest)
  · rintro name ⟨v, hv, hrequest, hstatus⟩
    rw [h.sentinel_put]
    by_cases hk : DocKey.operation name = k
    · subst hk
      rw [Store.put_current_self, Option.some_inj] at hv
      subst hv
      rcases h with ⟨-, hother⟩ | ⟨old, hcurrent, hsame, haccepted⟩
      · exact absurd hrequest hother
      · exact hs.undispatched name ⟨old, hcurrent, hsame ▸ hrequest, haccepted hstatus⟩
    · rw [Store.put_current_of_ne s doc hk] at hv
      exact hs.undispatched name ⟨v, hv, hrequest, hstatus⟩
  · rintro name ⟨v, hv, hstatus⟩
    by_cases hk : DocKey.operation name = k
    · subst hk
      refine ⟨⟨s.nextETag, doc⟩, Store.put_current_self _ _ _, ?_⟩
      rcases h with ⟨habsent, -⟩ | ⟨old, hcurrent, -, haccepted⟩
      · rw [habsent] at hv
        cases hv
      · rw [hcurrent, Option.some_inj] at hv
        subst hv
        exact fun hnew => hstatus (haccepted hnew)
    · exact ⟨v, by rwa [Store.put_current_of_ne s doc hk], hstatus⟩

/-! ## Rules -/

/-- Only the poll of an operation removes its mark. -/
structure WorldInv (w : MarkedWorld) : Prop where
  docs : MarkInv w.store
  changes : ∀ change ∈ w.changes, change.before ≠ "" →
    change.after = "" ∧ change.author.polled = some change.before

def WorldLater (w w' : MarkedWorld) : Prop :=
  MarkLater w.store w'.store

theorem WorldLater.refl (w : MarkedWorld) : WorldLater w w :=
  MarkLater.refl w.store

theorem WorldLater.trans {w w' w'' : MarkedWorld} (h : WorldLater w w') (h' : WorldLater w' w'') :
    WorldLater w w'' :=
  MarkLater.trans h h'

instance : Std.Refl WorldLater := ⟨WorldLater.refl⟩

instance : IsTrans MarkedWorld WorldLater := ⟨fun _ _ _ => WorldLater.trans⟩

def confirmed (c : TaskCall) (w : MarkedWorld) : Bool :=
  match c with
  | ⟨.operationRevokeCredentialsPoll name _ _, seen, .get .cluster⟩ =>
    match seen.getLast? with
    | some ⟨.cached .cluster, some cluster⟩ =>
      cluster.doc.revokeCredentialsOperationID ≠ name || sentinel w.store = name
    | _ => true
  | _ => true

section Rules

variable {β : Type} {t : Task} {seen : List (Sigma (DocCall.Reply (α := Doc)))} {w : MarkedWorld}
  {Q : β → MarkedWorld → Prop}

abbrev MarkSafe (t : Task) (seen : List (Sigma (DocCall.Reply (α := Doc)))) (p : Db Doc β)
    (Q : β → MarkedWorld → Prop) (w : MarkedWorld) : Prop :=
  wp markedSem (fun c w => confirmed c w = true) WorldInv WorldLater (tag t seen p) Q w

theorem eq_of_store_eq {c : DocCall Doc} {r : c.Reply} {w' : MarkedWorld}
    (hstore : w'.store = w.store) (h : markedSem ⟨t, seen, c⟩ w r w') : w' = w := by
  have hchanges := h.2
  unfold recordChange at hchanges
  cases w
  cases w'
  simp_all

/-- What is known of the documents is kept, and if a mark that is set is changed it is the poll's
removal of its own. -/
def Marks (t : Task) (s s' : Store Doc) : Prop :=
  (MarkInv s' ∧ MarkLater s s') ∧ (sentinel s' = sentinel s ∨
    (sentinel s ≠ "" → sentinel s' = "" ∧ t.polled = some (sentinel s)))

section

variable (hinv : WorldInv w)

include hinv

theorem safe_get {k : DocKey} {f : Option (Versioned (Doc k)) → Db Doc β}
    (h : ∀ w', confirmed ⟨t, seen, .get k⟩ w = true → WorldLater w w' → WorldInv w' →
      ∀ seen', MarkSafe t seen' (f (w.store.current k)) Q w') :
    MarkSafe t seen (Db.get k >>= f) Q w := by
  refine wp_tag_read_bind (c := DocCall.get k) hinv
    (fun r w' hsem => eq_of_store_eq hsem.1.2 hsem) ?_
  rintro r ⟨⟨rfl, -⟩, -⟩ hconfirmed w' hlater hinv'
  exact h w' hconfirmed hlater hinv' _

theorem safe_scan {f : List (Sigma fun k => Versioned (Doc k)) → Db Doc β}
    (h : ∀ w', WorldLater w w' → WorldInv w' → ∀ seen', MarkSafe t seen' (f w.store.scan) Q w') :
    MarkSafe t seen (Db.scan >>= f) Q w := by
  refine wp_tag_read_bind (c := DocCall.scan) hinv
    (fun r w' hsem => eq_of_store_eq hsem.1.2 hsem) ?_
  rintro r ⟨⟨rfl, -⟩, -⟩ - w' hlater hinv'
  exact h w' hlater hinv' _

theorem safe_cached {k : DocKey} {f : Option (Versioned (Doc k)) → Db Doc β}
    (h : ∀ r w', WorldLater w w' → WorldInv w' →
      MarkSafe t (seen ++ [⟨.cached k, r⟩]) (f r) Q w') :
    MarkSafe t seen (Db.cached k >>= f) Q w := by
  refine wp_tag_read_bind (c := DocCall.cached k) hinv
    (fun r w' hsem => eq_of_store_eq hsem.1.2 hsem) ?_
  intro r _ _ w' hlater hinv'
  exact h r w' hlater hinv'

theorem WorldInv.commit {writes : List (Write Doc)} {accepted : Bool} {w' : MarkedWorld}
    (hsem : markedSem ⟨t, seen, .commit writes⟩ w accepted w')
    (haccept : ∀ s', w.store.commit writes = some s' → Marks t w.store s') :
    WorldInv w' ∧ WorldLater w w' := by
  rcases hsem.1 with ⟨-, hdone⟩ | ⟨-, -, hstore⟩
  · obtain ⟨⟨hdocs, hlater⟩, hmark⟩ := haccept _ hdone
    refine ⟨⟨hdocs, ?_⟩, hlater⟩
    intro change hchange hbefore
    rw [hsem.2] at hchange
    unfold recordChange at hchange
    split_ifs at hchange with hsame
    · exact hinv.changes change hchange hbefore
    · rcases List.mem_cons.mp hchange with rfl | hold
      · exact (hmark.resolve_left hsame) hbefore
      · exact hinv.changes change hold hbefore
  · rw [eq_of_store_eq hstore hsem]
    exact ⟨hinv, MarkLater.refl _⟩

theorem safe_commit {writes : List (Write Doc)} {f : Bool → Db Doc β}
    (haccept : ∀ s', w.store.commit writes = some s' → Marks t w.store s')
    (h : ∀ accepted w', WorldLater w w' → WorldInv w' →
      ∀ seen', MarkSafe t seen' (f accepted) Q w') :
    MarkSafe t seen (Db.commit writes >>= f) Q w := by
  refine wp_tag_perform_bind (c := DocCall.commit writes) ?_
  intro accepted w' hsem _
  have hafter := hinv.commit hsem haccept
  exact ⟨hafter, fun w'' hlater hinv'' => h accepted w'' (hafter.2.trans hlater) hinv'' _⟩

end

/-- The call makes only writes that are harmless whatever is stored. -/
def Aside : DocCall Doc → Prop
  | .commit writes => ∀ w ∈ writes, ∀ s, Harmless s w.key w.doc
  | _ => True

theorem safe_aside {p : Db Doc β} (hp : Only Aside p) (hinv : WorldInv w) :
    MarkSafe t seen p (fun _ _ => True) w := by
  refine hp.keeps_tag ?_ hinv
  intro c seen w r w' haside hsem hinv
  cases c with
  | commit writes =>
    refine hinv.commit hsem ?_
    intro s' hcommit
    refine Store.commit_induction (motive := Marks _ w.store) hcommit
      ⟨⟨hinv.docs, MarkLater.refl _⟩, .inl rfl⟩ ?_
    rintro write hwrite s ⟨⟨hs, hlater⟩, hmark⟩
    have hharmless := haside write hwrite s
    obtain ⟨hput, hput'⟩ := hs.put_harmless hharmless
    rw [← hharmless.sentinel_put] at hmark
    exact ⟨⟨hput, hlater.trans hput'⟩, hmark⟩
  | get k | cached k | scan =>
    rw [eq_of_store_eq hsem.1.2 hsem]
    exact ⟨hinv, MarkLater.refl _⟩

theorem safe_replace {k : DocKey} {v : Versioned (Doc k)} {doc : Doc k} {f : Bool → Db Doc β}
    (hinv : WorldInv w) (hpast : w.store.Past k v)
    (hwrite : w.store.current k = some v → Harmless w.store k doc)
    (h : ∀ accepted w', WorldLater w w' → WorldInv w' →
      ∀ seen', MarkSafe t seen' (f accepted) Q w') :
    MarkSafe t seen (Db.replace k v.etag doc >>= f) Q w := by
  refine safe_commit hinv ?_ h
  intro s' hcommit
  obtain ⟨hcurrent, hdone⟩ := hpast.commit_replace_eq_some hcommit
  cases hdone
  have hharmless := hwrite hcurrent
  exact ⟨hinv.docs.put_harmless hharmless, .inl hharmless.sentinel_put⟩

theorem safe_replace_return {k : DocKey} {v : Versioned (Doc k)} {doc : Doc k} {b : β}
    (hinv : WorldInv w) (hpast : w.store.Past k v)
    (hwrite : w.store.current k = some v → Harmless w.store k doc) :
    MarkSafe t seen (Db.replace k v.etag doc >>= fun _ => return b) (fun _ _ => True) w :=
  safe_replace hinv hpast hwrite fun _ _ _ _ _ => trivial

theorem safe_create {k : DocKey} {doc : Doc k} {f : Bool → Db Doc β} (hinv : WorldInv w)
    (hwrite : w.store.current k = none → Harmless w.store k doc)
    (h : ∀ accepted w', WorldLater w w' → WorldInv w' →
      ∀ seen', MarkSafe t seen' (f accepted) Q w') :
    MarkSafe t seen (Db.create k doc >>= f) Q w := by
  refine safe_commit hinv ?_ h
  intro s' hcommit
  obtain ⟨hcurrent, hdone⟩ := Store.commit_create_eq_some hcommit
  cases hdone
  have hharmless := hwrite hcurrent
  exact ⟨hinv.docs.put_harmless hharmless, .inl hharmless.sentinel_put⟩

theorem safe_getRevocation {name : String}
    {f : Option (Versioned SystemAdminCredentialRevocation) → Db Doc β} (hinv : WorldInv w)
    (h : ∀ w', WorldLater w w' → WorldInv w' → ∀ seen', MarkSafe t seen'
      (f ((w.store.current (.revocation name)).filter (!·.doc.softDeleted))) Q w') :
    MarkSafe t seen (getRevocation name >>= f) Q w := by
  exact safe_get (k := .revocation name) hinv fun w' _ => h w'

end Rules

/-! ## Every task -/

section Tasks

variable {t : Task} {seen : List (Sigma (DocCall.Reply (α := Doc)))} {w : MarkedWorld}

theorem requestAdminCredential_marks (hinv : WorldInv w) (id : ResourceID)
    (name certificateSigningRequest notificationURI : String) (now : Time) :
    MarkSafe t seen (requestAdminCredential id name certificateSigningRequest notificationURI now)
      (fun _ _ => True) w := by
  unfold requestAdminCredential
  split_ifs with hcsr
  · trivial
  refine safe_get hinv ?_
  intro w1 _ _ hinv1 seen₁
  cases w.store.current .cluster with
  | none => trivial
  | some cluster =>
    dsimp only
    split
    · trivial
    refine safe_create hinv1 ?_ fun _ _ _ _ _ => trivial
    intro habsent
    exact .inl ⟨habsent, by simp [newOperation]⟩

theorem cancel_marks {s s' : Store Doc} {active : List (String × Versioned Operation)} {now : Time}
    (hs : MarkInv s)
    (hactive : ∀ e ∈ active, s.Past (.operation e.1) e.2)
    (hcommit : s.commit (active.map fun (name, operation) =>
      Write.replace (DocKey.operation name) operation.etag (cancelOperation operation.doc now)) =
        some s') :
    (MarkInv s' ∧ MarkLater s s') ∧ s'.current .cluster = s.current .cluster := by
  induction active generalizing s with
  | nil =>
    cases hcommit
    exact ⟨⟨hs, MarkLater.refl _⟩, rfl⟩
  | cons e active ih =>
    obtain ⟨hcurrent, hrest⟩ := (hactive e List.mem_cons_self).commit_replace_eq_some hcommit
    have hharmless : Harmless s (.operation e.1) (cancelOperation e.2.doc now) :=
      .inr ⟨e.2, hcurrent, rfl, by rintro ⟨⟩⟩
    obtain ⟨hinv, hlater⟩ := hs.put_harmless hharmless
    obtain ⟨⟨hinv', hlater'⟩, hcluster⟩ := ih hinv
      (fun e' he' => (hactive e' (List.mem_cons_of_mem e he')).put _ _) hrest
    refine ⟨⟨hinv', hlater.trans hlater'⟩, hcluster.trans ?_⟩
    rw [Store.put_current_of_ne _ _ (by simp)]

variable {name : String}

/-- An accepted revocation replaces an empty mark by its own. -/
theorem revokeTransaction_marks {s s' : Store Doc} {id : ResourceID} {cluster : Versioned Resource}
    {active : List (String × Versioned Operation)} {notificationURI : String} {now : Time}
    (hs : MarkInv s) (hname : name ≠ "") (hcluster : s.Past .cluster cluster)
    (hfree : cluster.doc.revokeCredentialsOperationID = "")
    (hactive : ∀ e ∈ active, s.Past (.operation e.1) e.2)
    (hcommit : s.commit (revokeTransaction id cluster active name notificationURI now) = some s') :
    (MarkInv s' ∧ MarkLater s s') ∧ sentinel s = "" := by
  obtain ⟨canceled, hcancel, hrest⟩ := Store.commit_append_eq_some hcommit
  obtain ⟨⟨hs1, hlater1⟩, hsame⟩ := cancel_marks hs hactive hcancel
  obtain ⟨habsent, hrest⟩ := Store.commit_create_eq_some hrest
  obtain ⟨hcurrent, hdone⟩ := ((hlater1.past _ _ hcluster).put _ _).commit_replace_eq_some hrest
  cases hdone
  rw [Store.put_current_of_ne _ _ (by simp), hsame] at hcurrent
  have hempty : sentinel s = "" := (sentinel_of_current hcurrent).trans hfree
  have hempty1 : sentinel canceled = "" := by
    unfold sentinel at hempty ⊢
    rw [hsame]
    exact hempty
  refine ⟨⟨⟨?_, ?_⟩, ⟨fun k v hv => ((hlater1.past k v hv).put _ _).put _ _, ?_⟩⟩, hempty⟩
  · intro r v hv hrequest
    rcases Store.past_put (Store.past_put_of_ne (by simp) hv) with hold | hnew
    · exact hs1.named r v hold hrequest
    · cases hnew
      exact hname
  · rintro r ⟨v, hv, hrequest, hstatus⟩
    rw [Store.put_current_of_ne _ _ (by simp)] at hv
    by_cases hr : r = name
    · exact hr.symm
    · -- another revocation would still have its mark
      rw [Store.put_current_of_ne _ _ (by simpa using hr)] at hv
      have hmark := hs1.undispatched r ⟨v, hv, hrequest, hstatus⟩
      rw [hempty1] at hmark
      exact absurd hmark.symm (hs1.named r v (canceled.current_mem _ _ hv) hrequest)
  · intro r hr
    obtain ⟨v, hv, hstatus⟩ := hlater1.dispatched r hr
    have hne : r ≠ name := by
      rintro rfl
      rw [habsent] at hv
      cases hv
    refine ⟨v, ?_, hstatus⟩
    rw [Store.put_current_of_ne _ _ (by simp), Store.put_current_of_ne _ _ (by simpa using hne)]
    exact hv

theorem sentinel_of_clusterConflict {id : ResourceID} {request : OperationRequest} {busy : String}
    {cluster : Resource} (h : clusterConflict id request busy cluster = none) :
    cluster.revokeCredentialsOperationID = "" := by
  unfold clusterConflict at h
  rw [Option.or_eq_none_iff] at h
  by_contra hbusy
  have hsecond := h.2
  split_ifs at hsecond

theorem revokeCredentials_marks (hinv : WorldInv w) (id : ResourceID) (hname : name ≠ "")
    (notificationURI : String) (now : Time) :
    MarkSafe t seen (revokeCredentials id name notificationURI now) (fun _ _ => True) w := by
  refine safe_get hinv ?_
  intro w1 _ hlater1 hinv1 seen₁
  rcases hcluster : w.store.current .cluster with _ | cluster
  · trivial
  dsimp only
  split
  · trivial
  rename_i hconflict
  refine safe_scan hinv1 ?_
  intro w2 hlater2 hinv2 seen₂
  refine safe_commit hinv2 ?_ fun _ _ _ _ _ => trivial
  intro s' hcommit
  have hpast := hlater2.past _ _ (hlater1.past _ _ (w.store.current_mem _ _ hcluster))
  have hactive : ∀ e ∈ activeOperations w1.store.scan (revokeOptions id),
      w2.store.Past (.operation e.1) e.2 := by
    intro e he
    exact hlater2.past _ _ (w1.store.current_mem _ _
      (Store.mem_scan.mp (mem_activeOperations he).1))
  obtain ⟨hdocs, hempty⟩ := revokeTransaction_marks hinv2.docs hname hpast
    (sentinel_of_clusterConflict hconflict) hactive hcommit
  exact ⟨hdocs, .inr fun hset => absurd hempty hset⟩

/-- A stored operation that keeps its request and does not go back to accepted. -/
theorem harmless_operation {s : Store Doc} {v : Versioned Operation} {operation : Operation}
    (hcurrent : s.current (.operation name) = some v) (hsame : operation.request = v.doc.request)
    (hstatus : operation.status = .accepted → v.doc.status = .accepted) :
    Harmless s (.operation name) operation :=
  .inr ⟨v, hcurrent, hsame, hstatus⟩

theorem dispatchRequestCredential_marks (hinv : WorldInv w) (name credential : String)
    (now : Time) :
    MarkSafe t seen (dispatchRequestCredential name credential now) (fun _ _ => True) w := by
  refine safe_get hinv ?_
  intro w1 _ hlater1 hinv1 seen₁
  rcases hoperation : w.store.current (.operation name) with _ | operation
  · trivial
  have hpast := hlater1.past _ _ (w.store.current_mem _ _ hoperation)
  dsimp only
  split_ifs
  · trivial
  refine safe_cached hinv1 ?_
  rintro (_ | cluster) w2 hlater2 hinv2
  · trivial
  dsimp only
  split_ifs
  · exact safe_replace_return hinv2 (hlater2.past _ _ hpast)
      fun hcurrent => harmless_operation hcurrent rfl (by rintro ⟨⟩)
  refine safe_scan hinv2 ?_
  intro w3 hlater3 hinv3 seen₃
  have hlater13 := hlater2.trans hlater3
  split
  · exact safe_replace_return hinv3 (hlater13.past _ _ hpast)
      fun hcurrent => harmless_operation hcurrent rfl fun h => h
  split
  · trivial
  split_ifs
  · trivial
  refine safe_create hinv3 (fun _ => trivial) ?_
  intro created w4 hlater4 hinv4 seen₄
  split_ifs
  · trivial
  · exact safe_replace_return hinv4 ((hlater13.trans hlater4).past _ _ hpast)
      fun hcurrent => harmless_operation hcurrent rfl fun h => h

theorem dispatchRevokeCredentials_marks (hinv : WorldInv w) (name : String) (now : Time) :
    MarkSafe t seen (dispatchRevokeCredentials name now) (fun _ _ => True) w := by
  refine safe_get hinv ?_
  intro w1 _ hlater1 hinv1 seen₁
  rcases hoperation : w.store.current (.operation name) with _ | operation
  · trivial
  have hpast := hlater1.past _ _ (w.store.current_mem _ _ hoperation)
  dsimp only
  split_ifs
  · trivial
  refine safe_cached hinv1 ?_
  rintro (_ | cluster) w2 hlater2 hinv2
  · trivial
  dsimp only
  split_ifs
  · trivial
  refine safe_getRevocation hinv2 ?_
  intro w3 hlater3 hinv3 seen₃
  have hlater13 := hlater2.trans hlater3
  split
  · exact safe_replace_return hinv3 (hlater13.past _ _ hpast)
      fun hcurrent => harmless_operation hcurrent rfl (by rintro ⟨⟩)
  refine safe_create hinv3 (fun _ => trivial) ?_
  intro _ w4 hlater4 hinv4 seen₄
  exact safe_replace_return hinv4 ((hlater13.trans hlater4).past _ _ hpast)
    fun hcurrent => harmless_operation hcurrent rfl (by rintro ⟨⟩)

theorem aside_replace {k : DocKey} {etag : Nat} {doc : Doc k} {β : Type} {f : Bool → Db Doc β}
    (h : ∀ s, Harmless s k doc) (hf : ∀ accepted, Only Aside (f accepted)) :
    Only Aside (Db.replace k etag doc >>= f) :=
  only_perform_bind (List.forall_mem_singleton.mpr h) hf

theorem aside_markRequests (now : Time)
    (requests : List (String × Versioned SystemAdminCredentialRequest)) :
    Only Aside (markRequests now requests) := by
  induction requests with
  | nil => exact only_ret _
  | cons e requests ih =>
    unfold markRequests
    split_ifs
    · exact ih
    · refine aside_replace (fun _ => trivial) ?_
      intro accepted
      split_ifs
      · exact only_ret _
      · exact ih

theorem aside_getRevocation (name : String) : Only Aside (getRevocation name) :=
  only_perform_bind trivial fun _ => only_ret _

theorem aside_revocationMarkRequests (revocationName : String) (now : Time) :
    Only Aside (revocationMarkRequests revocationName now) := by
  refine Only.bind (aside_getRevocation _) ?_
  rintro (_ | revocation)
  · exact only_ret _
  dsimp only
  split_ifs
  · exact only_ret _
  refine only_perform_bind trivial fun docs => Only.bind (aside_markRequests _ _) ?_
  rintro (_ | failure)
  · exact aside_replace (fun _ => trivial) fun _ => only_ret _
  · exact only_ret _

theorem aside_completeRevocation (revocationName : String) (now : Time)
    (revocation : Versioned SystemAdminCredentialRevocation) :
    Only Aside (completeRevocation revocationName now revocation) := by
  unfold completeRevocation
  split_ifs
  · exact aside_replace (fun _ => trivial) fun _ => only_ret _
  · exact only_ret _

theorem aside_revocationCompletion (revocationName : String) (mirrored : Option Bool) (now : Time) :
    Only Aside (revocationCompletion revocationName mirrored now) := by
  refine Only.bind (aside_getRevocation _) ?_
  rintro (_ | revocation)
  · exact only_ret _
  dsimp only
  split_ifs
  · exact only_ret _
  · exact aside_completeRevocation _ _ _
  · exact only_ret _
  · refine aside_replace (fun _ => trivial) ?_
    intro accepted
    split_ifs
    · exact only_ret _
    · exact aside_completeRevocation _ _ _

theorem aside_revocationDeletion (revocationName : String) (tornDown : Bool) :
    Only Aside (revocationDeletion revocationName tornDown) := by
  refine Only.bind (aside_getRevocation _) ?_
  rintro (_ | revocation)
  · exact only_ret _
  dsimp only
  split_ifs
  · exact only_ret _
  refine only_perform_bind trivial ?_
  rintro (_ | item)
  · exact only_ret _
  dsimp only
  split_ifs
  · exact only_ret _
  · exact aside_replace (fun _ => trivial) fun _ => only_ret _

theorem notifyOperationOwner_marks (hinv : WorldInv w) (name notificationURI : String)
    (newStatus : ProvisioningState) (notified : Bool) :
    MarkSafe t seen (notifyOperationOwner name notificationURI newStatus notified)
      (fun _ _ => True) w := by
  unfold notifyOperationOwner
  split_ifs
  · refine safe_get hinv ?_
    intro w1 _ hlater1 hinv1 seen₁
    cases hoperation : w.store.current (.operation name) with
    | none => trivial
    | some operation =>
      exact safe_replace_return hinv1 (hlater1.past _ _ (w.store.current_mem _ _ hoperation))
        fun hcurrent => harmless_operation hcurrent rfl fun h => h
  · trivial

theorem statusTransaction_marks {s s' : Store Doc} {operation : Versioned Operation}
    {cluster : Option (Versioned Resource)} {newStatus : ProvisioningState} {now : Time}
    (hs : MarkInv s) (hnew : newStatus ≠ .accepted) (hpast : s.Past (.operation name) operation)
    (hcluster : ∀ c, cluster = some c → s.Past .cluster c)
    (hcommit : s.commit (statusTransaction name operation cluster newStatus now) = some s') :
    (MarkInv s' ∧ MarkLater s s') ∧ sentinel s' = sentinel s := by
  obtain ⟨hcurrent, hrest⟩ := hpast.commit_replace_eq_some hcommit
  have hharmless : Harmless s (.operation name)
      { operation.doc with lastTransitionTime := now, status := newStatus } :=
    harmless_operation hcurrent rfl fun haccepted => absurd haccepted hnew
  have hfirst := hs.put_harmless hharmless
  split_ifs at hrest with hexternal
  · cases hrest
    exact ⟨hfirst, hharmless.sentinel_put⟩
  · cases hupdate : getClusterForUpdate cluster name newStatus with
    | none =>
      rw [hupdate] at hrest
      cases hrest
      exact ⟨hfirst, hharmless.sentinel_put⟩
    | some r =>
      obtain ⟨c, hc, hetag, hsame⟩ := getClusterForUpdate_eq_some hupdate
      rw [hupdate, Option.toList_some, List.map_singleton, hetag] at hrest
      obtain ⟨hcurrent', hdone⟩ := ((hcluster c hc).put _ _).commit_replace_eq_some hrest
      cases hdone
      have hharmless' : Harmless (s.put (.operation name) _) .cluster r.doc :=
        hsame.trans (sentinel_of_current hcurrent').symm
      obtain ⟨hinv, hlater⟩ := hfirst.1.put_harmless hharmless'
      exact ⟨⟨hinv, hfirst.2.trans hlater⟩,
        hharmless'.sentinel_put.trans hharmless.sentinel_put⟩

theorem updateOperationStatus_marks {operation : Versioned Operation} (hinv : WorldInv w)
    (hpast : w.store.Past (.operation name) operation) {newStatus : ProvisioningState}
    (hnew : newStatus ≠ .accepted) (notified : Bool) (now : Time) :
    MarkSafe t seen (updateOperationStatus name operation newStatus notified now)
      (fun _ _ => True) w := by
  unfold updateOperationStatus
  split_ifs
  · trivial
  refine safe_get hinv ?_
  intro w1 _ hlater1 hinv1 seen₁
  have hpast1 := hlater1.past _ _ hpast
  refine safe_commit hinv1 ?_ ?_
  · intro s' hcommit
    obtain ⟨hdocs, hsame⟩ := statusTransaction_marks hinv1.docs hnew hpast1
      (fun c hc => hlater1.past _ _ (w.store.current_mem _ _ hc)) hcommit
    exact ⟨hdocs, .inl hsame⟩
  · intro accepted w2 _ hinv2 seen₂
    split_ifs
    · trivial
    · exact notifyOperationOwner_marks hinv2 ..

theorem status_of_pollShouldProcess {operation : Operation}
    (h : ¬pollShouldProcess operation = false) : operation.status ≠ .accepted := by
  rw [Bool.not_eq_false] at h
  simp only [pollShouldProcess, Bool.and_eq_true, decide_eq_true_eq] at h
  rw [h.2]
  simp

theorem sentinel_of_confirmed {notified : Bool} {now : Time}
    {cachedCluster : Option (Versioned Resource)}
    (hcached : cachedCluster.any (·.doc.revokeCredentialsOperationID = name) = true)
    (h : confirmed ⟨.operationRevokeCredentialsPoll name notified now,
      seen ++ [⟨.cached .cluster, cachedCluster⟩], .get .cluster⟩ w = true) :
    sentinel w.store = name := by
  cases cachedCluster with
  | none => cases hcached
  | some cached =>
    simp only [Option.any_some, decide_eq_true_eq] at hcached
    simpa [confirmed, hcached] using h

theorem clear_marks {s : Store Doc} {new : Resource} (hs : MarkInv s) (hname : sentinel s = name)
    (hdispatched : Dispatched s name) :
    MarkInv (s.put .cluster new) ∧ MarkLater s (s.put .cluster new) := by
  refine ⟨⟨?_, ?_⟩, ⟨fun _ _ hv => hv.put _ _, ?_⟩⟩
  · intro r v hv hrequest
    exact hs.named r v (Store.past_put_of_ne (by simp) hv) hrequest
  · rintro r ⟨v, hv, hrequest, hstatus⟩
    rw [Store.put_current_of_ne _ _ (by simp)] at hv
    -- the mark names this operation, which has been dispatched
    have hr := hs.undispatched r ⟨v, hv, hrequest, hstatus⟩
    obtain ⟨c, hc, hc'⟩ := hdispatched
    rw [← hname, hr, hv, Option.some_inj] at hc
    rw [← hc] at hc'
    exact absurd hstatus hc'
  · rintro r ⟨v, hv, hstatus⟩
    exact ⟨v, by rwa [Store.put_current_of_ne _ _ (by simp)], hstatus⟩

theorem operationRevokeCredentialsPoll_marks (hinv : WorldInv w) (name : String) (notified : Bool)
    (now : Time) :
    MarkSafe (.operationRevokeCredentialsPoll name notified now) seen
      (operationRevokeCredentialsPoll name notified now) (fun _ _ => True) w := by
  refine safe_get hinv ?_
  intro w1 _ hlater1 hinv1 seen₁
  rcases hoperation : w.store.current (.operation name) with _ | operation
  · trivial
  dsimp only
  split_ifs with hprocess
  · trivial
  have hpast := hlater1.past _ _ (w.store.current_mem _ _ hoperation)
  have hdispatched : Dispatched w1.store name :=
    hlater1.dispatched name ⟨operation, hoperation, status_of_pollShouldProcess hprocess⟩
  split
  · trivial
  refine safe_getRevocation hinv1 ?_
  intro w2 hlater2 hinv2 seen₂
  split
  · trivial
  refine safe_cached hinv2 ?_
  intro cachedCluster w3 hlater3 hinv3
  have hlater13 := hlater2.trans hlater3
  split_ifs with hcached
  · refine safe_get hinv3 ?_
    intro w4 hconfirmed hlater4 hinv4 seen₄
    have hmark : sentinel w3.store = name := sentinel_of_confirmed hcached hconfirmed
    rcases hcluster : w3.store.current .cluster with _ | cluster
    · trivial
    have hpast4 := hlater4.past _ _ (w3.store.current_mem _ _ hcluster)
    have hown : cluster.doc.revokeCredentialsOperationID = name :=
      (sentinel_of_current hcluster).symm.trans hmark
    have hdispatched4 := (hlater13.trans hlater4).dispatched name hdispatched
    refine safe_commit hinv4 ?_ ?_
    · intro s' hcommit
      obtain ⟨hcurrent, hdone⟩ := hpast4.commit_replace_eq_some hcommit
      cases hdone
      have hname : sentinel w4.store = name := (sentinel_of_current hcurrent).trans hown
      refine ⟨clear_marks hinv4.docs hname hdispatched4, .inr fun _ => ⟨?_, ?_⟩⟩
      · rw [sentinel_put_cluster]
      · rw [hname]
        rfl
    · intro accepted w5 hlater5 hinv5 seen₅
      split_ifs
      · trivial
      · have hlater15 := (hlater13.trans hlater4).trans hlater5
        exact updateOperationStatus_marks hinv5 (hlater15.past _ _ hpast) (by simp) notified now
  · exact updateOperationStatus_marks hinv3 (hlater13.past _ _ hpast) (by simp) notified now

theorem Task.marks (id : ResourceID) (t : NamedTask) (w : MarkedWorld) (hinv : WorldInv w) :
    wp markedSem (fun c w => confirmed c w = true) WorldInv WorldLater (t.program id)
      (fun _ _ => True) w := by
  obtain ⟨task, hnamed⟩ := t
  cases task with
  | requestAdminCredential name csr uri now =>
    exact requestAdminCredential_marks hinv id name csr uri now
  | revokeCredentials name uri now =>
    exact revokeCredentials_marks hinv id (hnamed name uri now rfl) uri now
  | dispatchRequestCredential name credential now =>
    exact dispatchRequestCredential_marks hinv name credential now
  | dispatchRevokeCredentials name now => exact dispatchRevokeCredentials_marks hinv name now
  | revocationMarkRequests revocationName now =>
    exact safe_aside (aside_revocationMarkRequests revocationName now) hinv
  | revocationCompletion revocationName mirrored now =>
    exact safe_aside (aside_revocationCompletion revocationName mirrored now) hinv
  | revocationDeletion revocationName tornDown =>
    exact safe_aside (aside_revocationDeletion revocationName tornDown) hinv
  | operationRevokeCredentialsPoll name notified now =>
    exact operationRevokeCredentialsPoll_marks hinv name notified now

end Tasks

/-! ## Every run -/

theorem elsewhere_marks {w w' : MarkedWorld} (hinv : WorldInv w) (h : Elsewhere w w') :
    WorldInv w' ∧ WorldLater w w' := by
  cases h with
  | purge store hpurge =>
    obtain ⟨name, v, hcurrent, hdeleted⟩ := hpurge
    refine ⟨⟨⟨hinv.docs.named, ?_⟩, hinv.changes⟩, ⟨fun _ _ hv => hv, ?_⟩⟩
    · rintro r ⟨c, hc, hrequest, hstatus⟩
      unfold sentinel
      exact hinv.docs.undispatched r ⟨c, hc, hrequest, hstatus⟩
    · rintro r ⟨c, hc, hstatus⟩
      refine ⟨c, ?_, hstatus⟩
      exact hc
  | cluster old new hold hkeep =>
    have hharmless : Harmless w.store .cluster new := hkeep.trans (sentinel_of_current hold).symm
    obtain ⟨hdocs, hlater⟩ := hinv.docs.put_harmless hharmless
    exact ⟨⟨hdocs, hinv.changes⟩, hlater⟩

def initialWorld (cluster : Resource) : MarkedWorld :=
  ⟨Store.empty.put .cluster cluster, []⟩

theorem worldInv_initialWorld (cluster : Resource) : WorldInv (initialWorld cluster) := by
  have hnone : ∀ name v, ¬ (initialWorld cluster).store.Past (.operation name) v := by
    intro name v hv
    rcases Store.past_put hv with hold | hnew
    · cases hold
    · cases hnew
  refine ⟨⟨?_, ?_⟩, ?_⟩
  · intro name v hv
    exact absurd hv (hnone name v)
  · rintro name ⟨v, hv, -⟩
    exact absurd (Store.current_mem _ _ _ hv) (hnone name v)
  · intro change hchange
    cases hchange

/-- In every run in which a poll that has found its operation on the cached cluster also finds it on
the stored one, a mark is removed by the poll of its own operation only, and an accepted revocation
keeps its mark until it is dispatched. -/
theorem mark_cleared_by_own_poll {id : ResourceID} {cluster : Resource}
    {pool : Pool MarkedWorld TaskCall Tagged.Reply (Option String)}
    (hrun : ReflTransGen (MarkedStep id fun c w => confirmed c w = true)
      ⟨initialWorld cluster, []⟩ pool) :
    (∀ change ∈ pool.state.changes, change.before ≠ "" → change.after = "" →
      change.author.polled = some change.before) ∧
    (∀ name name', RunningWithMark pool.state.store name →
      RunningWithMark pool.state.store name' → name = name') ∧
    ∀ name, Undispatched pool.state.store name → sentinel pool.state.store = name := by
  have hready : Ready markedSem (fun c w => confirmed c w = true) WorldInv WorldLater pool :=
    (Ready.run (Task.marks id)
      (fun _ _ => elsewhere_marks) (.initial (worldInv_initialWorld cluster)) hrun).1
  refine ⟨fun change hchange hbefore _ => (hready.1.changes change hchange hbefore).2, ?_,
    hready.1.docs.undispatched⟩
  rintro name name' ⟨hmark, -⟩ ⟨hmark', -⟩
  exact hmark.symm.trans hmark'

/-! ## Executions -/

def markedAnswer (c : TaskCall) (place : Option Nat) (w : MarkedWorld) :
    Option (c.Reply × MarkedWorld) :=
  (DocCall.answer c.call place w.store).map fun (r, s) =>
    (r, ⟨s, recordChange c.author w.store s w.changes⟩)

theorem markedSem_of_answer (c : TaskCall) (place : Option Nat) (w : MarkedWorld) (r : c.Reply)
    (w' : MarkedWorld) (h : markedAnswer c place w = some (r, w')) : markedSem c w r w' := by
  obtain ⟨⟨r', s⟩, hanswer, heq⟩ := Option.map_eq_some_iff.mp h
  cases heq
  exact ⟨DocCall.sem_of_answer hanswer, rfl⟩

def availableCluster : Resource where
  activeOperationID := ""
  provisioningState := .succeeded
  clusterServiceID := some "id"

def firstRevocation : List (Choice NamedTask (Option Nat)) :=
  Choice.program 0 ⟨.revokeCredentials "a" "" 0, by rintro _ _ _ ⟨⟩; decide⟩ [none, none, none] ++
  Choice.program 1 ⟨.dispatchRevokeCredentials "a" 1, nofun⟩ [none, some 0, none, none, none] ++
  Choice.program 2 ⟨.revocationMarkRequests "a" 2, nofun⟩ [none, none, none] ++
  Choice.program 3 ⟨.revocationCompletion "a" (some true) 3, nofun⟩ [none, none, none] ++
  Choice.program 4 ⟨.revocationCompletion "a" (some true) 4, nofun⟩ [none, none] ++
  Choice.program 5 ⟨.revocationDeletion "a" true, nofun⟩ [none, none, none] ++
  Choice.program 6 ⟨.operationRevokeCredentialsPoll "a" false 5, nofun⟩
    [none, none, some 6, none, none]

/-- The poll of "a" stops before it completes its operation. The revocation "b" is accepted, and the
poll of "a" runs again with the cluster as it was cached long before. -/
def secondPoll : List (Choice NamedTask (Option Nat)) :=
  firstRevocation ++
  Choice.program 7 ⟨.revokeCredentials "b" "" 6, by rintro _ _ _ ⟨⟩; decide⟩ [none, none, none] ++
  Choice.program 8 ⟨.operationRevokeCredentialsPoll "a" false 7, nofun⟩
    [none, none, some 9, none, none]

/-- The mark of "b" is removed by the poll of "a" although "b" has not been dispatched. -/
theorem secondPoll_clears_other_mark :
    ∃ pool : Pool MarkedWorld TaskCall Tagged.Reply (Option String),
      ReflTransGen (MarkedStep (.cluster "group" "cluster") fun _ _ => True)
        ⟨initialWorld availableCluster, []⟩ pool ∧
      (∃ change ∈ pool.state.changes, change.before = "b" ∧ change.after = "" ∧
        change.author.polled = some "a") ∧
      Undispatched pool.state.store "b" ∧ sentinel pool.state.store = "" := by
  have hexecute : (execute markedAnswer (NamedTask.program (.cluster "group" "cluster"))
      (fun _ _ => true) ⟨initialWorld availableCluster, []⟩ secondPoll).any (fun pool =>
        (pool.state.changes.any fun change =>
          change.before = "b" && change.after = "" && change.author.polled = some "a") &&
        ((pool.state.store.current (.operation "b")).any fun v =>
          v.doc.request = .systemAdminCredentialRevocation && v.doc.status = .accepted) &&
        sentinel pool.state.store = "") = true := by
    decide +kernel
  obtain ⟨pool, hpool, hcheck⟩ := (Option.any_eq_true _ _).mp hexecute
  simp only [Bool.and_eq_true, List.any_eq_true, Option.any_eq_true, decide_eq_true_eq] at hcheck
  obtain ⟨⟨⟨change, hchange, ⟨hbefore, hafter⟩, hauthor⟩, v, hv, hrequest, hstatus⟩, hmark⟩ := hcheck
  have hrun := run_of_execute Elsewhere markedSem_of_answer hpool
  exact ⟨pool, run_mono (fun _ _ _ => trivial) hrun, ⟨change, hchange, hbefore, hafter, hauthor⟩,
    ⟨v, hv, hrequest, hstatus⟩, hmark⟩

/-- The same two revocations when the second poll reads the cluster as it is. -/
def secondPollFresh : List (Choice NamedTask (Option Nat)) :=
  firstRevocation ++
  Choice.program 7 ⟨.revokeCredentials "b" "" 6, by rintro _ _ _ ⟨⟩; decide⟩ [none, none, none] ++
  Choice.program 8 ⟨.operationRevokeCredentialsPoll "a" false 7, nofun⟩
    [none, none, some 0, none, none]

theorem mark_cleared_by_own_poll_fresh :
    ∃ pool : Pool MarkedWorld TaskCall Tagged.Reply (Option String),
      pool.state.changes.length = 3 ∧ Undispatched pool.state.store "b" ∧
      sentinel pool.state.store = "b" ∧
      ∀ change ∈ pool.state.changes, change.before ≠ "" → change.after = "" →
        change.author.polled = some change.before := by
  have hexecute : (execute markedAnswer (NamedTask.program (.cluster "group" "cluster"))
      confirmed ⟨initialWorld availableCluster, []⟩ secondPollFresh).any (fun pool =>
        pool.state.changes.length = 3 &&
        (pool.state.store.current (.operation "b")).any fun v =>
          v.doc.request = .systemAdminCredentialRevocation && v.doc.status = .accepted) = true := by
    decide +kernel
  obtain ⟨pool, hpool, hcheck⟩ := (Option.any_eq_true _ _).mp hexecute
  simp only [Bool.and_eq_true, Option.any_eq_true, decide_eq_true_eq] at hcheck
  obtain ⟨hchanges, v, hv, hrequest, hstatus⟩ := hcheck
  have hundispatched : Undispatched pool.state.store "b" := ⟨v, hv, hrequest, hstatus⟩
  obtain ⟨hcleared, -, hmark⟩ :=
    mark_cleared_by_own_poll (run_of_execute Elsewhere markedSem_of_answer hpool)
  exact ⟨pool, hchanges, hundispatched, hmark "b" hundispatched, hcleared⟩

end AroHcp.Credentials
