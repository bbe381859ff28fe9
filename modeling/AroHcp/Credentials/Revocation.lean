import AroHcp.Credentials.Coverage

/-! When a revocation covers every earlier credential request. -/

namespace AroHcp.Credentials

open DocStore Operations Program Relation

/-- The write keeps a credential tied to its request: a credential is created while its request is
running, and a revocation is accepted together with the cancellation of every running request, under
a suffix of its own. -/
def carefulWrite (s : Store Doc) (writes : List (Write Doc)) : Write Doc → Bool
  | .create (.request _) c =>
    (s.current (.operation c.operationID)).any fun v => !v.doc.status.isTerminal
  | .create (.operation name) operation =>
    operation.request ≠ .systemAdminCredentialRevocation ||
      (s.scan.all fun
        | ⟨.operation q, v⟩ =>
          v.doc.request ≠ .systemAdminCredentialRequest || v.doc.status.isTerminal ||
            writes.any (·.key = .operation q)
        | _ => true) &&
      s.history.all fun
        | ⟨.operation r, v⟩ =>
          v.doc.request ≠ .systemAdminCredentialRevocation ||
            revokeOpSuffix r ≠ revokeOpSuffix name
        | _ => true
  | _ => true

def careful : DocCall Doc → Store Doc → Bool
  | .commit writes, s => writes.all (carefulWrite s writes)
  | _, _ => true

variable {β : Type} {s s' : Store Doc} {Q : β → Store Doc → Prop}

abbrev Safe (p : Db Doc β) (Q : β → Store Doc → Prop) (s : Store Doc) : Prop :=
  wp DocCall.sem (fun c s => careful c s = true) Inv Rely p Q s

/-! ## Frontend -/

theorem requestAdminCredential_safe (hs : Inv s) (id : ResourceID)
    (name certificateSigningRequest notificationURI : String) (now : Time) :
    Safe (requestAdminCredential id name certificateSigningRequest notificationURI now)
      (fun _ _ => True) s := by
  unfold requestAdminCredential
  split_ifs with hcsr
  · trivial
  refine Db.wp_get hs ?_
  intro s1 _ hs1
  rcases s.current .cluster with _ | cluster
  · trivial
  dsimp only
  split
  · trivial
  refine Db.wp_create hs1 ?_ fun _ _ _ _ => trivial
  intro _ habsent
  refine ⟨hs1.put (.inl ?_), fun _ _ _ => trivial⟩
  refine ⟨habsent, rfl, rfl, ?_, ?_⟩
  · intro hrequest
    cases hrequest
  · intro hrequest
    cases hrequest

/-- Cancelling requests leaves them ended and touches no other operation. -/
theorem cancel_requests {active : List (String × Versioned Operation)} {now : Time} (hs : Inv s)
    (hactive : ∀ e ∈ active, s.Past (.operation e.1) e.2 ∧
      e.2.doc.request = .systemAdminCredentialRequest)
    (hcommit : s.commit (active.map fun (name, op) =>
      Write.replace (DocKey.operation name) op.etag (cancelOperation op.doc now)) =
        some s') :
    (Inv s' ∧ Rely s s') ∧ (∀ r, IsRevocation s' r → IsRevocation s r) ∧
      ∀ q c, s'.current (.operation q) = some c → c.doc.status.isTerminal = true ∨
        s.current (.operation q) = some c ∧ ∀ e ∈ active, e.1 ≠ q := by
  induction active generalizing s with
  | nil =>
    cases hcommit
    refine ⟨⟨hs, Rely.refl _⟩, fun _ h => h, ?_⟩
    intro q c hc
    refine .inr ⟨hc, ?_⟩
    intro e he
    cases he
  | cons e active ih =>
    obtain ⟨hpast, hrequest⟩ := hactive e List.mem_cons_self
    obtain ⟨hcurrent, hrest⟩ := hpast.commit_replace_eq_some hcommit
    have hnot : (cancelOperation e.2.doc now).request ≠ .systemAdminCredentialRevocation := by
      rw [show (cancelOperation e.2.doc now).request = e.2.doc.request from rfl, hrequest]
      decide
    have hok : Ok s (.operation e.1) (cancelOperation e.2.doc now) :=
      .inr ⟨e.2, hcurrent, rfl, fun _ => rfl, fun h => absurd h hnot, fun h => absurd h hnot⟩
    obtain ⟨hinv, hrely⟩ := hs.put hok
    obtain ⟨⟨hinv', hrely'⟩, hrevocations, hothers⟩ := ih hinv (fun e' he' => by
      obtain ⟨hpast', hrequest'⟩ := hactive e' (List.mem_cons_of_mem e he')
      exact ⟨hpast'.put _ _, hrequest'⟩) hrest
    refine ⟨⟨hinv', hrely.trans hrely'⟩, ?_, ?_⟩
    · intro r hr
      rcases (hrevocations r hr).of_put hok with hold | ⟨op, heq, -, hrevocation⟩
      · exact hold
      · cases heq
        exact absurd hrevocation hnot
    · intro q c hc
      rcases hothers q c hc with hended | ⟨hc', hne⟩
      · exact .inl hended
      · by_cases hq : DocKey.operation q = .operation e.1
        · obtain rfl := DocKey.operation.inj hq
          rw [Store.put_current_self, Option.some.injEq] at hc'
          rw [← hc']
          exact .inl rfl
        · rw [Store.put_current_of_ne s _ hq] at hc'
          refine .inr ⟨hc', ?_⟩
          intro e' he'
          rcases List.mem_cons.mp he' with rfl | htail
          · rintro rfl
            exact hq rfl
          · exact hne e' htail

variable {name : String} {op : Operation}

/-- What a careful commit of a revocation knows about the running requests and the suffixes. -/
theorem careful_revoke {writes : List (Write Doc)} (hcareful : careful (.commit writes) s = true)
    (hmem : Write.create (DocKey.operation name) op ∈ writes)
    (hrequest : op.request = .systemAdminCredentialRevocation) :
    (∀ q c, s.current (.operation q) = some c → c.doc.request = .systemAdminCredentialRequest →
      c.doc.status.isTerminal = false → ∃ w ∈ writes, w.key = .operation q) ∧
      ∀ r, IsRevocation s r → revokeOpSuffix r ≠ revokeOpSuffix name := by
  have hwrite := List.all_eq_true.mp hcareful _ hmem
  rw [carefulWrite, Bool.or_eq_true, Bool.and_eq_true, List.all_eq_true, List.all_eq_true] at hwrite
  rcases hwrite with hother | ⟨hscan, hsuffix⟩
  · rw [hrequest] at hother
    simp at hother
  · constructor
    · intro q c hc hrequest' hrunning
      have hq := hscan ⟨.operation q, c⟩ (Store.mem_scan.mpr hc)
      simpa [hrequest', hrunning] using hq
    · rintro r ⟨v, hv, hrequest'⟩
      have hr := hsuffix ⟨.operation r, v⟩ hv
      simpa [hrequest'] using hr

theorem revokeTransaction_ok {id : ResourceID} {cluster : Versioned Resource}
    {active : List (String × Versioned Operation)} {notificationURI : String} {now : Time}
    (hs : Inv s) (hcluster : s.Past .cluster cluster)
    (hactive : ∀ e ∈ active, s.Past (.operation e.1) e.2 ∧
      e.2.doc.request = .systemAdminCredentialRequest)
    (hcareful : careful (.commit (revokeTransaction id cluster active name notificationURI now)) s =
      true)
    (hcommit : s.commit (revokeTransaction id cluster active name notificationURI now) = some s') :
    Inv s' ∧ Rely s s' := by
  obtain ⟨hrunning, hsuffix⟩ := careful_revoke hcareful
    (List.mem_append_right _ List.mem_cons_self) rfl
  obtain ⟨t, hcancel, hrest⟩ := Store.commit_append_eq_some hcommit
  obtain ⟨⟨ht, hst⟩, hrevocations, hothers⟩ := cancel_requests hs hactive hcancel
  obtain ⟨habsent, hrest⟩ := Store.commit_create_eq_some hrest
  have hnew : NewOperation t name
      (newOperation .systemAdminCredentialRevocation id notificationURI now) := by
    refine ⟨habsent, rfl, rfl, ?_, ?_⟩
    · intro _ q c hc hrequest
      rcases hothers q c hc with hended | ⟨hc', hne⟩
      · exact hended
      · -- a request that still runs is none of the writes' keys
        by_contra hrunning'
        obtain ⟨w, hw, hkey⟩ := hrunning q c hc' hrequest (Bool.eq_false_of_not_eq_true hrunning')
        rcases List.mem_append.mp hw with hcanceled | hw'
        · obtain ⟨e, he, rfl⟩ := List.mem_map.mp hcanceled
          exact hne e he (DocKey.operation.inj hkey)
        · rcases List.mem_pair.mp hw' with rfl | rfl
          · rw [← DocKey.operation.inj hkey, habsent] at hc
            cases hc
          · cases hkey
    · intro _ r hr
      exact hsuffix r (hrevocations r hr)
  obtain ⟨hu, htu⟩ := ht.put (k := .operation name) (.inl hnew)
  have hcluster' := htu.grows.past _ _ (hst.grows.past _ _ hcluster)
  obtain ⟨-, hdone⟩ := hcluster'.commit_replace_eq_some hrest
  cases hdone
  obtain ⟨hv, huv⟩ := hu.put (k := .cluster) trivial
  exact ⟨hv, (hst.trans htu).trans huv⟩

theorem revokeCredentials_safe (hs : Inv s) (id : ResourceID) (name notificationURI : String)
    (now : Time) :
    Safe (revokeCredentials id name notificationURI now) (fun _ _ => True) s := by
  refine Db.wp_get hs ?_
  intro s1 hs1 hinv1
  rcases hcluster : s.current .cluster with _ | cluster
  · trivial
  dsimp only
  split
  · trivial
  refine Db.wp_scan hinv1 ?_
  intro s2 hs2 hinv2
  refine Db.wp_commit hinv2 ?_ fun _ _ _ _ => trivial
  intro s3 hcareful hcommit
  refine ⟨revokeTransaction_ok hinv2 ?_ ?_ hcareful hcommit, fun _ _ _ => trivial⟩
  · exact (hs1.trans hs2).grows.past _ _ (s.current_mem _ _ hcluster)
  · intro e he
    obtain ⟨hscan, hselects⟩ := mem_activeOperations he
    refine ⟨hs2.grows.past _ _ (s1.current_mem _ _ (Store.mem_scan.mp hscan)), ?_⟩
    simp only [ListActiveOperationDocsOptions.selects, revokeOptions, Bool.and_eq_true,
      Option.all_some, decide_eq_true_eq] at hselects
    exact hselects.1.2

/-! ## Dispatch -/

/-- A stored operation that is no revocation may move on in any way that keeps its request. -/
theorem nextOperation_of_request {v : Versioned Operation}
    (hcurrent : s.current (.operation name) = some v)
    (hrequest : v.doc.request = .systemAdminCredentialRequest)
    (hsame : op.request = v.doc.request)
    (hended : v.doc.status.isTerminal = true → op.status.isTerminal = true) :
    NextOperation s name v op where
  current := hcurrent
  request := hsame
  ended := hended
  recorded hrevocation := by
    rw [hsame, hrequest] at hrevocation
    cases hrevocation
  succeeded hrevocation := by
    rw [hsame, hrequest] at hrevocation
    cases hrevocation

theorem replaceOperation_safe {v : Versioned Operation} {b : β} (hs : Inv s)
    (hpast : s.Past (.operation name) v)
    (hnext : s.current (.operation name) = some v → NextOperation s name v op) :
    Safe (Db.replace (DocKey.operation name) v.etag op >>= fun _ => return b) (fun _ _ => True) s := by
  refine Db.wp_replace hs hpast ?_ fun _ _ _ => trivial
  intro hcurrent
  exact ⟨hs.put (.inr ⟨v, hnext hcurrent⟩), fun _ _ _ => trivial⟩

theorem dispatchRequestShouldProcess_eq_true (h : ¬dispatchRequestShouldProcess op = false) :
    op.request = .systemAdminCredentialRequest := by
  rw [Bool.not_eq_false] at h
  simp only [dispatchRequestShouldProcess, Bool.and_eq_true, decide_eq_true_eq] at h
  exact h.1.2

theorem dispatchRequestCredential_safe (hs : Inv s) (name credential : String) (now : Time) :
    Safe (dispatchRequestCredential name credential now) (fun _ _ => True) s := by
  refine Db.wp_get hs ?_
  intro s1 hs1 hinv1
  rcases hoperation : s.current (.operation name) with _ | op
  · trivial
  dsimp only
  split_ifs with hprocess
  · trivial
  have hrequest := dispatchRequestShouldProcess_eq_true hprocess
  have hpast := hs1.grows.past _ _ (s.current_mem _ _ hoperation)
  refine Db.wp_cached hinv1 ?_
  intro cluster _ s2 hs2 hinv2
  have hpast := hs2.grows.past _ _ hpast
  rcases cluster with _ | cluster
  · trivial
  dsimp only
  split_ifs with hrevoke
  · exact replaceOperation_safe hinv2 hpast fun hcurrent =>
      nextOperation_of_request hcurrent hrequest rfl fun _ => rfl
  refine Db.wp_scan hinv2 ?_
  intro s3 hs3 hinv3
  have hpast := hs3.grows.past _ _ hpast
  split
  · exact replaceOperation_safe hinv3 hpast fun hcurrent =>
      nextOperation_of_request hcurrent hrequest rfl id
  split
  · trivial
  split_ifs with hcsr
  · trivial
  refine Db.wp_create hinv3 ?_ ?_
  · intro hcareful _
    -- the request of the credential runs, which is what the careful step checks
    have hwrite := List.all_eq_true.mp hcareful _ List.mem_cons_self
    obtain ⟨v, hv, hrunning⟩ := (Option.any_eq_true _ _).mp hwrite
    obtain ⟨c, hc, hsame, -⟩ := hinv3.stored name op hpast
    rw [hv, Option.some.injEq] at hc
    subst hc
    refine ⟨hinv3.put (k := .request credential) (.inl ⟨v, hv, hsame.trans hrequest,
      by simpa using hrunning⟩), ?_⟩
    intro s4 hs4 hinv4
    exact replaceOperation_safe hinv4 (hs4.grows.past _ _ (hpast.put _ _)) fun hcurrent =>
      nextOperation_of_request hcurrent hrequest rfl id
  · intro _ s4 _ _
    trivial

theorem getRevocation_filter {v : Versioned SystemAdminCredentialRevocation}
    (h : (s.current (.revocation name)).filter (fun r => !r.doc.softDeleted) = some v) :
    s.current (.revocation name) = some v ∧ v.doc.softDeleted = false := by
  obtain ⟨hcurrent, hlive⟩ := Option.filter_eq_some_iff.mp h
  exact ⟨hcurrent, by simpa using hlive⟩

theorem wp_getRevocation {f : Option (Versioned SystemAdminCredentialRevocation) → Db Doc β}
    (hs : Inv s) (h : ∀ s', Rely s s' → Inv s' →
      Safe (f ((s.current (.revocation name)).filter fun r => !r.doc.softDeleted)) Q s') :
    Safe (getRevocation name >>= f) Q s :=
  Db.wp_get (k := DocKey.revocation name) hs h

theorem dispatchRevokeShouldProcess_eq_true (h : ¬dispatchRevokeShouldProcess op = false) :
    op.request = .systemAdminCredentialRevocation ∧ op.status = .accepted := by
  rw [Bool.not_eq_false] at h
  simp only [dispatchRevokeShouldProcess, Bool.and_eq_true, decide_eq_true_eq] at h
  exact ⟨h.1.2, h.2⟩

theorem dispatchRevokeCredentials_safe (hs : Inv s) (name : String) (now : Time) :
    Safe (dispatchRevokeCredentials name now) (fun _ _ => True) s := by
  refine Db.wp_get hs ?_
  intro s1 hs1 hinv1
  rcases hoperation : s.current (.operation name) with _ | op
  · trivial
  dsimp only
  split_ifs with hprocess
  · trivial
  obtain ⟨hrequest, hstatus⟩ := dispatchRevokeShouldProcess_eq_true hprocess
  have hpast := hs1.grows.past _ _ (s.current_mem _ _ hoperation)
  refine Db.wp_cached hinv1 ?_
  intro cluster _ s2 hs2 hinv2
  have hpast := hs2.grows.past _ _ hpast
  rcases cluster with _ | cluster
  · trivial
  dsimp only
  split_ifs with hsentinel
  · trivial
  -- the operation may be dispatched once there has been a revocation document
  have hdispatch : ∀ t : Store Doc, Inv t → t.Past (.operation name) op →
      (∃ u, t.Past (.revocation (revokeOpSuffix name)) u) →
      Safe (do
        let _ ← Db.replace (DocKey.operation name) op.etag
          (dispatchedRevocation op.doc name now)
        return (none : Option String)) (fun _ _ => True) t := by
    intro t ht hpast hexists
    refine replaceOperation_safe ht hpast fun hcurrent => ⟨hcurrent, rfl, ?_, ?_, ?_⟩
    · intro hended
      rw [hstatus] at hended
      cases hended
    · intro _ n hn
      cases hn
      exact ⟨rfl, hexists⟩
    · intro _ hsucceeded
      cases hsucceeded
  refine wp_getRevocation hinv2 ?_
  intro s3 hs3 hinv3
  have hpast := hs3.grows.past _ _ hpast
  split
  · rename_i revocation hrevocation
    obtain ⟨hcurrent, -⟩ := getRevocation_filter hrevocation
    exact hdispatch s3 hinv3 hpast
      ⟨revocation, hs3.grows.past _ _ (s2.current_mem _ _ hcurrent)⟩
  · refine Db.wp_create hinv3 ?_ ?_
    · intro _ _
      have hok : Ok s3 (.revocation (revokeOpSuffix name))
          { operationID := name, revokeOpSuffix := revokeOpSuffix name } := by
        refine ⟨⟨rfl, ⟨op, hpast, hrequest⟩, ?_, ?_⟩, ?_⟩ <;> intro h <;> cases h
      refine ⟨hinv3.put hok, ?_⟩
      intro s4 hs4 hinv4
      exact hdispatch s4 hinv4 (hs4.grows.past _ _ (hpast.put _ _))
        ⟨_, hs4.grows.past _ _ (Store.put_past ..)⟩
    · rintro ⟨v, hv⟩ s4 hs4 hinv4
      exact hdispatch s4 hinv4 (hs4.grows.past _ _ hpast)
        ⟨v, hs4.grows.past _ _ (s3.current_mem _ _ hv)⟩

/-! ## Revocation -/

/-- The loop invariant of the marking: whatever is not yet marked is still to come. -/
theorem markRequests_safe {r : String} (now : Time)
    (todo : List (String × Versioned SystemAdminCredentialRequest)) (hs : Inv s)
    (hr : IsRevocation s r) (htodo : ∀ e ∈ todo, s.Past (.request e.1) e.2)
    (hrest : ∀ name c, s.current (.request name) = some c →
      AcceptedBefore s c.doc.operationID r → c.doc.deletionTimestamp = none → (name, c) ∈ todo) :
    Safe (markRequests now todo) (fun failure s => failure = none → Covered s r) s := by
  induction todo generalizing s with
  | nil =>
    intro _ name c hc hbefore
    by_contra hmarked
    have hmem := hrest name c hc hbefore (Option.not_isSome_iff_eq_none.mp hmarked)
    cases hmem
  | cons e todo ih =>
    obtain ⟨name, request⟩ := e
    unfold markRequests
    split_ifs with hmarked
    · refine ih hs hr (fun e he => htodo e (List.mem_cons_of_mem _ he)) ?_
      intro name' c hc hbefore hunmarked
      rcases List.mem_cons.mp (hrest name' c hc hbefore hunmarked) with heq | hmem
      · cases heq
        rw [hunmarked] at hmarked
        cases hmarked
      · exact hmem
    · refine Db.wp_replace hs (htodo _ List.mem_cons_self) ?_ ?_
      · intro hcurrent
        have hok : Ok s (.request name) { request.doc with deletionTimestamp := some now } :=
          .inr ⟨request, hcurrent, rfl, rfl⟩
        obtain ⟨hinv, hrely⟩ := hs.put hok
        refine ⟨⟨hinv, hrely⟩, ?_⟩
        intro s1 hs1 hinv1
        have hr' := hr.mono hrely.grows
        refine ih hinv1 (hr'.mono hs1.grows) ?_ ?_
        · intro e he
          exact (hrely.trans hs1).grows.past _ _ (htodo e (List.mem_cons_of_mem _ he))
        · intro name' c hc hbefore hunmarked
          have hc' := hs1.unmarked r hr' name' c hc hbefore hunmarked
          have hbefore' := (acceptedBefore_iff hs1.grows hr').mp hbefore
          by_cases hname : DocKey.request name' = .request name
          · cases hname
            rw [Store.put_current_self, Option.some.injEq] at hc'
            rw [← hc'] at hunmarked
            cases hunmarked
          · rw [Store.put_current_of_ne s _ hname] at hc'
            have hmem := hrest name' c hc' ((acceptedBefore_iff hrely.grows hr).mp hbefore') hunmarked
            rcases List.mem_cons.mp hmem with heq | hmem
            · cases heq
              exact absurd rfl hname
            · exact hmem
      · intro s1 _ _ hnone
        cases hnone

/-- A revocation may be rewritten as long as what it says stays true. -/
theorem replaceRevocation_safe {v : Versioned SystemAdminCredentialRevocation}
    {revocation : SystemAdminCredentialRevocation} {f : Bool → Db Doc β} (hs : Inv s)
    (hpast : s.Past (.revocation name) v) (hsame : revocation.operationID = v.doc.operationID)
    (hlive : revocation.softDeleted = v.doc.softDeleted) (hnot : v.doc.softDeleted = false)
    (hdeleted : revocation.deletionTimestamp.isSome = true → revocation.isMarked = true)
    (hmarked : revocation.isMarked = true → Covered s v.doc.operationID)
    (hnext : ∀ accepted s', Rely s s' → Inv s' → Safe (f accepted) Q s') :
    Safe (Db.replace (DocKey.revocation name) v.etag revocation >>= f) Q s := by
  have hsound := hs.sound name v hpast
  refine Db.wp_replace hs hpast ?_ (hnext false)
  intro _
  have hok : Ok s (.revocation name) revocation := by
    refine ⟨⟨?_, ?_, hdeleted, ?_⟩, ?_⟩
    · rw [hsame]
      exact hsound.name_eq
    · rw [hsame]
      exact hsound.operation
    · rw [hsame]
      exact hmarked
    · rw [hlive, hnot]
      intro h
      cases h
  obtain ⟨hinv, hrely⟩ := hs.put hok
  exact ⟨⟨hinv, hrely⟩, fun s' hs' hinv' => hnext true s' (hrely.trans hs') hinv'⟩

theorem revocationMarkRequests_safe (hs : Inv s) (revocationName : String) (now : Time) :
    Safe (revocationMarkRequests revocationName now) (fun _ _ => True) s := by
  refine wp_getRevocation hs ?_
  intro s1 hs1 hinv1
  split
  · trivial
  rename_i revocation hrevocation
  obtain ⟨hcurrent, hlive⟩ := getRevocation_filter hrevocation
  split_ifs with hdone
  · trivial
  rw [Bool.or_eq_true, not_or] at hdone
  have hpast := hs1.grows.past _ _ (s.current_mem _ _ hcurrent)
  refine Db.wp_scan hinv1 ?_
  intro s2 hs2 hinv2
  have hr := (hinv1.sound _ _ hpast).operation
  have hpast := hs2.grows.past _ _ hpast
  have hmark := markRequests_safe now (credentialRequests s1.scan) hinv2
    (hr.mono hs2.grows) (by
      intro e he
      exact hs2.grows.past _ _ (s1.current_mem _ _ (Store.mem_scan.mp
        (mem_credentialRequests.mp he)))) (by
      intro name c hc hbefore hunmarked
      have hc' := hs2.unmarked _ hr name c hc hbefore hunmarked
      exact mem_credentialRequests.mpr (Store.mem_scan.mpr hc'))
  refine wp_seq hinv2 hmark ?_
  intro failure s3 hcovered hs3 hinv3
  cases failure with
  | some failure => trivial
  | none =>
    refine replaceRevocation_safe hinv3 (hs3.grows.past _ _ hpast) rfl rfl hlive ?_ ?_
      fun _ _ _ _ => trivial
    · intro hdeleted
      exact absurd hdeleted hdone.1
    · intro _
      exact hcovered rfl

theorem isMarked_withCertificatesRevoked (revocation : SystemAdminCredentialRevocation) :
    (withCertificatesRevoked revocation).isMarked = revocation.isMarked := by
  unfold SystemAdminCredentialRevocation.isMarked withCertificatesRevoked
  rw [isStatusConditionTrue_set, if_neg (by decide)]

section

variable (hs : Inv s)

include hs

theorem completeRevocation_safe {revocationName : String} {now : Time} {etag : Nat}
    {old revocation : SystemAdminCredentialRevocation}
    (hpast : s.Past (.revocation revocationName) ⟨etag, old⟩)
    (hsame : revocation.operationID = old.operationID)
    (hlive : revocation.softDeleted = old.softDeleted) (hnot : old.softDeleted = false)
    (hmarked : revocation.isMarked = old.isMarked) :
    Safe (completeRevocation revocationName now ⟨etag, revocation⟩) (fun _ _ => True) s := by
  unfold completeRevocation
  split_ifs with hcomplete
  · have hkept : isStatusConditionTrue (setStatusCondition
        ⟨.complete, true, "Complete", "Revocation is complete and ready for teardown"⟩
        revocation.conditions) .credentialsMarkedForDeletion = old.isMarked := by
      rw [isStatusConditionTrue_set, if_neg (by decide)]
      exact hmarked
    rw [Bool.and_eq_true] at hcomplete
    refine replaceRevocation_safe (v := ⟨etag, old⟩) hs hpast hsame hlive hnot ?_ ?_
      fun _ _ _ _ => trivial
    · intro _
      exact hkept.trans (hmarked.symm.trans hcomplete.2)
    · intro h
      exact (hs.sound _ _ hpast).marked (hkept.symm.trans h)
  · trivial

theorem revocationCompletion_safe (revocationName : String) (mirrored : Option Bool) (now : Time) :
    Safe (revocationCompletion revocationName mirrored now) (fun _ _ => True) s := by
  refine wp_getRevocation hs ?_
  intro s1 hs1 hinv1
  split
  · trivial
  rename_i revocation hrevocation
  obtain ⟨hcurrent, hlive⟩ := getRevocation_filter hrevocation
  have hpast := hs1.grows.past _ _ (s.current_mem _ _ hcurrent)
  split_ifs with hdeleted hrevoked hmirrored
  · trivial
  · exact completeRevocation_safe hinv1 hpast rfl rfl hlive rfl
  · trivial
  · refine replaceRevocation_safe hinv1 hpast rfl rfl hlive ?_ ?_ ?_
    · intro h
      exact absurd h hdeleted
    · rw [isMarked_withCertificatesRevoked]
      exact (hinv1.sound _ _ hpast).marked
    · intro accepted s2 hs2 hinv2
      split_ifs with haccepted
      · trivial
      · exact completeRevocation_safe hinv2 (hs2.grows.past _ _ hpast) rfl rfl hlive
          (isMarked_withCertificatesRevoked _)

theorem revocationDeletion_safe (revocationName : String) (tornDown : Bool) :
    Safe (revocationDeletion revocationName tornDown) (fun _ _ => True) s := by
  refine wp_getRevocation hs ?_
  intro s1 hs1 hinv1
  split
  · trivial
  rename_i revocation hrevocation
  obtain ⟨hcurrent, -⟩ := getRevocation_filter hrevocation
  have hpast := hs1.grows.past _ _ (s.current_mem _ _ hcurrent)
  split_ifs with hdone
  · trivial
  have hmarked : revocation.doc.deletionTimestamp.isSome = true := by
    rw [Bool.or_eq_true, not_or, Bool.not_eq_true, Option.isNone_eq_false_iff] at hdone
    exact hdone.1
  refine Db.wp_get hinv1 ?_
  intro s2 hs2 hinv2
  rcases hitem : s1.current (.revocation revocationName) with _ | item
  · trivial
  dsimp only
  split_ifs with hsoft
  · trivial
  have hpast' := hs2.grows.past _ _ (s1.current_mem _ _ hitem)
  refine Db.wp_replace hinv2 hpast' ?_ fun _ _ _ => trivial
  intro _
  have hsound := hinv2.sound _ _ hpast'
  refine ⟨hinv2.put (k := .revocation revocationName) ⟨⟨hsound.name_eq, hsound.operation,
    hsound.deleted, hsound.marked⟩, ?_⟩, fun _ _ _ => trivial⟩
  intro _
  exact ⟨revocation, hs2.grows.past _ _ hpast, hmarked⟩

/-! ## Polling -/

/-- An operation whose revocation has succeeded, or that is stored again as it is. -/
theorem nextOperation_of_covered {v : Versioned Operation}
    (hcurrent : s.current (.operation name) = some v) (hsame : op.request = v.doc.request)
    (hrecorded : op.systemAdminCredentialRevocation =
      v.doc.systemAdminCredentialRevocation)
    (hended : v.doc.status.isTerminal = true → op.status.isTerminal = true)
    (hcovered : op.request = .systemAdminCredentialRevocation →
      op.status = .succeeded → Covered s name) :
    NextOperation s name v op where
  current := hcurrent
  request := hsame
  ended := hended
  recorded hrequest n hn :=
    hs.recorded name v n (s.current_mem _ _ hcurrent) (hsame ▸ hrequest) (hrecorded ▸ hn)
  succeeded := hcovered

theorem statusTransaction_ok {op : Versioned Operation}
    {cluster : Option (Versioned Resource)} {now : Time}
    (hpast : s.Past (.operation name) op)
    (hcluster : ∀ c, cluster = some c → s.Past .cluster c) (hcovered : Covered s name)
    (hcommit : s.commit (statusTransaction name op cluster .succeeded now) = some s') :
    Inv s' ∧ Rely s s' := by
  obtain ⟨hcurrent, hrest⟩ := hpast.commit_replace_eq_some hcommit
  have hnext : NextOperation s name op
      { op.doc with lastTransitionTime := now, status := .succeeded } :=
    nextOperation_of_covered hs hcurrent rfl rfl (fun _ => rfl) fun _ _ => hcovered
  obtain ⟨ht, hst⟩ := hs.put (k := .operation name) (.inr ⟨op, hnext⟩)
  split_ifs at hrest with hexternal
  · cases hrest
    exact ⟨ht, hst⟩
  · cases hupdate : getClusterForUpdate cluster name .succeeded with
    | none =>
      rw [hupdate] at hrest
      cases hrest
      exact ⟨ht, hst⟩
    | some r =>
      obtain ⟨c, hc, hetag, -⟩ := getClusterForUpdate_eq_some hupdate
      rw [hupdate, Option.toList_some, List.map_singleton, hetag] at hrest
      obtain ⟨-, hdone⟩ := (hst.grows.past _ _ (hcluster c hc)).commit_replace_eq_some hrest
      cases hdone
      obtain ⟨hu, htu⟩ := ht.put (k := .cluster) trivial
      exact ⟨hu, hst.trans htu⟩

theorem notifyOperationOwner_safe (name notificationURI : String) (newStatus : ProvisioningState)
    (notified : Bool) :
    Safe (notifyOperationOwner name notificationURI newStatus notified) (fun _ _ => True) s := by
  unfold notifyOperationOwner
  split_ifs with hnotify
  · refine Db.wp_get hs ?_
    intro s1 hs1 hinv1
    cases hoperation : s.current (.operation name) with
    | none => trivial
    | some op =>
      have hpast := hs1.grows.past _ _ (s.current_mem _ _ hoperation)
      exact replaceOperation_safe hinv1 hpast fun hcurrent =>
        nextOperation_of_covered hinv1 hcurrent rfl rfl id (hinv1.succeeded name op hpast)
  · trivial

theorem updateOperationStatus_safe {op : Versioned Operation}
    (hpast : s.Past (.operation name) op)
    (hrequest : op.doc.request = .systemAdminCredentialRevocation)
    (hcovered : Covered s name) (notified : Bool) (now : Time) :
    Safe (updateOperationStatus name op .succeeded notified now) (fun _ _ => True) s := by
  have hr : IsRevocation s name := ⟨op, hpast, hrequest⟩
  unfold updateOperationStatus
  split_ifs with hpatch
  · trivial
  refine Db.wp_get hs ?_
  intro s1 hs1 hinv1
  have hpast := hs1.grows.past _ _ hpast
  refine Db.wp_commit hinv1 ?_ ?_
  · intro s2 _ hcommit
    refine ⟨statusTransaction_ok hinv1 hpast ?_ (hcovered.mono hr hs1) hcommit, ?_⟩
    · intro c hc
      exact hs1.grows.past _ _ (s.current_mem _ _ hc)
    · intro s3 _ hinv3
      exact notifyOperationOwner_safe hinv3 ..
  · intro _ s2 _ _
    trivial

end

theorem pollShouldProcess_eq_true (h : ¬pollShouldProcess op = false) :
    op.request = .systemAdminCredentialRevocation := by
  rw [Bool.not_eq_false] at h
  simp only [pollShouldProcess, Bool.and_eq_true, decide_eq_true_eq] at h
  exact h.1.2

/-- If the revocation that an operation has recorded cannot be read any more, it covers the
operation. -/
theorem Inv.covered_of_gone {n : String} {op : Versioned Operation} (hs : Inv s)
    (hpast : s.Past (.operation name) op)
    (hrequest : op.doc.request = .systemAdminCredentialRevocation)
    (hrecorded : op.doc.systemAdminCredentialRevocation = some n)
    (hgone : (s.current (.revocation n)).filter (fun r => !r.doc.softDeleted) = none) :
    Covered s name := by
  obtain ⟨rfl, u, hu⟩ := hs.recorded name op n hpast hrequest hrecorded
  rcases hs.gone _ u hu with ⟨c, hc, hlive⟩ | ⟨v, hv, hdeleted⟩
  · rw [hc, Option.filter_eq_none_iff] at hgone
    exact absurd (by simpa using hlive) (hgone c rfl)
  · have hsound := hs.sound _ v hv
    have hname := hs.suffix _ _ ⟨op, hpast, hrequest⟩ hsound.operation hsound.name_eq
    rw [hname]
    exact hsound.marked (hsound.deleted hdeleted)

theorem operationRevokeCredentialsPoll_safe (hs : Inv s) (name : String) (notified : Bool)
    (now : Time) :
    Safe (operationRevokeCredentialsPoll name notified now) (fun _ _ => True) s := by
  refine Db.wp_get hs ?_
  intro s1 hs1 hinv1
  rcases hoperation : s.current (.operation name) with _ | op
  · trivial
  dsimp only
  split_ifs with hprocess
  · trivial
  have hrequest := pollShouldProcess_eq_true hprocess
  have hpast := hs1.grows.past _ _ (s.current_mem _ _ hoperation)
  split
  · trivial
  rename_i n hrecorded
  refine wp_getRevocation hinv1 ?_
  intro s2 hs2 hinv2
  split
  · trivial
  rename_i hgone
  have hcovered := hinv1.covered_of_gone hpast hrequest hrecorded hgone
  have hr : IsRevocation s1 name := ⟨op, hpast, hrequest⟩
  have hupdate : ∀ t, Rely s1 t → Inv t →
      Safe (updateOperationStatus name op .succeeded notified now) (fun _ _ => True) t := by
    intro t ht hinv
    exact updateOperationStatus_safe hinv (ht.grows.past _ _ hpast) hrequest
      (hcovered.mono hr ht) notified now
  refine Db.wp_cached hinv2 ?_
  intro cachedCluster _ s3 hs3 hinv3
  have hs13 := hs2.trans hs3
  split_ifs with hsentinel
  · refine Db.wp_get hinv3 ?_
    intro s4 hs4 hinv4
    cases hcluster : s3.current .cluster with
    | none => trivial
    | some cluster =>
      refine Db.wp_replace hinv4
        (hs4.grows.past _ _ (s3.current_mem _ _ hcluster)) ?_ ?_
      · intro _
        obtain ⟨hinv, hrely⟩ := hinv4.put (k := .cluster) trivial
        refine ⟨⟨hinv, hrely⟩, ?_⟩
        intro s5 hs5 hinv5
        exact hupdate s5 (((hs13.trans hs4).trans hrely).trans hs5) hinv5
      · intro s5 _ _
        trivial
  · exact hupdate s3 hs13 hinv3

theorem Task.safe (id : ResourceID) (task : Task) (s : Store Doc) (hs : Inv s) :
    Safe (task.program id) (fun _ _ => True) s := by
  cases task with
  | requestAdminCredential name csr uri now => exact requestAdminCredential_safe hs id name csr uri now
  | revokeCredentials name uri now => exact revokeCredentials_safe hs id name uri now
  | dispatchRequestCredential name credential now =>
    exact dispatchRequestCredential_safe hs name credential now
  | dispatchRevokeCredentials name now => exact dispatchRevokeCredentials_safe hs name now
  | revocationMarkRequests revocationName now =>
    exact revocationMarkRequests_safe hs revocationName now
  | revocationCompletion revocationName mirrored now =>
    exact revocationCompletion_safe hs revocationName mirrored now
  | revocationDeletion revocationName tornDown =>
    exact revocationDeletion_safe hs revocationName tornDown
  | operationRevokeCredentialsPoll name notified now =>
    exact operationRevokeCredentialsPoll_safe hs name notified now

/-! ## Every run -/

def initialStore (cluster : Resource) : Store Doc :=
  Store.empty.put .cluster cluster

theorem inv_initialStore (cluster : Resource) : Inv (initialStore cluster) := by
  have hpast : ∀ k v, (initialStore cluster).Past k v → k = .cluster := by
    intro k v hv
    rcases Store.past_put hv with hold | hnew
    · cases hold
    · exact congrArg Sigma.fst hnew
  have hrevocation : ∀ r, ¬IsRevocation (initialStore cluster) r := by
    rintro r ⟨v, hv, -⟩
    cases hpast _ _ hv
  refine ⟨?_, ?_, ?_, ?_, ?_, ?_, ?_⟩
  · intro name v hv
    cases hpast _ _ hv
  · intro q r c _ _ hr
    exact absurd hr (hrevocation r)
  · intro name v hv
    cases hpast _ _ hv
  · intro name v hv
    cases hpast _ _ hv
  · intro r v name hv
    cases hpast _ _ hv
  · intro r r' hr
    exact absurd hr (hrevocation r)
  · intro r v hv
    cases hpast _ _ hv

/-- A step of the frontend or of one of the controllers, or a purge. -/
abbrev CredentialStep (id : ResourceID) (allowed : DocCall Doc → Store Doc → Prop) :
    Pool (Store Doc) (DocCall Doc) DocCall.Reply (Option String) →
      Pool (Store Doc) (DocCall Doc) DocCall.Reply (Option String) → Prop :=
  Step DocCall.sem (Task.program id) Purge allowed

/-- In every run of careful steps, once a revocation has succeeded, all stored credentials of
operations accepted before it are marked for deletion, and no further one is created for them. -/
theorem revocation_covers_of_careful {id : ResourceID} {cluster : Resource}
    {pool : Pool (Store Doc) (DocCall Doc) DocCall.Reply (Option String)} {r : String}
    {v : Versioned Operation}
    (hrun : ReflTransGen (CredentialStep id fun c s => careful c s = true)
      ⟨initialStore cluster, []⟩ pool)
    (hr : pool.state.current (.operation r) = some v)
    (hrequest : v.doc.request = .systemAdminCredentialRevocation)
    (hstatus : v.doc.status = .succeeded) :
    (∀ name c, pool.state.current (.request name) = some c →
        AcceptedBefore pool.state c.doc.operationID r → c.doc.deletionTimestamp.isSome = true) ∧
      ∀ pool', ReflTransGen (CredentialStep id fun c s => careful c s = true) pool pool' →
        ∀ name c, pool'.state.Past (.request name) c →
          AcceptedBefore pool'.state c.doc.operationID r →
          ∃ c₀, pool.state.Past (.request name) c₀ ∧
            c₀.doc.operationID = c.doc.operationID := by
  have hready : Ready DocCall.sem (fun c s => careful c s = true) Inv Rely pool :=
    (Ready.run (Task.safe id)
      (fun _ _ hinv => hinv.purge) (.initial (inv_initialStore cluster)) hrun).1
  have hpast := pool.state.current_mem _ _ hr
  refine ⟨hready.1.succeeded r v hpast hrequest hstatus, ?_⟩
  intro pool' hrun' name c hc hbefore
  have hrely := (Ready.run (Task.safe id)
    (fun _ _ hinv => hinv.purge) hready hrun').2
  exact hrely.known r ⟨v, hpast, hrequest⟩ name c hc hbefore

def readyCluster : Resource where
  activeOperationID := ""
  provisioningState := .succeeded
  clusterServiceID := some "id"

/-- A revocation from its request to the end, as the next programs after `place` others. The
operation is "r", and so is its suffix. There are `marks` credentials to mark; `cache` is the place
in the history where the cluster still has the mark of the revocation. -/
def revocationSchedule (place marks cache : Nat) : List (Choice Task (Option Nat)) :=
  Choice.program place (.revokeCredentials "r" "" 2) [none, none, none] ++
  Choice.program (place + 1) (.dispatchRevokeCredentials "r" 3) [none, some 0, none, none, none] ++
  Choice.program (place + 2) (.revocationMarkRequests "r" 4) (List.replicate (marks + 3) none) ++
  Choice.program (place + 3) (.revocationCompletion "r" (some true) 5) [none, none, none] ++
  Choice.program (place + 4) (.revocationCompletion "r" (some true) 6) [none, none] ++
  Choice.program (place + 5) (.revocationDeletion "r" true) [none, none, none] ++
  Choice.program (place + 6) (.operationRevokeCredentialsPoll "r" false 7)
    [none, none, some cache, none, none, none, none]

/-- The request "q" is accepted, its dispatch has read the operation and the cluster, and then makes
`n` more calls. -/
def requestSchedule (n : Nat) : List (Choice Task (Option Nat)) :=
  Choice.program 0 (.requestAdminCredential "q" "csr" "" 0) [none, none] ++
  Choice.program 1 (.dispatchRequestCredential "q" "c" 1) ([none, some 1] ++ List.replicate n none)

/-- The dispatch of the request stops before it creates the credential, and goes on when the
revocation has succeeded. -/
theorem revocation_misses_credential :
    ∃ (pool : Pool (Store Doc) (DocCall Doc) DocCall.Reply (Option String))
      (v : Versioned Operation) (c : Versioned SystemAdminCredentialRequest),
      ReflTransGen (CredentialStep (.cluster "group" "cluster") fun _ _ => True)
        ⟨initialStore readyCluster, []⟩ pool ∧
      pool.state.current (.operation "r") = some v ∧
      v.doc.request = .systemAdminCredentialRevocation ∧ v.doc.status = .succeeded ∧
      pool.state.current (.request "c") = some c ∧
      AcceptedBefore pool.state c.doc.operationID "r" ∧ c.doc.deletionTimestamp = none := by
  have hexecute : (execute DocCall.answer (Task.program (.cluster "group" "cluster"))
      (fun _ _ => true) ⟨initialStore readyCluster, []⟩
      (requestSchedule 1 ++ revocationSchedule 2 0 6 ++ [.call 1 none])).any (fun pool =>
        (pool.state.current (.operation "r")).any (fun v =>
          v.doc.request = .systemAdminCredentialRevocation && v.doc.status = .succeeded) &&
        (pool.state.current (.request "c")).any fun c =>
          AcceptedBefore pool.state c.doc.operationID "r" &&
            c.doc.deletionTimestamp = none) = true := by
    decide +kernel
  obtain ⟨pool, hpool, hcheck⟩ := (Option.any_eq_true _ _).mp hexecute
  rw [Bool.and_eq_true, Option.any_eq_true, Option.any_eq_true] at hcheck
  obtain ⟨⟨v, hv, hoperation⟩, c, hc, hcredential⟩ := hcheck
  simp only [Bool.and_eq_true, decide_eq_true_eq] at hoperation hcredential
  have hrun := run_of_execute Purge (fun _ _ _ _ _ => DocCall.sem_of_answer) hpool
  exact ⟨pool, v, c, run_mono (fun _ _ _ => trivial) hrun, hv, hoperation.1, hoperation.2, hc,
    hcredential.1, hcredential.2⟩

/-- The same requests in a careful order: the credential is created first. -/
theorem revocation_covers_of_careful_dispatched :
    ∃ (pool : Pool (Store Doc) (DocCall Doc) DocCall.Reply (Option String))
      (c : Versioned SystemAdminCredentialRequest),
      pool.state.current (.request "c") = some c ∧
      AcceptedBefore pool.state c.doc.operationID "r" ∧
      c.doc.deletionTimestamp.isSome = true := by
  have hexecute : (execute DocCall.answer (Task.program (.cluster "group" "cluster"))
      careful ⟨initialStore readyCluster, []⟩
      (requestSchedule 3 ++ revocationSchedule 2 1 7)).any (fun pool =>
        (pool.state.current (.operation "r")).any (fun v =>
          v.doc.request = .systemAdminCredentialRevocation && v.doc.status = .succeeded) &&
        (pool.state.current (.request "c")).any fun c =>
          AcceptedBefore pool.state c.doc.operationID "r") = true := by
    decide +kernel
  obtain ⟨pool, hpool, hcheck⟩ := (Option.any_eq_true _ _).mp hexecute
  rw [Bool.and_eq_true, Option.any_eq_true, Option.any_eq_true] at hcheck
  obtain ⟨⟨v, hv, hoperation⟩, c, hc, hcredential⟩ := hcheck
  simp only [Bool.and_eq_true, decide_eq_true_eq] at hoperation hcredential
  have hrun := run_of_execute Purge (fun _ _ _ _ _ => DocCall.sem_of_answer) hpool
  exact ⟨pool, c, hc, hcredential,
    (revocation_covers_of_careful hrun hv hoperation.1 hoperation.2).1 "c" c hc hcredential⟩

end AroHcp.Credentials
