import AroHcp.Credentials.Controllers

/-! What the credential documents keep as long as a credential is created only for a running request
and a revocation cancels every running request. -/

namespace AroHcp.Credentials

open DocStore Operations

variable {s s' s'' : Store Doc} {q r : String}

def AcceptedBefore (s : Store Doc) (q r : String) : Prop :=
  ∃ e ∈ s.history, e.1 = .operation q ∧
    ∀ e' ∈ s.history, e'.1 = .operation r → e.2.etag < e'.2.etag

instance : Decidable (AcceptedBefore s q r) :=
  inferInstanceAs (Decidable (∃ e ∈ s.history, _ ∧ ∀ e' ∈ s.history, _ → _))

def IsRevocation (s : Store Doc) (r : String) : Prop :=
  ∃ v, s.Past (.operation r) v ∧ v.doc.request = .systemAdminCredentialRevocation

def Covered (s : Store Doc) (r : String) : Prop :=
  ∀ name c, s.current (.request name) = some c → AcceptedBefore s c.doc.operationID r →
    c.doc.deletionTimestamp.isSome = true

theorem IsRevocation.mono (h : IsRevocation s r) (hs : s.Extends s') : IsRevocation s' r := by
  obtain ⟨v, hv, hrequest⟩ := h
  exact ⟨v, hs.past _ _ hv, hrequest⟩

/-- What was accepted before a revocation is settled once the revocation is stored. -/
theorem acceptedBefore_iff (hs : s.Extends s') (hr : IsRevocation s r) :
    AcceptedBefore s' q r ↔ AcceptedBefore s q r := by
  obtain ⟨u, hu, -⟩ := hr
  constructor
  · rintro ⟨⟨k, v⟩, hv, hk, hbefore⟩
    have hlt : v.etag < u.etag := hbefore _ (hs.past _ _ hu) rfl
    have hold : s.Past k v := by
      rcases hs.fresh k v hv with hold | hnew
      · exact hold
      · have := s.etag_lt _ hu
        dsimp only at this
        omega
    exact ⟨⟨k, v⟩, hold, hk, fun e he => hbefore e (hs.past _ _ he)⟩
  · rintro ⟨⟨k, v⟩, hv, hk, hbefore⟩
    refine ⟨⟨k, v⟩, hs.past _ _ hv, hk, ?_⟩
    rintro ⟨k', v'⟩ hv' hk'
    rcases hs.fresh k' v' hv' with hold | hnew
    · exact hbefore _ hold hk'
    · exact Nat.lt_of_lt_of_le (s.etag_lt _ hv) hnew

/-- How the documents may change: a credential request of an operation before a revocation is only
marked for deletion. -/
structure Rely (s s' : Store Doc) : Prop where
  grows : s.Extends s'
  unmarked : ∀ r, IsRevocation s r → ∀ name c, s'.current (.request name) = some c →
    AcceptedBefore s' c.doc.operationID r → c.doc.deletionTimestamp = none →
    s.current (.request name) = some c
  known : ∀ r, IsRevocation s r → ∀ name c, s'.Past (.request name) c →
    AcceptedBefore s' c.doc.operationID r →
    ∃ c₀, s.Past (.request name) c₀ ∧ c₀.doc.operationID = c.doc.operationID

theorem Rely.refl (s : Store Doc) : Rely s s where
  grows := .refl s
  unmarked _ _ _ _ h _ _ := h
  known _ _ _ c h _ := ⟨c, h, rfl⟩

theorem Rely.trans (h : Rely s s') (h' : Rely s' s'') : Rely s s'' where
  grows := h.grows.trans h'.grows
  unmarked r hr name c hc hbefore hunmarked := by
    have hr' := hr.mono h.grows
    have hc' := h'.unmarked r hr' name c hc hbefore hunmarked
    exact h.unmarked r hr name c hc' ((acceptedBefore_iff h'.grows hr').mp hbefore) hunmarked
  known r hr name c hc hbefore := by
    have hr' := hr.mono h.grows
    obtain ⟨c1, hc1, hid⟩ := h'.known r hr' name c hc hbefore
    rw [← hid] at hbefore ⊢
    exact h.known r hr name c1 hc1 ((acceptedBefore_iff h'.grows hr').mp hbefore)

instance : Std.Refl Rely := ⟨Rely.refl⟩

instance : IsTrans (Store Doc) Rely := ⟨fun _ _ _ => Rely.trans⟩

theorem Covered.mono (h : Covered s r) (hr : IsRevocation s r) (hs : Rely s s') : Covered s' r := by
  intro name c hc hbefore
  by_contra hmarked
  have hunmarked : c.doc.deletionTimestamp = none := Option.not_isSome_iff_eq_none.mp hmarked
  have hold := hs.unmarked r hr name c hc hbefore hunmarked
  exact hmarked (h name c hold ((acceptedBefore_iff hs.grows hr).mp hbefore))

/-- What is written on a revocation document is true. -/
structure Sound (s : Store Doc) (name : String) (revocation : SystemAdminCredentialRevocation) :
    Prop where
  name_eq : name = revokeOpSuffix revocation.operationID
  operation : IsRevocation s revocation.operationID
  deleted : revocation.deletionTimestamp.isSome = true → revocation.isMarked = true
  marked : revocation.isMarked = true → Covered s revocation.operationID

theorem Sound.mono {name : String} {revocation : SystemAdminCredentialRevocation}
    (h : Sound s name revocation) (hs : Rely s s') : Sound s' name revocation where
  name_eq := h.name_eq
  operation := h.operation.mono hs.grows
  deleted := h.deleted
  marked hmarked := (h.marked hmarked).mono h.operation hs

structure Inv (s : Store Doc) : Prop where
  /-- operations are never removed, and one that has ended stays so -/
  stored : ∀ name v, s.Past (.operation name) v →
    ∃ c, s.current (.operation name) = some c ∧ c.doc.request = v.doc.request ∧
      (v.doc.status.isTerminal = true → c.doc.status.isTerminal = true)
  ended : ∀ q r c, s.current (.operation q) = some c →
    c.doc.request = .systemAdminCredentialRequest → IsRevocation s r → AcceptedBefore s q r →
    c.doc.status.isTerminal = true
  sound : ∀ name v, s.Past (.revocation name) v → Sound s name v.doc
  /-- a revocation disappears only after it was marked for deletion -/
  gone : ∀ name v, s.Past (.revocation name) v →
    (∃ c, s.current (.revocation name) = some c ∧ c.doc.softDeleted = false) ∨
      ∃ u, s.Past (.revocation name) u ∧ u.doc.deletionTimestamp.isSome = true
  recorded : ∀ r v name, s.Past (.operation r) v →
    v.doc.request = .systemAdminCredentialRevocation →
    v.doc.systemAdminCredentialRevocation = some name →
    name = revokeOpSuffix r ∧ ∃ u, s.Past (.revocation name) u
  suffix : ∀ r r', IsRevocation s r → IsRevocation s r' → revokeOpSuffix r = revokeOpSuffix r' →
    r = r'
  succeeded : ∀ r v, s.Past (.operation r) v → v.doc.request = .systemAdminCredentialRevocation →
    v.doc.status = .succeeded → Covered s r

/-! ## Writes -/

structure NewOperation (s : Store Doc) (name : String) (operation : Operation) : Prop where
  absent : s.current (.operation name) = none
  running : operation.status.isTerminal = false
  undispatched : operation.systemAdminCredentialRevocation = none
  ended : operation.request = .systemAdminCredentialRevocation → ∀ q c,
    s.current (.operation q) = some c → c.doc.request = .systemAdminCredentialRequest →
    c.doc.status.isTerminal = true
  suffix : operation.request = .systemAdminCredentialRevocation → ∀ r, IsRevocation s r →
    revokeOpSuffix r ≠ revokeOpSuffix name

structure NextOperation (s : Store Doc) (name : String) (v : Versioned Operation)
    (operation : Operation) : Prop where
  current : s.current (.operation name) = some v
  request : operation.request = v.doc.request
  ended : v.doc.status.isTerminal = true → operation.status.isTerminal = true
  recorded : operation.request = .systemAdminCredentialRevocation → ∀ n,
    operation.systemAdminCredentialRevocation = some n →
    n = revokeOpSuffix name ∧ ∃ u, s.Past (.revocation n) u
  succeeded : operation.request = .systemAdminCredentialRevocation →
    operation.status = .succeeded → Covered s name

/-- The writes that keep the invariant. -/
def Ok (s : Store Doc) : (k : DocKey) → Doc k → Prop
  | .operation name, operation =>
    NewOperation s name operation ∨ ∃ v, NextOperation s name v operation
  | .cluster, _ => True
  | .request name, c =>
    (∃ v, s.current (.operation c.operationID) = some v ∧
        v.doc.request = .systemAdminCredentialRequest ∧ v.doc.status.isTerminal = false) ∨
      ∃ v, s.current (.request name) = some v ∧ c.operationID = v.doc.operationID ∧
        c.deletionTimestamp.isSome = true
  | .revocation name, revocation =>
    Sound s name revocation ∧ (revocation.softDeleted = true →
      ∃ u, s.Past (.revocation name) u ∧ u.doc.deletionTimestamp.isSome = true)

/-- A running request was not accepted before any revocation. -/
theorem Inv.not_acceptedBefore {c : Versioned Operation} (h : Inv s)
    (hcurrent : s.current (.operation q) = some c)
    (hrequest : c.doc.request = .systemAdminCredentialRequest)
    (hrunning : c.doc.status.isTerminal = false) (hr : IsRevocation s r) :
    ¬AcceptedBefore s q r := by
  intro hbefore
  rw [h.ended q r c hcurrent hrequest hr hbefore] at hrunning
  cases hrunning

variable {k : DocKey} {doc : Doc k}

theorem Inv.rely_put (h : Inv s) (hok : Ok s k doc) :
    Rely s (s.put k doc) := by
  have hgrows := Store.extends_put s k doc
  refine ⟨hgrows, ?_, ?_⟩
  · intro r hr name c hc hbefore hunmarked
    by_cases hk : DocKey.request name = k
    · subst hk
      rw [Store.put_current_self, Option.some.injEq] at hc
      subst hc
      rcases hok with ⟨v, hv, hrequest, hrunning⟩ | ⟨v, -, -, hmarked⟩
      · exact absurd ((acceptedBefore_iff hgrows hr).mp hbefore)
          (h.not_acceptedBefore hv hrequest hrunning hr)
      · rw [hunmarked] at hmarked
        cases hmarked
    · rwa [Store.put_current_of_ne s doc hk] at hc
  · intro r hr name c hc hbefore
    rcases Store.past_put hc with hold | hnew
    · exact ⟨c, hold, rfl⟩
    · cases hnew
      rcases hok with ⟨v, hv, hrequest, hrunning⟩ | ⟨v, hv, hid, -⟩
      · exact absurd ((acceptedBefore_iff hgrows hr).mp hbefore)
          (h.not_acceptedBefore hv hrequest hrunning hr)
      · exact ⟨v, s.current_mem _ _ hv, hid.symm⟩

theorem IsRevocation.of_put (hok : Ok s k doc) (h : IsRevocation (s.put k doc) r) :
    IsRevocation s r ∨ ∃ operation, (⟨k, doc⟩ : Sigma Doc) = ⟨.operation r, operation⟩ ∧
      NewOperation s r operation ∧ operation.request = .systemAdminCredentialRevocation := by
  obtain ⟨v, hv, hrequest⟩ := h
  rcases Store.past_put hv with hold | hnew
  · exact .inl ⟨v, hold, hrequest⟩
  · cases hnew
    rcases hok with hnew | ⟨u, hnext⟩
    · exact .inr ⟨doc, rfl, hnew, hrequest⟩
    · exact .inl ⟨u, s.current_mem _ _ hnext.current, hnext.request ▸ hrequest⟩

section

variable (h : Inv s)

include h

theorem Inv.stored_put (hok : Ok s k doc) (name : String) (v : Versioned Operation)
    (hv : (s.put k doc).Past (.operation name) v) :
    ∃ c, (s.put k doc).current (.operation name) = some c ∧ c.doc.request = v.doc.request ∧
      (v.doc.status.isTerminal = true → c.doc.status.isTerminal = true) := by
  rcases Store.past_put hv with hold | hnew
  · obtain ⟨c, hc, hrequest, hended⟩ := h.stored name v hold
    by_cases hk : DocKey.operation name = k
    · subst hk
      refine ⟨_, Store.put_current_self .., ?_⟩
      rcases hok with hnew | ⟨u, hnext⟩
      · rw [hnew.absent] at hc
        cases hc
      · rw [hnext.current, Option.some.injEq] at hc
        subst hc
        exact ⟨hnext.request.trans hrequest, fun hv => hnext.ended (hended hv)⟩
    · exact ⟨c, (Store.put_current_of_ne s doc hk).trans hc, hrequest, hended⟩
  · cases hnew
    exact ⟨_, Store.put_current_self .., rfl, id⟩

/-- An operation that was accepted before another one is stored. -/
theorem Inv.current_of_acceptedBefore (hbefore : AcceptedBefore s q r) :
    ∃ c, s.current (.operation q) = some c := by
  obtain ⟨⟨k, v⟩, hv, hk, -⟩ := hbefore
  subst hk
  obtain ⟨c, hc, -⟩ := h.stored q v hv
  exact ⟨c, hc⟩

section

variable (hok : Ok s k doc)

include hok

theorem Inv.ended_put (q r : String) (c : Versioned Operation)
    (hc : (s.put k doc).current (.operation q) = some c)
    (hrequest : c.doc.request = .systemAdminCredentialRequest) (hr : IsRevocation (s.put k doc) r)
    (hbefore : AcceptedBefore (s.put k doc) q r) :
    c.doc.status.isTerminal = true := by
  rcases hr.of_put hok with hold | ⟨operation, heq, hnew, hrevocation⟩
  · have hbefore' := (acceptedBefore_iff (Store.extends_put s k doc) hold).mp hbefore
    by_cases hk : DocKey.operation q = k
    · subst hk
      rw [Store.put_current_self, Option.some.injEq] at hc
      subst hc
      rcases hok with hnew | ⟨u, hnext⟩
      · obtain ⟨c, hc⟩ := h.current_of_acceptedBefore hbefore'
        rw [hnew.absent] at hc
        cases hc
      · exact hnext.ended (h.ended q r u hnext.current (hnext.request ▸ hrequest) hold hbefore')
    · rw [Store.put_current_of_ne s doc hk] at hc
      exact h.ended q r c hc hrequest hold hbefore'
  · cases heq
    by_cases hk : DocKey.operation q = .operation r
    · cases hk
      rw [Store.put_current_self, Option.some.injEq] at hc
      subst hc
      rw [hrevocation] at hrequest
      cases hrequest
    · rw [Store.put_current_of_ne s _ hk] at hc
      exact hnew.ended hrevocation q c hc hrequest

theorem Inv.sound_put (name : String) (v : Versioned SystemAdminCredentialRevocation)
    (hv : (s.put k doc).Past (.revocation name) v) :
    Sound (s.put k doc) name v.doc := by
  rcases Store.past_put hv with hold | hnew
  · exact (h.sound name v hold).mono (h.rely_put hok)
  · have hrely := h.rely_put hok
    cases hnew
    exact hok.1.mono hrely

theorem Inv.gone_put (name : String) (v : Versioned SystemAdminCredentialRevocation)
    (hv : (s.put k doc).Past (.revocation name) v) :
    (∃ c, (s.put k doc).current (.revocation name) = some c ∧ c.doc.softDeleted = false) ∨
      ∃ u, (s.put k doc).Past (.revocation name) u ∧ u.doc.deletionTimestamp.isSome = true := by
  by_cases hk : DocKey.revocation name = k
  · subst hk
    cases hdeleted : doc.softDeleted with
    | false => exact .inl ⟨_, Store.put_current_self .., hdeleted⟩
    | true =>
      obtain ⟨u, hu, hmarked⟩ := hok.2 hdeleted
      exact .inr ⟨u, hu.put _ _, hmarked⟩
  · rcases Store.past_put hv with hold | hnew
    · rcases h.gone name v hold with ⟨c, hc, hlive⟩ | ⟨u, hu, hmarked⟩
      · exact .inl ⟨c, (Store.put_current_of_ne s doc hk).trans hc, hlive⟩
      · exact .inr ⟨u, hu.put _ _, hmarked⟩
    · exact absurd (congrArg Sigma.fst hnew) hk

theorem Inv.recorded_put (r : String) (v : Versioned Operation) (name : String)
    (hv : (s.put k doc).Past (.operation r) v)
    (hrequest : v.doc.request = .systemAdminCredentialRevocation)
    (hname : v.doc.systemAdminCredentialRevocation = some name) :
    name = revokeOpSuffix r ∧ ∃ u, (s.put k doc).Past (.revocation name) u := by
  rcases Store.past_put hv with hold | hnew
  · obtain ⟨heq, u, hu⟩ := h.recorded r v name hold hrequest hname
    exact ⟨heq, u, hu.put _ _⟩
  · cases hnew
    rcases hok with hnew | ⟨w, hnext⟩
    · rw [hnew.undispatched] at hname
      cases hname
    · obtain ⟨heq, u, hu⟩ := hnext.recorded hrequest name hname
      exact ⟨heq, u, hu.put _ _⟩

theorem Inv.suffix_put (r r' : String) (hr : IsRevocation (s.put k doc) r)
    (hr' : IsRevocation (s.put k doc) r') (hsuffix : revokeOpSuffix r = revokeOpSuffix r') :
    r = r' := by
  rcases hr.of_put hok with hold | ⟨operation, heq, hnew, hrequest⟩
  · rcases hr'.of_put hok with hold' | ⟨operation', -, hnew', hrequest'⟩
    · exact h.suffix r r' hold hold' hsuffix
    · exact absurd hsuffix (hnew'.suffix hrequest' r hold)
  · rcases hr'.of_put hok with hold' | ⟨operation', heq', -, -⟩
    · exact absurd hsuffix.symm (hnew.suffix hrequest r' hold')
    · have hkey := congrArg Sigma.fst (heq.symm.trans heq')
      exact DocKey.operation.inj hkey

theorem Inv.succeeded_put (r : String) (v : Versioned Operation)
    (hv : (s.put k doc).Past (.operation r) v)
    (hrequest : v.doc.request = .systemAdminCredentialRevocation)
    (hstatus : v.doc.status = .succeeded) : Covered (s.put k doc) r := by
  have hrely := h.rely_put hok
  rcases Store.past_put hv with hold | hnew
  · exact (h.succeeded r v hold hrequest hstatus).mono ⟨v, hold, hrequest⟩ hrely
  · cases hnew
    rcases hok with hnew | ⟨u, hnext⟩
    · have hrunning := hnew.running
      rw [hstatus] at hrunning
      cases hrunning
    · have hu : IsRevocation s r :=
        ⟨u, s.current_mem _ _ hnext.current, hnext.request ▸ hrequest⟩
      exact (hnext.succeeded hrequest hstatus).mono hu hrely

/-- The step lemma of the invariant. -/
theorem Inv.put :
    Inv (s.put k doc) ∧ Rely s (s.put k doc) :=
  ⟨⟨h.stored_put hok, h.ended_put hok, h.sound_put hok, h.gone_put hok, h.recorded_put hok,
    h.suffix_put hok, h.succeeded_put hok⟩, h.rely_put hok⟩

end

theorem Inv.purge (hpurge : Purge s s') : Inv s' ∧ Rely s s' := by
  obtain ⟨name, v, hcurrent, hdeleted⟩ := hpurge
  have hgrows := Store.extends_remove s (DocKey.revocation name)
  have hrely : Rely s (s.remove (.revocation name)) := by
    refine ⟨hgrows, ?_, fun _ _ _ c hc _ => ⟨c, hc, rfl⟩⟩
    intro r _ name' c hc _ _
    rwa [Store.remove_current_of_ne s (by simp)] at hc
  refine ⟨⟨?_, ?_, ?_, ?_, h.recorded, h.suffix, ?_⟩, hrely⟩
  · intro name' v' hv'
    exact h.stored name' v' hv'
  · intro q r c hc
    exact h.ended q r c hc
  · intro name' v' hv'
    exact (h.sound name' v' hv').mono hrely
  · intro name' v' hv'
    rcases h.gone name' v' hv' with ⟨c, hc, hlive⟩ | hmarked
    · left
      refine ⟨c, ?_, hlive⟩
      rw [Store.remove_current_of_ne s, hc]
      rintro heq
      cases heq
      rw [hcurrent, Option.some.injEq] at hc
      rw [← hc, hdeleted] at hlive
      cases hlive
    · exact .inr hmarked
  · intro r v' hv' hrequest hstatus
    exact (h.succeeded r v' hv' hrequest hstatus).mono ⟨v', hv', hrequest⟩ hrely

end

end AroHcp.Credentials
