import AroHcp.Dns.Allocation
import AroHcp.Lib.GoStrings

/-! DNS names are exclusive and quarantined: a committed base domain is backed by a claim of the
cluster that has it, and no claim is released before its owner has been gone for a week. -/

namespace AroHcp.Dns

open DocStore GoFmt Operations Program Relation

/-! ## The system -/

/-- A claim that was deleted, when, and the UIDs of the clusters that were stored then. -/
structure Release where
  claim : DNSClaim
  time : Time
  stored : List String
deriving DecidableEq, Repr

structure System where
  store : Store Doc
  clock : Time
  released : List Release

def System.empty : System := ⟨Store.empty, 0, []⟩

def uidOf : (Sigma fun k => Versioned (Doc k)) → Option String
  | ⟨.cluster _, v⟩ => some v.doc.clusterUID
  | _ => none

def storedUIDs (s : System) : List String :=
  s.store.scan.filterMap uidOf

theorem mem_storedUIDs {s : System} {uid : String} :
    uid ∈ storedUIDs s ↔ ∃ id v, s.store.current (.cluster id) = some v ∧ v.doc.clusterUID = uid := by
  unfold storedUIDs
  rw [List.mem_filterMap]
  constructor
  · rintro ⟨⟨k, v⟩, hmem, huid⟩
    cases k with
    | cluster id =>
      rw [uidOf, Option.some.injEq] at huid
      exact ⟨id, v, Store.mem_scan.mp hmem, huid⟩
    | serviceProviderCluster id => cases huid
    | claim id => cases huid
  · rintro ⟨id, v, hcurrent, rfl⟩
    exact ⟨⟨.cluster id, v⟩, Store.mem_scan.mpr hcurrent, rfl⟩

/-- A replace is accepted only with the current ETag; one that is accepted may be reported as
failed. -/
def replaces (s : System) (k : Key) (etag : Nat) (doc : Doc k) (r : Option WriteError) (s' : System) :
    Prop :=
  (∃ store, s.store.replace k etag doc = some store ∧ s' = { s with store }) ∨
    (∃ err, r = some err) ∧ s' = s

def sem : Semantics System Call Call.Reply
  | .cachedCluster id, s, r, s' => s.store.CacheRead (.cluster id) r ∧ s' = s
  | .cachedServiceProviderCluster id, s, r, s' =>
    s.store.CacheRead (.serviceProviderCluster id) r ∧ s' = s
  | .cachedClaim id, s, r, s' => s.store.CacheRead (.claim id) r ∧ s' = s
  | .getCluster id, s, r, s' => s.store.LiveRead (.cluster id) r ∧ s' = s
  | .now, s, r, s' => r = s.clock ∧ s' = s
  | .replaceServiceProviderCluster id etag doc, s, r, s' =>
    replaces s (.serviceProviderCluster id) etag doc r s'
  | .replaceCluster id etag doc, s, r, s' => replaces s (.cluster id) etag doc r s'
  | .replaceClaim id etag doc, s, r, s' => replaces s (.claim id) etag doc r s'
  | .createClaim id doc, s, r, s' =>
    (∃ store, s.store.create (.claim id) doc = some store ∧ s' = { s with store }) ∨
      (∃ err, r = some err) ∧ s' = s
  | .deleteClaimWithETag id etag, s, r, s' =>
    (∃ v, s.store.current (.claim id) = some v ∧ v.etag = etag ∧
      s' = { s with
        store := s.store.remove (.claim id)
        released := ⟨v.doc, s.clock, storedUIDs s⟩ :: s.released }) ∨
      -- a claim that is not there counts as deleted
      ((∃ err, r = some err) ∨ s.store.current (.claim id) = none) ∧ s' = s
  | _, s, _, s' => s' = s

inductive Others : System → System → Prop
  | createCluster (s : System) (id : String) (cluster : Cluster)
      (hnone : s.store.current (.cluster id) = none)
      (hfresh : ∀ id' v, s.store.Past (.cluster id') v → v.doc.clusterUID ≠ cluster.clusterUID)
      (hdomain : cluster.baseDomain = "") :
      Others s { s with store := s.store.put (.cluster id) cluster }
  | updateCluster (s : System) (id : String) (v : Versioned Cluster) (cluster : Cluster)
      (hcurrent : s.store.current (.cluster id) = some v)
      (huid : cluster.clusterUID = v.doc.clusterUID)
      (hdomain : cluster.baseDomain = v.doc.baseDomain) :
      Others s { s with store := s.store.put (.cluster id) cluster }
  | deleteCluster (s : System) (id : String) :
      Others s { s with store := s.store.remove (.cluster id) }
  | putServiceProviderCluster (s : System) (id : String) (doc : ServiceProviderCluster) :
      Others s { s with store := s.store.put (.serviceProviderCluster id) doc }
  | deleteServiceProviderCluster (s : System) (id : String) :
      Others s { s with store := s.store.remove (.serviceProviderCluster id) }
  | tick (s : System) (clock : Time) (hclock : s.clock ≤ clock) : Others s { s with clock }

inductive Task where
  | allocation (id : String)
  | cleanup (baseDomain : String)

def program (parseResourceID : String → Except String ClaimID) : Task → Prog (Option String)
  | .allocation id => allocationSyncOnce parseResourceID id
  | .cleanup baseDomain => cleanupSyncOnce parseResourceID baseDomain

/-! ## The invariant -/

/-- The incarnation with the UID was stored once and is no more. -/
def Gone (s : System) (uid : String) : Prop :=
  (∃ id v, s.store.Past (.cluster id) v ∧ v.doc.clusterUID = uid) ∧
    ∀ id v, s.store.current (.cluster id) = some v → v.doc.clusterUID ≠ uid

def Holds (s : System) (id : ClaimID) (uid : String) : Prop :=
  ∃ w, s.store.current (.claim id) = some w ∧ w.doc.clusterUUID = uid ∧
    w.doc.deletionTimestamp = none

/-- Its owner is gone, and its retention is over. -/
def Release.Proper (release : Release) : Prop :=
  release.claim.clusterUUID ∉ release.stored ∧
    ∃ marked, release.claim.deletionTimestamp = some marked ∧
      marked + deletedClaimRetention ≤ release.time

structure Inv (parseResourceID : String → Except String ClaimID) (s : System) : Prop where
  -- an incarnation has one resource ID
  placed : ∀ id id' v v', s.store.Past (.cluster id) v → s.store.Past (.cluster id') v' →
    v.doc.clusterUID = v'.doc.clusterUID → id = id'
  owned : ∀ id w, s.store.Past (.claim id) w → w.doc.resourceID = id ∧
    ∃ owner v, w.doc.clusterResourceID = some owner ∧ s.store.Past (.cluster owner) v ∧
      v.doc.clusterUID = w.doc.clusterUUID
  -- a claim that is not marked stays as long as its owner
  held : ∀ id w, s.store.Past (.claim id) w → w.doc.deletionTimestamp = none →
    Gone s w.doc.clusterUUID ∨ Holds s id w.doc.clusterUUID
  backed : ∀ id v, s.store.current (.cluster id) = some v → v.doc.baseDomain ≠ "" →
    ∃ claimID, dnsClaimResourceID parseResourceID v.doc.baseDomain = .ok claimID ∧
      Holds s claimID v.doc.clusterUID
  released : ∀ r ∈ s.released, r.Proper

/-- What is never undone. -/
structure Later (s s' : System) : Prop where
  past : ∀ k v, s.store.Past k v → s'.store.Past k v
  gone : ∀ uid, Gone s uid → Gone s' uid
  clock : s.clock ≤ s'.clock

section

variable {parseResourceID : String → Except String ClaimID} {s s' s'' : System}

theorem Later.refl (s : System) : Later s s :=
  ⟨fun _ _ h => h, fun _ h => h, le_refl _⟩

theorem Later.trans (h : Later s s') (h' : Later s' s'') : Later s s'' :=
  ⟨fun k v hv => h'.past k v (h.past k v hv), fun uid huid => h'.gone uid (h.gone uid huid),
    h.clock.trans h'.clock⟩

instance : Std.Refl Later := ⟨Later.refl⟩

instance : IsTrans System Later := ⟨fun _ _ _ => Later.trans⟩

theorem Inv.empty : Inv parseResourceID System.empty where
  placed _ _ _ _ hv := by cases hv
  owned _ _ hw := by cases hw
  held _ _ hw := by cases hw
  backed _ _ hv := by cases hv
  released _ hr := by cases hr

theorem Gone.not_current {uid id : String} {v : Versioned Cluster} (h : Gone s uid)
    (hv : s.store.current (.cluster id) = some v) : v.doc.clusterUID ≠ uid :=
  h.2 id v hv

/-- The owner of a claim is gone if the cluster under its resource ID is another one. -/
theorem Inv.gone_of_live (h : Inv parseResourceID s) {id : ClaimID} {w : Versioned DNSClaim}
    {owner : String} (hw : s.store.Past (.claim id) w) (howner : w.doc.clusterResourceID = some owner)
    (hlive : isOwner w.doc (s.store.current (.cluster owner)) = false) : Gone s w.doc.clusterUUID := by
  obtain ⟨-, owner', v, howner', hv, huid⟩ := h.owned id w hw
  cases howner.symm.trans howner'
  refine ⟨⟨owner, v, hv, huid⟩, ?_⟩
  intro id' v' hv' heq
  have hid := h.placed id' owner v' v (s.store.current_mem (.cluster id') v' hv') hv
    (heq.trans huid.symm)
  subst hid
  unfold isOwner at hlive
  rw [hv', Option.any_some, decide_eq_false_iff_not] at hlive
  exact hlive heq

/-! ## Changes of the documents -/

theorem holds_put_iff {k : Key} {doc : Doc k} {id : ClaimID} {uid : String} (hk : Key.claim id ≠ k) :
    Holds { s with store := s.store.put k doc } id uid ↔ Holds s id uid := by
  unfold Holds
  rw [Store.put_current_of_ne _ _ hk]

variable (parseResourceID s) in
/-- The document may be written. -/
def MayPut : (k : Key) → Doc k → Prop
  -- a new incarnation, or the stored one with its UID, whose domain is backed
  | .cluster id, cluster => (∀ uid, Gone s uid → cluster.clusterUID ≠ uid) ∧
    (∀ id' v, s.store.Past (.cluster id') v → v.doc.clusterUID = cluster.clusterUID → id' = id) ∧
    (cluster.baseDomain ≠ "" →
      ∃ claimID, dnsClaimResourceID parseResourceID cluster.baseDomain = .ok claimID ∧
        Holds s claimID cluster.clusterUID)
  | .serviceProviderCluster _, _ => True
  -- a claim where there is none or whose owner is gone
  | .claim id, doc => (∀ uid, Holds s id uid → Gone s uid) ∧ doc.resourceID = id ∧
    ∃ owner v, doc.clusterResourceID = some owner ∧ s.store.Past (.cluster owner) v ∧
      v.doc.clusterUID = doc.clusterUUID

section

variable (h : Inv parseResourceID s)

include h

theorem Inv.put {k : Key} {doc : Doc k} (hput : MayPut parseResourceID s k doc) :
    Inv parseResourceID { s with store := s.store.put k doc } ∧
      Later s { s with store := s.store.put k doc } := by
  have hlater : Later s { s with store := s.store.put k doc } := by
    refine ⟨fun _ _ hv => hv.put k doc, fun uid hgone => ?_, le_refl _⟩
    obtain ⟨id, v, hv, huid⟩ := hgone.1
    refine ⟨⟨id, v, hv.put k doc, huid⟩, ?_⟩
    intro id' w hw
    by_cases hid : Key.cluster id' = k
    · subst hid
      rw [Store.put_current_self] at hw
      cases hw
      exact hput.1 uid hgone
    · exact hgone.2 id' w ((Store.put_current_of_ne _ _ hid).symm.trans hw)
  refine ⟨⟨?_, ?_, ?_, ?_, h.released⟩, hlater⟩
  · intro id₁ id₂ v1 v2 hv1 hv2 heq
    rcases Store.past_put hv1 with hold1 | hnew1
    · rcases Store.past_put hv2 with hold2 | hnew2
      · exact h.placed id₁ id₂ v1 v2 hold1 hold2 heq
      · cases hnew2
        exact hput.2.1 id₁ v1 hold1 heq
    · cases hnew1
      rcases Store.past_put hv2 with hold2 | hnew2
      · exact (hput.2.1 id₂ v2 hold2 heq.symm).symm
      · cases hnew2
        rfl
  · intro claimID w hw
    have hfound : w.doc.resourceID = claimID ∧ ∃ owner v, w.doc.clusterResourceID = some owner ∧
        s.store.Past (.cluster owner) v ∧ v.doc.clusterUID = w.doc.clusterUUID := by
      rcases Store.past_put hw with hold | hnew
      · exact h.owned claimID w hold
      · cases hnew
        exact hput.2
    obtain ⟨hid, owner, v, howner, hv, huid⟩ := hfound
    exact ⟨hid, owner, v, howner, hlater.past (.cluster owner) v hv, huid⟩
  · intro claimID w hw hmark
    rcases Store.past_put hw with hold | hnew
    · rcases h.held claimID w hold hmark with hgone | hholds
      · exact .inl (hlater.gone _ hgone)
      · by_cases hid : Key.claim claimID = k
        · subst hid
          exact .inl (hlater.gone _ (hput.1 _ hholds))
        · exact .inr ((holds_put_iff hid).mpr hholds)
    · cases hnew
      exact .inr ⟨_, Store.put_current_self .., rfl, hmark⟩
  · intro id v hv hdomain
    by_cases hid : Key.cluster id = k
    · subst hid
      rw [Store.put_current_self] at hv
      cases hv
      exact hput.2.2 hdomain
    · rw [Store.put_current_of_ne _ _ hid] at hv
      obtain ⟨claimID, hparse, hholds⟩ := h.backed id v hv hdomain
      refine ⟨claimID, hparse, (holds_put_iff ?_).mpr hholds⟩
      rintro rfl
      exact (hput.1 _ hholds).not_current hv rfl

/-- A claim may be deleted when whoever holds it is gone. -/
theorem Inv.remove {k : Key} {released : List Release}
    (hfree : ∀ id uid, k = .claim id → Holds s id uid → Gone s uid)
    (hreleased : ∀ r ∈ released, r.Proper) :
    Inv parseResourceID { s with store := s.store.remove k, released } ∧
      Later s { s with store := s.store.remove k, released } := by
  have hlater : Later s { s with store := s.store.remove k, released } := by
    refine ⟨fun _ _ hv => hv, ?_, le_refl _⟩
    rintro uid ⟨hpast, hcurrent⟩
    refine ⟨hpast, ?_⟩
    intro id w hw
    by_cases hid : Key.cluster id = k
    · subst hid
      rw [Store.remove_current_self] at hw
      cases hw
    · exact hcurrent id w ((Store.remove_current_of_ne _ hid).symm.trans hw)
  have hkept {claimID : ClaimID} {uid : String} (hne : Key.claim claimID ≠ k)
      (hholds : Holds s claimID uid) :
      Holds { s with store := s.store.remove k, released } claimID uid := by
    obtain ⟨w, hw, hrest⟩ := hholds
    exact ⟨w, (Store.remove_current_of_ne _ hne).trans hw, hrest⟩
  refine ⟨⟨h.placed, h.owned, ?_, ?_, hreleased⟩, hlater⟩
  · intro claimID w hw hmark
    rcases h.held claimID w hw hmark with hgone | hholds
    · exact .inl (hlater.gone _ hgone)
    · by_cases hid : Key.claim claimID = k
      · exact .inl (hlater.gone _ (hfree claimID _ hid.symm hholds))
      · exact .inr (hkept hid hholds)
  · intro id v hv hdomain
    by_cases hid : Key.cluster id = k
    · subst hid
      rw [Store.remove_current_self] at hv
      cases hv
    · rw [Store.remove_current_of_ne _ hid] at hv
      obtain ⟨claimID, hparse, hholds⟩ := h.backed id v hv hdomain
      refine ⟨claimID, hparse, hkept (fun hk => ?_) hholds⟩
      exact (hfree claimID _ hk.symm hholds).not_current hv rfl

theorem Inv.others (hstep : Others s s') :
    Inv parseResourceID s' ∧ Later s s' := by
  cases hstep with
  | createCluster id cluster hnone hfresh hdomain =>
    refine h.put (k := .cluster id) ⟨?_, ?_, ?_⟩
    · rintro uid ⟨⟨id', v, hv, rfl⟩, -⟩
      exact (hfresh id' v hv).symm
    · intro id' v hv heq
      exact absurd heq (hfresh id' v hv)
    · intro hne
      exact absurd hdomain hne
  | updateCluster id v cluster hcurrent huid hdomain =>
    have hpast := s.store.current_mem (.cluster id) v hcurrent
    refine h.put (k := .cluster id) ⟨?_, ?_, ?_⟩
    · intro uid hgone
      rw [huid]
      exact hgone.not_current hcurrent
    · intro id' v' hv' heq
      exact h.placed id' id v' v hv' hpast (heq.trans huid)
    · rw [huid, hdomain]
      exact h.backed id v hcurrent
  | deleteCluster | deleteServiceProviderCluster => exact h.remove (by simp) h.released
  | putServiceProviderCluster id doc => exact h.put (k := .serviceProviderCluster id) trivial
  | tick clock hclock =>
    exact ⟨⟨h.placed, h.owned, h.held, h.backed, h.released⟩, fun _ _ hv => hv, fun _ hg => hg, hclock⟩

end

end

/-! ## The calls -/

section Calls

variable {parseResourceID : String → Except String ClaimID} {s s' : System} {β : Type}
  {Q : β → System → Prop}

variable (parseResourceID) in
/-- The program keeps the invariant and what is never undone, and ends as `Q` says. -/
abbrev safe (p : Prog β) (Q : β → System → Prop) (s : System) : Prop :=
  wp sem (fun _ _ => True) (Inv parseResourceID) Later p Q s

variable (parseResourceID) in
/-- The call is refused, or keeps what is to be kept. -/
def Keeps (c : Call) (s : System) : Prop :=
  ∀ r s', sem c s r s' → s' = s ∨ Inv parseResourceID s' ∧ Later s s'

theorem safe_write {c : Call} {f : c.Reply → Prog β} (hinv : Inv parseResourceID s)
    (hwrite : Keeps parseResourceID c s)
    (h : ∀ r s', Inv parseResourceID s' → safe parseResourceID (f r) Q s') :
    safe parseResourceID (perform c >>= f) Q s := by
  refine wp_perform_bind ?_
  intro r s' hsem _
  refine ⟨?_, fun s'' _ => h r s''⟩
  rcases hwrite r s' hsem with rfl | hstep
  · exact ⟨hinv, Later.refl s'⟩
  · exact hstep

section

variable (hinv : Inv parseResourceID s)

include hinv

theorem replaceServiceProviderCluster_step {id : String} {etag : Nat} {doc : ServiceProviderCluster} :
    Keeps parseResourceID (.replaceServiceProviderCluster id etag doc) s := by
  rintro r s' (⟨store, hreplace, rfl⟩ | ⟨-, rfl⟩)
  · obtain ⟨v, -, -, rfl⟩ := Store.replace_eq_some hreplace
    exact .inr (hinv.put (k := .serviceProviderCluster id) trivial)
  · exact .inl rfl

/-- A name is published by the cluster that has claimed it: if the copy of the cluster is still the
stored one, the claim is there as well. -/
theorem publish_step {id : String} {v : Versioned Cluster} {claimID : ClaimID}
    {w : Versioned DNSClaim} {baseDomainPrefix : String} {domain : String}
    (hv : s.store.Past (.cluster id) v) (hw : s.store.Past (.claim claimID) w)
    (hparse : dnsClaimResourceID parseResourceID domain = .ok claimID)
    (howner : w.doc.clusterUUID = v.doc.clusterUID) (hmark : w.doc.deletionTimestamp = none) :
    Keeps parseResourceID (.replaceCluster id v.etag
      { v.doc with baseDomain := domain, baseDomainPrefix := baseDomainPrefix }) s := by
  rintro r s' (⟨store, hreplace, rfl⟩ | ⟨-, rfl⟩)
  · obtain ⟨hcurrent, rfl⟩ := hv.replace_eq_some hreplace
    have hgone : ∀ uid, Gone s uid → v.doc.clusterUID ≠ uid :=
      fun uid hgone => hgone.not_current hcurrent
    have hholds : Holds s claimID v.doc.clusterUID := by
      rcases hinv.held claimID w hw hmark with hgone' | hholds
      · exact absurd howner.symm (hgone _ hgone')
      · exact howner ▸ hholds
    refine .inr (hinv.put (k := .cluster id) ⟨hgone, ?_, fun _ => ⟨claimID, hparse, hholds⟩⟩)
    intro id' v' hv' heq
    exact hinv.placed id' id v' v hv' hv heq
  · exact .inl rfl

theorem createClaim_step {id : ClaimID} {doc : DNSClaim} (hid : doc.resourceID = id)
    (howner : ∃ owner v, doc.clusterResourceID = some owner ∧ s.store.Past (.cluster owner) v ∧
      v.doc.clusterUID = doc.clusterUUID) :
    Keeps parseResourceID (.createClaim id doc) s := by
  rintro r s' (⟨store, hcreate, rfl⟩ | ⟨-, rfl⟩)
  · obtain ⟨hnone, rfl⟩ := Store.create_eq_some hcreate
    have hfree : ∀ uid, Holds s id uid → Gone s uid := by
      rintro uid ⟨w, hw, -⟩
      rw [hnone] at hw
      cases hw
    exact .inr (hinv.put (k := .claim id) ⟨hfree, hid, howner⟩)
  · exact .inl rfl

omit hinv in
theorem gone_of_holds {id : ClaimID} {w : Versioned DNSClaim} (hgone : Gone s w.doc.clusterUUID)
    (hcurrent : s.store.current (.claim id) = some w) (uid : String) (h : Holds s id uid) :
    Gone s uid := by
  obtain ⟨w', hw', rfl, -⟩ := h
  cases hcurrent.symm.trans hw'
  exact hgone

variable {id : ClaimID} {w : Versioned DNSClaim} (hw : s.store.Past (.claim id) w)
  (hgone : Gone s w.doc.clusterUUID)

include hw hgone

theorem markClaim_step {mark : Time} :
    Keeps parseResourceID
      (.replaceClaim id w.etag { w.doc with deletionTimestamp := some mark }) s := by
  rintro r s' (⟨store, hreplace, rfl⟩ | ⟨-, rfl⟩)
  · obtain ⟨hcurrent, rfl⟩ := hw.replace_eq_some hreplace
    exact .inr (hinv.put (k := .claim id) ⟨gone_of_holds hgone hcurrent, hinv.owned id w hw⟩)
  · exact .inl rfl

theorem releaseClaim_step {marked : Time} (hmark : w.doc.deletionTimestamp = some marked)
    (hexpired : marked + deletedClaimRetention ≤ s.clock) :
    Keeps parseResourceID (.deleteClaimWithETag id w.etag) s := by
  rintro r s' (⟨v, hcurrent, hetag, rfl⟩ | ⟨-, rfl⟩)
  · have heq := Store.current_eq_of_etag hw hcurrent hetag
    cases heq
    have hproper : Release.Proper ⟨w.doc, s.clock, storedUIDs s⟩ := by
      refine ⟨?_, marked, hmark, hexpired⟩
      intro hmem
      obtain ⟨id', v', hv', huid⟩ := mem_storedUIDs.mp hmem
      exact hgone.not_current hv' huid
    refine .inr (hinv.remove ?_ (List.forall_mem_cons.mpr ⟨hproper, hinv.released⟩))
    rintro id' uid ⟨⟩
    exact gone_of_holds hgone hcurrent uid
  · exact .inl rfl

end

end Calls

/-! ## The controllers -/

section Controllers

variable {parseResourceID : String → Except String ClaimID} {s : System}

section

variable (hinv : Inv parseResourceID s)

include hinv

/-- A cached claim of a domain is one that was stored under the ID of the domain. -/
theorem getCachedClaim_safe {baseDomain : String} :
    safe parseResourceID (getCachedClaim parseResourceID baseDomain)
      (fun r s' => ∀ w, r = .ok (some w) →
      ∃ id, dnsClaimResourceID parseResourceID baseDomain = .ok id ∧
        s'.store.Past (.claim id) w) s := by
  unfold getCachedClaim
  cases hparse : dnsClaimResourceID parseResourceID baseDomain with
  | error err =>
    intro w hw
    cases hw
  | ok id =>
    refine wp_read_bind (f := Program.ret) hinv (fun _ _ hsem => hsem.2) ?_
    intro r s' hsem hlater _ w hw
    exact ⟨id, rfl, hlater.past (.claim id) w (hsem.1 w hw)⟩

theorem allocateStep_safe {id : String} {cluster : Versioned Cluster}
    {spc : Versioned ServiceProviderCluster} {parentZone desiredDomain : String}
    {claim : Option (Versioned DNSClaim)} (hcluster : s.store.Past (.cluster id) cluster)
    (hclaim : ∀ w, claim = some w → ∃ claimID,
      dnsClaimResourceID parseResourceID desiredDomain = .ok claimID ∧
        s.store.Past (.claim claimID) w) :
    safe parseResourceID (allocateStep parseResourceID id cluster spc parentZone desiredDomain
      (claim.map (·.doc))) (fun _ _ => True) s := by
  unfold allocateStep
  dsimp only
  generalize (if cluster.doc.baseDomainPrefix = "" then "cluster"
    else cluster.doc.baseDomainPrefix) = baseDomainPrefix
  split
  · trivial
  split
  · refine wp_read_bind hinv (fun _ _ hsem => hsem) ?_
    intro slug s1 _ _ hinv1
    exact safe_write hinv1 (replaceServiceProviderCluster_step hinv1) fun _ _ _ => trivial
  · rename_i hselect
    cases claim with
    | none =>
      cases hparse : dnsClaimResourceID parseResourceID desiredDomain with
      | error err => trivial
      | ok claimID =>
        refine wp_read_bind hinv (fun _ _ hsem => hsem.2) ?_
        intro now s1 _ hlater1 hinv1
        exact safe_write hinv1 (createClaim_step hinv1 rfl
          ⟨id, cluster, rfl, hlater1.past (.cluster id) cluster hcluster, rfl⟩) fun _ _ _ => trivial
    | some w =>
      obtain ⟨claimID, hparse, hw⟩ := hclaim w rfl
      have havailable : w.doc.clusterUUID = cluster.doc.clusterUID ∧
          w.doc.deletionTimestamp = none := by
        rw [Option.map_some, Option.any_some, Bool.or_eq_true, not_or, Bool.or_eq_true, not_or,
          decide_eq_true_eq, decide_eq_true_eq, not_ne_iff, Option.not_isSome_iff_eq_none] at hselect
        exact hselect.2
      rw [Option.map_some]
      split_ifs
      · exact safe_write hinv (publish_step hinv hcluster hw hparse havailable.1 havailable.2)
          fun _ _ _ => trivial
      · trivial

theorem allocate_safe {id : String} {cluster : Versioned Cluster}
    {spc : Versioned ServiceProviderCluster} {parentZone : String}
    (hcluster : s.store.Past (.cluster id) cluster) :
    safe parseResourceID (allocate parseResourceID id cluster spc parentZone)
      (fun _ _ => True) s := by
  unfold allocate
  dsimp only
  generalize (if spc.doc.desiredDNSBaseDomain = "" then cluster.doc.baseDomain
    else spc.doc.desiredDNSBaseDomain) = desiredDomain
  split_ifs
  · trivial
  · trivial
  · have hnone : ∀ w, (none : Option (Versioned DNSClaim)) = some w → ∃ claimID,
        dnsClaimResourceID parseResourceID desiredDomain = .ok claimID ∧
          s.store.Past (.claim claimID) w := by simp
    exact allocateStep_safe hinv hcluster hnone
  · refine wp_seq hinv (getCachedClaim_safe hinv) ?_
    rintro (err | claim) s1 hclaim hlater1 hinv1
    · trivial
    · refine allocateStep_safe hinv1 (hlater1.past (.cluster id) cluster hcluster) ?_
      rintro w rfl
      exact hclaim w rfl

theorem allocationSyncOnce_safe {id : String} :
    safe parseResourceID (allocationSyncOnce parseResourceID id) (fun _ _ => True) s := by
  refine wp_read_bind hinv (fun _ _ hsem => hsem.2) ?_
  intro r s1 hsem hlater1 hinv1
  rcases r with err | (_ | cluster)
  · trivial
  · trivial
  have hcluster := hlater1.past (.cluster id) cluster (hsem.1 cluster rfl)
  dsimp only
  split_ifs
  · trivial
  refine wp_read_bind hinv1 (fun _ _ hsem => hsem.2) ?_
  intro r s2 _ hlater2 hinv2
  rcases r with err | (_ | spc)
  · trivial
  · trivial
  dsimp only
  rcases spc.doc.managementCluster with _ | managementCluster
  · trivial
  refine wp_read_bind hinv2 (fun _ _ hsem => hsem) ?_
  intro r s3 _ hlater3 hinv3
  rcases r with err | (_ | tenantID)
  · trivial
  · trivial
  refine wp_read_bind hinv3 (fun _ _ hsem => hsem) ?_
  intro r s4 _ hlater4 hinv4
  rcases r with err | (_ | _)
  · trivial
  · refine wp_read_bind hinv4 (fun _ _ hsem => hsem) ?_
    intro r s5 _ hlater5 hinv5
    rcases r with err | (_ | zone)
    · trivial
    · trivial
    have hlater := ((hlater2.trans hlater3).trans hlater4).trans hlater5
    refine wp_bind (wp_mono ?_ (allocate_safe hinv5 (hlater.past (.cluster id) cluster hcluster)))
    intro _ _ _
    trivial
  · trivial

/-- A claim that is marked is worked on only when its retention is over. -/
theorem cleanupNeedsWork_safe {claim : DNSClaim} :
    safe parseResourceID (cleanupNeedsWork claim)
      (fun r s' => r = true → ∀ marked, claim.deletionTimestamp = some marked →
        marked + deletedClaimRetention ≤ s'.clock) s := by
  unfold cleanupNeedsWork
  cases claim.deletionTimestamp with
  | none =>
    intro _ marked heq
    cases heq
  | some marked =>
    refine wp_read_bind hinv (fun _ _ hsem => hsem.2) ?_
    intro now s' hsem hlater _ hr marked' heq
    cases heq
    rw [Bool.not_eq_true', decide_eq_false_iff_not, not_lt] at hr
    exact (hr.trans hsem.1.le).trans hlater.clock

theorem markOrRelease_safe {id : ClaimID} {claim : Versioned DNSClaim}
    (hclaim : s.store.Past (.claim id) claim) (hgone : Gone s claim.doc.clusterUUID)
    (hexpired : ∀ marked, claim.doc.deletionTimestamp = some marked →
      marked + deletedClaimRetention ≤ s.clock) :
    safe parseResourceID (markOrRelease claim) (fun _ _ => True) s := by
  have hid : claim.doc.resourceID = id := (hinv.owned id claim hclaim).1
  unfold markOrRelease
  rw [hid]
  split_ifs with hmark
  · refine wp_read_bind hinv (fun _ _ hsem => hsem.2) ?_
    intro now s' _ hlater hinv'
    exact safe_write (f := Program.ret) hinv' (markClaim_step hinv'
      (hlater.past (.claim id) claim hclaim) (hlater.gone _ hgone)) fun _ _ _ => trivial
  · obtain ⟨marked, hmarked⟩ := Option.ne_none_iff_exists'.mp
      (fun hnone => hmark (Option.isNone_iff_eq_none.mpr hnone))
    exact safe_write (f := Program.ret) hinv
      (releaseClaim_step hinv hclaim hgone hmarked (hexpired marked hmarked)) fun _ _ _ => trivial

theorem cleanupSyncOnce_safe {baseDomain : String} :
    safe parseResourceID (cleanupSyncOnce parseResourceID baseDomain) (fun _ _ => True) s := by
  refine wp_seq hinv (getCachedClaim_safe hinv) ?_
  rintro (err | (_ | claim)) s1 hclaim - hinv1
  · trivial
  · trivial
  obtain ⟨id, -, hpast1⟩ := hclaim claim rfl
  refine wp_seq hinv1 (cleanupNeedsWork_safe hinv1) ?_
  rintro (_ | _) s2 hexpired hlater2 hinv2
  · trivial
  rcases howner : claim.doc.clusterResourceID with _ | ownerID
  · trivial
  refine wp_read_bind hinv2 (fun _ _ hsem => hsem.2) ?_
  intro r s3 _ hlater3 hinv3
  rcases r with err | cached
  · trivial
  dsimp only
  split_ifs
  · trivial
  refine wp_read_bind hinv3 (fun _ _ hsem => hsem.2) ?_
  intro r s4 hsem hlater4 hinv4
  rcases r with err | cluster
  · trivial
  dsimp only
  split_ifs with hlive
  · trivial
  have hpast3 := (hlater2.trans hlater3).past (.claim id) claim hpast1
  have hgone : Gone s3 claim.doc.clusterUUID := by
    refine hinv3.gone_of_live hpast3 howner ?_
    rw [hsem.1 cluster rfl]
    exact Bool.not_eq_true _ ▸ hlive
  have hclock := (hlater3.trans hlater4).clock
  refine wp_bind (wp_mono ?_ (markOrRelease_safe hinv4 (hlater4.past (.claim id) claim hpast3)
    (hlater4.gone _ hgone) fun marked hmarked => (hexpired rfl marked hmarked).trans hclock))
  rintro (_ | _ | _ | _ | _) _ _
  all_goals trivial

end

end Controllers

/-! ## Every run -/

theorem program_safe {parseResourceID : String → Except String ClaimID} {s : System} (task : Task)
    (hinv : Inv parseResourceID s) :
    safe parseResourceID (program parseResourceID task) (fun _ _ => True) s := by
  cases task with
  | allocation id => exact allocationSyncOnce_safe hinv
  | cleanup baseDomain => exact cleanupSyncOnce_safe hinv

/-- Two clusters that hold claims for their domains, which are the same, are one. -/
theorem Inv.exclusive {parseResourceID : String → Except String ClaimID} {s : System}
    (h : Inv parseResourceID s) {id id' : String} {v v' : Versioned Cluster}
    (hv : s.store.current (.cluster id) = some v) (hv' : s.store.current (.cluster id') = some v')
    (hdomain : v.doc.baseDomain ≠ "") (heq : v.doc.baseDomain = v'.doc.baseDomain) :
    v.doc.clusterUID = v'.doc.clusterUID := by
  obtain ⟨claimID, hparse, w, hw, hwuid, -⟩ := h.backed id v hv hdomain
  obtain ⟨claimID', hparse', w', hw', hwuid', -⟩ := h.backed id' v' hv' (heq ▸ hdomain)
  rw [heq] at hparse
  cases hparse.symm.trans hparse'
  cases hw.symm.trans hw'
  exact hwuid.symm.trans hwuid'

/-- In every run, stored clusters with different UIDs have different committed domains, every
committed domain is backed by a claim of its cluster that is not marked, and a claim is deleted only
when its owner is gone and a week has passed since its mark. -/
theorem dnsNames_exclusive (parseResourceID : String → Except String ClaimID)
    {pool : Pool System Call Call.Reply (Option String)}
    (hrun : ReflTransGen (Step sem (program parseResourceID) Others fun _ _ => True)
      ⟨System.empty, []⟩ pool) :
    (∀ id id' v v', pool.state.store.current (.cluster id) = some v →
      pool.state.store.current (.cluster id') = some v' → v.doc.clusterUID ≠ v'.doc.clusterUID →
      v.doc.baseDomain ≠ "" → v'.doc.baseDomain ≠ "" → v.doc.baseDomain ≠ v'.doc.baseDomain) ∧
    (∀ id v, pool.state.store.current (.cluster id) = some v → v.doc.baseDomain ≠ "" →
      ∃ claimID w, dnsClaimResourceID parseResourceID v.doc.baseDomain = .ok claimID ∧
        pool.state.store.current (.claim claimID) = some w ∧
        w.doc.clusterUUID = v.doc.clusterUID ∧ w.doc.deletionTimestamp = none) ∧
    ∀ r ∈ pool.state.released, r.claim.clusterUUID ∉ r.stored ∧
      ∃ marked, r.claim.deletionTimestamp = some marked ∧
        marked + deletedClaimRetention ≤ r.time := by
  have hready := Ready.run
    (fun task _ hinv => program_safe task hinv) (fun _ _ hinv => hinv.others)
    (Ready.initial (Inv.empty : Inv parseResourceID System.empty)) hrun
  have hinv := hready.1.1
  refine ⟨?_, ?_, hinv.released⟩
  · intro id id' v v' hv hv' huid hdomain _ heq
    exact huid (hinv.exclusive hv hv' hdomain heq)
  · intro id v hv hdomain
    obtain ⟨claimID, hparse, w, hw, hrest⟩ := hinv.backed id v hv hdomain
    exact ⟨claimID, w, hparse, hw, hrest⟩

/-! ## A run of a small system -/

section Examples

/-- How a call of an execution is answered. -/
inductive Hint where
  | fresh
  | text (s : String)

/-- Caches are up to date and what can succeed does. -/
def answer : (c : Call) → Hint → System → Option (c.Reply × System)
  | .cachedCluster id, .fresh, s => some (.ok (s.store.current (.cluster id)), s)
  | .cachedServiceProviderCluster id, .fresh, s =>
    some (.ok (s.store.current (.serviceProviderCluster id)), s)
  | .cachedClaim id, .fresh, s => some (.ok (s.store.current (.claim id)), s)
  | .getCluster id, .fresh, s => some (.ok (s.store.current (.cluster id)), s)
  | .tenantID _, .fresh, s => some (.ok (some "tenant"), s)
  | .findClusterByAzureInfo _ _ _, .fresh, s => some (.ok false, s)
  | .publicDNSZone _, .text zone, s => some (.ok (some zone), s)
  | .generateDNSSlug, .text slug, s => some (slug, s)
  | .now, .fresh, s => some (s.clock, s)
  | .replaceServiceProviderCluster id etag doc, .fresh, s =>
    (s.store.replace (.serviceProviderCluster id) etag doc).map fun store => (none, { s with store })
  | .replaceCluster id etag doc, .fresh, s =>
    (s.store.replace (.cluster id) etag doc).map fun store => (none, { s with store })
  | .replaceClaim id etag doc, .fresh, s =>
    (s.store.replace (.claim id) etag doc).map fun store => (none, { s with store })
  | .createClaim id doc, .fresh, s =>
    (s.store.create (.claim id) doc).map fun store => (none, { s with store })
  | .deleteClaimWithETag id etag, .fresh, s =>
    match s.store.current (.claim id) with
    | none => none
    | some v =>
      if v.etag = etag then
        some (none, { s with
          store := s.store.remove (.claim id)
          released := ⟨v.doc, s.clock, storedUIDs s⟩ :: s.released })
      else none
  | _, _, _ => none

theorem replaces_of_map {s s' : System} {k : Key} {etag : Nat} {doc : Doc k} {r : Option WriteError}
    (h : (s.store.replace k etag doc).map (fun store =>
      ((none : Option WriteError), ({ s with store } : System))) = some (r, s')) :
    replaces s k etag doc r s' := by
  obtain ⟨store, hreplace, heq⟩ := Option.map_eq_some_iff.mp h
  cases heq
  exact .inl ⟨store, hreplace, rfl⟩

theorem sem_of_answer {c : Call} {hint : Hint} {s : System} {r : c.Reply} {s' : System}
    (h : answer c hint s = some (r, s')) : sem c s r s' := by
  cases c <;> cases hint <;> simp only [answer, reduceCtorEq] at h
  case cachedCluster.fresh | cachedServiceProviderCluster.fresh | cachedClaim.fresh =>
    cases h
    exact ⟨s.store.cacheRead_current _, rfl⟩
  case getCluster.fresh id =>
    cases h
    exact ⟨s.store.liveRead_current (.cluster id), rfl⟩
  case now.fresh =>
    cases h
    exact ⟨rfl, rfl⟩
  case replaceServiceProviderCluster.fresh | replaceCluster.fresh | replaceClaim.fresh =>
    exact replaces_of_map h
  case createClaim.fresh id doc =>
    obtain ⟨store, hcreate, heq⟩ := Option.map_eq_some_iff.mp h
    cases heq
    exact .inl ⟨store, hcreate, rfl⟩
  case deleteClaimWithETag.fresh id etag =>
    split at h
    · cases h
    · rename_i v hcurrent
      split_ifs at h with hetag
      cases h
      exact .inl ⟨v, hcurrent, hetag, rfl⟩
  all_goals
    cases h
    rfl

/-- What the others do in an execution. -/
inductive Change where
  | createCluster (id uid : String)
  | deleteCluster (id : String)
  | createServiceProviderCluster (id : String)
  | tick (clock : Time)

def change : Change → System → Option System
  | .createCluster id uid, s =>
    if (s.store.current (.cluster id)).isNone ∧ ∀ e ∈ s.store.history, uidOf e ≠ some uid then
      some { s with
        store := s.store.put (.cluster id)
          { clusterUID := uid, pendingClusterServiceID := some "pending" } }
    else none
  | .deleteCluster id, s => some { s with store := s.store.remove (.cluster id) }
  | .createServiceProviderCluster id, s =>
    some { s with
      store := s.store.put (.serviceProviderCluster id) { managementCluster := some "stamp" } }
  | .tick clock, s => if s.clock ≤ clock then some { s with clock } else none

theorem others_of_change (e : Change) (s s' : System) (h : change e s = some s') : Others s s' := by
  cases e <;> simp only [change] at h
  case createCluster id uid =>
    split_ifs at h with hnew
    cases h
    refine .createCluster s id _ (Option.isNone_iff_eq_none.mp hnew.1) ?_ rfl
    intro id' v hv huid
    exact hnew.2 _ hv (congrArg some huid)
  case deleteCluster id =>
    cases h
    exact .deleteCluster s id
  case createServiceProviderCluster id =>
    cases h
    exact .putServiceProviderCluster s id _
  case tick clock =>
    split_ifs at h with hclock
    cases h
    exact .tick s clock hclock

def exampleParse (text : String) : Except String ClaimID :=
  match GoStrings.split text '/' with
  | ["", "providers", _, "dnsZones", zone, "dnsClaims", slug] => .ok ⟨zone, slug⟩
  | _ => .error "invalid resource ID"

/-- A cluster selects a name, claims it and publishes it, in three runs. -/
def allocated (place : Nat) (id slug : String) : List (Turn Task Hint Change) :=
  let lookups : List Hint := [.fresh, .fresh, .fresh, .fresh, .text "z"]
  Turn.program place (.allocation id) (lookups ++ [.text slug, .fresh]) ++
    Turn.program (place + 1) (.allocation id) (lookups ++ [.fresh, .fresh, .fresh]) ++
    Turn.program (place + 2) (.allocation id) (lookups ++ [.fresh, .fresh])

/-- Two clusters get names. The first is deleted and its claim marked; a week later it is released.
-/
def exampleTurns : List (Turn Task Hint Change) :=
  [.env (.createCluster "a" "u1"), .env (.createServiceProviderCluster "a"),
    .env (.createCluster "b" "u2"), .env (.createServiceProviderCluster "b")] ++
  allocated 0 "a" "x" ++ allocated 3 "b" "y" ++ [.env (.deleteCluster "a")] ++
  Turn.program 6 (.cleanup "x.z") [.fresh, .fresh, .fresh, .fresh, .fresh] ++
  [.env (.tick deletedClaimRetention), .env (.createCluster "a" "u3")] ++
  Turn.program 7 (.cleanup "x.z") [.fresh, .fresh, .fresh, .fresh, .fresh]

def domains (s : System) : Option String × Option String × List String :=
  ((s.store.current (.cluster "a")).map (·.doc.baseDomain),
    (s.store.current (.cluster "b")).map (·.doc.baseDomain),
    s.released.map (·.claim.clusterUUID))

/-- A cluster whose domain is backed, beside the next incarnation of one whose name has been
released. -/
theorem dnsNames_exclusive_released :
    ∃ pool, ReflTransGen (Step sem (program exampleParse) Others fun _ _ => true = true)
        ⟨System.empty, []⟩ pool ∧
      domains pool.state = (some "", some "y.z", ["u1"]) ∧
      (∀ id v, pool.state.store.current (.cluster id) = some v → v.doc.baseDomain ≠ "" →
        ∃ claimID w, dnsClaimResourceID exampleParse v.doc.baseDomain = .ok claimID ∧
          pool.state.store.current (.claim claimID) = some w ∧
          w.doc.clusterUUID = v.doc.clusterUID ∧ w.doc.deletionTimestamp = none) ∧
      ∀ r ∈ pool.state.released, r.claim.clusterUUID ∉ r.stored ∧
        ∃ marked, r.claim.deletionTimestamp = some marked ∧
          marked + deletedClaimRetention ≤ r.time := by
  have hanswer : ∀ c hint s r s', answer c hint s = some (r, s') → sem c s r s' :=
    fun _ _ _ _ _ h => sem_of_answer h
  have hplay : (play answer (program exampleParse) (fun _ _ => true) change ⟨System.empty, []⟩
      exampleTurns).map (fun pool => domains pool.state) = some (some "", some "y.z", ["u1"]) := by
    decide +kernel
  obtain ⟨pool, hrun, hresult⟩ := exists_run_of_play domains hanswer others_of_change hplay
  have hexclusive := dnsNames_exclusive exampleParse (run_mono (fun _ _ _ => trivial) hrun)
  exact ⟨pool, hrun, hresult, hexclusive.2⟩

end Examples

end AroHcp.Dns
