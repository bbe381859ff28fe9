import AroHcp.ClusterResources.Process

/-! Which desires a pass turns into deletes. -/

namespace AroHcp.ClusterResources

open Desires DocStore GoFmt Program Unstructured

variable {lib : Libraries} {mc : String} {np : String → Except String (Option NodePool)}
  {stored : List ApplyDesire} {t : List (Sigma Call.Reply)}

/-- The answers of a pass: the node pools are as the cache has them, the desires that are listed are
those stored, and a document that is read is one of them, of the ID that was asked for. -/
structure Answers (np : String → Except String (Option NodePool)) (stored : List ApplyDesire)
    (t : List (Sigma Call.Reply)) : Prop where
  nodePool : ∀ name r, ⟨Call.nodePool name, r⟩ ∈ t → r = np (toLower name)
  listed : ∀ l, ⟨Call.listApplyDesires, .ok l⟩ ∈ t → l = stored
  document : ∀ k v, ⟨Call.getApplyDesire k, .ok (some v)⟩ ∈ t →
    v.doc ∈ stored ∧ v.doc.resourceID.toLower = k

theorem Answers.mono {t' : List (Sigma Call.Reply)} (h : Answers np stored t')
    (ht : ∀ e ∈ t, e ∈ t') : Answers np stored t :=
  ⟨fun name r hr => h.nodePool name r (ht _ hr), fun l hl => h.listed l (ht _ hl),
    fun k v hv => h.document k v (ht _ hv)⟩

/-- The desire belongs to a node pool that is absent or being deleted. -/
def Gone (np : String → Except String (Option NodePool)) (k : DesireKey) : Prop :=
  ∃ name, k.scope = .nodePool name ∧ (np name = .ok none ∨
    ∃ p, np name = .ok (some p) ∧ p.deletionTimestamp.isSome = true)

/-! ## What the loop marks as desired -/

def Recognized.key (r : Recognized) : DesireKey :=
  DesireKey.toLower ⟨if r.classified.nodePoolName ≠ "" then .nodePool r.classified.nodePoolName
    else .cluster, r.classified.desireName.text⟩

def buildDesire (lib : Libraries) (managementCluster resourceKey : String) (r : Recognized) :
    Except String ApplyDesire :=
  if r.classified.nodePoolName ≠ "" then nodePoolDesire lib managementCluster r
  else clusterDesire lib managementCluster resourceKey r

/-- Desires of this name are looked at when stale ones are removed. -/
def nameMayBeStale (name : String) : Bool :=
  !managedByKubeAPIServerServingCertificate name &&
    !legacyACMBasedIngressCertificateWiringDesireName name

/-- The resource gets through every step of the pass up to its desire: it is decoded, mapped and
classified, it is not handled elsewhere, its node pool is found and stays, and its desire is built.
-/
structure Processed (lib : Libraries) (managementCluster : String)
    (np : String → Except String (Option NodePool)) (resource : String × String) (r : Recognized) :
    Prop where
  recognized : recognize lib resource.1 resource.2 = .ok r
  handled : nameMayBeStale r.classified.desireName.text = true
  nodePool : r.classified.nodePoolName ≠ "" → ∃ p, np (toLower r.classified.nodePoolName) =
    .ok (some p) ∧ p.deletionTimestamp = none
  built : ∃ desire, buildDesire lib managementCluster resource.1 r = .ok desire

/-- The desire that is built if the node pool stays. -/
def builtDesire (lib : Libraries) (managementCluster : String)
    (np : String → Except String (Option NodePool)) (resourceKey : String) (r : Recognized) :
    Option ApplyDesire :=
  if r.classified.nodePoolName ≠ "" then
    match np (toLower r.classified.nodePoolName) with
    | .ok (some p) =>
      if p.deletionTimestamp.isSome then none
      else (nodePoolDesire lib managementCluster r).toOption
    | _ => none
  else (clusterDesire lib managementCluster resourceKey r).toOption

/-- The ID that a resource keeps from being reaped. -/
def desiredKey (lib : Libraries) (managementCluster : String)
    (np : String → Except String (Option NodePool)) (resource : String × String) :
    Option DesireKey :=
  match recognize lib resource.1 resource.2 with
  | .error _ => none
  | .ok r =>
    if managedByKubeAPIServerServingCertificate r.classified.desireName.text then none
    else if legacyACMBasedIngressCertificateWiringDesireName r.classified.desireName.text then none
    else (builtDesire lib managementCluster np resource.1 r).map (·.resourceID.toLower)

theorem buildApplyDesire_spec {scope : DesireScope} {desireName : String}
    {target : ResourceReference} {obj : Json} {desire : ApplyDesire}
    (h : buildApplyDesire lib mc scope desireName target obj = .ok desire) :
    desire.resourceID = DesireKey.toLower ⟨scope, desireName⟩ ∧
      desire.spec.type = .serverSideApply := by
  unfold buildApplyDesire at h
  dsimp only at h
  split at h
  · cases h
  split at h
  · cases h
  · cases h
    exact ⟨rfl, rfl⟩

theorem buildDesire_spec {resourceKey : String} {r : Recognized} {desire : ApplyDesire}
    (h : buildDesire lib mc resourceKey r = .ok desire) :
    desire.resourceID = r.key ∧ desire.spec.type = .serverSideApply := by
  unfold buildDesire at h
  unfold Recognized.key
  split_ifs at h ⊢ with hpool
  · unfold nodePoolDesire at h
    split at h
    · cases h
    · exact buildApplyDesire_spec h
  · unfold clusterDesire at h
    split_ifs at h
    · split at h
      · cases h
      · exact buildApplyDesire_spec h
    · exact buildApplyDesire_spec h

theorem Recognized.key_toLower (r : Recognized) : r.key.toLower = r.key := by
  unfold Recognized.key DesireKey.toLower
  split_ifs <;> simp [DesireScope.toLower]

theorem desiredKey_eq_some_iff {resource : String × String} {k : DesireKey} :
    desiredKey lib mc np resource = some k ↔ ∃ r, Processed lib mc np resource r ∧ r.key = k := by
  have hbuilt : ∀ r, (builtDesire lib mc np resource.1 r).map (·.resourceID.toLower) = some k ↔
      (r.classified.nodePoolName ≠ "" → ∃ p, np (toLower r.classified.nodePoolName) =
        .ok (some p) ∧ p.deletionTimestamp = none) ∧
      (∃ desire, buildDesire lib mc resource.1 r = .ok desire) ∧ r.key = k := by
    intro r
    have hkey := @buildDesire_spec lib mc resource.1 r
    have hlower := r.key_toLower
    unfold builtDesire
    unfold buildDesire at hkey ⊢
    split_ifs at hkey ⊢ with hpool
    · match np (toLower r.classified.nodePoolName) with
      | .error err => simp [hpool]
      | .ok none => simp [hpool]
      | .ok (some p) =>
        dsimp only
        cases hdeleting : p.deletionTimestamp <;> cases hn : nodePoolDesire lib mc r <;>
          simp_all [Except.toOption]
    · cases hc : clusterDesire lib mc resource.1 r <;> simp_all [Except.toOption]
  unfold desiredKey
  constructor
  · intro h
    split at h
    · cases h
    · next r hr =>
      split_ifs at h with hmanaged hlegacy
      obtain ⟨hnp, hdesire, hk⟩ := (hbuilt r).mp h
      exact ⟨r, ⟨hr, by simp [nameMayBeStale, hmanaged, hlegacy], hnp, hdesire⟩, hk⟩
  · rintro ⟨r, ⟨hr, hname, hnp, hdesire⟩, hk⟩
    simp only [nameMayBeStale, Bool.and_eq_true, Bool.not_eq_true'] at hname
    simp only [hr, hname.1, hname.2, Bool.false_eq_true, if_false]
    exact (hbuilt r).mpr ⟨hnp, hdesire, hk⟩

theorem toOption_map_some {ε α : Type} (x : Except ε α) :
    (x.map some).toOption.join = x.toOption := by
  cases x <;> rfl

theorem desireFor_ends {resourceKey : String} {r : Recognized}
    {result : Except String (Option ApplyDesire)}
    (h : Ends (desireFor lib mc resourceKey r) t result) (hanswers : Answers np stored t) :
    result.toOption.join = builtDesire lib mc np resourceKey r := by
  unfold desireFor at h
  unfold builtDesire
  split_ifs at h ⊢ with hpool
  · obtain ⟨answer, rest, rfl, hrest⟩ := h.perform_bind_inv
    rw [← hanswers.nodePool _ answer List.mem_cons_self]
    match answer with
    | .error err =>
      cases hrest.eq_of_ret
      rfl
    | .ok none =>
      cases hrest.eq_of_ret
      rfl
    | .ok (some p) =>
      dsimp only at hrest ⊢
      split_ifs at hrest ⊢ with hdeleting
      · cases hrest.eq_of_ret
        rfl
      · cases hrest.eq_of_ret
        exact toOption_map_some _
  · cases h.eq_of_ret
    exact toOption_map_some _

theorem processResource_ends {resource : String × String} {desired : Option DesireKey}
    {errs : List String}
    (h : Ends (processResource lib mc resource.1 resource.2) t (desired, errs))
    (hanswers : Answers np stored t) : desired = desiredKey lib mc np resource := by
  unfold processResource at h
  unfold desiredKey
  cases hrecognize : recognize lib resource.1 resource.2 with
  | error err =>
    rw [hrecognize] at h
    cases h.eq_of_ret
    rfl
  | ok r =>
    rw [hrecognize] at h
    dsimp only at h ⊢
    split_ifs at h ⊢ with hmanaged hlegacy
    · cases h.eq_of_ret
      rfl
    · cases h.eq_of_ret
      rfl
    obtain ⟨t1, t2, result, rfl, h1, h2⟩ := h.bind_inv
    rw [← desireFor_ends h1 (hanswers.mono fun e he => List.mem_append_left _ he)]
    match result with
    | .error err =>
      cases h2.eq_of_ret
      rfl
    | .ok none =>
      cases h2.eq_of_ret
      rfl
    | .ok (some desire) =>
      obtain ⟨t3, t4, errs', rfl, -, h4⟩ := h2.bind_inv
      cases h4.eq_of_ret
      rfl

/-- The IDs that the loop marks do not depend on how the stores answer. -/
theorem processResources_ends {resources : List (String × String)} {desired : List DesireKey}
    {errs : List String}
    (h : Ends (processResources lib mc resources) t (desired, errs))
    (hanswers : Answers np stored t) :
    desired = resources.filterMap (desiredKey lib mc np) := by
  induction resources generalizing t desired errs with
  | nil =>
    cases h.eq_of_ret
    rfl
  | cons resource rest ih =>
    obtain ⟨t1, t2, ⟨first, errs₁⟩, rfl, h1, h2⟩ := h.bind_inv
    obtain ⟨t3, t4, ⟨others, errs₂⟩, rfl, h3, h4⟩ := h2.bind_inv
    cases h4.eq_of_ret
    have hfirst := processResource_ends h1 (hanswers.mono (by simp +contextual))
    have hothers := ih h3 (hanswers.mono (by simp +contextual))
    rw [List.filterMap_cons, hothers, hfirst]
    cases desiredKey lib mc np resource <;> rfl

/-! ## What turns a desire into a delete -/

def flips : Call → Prop
  | .replaceApplyDesire _ d => d.spec.type = .delete
  | _ => False

abbrev NoFlip {β : Type} (p : Prog β) : Prop := Only (fun c => ¬flips c) p

variable {desire : ApplyDesire}

theorem ensureApplyDesire_noFlip (h : desire.spec.type = .serverSideApply) :
    NoFlip (ensureApplyDesire desire) := by
  unfold ensureApplyDesire
  split_ifs
  · exact only_ret _
  refine only_perform_bind (by simp [flips]) ?_
  intro existing
  match existing with
  | .error err => exact only_ret _
  | .ok none =>
    refine only_perform_bind (by simp [flips]) ?_
    intro outcome
    cases outcome <;> exact only_ret _
  | .ok (some existing) =>
    dsimp only
    split_ifs
    · refine only_perform_bind (by simp [flips, h]) ?_
      intro outcome
      cases outcome <;> exact only_ret _
    · exact only_ret _

theorem ensureReadDesire_noFlip (desire : ReadDesire) : NoFlip (ensureReadDesire desire) := by
  unfold ensureReadDesire
  split_ifs
  · exact only_ret _
  refine only_perform_bind (by simp [flips]) ?_
  intro existing
  match existing with
  | .error err => exact only_ret _
  | .ok none =>
    refine only_perform_bind (by simp [flips]) ?_
    intro outcome
    cases outcome <;> exact only_ret _
  | .ok (some existing) =>
    dsimp only
    split_ifs
    · refine only_perform_bind (by simp [flips]) ?_
      intro outcome
      cases outcome <;> exact only_ret _
    · exact only_ret _

theorem desireFor_type {resourceKey : String} {r : Recognized}
    (h : Ends (desireFor lib mc resourceKey r) t (.ok (some desire))) :
    desire.spec.type = .serverSideApply := by
  have hmap : ∀ {x : Except String ApplyDesire}, .ok (some desire) = x.map some → x = .ok desire := by
    intro x hx
    cases x with
    | error err => cases hx
    | ok d =>
      cases hx
      rfl
  unfold desireFor at h
  split_ifs at h with hpool
  · obtain ⟨answer, rest, rfl, hrest⟩ := h.perform_bind_inv
    match answer with
    | .error err => cases hrest.eq_of_ret
    | .ok none => cases hrest.eq_of_ret
    | .ok (some p) =>
      dsimp only at hrest
      split_ifs at hrest with hdeleting
      · cases hrest.eq_of_ret
      · exact (@buildDesire_spec lib mc resourceKey r _
          ((if_pos hpool).trans (hmap hrest.eq_of_ret))).2
  · exact (buildDesire_spec ((if_neg hpool).trans (hmap h.eq_of_ret))).2

theorem desireFor_noFlip (resourceKey : String) (r : Recognized) :
    NoFlip (desireFor lib mc resourceKey r) := by
  unfold desireFor
  split_ifs
  · refine only_perform_bind (by simp [flips]) ?_
    intro answer
    match answer with
    | .error err => exact only_ret _
    | .ok none => exact only_ret _
    | .ok (some p) =>
      dsimp only
      split_ifs <;> exact only_ret _
  · exact only_ret _

theorem ensureDesires_noFlip {r : Recognized} (h : desire.spec.type = .serverSideApply) :
    NoFlip (ensureDesires lib mc r desire) := by
  refine (ensureApplyDesire_noFlip h).bind ?_
  intro err
  cases err with
  | some err => exact only_ret _
  | none =>
    dsimp only
    split_ifs
    · split
      · exact only_ret _
      · exact (ensureReadDesire_noFlip _).bind fun _ => only_ret _
    · exact only_ret _

theorem processResource_noFlip (resourceKey resourceValue : String) :
    NoFlip (processResource lib mc resourceKey resourceValue) := by
  unfold processResource
  split
  · exact only_ret _
  split_ifs
  · exact only_ret _
  · exact only_ret _
  refine (desireFor_noFlip resourceKey _).bind_of_ends ?_
  intro t result hends
  match result with
  | .error err => exact only_ret _
  | .ok none => exact only_ret _
  | .ok (some desire) =>
    exact (ensureDesires_noFlip (desireFor_type hends)).bind fun _ => only_ret _

/-- While the desires are stored, none is turned into a delete. -/
theorem processResources_noFlip (resources : List (String × String)) :
    NoFlip (processResources lib mc resources) := by
  induction resources with
  | nil => exact only_ret _
  | cons resource rest ih =>
    refine (processResource_noFlip resource.1 resource.2).bind ?_
    intro first
    exact ih.bind fun _ => only_ret _

/-- The delete takes the place of a stored document of the ID. -/
def DeleteOf (stored : List ApplyDesire) (d : ApplyDesire) (k : DesireKey) : Prop :=
  ∃ doc ∈ stored, doc.spec.type ≠ .delete ∧ doc.resourceID = d.resourceID ∧ d.resourceID.toLower = k

section

variable (hanswers : Answers np stored t)

include hanswers

/-- The document that a removal turns into a delete is the one it was asked to remove. -/
theorem ensureApplyDesireRemoved_flips {scope : DesireScope} {desireName : String} {etag : Nat}
    {d : ApplyDesire}
    (h : Reaches (ensureApplyDesireRemoved scope desireName) t (.replaceApplyDesire etag d)) :
    DeleteOf stored d (DesireKey.toLower ⟨scope, desireName⟩) := by
  obtain heq | ⟨answer, rest, rfl, hnext⟩ := h.perform_bind_inv
  · cases heq
  match answer with
  | .error err => exact absurd hnext not_reaches_ret
  | .ok none => exact absurd hnext not_reaches_ret
  | .ok (some v) =>
    obtain ⟨hstored, hkey⟩ := hanswers.document _ v List.mem_cons_self
    dsimp only at hnext
    split_ifs at hnext with htype
    · obtain heq | ⟨outcome, rest', -, hend⟩ := hnext.perform_bind_inv
      · cases heq
        exact ⟨v.doc, hstored, htype, rfl, hkey⟩
      · cases outcome <;> exact absurd hend not_reaches_ret
    · obtain heq | ⟨outcome, rest', -, hend⟩ := hnext.perform_bind_inv
      · cases heq
      · cases outcome <;> exact absurd hend not_reaches_ret
    · exact absurd hnext not_reaches_ret

/-- What is turned into a delete may be stale and is not desired. -/
theorem deleteStale_flips {desired : List DesireKey} {existing : List ApplyDesire} {etag : Nat}
    {d : ApplyDesire} (h : Reaches (deleteStale desired existing) t (.replaceApplyDesire etag d)) :
    ∃ desire ∈ existing, mayBeStale desire = true ∧ desire.resourceID.toLower ∉ desired ∧
      DeleteOf stored d desire.resourceID.toLower := by
  induction existing generalizing t with
  | nil => exact absurd h not_reaches_ret
  | cons desire rest ih =>
    have hlater : ∀ {t' : List (Sigma Call.Reply)}, (∀ e ∈ t', e ∈ t) →
        Reaches (deleteStale desired rest) t' (.replaceApplyDesire etag d) →
        ∃ desire' ∈ desire :: rest, mayBeStale desire' = true ∧
          desire'.resourceID.toLower ∉ desired ∧ DeleteOf stored d desire'.resourceID.toLower := by
      intro t' ht hreach
      obtain ⟨desire', hmem, hrest⟩ := ih (hanswers.mono ht) hreach
      exact ⟨desire', List.mem_cons_of_mem _ hmem, hrest⟩
    unfold deleteStale at h
    split_ifs at h with hskip
    · exact hlater (fun _ he => he) h
    rw [not_or, Bool.not_eq_false] at hskip
    rcases h.bind_inv with hfirst | ⟨t1, t2, removed, rfl, -, h⟩
    · exact ⟨desire, List.mem_cons_self, hskip.1, hskip.2,
        ensureApplyDesireRemoved_flips hanswers hfirst⟩
    match removed with
    | .error err => exact absurd h not_reaches_ret
    | .ok false => exact hlater (fun _ he => List.mem_append_right _ he) h
    | .ok true =>
      obtain heq | ⟨outcome, rest', rfl, hnext⟩ := h.perform_bind_inv
      · cases heq
      have ht : ∀ e ∈ rest', e ∈ t1 ++
        ⟨Call.deleteReadDesire desire.resourceID, outcome⟩ :: rest' := by
        intro e he
        simp [he]
      cases outcome with
      | ok | notFound => exact hlater ht hnext
      | conflict | preconditionFailed | failed => exact absurd hnext not_reaches_ret

/-- A pass turns a desire into a delete only if no resource was built for it. -/
theorem processClusterResources_flips {resources : List (String × String)} {etag : Nat}
    {d : ApplyDesire} (h : Reaches (processClusterResources lib mc resources) t
      (.replaceApplyDesire etag d)) (hflip : d.spec.type = .delete) :
    lib.parseScope .cluster = .ok () ∧ ∃ desire ∈ stored, mayBeStale desire = true ∧
      desire.resourceID.toLower ∉ resources.filterMap (desiredKey lib mc np) ∧
      DeleteOf stored d desire.resourceID.toLower := by
  obtain heq | ⟨client, rest, rfl, hpass⟩ := h.perform_bind_inv
  · cases heq
  rcases client with _ | _
  · exact absurd hpass not_reaches_ret
  cases hscope : lib.parseScope .cluster with
  | error err =>
    rw [hscope] at hpass
    exact absurd hpass not_reaches_ret
  | ok u =>
    rw [hscope] at hpass
    have hnot : ¬¬flips (.replaceApplyDesire etag d) := not_not.mpr hflip
    obtain ⟨t1, t2, ⟨desired, errs⟩, rfl, hends, hrest⟩ :=
      (processResources_noFlip resources).reaches_bind hnot hpass
    have hdesired := processResources_ends hends (hanswers.mono (by simp +contextual))
    rcases hrest.bind_inv with hstale | ⟨t3, t4, result, -, -, hret⟩
    · rw [← hdesired]
      refine ⟨rfl, ?_⟩
      obtain heq | ⟨listed, rest, rfl, hlisted⟩ := hstale.perform_bind_inv
      · cases heq
      cases listed with
      | error err => exact absurd hlisted not_reaches_ret
      | ok existing =>
        obtain rfl := hanswers.listed existing (by simp)
        obtain heq | ⟨client, rest', rfl, hloop⟩ := hlisted.perform_bind_inv
        · cases heq
        cases client with
        | false => exact absurd hloop not_reaches_ret
        | true => exact deleteStale_flips (hanswers.mono (by simp +contextual)) hloop
    · exact absurd hret not_reaches_ret

end

/-! ## When a pass is safe -/

/-- The document is not a delete yet, and the removal of stale desires looks at its ID. -/
def Reapable (stored : List ApplyDesire) (doc : ApplyDesire) : Prop :=
  doc.spec.type ≠ .delete ∧ ∃ listed ∈ stored, mayBeStale listed = true ∧
    listed.resourceID.toLower = doc.resourceID.toLower

/-- Answers with the stored desires, of which only one can still be read; every write succeeds. -/
def replyWith (np : String → Except String (Option NodePool)) (stored : List ApplyDesire)
    (doc : ApplyDesire) : (c : Call) → c.Reply
  | .dbClient => true
  | .nodePool name => np (toLower name)
  | .listApplyDesires => .ok stored
  | .listReadDesires => .ok []
  | .cachedApplyDesire _ => .ok none
  | .cachedReadDesire _ => .ok none
  | .getApplyDesire k => .ok (if k = doc.resourceID.toLower then some ⟨0, doc⟩ else none)
  | .createApplyDesire _ | .replaceApplyDesire _ _ | .deleteApplyDesire _ | .createReadDesire _
  | .replaceReadDesire _ _ | .deleteReadDesire _ => .ok
  | .getObject _ _ | .applyObject _ _ _ _ => .error (.other "unreachable")
  | .deleteObject _ _ => none

section

variable {doc : ApplyDesire}

theorem answers_of_replyWith (hdoc : doc ∈ stored) (h : ∀ e ∈ t, e.2 = replyWith np stored doc e.1) :
    Answers np stored t where
  nodePool name r hr := h _ hr
  listed l hl := Except.ok.inj (h _ hl)
  document k v hv := by
    have heq : some v = if k = doc.resourceID.toLower then some ⟨0, doc⟩ else none :=
      Except.ok.inj (h _ hv)
    split_ifs at heq with hk
    cases heq
    exact ⟨hdoc, hk.symm⟩

/-- The loop gets to the ID of the document, past those that are gone when they are read. -/
theorem deleteStale_makes {desired : List DesireKey} {existing : List ApplyDesire}
    (htype : doc.spec.type ≠ .delete) (h : ∃ listed ∈ existing, mayBeStale listed = true ∧
      listed.resourceID.toLower = doc.resourceID.toLower)
    (hkey : doc.resourceID.toLower ∉ desired) :
    Makes (replyWith np stored doc) (deleteStale desired existing)
      (.replaceApplyDesire 0 doc.toDelete) := by
  induction existing with
  | nil => obtain ⟨_, hmem, -⟩ := h; cases hmem
  | cons desire rest ih =>
    unfold deleteStale
    by_cases hfirst : mayBeStale desire = true ∧ desire.resourceID.toLower = doc.resourceID.toLower
    · rw [if_neg (by simp [hfirst, hkey])]
      refine Makes.bind_left (Makes.bind_right (p := perform _) ?_)
      simp only [result, perform, replyWith, hfirst.2, if_true, if_pos htype]
      exact makes_perform
    · have hrest := ih (by grind)
      split_ifs with hskip
      · exact hrest
      · rw [not_or, Bool.not_eq_false] at hskip
        have hne : desire.resourceID.toLower ≠ doc.resourceID.toLower :=
          fun heq => hfirst ⟨hskip.1, heq⟩
        have hgone : result (replyWith np stored doc) (ensureApplyDesireRemoved
            desire.resourceID.scope desire.resourceID.name) = .ok true := by
          unfold ensureApplyDesireRemoved
          rw [result_bind]
          simp only [perform, result, replyWith, if_neg hne]
          rfl
        refine Makes.bind_right ?_
        rw [hgone]
        exact Makes.bind_right (p := perform _) hrest

/-- A stored desire that no resource was built for is turned into a delete. -/
theorem exists_flip {resources : List (String × String)} (hscope : lib.parseScope .cluster = .ok ())
    (hdoc : doc ∈ stored) (hreapable : Reapable stored doc)
    (hkey : doc.resourceID.toLower ∉ resources.filterMap (desiredKey lib mc np)) :
    ∃ t, Answers np stored t ∧ Reaches (processClusterResources lib mc resources) t
      (.replaceApplyDesire 0 doc.toDelete) := by
  obtain ⟨t, hends, hreply⟩ :=
    exists_ends (replyWith np stored doc) (processResources lib mc resources)
  have hdesired := processResources_ends hends (answers_of_replyWith hdoc hreply)
  have hmakes : Makes (replyWith np stored doc) (processClusterResources lib mc resources)
      (.replaceApplyDesire 0 doc.toDelete) := by
    refine Makes.bind_right (p := perform _) ?_
    simp only [perform, result, replyWith, if_true, hscope]
    refine Makes.bind_right (Makes.bind_left ?_)
    refine Makes.bind_right (p := perform _) (Makes.bind_right (p := perform _) ?_)
    exact deleteStale_makes hreapable.1 hreapable.2 (hdesired ▸ hkey)
  obtain ⟨t', hreach, hreply'⟩ := hmakes
  exact ⟨t', answers_of_replyWith hdoc hreply', hreach⟩

end

/-- Whatever desire each resource of the response stands for, a pass never turns it into a delete
unless its node pool is gone if and only if every resource whose stored desire can be reaped has
that desire built in the pass, be it for another resource of the response. -/
theorem processClusterResources_safe_iff (lib : Libraries) (managementCluster : String)
    (np : String → Except String (Option NodePool)) (stored : List ApplyDesire)
    (resources : List (String × String)) (desireOf : String × String → Option DesireKey) :
    (∀ t etag d, Answers np stored t →
      Reaches (processClusterResources lib managementCluster resources) t
        (.replaceApplyDesire etag d) → d.spec.type = .delete →
      ∀ r ∈ resources, ∀ k, desireOf r = some k → k.toLower = d.resourceID.toLower →
        Gone np k.toLower) ↔
    (lib.parseScope .cluster = .ok () → ∀ doc ∈ stored, Reapable stored doc → ∀ r ∈ resources, ∀ k,
      desireOf r = some k → k.toLower = doc.resourceID.toLower → Gone np k.toLower ∨
        ∃ r' ∈ resources, ∃ x, Processed lib managementCluster np r' x ∧ x.key = k.toLower) := by
  have hmem : ∀ k, k ∈ resources.filterMap (desiredKey lib managementCluster np) ↔
      ∃ r' ∈ resources, ∃ x, Processed lib managementCluster np r' x ∧ x.key = k := by
    simp only [List.mem_filterMap, desiredKey_eq_some_iff, implies_true]
  simp only [← hmem]
  constructor
  · intro hsafe hscope doc hdoc hreapable r hr k hk hkey
    by_contra hnot
    rw [not_or, hkey] at hnot
    obtain ⟨t, hanswers, hreach⟩ := exists_flip hscope hdoc hreapable hnot.2
    exact hnot.1 (hkey ▸ hsafe t 0 _ hanswers hreach rfl r hr k hk hkey)
  · intro hbuilt t etag d hanswers hreach hflip r hr k hk hkey
    obtain ⟨hscope, desire, hdesire, hstale, hnotin, doc, hdoc, htype, hid, hsame⟩ :=
      processClusterResources_flips hanswers hreach hflip
    have hreapable : Reapable stored doc := ⟨htype, desire, hdesire, hstale, by rw [hid, hsame]⟩
    rcases hbuilt hscope doc hdoc hreapable r hr k hk (by rw [hkey, hid]) with hgone | hin
    · exact hgone
    · exact absurd ((hkey.trans hsame) ▸ hin) hnotin

def standsFor (lib : Libraries) (resource : String × String) : Option DesireKey :=
  match lib.unmarshal resource.2 with
  | .error _ => none
  | .ok obj =>
    match classifyClusterResource obj with
    | .error _ => none
    | .ok c => some ⟨if c.nodePoolName ≠ "" then .nodePool c.nodePoolName else .cluster,
      c.desireName.text⟩

def hostedClusterLibraries : Libraries where
  unmarshal text := (JsonText.parse text).elim (.error "invalid JSON") .ok
  marshal _ := .ok "\x7b\x7d"
  hardcodedMapping _ := none
  parseScope _ := .ok ()
  parseApplyDesireID _ := .ok ()
  parseReadDesireID _ := .ok ()

def hostedClusterResource (apiVersion : String) : String × String :=
  ("hc", "\x7b\"apiVersion\": \"hypershift.openshift.io/" ++ apiVersion ++ "\", \"kind\": " ++
    "\"HostedCluster\", \"metadata\": \x7b\"name\": \"hc\", \"namespace\": \"ocm\"\x7d\x7d")

/-- The desire that keeps the HostedCluster. -/
def hostedClusterDesire : ApplyDesire where
  resourceID := ⟨.cluster, "hostedcluster"⟩
  spec := ⟨"mc", .serverSideApply,
    ⟨"hypershift.openshift.io", "v1beta1", "hostedclusters", "ocm", "hc"⟩,
    none⟩
  status := {}
  tags := ownerTags

theorem reapable_hostedClusterDesire : Reapable [hostedClusterDesire] hostedClusterDesire :=
  ⟨nofun, _, List.mem_singleton_self _, by decide +kernel, rfl⟩

theorem processClusterResources_safe_iff_mapped :
    hostedClusterLibraries.parseScope .cluster = .ok () ∧
    Reapable [hostedClusterDesire] hostedClusterDesire ∧
    ∀ t etag d, Answers (fun _ => .ok none) [hostedClusterDesire] t → Reaches
        (processClusterResources hostedClusterLibraries "mc" [hostedClusterResource "v1beta1"]) t
        (.replaceApplyDesire etag d) → d.spec.type = .delete →
      ∀ r ∈ [hostedClusterResource "v1beta1"], ∀ k, standsFor hostedClusterLibraries r = some k →
        k.toLower = d.resourceID.toLower → Gone (fun _ => .ok none) k.toLower := by
  refine ⟨rfl, reapable_hostedClusterDesire, (processClusterResources_safe_iff
    hostedClusterLibraries "mc" _ _ _ (standsFor hostedClusterLibraries)).mpr ?_⟩
  intro _ doc hdoc _ r _ k _ hkey
  rw [List.mem_singleton.mp hdoc] at hkey
  rw [hkey]
  exact .inr ⟨_, List.mem_singleton_self _, desiredKey_eq_some_iff.mp (by decide +kernel)⟩

/-- A HostedCluster of an API version that is not mapped fails in the pass, and the desire that
keeps it is turned into a delete. -/
theorem live_hostedCluster_reaped :
    ∃ lib managementCluster np stored resources t etag d, Answers np stored t ∧
      Reaches (processClusterResources lib managementCluster resources) t
        (.replaceApplyDesire etag d) ∧ d.spec.type = .delete ∧
      ∃ r ∈ resources, ∃ k, standsFor lib r = some k ∧ k.toLower = d.resourceID.toLower ∧
        ¬Gone np k.toLower := by
  have hkey : hostedClusterDesire.resourceID.toLower ∉ [hostedClusterResource "v1"].filterMap
      (desiredKey hostedClusterLibraries "mc" fun _ => .ok none) := by decide +kernel
  obtain ⟨t, hanswers, hreach⟩ := exists_flip
    (show hostedClusterLibraries.parseScope .cluster = .ok () from rfl)
    (List.mem_singleton_self _) reapable_hostedClusterDesire hkey
  refine ⟨_, _, _, _, _, t, 0, _, hanswers, hreach, rfl, _, List.mem_singleton_self _,
    ⟨.cluster, "HostedCluster"⟩, by decide +kernel, by decide +kernel, ?_⟩
  rintro ⟨name, hscope, -⟩
  cases hscope

end AroHcp.ClusterResources
