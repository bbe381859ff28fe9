import AroHcp.Nodepool.Simulation

/-! What one projected change does to the working state, guards included. -/

namespace AroHcp.Nodepool

open Compute GoInt Tally

/-- The new state `c'` of a pool `c` that the planner changes without deleting it. -/
inductive Change (run : Projection) (state : List PoolState) (c : PoolState) : PoolState → Prop
  | unfreeze (d : Pool) (minCount : Int) (etag : String)
      (hd : d ∈ run.desired) (hname : d.name = c.name)
      (hfrozen : c.autoScalingEnabled = false) (hle : c.count ≤ d.maxCount)
      (hroom : int64 ((d.maxCount - c.count) * d.spec.vcpus) ≤
        valueAt (run.headroom state) d.spec.family) :
      Change run state c
        { c with
          autoScalingEnabled := true
          pool := { c.pool with maxCount := d.maxCount }
          minCount := minCount
          etag := etag }
  | reduceDesired (d : Pool) (etag : String)
      (hd : d ∈ run.desired) (hname : d.name = c.name)
      (hfrozen : c.autoScalingEnabled = false) (hover : d.maxCount < c.count) (hpos : 0 < c.count)
      (hallowed : allowsCapacityReduction state c (c.count - 1) run.capacityFloor = true) :
      Change run state c
        { c with
          count := c.count - 1
          pool := { c.pool with maxCount := c.count - 1 }
          etag := etag }
  | lowerDesired (d : Pool) (minCount : Int) (etag : String)
      (hd : d ∈ run.desired) (hname : d.name = c.name)
      (hscaled : c.autoScalingEnabled = true) (hover : d.maxCount < c.pool.maxCount)
      (hle : c.count ≤ d.maxCount)
      (hallowed : allowsCapacityReduction state c d.maxCount run.capacityFloor = true) :
      Change run state c
        { c with
          pool := { c.pool with maxCount := d.maxCount }
          minCount := minCount
          etag := etag }
  | freezeDesired (d : Pool) (etag : String)
      (hd : d ∈ run.desired) (hname : d.name = c.name)
      (hscaled : c.autoScalingEnabled = true) (hover : d.maxCount < c.count)
      (hallowed : allowsCapacityReduction state c c.count run.capacityFloor = true) :
      Change run state c
        { c with
          autoScalingEnabled := false
          count := c.count
          pool := { c.pool with maxCount := c.count }
          etag := etag }
  | updateConfig (d : Pool) (etag : String)
      (hd : d ∈ run.desired) (hname : d.name = c.name)
      (hdrift : ¬(d.labels = c.pool.labels ∧ taintsEqual d.taints c.pool.taints = true)) :
      Change run state c
        { c with
          pool := { c.pool with labels := d.labels, taints := d.taints }
          etag := etag }
  | grow (d : Pool) (gap minCount : Int) (etag : String)
      (hd : d ∈ run.desired) (hname : d.name = c.name)
      (hscaled : c.autoScalingEnabled = true) (hgap : 0 < gap)
      (htarget : c.pool.maxCount + gap ≤ d.maxCount)
      (hfits : gap ≤ canGrow (run.headroom state) d) :
      Change run state c
        { c with
          pool := { c.pool with maxCount := c.pool.maxCount + gap }
          minCount := minCount
          etag := etag }
  | squeeze (ceiling minCount : Int) (etag : String)
      (hundesired : ∀ d ∈ run.desired, d.name ≠ c.name)
      (hscaled : c.autoScalingEnabled = true)
      (hcount : c.count ≤ ceiling) (hlower : ceiling < c.pool.maxCount)
      (hallowed : allowsCapacityReduction state c ceiling run.capacityFloor = true) :
      Change run state c
        { c with
          pool := { c.pool with maxCount := ceiling }
          minCount := minCount
          etag := etag }
  | freezeUndesired (etag : String)
      (hundesired : ∀ d ∈ run.desired, d.name ≠ c.name)
      (hscaled : c.autoScalingEnabled = true) (hle : c.pool.maxCount ≤ c.count) :
      Change run state c
        { c with
          autoScalingEnabled := false
          count := c.count
          pool := { c.pool with maxCount := c.count }
          etag := etag }
  | drain (etag : String)
      (hundesired : ∀ d ∈ run.desired, d.name ≠ c.name)
      (hfrozen : c.autoScalingEnabled = false) (hpos : 0 < c.count)
      (hallowed : allowsCapacityReduction state c (c.count - 1) run.capacityFloor = true) :
      Change run state c
        { c with
          count := c.count - 1
          pool := { c.pool with maxCount := c.count - 1 }
          etag := etag }

inductive Effect (run : Projection) (state : List PoolState) : List PoolState → Prop
  | create (d : Pool) (hd : d ∈ run.desired) (hmissing : ∀ c ∈ state, c.name ≠ d.name)
      (hfits : 0 < canGrow (run.headroom state) d) :
      Effect run state (state ++ [createdState (createPool (run.headroom state) d) d.name])
  | change (l r : List PoolState) (c c' : PoolState) (hsplit : state = l ++ c :: r)
      (hchange : Change run state c c') : Effect run state (l ++ c' :: r)
  | delete (l r : List PoolState) (c : PoolState) (hsplit : state = l ++ c :: r)
      (hundesired : ∀ d ∈ run.desired, d.name ≠ c.name)
      (hallowed : allowsPoolDeletion state c run.capacityFloor = true) :
      Effect run state (l ++ r)

/-- A property of single pools that created pools have and changes keep is kept by every effect. -/
theorem Effect.forall_pools {run : Projection} {state state' : List PoolState}
    {P : PoolState → Prop} (h : Effect run state state') (hold : ∀ c ∈ state, P c)
    (hcreate : ∀ d ∈ run.desired, 0 < canGrow (run.headroom state) d →
      P (createdState (createPool (run.headroom state) d) d.name))
    (hkeep : ∀ c ∈ state, ∀ c', Change run state c c' → P c → P c') : ∀ c ∈ state', P c := by
  cases h with
  | create d hd hmissing hfits =>
    intro c hc
    rcases List.mem_append.mp hc with hc | hc
    · exact hold c hc
    · rw [List.mem_singleton.mp hc]
      exact hcreate d hd hfits
  | change l r c c' hsplit hchange =>
    have hc : c ∈ state := by simp [hsplit]
    intro p hp
    rcases List.mem_append.mp hp with hp | hp
    · exact hold p (by simp [hsplit, hp])
    · rcases List.mem_cons.mp hp with rfl | hp
      · exact hkeep c hc p hchange (hold c hc)
      · exact hold p (by simp [hsplit, hp])
  | delete l r c hsplit =>
    intro p hp
    exact hold p (by rw [hsplit]; simp only [List.mem_append, List.mem_cons] at hp ⊢; tauto)

/-! ## Applying an action -/

/-- The action can be applied, with one of the effects above. -/
def Projects (run : Projection) (state : List PoolState) (action : Action) : Prop :=
  ∃ state', applyAction state action = .ok state' ∧ Effect run state state'

variable {run : Projection} {state state' : List PoolState} {c : PoolState} {action : Action}

/-- Under distinct names a non-create action reaches the very pool it was chosen for. -/
theorem applyAction_of_mem (action : Action) (hn : (state.map PoolState.name).Nodup) (hc : c ∈ state)
    (hname : action.poolName = c.name) (hcreate : action.kind ≠ .create) :
    ∃ l r, state = l ++ c :: r ∧ applyAction state action =
      (projectPool action c).map fun c' => l ++ c'.toList ++ r := by
  obtain ⟨l, r, hsplit, htake, hdrop⟩ := Keyed.exists_split hn hc
  refine ⟨l, r, hsplit, ?_⟩
  cases action <;> first
    | exact absurd rfl hcreate
    | simp only [applyAction, hname, htake, hdrop]

theorem projects_of_change (hn : (state.map PoolState.name).Nodup) (hc : c ∈ state)
    (hname : action.poolName = c.name) (hcreate : action.kind ≠ .create) {c' : PoolState}
    (hproject : projectPool action c = .ok (some c')) (hchange : Change run state c c') :
    Projects run state action := by
  obtain ⟨l, r, hsplit, h⟩ := applyAction_of_mem action hn hc hname hcreate
  rw [hproject] at h
  refine ⟨l ++ c' :: r, ?_, .change l r c c' hsplit hchange⟩
  simpa [Except.map] using h

theorem projects_of_delete (hn : (state.map PoolState.name).Nodup) (hc : c ∈ state)
    (etag : String) (hundesired : ∀ d ∈ run.desired, d.name ≠ c.name)
    (hallowed : allowsPoolDeletion state c run.capacityFloor = true) :
    Projects run state (.delete (actionBase c.pool) etag) := by
  obtain ⟨l, r, hsplit, h⟩ := applyAction_of_mem (.delete (actionBase c.pool) etag) hn hc rfl
    (by simp [Action.kind])
  refine ⟨l ++ r, ?_, .delete l r c hsplit hundesired hallowed⟩
  simpa [projectPool, Except.map] using h

/-! ## Choosing an action -/

section choose

variable {d : Pool} (hn : (state.map PoolState.name).Nodup) (hc : c ∈ state)

include hn hc

theorem projects_of_correctDesired (hd : d ∈ run.desired) (hname : d.name = c.name)
    (h : correctDesired (run.headroom state) state run.capacityFloor d c = some action) :
    Projects run state action := by
  unfold correctDesired at h
  dsimp only at h
  split_ifs at h with hauto hle hroom hpos hallowed hover hge hallowed hallowed
  · cases h
    exact projects_of_change hn hc hname (by simp [Action.kind]) rfl
      (.unfreeze d _ _ hd hname (by simpa using hauto) hle hroom)
  · cases h
    exact projects_of_change hn hc hname (by simp [Action.kind]) rfl
      (.reduceDesired d _ hd hname (by simpa using hauto) (by omega) hpos (by simpa using hallowed))
  · cases h
    exact projects_of_change hn hc hname (by simp [Action.kind]) rfl
      (.lowerDesired d _ _ hd hname (by simpa using hauto) (by omega) hge (by simpa using hallowed))
  · cases h
    exact projects_of_change hn hc hname (by simp [Action.kind]) rfl
      (.freezeDesired d _ hd hname (by simpa using hauto) (by omega) (by simpa using hallowed))

theorem projects_of_growAction (hd : d ∈ run.desired) (hname : d.name = c.name)
    (h : growAction (run.headroom state) d c = some action) : Projects run state action := by
  unfold growAction at h
  split_ifs at h with hskip hfits
  push Not at hskip
  cases h
  exact projects_of_change hn hc hname (by simp [Action.kind]) rfl
    (.grow d _ _ _ hd hname (by simpa using hskip.1) (by omega) (by omega) (min_le_right _ _))

variable (hundesired : ∀ d ∈ run.desired, d.name ≠ c.name)

include hundesired

theorem projects_of_squeezeAction (h : squeezeAction state run.capacityFloor c = some action) :
    Projects run state action := by
  unfold squeezeAction at h
  split_ifs at h with hskip
  push Not at hskip
  obtain ⟨ceiling, hceiling, rfl⟩ := Option.map_eq_some_iff.mp h
  obtain ⟨i, hi, hif⟩ := List.exists_of_findSome?_eq_some hceiling
  rw [List.mem_range] at hi
  dsimp only at hif
  split_ifs at hif with hallowed
  cases hif
  exact projects_of_change hn hc rfl (by simp [Action.kind]) rfl
    (.squeeze _ _ _ hundesired (by simpa using hskip.1) (by omega) (by omega) hallowed)

theorem projects_of_freezeUndesiredAction (h : freezeUndesiredAction c = some action) :
    Projects run state action := by
  unfold freezeUndesiredAction at h
  split_ifs at h with hfreeze
  cases h
  exact projects_of_change hn hc rfl (by simp [Action.kind]) rfl
    (.freezeUndesired _ hundesired hfreeze.1 hfreeze.2)

theorem projects_of_drainAction (h : drainAction state run.capacityFloor c = some action) :
    Projects run state action := by
  unfold drainAction at h
  split_ifs at h with hsystem hfrozen hallowed
  cases h
  exact projects_of_change hn hc rfl (by simp [Action.kind]) rfl
    (.drain _ hundesired (by simpa using hfrozen.1) hfrozen.2 (by simpa using hallowed))

theorem projects_of_deleteSystemAction {desiredByName : DesiredByName}
    (h : deleteSystemAction state desiredByName run.capacityFloor c = some action) :
    Projects run state action := by
  unfold deleteSystemAction at h
  split_ifs at h with hsystem hkeep
  push Not at hkeep
  cases h
  exact projects_of_delete hn hc _ hundesired (by simpa using hkeep.2)

theorem projects_of_deleteEmptyAction
    (h : deleteEmptyAction state run.capacityFloor c = some action) : Projects run state action := by
  unfold deleteEmptyAction at h
  split_ifs at h with hempty
  cases h
  exact projects_of_delete hn hc _ hundesired hempty.2.2

end choose

theorem mem_undesiredPools {desired : List Pool} :
    c ∈ undesiredPools state (Keyed.index Pool.name desired) ↔
      c ∈ state ∧ ∀ d ∈ desired, d.name ≠ c.name := by
  simp [undesiredPools, Keyed.mem_index]

theorem projects_of_findShrinkAction (hn : (state.map PoolState.name).Nodup)
    (h : findShrinkAction state (Keyed.index Pool.name run.desired) run.capacityFloor =
      some action) : Projects run state action := by
  -- both orders only permute the undesired pools
  have hsub : ∀ {f : PoolState → Option Action} {order : List PoolState},
      order.Perm (undesiredPools state (Keyed.index Pool.name run.desired)) →
      order.findSome? f = some action →
      ∃ c, (c ∈ state ∧ ∀ d ∈ run.desired, d.name ≠ c.name) ∧ f c = some action := by
    intro f order hperm hf
    obtain ⟨c, hc, hcf⟩ := List.exists_of_findSome?_eq_some hf
    exact ⟨c, mem_undesiredPools.mp (hperm.mem_iff.mp hc), hcf⟩
  have hname := List.perm_insertionSort (fun a b : PoolState => a.name ≤ b.name)
    (undesiredPools state (Keyed.index Pool.name run.desired))
  have hcount := (List.perm_insertionSort (fun a b : PoolState =>
    a.count < b.count ∨ (a.count = b.count ∧ a.name ≤ b.name)) _).trans hname
  simp only [findShrinkAction, Option.or_eq_some_iff] at h
  rcases h with h | ⟨-, h | ⟨-, h | ⟨-, h | ⟨-, h⟩⟩⟩⟩
  · obtain ⟨c, ⟨hc, hun⟩, hcf⟩ := hsub hname h
    exact projects_of_deleteSystemAction hn hc hun hcf
  · obtain ⟨c, ⟨hc, hun⟩, hcf⟩ := hsub hname h
    exact projects_of_squeezeAction hn hc hun hcf
  · obtain ⟨c, ⟨hc, hun⟩, hcf⟩ := hsub hname h
    exact projects_of_freezeUndesiredAction hn hc hun hcf
  · obtain ⟨c, ⟨hc, hun⟩, hcf⟩ := hsub hcount h
    exact projects_of_drainAction hn hc hun hcf
  · obtain ⟨c, ⟨hc, hun⟩, hcf⟩ := hsub hcount h
    exact projects_of_deleteEmptyAction hn hc hun hcf

/-- A pool that `currentByName` finds is the observed pool of that name. -/
theorem exists_of_matched {f : Pool → PoolState → Option Action} {desired : List Pool}
    (h : desired.findSome? (fun pool =>
      match (Keyed.index PoolState.name state).lookup pool.name with
      | none => none
      | some cur => f pool cur) = some action) :
    ∃ d ∈ desired, ∃ c ∈ state, d.name = c.name ∧ f d c = some action := by
  obtain ⟨d, hd, hf⟩ := List.exists_of_findSome?_eq_some h
  cases hl : (Keyed.index PoolState.name state).lookup d.name with
  | none => simp [hl] at hf
  | some c =>
    obtain ⟨hc, hname⟩ := Keyed.mem_of_lookup_index _ hl
    exact ⟨d, hd, c, hc, hname.symm, by simpa [hl] using hf⟩

theorem projects_of_findGrowAction (hn : (state.map PoolState.name).Nodup)
    (h : findGrowAction run.desired (Keyed.index PoolState.name state) (run.headroom state) {} =
      some action) : Projects run state action := by
  simp only [findGrowAction, Option.or_eq_some_iff] at h
  rcases h with h | ⟨-, h⟩
  · obtain ⟨d, hd, hf⟩ := List.exists_of_findSome?_eq_some h
    cases hl : (Keyed.index PoolState.name state).lookup d.name with
    | some c => simp [hl] at hf
    | none =>
      simp only [hl] at hf
      split_ifs at hf with hfits
      cases hf
      have hmissing := (Keyed.lookup_index_eq_none PoolState.name).mp hl
      exact ⟨_, rfl, .create d hd hmissing (not_le.mp hfits)⟩
  · obtain ⟨d, hd, c, hc, hname, hf⟩ := exists_of_matched h
    exact projects_of_growAction hn hc hd hname hf

/-- The planner waits for an operation in progress, reconciles a failed pool, or chooses an action
that can be applied. -/
theorem nextAction_cases (hn : (state.map PoolState.name).Nodup)
    (h : run.nextAction state = some action) :
    (action.endsProjection = true ∧ ∃ c ∈ state,
      isTransitionalState c.provisioningState = true ∨ c.provisioningState = .failed) ∨
    Projects run state action := by
  unfold Projection.nextAction findNextAction at h
  split at h
  · rename_i blocker hblocker
    cases h
    exact .inl ⟨rfl, blocker, List.mem_of_find?_eq_some hblocker,
      .inl (by simpa using List.find?_some hblocker)⟩
  · split_ifs at h
    simp only [Option.or_eq_some_iff] at h
    rcases h with h | ⟨-, h | ⟨-, h | ⟨-, h | ⟨-, h⟩⟩⟩⟩
    · obtain ⟨d, hd, c, hc, hname, hf⟩ := exists_of_matched h
      split_ifs at hf with hfailed
      cases hf
      exact .inl ⟨rfl, c, hc, .inr hfailed⟩
    · obtain ⟨d, hd, c, hc, hname, hf⟩ := exists_of_matched h
      exact .inr (projects_of_correctDesired hn hc hd hname hf)
    · obtain ⟨d, hd, c, hc, hname, hf⟩ := exists_of_matched h
      split_ifs at hf with hsame
      cases hf
      exact .inr (projects_of_change hn hc hname (by simp [Action.kind]) rfl
        (.updateConfig d _ hd hname hsame))
    · exact .inr (projects_of_findGrowAction hn h)
    · exact .inr (projects_of_findShrinkAction hn h)

/-- Every action of the planner other than a wait or a reconciliation can be applied. -/
theorem projects_of_nextAction (hn : (state.map PoolState.name).Nodup)
    (h : run.nextAction state = some action) (hends : action.endsProjection = false) :
    Projects run state action := by
  rcases nextAction_cases hn h with ⟨hends', -⟩ | hprojects
  · rw [hends] at hends'
    cases hends'
  · exact hprojects

theorem Projects.endsProjection_eq_false (h : Projects run state action) :
    action.endsProjection = false := by
  obtain ⟨state', happly, -⟩ := h
  cases action with
  | wait base delay =>
    simp only [applyAction] at happly
    split at happly <;> cases happly
  | reconcile base etag =>
    simp only [applyAction] at happly
    split at happly <;> cases happly
  | create | setScalingBounds | unfreeze | freeze | reduce | delete | updateConfig => rfl

theorem Projection.Step.effect (hn : (state.map PoolState.name).Nodup)
    (h : run.Step state state') : Effect run state state' := by
  obtain ⟨action, hnext, hends, happly⟩ := h
  obtain ⟨state'', happly', heffect⟩ := projects_of_nextAction hn hnext hends
  cases happly.symm.trans happly'
  exact heffect

end AroHcp.Nodepool
