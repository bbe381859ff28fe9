import AroHcp.Nodepool.Loop
import Mathlib.Algebra.Order.BigOperators.Group.List

/-! Projections end without their step limit: the work left on each pool is a number that every
projected change lowers. -/

namespace AroHcp.Nodepool

open Compute Compute.CapacityByRoleZone Tally Relation

/-- Bounds still to be moved on a pool that is to stay. A pool running above its target is frozen,
drained node by node and unfrozen again; growth may come first. -/
def boundsWork (d : Pool) (c : PoolState) : ℕ :=
  if c.autoScalingEnabled then
    if d.maxCount < c.count then
      3 + (c.count - d.maxCount).toNat + (d.maxCount - c.pool.maxCount).toNat
    else if d.maxCount < c.pool.maxCount then 1
    else (d.maxCount - c.pool.maxCount).toNat
  else if d.maxCount < c.count then 2 + (c.count - d.maxCount).toNat
  else 1

def driftWork (d : Pool) (c : PoolState) : ℕ :=
  if d.labels = c.pool.labels ∧ taintsEqual d.taints c.pool.taints = true then 0 else 1

/-- Work left on a pool that is to go: squeeze, freeze, drain, delete. -/
def removalWork (c : PoolState) : ℕ :=
  if c.autoScalingEnabled then 2 + c.count.toNat + (c.pool.maxCount - c.count).toNat
  else 1 + c.count.toNat

def poolWork (desired : List Pool) (c : PoolState) : ℕ :=
  match (Keyed.index Pool.name desired).lookup c.name with
  | some d => boundsWork d c + driftWork d c
  | none => removalWork c

/-- Growth still to be done on a desired pool that does not exist yet. -/
def creationWork (state : List PoolState) (d : Pool) : ℕ :=
  if state.any (fun c => c.name = d.name) then 0 else d.maxCount.toNat

def missingWork (desired : List Pool) (state : List PoolState) : ℕ :=
  (desired.map (creationWork state)).sum

def workLeft (desired : List Pool) (state : List PoolState) : ℕ :=
  missingWork desired state + (state.map (poolWork desired)).sum

variable {run : Projection} {state state' : List PoolState} {c c' : PoolState} {d : Pool}
  {desired : List Pool}

theorem poolWork_of_desired (hn : (desired.map Pool.name).Nodup) (hd : d ∈ desired)
    (hname : d.name = c.name) : poolWork desired c = boundsWork d c + driftWork d c := by
  rw [poolWork, ← hname, Keyed.lookup_index_of_mem hn hd]

theorem poolWork_of_undesired (hun : ∀ d ∈ desired, d.name ≠ c.name) :
    poolWork desired c = removalWork c := by
  rw [poolWork, (Keyed.lookup_index_eq_none Pool.name).mpr hun]

/-- Every change of a pool leaves less work on it. -/
theorem Change.poolWork_lt (hn : (run.desired.map Pool.name).Nodup)
    (h : Change run state c c') : poolWork run.desired c' < poolWork run.desired c := by
  have hname' := h.sameIdentity.name_eq
  cases h with
  | unfreeze d _ _ hd hname hfrozen hle =>
    rw [poolWork_of_desired hn hd hname, poolWork_of_desired hn hd (hname.trans hname'.symm)]
    simp only [boundsWork, driftWork, hfrozen, if_true, Bool.false_eq_true, if_false]
    split_ifs <;> omega
  | reduceDesired d _ hd hname hfrozen hover =>
    rw [poolWork_of_desired hn hd hname, poolWork_of_desired hn hd (hname.trans hname'.symm)]
    simp only [boundsWork, driftWork, hfrozen, Bool.false_eq_true, if_false]
    split_ifs <;> omega
  | lowerDesired d _ _ hd hname hscaled hover hle =>
    rw [poolWork_of_desired hn hd hname, poolWork_of_desired hn hd (hname.trans hname'.symm)]
    simp only [boundsWork, driftWork, hscaled, if_true]
    split_ifs <;> omega
  | freezeDesired d _ hd hname hscaled hover =>
    rw [poolWork_of_desired hn hd hname, poolWork_of_desired hn hd (hname.trans hname'.symm)]
    simp only [boundsWork, driftWork, hscaled, if_true, Bool.false_eq_true, if_false]
    split_ifs <;> omega
  | updateConfig d _ hd hname hdrift =>
    rw [poolWork_of_desired hn hd hname, poolWork_of_desired hn hd (hname.trans hname'.symm)]
    have hsame : taintsEqual d.taints d.taints = true := taintsEqual_iff_perm.mpr (List.Perm.refl _)
    simp only [boundsWork, driftWork, hsame, hdrift, if_false, and_true, if_true]
    omega
  | grow d gap _ _ hd hname hscaled hgap htarget =>
    rw [poolWork_of_desired hn hd hname, poolWork_of_desired hn hd (hname.trans hname'.symm)]
    simp only [boundsWork, driftWork, hscaled, if_true]
    split_ifs <;> omega
  | squeeze ceiling _ _ hun hscaled hle hlower =>
    rw [poolWork_of_undesired hun, poolWork_of_undesired (fun d hd => hname' ▸ hun d hd)]
    simp only [removalWork, hscaled, if_true]
    omega
  | freezeUndesired _ hun hscaled hle =>
    rw [poolWork_of_undesired hun, poolWork_of_undesired (fun d hd => hname' ▸ hun d hd)]
    simp only [removalWork, hscaled, if_true, Bool.false_eq_true, if_false]
    omega
  | drain _ hun hfrozen hpos =>
    rw [poolWork_of_undesired hun, poolWork_of_undesired (fun d hd => hname' ▸ hun d hd)]
    simp only [removalWork, hfrozen, Bool.false_eq_true, if_false]
    omega

theorem removalWork_pos (c : PoolState) : 0 < removalWork c := by
  unfold removalWork
  split_ifs <;> omega

theorem poolWork_created_lt (hn : (desired.map Pool.name).Nodup) (hd : d ∈ desired)
    (hsound : DesiredSound d) {headroom : FamilyMap} (hfits : 0 < canGrow headroom d) :
    poolWork desired (createdState (createPool headroom d) d.name) < d.maxCount.toNat := by
  have hpos := hsound.maxCount_pos
  obtain ⟨m, hcreate, -, hm⟩ := createPool_spec headroom d
  have hm := hm hsound.minCount_le
  have hsame : taintsEqual d.taints d.taints = true := taintsEqual_iff_perm.mpr (List.Perm.refl _)
  rw [poolWork_of_desired hn hd (createPool_name headroom d).symm, hcreate]
  have hcount : ¬d.maxCount < m := by omega
  have hmax : ¬d.maxCount < min d.maxCount (canGrow headroom d) := by omega
  simp only [boundsWork, driftWork, createdState, if_true, hsame, and_self, hcount, hmax, if_false]
  omega

theorem missingWork_congr (h : ∀ d ∈ desired, state'.any (fun c => c.name = d.name) =
    state.any (fun c => c.name = d.name)) :
    missingWork desired state' = missingWork desired state := by
  unfold missingWork
  congr 1
  apply List.map_congr_left
  intro d hd
  simp only [creationWork, h d hd]

theorem missingWork_create (hd : d ∈ desired) (hmissing : ∀ c ∈ state, c.name ≠ d.name)
    (hname : c.name = d.name) :
    missingWork desired (state ++ [c]) + d.maxCount.toNat ≤ missingWork desired state := by
  have hle : ∀ e, creationWork (state ++ [c]) e ≤ creationWork state e := by
    intro e
    unfold creationWork
    rw [List.any_append]
    cases state.any fun c => c.name = e.name with
    | true => simp
    | false => split_ifs <;> simp_all
  have hnew : creationWork (state ++ [c]) d = 0 := by simp [creationWork, hname]
  have hold : creationWork state d = d.maxCount.toNat := by
    have hany : state.any (fun c => c.name = d.name) = false := by simpa using hmissing
    simp [creationWork, hany]
  obtain ⟨l, r, rfl⟩ := List.append_of_mem hd
  have hl : (l.map (creationWork (state ++ [c]))).sum ≤ (l.map (creationWork state)).sum :=
    List.sum_le_sum fun e _ => hle e
  have hr : (r.map (creationWork (state ++ [c]))).sum ≤ (r.map (creationWork state)).sum :=
    List.sum_le_sum fun e _ => hle e
  simp only [missingWork, List.map_append, List.map_cons, List.sum_append, List.sum_cons, hnew, hold]
  omega

theorem Effect.workLeft_lt (hn : (run.desired.map Pool.name).Nodup)
    (hdesired : ∀ d ∈ run.desired, DesiredSound d) (hs : SoundState state)
    (h : Effect run state state') : workLeft run.desired state' < workLeft run.desired state := by
  cases h with
  | create d hd hmissing hfits =>
    have hmiss := missingWork_create (c := createdState (createPool (run.headroom state) d) d.name)
      hd hmissing (createPool_name _ d)
    have hnew := poolWork_created_lt hn hd (hdesired d hd) hfits
    simp only [workLeft, List.map_append, List.map_singleton, List.sum_append, List.sum_singleton]
    omega
  | change l r c c' hsplit hchange =>
    subst hsplit
    have hmiss : missingWork run.desired (l ++ c' :: r) = missingWork run.desired (l ++ c :: r) := by
      apply missingWork_congr
      simp [hchange.sameIdentity.name_eq]
    have hlt := hchange.poolWork_lt hn
    simp only [workLeft, hmiss, List.map_append, List.map_cons, List.sum_append, List.sum_cons]
    omega
  | delete l r c hsplit hundesired =>
    subst hsplit
    have hmiss : missingWork run.desired (l ++ r) = missingWork run.desired (l ++ c :: r) := by
      apply missingWork_congr
      intro d hd
      simp [(hundesired d hd).symm]
    have hpos := removalWork_pos c
    simp only [workLeft, hmiss, List.map_append, List.map_cons, List.sum_append, List.sum_cons,
      poolWork_of_undesired hundesired]
    omega

/-! ## Every projection ends -/

/-- Without a step the planner has no action, or one that needs a new observation. -/
theorem nextAction_of_no_step (hs : SoundState state) (h : ∀ state', ¬run.Step state state') :
    run.nextAction state = none ∨
      ∃ action, run.nextAction state = some action ∧ action.endsProjection = true := by
  cases hnext : run.nextAction state with
  | none => exact .inl rfl
  | some action =>
    right
    refine ⟨action, rfl, ?_⟩
    by_contra hends
    have hends : action.endsProjection = false := by simpa using hends
    obtain ⟨state', happly, -⟩ := projects_of_nextAction hs.names_nodup hnext hends
    exact h state' ⟨action, hnext, hends, happly⟩

/-- Whatever the floor makes of it, a loop with more cycles than work does not meet its limit. -/
theorem projectLoop_ne_stepLimit (hn : (run.desired.map Pool.name).Nodup)
    (hdesired : ∀ d ∈ run.desired, DesiredSound d) (floorErr : Option String)
    (maxCycles remaining : ℕ) (hs : SoundState state) (hwork : workLeft run.desired state < remaining)
    (tr : Trace) (htr : tr.outcome ≠ .stepLimit) (capacity : CapacityByRole)
    (zoneCapacity : CapacityByRoleZone) :
    (projectLoop run floorErr maxCycles remaining tr state capacity zoneCapacity).1.outcome ≠
      .stepLimit := by
  induction remaining generalizing state tr capacity zoneCapacity with
  | zero => omega
  | succ remaining ih =>
    unfold projectLoop
    dsimp only
    split
    · simp
    · cases hnext : run.nextAction state with
      | none =>
        dsimp only
        split_ifs <;> simp
      | some action =>
        dsimp only
        split_ifs with hends
        · simp
        · have hends : action.endsProjection = false := by simpa using hends
          obtain ⟨state', happly, heffect⟩ := projects_of_nextAction hs.names_nodup hnext hends
          obtain ⟨capacity', hcap⟩ := poolCapacities_ceilingPools (hs.effect hdesired heffect)
          obtain ⟨zones', hzones, -⟩ :=
            poolZoneCapacities_ceilingPools (hs.effect hdesired heffect)
          simp only [happly, hcap, hzones]
          split
          · exact htr
          · apply ih (hs.effect hdesired heffect)
            · have hlt := heffect.workLeft_lt hn hdesired hs
              omega
            · exact htr

/-- The sequence of projected states is finite, never returns to a state and ends without an
action or with a wait or a reconciliation; with enough cycles the step limit is never the
outcome, and there is no error if the numbers fit. -/
theorem projection_terminates (desired : List Pool) (initial : List PoolState)
    (familyBudgets : FamilyMap) (fullyAllocated : Bool)
    (hdesired : (desired.map Pool.name).Nodup) (hinitial : (initial.map PoolState.name).Nodup)
    (haccepted : Accepted desired initial) :
    (∀ floor : TransitionFloor,
      let run : Projection := ⟨desired, initial, familyBudgets, floor⟩
      (¬∃ f : ℕ → List PoolState, f 0 = initial ∧ ∀ n, run.Step (f n) (f (n + 1))) ∧
      (∀ a b, ReflTransGen run.Step initial a → TransGen run.Step a b → b ≠ a) ∧
      ∃ final, ReflTransGen run.Step initial final ∧
        (run.nextAction final = none ∨
          ∃ action, run.nextAction final = some action ∧ action.endsProjection = true)) ∧
    ∃ N : Int, ∀ maxCycles ≥ N,
      (simulateAndTrace desired initial familyBudgets fullyAllocated maxCycles).1.outcome ≠
        .stepLimit ∧
      ((∃ n, FitsInt64 n desired initial) →
        (simulateAndTrace desired initial familyBudgets fullyAllocated maxCycles).2 = none) := by
  have hs := haccepted.soundState hinitial
  have hds := haccepted.desiredSound
  have hstep : ∀ floor a b, SoundState a →
      Projection.Step ⟨desired, initial, familyBudgets, floor⟩ a b → SoundState b :=
    fun floor a b ha h => ha.step hds h
  have hwork : ∀ floor a b, SoundState a →
      Projection.Step ⟨desired, initial, familyBudgets, floor⟩ a b →
      workLeft desired b < workLeft desired a :=
    fun floor a b ha h => (h.effect ha.names_nodup).workLeft_lt hdesired hds ha
  refine ⟨?_, workLeft desired initial + 1, ?_⟩
  · intro floor run
    refine ⟨Runs.not_infinite (hstep floor) (hwork floor) hs, ?_, ?_⟩
    · intro a b hrun hab
      exact Runs.ne_of_transGen (hstep floor) (hwork floor) hab
        (Runs.invariant hrun hs (hstep floor))
    · obtain ⟨final, hrun, hfinal⟩ := Runs.exists_final (hstep floor) (hwork floor) initial hs
      exact ⟨final, hrun, nextAction_of_no_step (Runs.invariant hrun hs (hstep floor)) hfinal⟩
  · intro maxCycles hmax
    obtain ⟨zones, hzones, -⟩ := poolZoneCapacities_ceilingPools hs
    obtain ⟨desiredZones, hdz⟩ := haccepted.desired_capacity
    have hcycles : 0 ≤ maxCycles := by omega
    obtain ⟨tr, capacity, htr, hunset, heq⟩ := simulateAndTrace_of_accepted familyBudgets
      fullyAllocated haccepted hcycles hzones hdz
    have hcovered : workLeft desired initial < maxCycles.toNat := by omega
    rw [heq]
    cases hfloor : resolveEffectiveFloor desiredZones zones fullyAllocated with
    | error e =>
      constructor
      · apply projectLoop_ne_stepLimit hdesired hds _ _ _ hs hcovered
        exact hunset
      · intro _
        obtain ⟨n, hn⟩ := Nat.exists_eq_succ_of_ne_zero (n := maxCycles.toNat) (by omega)
        rw [hn]
        exact (projectLoop_rejected ..).1
    | ok floor =>
      constructor
      · apply projectLoop_ne_stepLimit hdesired hds _ _ _ hs hcovered
        exact hunset
      · rintro ⟨n, hfits⟩
        obtain ⟨final, n, -, herr, -⟩ := projectLoop_endsIn maxCycles.toNat maxCycles.toNat
          (fun _ => keeps_of_run hinitial haccepted hfits hzones hfloor)
          { tr with zoneFloor := floor } htr capacity zones
        exact herr

theorem projection_terminates_replacement :
    ∃ N : Int, ∀ maxCycles ≥ N,
      (simulateAndTrace [workerPool "new" 2] [workerState "old" true 2 2] (workerBudget 1) true
        maxCycles).2 = none ∧
      (simulateAndTrace [workerPool "new" 2] [workerState "old" true 2 2] (workerBudget 1) true
        maxCycles).1.outcome ≠ .stepLimit := by
  obtain ⟨N, hN⟩ := (projection_terminates [workerPool "new" 2] [workerState "old" true 2 2]
    (workerBudget 1) true (by decide) (by decide) ⟨by decide, by decide, ⟨_, rfl⟩, ⟨_, rfl⟩⟩).2
  refine ⟨N, fun maxCycles hmax => ⟨(hN maxCycles hmax).2 ⟨2, ?_⟩, (hN maxCycles hmax).1⟩⟩
  exact ⟨by decide, by decide, by decide, by decide⟩

end AroHcp.Nodepool
