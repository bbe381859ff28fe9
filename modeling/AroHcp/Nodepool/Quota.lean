import AroHcp.Nodepool.Loop
import Mathlib.Tactic.Linarith

/-! A projection never overcommits quota. Running nodes are accounted in the live budget and
reserved ceilings in the headroom; together they are the committed vCPUs of a family. -/

namespace AroHcp.Nodepool

open Compute GoInt Tally Relation

/-- The vCPUs a pool holds: its ceiling, or its nodes where they exceed the ceiling. -/
def committedOf (c : PoolState) : Int :=
  max (poolCeiling c) c.count * c.pool.spec.vcpus

def committedVCPU (family : VMFamily) (state : List PoolState) : Int :=
  sumAt (fun c : PoolState => c.pool.spec.family) committedOf family state

/-- A current pool that shares a desired pool's name has that pool's VM spec. -/
def SpecsAgree (desired : List Pool) (state : List PoolState) : Prop :=
  ∀ d ∈ desired, ∀ c ∈ state, d.name = c.name → c.pool.spec = d.spec

/-- The budget of the family, with the vCPUs of all the pools at `n` nodes each added to it or
taken from it, is an `int64` number. -/
def BudgetFits (n : Int) (desired : List Pool) (initial : List PoolState)
    (familyBudgets : FamilyMap) (family : VMFamily) : Prop :=
  |valueAt familyBudgets family| + (totalResources n desired initial).vcpus ≤ maxInt64

variable {run : Projection} {state state' : List PoolState} {c c' : PoolState} {d : Pool}
  {family : VMFamily}

theorem committedOf_nonneg (hc : c.Sound) : 0 ≤ committedOf c :=
  mul_nonneg (le_max_of_le_right hc.count_nonneg) hc.measurable.vcpus_pos.le

/-! ## Both accounts in one -/

theorem reserved_add_running (family : VMFamily) (state : List PoolState) :
    sumAt (fun c : PoolState => c.pool.spec.family) reservedVCPU family
        (state.filter fun c => c.pool.spec.vcpus ≠ 0) +
      sumAt (fun c : PoolState => c.pool.spec.family) (fun c => c.count * c.pool.spec.vcpus) family
        state = committedVCPU family state := by
  unfold committedVCPU
  induction state with
  | nil => rfl
  | cons c state ih =>
    have hc : reservedVCPU c + c.count * c.pool.spec.vcpus = committedOf c := by
      have hmax : max (poolCeiling c - c.count) 0 + c.count = max (poolCeiling c) c.count := by omega
      rw [reservedVCPU, committedOf, ← hmax, add_mul]
    by_cases hz : c.pool.spec.vcpus = 0
    · have hcommit : committedOf c = 0 := by simp [committedOf, hz]
      simp [hz, hcommit, ← ih]
    · simp only [sumAt_cons, List.filter_cons, ne_eq, hz, not_false_eq_true, decide_true, if_true]
      split_ifs
      · rw [← ih, ← hc]
        ring
      · rw [← ih]
        ring

/-- The headroom of a tracked family is what was available and running at the start less what is
committed now, in `int64`. -/
theorem headroom_eq_int64 (hf : family ∈ run.familyBudgets) (state : List PoolState) :
    valueAt (run.headroom state) family = int64 (valueAt run.familyBudgets family +
      valueAt (runningVCPU run.initial) family - committedVCPU family state) := by
  have hlive : family ∈ run.live state := (mem_mapEntries _ _ _).mpr hf
  have hbudget : valueAt (run.live state) family = int64 (valueAt run.familyBudgets family +
      valueAt (runningVCPU run.initial) family - valueAt (runningVCPU state) family) := by
    rw [Projection.live, liveBudget, valueAt, lookup_mapEntries, lookup_eq_some_valueAt hf]
    rfl
  have hroom : valueAt (run.headroom state) family = int64 (valueAt (run.live state) family -
      sumAt (fun c : PoolState => c.pool.spec.family) reservedVCPU family
        (state.filter fun c => c.pool.spec.vcpus ≠ 0)) := by
    unfold Projection.headroom computeFamilyHeadroom
    rw [valueAt, AList.lookup_union_left ((mem_mapEntries _ _ _).mpr hlive), lookup_mapEntries,
      lookup_eq_some_valueAt hlive, valueAt_tally]
    rfl
  have hrunning : valueAt (runningVCPU state) family =
      sumAt (fun c : PoolState => c.pool.spec.family) (fun c => c.count * c.pool.spec.vcpus) family
        state := valueAt_tally ..
  rw [hroom, hbudget, hrunning, int64_sub_left, ← reserved_add_running]
  congr 1
  ring

/-- Nothing wraps in a projection that fits. -/
theorem headroom_eq {n : Int} (hb : run.Bounded n)
    (hbudget : BudgetFits n run.desired run.initial run.familyBudgets family)
    (hr : InRange n run state) (hf : family ∈ run.familyBudgets) :
    valueAt (run.headroom state) family = valueAt run.familyBudgets family +
      valueAt (runningVCPU run.initial) family - committedVCPU family state := by
  have hcommitted : committedVCPU family state ≤
      (totalResources n run.desired run.initial).vcpus := by
    apply hb.sumAt_vcpus_le hr
    intro c hc
    unfold poolCeiling
    have := hr.maxCount_le c hc
    have := hr.count_le c hc
    split_ifs <;> omega
  have hrunning : valueAt (runningVCPU run.initial) family ≤
      (totalResources n run.desired run.initial).vcpus := by
    rw [runningVCPU, valueAt_tally]
    exact hb.sumAt_vcpus_le hb.inRange hb.inRange.count_le family
  have hcommitted0 : 0 ≤ committedVCPU family state :=
    sumAt_nonneg fun c hc => committedOf_nonneg (hr.sound.sound c hc)
  have hrunning0 : 0 ≤ valueAt (runningVCPU run.initial) family := by
    rw [runningVCPU, valueAt_tally]
    exact sumAt_nonneg fun c hc => mul_nonneg (hb.initial.sound c hc).count_nonneg
      (hb.initial.sound c hc).measurable.vcpus_pos.le
  have habs := neg_abs_le (valueAt run.familyBudgets family)
  have habs' := le_abs_self (valueAt run.familyBudgets family)
  unfold BudgetFits maxInt64 at hbudget
  rw [headroom_eq_int64 hf]
  exact int64_of_lt (by omega) (by omega)

/-! ## One change -/

theorem committedVCPU_append (xs ys : List PoolState) :
    committedVCPU family (xs ++ ys) = committedVCPU family xs + committedVCPU family ys :=
  sumAt_append ..

theorem committedVCPU_cons (x : PoolState) (xs : List PoolState) :
    committedVCPU family (x :: xs) =
      (if x.pool.spec.family = family then committedOf x else 0) + committedVCPU family xs :=
  sumAt_cons ..

theorem mul_le_headroom {headroom : FamilyMap} (hv : 0 < d.spec.vcpus) {n : Int}
    (hpos : 0 < canGrow headroom d) (hn : n ≤ canGrow headroom d) :
    n * d.spec.vcpus ≤ valueAt headroom d.spec.family := by
  unfold canGrow at hpos hn
  set room := valueAt headroom d.spec.family
  have hroom : 0 ≤ room := by
    by_contra hneg
    have hquot := Int.tdiv_nonneg (a := -room) (b := d.spec.vcpus) (by omega) hv.le
    rw [Int.neg_tdiv] at hquot
    omega
  calc n * d.spec.vcpus ≤ room.tdiv d.spec.vcpus * d.spec.vcpus :=
        mul_le_mul_of_nonneg_right hn hv.le
    _ ≤ room := by
        rw [Int.tdiv_eq_ediv_of_nonneg hroom]
        exact Int.ediv_mul_le room hv.ne'

theorem Change.committedOf_le {n : Int} (hb : run.Bounded n) (hr : InRange n run state)
    (hmem : c ∈ state) (hagree : ∀ d ∈ run.desired, d.name = c.name → c.pool.spec = d.spec)
    (h : Change run state c c') :
    committedOf c' ≤ committedOf c + max 0 (valueAt (run.headroom state) c.pool.spec.family) := by
  have hc := hr.sound.sound c hmem
  have hv := hc.measurable.vcpus_pos
  have hspec := h.sameIdentity.spec_eq
  -- it suffices to bound the nodes held, or the nodes added times the vCPUs of one
  have hmono : ∀ {n : Int}, max (poolCeiling c') c'.count ≤ max (poolCeiling c) c.count + n →
      n * c.pool.spec.vcpus ≤ max 0 (valueAt (run.headroom state) c.pool.spec.family) →
      committedOf c' ≤ committedOf c +
        max 0 (valueAt (run.headroom state) c.pool.spec.family) := by
    intro n hn hroom
    unfold committedOf
    rw [hspec]
    have := mul_le_mul_of_nonneg_right hn hv.le
    rw [add_mul] at this
    omega
  have hkeep : max (poolCeiling c') c'.count ≤ max (poolCeiling c) c.count →
      committedOf c' ≤ committedOf c +
        max 0 (valueAt (run.headroom state) c.pool.spec.family) := by
    intro hle
    apply hmono (n := 0)
    · omega
    · simp
  cases h with
  | unfreeze d _ _ hd hname hfrozen hle hroom =>
    apply hmono (n := d.maxCount - c.count)
    · simp only [poolCeiling, hfrozen, if_true, Bool.false_eq_true, if_false]
      omega
    · have hmax := hb.fits.desired_le d hd
      have hcount := hc.count_nonneg
      rw [← hagree d hd hname, hb.int64_mul_vcpus hr hmem (by omega) (by omega)] at hroom
      exact hroom.trans (le_max_right _ _)
  | grow d gap _ _ hd hname hscaled hgap htarget hfits =>
    apply hmono (n := gap)
    · simp only [poolCeiling, hscaled, if_true]
      omega
    · rw [hagree d hd hname] at hv ⊢
      have := mul_le_headroom hv (hgap.trans_le hfits) hfits
      omega
  | reduceDesired d _ hd hname hfrozen =>
    apply hkeep
    simp only [poolCeiling, hfrozen, Bool.false_eq_true, if_false]
    omega
  | lowerDesired d _ _ hd hname hscaled hover =>
    apply hkeep
    simp only [poolCeiling, hscaled, if_true]
    omega
  | freezeDesired =>
    apply hkeep
    simp only [poolCeiling, Bool.false_eq_true, if_false]
    omega
  | updateConfig => exact hkeep le_rfl
  | squeeze ceiling _ _ hun hscaled hcount hlower =>
    apply hkeep
    simp only [poolCeiling, hscaled, if_true]
    omega
  | freezeUndesired =>
    apply hkeep
    simp only [poolCeiling, Bool.false_eq_true, if_false]
    omega
  | drain _ hun hfrozen =>
    apply hkeep
    simp only [poolCeiling, hfrozen, Bool.false_eq_true, if_false]
    omega

theorem committedOf_created_le {headroom : FamilyMap} (hd : DesiredSound d)
    (hfits : 0 < canGrow headroom d) :
    committedOf (createdState (createPool headroom d) d.name) ≤
      valueAt headroom d.spec.family := by
  obtain ⟨m, hcreate, -, hm⟩ := createPool_spec headroom d
  have hm := hm hd.minCount_le
  have hmax : max (min d.maxCount (canGrow headroom d)) m = min d.maxCount (canGrow headroom d) :=
    max_eq_left hm
  rw [hcreate]
  simp only [committedOf, createdState, poolCeiling, if_true, hmax]
  exact mul_le_headroom hd.measurable.vcpus_pos hfits (min_le_right _ _)

theorem Effect.committedVCPU_le {n : Int} (hb : run.Bounded n) (hr : InRange n run state)
    (hagree : SpecsAgree run.desired state) (h : Effect run state state') :
    committedVCPU family state' ≤
      committedVCPU family state + max 0 (valueAt (run.headroom state) family) := by
  cases h with
  | create d hd hmissing hfits =>
    have hle := committedOf_created_le (hb.desired d hd) hfits
    have hspec : (createdState (createPool (run.headroom state) d) d.name).pool.spec = d.spec := by
      obtain ⟨m, hcreate, -⟩ := createPool_spec (run.headroom state) d
      rw [hcreate]
      rfl
    rw [committedVCPU_append, committedVCPU_cons, hspec]
    split_ifs with hfam
    · subst hfam
      simp only [committedVCPU, sumAt_nil]
      omega
    · simp only [committedVCPU, sumAt_nil]
      omega
  | change l r c c' hsplit hchange =>
    subst hsplit
    have hc : c ∈ l ++ c :: r := by simp
    have hle := hchange.committedOf_le hb hr hc fun d hd hname => hagree d hd c hc hname
    simp only [committedVCPU_append, committedVCPU_cons, hchange.sameIdentity.spec_eq]
    split_ifs with hfam
    · rw [hfam] at hle
      omega
    · omega
  | delete l r c hsplit =>
    subst hsplit
    have hpos := committedOf_nonneg (hr.sound.sound c (by simp))
    simp only [committedVCPU_append, committedVCPU_cons]
    split_ifs <;> omega

/-- Distinct desired names keep an initial agreement of the specs. -/
theorem SpecsAgree.step (hn : (run.desired.map Pool.name).Nodup) (hs : SoundState state)
    (hagree : SpecsAgree run.desired state) (h : run.Step state state') :
    SpecsAgree run.desired state' := by
  intro d hd
  apply (h.effect hs.names_nodup).forall_pools (hagree d hd)
  · intro e he hfits hname
    obtain ⟨m, hcreate, -⟩ := createPool_spec (run.headroom state) e
    have hde : d.name = e.name := hname.trans (createPool_name _ e)
    rw [List.inj_on_of_nodup_map hn hd he hde, hcreate]
    rfl
  · intro c _ c' hchange hc hname
    rw [hchange.sameIdentity.spec_eq]
    exact hc (hname.trans hchange.sameIdentity.name_eq)

theorem specsAgree_of_run {initial : List PoolState} {familyBudgets : FamilyMap} {desired : List Pool}
    {floor : TransitionFloor} (hn : (desired.map Pool.name).Nodup)
    (hinitial : (initial.map PoolState.name).Nodup) (haccepted : Accepted desired initial)
    (hagree : SpecsAgree desired initial)
    (hrun : ReflTransGen (Projection.Step ⟨desired, initial, familyBudgets, floor⟩) initial state) :
    SpecsAgree desired state := by
  refine (Runs.invariant (P := fun s => SoundState s ∧ SpecsAgree desired s) hrun
    ⟨haccepted.soundState hinitial, hagree⟩ ?_).2
  intro a b hab hstep
  exact ⟨hab.1.step haccepted.desiredSound hstep, hab.2.step hn hab.1 hstep⟩

/-- In a run over distinct pool names and numbers that fit, in which matched pools share their VM
spec, the headroom of a tracked family is the quota less the committed vCPUs, every step leaves it
at least at the minimum of zero and its previous value, and from a nonnegative start the committed
vCPUs never exceed the quota. -/
theorem projection_respects_quota (desired : List Pool) (initial : List PoolState)
    (familyBudgets : FamilyMap) (floor : TransitionFloor)
    (hinitial : (initial.map PoolState.name).Nodup) (haccepted : Accepted desired initial)
    (hagree : ∀ state, ReflTransGen (Projection.Step ⟨desired, initial, familyBudgets, floor⟩)
      initial state → SpecsAgree desired state)
    (n : Int) (hfits : FitsInt64 n desired initial)
    (family : VMFamily) (hfamily : family ∈ familyBudgets)
    (hbudget : BudgetFits n desired initial familyBudgets family) :
    let run : Projection := ⟨desired, initial, familyBudgets, floor⟩
    let quota := valueAt familyBudgets family + valueAt (runningVCPU initial) family
    (∀ state, ReflTransGen run.Step initial state →
      valueAt (run.headroom state) family = quota - committedVCPU family state) ∧
    (∀ state state', ReflTransGen run.Step initial state → run.Step state state' →
      min (valueAt (run.headroom state) family) 0 ≤ valueAt (run.headroom state') family) ∧
    (0 ≤ valueAt (run.headroom initial) family →
      ∀ state, ReflTransGen run.Step initial state → committedVCPU family state ≤ quota) := by
  intro run quota
  have hb : run.Bounded n := haccepted.bounded hinitial hfits familyBudgets floor
  have heq : ∀ state, ReflTransGen run.Step initial state →
      valueAt (run.headroom state) family = quota - committedVCPU family state :=
    fun state hrun => headroom_eq hb hbudget (hb.inRange_of_run hrun) hfamily
  have hstep : ∀ state state', ReflTransGen run.Step initial state → run.Step state state' →
      min (valueAt (run.headroom state) family) 0 ≤ valueAt (run.headroom state') family := by
    intro state state' hrun h
    have hr := hb.inRange_of_run hrun
    have hle : committedVCPU family state' ≤ committedVCPU family state +
        max 0 (valueAt (run.headroom state) family) :=
      (h.effect hr.sound.names_nodup).committedVCPU_le hb hr (hagree state hrun)
    have h1 := heq state hrun
    have h2 := heq state' (hrun.tail h)
    omega
  refine ⟨heq, hstep, fun hstart state hrun => ?_⟩
  have hroom : 0 ≤ valueAt (run.headroom state) family := by
    induction hrun with
    | refl => exact hstart
    | tail hrun h ih =>
      have := hstep _ _ hrun h
      omega
  have := heq state hrun
  omega

/-- Replacing a two-node pool with one spare vCPU: three vCPUs are never exceeded. -/
theorem projection_respects_quota_replacement :
    let run : Projection :=
      ⟨[workerPool "new" 2], [workerState "old" true 2 2], workerBudget 1, ⟨∅⟩⟩
    0 ≤ valueAt (run.headroom run.initial) "standardDFamily" ∧
      ∀ state, ReflTransGen run.Step run.initial state →
        committedVCPU "standardDFamily" state ≤
          valueAt run.familyBudgets "standardDFamily" +
            valueAt (runningVCPU run.initial) "standardDFamily" := by
  refine ⟨by decide, ?_⟩
  have haccepted : Accepted [workerPool "new" 2] [workerState "old" true 2 2] :=
    ⟨by decide, by decide, ⟨_, rfl⟩, ⟨_, rfl⟩⟩
  have hagree : SpecsAgree [workerPool "new" 2] [workerState "old" true 2 2] := by
    simp [SpecsAgree, workerPool, workerState]
  exact (projection_respects_quota [workerPool "new" 2] [workerState "old" true 2 2]
    (workerBudget 1) ⟨∅⟩ (by decide) haccepted
    (fun state => specsAgree_of_run (by decide) (by decide) haccepted hagree) 2
    ⟨by decide, by decide, by decide, by decide⟩ "standardDFamily" (by decide)
    (by unfold BudgetFits; decide)).2.2 (by decide)

/-- One node of 2 ^ 62 vCPUs. -/
def hugeNode : VMSpec := ⟨"Standard_D1", "standardDFamily", 2 ^ 62, 1, 0⟩

/-- Two observed pools of one name: the planner reads the last of them and the simulator changes
the first, so the first step commits ten nodes where one fits. A pool that reserves three nodes of
2 ^ 62 vCPUs with no quota left: the negative headroom wraps, and the pool grows. -/
theorem quota_overcommitted :
    (let tr := (simulateAndTrace [workerPool "a" 10]
      [workerState "a" true 0 0, workerState "a" true 9 0] (workerBudget 10) true 100).1
    SpecsAgree tr.desired tr.initial ∧ (∀ step ∈ tr.steps, SpecsAgree tr.desired step.state) ∧
      (tr.steps.head?.map fun step => (valueAt step.headroomBefore "standardDFamily",
        valueAt step.headroomAfter "standardDFamily")) = some (1, -9)) ∧
    let tr := (simulateAndTrace [{ workerPool "a" 4 with spec := hugeNode }]
      [{ workerState "a" true 3 0 with pool := { workerPool "a" 3 with spec := hugeNode } }]
      (workerBudget 0) true 100).1
    SpecsAgree tr.desired tr.initial ∧ (∀ step ∈ tr.steps, SpecsAgree tr.desired step.state) ∧
      committedVCPU "standardDFamily" tr.initial = 3 * 2 ^ 62 ∧
      tr.steps.head?.map (fun step => (valueAt step.headroomBefore "standardDFamily",
        committedVCPU "standardDFamily" step.state)) = some (2 ^ 62, 4 * 2 ^ 62) := by
  unfold SpecsAgree
  decide +kernel

end AroHcp.Nodepool
