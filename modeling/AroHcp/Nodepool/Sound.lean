import AroHcp.Lib.Runs
import AroHcp.Nodepool.Effect

/-! The states a projection works on: distinct names, known capacity and nonnegative counts are
checked once on the inputs and kept by every projected change. -/

namespace AroHcp.Nodepool

open Compute Tally

/-- A pool of known capacity with nonnegative counts. -/
structure PoolState.Sound (c : PoolState) : Prop where
  measurable : c.pool.Measurable
  count_nonneg : 0 ≤ c.count

structure SoundState (state : List PoolState) : Prop where
  names_nodup : (state.map PoolState.name).Nodup
  sound : ∀ c ∈ state, c.Sound

/-- A desired pool that `simulateAndTrace` accepts. -/
structure DesiredSound (d : Pool) : Prop where
  measurable : d.Measurable
  maxCount_pos : 0 < d.maxCount
  minCount_nonneg : 0 ≤ d.minCount
  minCount_le : d.minCount ≤ d.maxCount

variable {run : Projection} {state state' : List PoolState} {c c' : PoolState} {d : Pool}

theorem PoolState.Sound.ceiling_nonneg (h : c.Sound) : 0 ≤ poolCeiling c := by
  unfold poolCeiling
  split_ifs
  · exact h.measurable.maxCount_nonneg
  · exact h.count_nonneg

theorem PoolState.Sound.ceilingPool_measurable (h : c.Sound) : (ceilingPool c).Measurable :=
  { h.measurable with maxCount_nonneg := h.ceiling_nonneg }

/-- A change touches the maximum, the labels and the taints of a specification and nothing else. -/
structure SameIdentity (c c' : PoolState) : Prop where
  pool_eq : ∃ maxCount labels taints,
    c'.pool = { c.pool with maxCount := maxCount, labels := labels, taints := taints }
  provisioningState_eq : c'.provisioningState = c.provisioningState

theorem Change.sameIdentity (h : Change run state c c') : SameIdentity c c' := by
  cases h <;> exact ⟨⟨_, _, _, rfl⟩, rfl⟩

namespace SameIdentity

variable (h : SameIdentity c c')

include h

theorem name_eq : c'.name = c.name := by
  obtain ⟨⟨m, l, t, hp⟩, -⟩ := h
  simp [PoolState.name, hp]

theorem spec_eq : c'.pool.spec = c.pool.spec := by
  obtain ⟨⟨m, l, t, hp⟩, -⟩ := h
  simp [hp]

theorem roleZoneKey_eq : c'.roleZoneKey = c.roleZoneKey := by
  obtain ⟨⟨m, l, t, hp⟩, -⟩ := h
  simp [PoolState.roleZoneKey, Pool.roleZoneKey, hp]

theorem resources_eq (n : Int) : c'.pool.resources n = c.pool.resources n := by
  obtain ⟨⟨m, l, t, hp⟩, -⟩ := h
  simp [Pool.resources, hp]

theorem measurable (hc : c.pool.Measurable) (hm : 0 ≤ c'.pool.maxCount) : c'.pool.Measurable := by
  obtain ⟨⟨m, l, t, hp⟩, -⟩ := h
  rw [hp] at hm ⊢
  exact ⟨hc.vcpus_pos, hc.memoryBytes_pos, hm, hc.nics_nonneg, hc.nics_swift⟩

end SameIdentity

theorem Change.sound (hdesired : ∀ d ∈ run.desired, DesiredSound d) (hc : c.Sound)
    (h : Change run state c c') : c'.Sound := by
  have hid := h.sameIdentity
  have hcount := hc.count_nonneg
  have hmax := hc.measurable.maxCount_nonneg
  have hbounds : 0 ≤ c'.pool.maxCount ∧ 0 ≤ c'.count := by
    cases h with
    | unfreeze d _ _ hd => exact ⟨(hdesired d hd).maxCount_pos.le, hcount⟩
    | lowerDesired d _ _ hd => exact ⟨(hdesired d hd).maxCount_pos.le, hcount⟩
    | reduceDesired | drain | grow | squeeze | freezeDesired | freezeUndesired | updateConfig =>
      dsimp only
      omega
  exact ⟨hid.measurable hc.measurable hbounds.1, hbounds.2⟩

/-- What a created pool keeps of the desired pool, and the ceiling it starts with. -/
theorem createPool_spec (headroom : FamilyMap) (d : Pool) :
    ∃ minCount, createPool headroom d =
        { d with maxCount := min d.maxCount (canGrow headroom d), minCount := minCount } ∧
      (minCount = d.minCount ∨ minCount = min d.minCount (canGrow headroom d)) ∧
      (d.minCount ≤ d.maxCount → minCount ≤ min d.maxCount (canGrow headroom d)) := by
  unfold createPool
  dsimp only
  split_ifs with h
  · refine ⟨min d.minCount (canGrow headroom d), ?_, .inr rfl, by omega⟩
    rw [min_eq_right h.lt.le]
  · refine ⟨d.minCount, ?_, .inl rfl, by omega⟩
    rw [min_eq_left (not_lt.mp h)]

theorem createdState_sound (headroom : FamilyMap) (hd : DesiredSound d)
    (hfits : 0 < canGrow headroom d) (name : String) :
    (createdState (createPool headroom d) name).Sound := by
  obtain ⟨m, hcreate, hm, -⟩ := createPool_spec headroom d
  have hmin : 0 ≤ m := by
    have := hd.minCount_nonneg
    omega
  have hmax : 0 ≤ min d.maxCount (canGrow headroom d) := by
    have := hd.maxCount_pos
    omega
  rw [hcreate]
  exact ⟨⟨hd.measurable.vcpus_pos, hd.measurable.memoryBytes_pos, hmax, hd.measurable.nics_nonneg,
    hd.measurable.nics_swift⟩, hmin⟩

theorem createPool_name (headroom : FamilyMap) (d : Pool) :
    (createPool headroom d).name = d.name := by
  obtain ⟨m, hcreate, -⟩ := createPool_spec headroom d
  rw [hcreate]

theorem Effect.names_nodup (hn : (state.map PoolState.name).Nodup) (h : Effect run state state') :
    (state'.map PoolState.name).Nodup := by
  cases h with
  | create d hd hmissing hfits =>
    have hname : (createdState (createPool (run.headroom state) d) d.name).name = d.name :=
      createPool_name _ _
    rw [List.map_append, List.map_singleton, hname, List.nodup_append]
    refine ⟨hn, List.nodup_singleton _, ?_⟩
    intro a ha b hb
    obtain ⟨c, hc, rfl⟩ := List.mem_map.mp ha
    rw [List.mem_singleton.mp hb]
    exact hmissing c hc
  | change l r c c' hsplit hchange =>
    subst hsplit
    simpa [hchange.sameIdentity.name_eq] using hn
  | delete l r c hsplit =>
    subst hsplit
    have hsub : (l ++ r).Sublist (l ++ c :: r) := by simp
    exact hn.sublist (hsub.map _)

theorem SoundState.effect (hdesired : ∀ d ∈ run.desired, DesiredSound d) (hs : SoundState state)
    (h : Effect run state state') : SoundState state' := by
  refine ⟨h.names_nodup hs.names_nodup, h.forall_pools hs.sound ?_ ?_⟩
  · intro d hd hfits
    exact createdState_sound _ (hdesired d hd) hfits _
  · intro c _ c' hchange hc
    exact hchange.sound hdesired hc

theorem SoundState.step (hdesired : ∀ d ∈ run.desired, DesiredSound d) (hs : SoundState state)
    (h : run.Step state state') : SoundState state' :=
  hs.effect hdesired (h.effect hs.names_nodup)

end AroHcp.Nodepool
