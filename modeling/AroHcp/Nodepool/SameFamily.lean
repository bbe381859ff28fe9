import AroHcp.Lib.Buckets
import AroHcp.Nodepool.Quota
import AroHcp.Nodepool.Stuck

/-! Transitions between user pools of one VM spec, counted in nodes per role-zone bucket. -/

namespace AroHcp.Nodepool

open Compute Compute.CapacityByRoleZone Tally Relation

/-- A current pool agrees with the desired pool of its name on the fields no action changes. -/
structure SameSpecification (d : Pool) (c : PoolState) : Prop where
  role : c.pool.role = d.role
  zones : c.pool.availabilityZones.Perm d.availabilityZones
  size : c.pool.spec.size = d.spec.size
  osDiskSizeGB : c.pool.osDiskSizeGB = d.osDiskSizeGB
  maxPods : c.pool.maxPods = d.maxPods
  enableSwift : c.pool.enableSwift = d.enableSwift
  secondaryNICs : c.pool.secondaryNICs = d.secondaryNICs
  agentPoolMode : c.pool.agentPoolMode = d.agentPoolMode

theorem SameSpecification.roleZoneKey_eq {d : Pool} {c : PoolState} (h : SameSpecification d c) :
    c.roleZoneKey = d.roleZoneKey := by
  have hlen := h.zones.length_eq
  unfold PoolState.roleZoneKey Pool.roleZoneKey
  rw [h.role]
  match hd : d.availabilityZones with
  | [] => simp [List.eq_nil_of_length_eq_zero (hlen.trans (by simp [hd]))]
  | [zone] => simp [List.perm_singleton.mp (hd ▸ h.zones)]
  | z1 :: z2 :: rest =>
    match hc : c.pool.availabilityZones with
    | [] => rfl
    | [zone] => simp [hc, hd] at hlen
    | _ :: _ :: _ => rfl

/-- What stays true of every pool of a transition between user pools of one VM spec, `nics` being
the NICs per node in each bucket. -/
structure Fits (spec : VMSpec) (nics : RoleZone → Int) (desired : List Pool) (c : PoolState) :
    Prop where
  spec_eq : c.pool.spec = spec
  user : c.pool.agentPoolMode = .user
  succeeded : c.provisioningState = .succeeded
  nics_eq : c.pool.secondaryNICs = nics c.roleZoneKey
  bucket : ∃ d ∈ desired, d.roleZoneKey = c.roleZoneKey
  identity : ∀ d ∈ desired, d.name = c.name → SameSpecification d c

/-- The desired side of such a transition. -/
structure Uniform (spec : VMSpec) (nics : RoleZone → Int) (desired : List Pool) : Prop where
  names_nodup : (desired.map Pool.name).Nodup
  sound : ∀ d ∈ desired, DesiredSound d
  spec_eq : ∀ d ∈ desired, d.spec = spec
  user : ∀ d ∈ desired, d.agentPoolMode = .user
  nics_eq : ∀ d ∈ desired, d.secondaryNICs = nics d.roleZoneKey

structure FitState (spec : VMSpec) (nics : RoleZone → Int) (desired : List Pool)
    (state : List PoolState) : Prop where
  sound : SoundState state
  fits : ∀ c ∈ state, Fits spec nics desired c

variable {run : Projection} {state state' : List PoolState} {c c' : PoolState} {d : Pool}
  {spec : VMSpec} {nics : RoleZone → Int}

theorem Fits.change (h : Fits spec nics run.desired c) (hid : SameIdentity c c') :
    Fits spec nics run.desired c' := by
  have hkey := hid.roleZoneKey_eq
  have hname := hid.name_eq
  obtain ⟨⟨m, l, t, hp⟩, hstate⟩ := hid
  refine
    { spec_eq := by simpa [hp] using h.spec_eq
      user := by simpa [hp] using h.user
      succeeded := hstate.trans h.succeeded
      nics_eq := by rw [hkey, ← h.nics_eq, hp]
      bucket := by simpa [hkey] using h.bucket
      identity := ?_ }
  intro d hd hdname
  have hs := h.identity d hd (hdname.trans hname)
  constructor <;> simp only [hp]
  exacts [hs.role, hs.zones, hs.size, hs.osDiskSizeGB, hs.maxPods, hs.enableSwift,
    hs.secondaryNICs, hs.agentPoolMode]

theorem fits_created (hu : Uniform spec nics run.desired) (hd : d ∈ run.desired)
    (headroom : FamilyMap) :
    Fits spec nics run.desired (createdState (createPool headroom d) d.name) := by
  obtain ⟨m, hcreate, -⟩ := createPool_spec headroom d
  rw [hcreate]
  have hkey : (createdState { d with
      maxCount := min d.maxCount (canGrow headroom d), minCount := m } d.name).roleZoneKey =
      d.roleZoneKey := rfl
  refine
    { spec_eq := hu.spec_eq d hd
      user := hu.user d hd
      succeeded := rfl
      nics_eq := by rw [hkey, ← hu.nics_eq d hd]; rfl
      bucket := ⟨d, hd, rfl⟩
      identity := ?_ }
  intro e he hname
  rw [List.inj_on_of_nodup_map hu.names_nodup he hd hname]
  exact ⟨rfl, List.Perm.refl _, rfl, rfl, rfl, rfl, rfl, rfl⟩

theorem FitState.effect (hu : Uniform spec nics run.desired)
    (hs : FitState spec nics run.desired state) (h : Effect run state state') :
    FitState spec nics run.desired state' := by
  refine ⟨hs.sound.effect hu.sound h, h.forall_pools hs.fits ?_ ?_⟩
  · intro d hd _
    exact fits_created hu hd _
  · intro c _ c' hchange hc
    exact hc.change hchange.sameIdentity

/-! ## Buckets counted in nodes -/

def nodes (state : List PoolState) (key : RoleZone) : Int :=
  sumAt PoolState.roleZoneKey poolCeiling key state

def targetNodes (desired : List Pool) (key : RoleZone) : Int :=
  sumAt Pool.roleZoneKey Pool.maxCount key desired

def nodesCapacity (spec : VMSpec) (nic : Int) : Int →+ RoleCapacity where
  toFun n := ⟨n * spec.vcpus, n * spec.memoryBytes, n * nic⟩
  map_zero' := by ext <;> simp
  map_add' m n := by ext <;> simp [add_mul]

theorem Fits.resources_eq (h : Fits spec nics run.desired c) (n : Int) :
    c.pool.resources n = nodesCapacity spec (nics c.roleZoneKey) n := by
  change (⟨_, _, _⟩ : RoleCapacity) = ⟨_, _, _⟩
  rw [h.spec_eq, h.nics_eq]

theorem zoneCeiling_eq (h : ∀ c ∈ state, Fits spec nics run.desired c) (key : RoleZone) :
    zoneCeiling state key = nodesCapacity spec (nics key) (nodes state key) := by
  apply sumAt_hom
  intro c hc hkey
  rw [← hkey]
  exact (h c hc).resources_eq (poolCeiling c)

theorem ceilingResources_eq {desired : List Pool} (hu : Uniform spec nics desired)
    (key : RoleZone) :
    sumAt Pool.roleZoneKey Pool.ceilingResources key desired =
      nodesCapacity spec (nics key) (targetNodes desired key) := by
  apply sumAt_hom
  intro d hd hkey
  change (⟨_, _, _⟩ : RoleCapacity) = ⟨_, _, _⟩
  rw [← hkey, hu.spec_eq d hd, hu.nics_eq d hd]

theorem ceilingResources_nonneg {desired : List Pool} (hu : Uniform spec nics desired)
    (key : RoleZone) : 0 ≤ sumAt Pool.roleZoneKey Pool.ceilingResources key desired := by
  apply sumAt_nonneg
  intro d hd
  exact (hu.sound d hd).measurable.resources_nonneg (hu.sound d hd).maxCount_pos.le

/-- The floor never asks for more than the target of a bucket. -/
def FloorWithinTarget (spec : VMSpec) (nics : RoleZone → Int) (run : Projection) : Prop :=
  ∀ key, valueAt run.capacityFloor.zones key ≤
    nodesCapacity spec (nics key) (targetNodes run.desired key)

/-- A bucket that stays at its target after a reduction allows it. -/
theorem allowed_of_nodes (hfloor : FloorWithinTarget spec nics run)
    (hs : FitState spec nics run.desired state) (hceilings : CeilingsFit state) (hc : c ∈ state)
    {n : Int} (hn : 0 ≤ n) (hnodes : targetNodes run.desired c.roleZoneKey + (poolCeiling c - n) ≤
      nodes state c.roleZoneKey) :
    allowsCapacityReduction state c n run.capacityFloor = true := by
  have hfit := hs.fits c hc
  have hsound := (hs.sound.sound c hc).measurable
  rw [allowsCapacityReduction_iff hs.sound hceilings hc hn, zoneCeiling_eq hs.fits,
    hfit.resources_eq]
  right
  refine (hfloor _).trans ?_
  rw [le_sub_iff_add_le, ← map_add, RoleCapacity.le_iff]
  have hv := hsound.vcpus_pos
  have hm := hsound.memoryBytes_pos
  have hn := hsound.nics_nonneg
  rw [hfit.spec_eq] at hv hm
  rw [hfit.nics_eq] at hn
  exact ⟨mul_le_mul_of_nonneg_right hnodes hv.le, mul_le_mul_of_nonneg_right hnodes hm.le,
    mul_le_mul_of_nonneg_right hnodes hn⟩

/-! ## Surplus over the target -/

/-- The part of a bucket's target that belongs to the desired pool of `c`'s name. -/
def targetOf (desired : List Pool) (key : RoleZone) (c : PoolState) : Int :=
  sumAt Pool.name (fun d => if d.roleZoneKey = key then d.maxCount else 0) c.name desired

/-- The nodes of a bucket that `c` holds beyond its own target. -/
def surplus (desired : List Pool) (key : RoleZone) (c : PoolState) : Int :=
  (if c.roleZoneKey = key then poolCeiling c else 0) - targetOf desired key c

/-- The target of the desired pools of a bucket that do not exist. -/
def missingNodes (desired : List Pool) (state : List PoolState) (key : RoleZone) : Int :=
  (desired.map fun d => if state.any (fun c => c.name = d.name) then 0
    else if d.roleZoneKey = key then d.maxCount else 0).sum

theorem bucket_balance (desired : List Pool) (hn : (state.map PoolState.name).Nodup)
    (key : RoleZone) :
    nodes state key + missingNodes desired state key =
      targetNodes desired key + (state.map (surplus desired key)).sum := by
  have hmatched : (state.map (targetOf desired key)).sum =
      (desired.map fun d => if state.any (fun c => c.name = d.name) then
        (if d.roleZoneKey = key then d.maxCount else 0) else 0).sum := sum_sumAt hn desired
  have hsurplus : (state.map (surplus desired key)).sum + (state.map (targetOf desired key)).sum =
      nodes state key := by
    rw [← List.sum_map_add]
    simp only [surplus, sub_add_cancel]
    rfl
  have hsplit : targetNodes desired key = missingNodes desired state key +
      (desired.map fun d => if state.any (fun c => c.name = d.name) then
        (if d.roleZoneKey = key then d.maxCount else 0) else 0).sum := by
    rw [targetNodes, sumAt, missingNodes, ← List.sum_map_add]
    congr 1
    apply List.map_congr_left
    intro d _
    split_ifs <;> simp
  omega

end AroHcp.Nodepool
