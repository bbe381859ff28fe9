import AroHcp.Lib.OmitEmpty
import AroHcp.Lib.Reconcile
import Mathlib.Data.Rat.Cast.Order

/-! The dispatch of node pool updates to Cluster Service: what is desired and what Cluster Service
has are brought to one form, and a patch is sent when they differ. -/

namespace AroHcp.Dispatch.NodePool

open OmitEmpty

/-! ## What is desired -/

structure AutoScaling where
  min : Int32
  max : Int32
deriving DecidableEq

structure Taint where
  effect : String
  key : String
  value : String
deriving DecidableEq

structure NodePoolProperties where
  labels : Option StringMap
  replicas : Int32
  autoScaling : Option AutoScaling
  taints : List Taint
  nodeDrainTimeoutMinutes : Option Int32
deriving DecidableEq

/-! ## What Cluster Service has

A field that is not set is `none`, and reads as the zero value of its type. -/

structure CSAutoscaling where
  minReplica : Option Int64
  maxReplica : Option Int64
deriving DecidableEq

structure CSTaint where
  effect : Option String
  key : Option String
  value : Option String
deriving DecidableEq

structure CSValue where
  unit : Option String
  value : Option Rat
deriving DecidableEq

/-- The fields of a node pool of Cluster Service that are dispatched; also those that a builder
sets. -/
structure CSNodePool where
  labels : Option StringMap := none
  replicas : Option Int64 := none
  autoscaling : Option CSAutoscaling := none
  taints : Option (List CSTaint) := none
  nodeDrainGracePeriod : Option CSValue := none
deriving DecidableEq

def csNodeDrainGracePeriodUnit : String := "minutes"

/-! ## The form in which they are compared -/

structure DispatchConfig where
  labels : Option StringMap
  replicas : Int32
  autoScaling : Option AutoScaling
  taints : List Taint
  nodeDrainTimeoutMinutes : Option Int32
deriving DecidableEq

def configFromRP (nodePool : NodePoolProperties) : DispatchConfig where
  labels := nodePool.labels
  taints := nodePool.taints
  nodeDrainTimeoutMinutes := nodePool.nodeDrainTimeoutMinutes
  autoScaling := nodePool.autoScaling
  replicas := if nodePool.autoScaling.isSome then 0 else nodePool.replicas

/-- The conversion of a floating-point number to `int32`, which drops the fraction. -/
def int32OfFloat (q : Rat) : Int32 :=
  Int32.ofInt (q.num.tdiv q.den)

def nodeDrainTimeoutFromCS (cs : CSNodePool) : Option Int32 :=
  match cs.nodeDrainGracePeriod with
  | none => none
  | some period =>
    if period.unit = some csNodeDrainGracePeriodUnit then some (int32OfFloat (period.value.getD 0))
    else none

/-- `NodePoolUpdateDispatchConfigLabelsFromCS` -/
def labelsFromCS (cs : CSNodePool) : Option StringMap :=
  cs.labels

/-- `NodePoolUpdateDispatchConfigTaintsFromCS` -/
def taintsFromCS (cs : CSNodePool) : List Taint :=
  (cs.taints.getD []).map fun t => ⟨t.effect.getD "", t.key.getD "", t.value.getD ""⟩

def configFromCS (cs : CSNodePool) : DispatchConfig where
  labels := labelsFromCS cs
  taints := taintsFromCS cs
  nodeDrainTimeoutMinutes := nodeDrainTimeoutFromCS cs
  autoScaling := cs.autoscaling.map fun autoscaling =>
    ⟨(autoscaling.minReplica.getD 0).toInt32, (autoscaling.maxReplica.getD 0).toInt32⟩
  replicas := if cs.autoscaling.isSome then 0 else (cs.replicas.getD 0).toInt32

def AutoScaling.toJson (autoScaling : AutoScaling) : Json :=
  members [("max", numField autoScaling.max), ("min", numField autoScaling.min)]

def Taint.toJson (taint : Taint) : Json :=
  members [("effect", strField taint.effect), ("key", strField taint.key),
    ("value", strField taint.value)]

/-- The value of `canonicalJSON`. Its text has the keys in their order, so that equal texts are
texts of equal values. -/
def DispatchConfig.canonicalJSON (config : DispatchConfig) : Json :=
  members
    [("autoScaling", config.autoScaling.map AutoScaling.toJson),
      ("labels", mapField config.labels),
      ("nodeDrainTimeoutMinutes", config.nodeDrainTimeoutMinutes.map fun n => .num n.toInt),
      ("replicas", numField config.replicas),
      ("taints", listField Taint.toJson config.taints)]

def configsForDiff (nodePool : NodePoolProperties) (cs : CSNodePool) :
    DispatchConfig × DispatchConfig :=
  let desired := configFromRP nodePool
  let actual := configFromCS cs
  (desired,
    if desired.nodeDrainTimeoutMinutes = none then { actual with nodeDrainTimeoutMinutes := none }
    else actual)

def diffJSON (nodePool : NodePoolProperties) (cs : CSNodePool) : Json × Json :=
  let (desired, actual) := configsForDiff nodePool cs
  (desired.canonicalJSON, actual.canonicalJSON)

/-! ## The patch -/

/-- `applyToCSBuilder`. A builder takes a nil map as a field that is not set. -/
def DispatchConfig.applyToCSBuilder (config : DispatchConfig) (builder : CSNodePool) : CSNodePool :=
  let builder := { builder with labels := config.labels }
  let builder := match config.autoScaling with
    | some autoScaling =>
      { builder with
        autoscaling := some ⟨some autoScaling.min.toInt64, some autoScaling.max.toInt64⟩
        replicas := none }
    | none => { builder with replicas := some config.replicas.toInt64, autoscaling := none }
  let builder :=
    if config.taints = [] then builder
    else { builder with
      taints := some (config.taints.map fun t => ⟨some t.effect, some t.key, some t.value⟩) }
  match config.nodeDrainTimeoutMinutes with
  | none => builder
  | some minutes =>
    { builder with
      nodeDrainGracePeriod := some ⟨some csNodeDrainGracePeriodUnit, some (minutes.toInt : Rat)⟩ }

def buildCSNodePool (nodePool : NodePoolProperties) : CSNodePool :=
  (configFromRP nodePool).applyToCSBuilder {}

/-- Cluster Service changes the fields that are set and keeps the others; of the replicas and the
autoscaling it has one. -/
def CSNodePool.patch (existing update : CSNodePool) : CSNodePool where
  labels := update.labels.or existing.labels
  taints := update.taints.or existing.taints
  nodeDrainGracePeriod := update.nodeDrainGracePeriod.or existing.nodeDrainGracePeriod
  replicas := if update.autoscaling.isSome then none else update.replicas.or existing.replicas
  autoscaling := if update.replicas.isSome then none else update.autoscaling.or existing.autoscaling

/-! ## The end of the operation -/

def formatTaints (taints : List Taint) : String :=
  "[" ++ " ".intercalate (taints.map fun t => s!"\x7b{t.effect} {t.key} {t.value}\x7d") ++ "]"

def labelsSpecMatchesDesired (desired : Option StringMap) (cs : CSNodePool) : Bool × String :=
  let observed := (labelsFromCS cs).getD .empty
  let desired := desired.getD .empty
  if observed = desired then (true, "")
  else (false, "Cluster Service node pool labels are " ++ observed.format ++ ", want " ++
    desired.format)

def taintsSpecMatchesDesired (desired : List Taint) (cs : CSNodePool) : Bool × String :=
  let observed := taintsFromCS cs
  if observed = desired then (true, "")
  else (false, "Cluster Service node pool taints are " ++ formatTaints observed ++ ", want " ++
    formatTaints desired)

def specMatchesDesired (nodePool : NodePoolProperties) (cs : CSNodePool) : Bool × String :=
  match labelsSpecMatchesDesired nodePool.labels cs with
  | (false, message) => (false, message)
  | (true, _) => taintsSpecMatchesDesired nodePool.taints cs

/-! ## The comparison -/

theorem AutoScaling.toJson_inj : Function.Injective AutoScaling.toJson := by
  intro a b h
  have hfields : [numField a.max, numField a.min] = [numField b.max, numField b.min] :=
    members_inj ["max", "min"] (by decide) rfl rfl h
  rw [List.cons.injEq, List.cons.injEq] at hfields
  cases a
  cases b
  congr
  · exact numField_inj hfields.2.1
  · exact numField_inj hfields.1

theorem Taint.toJson_inj : Function.Injective Taint.toJson := by
  intro a b h
  have hfields : [strField a.effect, strField a.key, strField a.value] =
      [strField b.effect, strField b.key, strField b.value] :=
    members_inj ["effect", "key", "value"] (by decide) rfl rfl h
  rw [List.cons.injEq, List.cons.injEq, List.cons.injEq] at hfields
  cases a
  cases b
  congr
  · exact strField_inj hfields.1
  · exact strField_inj hfields.2.1
  · exact strField_inj hfields.2.2.1

/-- The values are equal exactly if the configurations are, up to a map that is nil or empty. -/
theorem canonicalJSON_eq_iff {config config' : DispatchConfig} :
    config.canonicalJSON = config'.canonicalJSON ↔
      config.labels.getD .empty = config'.labels.getD .empty ∧ config.taints = config'.taints ∧
      config.nodeDrainTimeoutMinutes = config'.nodeDrainTimeoutMinutes ∧
      config.autoScaling = config'.autoScaling ∧ config.replicas = config'.replicas := by
  constructor
  · intro h
    let fields (c : DispatchConfig) : List (Option Json) :=
      [c.autoScaling.map AutoScaling.toJson, mapField c.labels,
        c.nodeDrainTimeoutMinutes.map fun n => .num n.toInt, numField c.replicas,
        listField Taint.toJson c.taints]
    have hfields : fields config = fields config' :=
      members_inj ["autoScaling", "labels", "nodeDrainTimeoutMinutes", "replicas", "taints"]
        (by decide) rfl rfl h
    simp only [fields, List.cons.injEq] at hfields
    obtain ⟨hautoScaling, hlabels, hdrain, hreplicas, htaints, -⟩ := hfields
    refine ⟨mapField_eq_iff.mp hlabels, listField_inj Taint.toJson_inj htaints, ?_,
      Option.map_injective AutoScaling.toJson_inj hautoScaling, numField_inj hreplicas⟩
    refine Option.map_injective ?_ hdrain
    intro m n hmn
    exact Int32.toInt_inj.mp (Rat.intCast_inj.mp (Json.num.inj hmn))
  · rintro ⟨hlabels, htaints, hdrain, hautoScaling, hreplicas⟩
    unfold DispatchConfig.canonicalJSON
    rw [mapField_eq_iff.mpr hlabels, htaints, hdrain, hautoScaling, hreplicas]

/-! ## After the patch -/

theorem int32OfFloat_toInt (n : Int32) : int32OfFloat (n.toInt : Rat) = n := by
  unfold int32OfFloat
  simp

/-- What Cluster Service has after the patch. Labels and taints are kept where none are desired. -/
theorem configFromCS_patch (nodePool : NodePoolProperties) (existing : CSNodePool) :
    configFromCS (existing.patch (buildCSNodePool nodePool)) =
      { configFromRP nodePool with
        labels := nodePool.labels.or existing.labels
        taints := if nodePool.taints = [] then taintsFromCS existing else nodePool.taints
        nodeDrainTimeoutMinutes :=
          nodePool.nodeDrainTimeoutMinutes.or (nodeDrainTimeoutFromCS existing) } := by
  unfold buildCSNodePool configFromRP DispatchConfig.applyToCSBuilder
  obtain ⟨labels, replicas, autoScaling, taints, drain⟩ := nodePool
  cases autoScaling <;> cases drain <;> by_cases htaints : taints = [] <;>
    simp [configFromCS, CSNodePool.patch, labelsFromCS, taintsFromCS, nodeDrainTimeoutFromCS, htaints,
      int32OfFloat_toInt, Function.comp_def]

/-- Where the node pool has no labels or no taints at all, Cluster Service has none either. -/
structure ClearsNothing (nodePool : NodePoolProperties) (existing : CSNodePool) : Prop where
  labels : nodePool.labels = none → existing.labels.getD .empty = .empty
  taints : nodePool.taints = [] → taintsFromCS existing = []

variable {nodePool : NodePoolProperties} {existing cs : CSNodePool}

theorem diffJSON_eq_iff :
    (diffJSON nodePool cs).1 = (diffJSON nodePool cs).2 ↔
      nodePool.labels.getD .empty = cs.labels.getD .empty ∧ nodePool.taints = taintsFromCS cs ∧
      (nodePool.nodeDrainTimeoutMinutes ≠ none →
        nodePool.nodeDrainTimeoutMinutes = nodeDrainTimeoutFromCS cs) ∧
      nodePool.autoScaling = (configFromCS cs).autoScaling ∧
      (configFromRP nodePool).replicas = (configFromCS cs).replicas := by
  unfold diffJSON configsForDiff
  rw [canonicalJSON_eq_iff]
  by_cases hdrain : nodePool.nodeDrainTimeoutMinutes = none
  · simp [configFromRP, configFromCS, labelsFromCS, hdrain]
  · simp [configFromRP, configFromCS, labelsFromCS, hdrain]

theorem specMatchesDesired_iff :
    (specMatchesDesired nodePool cs).1 = true ↔
      cs.labels.getD .empty = nodePool.labels.getD .empty ∧ taintsFromCS cs = nodePool.taints := by
  unfold specMatchesDesired labelsSpecMatchesDesired taintsSpecMatchesDesired labelsFromCS
  by_cases hlabels : cs.labels.getD .empty = nodePool.labels.getD .empty
  · by_cases htaints : taintsFromCS cs = nodePool.taints
    · simp [hlabels, htaints]
    · simp [hlabels, htaints]
  · simp [hlabels]

theorem labels_patch_iff (labels existing : Option StringMap) :
    labels.getD .empty = (labels.or existing).getD .empty ↔
      (labels = none → existing.getD .empty = .empty) := by
  cases labels with
  | none => simp [eq_comm]
  | some m => simp

/-- After the patch nothing differs exactly if neither all labels nor all taints were to be removed.
-/
theorem diffJSON_patch_iff :
    (diffJSON nodePool (existing.patch (buildCSNodePool nodePool))).1 =
      (diffJSON nodePool (existing.patch (buildCSNodePool nodePool))).2 ↔
      ClearsNothing nodePool existing := by
  have hconfig := configFromCS_patch nodePool existing
  have hlabels := congrArg DispatchConfig.labels hconfig
  have htaints := congrArg DispatchConfig.taints hconfig
  have hdrain := congrArg DispatchConfig.nodeDrainTimeoutMinutes hconfig
  have hautoScaling := congrArg DispatchConfig.autoScaling hconfig
  have hreplicas := congrArg DispatchConfig.replicas hconfig
  simp only [configFromCS, labelsFromCS] at hlabels htaints hdrain
  rw [diffJSON_eq_iff, hlabels, htaints, hdrain, hautoScaling, hreplicas, labels_patch_iff]
  constructor
  · rintro ⟨hnolabels, hnotaints, -⟩
    refine ⟨hnolabels, ?_⟩
    intro hnone
    rw [if_pos hnone, hnone] at hnotaints
    exact hnotaints.symm
  · rintro ⟨hnolabels, hnotaints⟩
    refine ⟨hnolabels, ?_, ?_, rfl, rfl⟩
    · by_cases hnone : nodePool.taints = []
      · rw [if_pos hnone, hnone, hnotaints hnone]
      · rw [if_neg hnone]
    · intro hsome
      cases hminutes : nodePool.nodeDrainTimeoutMinutes with
      | none => exact absurd hminutes hsome
      | some minutes => rfl

/-- The patch gives what is desired, and the operation can end, exactly if neither all labels nor
all taints were to be removed: a field that is not set is kept. -/
theorem nodePool_patch_fixed_iff (nodePool : NodePoolProperties) (existing : CSNodePool) :
    ((diffJSON nodePool (existing.patch (buildCSNodePool nodePool))).1 =
        (diffJSON nodePool (existing.patch (buildCSNodePool nodePool))).2 ∧
      (specMatchesDesired nodePool (existing.patch (buildCSNodePool nodePool))).1 = true) ↔
      ClearsNothing nodePool existing := by
  rw [← diffJSON_patch_iff]
  constructor
  · exact fun h => h.1
  · intro h
    obtain ⟨hlabels, htaints, -⟩ := diffJSON_eq_iff.mp h
    exact ⟨h, specMatchesDesired_iff.mpr ⟨hlabels.symm, htaints.symm⟩⟩

/-- A node pool with a label and a taint, of which none are desired any longer. -/
theorem nodePool_patch_keeps_removed :
    let labels : StringMap := ⟨[("zone", "a")], by decide⟩
    let taints := [CSTaint.mk (some "NoSchedule") (some "key") (some "value")]
    let nodePool : NodePoolProperties := ⟨none, 2, none, [], none⟩
    let labelled : CSNodePool := { labels := some labels, replicas := some 2 }
    let tainted : CSNodePool := { taints := some taints, replicas := some 2 }
    labelled.patch (buildCSNodePool nodePool) = labelled ∧
      (diffJSON nodePool labelled).1 ≠ (diffJSON nodePool labelled).2 ∧
      specMatchesDesired nodePool labelled =
        (false, "Cluster Service node pool labels are map[zone:a], want map[]") ∧
      tainted.patch (buildCSNodePool nodePool) = tainted ∧
      (diffJSON nodePool tainted).1 ≠ (diffJSON nodePool tainted).2 ∧
      specMatchesDesired nodePool tainted =
        (false, "Cluster Service node pool taints are [\x7bNoSchedule key value\x7d], want []") := by
  decide +kernel

/-! ## The controller -/

/-- The controller finds nothing to send. -/
def inSync (nodePool : NodePoolProperties) (cs : CSNodePool) : Bool :=
  (diffJSON nodePool cs).1 = (diffJSON nodePool cs).2

/-- The patches that `SyncOnce` sends in a number of passes, if all are accepted. -/
def patchesSent (nodePool : NodePoolProperties) (passes : Nat) (existing : CSNodePool) : Nat :=
  Reconcile.patches (inSync nodePool) (fun cs => cs.patch (buildCSNodePool nodePool)) passes existing

theorem patchesSent_of_kept (h : ClearsNothing nodePool existing) (passes : Nat) :
    patchesSent nodePool passes existing ≤ 1 := by
  apply Reconcile.patches_le_one
  exact decide_eq_true (diffJSON_patch_iff.mpr h)

theorem patch_patch (update : CSNodePool) :
    (existing.patch update).patch update = existing.patch update := by
  have hor : ∀ {α : Type} (a b : Option α), a.or (a.or b) = a.or b := by
    intro α a b
    cases a <;> rfl
  obtain ⟨labels, replicas, autoscaling, taints, drain⟩ := update
  unfold CSNodePool.patch
  simp only [hor]
  cases replicas <;> cases autoscaling <;> rfl

/-- Where all labels or all taints are to be removed, every pass sends a patch. -/
theorem patchesSent_of_cleared (h : ¬ClearsNothing nodePool existing) (passes : Nat) :
    patchesSent nodePool passes existing = passes := by
  have hidem : (existing.patch (buildCSNodePool nodePool)).patch (buildCSNodePool nodePool) =
      existing.patch (buildCSNodePool nodePool) := patch_patch _
  apply Reconcile.patches_of_stuck hidem
  · intro hsync
    obtain ⟨hlabels, htaints, -⟩ := diffJSON_eq_iff.mp (of_decide_eq_true hsync)
    refine h ⟨?_, ?_⟩
    · intro hnone
      rw [hnone] at hlabels
      exact hlabels.symm
    · intro hnone
      rw [hnone] at htaints
      exact htaints.symm
  · intro hsync
    exact h (diffJSON_patch_iff.mp (of_decide_eq_true hsync))

/-- However often `SyncOnce` runs, it sends at most one update, exactly if neither all labels nor
all taints have to be removed. -/
theorem patchesSent_bounded_iff (nodePool : NodePoolProperties) (existing : CSNodePool) :
    (∀ passes, patchesSent nodePool passes existing ≤ 1) ↔ ClearsNothing nodePool existing := by
  constructor
  · intro h
    by_contra hcleared
    have htwo := h 2
    rw [patchesSent_of_cleared hcleared] at htwo
    omega
  · exact patchesSent_of_kept

end AroHcp.Dispatch.NodePool
