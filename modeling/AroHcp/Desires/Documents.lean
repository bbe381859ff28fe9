import AroHcp.Lib.Conditions
import AroHcp.Lib.DocStore
import AroHcp.Lib.GoFmt
import AroHcp.Lib.JsonText
import AroHcp.Lib.Trace

/-! Desires: documents in which the backend tells the kube-applier of a management cluster which
objects to apply, delete or read there. -/

namespace AroHcp.Desires

open Conditions DocStore GoFmt Program

/-- A Kubernetes object by its resource, namespace and name. -/
structure ResourceReference where
  group : String
  version : String
  resource : String
  ns : String
  name : String
deriving DecidableEq, Repr

inductive ApplyDesireType where
  | serverSideApply
  | delete
  | unknown (text : String)
deriving DecidableEq, Repr

structure ServerSideApplyConfig where
  kubeContent : Option String
  fieldManager : Option String
deriving DecidableEq, Repr

structure ApplyDesireSpec where
  managementCluster : String
  type : ApplyDesireType
  targetItem : ResourceReference
  serverSideApply : Option ServerSideApplyConfig
deriving DecidableEq, Repr

inductive ConditionType where
  | successful
  | successfullyApplied
  | successfullyDeleted
  | degraded
deriving DecidableEq, Repr

structure ApplyDesireStatus where
  conditions : List (Condition ConditionType) := []
  appliedKubeGeneration : Option Int := none
deriving DecidableEq, Repr

/-- The resource of a cluster that a desire is nested under. -/
inductive DesireScope where
  | cluster
  | nodePool (name : String)
  | credentialRequest (name : String)
  | revocation (name : String)
deriving DecidableEq, Repr

def DesireScope.toLower : DesireScope → DesireScope
  | cluster => cluster
  | nodePool name => nodePool (GoFmt.toLower name)
  | credentialRequest name => credentialRequest (GoFmt.toLower name)
  | revocation name => revocation (GoFmt.toLower name)

/-- The resource ID of a desire of a fixed cluster. -/
structure DesireKey where
  scope : DesireScope
  name : String
deriving DecidableEq, Repr

/-- `strings.ToLower(resourceID.String())` -/
def DesireKey.toLower (k : DesireKey) : DesireKey :=
  ⟨k.scope.toLower, GoFmt.toLower k.name⟩

structure ApplyDesire where
  resourceID : DesireKey
  spec : ApplyDesireSpec
  status : ApplyDesireStatus
  tags : List (String × String)
deriving DecidableEq, Repr

structure ReadDesire where
  resourceID : DesireKey
  managementCluster : String
  targetItem : ResourceReference
  tags : List (String × String)
deriving DecidableEq, Repr

def tagControllerName : String := "ControllerName"

/-! ## Calls -/

inductive Outcome where
  | ok
  | notFound
  | conflict
  | preconditionFailed
  | failed (err : String)
deriving DecidableEq, Repr

def Outcome.text : Outcome → String
  | ok => ""
  | notFound => "not found"
  | conflict => "conflict"
  | preconditionFailed => "precondition failed"
  | failed err => err

inductive StatusReason where
  | notFound
  | conflict
  | tooManyRequests
  | other
deriving DecidableEq, Repr

/-- An error of a call to the management cluster: a status that the API server answered, or another.
-/
inductive KubeError where
  | status (code : Nat) (reason : StatusReason) (message : String)
  | other (message : String)
deriving DecidableEq, Repr

/-- An object as far as the kube-applier looks at it. -/
structure KubeObject where
  deletionTimestamp : Option Int
  uid : String
  generation : Int
deriving DecidableEq, Repr

structure NodePool where
  deletionTimestamp : Option Int
deriving DecidableEq, Repr

inductive Call where
  /-- whether there is a client for the management cluster -/
  | dbClient
  | nodePool (name : String)
  | listApplyDesires
  | listReadDesires
  | cachedApplyDesire (k : DesireKey)
  | cachedReadDesire (k : DesireKey)
  | getApplyDesire (k : DesireKey)
  | createApplyDesire (d : ApplyDesire)
  | replaceApplyDesire (etag : Nat) (d : ApplyDesire)
  | deleteApplyDesire (k : DesireKey)
  | createReadDesire (d : ReadDesire)
  | replaceReadDesire (etag : Nat) (d : ReadDesire)
  | deleteReadDesire (k : DesireKey)
  /-- calls to the management cluster, with the desire for which they are made -/
  | getObject (k : DesireKey) (target : ResourceReference)
  | deleteObject (k : DesireKey) (target : ResourceReference)
  | applyObject (k : DesireKey) (target : ResourceReference) (content fieldManager : String)

@[reducible] def Call.Reply : Call → Type
  | dbClient => Bool
  | nodePool _ => Except String (Option NodePool)
  | listApplyDesires => Except String (List ApplyDesire)
  | listReadDesires => Except String (List ReadDesire)
  | cachedApplyDesire _ | getApplyDesire _ => Except String (Option (Versioned ApplyDesire))
  | cachedReadDesire _ => Except String (Option (Versioned ReadDesire))
  | createApplyDesire _ | replaceApplyDesire _ _ | deleteApplyDesire _ | createReadDesire _
  | replaceReadDesire _ _ | deleteReadDesire _ => Outcome
  | getObject _ _ | applyObject _ _ _ _ => Except KubeError KubeObject
  | deleteObject _ _ => Option KubeError

abbrev Prog := Program Call Call.Reply

/-! ## Creating and removing desires -/

def jsonBytesEqual (a b : String) : Bool :=
  if a = "" ∧ b = "" then true
  else match JsonText.unmarshal a, JsonText.unmarshal b with
    | some aVal, some bVal => aVal = bVal
    | _, _ => false

def applyDesireSpecEqual (existing desired : ApplyDesireSpec) : Bool :=
  let raw (spec : ApplyDesireSpec) := (spec.serverSideApply.bind (·.kubeContent)).getD ""
  toLower existing.managementCluster = toLower desired.managementCluster &&
    existing.targetItem = desired.targetItem && existing.type = desired.type &&
    jsonBytesEqual (raw existing) (raw desired)

def ensureApplyDesire (desire : ApplyDesire) : Prog (Option String) := do
  if (desire.tags.lookup tagControllerName).isNone then
    return some s!"desire Tags must contain the {quote tagControllerName} tag key"
  else
    let desireName := desire.resourceID.name
    match ← perform (Call.cachedApplyDesire desire.resourceID) with
    | .error err => return some s!"get ApplyDesire {desireName} from lister: {err}"
    | .ok none =>
      match ← perform (Call.createApplyDesire desire) with
      | .ok | .conflict => return none
      | err => return some s!"create ApplyDesire {desireName}: {err.text}"
    | .ok (some existing) =>
      if applyDesireSpecEqual existing.doc.spec desire.spec = false ∨
          existing.doc.tags ≠ desire.tags then
        match ← perform (Call.replaceApplyDesire existing.etag
            { existing.doc with spec := desire.spec, tags := desire.tags, status := {} }) with
        | .ok | .preconditionFailed => return none
        | err => return some s!"replace ApplyDesire {desireName}: {err.text}"
      else return none

def readDesireSpecEqual (existing desired : ReadDesire) : Bool :=
  toLower existing.managementCluster = toLower desired.managementCluster &&
    existing.targetItem = desired.targetItem

def ensureReadDesire (desire : ReadDesire) : Prog (Option String) := do
  if (desire.tags.lookup tagControllerName).isNone then
    return some s!"desire Tags must contain the {quote tagControllerName} tag key"
  else
    let desireName := desire.resourceID.name
    match ← perform (Call.cachedReadDesire desire.resourceID) with
    | .error err => return some s!"get ReadDesire {desireName} from lister: {err}"
    | .ok none =>
      match ← perform (Call.createReadDesire desire) with
      | .ok | .conflict => return none
      | err => return some s!"create ReadDesire {desireName}: {err.text}"
    | .ok (some existing) =>
      if readDesireSpecEqual existing.doc desire = false ∨ existing.doc.tags ≠ desire.tags then
        match ← perform (Call.replaceReadDesire existing.etag
            { desire with resourceID := existing.doc.resourceID }) with
        | .ok | .preconditionFailed => return none
        | err => return some s!"replace ReadDesire {desireName}: {err.text}"
      else return none

def ApplyDesire.toDelete (d : ApplyDesire) : ApplyDesire :=
  { d with
    spec := { d.spec with type := .delete, serverSideApply := none }
    status := { d.status with conditions := [] } }

def ensureApplyDesireRemoved (scope : DesireScope) (desireName : String) :
    Prog (Except String Bool) := do
  let k := DesireKey.toLower ⟨scope, desireName⟩
  match ← perform (Call.getApplyDesire k) with
  | .error err => return .error s!"get ApplyDesire {desireName}: {err}"
  | .ok none => return .ok true
  | .ok (some applyDesire) =>
    if applyDesire.doc.spec.type ≠ .delete then
      match ← perform (Call.replaceApplyDesire applyDesire.etag applyDesire.doc.toDelete) with
      | .ok | .notFound | .preconditionFailed => return .ok false
      | err => return .error s!"convert ApplyDesire {desireName} to Delete: {err.text}"
    else if isStatusConditionTrue applyDesire.doc.status.conditions .successfullyDeleted then
      match ← perform (Call.deleteApplyDesire k) with
      | .ok | .notFound => return .ok true
      | err => return .error s!"delete ApplyDesire {desireName}: {err.text}"
    else return .ok false

end AroHcp.Desires
