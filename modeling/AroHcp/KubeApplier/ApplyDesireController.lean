import AroHcp.Desires.Documents

/-! The controller of the kube-applier that carries out ApplyDesires on its management cluster: a
server-side apply, or a delete that is waited for, and the conditions that report the outcome. -/

namespace AroHcp.KubeApplier

open Conditions Desires DocStore Program

/-! ## Errors and conditions -/

/-- An error of one attempt: of the checks before the call, or of the call. -/
inductive SyncError where
  | preCheck (message : String)
  | kube (doing : String) (err : KubeError)
deriving DecidableEq, Repr

def kubeErrorText : KubeError → String
  | .status _ _ message => message
  | .other message => message

def SyncError.text : SyncError → String
  | preCheck message => message
  | kube doing err => doing ++ ": " ++ kubeErrorText err

def isNotFound : KubeError → Bool
  | .status _ .notFound _ => true
  | _ => false

def isClientError : KubeError → Bool
  | .status code _ _ => 400 ≤ code && code < 500
  | .other _ => false

def setResult (type : ConditionType) (err : Option SyncError)
    (conditions : List (Condition ConditionType)) : List (Condition ConditionType) :=
  match err with
  | none => setStatusCondition ⟨type, true, "NoErrors", "As expected."⟩ conditions
  | some (.preCheck message) =>
    setStatusCondition ⟨type, false, "PreCheckFailed", message⟩ conditions
  | some err => setStatusCondition ⟨type, false, "KubeAPIError", err.text⟩ conditions

def setSuccessful (err : Option SyncError) (conditions : List (Condition ConditionType)) :
    List (Condition ConditionType) :=
  setResult .successful err conditions

def setSuccessfullyApplied (err : Option SyncError) (conditions : List (Condition ConditionType)) :
    List (Condition ConditionType) :=
  setResult .successful err (setResult .successfullyApplied err conditions)

def setSuccessfullyDeleted (err : Option SyncError) (conditions : List (Condition ConditionType)) :
    List (Condition ConditionType) :=
  setResult .successful err (setResult .successfullyDeleted err conditions)

def setWaitingForDeletion (deletionTime : Int) (uid : String)
    (conditions : List (Condition ConditionType)) : List (Condition ConditionType) :=
  let message := s!"waiting for deletion: deletionTimestamp={deletionTime} uid={uid}"
  setStatusCondition ⟨.successful, false, "WaitingForDeletion", message⟩
    (setStatusCondition ⟨.successfullyDeleted, false, "WaitingForDeletion", message⟩ conditions)

def classifyAsDegraded : Option SyncError → Option SyncError
  | some (.kube doing err) => if isClientError err then none else some (.kube doing err)
  | _ => none

def setDegraded (err : Option SyncError) (conditions : List (Condition ConditionType)) :
    List (Condition ConditionType) :=
  match err with
  | none => setStatusCondition ⟨.degraded, false, "NoErrors", "As expected."⟩ conditions
  | some err => setStatusCondition
    ⟨.degraded, true, "Failed", "Had an error while syncing: " ++ err.text⟩ conditions

def isRetryableApplyError : Option SyncError → Bool
  | some (.kube _ err) =>
    match err with
    | .status _ .notFound _ | .status _ .conflict _ | .status _ .tooManyRequests _ => true
    | err => !isClientError err
  | _ => false

/-! ## Writing the status -/

/-- `UpdateStatus` reads the document again, and writes it only if the status has changed. -/
def updateStatus (k : DesireKey) (mutate : ApplyDesireStatus → ApplyDesireStatus) :
    Prog (Option String) := do
  match ← perform (Call.getApplyDesire k) with
  | .error err => return some s!"fetch {k.name}: {err}"
  | .ok none => return none
  | .ok (some existing) =>
    if mutate existing.doc.status = existing.doc.status then return none
    else
      match ← perform (Call.replaceApplyDesire existing.etag
          { existing.doc with status := mutate existing.doc.status }) with
      | .ok => return none
      | err => return some s!"replace status for {k.name}: {err.text}"

/-! ## Carrying out a desire -/

def isIncomplete (target : ResourceReference) : Bool :=
  target.resource = "" || target.version = "" || target.name = ""

def incompleteTarget : SyncError := .preCheck "spec.targetItem requires version, resource, and name"

def contentOf (decodes : String → Except String Unit) (d : ApplyDesire) :
    Except SyncError (String × String) :=
  if isIncomplete d.spec.targetItem then .error incompleteTarget
  else
    match d.spec.serverSideApply with
    | none => .error (.preCheck "spec.serverSideApply.kubeContent is empty")
    | some config =>
      let raw := config.kubeContent.getD ""
      if raw = "" then .error (.preCheck "spec.serverSideApply.kubeContent is empty")
      else
        match decodes raw with
        | .error err => .error (.preCheck ("decode kubeContent: " ++ err))
        | .ok _ =>
          let manager := config.fieldManager.getD ""
          .ok (raw, if manager = "" then "aro-hcp-kube-applier" else manager)

def applyDesired (decodes : String → Except String Unit) (k : DesireKey) (d : ApplyDesire) :
    Prog (Except SyncError KubeObject) := do
  match contentOf decodes d with
  | .error err => return .error err
  | .ok (raw, fieldManager) =>
    match ← perform (Call.applyObject k d.spec.targetItem raw fieldManager) with
    | .error err => return .error (.kube "server-side apply" err)
    | .ok applied => return .ok applied

inductive DeleteEvaluation where
  | settled (err : Option SyncError)
  | inFlight (deletionTime : Int) (uid : String)

def DeleteEvaluation.mutate (evaluation : DeleteEvaluation) (status : ApplyDesireStatus) :
    ApplyDesireStatus :=
  match evaluation with
  | settled err => { status with
      conditions := setDegraded (classifyAsDegraded err)
        (setSuccessfullyDeleted err status.conditions) }
  | inFlight deletionTime uid => { status with
      conditions := setDegraded none (setWaitingForDeletion deletionTime uid status.conditions) }

/-- What follows an accepted delete: the object is read once more for its deletion time. -/
def afterDelete (now : Int) (k : DesireKey) (target : ResourceReference) : Prog DeleteEvaluation := do
  match ← perform (Call.getObject k target) with
  | .ok post => return .inFlight (post.deletionTimestamp.getD now) post.uid
  | .error err =>
    if isNotFound err then return .settled none
    else return .settled (some (.kube "post-delete get" err))

def evaluateDelete (now : Int) (k : DesireKey) (d : ApplyDesire) : Prog DeleteEvaluation := do
  if isIncomplete d.spec.targetItem then return .settled (some incompleteTarget)
  else
    match ← perform (Call.getObject k d.spec.targetItem) with
    | .error err =>
      if isNotFound err then return .settled none
      else return .settled (some (.kube "get target" err))
    | .ok got =>
      match got.deletionTimestamp with
      | some deletionTime => return .inFlight deletionTime got.uid
      | none =>
        match ← perform (Call.deleteObject k d.spec.targetItem) with
        | some err =>
          if isNotFound err then return .settled none
          else return .settled (some (.kube "delete target" err))
        | none => afterDelete now k d.spec.targetItem

def appliedStatus (applied : Except SyncError KubeObject) (status : ApplyDesireStatus) :
    ApplyDesireStatus :=
  let err := match applied with
    | .error err => some err
    | .ok _ => none
  { conditions := setDegraded (classifyAsDegraded err) (setSuccessfullyApplied err status.conditions)
    appliedKubeGeneration := applied.toOption.map (·.generation) }

def unknownStatus (text : String) (status : ApplyDesireStatus) : ApplyDesireStatus :=
  { status with conditions := setDegraded none (setSuccessful
      (some (.preCheck ("unknown desire type " ++ GoFmt.quote text))) status.conditions) }

/-- `SyncOnce`, by the error it returns. A delete in flight is looked at again after a while. -/
def syncOnce (decodes : String → Except String Unit) (now : Int) (k : DesireKey) :
    Prog (Option String) := do
  match ← perform (Call.getApplyDesire k) with
  | .error err => return some err
  | .ok none => return none
  | .ok (some desire) =>
    match desire.doc.spec.type with
    | .serverSideApply =>
      let applied ← applyDesired decodes k desire.doc
      let statusErr ← updateStatus k (appliedStatus applied)
      match applied, statusErr with
      | .error err, some statusErr => return some s!"{err.text}\n{statusErr}"
      | .error err, none => if isRetryableApplyError (some err) then return some err.text else return none
      | .ok _, statusErr => return statusErr
    | .delete =>
      let evaluation ← evaluateDelete now k desire.doc
      updateStatus k evaluation.mutate
    | .unknown text => updateStatus k (unknownStatus text)

end AroHcp.KubeApplier
