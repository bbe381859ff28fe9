/-! Errors about a field of a request, as `k8s.io/apimachinery` reports them. -/

inductive FieldError where
  | invalid (field badValue detail : String)
  | forbidden (field detail : String)
  | internalError (field detail : String)
deriving DecidableEq, Repr
