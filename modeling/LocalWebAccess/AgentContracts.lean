import LocalWebAccess.CanonicalJson
import LocalWebAccess.PythonText

/-!
# The contracts of the agent channel

Statuses, phases and actions of an operation, the error model, the requests that create
operations and the digest that stands for a request. The digest is SHA-256 of the canonical text,
here a parameter.
-/
namespace LocalWebAccess.AgentOperations

/-- `OperationStatus`. -/
inductive OperationStatus where
  | queued | running | cancelling | cancelFailed | succeeded | failed | needsInput | interrupted | cancelled
  deriving DecidableEq, Repr

/-- `OPERATION_TRANSITIONS`. -/
def operationTransitions : OperationStatus → List OperationStatus
  | .queued => [.running, .cancelled]
  | .running => [.succeeded, .failed, .needsInput, .interrupted, .cancelling]
  | .cancelling => [.cancelled, .cancelFailed]
  | .needsInput => [.cancelled]
  | .succeeded | .failed | .interrupted | .cancelled | .cancelFailed => []

/-- `TERMINAL_OPERATION_STATUSES`. -/
def terminalOperationStatuses : List OperationStatus :=
  [.succeeded, .failed, .cancelled, .cancelFailed, .needsInput, .interrupted]

def OperationStatus.terminal (x : OperationStatus) : Bool := decide (x ∈ terminalOperationStatuses)

/-- `_ACTIVE_STATUSES`. -/
def activeStatuses : List OperationStatus := [.queued, .running, .cancelling]

theorem OperationStatus.terminal_iff (x : OperationStatus) : x.terminal = true ↔ x ∉ activeStatuses := by
  cases x <;> decide

/-- `OperationPhase`. -/
inductive OperationPhase where
  | validate | import_ | build | start | healthcheck
  deriving DecidableEq, Repr

/-- `OperationAction`. -/
inductive OperationAction where
  | deploy | start | stop | restart | rebuild
  deriving DecidableEq, Repr

def OperationAction.value : OperationAction → String
  | .deploy => "deploy"
  | .start => "start"
  | .stop => "stop"
  | .restart => "restart"
  | .rebuild => "rebuild"

theorem OperationAction.value_injective {a b : OperationAction} (same : a.value = b.value) : a = b := by
  cases a <;> cases b <;> first | rfl | (exact absurd same (by decide))

/-! ## Errors -/

/-- `AgentErrorCode`. -/
inductive AgentErrorCode where
  | unauthenticated | permissionDenied | revisionConflict | idempotencyConflict | sourceNotAllowed
  | quotaExceeded | capabilityUnavailable | needsInput | managerUnavailable | busy | buildFailed
  | healthcheckFailed | interrupted
  deriving DecidableEq, Repr

def AgentErrorCode.value : AgentErrorCode → String
  | .unauthenticated => "unauthenticated"
  | .permissionDenied => "permission_denied"
  | .revisionConflict => "revision_conflict"
  | .idempotencyConflict => "idempotency_conflict"
  | .sourceNotAllowed => "source_not_allowed"
  | .quotaExceeded => "quota_exceeded"
  | .capabilityUnavailable => "capability_unavailable"
  | .needsInput => "needs_input"
  | .managerUnavailable => "manager_unavailable"
  | .busy => "busy"
  | .buildFailed => "build_failed"
  | .healthcheckFailed => "healthcheck_failed"
  | .interrupted => "interrupted"

/-- The codes in the order of the enumeration. -/
def agentErrorCodes : List AgentErrorCode :=
  [.unauthenticated, .permissionDenied, .revisionConflict, .idempotencyConflict, .sourceNotAllowed,
    .quotaExceeded, .capabilityUnavailable, .needsInput, .managerUnavailable, .busy, .buildFailed,
    .healthcheckFailed, .interrupted]

/-- `AgentErrorCode(text)`, `none` where it raises. -/
def AgentErrorCode.ofText (text : String) : Option AgentErrorCode :=
  agentErrorCodes.find? fun code => code.value = text

/-- Named values of an error, each by its text. -/
abbrev Context := List (String × String)

/-- `AgentError` as an operation stores it. -/
structure AgentError where
  code : AgentErrorCode
  message : String
  detail : Option Context
  retryable : Bool
  operationId : Option String
  nextActions : List String
  deriving DecidableEq, Repr

/-- `_error_payload`. -/
def errorPayload (code : AgentErrorCode) (message operationId : String) (detail : Option Context)
    (nextActions : List String) : AgentError where
  code := code
  message := message
  detail := detail
  retryable := decide (code ∈ [AgentErrorCode.quotaExceeded, .managerUnavailable, .busy])
  operationId := some operationId
  nextActions := nextActions

/-- `AgentServiceError`; its code is a text. -/
structure AgentServiceError where
  code : String
  message : String
  context : Context
  deriving DecidableEq, Repr

def serviceError (code : AgentErrorCode) (message : String) (context : Context) : AgentServiceError :=
  ⟨code.value, message, context⟩

/-- The subclasses of `LwaError` that a worker tells apart. -/
inductive LwaErrorKind where
  | build | docker | zipImport | lifecycle | hosting | recognition | gitSource | other
  deriving DecidableEq, Repr

structure LwaError where
  kind : LwaErrorKind
  code : String
  message : String
  deriving DecidableEq, Repr

/-- `LwaError.__str__`. -/
def LwaError.text (e : LwaError) : String :=
  if e.message = "" then "[" ++ e.code ++ "]" else "[" ++ e.code ++ "] " ++ e.message

/-- `agent_exc_message` of an `LwaError` given by its code and message. -/
def agentExcMessage (code message : String) : String :=
  if message = "" then "[" ++ code ++ "]" else message

/-! ## Requests -/

/-- `ApplyDeploymentInput`, or `LifecycleInput` with its action. -/
inductive Request where
  | apply (planId : String)
  | lifecycle (action : OperationAction) (instanceId : String) (expectedRevision : ℕ)
  deriving DecidableEq, Repr

def Request.action : Request → OperationAction
  | .apply _ => .deploy
  | .lifecycle action _ _ => action

/-- The `payload` of an operation, which holds the immutable fields of its request. -/
abbrev Payload := Request

/-- What a field of a digest holds. -/
inductive Field where
  | str (value : String)
  | int (value : ℕ)
  | null
  deriving DecidableEq, Repr

def Field.ofOption : Option String → Field
  | none => .null
  | some value => .str value

def Field.text : Field → List Char
  | .str value => CanonicalJson.quote value.toList
  | .int value => Nat.toDigits 10 value
  | .null => "null".toList

/-- `canonical_json` of an object after its first fields: the separators have no blanks. -/
def fieldsText : List (String × Field) → List Char
  | [] => ['}']
  | (key, value) :: fields => ',' :: (CanonicalJson.quote key.toList ++ ':' :: (value.text ++ fieldsText fields))

/-- `canonical_json` of an object with the given fields, which stand in the order of their keys. -/
def canonicalJson : List (String × Field) → List Char
  | [] => ['{', '}']
  | (key, value) :: fields => '{' :: (CanonicalJson.quote key.toList ++ ':' :: (value.text ++ fieldsText fields))

/-- `request_hash`. -/
def requestHash (sha256 : List Char → String) (payload : List (String × Field)) : String :=
  sha256 (canonicalJson payload)

/-- `OperationAccepted`. -/
structure OperationAccepted where
  operationId : String
  status : OperationStatus
  instanceId : Option String
  deriving DecidableEq, Repr

end LocalWebAccess.AgentOperations
