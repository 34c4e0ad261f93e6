import LocalWebAccess.AgentOperationTable
import Mathlib.Logic.Function.Basic

/-!
# The parties of agent operations

Callers submit and cancel operations, worker threads of any number of processes claim and execute
them, heartbeat threads renew their leases and the recovery scan of each worker interrupts what it
finds stale. All of them share the table of `AgentOperationTable`.
-/
namespace LocalWebAccess.AgentOperations

abbrev ProcessId := ℕ
abbrev WorkerId := ℕ
abbrev BeatId := ℕ
abbrev CallId := ℕ

/-- What stays fixed: the identity of a process, the process of a worker thread, the scopes of a
principal, the configuration and the digest. -/
structure Host where
  identity : ProcessId → WorkerIdentity
  process : WorkerId → ProcessId
  workspaceId : String
  scopes : String → List String
  maxPendingOperations : ℕ
  leaseSeconds : ℕ
  sha256 : List Char → String

/-- `PlanRecord`, as far as operations read it. -/
structure PlanRecord where
  planId : String
  principalId : String
  workspaceId : String
  create : Bool
  targetInstanceId : Option String
  expectedRevision : Option ℕ
  policyVersion : String
  requestHash : String
  expiresAt : ℕ
  requiredCapabilities : List String
  deriving DecidableEq, Repr

/-- `capability_gaps_now`. -/
def capabilityGapsNow (required : List String) (dockerReady : Bool) : List String :=
  if "docker" ∈ required ∧ dockerReady = false then ["docker"] else []

/-- A text that is neither missing nor empty. -/
def truthy (value : Option String) : Option String := value.filter (· ≠ "")

/-! ## Callers -/

/-- What `_accept` is called with besides the request. -/
structure Acceptance where
  digest : List (String × Field)
  planId : Option String
  targetInstanceId : Option String
  deriving DecidableEq, Repr

/-- Where a call of `apply_deployment` or `submit_lifecycle` stands. -/
inductive SubmitPc where
  | requiring
  | replaying
  | loading
  | permitting (plan : PlanRecord)
  | capabilities (plan : PlanRecord)
  | revising
  | looking (acc : Acceptance)
  | counting (acc : Acceptance)
  | inserting (acc : Acceptance)
  | conflicted (acc : Acceptance)
  | inserted (id : String)
  | returned (accepted : OperationAccepted)
  | refused (error : AgentServiceError)
  | broken
  deriving DecidableEq, Repr

structure Submission where
  principalId : String
  request : Request
  idempotencyKey : String
  pc : SubmitPc
  deriving DecidableEq, Repr

def Submission.goto (c : Submission) (pc : SubmitPc) : Submission := { c with pc := pc }

/-- The columns of the UNIQUE constraint for a call. -/
def Submission.key (host : Host) (c : Submission) : String × String × String :=
  (c.principalId, host.workspaceId, c.idempotencyKey)

/-- Where a call of `cancel_operation` stands. -/
inductive CancelPc where
  | asking
  | withdrawing
  | requesting (row : OperationRow)
  | rereading (status : OperationStatus)
  | cancellingBuild
  | returned (status : OperationStatus)
  | refused (error : AgentServiceError)
  | broken
  deriving DecidableEq, Repr

structure Cancellation where
  principalId : String
  operationId : String
  pc : CancelPc
  deriving DecidableEq, Repr

/-! ## Workers -/

/-- What the import of a plan produced and leaves to do. -/
structure Imported where
  instanceId : String
  created : Bool
  needsRebuild : Bool
  needsRestart : Bool
  wasRunning : Bool
  warnings : List String
  deriving DecidableEq, Repr

/-- The calls of `_abort_if_cancelling` in `_run_deploy` and `_run_lifecycle`. -/
inductive Check where
  | validate (plan : PlanRecord)
  | import_ (plan : PlanRecord)
  | deploy (d : Imported)
  | rebuild (d : Imported)
  | restart (d : Imported)
  | healthcheck (d : Imported)
  | lifecycle
  | lifecycleEnd
  deriving DecidableEq, Repr

/-- The calls of `_advance`. -/
inductive Advance where
  | import_ (plan : PlanRecord)
  | create (d : Imported)
  | rebuild (d : Imported)
  | restart (d : Imported)
  | healthcheck (d : Imported)
  | lifecycle
  deriving DecidableEq, Repr

/-- The calls that change instances. -/
inductive Effect where
  | import_ (plan : PlanRecord)
  | create (d : Imported)
  | rebuild (d : Imported)
  | restart (d : Imported)
  | lifecycle
  deriving DecidableEq, Repr

/-- How `_run_deploy` and `_run_lifecycle` end an operation themselves. -/
inductive Ending where
  | stalePlan (message : String)
  | fallback (message : String)
  | deployed (result : OperationResult) (failed : Bool)
  | lifecycle (result : OperationResult)
  deriving DecidableEq, Repr

/-- The exceptions that reach `_execute`. -/
inductive Raised where
  | operationCancelled
  | agentService (e : AgentServiceError)
  | fallback (message : String)
  | lwa (e : LwaError)
  | other (message : String)
  deriving DecidableEq, Repr

/-- Where a worker stands in `_execute`. -/
inductive ExecPc where
  | loadPlan
  | validate (plan : PlanRecord)
  | check (c : Check)
  | fresh (plan : PlanRecord)
  | capabilities (plan : PlanRecord)
  | target (plan : PlanRecord)
  | manifest (plan : PlanRecord)
  | snapshot (plan : PlanRecord)
  | advance (m : Advance)
  | phaseSet (m : Advance)
  | effect (e : Effect)
  | link (d : Imported)
  | writeBack (d : Imported)
  | report (d : Imported)
  | revision
  | conclude
  | ending (f : Ending)
  | raised (e : Raised)
  | closing (died : Bool)
  | leaving (died : Bool)
  deriving DecidableEq, Repr

structure Execution where
  record : OperationRow
  beat : BeatId
  pc : ExecPc
  deriving DecidableEq, Repr

def Execution.goto (x : Execution) (pc : ExecPc) : Execution := { x with pc := pc }

/-- Where a worker thread stands in `run_forever`. -/
inductive WorkerPc where
  | recovering
  | listing (now : ℕ)
  | scanning (now : ℕ) (rows : List OperationRow)
  | interrupting (now : ℕ) (row : OperationRow) (rows : List OperationRow)
  | claiming
  | reading (id : String)
  | starting (record : OperationRow)
  | launching (record : OperationRow)
  | executing (x : Execution)
  | resting
  | sweeping (now : ℕ)
  | deleting (now : ℕ) (ids : List String)
  | expiring (now : ℕ)
  | forgetting (ids : List String)
  | ended
  deriving DecidableEq, Repr

/-- Where a heartbeat thread stands in its loop. -/
inductive BeatPc where
  | waiting
  | renewing
  | syncing
  | reading
  | asking
  | writing (token : String)
  | ended
  deriving DecidableEq, Repr

/-- `_LeaseHeartbeat`. -/
structure Beat where
  worker : WorkerId
  operationId : String
  phase : Option OperationPhase
  stopped : Bool
  pc : BeatPc
  deriving DecidableEq, Repr

inductive Life where
  | unborn | alive | dead
  deriving DecidableEq, Repr

/-- `issued` are the operation ids that have been drawn, `inflight` is `_INFLIGHT_OPS` of a process. -/
structure State where
  operations : Table
  plans : List PlanRecord
  revisions : String → Option ℕ
  issued : List String
  life : ProcessId → Life
  inflight : ProcessId → List String
  workers : WorkerId → WorkerPc
  beats : BeatId → Option Beat
  submissions : CallId → Option Submission
  cancellations : CallId → Option Cancellation

namespace State

def setWorker (s : State) (w : WorkerId) (pc : WorkerPc) : State :=
  { s with workers := Function.update s.workers w pc }

def setBeat (s : State) (h : BeatId) (b : Beat) : State := { s with beats := Function.update s.beats h (some b) }

def setSubmission (s : State) (u : CallId) (c : Submission) : State :=
  { s with submissions := Function.update s.submissions u (some c) }

def setCancellation (s : State) (u : CallId) (c : Cancellation) : State :=
  { s with cancellations := Function.update s.cancellations u (some c) }

def setOperations (s : State) (ops : Table) : State := { s with operations := ops }

def setInflight (s : State) (p : ProcessId) (ids : List String) : State :=
  { s with inflight := Function.update s.inflight p ids }

/-- Another step of the same execution. -/
def goto (s : State) (w : WorkerId) (x : Execution) (pc : ExecPc) : State := s.setWorker w (.executing (x.goto pc))

/-- `heartbeat.set_phase`. -/
def setPhase (s : State) (h : BeatId) (phase : OperationPhase) : State :=
  { s with beats := Function.update s.beats h ((s.beats h).map fun b => { b with phase := some phase }) }

/-- `heartbeat.phase`. -/
def phaseOf (s : State) (h : BeatId) : Option OperationPhase := (s.beats h).bind fun b => b.phase

/-- `load_plan`. -/
def plan (s : State) (id : String) : Option PlanRecord := s.plans.find? fun p => p.planId = id

def statusOf (s : State) (id : String) : Option OperationStatus :=
  (s.operations.getAgentOperation id).map fun r => r.status

end State

end LocalWebAccess.AgentOperations
