import LocalWebAccess.BuildTaskTable
import LocalWebAccess.GuardedRuns

/-!
# Build queues of several processes over one task row

The row of one instance is shared by any number of processes. Each process has
its own queue: a map from the instance to its latest task in memory, and a lock
`_guard` over that map. A run and a cancel are threads of their process; one
step of a thread makes at most one access to the row, together with what it
does to the process's memory under the lock. A thread that keeps the lock over
several accesses is recorded as its holder.
-/
namespace LocalWebAccess.BuildQueueMachine
open BuildTaskTable

abbrev CancelId := ℕ

/-- A task in memory. It is one object for each build generation, so tasks are
named by their tokens. -/
structure BuildTask where
  status : BuildStatus
  cancelRequestedAt : Option Time
  deriving DecidableEq, Repr

/-- The places where `run` calls `_cancel_pending`. -/
inductive Site where
  | queueFull | queueTimeout | slot | refusedBuilding | finish | refusedSuccess
  deriving DecidableEq, Repr

/-- Where a call of `run` stands. -/
inductive RunPc where
  | persistQueued
  | acquire
  | check (site : Site)
  | readAgain (site : Site)
  | pending (site : Site)
  | markQueued
  | persistRequeued
  | acquireWait
  | markTimeout
  | persistTimeout
  | persistBuilding
  | start
  | builder
  | persistSuccess
  | caughtCancelled
  | persistCancelled
  | caughtOther
  | ended
  deriving DecidableEq, Repr

inductive Outcome where
  | cancelled | alreadyDone | cancelFailed | noop | raised
  deriving DecidableEq, Repr

/-- Where a call of `cancel` stands. -/
inductive CancelPc where
  | called
  | markedQueued (k : BuildToken)
  | markedBuilding (k : BuildToken)
  | waiting
  | expire (k : BuildToken)
  | cancelFailing (k : BuildToken)
  | readRow
  | casQueued (k : BuildToken)
  | casCancelling (row : TaskRow)
  | casReclaimed (k : BuildToken)
  | polling
  | expirePolling
  | casFailed (k : BuildToken)
  | returned (outcome : Outcome)
  deriving DecidableEq, Repr

/-- The thread inside a section under `_guard`: a run, or a cancel that has
changed the task of a token. -/
inductive Holder where
  | run (k : BuildToken)
  | cancel (c : CancelId) (k : BuildToken)
  deriving DecidableEq, Repr

inductive Acquired where
  | slot | full | raises
  deriving DecidableEq, Repr

inductive Built where
  | returns | buildCancelled | raises
  deriving DecidableEq, Repr

/-- What the surroundings decide for one step: the clock, whether the statement on
the lock database raises, whether `add_event` raises, the result of `acquire`, of
the builder and of killing the worker, `_pid_alive`, and whether a wait is over. -/
structure Choice where
  now : Time
  fault : Bool
  eventFault : Bool
  acquired : Acquired
  built : Built
  signaled : Bool
  ownerAlive : Bool
  expired : Bool
  deriving DecidableEq, Repr

/-- What a run sees: the row, its own task in memory, and the lock of its process. -/
structure View where
  row : Option TaskRow
  task : BuildTask
  guard : Option Holder
  deriving DecidableEq, Repr

abbrev Cancelling (s : BuildStatus) : Prop := s = .cancelled ∨ s = .cancelling

/-- `is_cancel_requested` on the row it reads. -/
def IsCancelRequested (k : BuildToken) (row : TaskRow) : Prop :=
  row.buildToken = k ∧ (row.status = .cancelling ∨ row.status = .cancelled ∨
    row.cancelRequestedAt ≠ none)

instance (k : BuildToken) (row : TaskRow) : Decidable (IsCancelRequested k row) := by
  unfold IsCancelRequested; infer_instance

section run

variable (identity : Pid → String) (p : Pid) (k : BuildToken) (e : Choice)

/-- `_persist_task`: the row afterwards, and `none` where an exception was swallowed. -/
def persistTask (task : BuildTask) (status : BuildStatus) (replaceGeneration : Bool)
    (row : Option TaskRow) : Option TaskRow × Option Bool :=
  if e.fault then (row, none)
  else
    let written := upsertRow e.now
      { buildToken := k
        status := status
        ownerPid := p
        ownerIdentity := identity p
        workerPid := none
        workerPgid := none
        workerIdentity := none
        cancelRequestedAt := task.cancelRequestedAt
        replaceGeneration := replaceGeneration } row
    (written.1, some written.2)

/-- What follows a `_cancel_pending` that answers `False`. -/
def notRequested (v : View) : Site → RunPc × View
  | .queueFull => (.markQueued, v)
  | .queueTimeout => (.markTimeout, v)
  | .slot => (.persistBuilding, { v with task := { v.task with status := .building } })
  | .refusedBuilding => (.pending .refusedBuilding, { v with guard := some (.run k) })
  | .finish => (.persistSuccess, { v with task := { v.task with status := .success } })
  | .refusedSuccess => (.pending .refusedSuccess, { v with guard := some (.run k) })

/-- The second read of `_cancel_pending`, which copies the row's state into memory. -/
def copyRequest (row : Option TaskRow) : BuildTask where
  status := if row.map TaskRow.status = some .cancelling then .cancelling else .cancelled
  cancelRequestedAt := (row.bind TaskRow.cancelRequestedAt) <|> some e.now

/-- `_finish_task_local` with status `cancelled`. -/
def finishTaskLocal (v : View) : View where
  row := (persistTask identity p k e { v.task with status := .cancelled } .cancelled false v.row).1
  task := { v.task with status := .cancelled }
  guard := none

/-- The status that the handler of other exceptions settles on. -/
def settledStatus (s : BuildStatus) : BuildStatus := if Cancelling s then .cancelled else .failed

/-- One step of `run` after `_register_task`, where it can take one. -/
def runStep (v : View) : RunPc → Option (RunPc × View)
  | .persistQueued =>
    some (.acquire, { v with row := (persistTask identity p k e v.task .queued true v.row).1 })
  | .acquire =>
    match e.acquired with
    | .slot => some (.check .slot, v)
    | .full => some (.check .queueFull, v)
    | .raises => some (.caughtOther, v)
  | .check site =>
    if v.guard ≠ none then none
    else if Cancelling v.task.status then
      some (.pending site, { v with guard := some (.run k) })
    else if e.fault then some (.caughtOther, v)
    else
      match v.row with
      | none => some (notRequested k v site)
      | some row =>
        if IsCancelRequested k row then some (.readAgain site, { v with guard := some (.run k) })
        else some (notRequested k v site)
  | .readAgain site =>
    if e.fault then some (.caughtOther, { v with guard := none })
    else some (.pending site, { v with task := copyRequest e v.row })
  | .pending site =>
    -- only the site of the acquired slot records an event before it finishes the task
    if site = .slot ∧ e.eventFault then some (.caughtOther, { v with guard := none })
    else some (.caughtOther, finishTaskLocal identity p k e v)
  | .markQueued =>
    if v.guard ≠ none then none
    else if v.task.status = .cancelled then some (.acquireWait, v)
    else some (.persistRequeued, { v with task := { v.task with status := .queued } })
  | .persistRequeued =>
    some (.acquireWait, { v with row := (persistTask identity p k e v.task .queued false v.row).1 })
  | .acquireWait =>
    match e.acquired with
    | .slot => some (.check .slot, v)
    | .full => some (.check .queueTimeout, v)
    | .raises => some (.caughtOther, v)
  | .markTimeout =>
    -- `_mark_timeout` writes the task without the lock
    some (.persistTimeout, { v with task := { v.task with status := .failed } })
  | .persistTimeout =>
    some (.caughtOther, { v with row := (persistTask identity p k e v.task .failed false v.row).1 })
  | .persistBuilding =>
    let written := persistTask identity p k e v.task .building false v.row
    some (if written.2 = some true then .start else .check .refusedBuilding,
      { v with row := written.1 })
  | .start => if e.eventFault then some (.caughtOther, v) else some (.builder, v)
  | .builder =>
    match e.built with
    | .returns => some (.check .finish, v)
    | .buildCancelled => some (.caughtCancelled, v)
    | .raises => some (.caughtOther, v)
  | .persistSuccess =>
    let written := persistTask identity p k e v.task .success false v.row
    some (if written.2 = some true then .ended else .check .refusedSuccess,
      { v with row := written.1 })
  | .caughtCancelled =>
    if v.guard ≠ none then none
    else some (.persistCancelled, { v with task := { v.task with status := .cancelled } })
  | .persistCancelled =>
    some (.ended, { v with row := (persistTask identity p k e v.task .cancelled false v.row).1 })
  | .caughtOther =>
    if v.guard ≠ none then none
    else
      let task := { v.task with status := settledStatus v.task.status }
      some (.ended,
        { v with task := task, row := (persistTask identity p k e task task.status false v.row).1 })
  | .ended => none

end run

/-- What a cancel sees: the row, the task it is about, and the lock of its process. -/
structure CancelView where
  row : Option TaskRow
  task : Option BuildTask
  guard : Option Holder
  deriving DecidableEq, Repr

/-- The task a cancel is about, where `current` is the latest task of its process. -/
def CancelPc.subject (current : Option BuildToken) : CancelPc → Option BuildToken
  | .called => current
  | .waiting => current
  | .markedQueued k => some k
  | .markedBuilding k => some k
  | .expire k => some k
  | .cancelFailing k => some k
  | _ => none

section cancel

variable (identity : Pid → String) (dead : Pid → Bool) (p : Pid) (c : CancelId) (e : Choice)

/-- The columns of a cancel's `update_build_task`. -/
def requestArgs (k : BuildToken) (status : BuildStatus) (at' : Option Time) : UpdateArgs where
  buildToken := k
  status := some status
  workerPid := none
  workerPgid := none
  workerIdentity := none
  cancelRequestedAt := at'
  clearWorker := false

/-- The outcome for a status that is already final. -/
def finalOutcome : BuildStatus → Option Outcome
  | .cancelled => some .cancelled
  | .success => some .alreadyDone
  | .failed => some .alreadyDone
  | .cancelFailed => some .cancelFailed
  | _ => none

/-- The first section of `cancel`, on the latest task of the process. -/
def cancelCalled (v : CancelView) : Option BuildToken → Option BuildTask → CancelPc × CancelView
  | some k, some task =>
    match finalOutcome task.status with
    | some outcome => (.returned outcome, v)
    | none =>
      let requested (status : BuildStatus) : CancelView :=
        { v with task := some ⟨status, some e.now⟩, guard := some (.cancel c k) }
      if task.status = .queued then (.markedQueued k, requested .cancelled)
      else if task.status = .building then (.markedBuilding k, requested .cancelling)
      else (.waiting, v)
  | _, _ => (.readRow, v)

/-- What a cancel without a task in memory makes of the row it reads. -/
def cancelRead : Option TaskRow → CancelPc
  | none => .returned (if e.eventFault then .raised else .noop)
  | some row =>
    match finalOutcome row.status with
    | some outcome => .returned outcome
    | none => if row.status = .queued then .casQueued row.buildToken else .casCancelling row

/-- `_wait_persisted_cancel` on the row it reads, before its deadline. -/
def cancelPolled : Option TaskRow → CancelPc
  | none => .returned .cancelled
  | some row =>
    match finalOutcome row.status with
    | some outcome => .returned outcome
    | none => .polling

/-- One step of `cancel`, where it can take one. -/
def cancelStep (subject : Option BuildToken) (v : CancelView) :
    CancelPc → Option (CancelPc × CancelView)
  | .called => if v.guard ≠ none then none else some (cancelCalled c e v subject v.task)
  | .markedQueued k =>
    let persisted := v.task.map (fun task => (persistTask identity p k e task .cancelled false v.row).1)
    some (.returned (if e.eventFault then .raised else .cancelled),
      { v with row := persisted.getD v.row, guard := none })
  | .markedBuilding k =>
    let persisted := v.task.map (fun task => (persistTask identity p k e task .cancelling false v.row).1)
    some (if e.eventFault then .returned .raised else .waiting,
      { v with row := persisted.getD v.row, guard := none })
  | .waiting =>
    -- the worker recorded in the row is killed before the wait, which takes any time
    if v.guard ≠ none then none
    else if e.fault then some (.returned .raised, v)
    else
      match subject, v.task with
      | some k, some task =>
        if task.status = .cancelled then some (.returned .cancelled, v)
        else if task.status = .success ∨ task.status = .failed then some (.returned .alreadyDone, v)
        else some (.expire k, v)
      | _, _ => some (.returned (if e.eventFault then .raised else .cancelFailed), v)
  | .expire k =>
    if v.guard ≠ none then none
    else
      some (.cancelFailing k,
        { v with task := v.task.map (fun task =>
          if task.status = .cancelling then { task with status := .cancelFailed } else task) })
  | .cancelFailing k =>
    if e.fault then some (.returned .raised, v)
    else some (.returned (if e.eventFault then .raised else .cancelFailed),
      { v with row := (updateRow e.now (requestArgs k .cancelFailed none) v.row).1 })
  | .readRow => if e.fault then some (.returned .raised, v) else some (cancelRead e v.row, v)
  | .casQueued k =>
    if e.fault then some (.returned .raised, v)
    else some (.returned (if e.eventFault then .raised else .cancelled),
      { v with row := (updateRow e.now (requestArgs k .cancelled (some e.now)) v.row).1 })
  | .casCancelling row =>
    if e.fault then some (.returned .raised, v)
    else if e.ownerAlive = false ∧ dead row.ownerPid = false then none
    else some (if e.signaled = false ∧ e.ownerAlive = false then .casReclaimed row.buildToken
        else .polling,
      { v with row := (updateRow e.now (requestArgs row.buildToken .cancelling (some e.now)) v.row).1 })
  | .casReclaimed k =>
    if e.fault then some (.returned .raised, v)
    else some (.returned .cancelled,
      { v with row := (updateRow e.now (requestArgs k .cancelled none) v.row).1 })
  | .polling =>
    if e.expired then some (.expirePolling, v)
    else if e.fault then some (.returned .raised, v)
    else some (cancelPolled v.row, v)
  | .expirePolling =>
    if e.fault then some (.returned .raised, v)
    else
      match v.row with
      | none => some (.returned .cancelFailed, v)
      | some row => some (.casFailed row.buildToken, v)
  | .casFailed k =>
    if e.fault then some (.returned .raised, v)
    else some (.returned .cancelFailed,
      { v with row := (updateRow e.now (requestArgs k .cancelFailed none) v.row).1 })
  | .returned _ => none

end cancel

/-- `identity` is what `owner_process_identity` returns in each process, `tasks` the
latest task of each process, `mem` the tasks in memory. -/
structure State where
  identity : Pid → String
  row : Option TaskRow
  dead : Pid → Bool
  tasks : Pid → Option BuildToken
  mem : BuildToken → BuildTask
  guard : Pid → Option Holder
  runs : BuildToken → Option (Pid × RunPc)
  cancels : CancelId → Option (Pid × CancelPc)

inductive Action where
  | register (p : Pid) (k : BuildToken)
  | runStep (k : BuildToken) (e : Choice)
  | cancelCall (p : Pid) (c : CancelId)
  | cancelStep (c : CancelId) (e : Choice)
  | recordWorker (k : BuildToken) (now : Time) (pid pgid : Option Pid) (workerIdentity : Option String)
      (clearWorker : Bool)
  | reclaim (now : Time) (alive : Bool)
  | die (p : Pid)
  deriving DecidableEq, Repr

namespace State

def initial (identity : Pid → String) : State where
  identity := identity
  row := none
  dead := fun _ => false
  tasks := fun _ => none
  mem := fun _ => ⟨.queued, none⟩
  guard := fun _ => none
  runs := fun _ => none
  cancels := fun _ => none

def view (s : State) (p : Pid) (k : BuildToken) : View := ⟨s.row, s.mem k, s.guard p⟩

def afterRun (s : State) (p : Pid) (k : BuildToken) (r : RunPc × View) : State :=
  { s with
    row := r.2.row
    mem := Function.update s.mem k r.2.task
    guard := Function.update s.guard p r.2.guard
    runs := Function.update s.runs k (some (p, r.1)) }

def cancelView (s : State) (p : Pid) (subject : Option BuildToken) : CancelView :=
  ⟨s.row, subject.map s.mem, s.guard p⟩

/-- The tasks in memory with the one of `subject` set. -/
def setTask (mem : BuildToken → BuildTask) :
    Option BuildToken → Option BuildTask → BuildToken → BuildTask
  | some k, some task => Function.update mem k task
  | _, _ => mem

def afterCancel (s : State) (p : Pid) (c : CancelId) (subject : Option BuildToken)
    (r : CancelPc × CancelView) : State :=
  { s with
    row := r.2.row
    mem := setTask s.mem subject r.2.task
    guard := Function.update s.guard p r.2.guard
    cancels := Function.update s.cancels c (some (p, r.1)) }

def registerTask (s : State) (p : Pid) (k : BuildToken) : State :=
  { s with
    tasks := Function.update s.tasks p (some k)
    mem := Function.update s.mem k ⟨.queued, none⟩
    runs := Function.update s.runs k (some (p, .persistQueued)) }

end State

/-- One action. A token is registered once, as each call of `run` draws a fresh
uuid4; `_pid_alive` denies no live process; the threads of a dead process are gone. -/
def step (s : State) : Action → Option State
  | .register p k =>
    if s.dead p = false ∧ s.guard p = none ∧ s.runs k = none then some (s.registerTask p k)
    else none
  | .runStep k e =>
    match s.runs k with
    | none => none
    | some (p, pc) =>
      if s.dead p then none
      else (runStep s.identity p k e (s.view p k) pc).map (s.afterRun p k)
  | .cancelCall p c =>
    if s.dead p = false ∧ s.cancels c = none then
      some { s with cancels := Function.update s.cancels c (some (p, .called)) }
    else none
  | .cancelStep c e =>
    match s.cancels c with
    | none => none
    | some (p, pc) =>
      if s.dead p then none
      else
        let subject := pc.subject (s.tasks p)
        (cancelStep s.identity s.dead p c e subject (s.cancelView p subject) pc).map
          (s.afterCancel p c subject)
  | .recordWorker k now pid pgid workerIdentity clearWorker =>
    match s.runs k with
    | some (p, .builder) =>
      if s.dead p then none
      else some { s with row := (updateRow now
        { buildToken := k, status := none, workerPid := pid, workerPgid := pgid
          workerIdentity := workerIdentity, cancelRequestedAt := none
          clearWorker := clearWorker } s.row).1 }
    | _ => none
  | .reclaim now alive =>
    match s.row with
    | none => some s
    | some row =>
      if alive = false ∧ s.dead row.ownerPid = false then none
      else some { s with row := some (reclaimRow now alive row) }
  | .die p => some { s with dead := Function.update s.dead p true }

end LocalWebAccess.BuildQueueMachine
