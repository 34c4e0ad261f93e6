import LocalWebAccess.AgentWorkers

/-!
# The steps of each party, one by one

The step functions read backwards: which branch a step has taken, where the party stood before it and
the state it leads to. Proofs about steps go by cases on these and do not unfold the functions.
-/
namespace LocalWebAccess.AgentOperations

variable {host : Host} {s t : State}

/-- The steps of a worker thread. -/
inductive WorkerMove (host : Host) (s : State) (w : WorkerId) : WorkerAction → State → Prop where
  | validated {x : Execution} {plan : PlanRecord} (now : ℕ) (at_ : s.workers w = .executing x)
      (pc : x.pc = .validate plan) :
      WorkerMove host s w (.proceed now) ((s.setPhase x.beat .validate).goto w x (.check (.validate plan)))
  | advanced {x : Execution} {m : Advance} (now : ℕ) (at_ : s.workers w = .executing x) (pc : x.pc = .advance m) :
      WorkerMove host s w (.proceed now)
        ((s.setOperations (s.operations.updateAgentOperation x.record.operationId now
          ⟨some (m.phase x.record.action), none, none⟩)).goto w x (.phaseSet m))
  | phased {x : Execution} {m : Advance} (now : ℕ) (at_ : s.workers w = .executing x) (pc : x.pc = .phaseSet m) :
      WorkerMove host s w (.proceed now) ((s.setPhase x.beat (m.phase x.record.action)).goto w x m.next)
  | linked {x : Execution} {d : Imported} (now : ℕ) (at_ : s.workers w = .executing x) (pc : x.pc = .link d) :
      WorkerMove host s w (.proceed now)
        ((s.setOperations (s.operations.updateAgentOperation x.record.operationId now
          ⟨none, some d.instanceId, none⟩)).goto w x (.writeBack d))
  | finished {x : Execution} {f : Ending} (now : ℕ) (at_ : s.workers w = .executing x) (pc : x.pc = .ending f) :
      WorkerMove host s w (.proceed now)
        ((s.setOperations (s.operations.casAgentOperationStatus x.record.operationId [.running, .cancelling] now
          (f.settlement x.record.operationId))).goto w x (.closing false))
  | caught {x : Execution} {e : Raised} (now : ℕ) (at_ : s.workers w = .executing x) (pc : x.pc = .raised e) :
      WorkerMove host s w (.proceed now)
        ((s.setOperations (s.operations.casAgentOperationStatus x.record.operationId [.running, .cancelling] now
          (e.settlement x.record.operationId (s.phaseOf x.beat)))).goto w x (.closing false))
  | closed {x : Execution} {died : Bool} (now : ℕ) (at_ : s.workers w = .executing x) (pc : x.pc = .closing died) :
      WorkerMove host s w (.proceed now) ((stopBeat s x.beat).goto w x (.leaving died))
  | left {x : Execution} {died : Bool} (now : ℕ) (at_ : s.workers w = .executing x) (pc : x.pc = .leaving died) :
      WorkerMove host s w (.proceed now)
        ((s.setInflight (host.process w) ((s.inflight (host.process w)).filter (· ≠ x.record.operationId))).setWorker w
          (if died then .ended else .recovering))
  | went {x : Execution} {act : WorkerAction} {pc : ExecPc} (at_ : s.workers w = .executing x)
      (next : execNext s x act = some pc) : WorkerMove host s w act (s.goto w x pc)
  | recovering (now : ℕ) (at_ : s.workers w = .recovering) :
      WorkerMove host s w (.proceed now) (s.setWorker w (.listing now))
  | listed {now : ℕ} (later : ℕ) (at_ : s.workers w = .listing now) :
      WorkerMove host s w (.proceed later)
        (s.setWorker w (.scanning now (s.operations.listAgentOperations [.running, .cancelling] 200)))
  | scanned {now : ℕ} (later : ℕ) (at_ : s.workers w = .scanning now []) :
      WorkerMove host s w (.proceed later) (s.setWorker w .claiming)
  | condemned {now : ℕ} {row : OperationRow} {rows : List OperationRow} (pidAlive : Bool)
      (at_ : s.workers w = .scanning now (row :: rows)) (idle : row.operationId ∉ s.inflight (host.process w))
      (lost : stale row now pidAlive = true) :
      WorkerMove host s w (.judge pidAlive) (s.setWorker w (.interrupting now row rows))
  | spared {now : ℕ} {row : OperationRow} {rows : List OperationRow} (pidAlive : Bool)
      (at_ : s.workers w = .scanning now (row :: rows)) :
      WorkerMove host s w (.judge pidAlive) (s.setWorker w (.scanning now rows))
  | interrupted {now : ℕ} {row : OperationRow} {rows : List OperationRow} (later : ℕ)
      (at_ : s.workers w = .interrupting now row rows) :
      WorkerMove host s w (.proceed later)
        ((s.setOperations (s.operations.casAgentOperationStatus row.operationId [.running, .cancelling] now
          (interruption row.operationId))).setWorker w (.scanning now rows))
  | idled (now : ℕ) (at_ : s.workers w = .claiming) : WorkerMove host s w (.proceed now) (s.setWorker w .resting)
  | claimed {id : String} {ops : Table} (now : ℕ) (at_ : s.workers w = .claiming)
      (found : s.operations.claimNextAgentOperation (host.identity (host.process w)) now (now + host.leaseSeconds) =
        some (id, ops)) :
      WorkerMove host s w (.proceed now) ((s.setOperations ops).setWorker w (.reading id))
  | lost {id : String} (now : ℕ) (at_ : s.workers w = .reading id) :
      WorkerMove host s w (.proceed now) (s.setWorker w .resting)
  | read {id : String} {record : OperationRow} (now : ℕ) (at_ : s.workers w = .reading id)
      (found : s.operations.getAgentOperation id = some record) :
      WorkerMove host s w (.proceed now) (s.setWorker w (.starting record))
  | started {record : OperationRow} (now : ℕ) (at_ : s.workers w = .starting record) :
      WorkerMove host s w (.proceed now)
        ((s.setInflight (host.process w) (record.operationId :: s.inflight (host.process w))).setWorker w
          (.launching record))
  | launched {record : OperationRow} (h : BeatId) (at_ : s.workers w = .launching record) (fresh : s.beats h = none) :
      WorkerMove host s w (.begin_ h)
        ((s.setBeat h ⟨w, record.operationId, none, false, .waiting⟩).setWorker w
          (.executing ⟨record, h, if record.action = .deploy then .loadPlan else .revision⟩))
  | rested (now : ℕ) (at_ : s.workers w = .resting) : WorkerMove host s w (.proceed now) (s.setWorker w .recovering)
  | swept (now : ℕ) (at_ : s.workers w = .resting) : WorkerMove host s w (.sweep now) (s.setWorker w (.sweeping now))
  | selected {now : ℕ} (later : ℕ) (at_ : s.workers w = .sweeping now) :
      WorkerMove host s w (.proceed later)
        (s.setWorker w (.deleting now (s.operations.terminalBefore (now - operationRetentionSeconds) 200)))
  | deleted {now : ℕ} {ids : List String} (later : ℕ) (at_ : s.workers w = .deleting now ids) :
      WorkerMove host s w (.proceed later) ((s.setOperations (s.operations.remove ids)).setWorker w (.expiring now))
  | expired {now : ℕ} (later : ℕ) (at_ : s.workers w = .expiring now) :
      WorkerMove host s w (.proceed later) (s.setWorker w (.forgetting (expiredPlans s now)))
  | forgot {ids : List String} (now : ℕ) (at_ : s.workers w = .forgetting ids) :
      WorkerMove host s w (.proceed now)
        ({ s with plans := s.plans.filter fun p => p.planId ∉ ids }.setWorker w .recovering)
  | unscanned (e : Raised) : WorkerMove host s w (.fail e) (s.setWorker w .claiming)
  | unclaimed (e : Raised) : WorkerMove host s w (.fail e) (s.setWorker w .resting)
  | unswept (e : Raised) : WorkerMove host s w (.fail e) (s.setWorker w .recovering)

theorem workerMove_of_step {w : WorkerId} {act : WorkerAction} (taken : workerStep host s w act = some t) :
    s.life (host.process w) = .alive ∧ WorkerMove host s w act t := by
  unfold workerStep at taken
  split at taken
  · cases taken
  case isFalse alive =>
    refine ⟨not_not.mp alive, ?_⟩
    split at taken
    case h_1 x at_ =>
      unfold execStep at taken
      split at taken
      case h_1 pc => cases taken; exact .validated _ at_ pc
      case h_2 pc => cases taken; exact .advanced _ at_ pc
      case h_3 pc => cases taken; exact .phased _ at_ pc
      case h_4 pc => cases taken; exact .linked _ at_ pc
      case h_5 pc => cases taken; exact .finished _ at_ pc
      case h_6 pc => cases taken; exact .caught _ at_ pc
      case h_7 pc => cases taken; exact .closed _ at_ pc
      case h_8 pc => cases taken; exact .left _ at_ pc
      case h_9 =>
        obtain ⟨pc, next, rfl⟩ := Option.map_eq_some_iff.mp taken
        exact .went at_ next
    case h_2 =>
      unfold loopStep at taken
      split at taken
      case h_1 at_ => cases taken; exact .recovering _ at_
      case h_2 at_ => cases taken; exact .listed _ at_
      case h_3 at_ => cases taken; exact .scanned _ at_
      case h_4 at_ =>
        split at taken
        case isTrue judged => cases taken; exact .condemned _ at_ judged.1 judged.2
        case isFalse => cases taken; exact .spared _ at_
      case h_5 at_ => cases taken; exact .interrupted _ at_
      case h_6 at_ =>
        split at taken
        case h_1 => cases taken; exact .idled _ at_
        case h_2 found => cases taken; exact .claimed _ at_ found
      case h_7 at_ =>
        split at taken
        case h_1 => cases taken; exact .lost _ at_
        case h_2 found => cases taken; exact .read _ at_ found
      case h_8 at_ => cases taken; exact .started _ at_
      case h_9 at_ =>
        split at taken
        case isTrue => cases taken
        case isFalse fresh => cases taken; exact .launched _ at_ (by simpa using fresh)
      case h_10 at_ => cases taken; exact .rested _ at_
      case h_11 at_ => cases taken; exact .swept _ at_
      case h_12 at_ => cases taken; exact .selected _ at_
      case h_13 at_ => cases taken; exact .deleted _ at_
      case h_14 at_ => cases taken; exact .expired _ at_
      case h_15 at_ => cases taken; exact .forgot _ at_
      case h_25 => cases taken
      all_goals cases taken; first | exact .unscanned _ | exact .unclaimed _ | exact .unswept _

/-- The steps of a heartbeat; `b` is the heartbeat before it. -/
inductive BeatMove (host : Host) (s : State) (h : BeatId) (b : Beat) : BeatAction → State → Prop where
  | woken (now : ℕ) (at_ : b.pc = .waiting) :
      BeatMove host s h b (.proceed now) (s.setBeat h { b with pc := if b.stopped then .ended else .renewing })
  | renewed (now : ℕ) (at_ : b.pc = .renewing) :
      BeatMove host s h b (.proceed now)
        ((s.setOperations (s.operations.renewAgentOperationLease b.operationId
          (host.identity (host.process b.worker)) now (now + host.leaseSeconds))).setBeat h { b with pc := .syncing })
  | synced (now : ℕ) (at_ : b.pc = .syncing) :
      BeatMove host s h b (.proceed now)
        (s.setBeat h { b with pc := if b.phase = some .build then .reading else .waiting })
  | missed (now : ℕ) (at_ : b.pc = .reading) (absent : s.operations.getAgentOperation b.operationId = none) :
      BeatMove host s h b (.proceed now) (s.setBeat h { b with pc := .waiting })
  | read {row : OperationRow} (now : ℕ) (at_ : b.pc = .reading)
      (found : s.operations.getAgentOperation b.operationId = some row) :
      BeatMove host s h b (.proceed now)
        (s.setBeat h { b with
          pc := if truthy row.buildToken ≠ none ∨ truthy row.targetInstanceId = none then .waiting else .asking })
  | answered (value : Option String) (pc : BeatPc) (at_ : b.pc = .asking) :
      BeatMove host s h b (.token value) (s.setBeat h { b with pc := pc })
  | wrote {token : String} (now : ℕ) (at_ : b.pc = .writing token) :
      BeatMove host s h b (.proceed now)
        ((s.setOperations (s.operations.updateAgentOperation b.operationId now
          ⟨none, none, some token⟩)).setBeat h { b with pc := .waiting })
  | failed (waits : b.pc ≠ .waiting) (ended : b.pc ≠ .ended) :
      BeatMove host s h b .fail (s.setBeat h { b with pc := .waiting })

theorem beatMove_of_step {h : BeatId} {act : BeatAction} (taken : beatStep host s h act = some t) :
    ∃ b, s.beats h = some b ∧ s.life (host.process b.worker) = .alive ∧ BeatMove host s h b act t := by
  unfold beatStep at taken
  split at taken
  · cases taken
  case h_2 b place =>
    split at taken
    · cases taken
    case isFalse alive =>
      refine ⟨b, place, not_not.mp alive, ?_⟩
      split at taken
      case h_1 at_ => cases taken; exact .woken _ at_
      case h_2 at_ => cases taken; exact .renewed _ at_
      case h_3 at_ => cases taken; exact .synced _ at_
      case h_4 at_ =>
        split at taken
        case h_1 absent => cases taken; exact .missed _ at_ absent
        case h_2 found => cases taken; exact .read _ at_ found
      case h_5 at_ => split at taken <;> (cases taken; exact .answered _ _ at_)
      case h_6 at_ => cases taken; exact .wrote _ at_
      case h_9 waits ended => cases taken; exact .failed waits ended
      all_goals cases taken

/-- Where a call of `apply_deployment` or `submit_lifecycle` begins. -/
def Request.first : Request → SubmitPc
  | .apply _ => .replaying
  | .lifecycle _ _ _ => .requiring

/-- The steps of a submission. -/
inductive SubmitMove (host : Host) (s : State) (u : CallId) : SubmitAction → State → Prop where
  | called (principalId : String) (request : Request) (idempotencyKey : String) (fresh : s.submissions u = none) :
      SubmitMove host s u (.call principalId request idempotencyKey)
        (s.setSubmission u ⟨principalId, request, idempotencyKey, request.first⟩)
  | went {c : Submission} {pc : SubmitPc} (now : ℕ) (at_ : s.submissions u = some c)
      (next : submitNext host s c now = some pc) :
      SubmitMove host s u (.proceed now) (s.setSubmission u (c.goto pc))
  | incapable {c : Submission} {plan : PlanRecord} (dockerReady : Bool) (error : AgentServiceError)
      (at_ : s.submissions u = some c) (pc : c.pc = .capabilities plan) :
      SubmitMove host s u (.capabilities dockerReady) (s.setSubmission u (c.goto (.refused error)))
  | capable {c : Submission} {plan : PlanRecord} (dockerReady : Bool) (at_ : s.submissions u = some c)
      (pc : c.pc = .capabilities plan) :
      SubmitMove host s u (.capabilities dockerReady) (s.setSubmission u (c.goto (.looking (planAcceptance plan))))
  | inserted {c : Submission} {acc : Acceptance} {id : String} {ops : Table} (now : ℕ) (at_ : s.submissions u = some c)
      (pc : c.pc = .inserting acc) (fresh : id ∉ s.issued)
      (stored : s.operations.insert (newRow host c acc id now) = some ops) :
      SubmitMove host s u (.insert id now)
        ({ s with operations := ops, issued := id :: s.issued }.setSubmission u (c.goto (.inserted id)))
  | conflicted {c : Submission} {acc : Acceptance} {id : String} (now : ℕ) (at_ : s.submissions u = some c)
      (pc : c.pc = .inserting acc) (fresh : id ∉ s.issued)
      (held : s.operations.insert (newRow host c acc id now) = none) :
      SubmitMove host s u (.insert id now)
        ({ s with issued := id :: s.issued }.setSubmission u (c.goto (.conflicted acc)))
  | unstored {c : Submission} {acc : Acceptance} (at_ : s.submissions u = some c) (pc : c.pc = .inserting acc) :
      SubmitMove host s u .fail (s.setSubmission u (c.goto (.conflicted acc)))
  | failed {c : Submission} (at_ : s.submissions u = some c) (running : c.pc.open_ = true) :
      SubmitMove host s u .fail (s.setSubmission u (c.goto .broken))

theorem submitMove_of_step {u : CallId} {act : SubmitAction} (taken : submitStep host s u act = some t) :
    SubmitMove host s u act t := by
  unfold submitStep at taken
  split at taken
  case h_1 principalId request key fresh =>
    cases taken
    cases request with
    | apply | lifecycle => exact .called _ _ _ fresh
  case h_2 at_ =>
    obtain ⟨pc, next, rfl⟩ := Option.map_eq_some_iff.mp taken
    exact .went _ at_ next
  case h_3 at_ =>
    split at taken
    case h_1 pc =>
      dsimp only at taken
      split at taken
      case isTrue => cases taken; exact .incapable _ _ at_ pc
      case isFalse => cases taken; exact .capable _ at_ pc
    case h_2 => cases taken
  case h_4 at_ =>
    split at taken
    case h_1 pc =>
      split at taken
      case isTrue => cases taken
      case isFalse fresh =>
        split at taken
        case h_1 stored => cases taken; exact .inserted _ at_ pc fresh stored
        case h_2 held => cases taken; exact .conflicted _ at_ pc fresh held
    case h_2 => cases taken
  case h_5 at_ =>
    split at taken
    case h_1 pc => cases taken; exact .unstored at_ pc
    case h_2 =>
      split at taken
      case isTrue running => cases taken; exact .failed at_ running
      case isFalse => cases taken
  case h_6 => cases taken

/-- The steps of a cancellation; `c` is the call before it. -/
inductive CancelMove (s : State) (u : CallId) : CancelAction → State → Prop where
  | called (principalId operationId : String) (fresh : s.cancellations u = none) :
      CancelMove s u (.call principalId operationId) (s.setCancellation u ⟨principalId, operationId, .asking⟩)
  | went {c : Cancellation} (pc : CancelPc) (now : ℕ) (at_ : s.cancellations u = some c) :
      CancelMove s u (.proceed now) (s.setCancellation u { c with pc := pc })
  | withdrew {c : Cancellation} (pc : CancelPc) (now : ℕ) (at_ : s.cancellations u = some c) :
      CancelMove s u (.proceed now)
        ((s.setOperations (s.operations.casAgentOperationStatus c.operationId [.queued] now
          (withdrawn c.operationId))).setCancellation u { c with pc := pc })
  | requested {c : Cancellation} (pc : CancelPc) (now : ℕ) (at_ : s.cancellations u = some c) :
      CancelMove s u (.proceed now)
        ((s.setOperations (s.operations.casAgentOperationStatus c.operationId [.running] now
          cancelRequested)).setCancellation u { c with pc := pc })
  | failed {c : Cancellation} (at_ : s.cancellations u = some c) :
      CancelMove s u .fail (s.setCancellation u { c with pc := .broken })

theorem cancelMove_of_step {u : CallId} {act : CancelAction} (taken : cancelStep s u act = some t) :
    CancelMove s u act t := by
  unfold cancelStep at taken
  split at taken
  case h_1 fresh => cases taken; exact .called _ _ fresh
  case h_2 at_ =>
    split at taken
    case h_1 => cases taken; exact .went _ _ at_
    case h_2 => cases taken; exact .withdrew _ _ at_
    case h_3 => cases taken; exact .requested _ _ at_
    case h_4 => cases taken; exact .went _ _ at_
    case h_5 => cases taken; exact .went _ _ at_
    all_goals cases taken
  case h_3 at_ =>
    split at taken <;> cases taken
    exact .failed at_
  case h_4 => cases taken

/-- The steps of the system. -/
inductive StepMove (host : Host) (s : State) : Action → State → Prop where
  | worker {t : State} (w : WorkerId) (act : WorkerAction) (taken : workerStep host s w act = some t) :
      StepMove host s (.worker w act) t
  | beat {t : State} (h : BeatId) (act : BeatAction) (taken : beatStep host s h act = some t) :
      StepMove host s (.beat h act) t
  | submit {t : State} (u : CallId) (act : SubmitAction) (taken : submitStep host s u act = some t) :
      StepMove host s (.submit u act) t
  | cancel {t : State} (u : CallId) (act : CancelAction) (taken : cancelStep s u act = some t) :
      StepMove host s (.cancel u act) t
  | spawned (p : ProcessId) (unborn : s.life p = .unborn) :
      StepMove host s (.spawn p) { s with life := Function.update s.life p .alive }
  | crashed (p : ProcessId) (alive : s.life p = .alive) :
      StepMove host s (.crash p) { s with life := Function.update s.life p .dead }
  | stored (plan : PlanRecord) (fresh : s.plan plan.planId = none) :
      StepMove host s (.storePlan plan) { s with plans := s.plans ++ [plan] }
  | revised (instanceId : String) (revision : Option ℕ) :
      StepMove host s (.revise instanceId revision) { s with revisions := Function.update s.revisions instanceId revision }

theorem stepMove_of_step {a : Action} (taken : step host s a = some t) : StepMove host s a t := by
  cases a with
  | worker w act => exact .worker w act taken
  | beat h act => exact .beat h act taken
  | submit u act => exact .submit u act taken
  | cancel u act => exact .cancel u act taken
  | spawn p =>
    simp only [step] at taken
    split at taken
    case isTrue unborn => cases taken; exact .spawned p unborn
    case isFalse => cases taken
  | crash p =>
    simp only [step] at taken
    split at taken
    case isTrue alive => cases taken; exact .crashed p alive
    case isFalse => cases taken
  | storePlan plan =>
    simp only [step] at taken
    split at taken
    case isTrue => cases taken
    case isFalse fresh => cases taken; exact .stored plan (by simpa using fresh)
  | revise instanceId revision => cases taken; exact .revised instanceId revision

end LocalWebAccess.AgentOperations
