import LocalWebAccess.AgentExecutedOnce

/-!
# Workers that have lost their operation

A recovery scan may take an operation over while its worker still executes it. The phase, the target
and the build token are written without a look at the status, and the checks between the phases only
ask for a cancel request. So the former worker is fenced off where the takeover finds it behind the
last of these steps.
-/
namespace LocalWebAccess.AgentOperations
open GuardedRuns

variable {host : Host} {s t : State} {a : Action} {as : List Action} {op : String}

/-- The check stands before a change of instances. -/
def Check.opens : Check → Bool
  | .import_ _ | .rebuild _ | .restart _ | .lifecycle => true
  | .deploy d => d.created
  | .validate _ | .healthcheck _ | .lifecycleEnd => false

/-- A worker that executes the operation passes a check and goes on to change an instance. -/
def Begins (op : String) (s : State) (a : Action) (t : State) : Prop :=
  ∃ w act x c, a = .worker w act ∧ s.workers w = .executing x ∧ x.record.operationId = op ∧ x.pc = .check c ∧
    c.opens ∧ t.workers w = .executing (x.goto c.next)

/-- The step leaves the row of the operation as it is, unless it sweeps it. -/
def Kept (op : String) (s : State) (a : Action) (t : State) : Prop :=
  t.operations.getAgentOperation op = s.operations.getAgentOperation op ∨
    (t.operations.getAgentOperation op = none ∧ op ∈ sweeping s a)

/-- The step neither writes the row of the operation nor begins a change of an instance for it. -/
def Fenced (op : String) (s : State) (a : Action) (t : State) : Prop := Kept op s a t ∧ ¬Begins op s a t

/-- A heartbeat that finds this row while it builds asks for a token. -/
def wantsToken (s : State) (op : String) : Bool :=
  (s.operations.getAgentOperation op).any fun r =>
    decide (truthy r.buildToken = none) && decide (truthy r.targetInstanceId ≠ none)

/-- Neither an unconditional write nor a check that opens an effect is left from here. -/
def ExecPc.settled (action : OperationAction) (wanted : Bool) : ExecPc → Bool
  | .phaseSet (.healthcheck _) | .check (.healthcheck _) | .report _ | .effect .lifecycle | .check .lifecycleEnd
  | .conclude | .ending _ | .raised _ | .closing _ | .leaving _ => true
  | .phaseSet .lifecycle => !(wanted && decide (action = .rebuild))
  | _ => false

def WorkerPc.settled (op : String) (wanted : Bool) : WorkerPc → Bool
  | .reading id => decide (id ≠ op)
  | .starting record | .launching record => decide (record.operationId ≠ op)
  | .executing x => decide (x.record.operationId ≠ op) || x.pc.settled x.record.action wanted
  | _ => true

/-- No build token is stored from here. -/
def BeatPc.quiet (stopped : Bool) (phase : Option OperationPhase) (wanted : Bool) : BeatPc → Bool
  | .waiting => stopped || (decide (phase ≠ some .build) || !wanted)
  | .renewing | .syncing => decide (phase ≠ some .build) || !wanted
  | .reading => !wanted
  | .asking | .writing _ => false
  | .ended => true

def Beat.quiet (op : String) (wanted : Bool) (b : Beat) : Bool :=
  decide (b.operationId ≠ op) || b.pc.quiet b.stopped b.phase wanted

/-- Every thread that works on the operation, in a process that has not died, is behind its last
unconditional step. -/
structure Settled (host : Host) (s : State) (op : String) : Prop where
  workers : ∀ w, s.life (host.process w) ≠ .dead → (s.workers w).settled op (wantsToken s op) = true
  beats : ∀ h b, s.beats h = some b → s.life (host.process b.worker) ≠ .dead → b.quiet op (wantsToken s op) = true

/-- The operation that a step of a recovery scan takes over. -/
def interrupting (s : State) : Action → Option String
  | .worker w (.proceed _) =>
    match s.workers w with
    | .interrupting _ row _ =>
      if s.operations.casHits row.operationId [.running, .cancelling] then some row.operationId else none
    | _ => none
  | _ => none

/-- A takeover finds the former worker settled. -/
def Takeover (host : Host) (s : State) (a : Action) : Prop := ∀ op, interrupting s a = some op → Settled host s op

/-! ## The row of a terminal operation -/

theorem Change.row {drawn drawn' : List String} {does : Writes} {ops ops' : Table} {r : OperationRow}
    (h : Change drawn drawn' does ops ops') (known : op ∈ drawn) (found : ops.getAgentOperation op = some r)
    (terminal : r.status.terminal = true) (untouched : does.touches ≠ some op) :
    ops'.getAgentOperation op = some r ∨ (ops'.getAgentOperation op = none ∧ op ∈ does.sweeps) := by
  obtain ⟨-, rfl⟩ := Table.get_iff.mp found
  have missed : ∀ (hit : OperationRow → Bool) f, hit r = false →
      (ops.update hit f).getAgentOperation r.operationId = some r := by
    intro hit f miss
    rw [Table.get_update, found, Option.map_some]
    unfold Table.updated
    rw [miss, if_neg Bool.false_ne_true]
  have live : r.status ≠ .queued ∧ r.status ≠ .running ∧ r.status ≠ .cancelling := by
    refine ⟨?_, ?_, ?_⟩ <;> (intro same; rw [same] at terminal; cases terminal)
  obtain ⟨unqueued, ended, ended'⟩ := live
  cases h with
  | kept => exact .inl found
  | touched hit f same owner only =>
    refine .inl (missed hit f (Bool.eq_false_iff.mpr fun hits => ?_))
    rcases only r hits with running | cancelling | touched
    · exact ended running
    · exact ended' cancelling
    · exact untouched touched
  | claimed identity now lease _ claimed =>
    obtain ⟨-, rfl⟩ := Table.claim_cases claimed
    exact .inl (missed _ _ (by simp [unqueued]))
  | withdrawn id now => exact .inl (missed _ _ (by simp [unqueued]))
  | requested id now => exact .inl (missed _ _ (by simp [ended]))
  | settled now writes => exact .inl (missed _ _ (by simp [ended, ended']))
  | inserted queued idle fresh known' stored =>
    rw [Table.get_insert stored]
    split
    case isTrue same => exact absurd (same ▸ known) fresh
    case isFalse => exact .inl found
  | removed =>
    rw [Table.get_remove]
    split
    case isTrue gone => exact .inr ⟨rfl, gone⟩
    case isFalse => exact .inl found

/-! ## Settled workers -/

/-- An exception leads to the end of the operation. -/
theorem ExecPc.settled_of_fail {x : Execution} {e : Raised} {pc : ExecPc} {action : OperationAction} {wanted : Bool}
    (next : execNext s x (.fail e) = some pc) : pc.settled action wanted = true := by
  simp only [execNext] at next
  split at next
  case h_1 => cases next
  all_goals (cases next; try rfl)

theorem ExecPc.settled_of_next {x : Execution} {act : WorkerAction} {pc : ExecPc} {wanted : Bool}
    (settled : x.pc.settled x.record.action wanted = true) (next : execNext s x act = some pc) :
    pc.settled x.record.action wanted = true := by
  obtain ⟨record, beat, pc'⟩ := x
  cases act with
  | fail e => exact settled_of_fail next
  | proceed now =>
    cases pc' with
    | check c =>
      simp only [execNext] at next
      split at next
      · cases next; rfl
      · cases next
        cases c with
        | healthcheck | lifecycleEnd => rfl
        | _ => cases settled
    | conclude => cases next; rfl
    | loadPlan | fresh | target | revision => cases settled
    | _ => cases next
  | reported access failed =>
    cases pc' with
    | report d => cases next; rfl
    | _ => cases next
  | worked =>
    cases pc' with
    | effect e =>
      cases e with
      | lifecycle => cases next; rfl
      | _ => cases settled
    | _ => cases next
  | imported d =>
    cases pc' with
    | effect e =>
      cases e with
      | import_ => cases settled
      | _ => cases next
    | _ => cases next
  | capabilities =>
    cases pc' with
    | capabilities => cases settled
    | _ => cases next
  | gitSource =>
    cases pc' with
    | manifest => cases settled
    | _ => cases next
  | snapshot =>
    cases pc' with
    | snapshot => cases settled
    | _ => cases next
  | wrote =>
    cases pc' with
    | writeBack => cases settled
    | _ => cases next
  | judge | begin_ | sweep => cases next

theorem settled_of_workerStep {w : WorkerId} {act : WorkerAction} {wanted : Bool}
    (unqueued : s.statusOf op ≠ some .queued) (settled : (s.workers w).settled op wanted = true)
    (taken : workerStep host s w act = some t) : (t.workers w).settled op wanted = true := by
  have stands : ∀ (u : State) (pc : WorkerPc), pc.settled op wanted = true →
      ((u.setWorker w pc).workers w).settled op wanted = true := by
    intro u pc mine
    rw [setWorker_self]
    exact mine
  have onward : ∀ (u : State) (x : Execution) (pc : ExecPc), s.workers w = .executing x →
      (x.pc.settled x.record.action wanted = true → pc.settled x.record.action wanted = true) →
      ((u.goto w x pc).workers w).settled op wanted = true := by
    intro u x pc at_ follows
    refine stands _ _ ?_
    rw [at_] at settled
    simp only [WorkerPc.settled, Execution.goto, Bool.or_eq_true] at settled ⊢
    exact settled.imp_right follows
  cases (workerMove_of_step taken).2 with
  | validated now at_ pc => exact onward _ _ _ at_ fun mine => by rw [pc] at mine; cases mine
  | advanced now at_ pc => exact onward _ _ _ at_ fun mine => by rw [pc] at mine; cases mine
  | linked now at_ pc => exact onward _ _ _ at_ fun mine => by rw [pc] at mine; cases mine
  | @phased x m now at_ pc =>
    refine onward _ _ _ at_ fun mine => ?_
    rw [pc] at mine
    cases m with
    | healthcheck | lifecycle => rfl
    | _ => cases mine
  | finished now at_ pc => exact onward _ _ _ at_ fun _ => rfl
  | caught now at_ pc => exact onward _ _ _ at_ fun _ => rfl
  | closed now at_ pc => exact onward _ _ _ at_ fun _ => rfl
  | went at_ next => exact onward _ _ _ at_ fun mine => ExecPc.settled_of_next mine next
  | @left _ died => cases died <;> exact stands _ _ rfl
  | claimed now at_ found =>
    refine stands _ _ (decide_eq_true fun same => ?_)
    obtain ⟨⟨r, held, queued⟩, -⟩ := Table.claim_cases found
    exact unqueued (by rw [← same, State.statusOf, held, Option.map_some, queued])
  | read now at_ found =>
    rw [at_] at settled
    exact stands _ _ (decide_eq_true ((Table.get_iff.mp found).2 ▸ of_decide_eq_true settled))
  | started now at_ =>
    rw [at_] at settled
    exact stands _ _ settled
  | launched h at_ =>
    rw [at_] at settled
    refine stands _ _ ?_
    simp only [WorkerPc.settled] at settled ⊢
    rw [settled, Bool.true_or]
  | _ => exact stands _ _ rfl

/-! ## Heartbeats -/

/-- What a step of a worker does to a heartbeat. -/
inductive Beating (s : State) (w : WorkerId) (h : BeatId) : Option Beat → Prop where
  | same : Beating s w h (s.beats h)
  | launched {record : OperationRow} (at_ : s.workers w = .launching record) (fresh : s.beats h = none) :
      Beating s w h (some ⟨w, record.operationId, none, false, .waiting⟩)
  | phased {x : Execution} {phase : OperationPhase} (at_ : s.workers w = .executing x) (own : x.beat = h)
      (pc : (∃ plan, x.pc = .validate plan) ∨ ∃ m, x.pc = .phaseSet m ∧ phase = m.phase x.record.action) :
      Beating s w h ((s.beats h).map fun b => { b with phase := some phase })
  | stopped {x : Execution} (at_ : s.workers w = .executing x) (own : x.beat = h) :
      Beating s w h ((s.beats h).map fun b => { b with stopped := true })

theorem workerStep_beats {w : WorkerId} {act : WorkerAction} (taken : workerStep host s w act = some t) (h : BeatId) :
    Beating s w h (t.beats h) := by
  have set_ : ∀ (k : BeatId) (v : Option Beat), (k = h → Beating s w h v) →
      Beating s w h (Function.update s.beats k v h) := by
    intro k v own
    by_cases same : h = k
    · subst same
      rw [Function.update_self]
      exact own rfl
    · rw [Function.update_of_ne same]
      exact .same
  cases (workerMove_of_step taken).2 with
  | validated now at_ pc => exact set_ _ _ fun own => own ▸ .phased at_ rfl (.inl ⟨_, pc⟩)
  | phased now at_ pc => exact set_ _ _ fun own => own ▸ .phased at_ rfl (.inr ⟨_, pc, rfl⟩)
  | closed now at_ => exact set_ _ _ fun own => own ▸ .stopped at_ rfl
  | launched k at_ fresh => exact set_ _ _ fun own => .launched at_ (own ▸ fresh)
  | _ => exact .same

theorem beatStep_beats {h : BeatId} {act : BeatAction} (taken : beatStep host s h act = some t) :
    ∃ b pc, s.beats h = some b ∧ s.life (host.process b.worker) = .alive ∧
      t.beats = Function.update s.beats h (some { b with pc := pc }) ∧
        (b.pc.quiet b.stopped b.phase (wantsToken s b.operationId) = true →
          pc.quiet b.stopped b.phase (wantsToken s b.operationId) = true) := by
  obtain ⟨b, place, alive, move⟩ := beatMove_of_step taken
  cases move with
  | woken now at_ =>
    refine ⟨b, _, place, alive, rfl, fun quiet => ?_⟩
    rw [at_] at quiet
    split
    case isTrue => rfl
    case isFalse going => simpa [BeatPc.quiet, going] using quiet
  | renewed now at_ =>
    refine ⟨b, _, place, alive, rfl, fun quiet => ?_⟩
    rw [at_] at quiet
    exact quiet
  | synced now at_ =>
    refine ⟨b, _, place, alive, rfl, fun quiet => ?_⟩
    rw [at_] at quiet
    split
    case isTrue building => simpa [BeatPc.quiet, building] using quiet
    case isFalse other => simp [BeatPc.quiet, other]
  | missed now at_ =>
    refine ⟨b, _, place, alive, rfl, fun quiet => ?_⟩
    rw [at_] at quiet
    simp only [BeatPc.quiet] at quiet ⊢
    rw [quiet, Bool.or_true, Bool.or_true]
  | read now at_ found =>
    refine ⟨b, _, place, alive, rfl, fun quiet => ?_⟩
    rw [at_] at quiet
    simp only [BeatPc.quiet] at quiet
    split
    case isTrue => simp only [BeatPc.quiet]; rw [quiet, Bool.or_true, Bool.or_true]
    case isFalse wanted =>
      rw [not_or] at wanted
      have asks : wantsToken s b.operationId = true := by
        unfold wantsToken
        rw [found]
        simpa using ⟨not_not.mp wanted.1, wanted.2⟩
      rw [asks] at quiet
      cases quiet
  | answered value pc at_ => exact ⟨b, _, place, alive, rfl, fun quiet => by rw [at_] at quiet; cases quiet⟩
  | wrote now at_ => exact ⟨b, _, place, alive, rfl, fun quiet => by rw [at_] at quiet; cases quiet⟩
  | failed waits ended =>
    refine ⟨b, _, place, alive, rfl, fun quiet => ?_⟩
    cases at_ : b.pc <;> rw [at_] at quiet <;> simp_all [BeatPc.quiet]

/-- A heartbeat that has been created belongs to its operation and its worker for good. -/
theorem beat_of_step {h : BeatId} {b : Beat} (taken : step host s a = some t) (started : s.beats h = some b) :
    ∃ b', t.beats h = some b' ∧ b'.operationId = b.operationId ∧ b'.worker = b.worker := by
  have same : t.beats = s.beats → ∃ b', t.beats h = some b' ∧ b'.operationId = b.operationId ∧ b'.worker = b.worker :=
    fun same => ⟨b, same ▸ started, rfl, rfl⟩
  cases stepMove_of_step taken with
  | worker w act taken =>
    have beating := workerStep_beats taken h
    generalize t.beats h = after at beating
    cases beating with
    | same => exact ⟨b, started, rfl, rfl⟩
    | launched _ fresh => cases fresh.symm.trans started
    | @phased _ phase _ _ _ => exact ⟨{ b with phase := some phase }, by rw [started]; rfl, rfl, rfl⟩
    | stopped _ _ => exact ⟨{ b with stopped := true }, by rw [started]; rfl, rfl, rfl⟩
  | beat h' act taken =>
    obtain ⟨b', pc, place, -, after, -⟩ := beatStep_beats taken
    by_cases own : h = h'
    · subst own
      cases place.symm.trans started
      exact ⟨{ b with pc := pc }, by rw [after, Function.update_self], rfl, rfl⟩
    · exact ⟨b, by rw [after, Function.update_of_ne own, started], rfl, rfl⟩
  | submit u act taken => exact same (submitStep_workers taken).2.1
  | cancel u act taken => exact same (cancelStep_workers taken).2.1
  | _ => exact same rfl

/-- An execution goes on with its record and its heartbeat, or has just been launched. -/
theorem executing_of_step {w : WorkerId} {act : WorkerAction} {x' : Execution}
    (taken : workerStep host s w act = some t) (at_ : t.workers w = .executing x') :
    (∃ x, s.workers w = .executing x ∧ x'.record = x.record ∧ x'.beat = x.beat) ∨
      (s.workers w = .launching x'.record ∧ t.beats x'.beat = some ⟨w, x'.record.operationId, none, false, .waiting⟩) := by
  cases (workerMove_of_step taken).2 with
  | validated now place | advanced now place | phased now place | linked now place | finished now place
  | caught now place | closed now place | went place =>
    obtain rfl := WorkerPc.executing.inj ((setWorker_self w _ _).symm.trans at_)
    exact .inl ⟨_, place, rfl, rfl⟩
  | launched h place =>
    obtain rfl := WorkerPc.executing.inj ((setWorker_self w _ _).symm.trans at_)
    exact .inr ⟨place, Function.update_self h _ s.beats⟩
  | @left _ died => cases died <;> cases (setWorker_self w _ _).symm.trans at_
  | _ => cases (setWorker_self w _ _).symm.trans at_

/-- The heartbeat of an execution is one of its operation. -/
def Linked (s : State) : Prop :=
  ∀ w x, s.workers w = .executing x → ∃ b, s.beats x.beat = some b ∧ b.operationId = x.record.operationId

theorem Linked.step (h : Linked s) (taken : step host s a = some t) : Linked t := by
  intro w x' at_
  rcases step_worker w taken with same | ⟨act, rfl, taken'⟩
  · rw [same] at at_
    obtain ⟨b, started, mine⟩ := h w x' at_
    obtain ⟨b', after, mine', -⟩ := beat_of_step taken started
    exact ⟨b', after, mine'.trans mine⟩
  · rcases executing_of_step taken' at_ with ⟨x, before, record, beat⟩ | ⟨-, launched⟩
    · obtain ⟨b, started, mine⟩ := h w x before
      obtain ⟨b', after, mine', -⟩ := beat_of_step taken started
      exact ⟨b', beat ▸ after, by rw [record]; exact mine'.trans mine⟩
    · exact ⟨_, launched, rfl⟩

/-! ## Settled operations -/

theorem BeatPc.quiet_phased {pc : BeatPc} {stopped wanted : Bool} {before : Option OperationPhase}
    {phase : OperationPhase} (quiet : pc.quiet stopped before wanted = true) (calm : phase ≠ .build ∨ wanted = false) :
    pc.quiet stopped (some phase) wanted = true := by
  cases pc with
  | waiting =>
    simp only [BeatPc.quiet]
    rcases calm with other | unwanted
    · simp [other]
    · simp [unwanted]
  | renewing | syncing => simpa [BeatPc.quiet] using calm
  | reading | asking | writing => exact quiet
  | ended => rfl

theorem BeatPc.quiet_stopped {pc : BeatPc} {stopped wanted : Bool} {phase : Option OperationPhase}
    (quiet : pc.quiet stopped phase wanted = true) : pc.quiet true phase wanted = true := by
  cases pc with
  | waiting => rfl
  | _ => exact quiet

theorem ExecPc.settled_phaseSet {m : Advance} {action : OperationAction} {wanted : Bool}
    (settled : (ExecPc.phaseSet m).settled action wanted = true) : m.phase action ≠ .build ∨ wanted = false := by
  cases m with
  | healthcheck => exact .inl (by simp [Advance.phase])
  | lifecycle =>
    by_cases rebuild : action = .rebuild
    · subst rebuild
      exact .inr (by simpa [ExecPc.settled] using settled)
    · exact .inl (by simp [Advance.phase, rebuild])
  | _ => cases settled

theorem alive_of_workerStep {w : WorkerId} {act : WorkerAction} (taken : workerStep host s w act = some t) :
    s.life (host.process w) ≠ .dead := by
  intro dead
  unfold workerStep at taken
  rw [dead] at taken
  cases taken

theorem Settled.onward (settled : Settled host s op) (linked : Linked s) (unqueued : s.statusOf op ≠ some .queued)
    (taken : step host s a = some t) (wanted : wantsToken t op = wantsToken s op) : Settled host t op := by
  constructor
  · intro w alive
    rw [wanted]
    have mine := settled.workers w (dead_of_step taken alive)
    rcases step_worker w taken with same | ⟨act, -, taken'⟩
    · rw [same]
      exact mine
    · exact settled_of_workerStep unqueued mine taken'
  · intro h b' at_ alive
    rw [wanted]
    have still := dead_of_step taken alive
    have same : t.beats = s.beats → b'.quiet op (wantsToken s op) = true :=
      fun same => settled.beats h b' (same ▸ at_) still
    cases stepMove_of_step taken with
    | worker w act taken =>
      have beating := workerStep_beats taken h
      rw [at_] at beating
      generalize after : some b' = value at beating
      cases beating with
      | same => exact settled.beats h b' after.symm still
      | launched place fresh =>
        cases after
        have mine := settled.workers w still
        rw [place] at mine
        simp only [WorkerPc.settled] at mine
        unfold Beat.quiet
        rw [mine, Bool.true_or]
      | phased place own pc =>
        obtain ⟨b, before, rfl⟩ := Option.map_eq_some_iff.mp after.symm
        have quiet := settled.beats h b before still
        simp only [Beat.quiet, Bool.or_eq_true, decide_eq_true_eq] at quiet ⊢
        by_cases mine : b.operationId = op
        · refine .inr (BeatPc.quiet_phased (quiet.resolve_left (not_not.mpr mine)) ?_)
          obtain ⟨b', before', same⟩ := linked w _ place
          rw [own, before] at before'
          cases before'
          have behind := settled.workers w (alive_of_workerStep taken)
          rw [place] at behind
          simp only [WorkerPc.settled, Bool.or_eq_true, decide_eq_true_eq] at behind
          have behind' := behind.resolve_left (not_not.mpr (same.symm.trans mine))
          rcases pc with ⟨plan, pc⟩ | ⟨m, pc, rfl⟩
          · rw [pc] at behind'
            cases behind'
          · rw [pc] at behind'
            exact ExecPc.settled_phaseSet behind'
        · exact .inl mine
      | stopped place own =>
        obtain ⟨b, before, rfl⟩ := Option.map_eq_some_iff.mp after.symm
        have quiet := settled.beats h b before still
        simp only [Beat.quiet, Bool.or_eq_true] at quiet ⊢
        exact quiet.imp_right BeatPc.quiet_stopped
    | beat h' act taken =>
      obtain ⟨b, pc, before, -, after, goes⟩ := beatStep_beats taken
      rw [after] at at_
      by_cases own : h = h'
      · subst own
        rw [Function.update_self] at at_
        cases at_
        have quiet := settled.beats h b before still
        simp only [Beat.quiet, Bool.or_eq_true, decide_eq_true_eq] at quiet ⊢
        rcases quiet with other | quiet
        · exact .inl other
        · by_cases mine : b.operationId = op
          · subst mine
            exact .inr (goes quiet)
          · exact .inl mine
      · rw [Function.update_of_ne own] at at_
        exact settled.beats h b' at_ still
    | submit u act taken => exact same (submitStep_workers taken).2.1
    | cancel u act taken => exact same (cancelStep_workers taken).2.1
    | _ => exact same rfl

/-- The steps of a settled operation write its row no more. -/
theorem Settled.untouched (settled : Settled host s op) (taken : step host s a = some t) : touching s a ≠ some op := by
  intro touched
  unfold touching at touched
  split at touched
  case h_1 w now =>
    split at touched
    case h_2 => cases touched
    case h_1 x at_ =>
      have behind := settled.workers w (alive_of_workerStep taken)
      rw [at_] at behind
      simp only [WorkerPc.settled, Bool.or_eq_true, decide_eq_true_eq] at behind
      split at touched
      case h_1 pc =>
        rw [pc] at behind
        cases behind.resolve_left (not_not.mpr (Option.some.inj touched))
      case h_2 pc =>
        rw [pc] at behind
        cases behind.resolve_left (not_not.mpr (Option.some.inj touched))
      case h_3 => cases touched
  case h_2 h now =>
    split at touched
    case h_2 => cases touched
    case h_1 b at_ =>
      obtain ⟨b', pc, before, alive, -⟩ := beatStep_beats taken
      cases before.symm.trans at_
      have quiet := settled.beats h b at_ (by rw [alive]; simp)
      simp only [Beat.quiet, Bool.or_eq_true, decide_eq_true_eq] at quiet
      split at touched
      case h_1 pc =>
        rw [pc] at quiet
        cases quiet.resolve_left (not_not.mpr (Option.some.inj touched))
      case h_2 => cases touched
  case h_3 => cases touched

/-- The steps of a settled operation open no effect. -/
theorem Settled.not_begins (settled : Settled host s op) (taken : step host s a = some t) : ¬Begins op s a t := by
  rintro ⟨w, act, x, c, rfl, at_, mine, pc, opens, -⟩
  have behind := settled.workers w (alive_of_workerStep taken)
  rw [at_] at behind
  simp only [WorkerPc.settled, Bool.or_eq_true, decide_eq_true_eq] at behind
  have behind' := behind.resolve_left (not_not.mpr mine)
  rw [pc] at behind'
  cases c with
  | healthcheck | lifecycleEnd => cases opens
  | _ => cases behind'

theorem Settled.kept (settled : Settled host s op) (sound : Sound s) (interrupted : s.statusOf op = some .interrupted)
    (taken : step host s a = some t) : Kept op s a t := by
  obtain ⟨r, among, rfl, status⟩ := exists_row interrupted
  have found := Table.get_of_mem among
  have row := (step_change sound taken).change.row (sound.drawn r among) found (by rw [status]; rfl)
    (settled.untouched taken)
  unfold Kept
  rw [found]
  exact row

/-! ## Takeovers -/

theorem Ending.settlement_ne (f : Ending) (id : String) : (f.settlement id).status ≠ .interrupted := by
  cases f with
  | deployed result failed => cases failed <;> simp [Ending.settlement]
  | stalePlan | fallback | lifecycle => simp [Ending.settlement]

theorem statusOfCode_ne (code : AgentErrorCode) : statusOfCode code ≠ .interrupted := by
  cases code <;> decide

theorem finishLwaError_ne (id : String) (e : LwaError) (phase : Option OperationPhase) :
    (finishLwaError id e phase).status ≠ .interrupted := by
  unfold finishLwaError
  cases lwaErrorCode e phase with
  | none => simp
  | some code => exact statusOfCode_ne code

theorem Raised.settlement_ne (e : Raised) (id : String) (phase : Option OperationPhase) :
    (e.settlement id phase).status ≠ .interrupted := by
  cases e with
  | operationCancelled | other => simp [Raised.settlement]
  | agentService e => exact statusOfCode_ne _
  | fallback message => exact finishLwaError_ne _ _ _
  | lwa e => exact finishLwaError_ne _ _ _

/-- Only the recovery scan interrupts an operation. -/
theorem interrupting_of_settling {x : Table.Settlement} (writes : settling s a = some (op, x))
    (interrupted : x.status = .interrupted) {y : OperationStatus} (status : s.statusOf op = some y)
    (active : y = .running ∨ y = .cancelling) : interrupting s a = some op := by
  unfold settling at writes
  unfold interrupting
  split at writes
  case h_2 => cases writes
  case h_1 w now =>
    split at writes
    case h_1 x' at_ =>
      split at writes
      case h_1 f pc =>
        cases writes
        exact absurd interrupted (f.settlement_ne _)
      case h_2 e pc =>
        cases writes
        exact absurd interrupted (e.settlement_ne _ _)
      case h_3 => cases writes
    case h_2 now' row rows at_ =>
      cases writes
      obtain ⟨r, among, same, rfl⟩ := exists_row status
      simp only [at_]
      rw [if_pos]
      exact List.any_eq_true.mpr ⟨r, among, by simpa [same] using active⟩
    case h_3 => cases writes

theorem wantsToken_of_takeover (takeover : interrupting s a = some op) (taken : step host s a = some t) :
    wantsToken t op = wantsToken s op := by
  unfold interrupting at takeover
  split at takeover
  case h_2 => cases takeover
  case h_1 w now =>
    split at takeover
    case h_2 => cases takeover
    case h_1 now' row rows at_ =>
      split at takeover
      case isFalse => cases takeover
      case isTrue =>
        cases takeover
        change workerStep host s w (.proceed now) = some t at taken
        unfold workerStep at taken
        rw [at_] at taken
        simp only [loopStep] at taken
        split at taken
        · cases taken
        · cases taken
          unfold wantsToken
          change ((s.operations.casAgentOperationStatus _ _ _ _).getAgentOperation _).any _ = _
          unfold Table.casAgentOperationStatus
          rw [Table.get_update]
          cases s.operations.getAgentOperation row.operationId with
          | none => rfl
          | some r =>
            simp only [Option.map_some, Option.any_some]
            unfold Table.updated
            split <;> rfl

/-- An operation that has been taken over is settled. -/
structure TakenOver (host : Host) (op : String) (s : State) : Prop where
  sound : Sound s
  linked : Linked s
  settled : s.statusOf op = some .interrupted → Settled host s op

theorem Initial.takenOver (h : Initial host s) : TakenOver host op s where
  sound := h.sound
  linked w x at_ := by
    rw [h.workers w] at at_
    cases at_
  settled _ := {
    workers := fun w _ => by rw [h.workers w]; rfl
    beats := fun k b at_ _ => by rw [h.beats k] at at_; cases at_ }

theorem TakenOver.step (h : TakenOver host op s) (meets : Takeover host s a) (taken : step host s a = some t) :
    TakenOver host op t := by
  refine ⟨h.sound.step taken, h.linked.step taken, fun interrupted => ?_⟩
  by_cases before : s.statusOf op = some .interrupted
  · have settled := h.settled before
    rcases settled.kept h.sound before taken with same | ⟨gone, -⟩
    · exact settled.onward h.linked (by rw [before]; simp) taken (by unfold wantsToken; rw [same])
    · rw [State.statusOf, gone] at interrupted
      cases interrupted
  · have move := (step_change h.sound taken).status op
    rw [interrupted] at move
    generalize from_ : s.statusOf op = x at move
    generalize to_ : some OperationStatus.interrupted = y at move
    cases move with
    | same => exact absurd (from_.trans to_.symm) before
    | settled active writes =>
      have takeover := interrupting_of_settling writes (Option.some.inj to_).symm from_ active
      refine (meets op takeover).onward h.linked ?_ taken (wantsToken_of_takeover takeover taken)
      rw [from_]
      rcases active with rfl | rfl <;> simp
    | _ => cases to_

/-- After a takeover that found its worker settled, no step of the worker or of anyone else changes a
column of the row, and the worker begins no further change of an instance. -/
theorem fenced_of_takeovers {s₀ : State} (init : Initial host s₀) (run : Run (step host) (Takeover host) s₀ as s)
    (interrupted : s.statusOf op = some .interrupted) (taken : step host s a = some t) : Fenced op s a t := by
  have inv := run.invariant (P := TakenOver host op) init.takenOver fun _ _ _ h meets taken => h.step meets taken
  have settled := inv.settled interrupted
  exact ⟨settled.kept inv.sound interrupted taken, settled.not_begins taken⟩

/-! ## A run -/

/-- The worker stands before the check of its restart when another worker finds its lease expired. -/
def takenOverEarly : List Action :=
  takingUp 0 0 5 ++ [.worker 0 (.proceed 6), .worker 1 (.proceed 40), .worker 1 (.proceed 40),
    .worker 1 (.judge true), .worker 1 (.proceed 40)]

/-- The former worker passes the check and writes the phase of the interrupted operation. -/
theorem worker_goes_on_after_takeover : ¬∀ (as : List Action) (s t : State) (a : Action) (op : String),
    Run (step soloHost) anyStep oneRestart as s → s.statusOf op = some .interrupted →
      step soloHost s a = some t → Fenced op s a t := by
  intro all
  have ran : ∃ s t u, exec (step soloHost) oneRestart takenOverEarly = some s ∧
      step soloHost s (.worker 0 (.proceed 41)) = some t ∧ step soloHost t (.worker 0 (.proceed 42)) = some u ∧
      t.statusOf "op" = some .interrupted ∧ (t.operations.getAgentOperation "op").map (fun r => r.updatedAt) = some 40 ∧
      (u.operations.getAgentOperation "op").map (fun r => r.updatedAt) = some 42 :=
    ⟨_, _, _, rfl, rfl, rfl, rfl, rfl, rfl⟩
  obtain ⟨s, t, u, ran, passed, wrote, interrupted, before, after⟩ := ran
  obtain ⟨same | ⟨gone, -⟩, -⟩ := all _ t u _ "op" ((Run.of_exec ran).snoc trivial passed) interrupted wrote
  · rw [same, before] at after
    cases after
  · rw [gone] at after
    cases after

/-- No step of the run takes an operation over. -/
theorem untaken {s t : State} {as : List Action}
    (ran : exec (Run.guarded (step host) fun s a => interrupting s a = none) s as = some t) :
    Run (step host) (Takeover host) s as t :=
  (Run.of_guarded ran).imp (P := fun _ => True) trivial (fun _ _ _ _ _ _ => trivial)
    fun _ _ _ _ _ free op takeover => by rw [free] at takeover; cases takeover

/-- A worker that is restarting the instance when it loses the operation ends without a trace. -/
theorem fenced_of_takeovers_restart : ∃ s t, s.statusOf "op" = some .interrupted ∧
    step soloHost s (.worker 0 (.proceed 43)) = some t ∧ Fenced "op" s (.worker 0 (.proceed 43)) t := by
  have ran : ∃ s₁ s₂ s₃ t,
      exec (Run.guarded (step soloHost) fun s a => interrupting s a = none) oneRestart
        (takingUp 0 0 5 ++ [.worker 0 (.proceed 6), .worker 0 (.proceed 6), .worker 0 (.proceed 6),
          .worker 0 (.proceed 6), .worker 1 (.proceed 40), .worker 1 (.proceed 40), .worker 1 (.judge true)]) = some s₁ ∧
      step soloHost s₁ (.worker 1 (.proceed 40)) = some s₂ ∧
      exec (Run.guarded (step soloHost) fun s a => interrupting s a = none) s₂
        [.worker 0 .worked, .worker 0 (.proceed 42), .worker 0 (.proceed 42)] = some s₃ ∧
      step soloHost s₃ (.worker 0 (.proceed 43)) = some t ∧ s₃.statusOf "op" = some .interrupted ∧
      Settled soloHost s₁ "op" ∧ ∀ op, interrupting s₁ (.worker 1 (.proceed 40)) = some op → op = "op" := by
    refine ⟨_, _, _, _, rfl, rfl, rfl, rfl, rfl, ⟨?_, ?_⟩, ?_⟩
    · intro w _
      match w with
      | 0 | 1 => rfl
      | n + 2 => rfl
    · intro h b at_ _
      match h with
      | 0 => cases at_; rfl
      | n + 1 => cases at_
    · intro op takeover
      cases takeover
      rfl
  obtain ⟨s₁, s₂, s₃, t, front, takes, back, taken, interrupted, settled, only⟩ := ran
  refine ⟨s₃, t, interrupted, taken, fenced_of_takeovers oneRestart_initial
    ((untaken front).append (.cons (fun op takeover => ?_) takes (untaken back))) interrupted taken⟩
  rw [only op takeover]
  exact settled

end LocalWebAccess.AgentOperations
