import LocalWebAccess.AgentExecutedOnce

/-!
# Status changes and the declared state machine

`OPERATION_TRANSITIONS` declares which status may follow which. A worker and the recovery scan end
an operation by one compare-and-set that accepts running and cancelling alike, so a change follows
the declaration exactly when the status found there fits the way the operation ends.
-/
namespace LocalWebAccess.AgentOperations
open GuardedRuns

variable {host : Host} {s t : State} {a : Action} {as : List Action} {op : String}

/-- Every change of a status is one that `OPERATION_TRANSITIONS` declares. -/
def Follows (s t : State) : Prop :=
  ∀ op x y, s.statusOf op = some x → t.statusOf op = some y → x ≠ y → y ∈ operationTransitions x

/-- The step makes such changes only. -/
def Following (host : Host) (s : State) (a : Action) : Prop := ∀ t, step host s a = some t → Follows s t

/-- The exception ends the operation as cancelled although the worker saw no cancel request. -/
def Raised.cancelsBuild (phase : Option OperationPhase) : Raised → Bool
  | .lwa e => lwaErrorCode e phase = none
  | .operationCancelled | .agentService _ | .fallback _ | .other _ => false

/-- The status that an operation must not have where a step ends it: cancelling, where it ends in
another way than by its cancellation, and running, where a cancelled build ends it. -/
def unfit (s : State) : Action → Option (String × OperationStatus)
  | .worker w (.proceed _) =>
    match s.workers w with
    | .executing x =>
      match x.pc with
      | .ending _ => some (x.record.operationId, .cancelling)
      | .raised .operationCancelled => none
      | .raised e =>
        some (x.record.operationId, if e.cancelsBuild (s.phaseOf x.beat) then .running else .cancelling)
      | _ => none
    | .interrupting _ row _ => some (row.operationId, .cancelling)
    | _ => none
  | _ => none

def Fits (s : State) (a : Action) : Prop := ∀ x ∈ unfit s a, s.statusOf x.1 ≠ some x.2

instance : Decidable (Fits s a) := inferInstanceAs (Decidable (∀ x ∈ unfit s a, s.statusOf x.1 ≠ some x.2))

/-! ## Workers that have seen a cancel request -/

theorem loadPlanForExec_ne {record : OperationRow} : loadPlanForExec s record ≠ .raised .operationCancelled := by
  unfold loadPlanForExec
  split
  · simp
  · split <;> simp

theorem targetNext_ne {plan : PlanRecord} : targetNext s plan ≠ .raised .operationCancelled := by
  unfold targetNext
  simp only
  split
  · simp
  · split <;> simp

theorem revisionNext_ne {record : OperationRow} : revisionNext s record ≠ .raised .operationCancelled := by
  unfold revisionNext
  split
  · simp
  · split
    · simp
    · split <;> simp

theorem Check.next_ne (c : Check) : c.next ≠ .raised .operationCancelled := by
  cases c with
  | deploy d =>
    simp only [Check.next]
    split_ifs <;> simp
  | validate | import_ | rebuild | restart | healthcheck | lifecycle | lifecycleEnd => simp [Check.next]

theorem Advance.next_ne (m : Advance) : m.next ≠ .raised .operationCancelled := by
  cases m <;> simp [Advance.next]

/-- Only a check that finds the operation cancelling raises `_OperationCancelled`. -/
theorem execNext_cancelled {x : Execution} {act : WorkerAction}
    (next : execNext s x act = some (.raised .operationCancelled)) :
    s.statusOf x.record.operationId = some .cancelling := by
  unfold execNext at next
  split at next
  case h_1 =>
    split at next
    case h_1 => exact absurd (Option.some.inj next) loadPlanForExec_ne
    case h_2 c _ =>
      split at next
      case isTrue found => exact found
      case isFalse => exact absurd (Option.some.inj next) (Check.next_ne c)
    case h_3 => split at next <;> cases next
    case h_4 => exact absurd (Option.some.inj next) targetNext_ne
    case h_5 => exact absurd (Option.some.inj next) revisionNext_ne
    case h_6 => cases next
    case h_7 => cases next
  case h_2 =>
    split at next
    · dsimp only at next
      split at next
      · cases next
      · split at next <;> cases next
    · cases next
  case h_3 =>
    split at next
    · dsimp only at next
      split at next <;> cases next
    · cases next
  case h_4 =>
    split at next
    · split at next <;> cases next
    · cases next
  case h_5 =>
    split at next
    · split at next <;> cases next
    · cases next
  case h_6 => split at next <;> cases next
  case h_7 => split at next <;> cases next
  case h_8 => split at next <;> cases next
  case h_9 =>
    split at next
    case h_9 =>
      cases next
      exact (‹Raised.operationCancelled = Raised.operationCancelled → False› rfl).elim
    all_goals cases next
  all_goals cases next

/-- A worker that ends its operation as cancelled has found the cancel request. -/
def Requested (s : State) : Prop :=
  ∀ w x, s.workers w = .executing x → x.pc = .raised .operationCancelled →
    Drawn x.record.operationId s ∧ s.statusOf x.record.operationId ≠ some .queued ∧
      s.statusOf x.record.operationId ≠ some .running

theorem raised_cancelled_of_step {w : WorkerId} {act : WorkerAction} {x' : Execution}
    (taken : workerStep host s w act = some t) (at_ : t.workers w = .executing x')
    (raised : x'.pc = .raised .operationCancelled) :
    t.operations = s.operations ∧ s.statusOf x'.record.operationId = some .cancelling := by
  cases (workerMove_of_step taken).2 with
  | @went x _ pc place next =>
    obtain rfl := WorkerPc.executing.inj ((setWorker_self w _ _).symm.trans at_)
    obtain rfl : pc = .raised .operationCancelled := raised
    exact ⟨rfl, (execNext_cancelled next : s.statusOf x.record.operationId = some .cancelling)⟩
  | @left _ died => cases died <;> cases (setWorker_self w _ _).symm.trans at_
  | @phased _ m =>
    obtain rfl := WorkerPc.executing.inj ((setWorker_self w _ _).symm.trans at_)
    exact absurd raised (Advance.next_ne m)
  | launched =>
    obtain rfl := WorkerPc.executing.inj ((setWorker_self w _ _).symm.trans at_)
    simp only at raised
    split at raised <;> cases raised
  | validated | advanced | linked | finished | caught | closed =>
    obtain rfl := WorkerPc.executing.inj ((setWorker_self w _ _).symm.trans at_)
    cases raised
  | _ => cases (setWorker_self w _ _).symm.trans at_

theorem Requested.step (h : Requested s) (sound : Sound s) (taken : step host s a = some t) : Requested t := by
  intro w x at_ raised
  rcases step_worker w taken with same | ⟨act, rfl, taken'⟩
  · rw [same] at at_
    obtain ⟨drawn, unqueued, ended⟩ := h w x at_ raised
    refine ⟨drawn.step taken, not_queued_of_step sound drawn.2 taken unqueued, ?_⟩
    have move := (step_change sound taken).status x.record.operationId
    generalize s.statusOf x.record.operationId = y at move unqueued ended
    generalize t.statusOf x.record.operationId = z at move
    cases move with
    | same => exact ended
    | claimed => exact absurd rfl unqueued
    | withdrawn | requested | inserted | removed => simp
    | settled active writes =>
      intro running
      have terminal := settling_terminal writes
      rw [Option.some.inj running] at terminal
      cases terminal
  · obtain ⟨table, found⟩ := raised_cancelled_of_step taken' at_ raised
    have status : t.statusOf x.record.operationId = some .cancelling := by
      unfold State.statusOf
      rw [table]
      exact found
    obtain ⟨r, among, same, -⟩ := exists_row status
    have sound' := sound.step taken
    rw [status]
    exact ⟨⟨sound', same ▸ sound'.drawn r among⟩, by simp, by simp⟩

/-! ## The status found and the status written -/

/-- The settlement is declared for the status that the operation has. -/
def Declared (s : State) (id : String) (x : Table.Settlement) : Prop :=
  ∀ y, s.statusOf id = some y → y = .running ∨ y = .cancelling → x.status ∈ operationTransitions y

theorem settled_of_step {id : String} {x : Table.Settlement} (writes : settling s a = some (id, x))
    (taken : step host s a = some t) :
    t.statusOf id = (s.statusOf id).map fun y => if y = .running ∨ y = .cancelling then x.status else y := by
  have cas : ∀ now, (s.operations.casAgentOperationStatus id [.running, .cancelling] now x).statusIn id =
      (s.statusOf id).map fun y => if y = .running ∨ y = .cancelling then x.status else y := by
    intro now
    rw [statusIn_cas]
    simp [State.statusOf, Table.statusIn]
  unfold settling at writes
  split at writes
  case h_2 => cases writes
  case h_1 w now =>
    change workerStep host s w (.proceed now) = some t at taken
    unfold workerStep at taken
    split at writes
    case h_1 x' at_ =>
      rw [at_] at taken
      split at writes
      case h_1 f pc =>
        cases writes
        simp only [execStep, pc] at taken
        split at taken <;> cases taken
        exact cas now
      case h_2 e pc =>
        cases writes
        simp only [execStep, pc] at taken
        split at taken <;> cases taken
        exact cas now
      case h_3 => cases writes
    case h_2 now' row rows at_ =>
      rw [at_] at taken
      cases writes
      simp only [loopStep] at taken
      split at taken <;> cases taken
      exact cas now'
    case h_3 => cases writes

theorem follows_iff_declared (sound : Sound s) (taken : step host s a = some t) :
    Follows s t ↔ ∀ id x, settling s a = some (id, x) → Declared s id x := by
  constructor
  · intro follows id x writes y found active
    have after := settled_of_step writes taken
    rw [found, Option.map_some, if_pos active] at after
    refine follows id y x.status found after fun same => ?_
    have terminal := settling_terminal writes
    rw [← same] at terminal
    rcases active with rfl | rfl <;> cases terminal
  · intro declared id y z before after differs
    have move := (step_change sound taken).status id
    rw [before, after] at move
    generalize start : some y = y' at move
    generalize stop : some z = z' at move
    cases move with
    | same => exact absurd (Option.some.inj (start.trans stop.symm)) differs
    | claimed => cases start; cases stop; decide
    | withdrawn => cases start; cases stop; decide
    | requested => cases start; cases stop; decide
    | settled active writes => cases start; cases stop; exact declared id _ writes y before active
    | inserted => cases start
    | removed => cases stop

theorem Ending.settlement_status (f : Ending) (id : String) :
    (f.settlement id).status ∈ operationTransitions .running ∧
      (f.settlement id).status ∉ operationTransitions .cancelling := by
  cases f with
  | deployed result failed => cases failed <;> simp [Ending.settlement, operationTransitions]
  | stalePlan | fallback | lifecycle => simp [Ending.settlement, operationTransitions]

theorem statusOfCode_status (code : AgentErrorCode) : statusOfCode code ∈ operationTransitions .running ∧
    statusOfCode code ∉ operationTransitions .cancelling := by
  cases code <;> decide

theorem finishLwaError_status (id : String) (e : LwaError) (phase : Option OperationPhase) :
    if lwaErrorCode e phase = none then (finishLwaError id e phase).status = .cancelled
    else (finishLwaError id e phase).status ∈ operationTransitions .running ∧
      (finishLwaError id e phase).status ∉ operationTransitions .cancelling := by
  unfold finishLwaError
  cases lwaErrorCode e phase with
  | none => exact if_pos rfl ▸ rfl
  | some code =>
    rw [if_neg (by simp)]
    exact statusOfCode_status code

/-- An exception other than the worker's own cancellation ends a running operation in a declared
way, unless it says that the build was cancelled. -/
theorem Raised.settlement_status (e : Raised) (id : String) (phase : Option OperationPhase)
    (other : e ≠ .operationCancelled) :
    if e.cancelsBuild phase then (e.settlement id phase).status = .cancelled
    else (e.settlement id phase).status ∈ operationTransitions .running ∧
      (e.settlement id phase).status ∉ operationTransitions .cancelling := by
  cases e with
  | operationCancelled => exact absurd rfl other
  | agentService e => exact statusOfCode_status _
  | fallback message => exact statusOfCode_status .interrupted
  | lwa e =>
    simp only [Raised.cancelsBuild, decide_eq_true_eq]
    exact finishLwaError_status id e phase
  | other message => simp [Raised.settlement, Raised.cancelsBuild, operationTransitions]

/-- A settlement that fits a running operation only. -/
theorem declared_iff_of_running {id : String} {x : Table.Settlement}
    (running : x.status ∈ operationTransitions .running) (cancelling : x.status ∉ operationTransitions .cancelling) :
    Declared s id x ↔ s.statusOf id ≠ some .cancelling := by
  constructor
  · intro declared found
    exact cancelling (declared _ found (.inr rfl))
  · intro found y status active
    rcases active with rfl | rfl
    · exact running
    · exact absurd status found

theorem declared_iff_of_cancelled {id : String} {x : Table.Settlement} (cancelled : x.status = .cancelled) :
    Declared s id x ↔ s.statusOf id ≠ some .running := by
  constructor
  · intro declared found
    have among := declared _ found (.inl rfl)
    rw [cancelled] at among
    exact absurd among (by decide)
  · intro found y status active
    rcases active with rfl | rfl
    · exact absurd status found
    · rw [cancelled]
      decide

theorem fits_of_none (free : unfit s a = none) : Fits s a := by
  intro x among
  rw [free] at among
  cases among

theorem fits_iff_of_some {x : String × OperationStatus} (bound : unfit s a = some x) :
    Fits s a ↔ s.statusOf x.1 ≠ some x.2 := by
  unfold Fits
  rw [bound]
  simp

theorem fits_iff_declared (requested : Requested s) :
    Fits s a ↔ ∀ id x, settling s a = some (id, x) → Declared s id x := by
  have one : ∀ {id x}, settling s a = some (id, x) →
      ((∀ id' x', settling s a = some (id', x') → Declared s id' x') ↔ Declared s id x) := by
    intro id x writes
    refine ⟨fun all => all id x writes, fun mine id' x' writes' => ?_⟩
    cases writes.symm.trans writes'
    exact mine
  have quiet : unfit s a = none → settling s a = none →
      (Fits s a ↔ ∀ id x, settling s a = some (id, x) → Declared s id x) := by
    intro free idle
    refine iff_of_true (fits_of_none free) fun id x writes => ?_
    cases idle.symm.trans writes
  cases a with
  | worker w act =>
    cases act with
    | proceed now =>
      cases at_ : s.workers w with
      | executing x =>
        cases pc : x.pc with
        | ending f =>
          have writes : settling s (.worker w (.proceed now)) =
              some (x.record.operationId, f.settlement x.record.operationId) := by
            simp only [settling, at_, pc]
          have bound : unfit s (.worker w (.proceed now)) = some (x.record.operationId, .cancelling) := by
            simp only [unfit, at_, pc]
          rw [fits_iff_of_some bound, one writes]
          exact (declared_iff_of_running (f.settlement_status _).1 (f.settlement_status _).2).symm
        | raised e =>
          have writes : settling s (.worker w (.proceed now)) =
              some (x.record.operationId, e.settlement x.record.operationId (s.phaseOf x.beat)) := by
            simp only [settling, at_, pc]
          rw [one writes]
          by_cases own : e = .operationCancelled
          · subst own
            exact iff_of_true (fits_of_none (by simp only [unfit, at_, pc]))
              ((declared_iff_of_cancelled rfl).mpr (requested w x at_ pc).2.2)
          · have bound : unfit s (.worker w (.proceed now)) = some (x.record.operationId,
                if e.cancelsBuild (s.phaseOf x.beat) then .running else .cancelling) := by
              simp only [unfit, at_, pc]
            rw [fits_iff_of_some bound]
            have status := e.settlement_status x.record.operationId (s.phaseOf x.beat) own
            split at status
            case isTrue cancels =>
              rw [if_pos cancels]
              exact (declared_iff_of_cancelled status).symm
            case isFalse ends =>
              rw [if_neg ends]
              exact (declared_iff_of_running status.1 status.2).symm
        | _ => exact quiet (by simp only [unfit, at_, pc]) (by simp only [settling, at_, pc])
      | interrupting now' row rows =>
        have bound : unfit s (.worker w (.proceed now)) = some (row.operationId, .cancelling) := by
          simp only [unfit, at_]
        have writes : settling s (.worker w (.proceed now)) = some (row.operationId, interruption row.operationId) := by
          simp only [settling, at_]
        rw [fits_iff_of_some bound, one writes]
        exact (declared_iff_of_running (by simp [interruption, operationTransitions])
          (by simp [interruption, operationTransitions])).symm
      | _ => exact quiet (by simp only [unfit, at_]) (by simp only [settling, at_])
    | _ => exact quiet rfl rfl
  | _ => exact quiet rfl rfl

/-- A run follows the declared state machine at each of its steps exactly if all of them fit. -/
theorem follows_iff_fits {s₀ : State} (init : Initial host s₀) :
    Run (step host) (Following host) s₀ as s ↔ Run (step host) Fits s₀ as s := by
  have start : Sound s₀ ∧ Requested s₀ :=
    ⟨init.sound, fun w x at_ => by rw [init.workers w] at at_; cases at_⟩
  have kept : ∀ x a y, Sound x ∧ Requested x → step host x a = some y → Sound y ∧ Requested y :=
    fun _ _ _ h taken => ⟨h.1.step taken, h.2.step h.1 taken⟩
  have agree : ∀ x a y, Sound x ∧ Requested x → step host x a = some y → (Follows x y ↔ Fits x a) := by
    intro x a y h taken
    rw [follows_iff_declared h.1 taken, fits_iff_declared h.2]
  constructor
  · intro run
    exact run.imp start (fun x a y h _ => kept x a y h) fun x a y h taken follows =>
      (agree x a y h taken).mp (follows y taken)
  · intro run
    refine run.imp start (fun x a y h _ => kept x a y h) fun x a y h taken fits y' taken' => ?_
    cases taken.symm.trans taken'
    exact (agree x a y h taken).mpr fits

/-! ## A run -/

/-- The restart is done and reported, and only then does a caller cancel it. -/
def cancelledTooLate : List Action :=
  takingUp 0 0 5 ++ [.worker 0 (.proceed 6), .worker 0 (.proceed 6), .worker 0 (.proceed 6), .worker 0 (.proceed 6),
    .worker 0 .worked, .worker 0 (.proceed 7), .worker 0 (.proceed 7), .cancel 0 (.call "local-owner" "op"),
    .cancel 0 (.proceed 8), .cancel 0 (.proceed 8)]

/-- A cancelling operation succeeds. -/
theorem cancelling_succeeds : ¬∀ (as : List Action) (s : State), Run (step soloHost) anyStep oneRestart as s →
    Run (step soloHost) (Following soloHost) oneRestart as s := by
  intro all
  have ran : ∃ s t, exec (step soloHost) oneRestart cancelledTooLate = some s ∧
      step soloHost s (.worker 0 (.proceed 9)) = some t ∧
      s.statusOf "op" = some .cancelling ∧ t.statusOf "op" = some .succeeded := ⟨_, _, rfl, rfl, rfl, rfl⟩
  obtain ⟨s, t, ran, taken, before, after⟩ := ran
  have follows := (all _ t ((Run.of_exec ran).snoc trivial taken)).meets_last ran
  exact absurd (follows t taken "op" _ _ before after (by decide)) (by decide)

/-- Without the request the same restart succeeds from running. -/
theorem follows_iff_fits_restart : ∃ t,
    Run (step soloHost) (Following soloHost) oneRestart (cancelledTooLate.take 14 ++ [.worker 0 (.proceed 9)]) t ∧
      t.statusOf "op" = some .succeeded := by
  have ran : ∃ t, exec (Run.guarded (step soloHost) Fits) oneRestart
      (cancelledTooLate.take 14 ++ [.worker 0 (.proceed 9)]) = some t ∧ t.statusOf "op" = some .succeeded :=
    ⟨_, rfl, rfl⟩
  obtain ⟨t, ran, status⟩ := ran
  exact ⟨t, (follows_iff_fits oneRestart_initial).mpr (.of_guarded ran), status⟩

end LocalWebAccess.AgentOperations
