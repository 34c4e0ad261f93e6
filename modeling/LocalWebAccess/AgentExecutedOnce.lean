import LocalWebAccess.AgentStatusMoves

/-!
# An operation is executed at most once and settles at most once

The status of an operation only moves on. What holds of one step by `Moves.status` is carried along
whole runs, in which any number of workers claim, finish, die and recover.
-/
namespace LocalWebAccess.AgentOperations
open GuardedRuns

variable {host : Host} {s t u : State} {a : Action} {as : List Action} {op : String}

/-- A claim of the operation succeeds. -/
def claims (op : String) (s : State) (a : Action) (t : State) : Bool :=
  match a with
  | .worker w (.proceed _) => decide (s.workers w = .claiming ∧ t.workers w = .reading op)
  | _ => false

/-- The operation becomes terminal. -/
def settles (op : String) (s : State) (_ : Action) (t : State) : Bool :=
  (s.statusOf op).any (fun x => !x.terminal) && (t.statusOf op).any fun x => x.terminal

/-- The sweep deletes the operation. -/
def sweeps (op : String) (s : State) (a : Action) (_ : State) : Bool := decide (op ∈ sweeping s a)

/-- A claim finds the operation queued and leaves it running. -/
theorem claim_of_step (taken : step host s a = some t) (claim : claims op s a t = true) :
    s.statusOf op = some .queued ∧ t.statusOf op = some .running := by
  unfold claims at claim
  split at claim
  case h_2 => cases claim
  case h_1 w now =>
    obtain ⟨from_, to_⟩ := of_decide_eq_true claim
    change workerStep host s w (.proceed now) = some t at taken
    unfold workerStep at taken
    rw [from_] at taken
    simp only [loopStep] at taken
    split at taken
    · cases taken
    split at taken
    · cases taken
      rw [setWorker_self] at to_
      cases to_
    case h_2 id ops found =>
      cases taken
      rw [setWorker_self] at to_
      cases to_
      obtain ⟨⟨r, held, queued⟩, rfl⟩ := Table.claim_cases found
      refine ⟨by rw [State.statusOf, held, Option.map_some, queued], ?_⟩
      refine (statusIn_update _ _).trans ?_
      rw [held, Option.map_some, if_pos]
      simp [queued, (Table.get_iff.mp held).2]

/-- No step brings an operation back to the queue. -/
theorem not_queued_of_step (sound : Sound s) (known : op ∈ s.issued) (taken : step host s a = some t)
    (left : s.statusOf op ≠ some .queued) : t.statusOf op ≠ some .queued := by
  have status := (step_change sound taken).status op
  generalize s.statusOf op = x at status left
  generalize t.statusOf op = y at status
  cases status with
  | same => exact left
  | claimed | withdrawn | requested | removed => simp
  | settled active writes =>
    intro queued
    have terminal := settling_terminal writes
    rw [Option.some.inj queued] at terminal
    cases terminal
  | inserted fresh => exact absurd known fresh

/-- The operation is in the table and not terminal. -/
def Active (op : String) (s : State) : Prop := (s.statusOf op).any (fun x => !x.terminal) = true

/-- No step revives an operation. -/
theorem not_active_of_step (sound : Sound s) (known : op ∈ s.issued) (taken : step host s a = some t)
    (over_ : ¬Active op s) : ¬Active op t := by
  unfold Active at over_ ⊢
  have status := (step_change sound taken).status op
  generalize s.statusOf op = x at status over_
  generalize t.statusOf op = y at status
  cases status with
  | same => exact over_
  | claimed | withdrawn | requested => exact absurd rfl over_
  | settled active writes => exact absurd (by rcases active with rfl | rfl <;> rfl) over_
  | inserted fresh => exact absurd known fresh
  | removed => simp

theorem kept_of_step (sound : Sound s) {x : OperationStatus} (status : s.statusOf op = some x)
    (terminal : x.terminal = true) (taken : step host s a = some t) :
    t.statusOf op = some x ∨ (t.statusOf op = none ∧ sweeps op s a t = true) := by
  have move := (step_change sound taken).status op
  rw [status] at move
  rcases move.terminal terminal with kept | ⟨gone, swept⟩
  · exact .inl kept
  · exact .inr ⟨gone, decide_eq_true swept⟩

/-! ## Runs -/

/-- A state of a run in which the operation has been drawn. -/
def Drawn (op : String) (s : State) : Prop := Sound s ∧ op ∈ s.issued

theorem Drawn.step (h : Drawn op s) (taken : step host s a = some t) : Drawn op t :=
  ⟨h.1.step taken, (step_change h.1 taken).drawn op h.2⟩

theorem drawn_of_run (init : Initial host s) (run : Run (step host) anyStep s as t)
    {x : OperationStatus} (status : t.statusOf op = some x) : Drawn op t := by
  have sound := run.invariant init.sound fun _ _ _ h _ taken => h.step taken
  obtain ⟨r, among, rfl, -⟩ := exists_row status
  exact ⟨sound, sound.drawn r among⟩

/-- A terminal operation keeps its status until it is swept. -/
theorem settled_of_run (drawn : Drawn op s) {x : OperationStatus} (status : s.statusOf op = some x)
    (terminal : x.terminal = true) (run : Run (step host) anyStep s as t) :
    t.statusOf op = some x ∨ (t.statusOf op = none ∧ 0 < occurrences (step host) (sweeps op) s as) := by
  induction run with
  | refl => exact .inl status
  | @cons s u t a as meets taken tail ih =>
    unfold occurrences
    rw [taken]
    simp only
    rcases kept_of_step drawn.1 status terminal taken with kept | ⟨gone, swept⟩
    · rcases ih (drawn.step taken) kept with kept | ⟨gone, swept⟩
      · exact .inl kept
      · exact .inr ⟨gone, Nat.lt_of_lt_of_le swept (Nat.le_add_left _ _)⟩
    · rw [if_pos swept]
      refine .inr ⟨?_, Nat.lt_of_lt_of_le Nat.one_pos (Nat.le_add_right _ _)⟩
      have absent := tail.invariant (P := fun s => Drawn op s ∧ s.statusOf op = none) ⟨drawn.step taken, gone⟩
        fun x a y h _ taken => ⟨h.1.step taken, ((step_change h.1.1 taken).status op |> fun move =>
          (h.2 ▸ move).gone h.1.2)⟩
      exact absent.2

/-- An operation that was queued is claimed at most once, never returns to the queue, and settles
once for all: its terminal status stays until the operation is swept. -/
theorem executed_and_settled_once {pre : List Action} {s₀ : State} (init : Initial host s₀)
    (before : Run (step host) anyStep s₀ pre s) (queued : s.statusOf op = some .queued)
    (run : Run (step host) anyStep s as t) :
    occurrences (step host) (claims op) s as ≤ 1 ∧ occurrences (step host) (settles op) s as ≤ 1 ∧
      ∀ front back u, as = front ++ back → Run (step host) anyStep s front u → Run (step host) anyStep u back t →
        (u.statusOf op ≠ some .queued → t.statusOf op ≠ some .queued) ∧
        ∀ x, u.statusOf op = some x → x.terminal = true → t.statusOf op = some x ∨
          (t.statusOf op = none ∧ 0 < occurrences (step host) (sweeps op) u back) := by
  have drawn := drawn_of_run init before queued
  refine ⟨?_, ?_, fun front back u _ first second => ?_⟩
  · refine run.occurrences_le_one (P := fun s => s.statusOf op = some .queued) drawn
      (fun _ _ _ h _ taken => h.step taken) (fun _ _ _ taken claim => (claim_of_step taken claim).1)
      (fun x a y taken claim again => ?_) fun _ _ _ h taken => not_queued_of_step h.1 h.2 taken
    cases (claim_of_step taken claim).2.symm.trans again
  · refine run.occurrences_le_one (P := Active op) drawn (fun _ _ _ h _ taken => h.step taken)
      (fun _ _ _ taken settle => (Bool.and_eq_true_iff.mp settle).1) (fun x a y taken settle active => ?_)
      fun _ _ _ h taken => not_active_of_step h.1 h.2 taken
    have terminal := (Bool.and_eq_true_iff.mp settle).2
    unfold Active at active
    cases status : y.statusOf op with
    | none => rw [status] at terminal; cases terminal
    | some z =>
      rw [status] at terminal active
      simp only [Option.any_some] at terminal active
      rw [terminal] at active
      cases active
  · have drawn' := first.invariant drawn fun _ _ _ h _ taken => h.step taken
    exact ⟨fun left => (second.invariant (P := fun s => Drawn op s ∧ s.statusOf op ≠ some .queued) ⟨drawn', left⟩
      fun _ _ _ h _ taken => ⟨h.1.step taken, not_queued_of_step h.1.1 h.1.2 taken h.2⟩).2,
      fun x status terminal => settled_of_run drawn' status terminal second⟩

/-! ## A run -/

/-- A restart of an instance that waits in the queue. -/
def queuedRestart (id : String) : OperationRow where
  operationId := id
  principalId := "local-owner"
  workspaceId := "workspace"
  action := .restart
  requestHash := "digest of " ++ id
  idempotencyKey := "key of " ++ id
  planId := none
  createdAt := 0
  payload := some (.lifecycle .restart "site" 1)
  targetInstanceId := some "site"
  status := .queued
  phase := none
  updatedAt := 0
  workerIdentity := none
  leaseUntil := none
  buildToken := none
  result := none
  error := none

/-- The process of a worker has the worker's number. -/
def soloHost : Host where
  identity p := ⟨p, "token"⟩
  process w := w
  workspaceId := "workspace"
  scopes _ := ["instances:read", "deploy:create", "deploy:update", "instances:operate", "logs:read"]
  maxPendingOperations := 2
  leaseSeconds := 30
  sha256 text := String.ofList text

/-- A worker that starts its loop at the given time claims what is queued. -/
def claiming (w : WorkerId) (now : ℕ) : List Action :=
  [.worker w (.proceed now), .worker w (.proceed now), .worker w (.proceed now), .worker w (.proceed now)]

/-- A worker takes up an operation it has claimed. -/
def takingUp (w : WorkerId) (h : BeatId) (now : ℕ) : List Action :=
  claiming w now ++ [.worker w (.proceed now), .worker w (.proceed now), .worker w (.begin_ h)]

def oneRestart : State := .initial (.single (queuedRestart "op")) [] fun _ => some 1

theorem oneRestart_initial : Initial soloHost oneRestart :=
  State.initial_of_unclaimed _ _ _ fun r among => by rw [List.mem_singleton.mp among]; rfl

def claimRace : List Action :=
  [.worker 1 (.proceed 5), .worker 1 (.proceed 5)] ++ claiming 0 5 ++
    [.worker 1 (.proceed 6), .worker 1 (.proceed 6)]

/-- Two workers look for work at once and one of them claims it. -/
theorem executed_and_settled_once_race : ∃ t,
    Run (step soloHost) anyStep oneRestart claimRace t ∧ t.statusOf "op" = some .running ∧
      t.workers 1 = .resting ∧ occurrences (step soloHost) (claims "op") oneRestart claimRace ≤ 1 := by
  have ran : ∃ t, exec (step soloHost) oneRestart claimRace = some t ∧ t.statusOf "op" = some .running ∧
      t.workers 1 = .resting := ⟨_, rfl, rfl, rfl⟩
  obtain ⟨t, ran, status, rests⟩ := ran
  exact ⟨t, .of_exec ran, status, rests,
    (executed_and_settled_once oneRestart_initial (.refl _) rfl (.of_exec ran)).1⟩

end LocalWebAccess.AgentOperations
