import LocalWebAccess.GuardedRuns
import LocalWebAccess.Models

/-!
# Self-healing beside the stop of an instance

`reconcile` reads the row of an instance, observes the service, reads the desired
state once more and only then waits for `instance_lock`, first in the rollback to
the last good image and then in `start_instance`. Neither of the two looks at the
desired state under the lock. Any number of users stop and start the instance in
the meantime.
-/
namespace LocalWebAccess.ReconcileStop
open GuardedRuns

/-- Processes that take `instance_lock`. -/
inductive Holder where
  | daemon
  | user (i : ℕ)
  deriving DecidableEq, Repr

/-- The reconciliation of the instance, by what it does next. -/
inductive Daemon where
  | idle
  | selected
  | observed
  | checked
  | restarting
  | rollingBack
  | starting
  deriving DecidableEq, Repr

def Daemon.holds : Daemon → Bool
  | rollingBack | starting => true
  | _ => false

/-- The writes of the operations that start the service. Their paths make them in different
orders, and a failed attempt makes some of them and takes the service down again. -/
inductive StartWrite where
  | service (up : Bool)
  | manifest
  | row
  deriving DecidableEq, Repr

/-- The writes of `stop_instance`. -/
inductive StopWrite where
  | service
  | manifest
  | row
  deriving DecidableEq, Repr

def stopWrites : List StopWrite := [.service, .manifest, .row]

inductive UserOp where
  | stop
  | start
  deriving DecidableEq, Repr

inductive User where
  | absent
  | waiting (op : UserOp)
  | stopping (rest : List StopWrite)
  | starting
  deriving DecidableEq, Repr

structure State where
  row : DesiredState
  manifest : DesiredState
  serving : Bool
  lock : Option Holder
  daemon : Daemon
  users : ℕ → User
  /-- A stop has returned, and no start of a user has come to the lock since. -/
  stopped : Bool

inductive Action where
  | readRow
  | observe (deviates : Bool)
  | recheck
  | yield
  | declineRollback
  | daemonAcquire
  | daemonTimeout
  | daemonWrite (write : StartWrite)
  | daemonRelease (recovered : Bool)
  | call (i : ℕ) (op : UserOp)
  | userAcquire (i : ℕ)
  | userTimeout (i : ℕ)
  | userStop (i : ℕ)
  | stopReturn (i : ℕ)
  | userStart (i : ℕ) (write : StartWrite)
  | userRelease (i : ℕ)
  deriving Repr

def start (row manifest : DesiredState) (serving : Bool) : State where
  row := row
  manifest := manifest
  serving := serving
  lock := none
  daemon := .idle
  users := fun _ => .absent
  stopped := false

namespace State

def startWrite (s : State) : StartWrite → State
  | .service up => { s with serving := up }
  | .manifest => { s with manifest := .running }
  | .row => { s with row := .running }

def stopWrite (s : State) : StopWrite → State
  | .service => { s with serving := false }
  | .manifest => { s with manifest := .stopped }
  | .row => { s with row := .stopped }

def setUser (s : State) (i : ℕ) (user : User) : State :=
  { s with users := Function.update s.users i user }

end State

open State in
def step (s : State) : Action → Option State
  | .readRow =>
    if s.daemon = .idle then
      some { s with daemon := if s.row = .running then .selected else .idle }
    else none
  | .observe deviates =>
    if s.daemon = .selected then
      some { s with daemon := if deviates then .observed else .idle }
    else none
  | .recheck =>
    -- `fresh = registry.get_instance(iid)`: a desired state other than running ends the turn
    if s.daemon = .observed then
      some { s with daemon := if s.row = .running then .checked else .idle }
    else none
  | .yield =>
    -- a manual build holds the instance, or a call raises
    if s.daemon.holds then none else some { s with daemon := .idle }
  | .declineRollback =>
    if s.daemon = .checked then some { s with daemon := .restarting } else none
  | .daemonAcquire =>
    match s.lock, s.daemon with
    | none, .checked => some { s with daemon := .rollingBack, lock := some .daemon }
    | none, .restarting => some { s with daemon := .starting, lock := some .daemon }
    | _, _ => none
  | .daemonTimeout =>
    match s.daemon with
    | .checked => some { s with daemon := .restarting }
    | .restarting => some { s with daemon := .idle }
    | _ => none
  | .daemonWrite write => if s.daemon.holds then some (s.startWrite write) else none
  | .daemonRelease recovered =>
    match s.daemon with
    | .rollingBack =>
      some { s with daemon := if recovered then .idle else .restarting, lock := none }
    | .starting => some { s with daemon := .idle, lock := none }
    | _ => none
  | .call i op => if s.users i = .absent then some (s.setUser i (.waiting op)) else none
  | .userAcquire i =>
    match s.lock, s.users i with
    | none, .waiting .stop =>
      some { s.setUser i (.stopping stopWrites) with lock := some (.user i) }
    | none, .waiting .start =>
      some { s.setUser i .starting with lock := some (.user i), stopped := false }
    | _, _ => none
  | .userTimeout i =>
    match s.users i with
    | .waiting _ => some (s.setUser i .absent)
    | _ => none
  | .userStop i =>
    match s.users i with
    | .stopping (write :: rest) => some ((s.stopWrite write).setUser i (.stopping rest))
    | _ => none
  | .stopReturn i =>
    match s.users i with
    | .stopping [] => some { s.setUser i .absent with lock := none, stopped := true }
    | _ => none
  | .userStart i write => if s.users i = .starting then some (s.startWrite write) else none
  | .userRelease i =>
    -- the end of a start, or a start or a stop that raises
    match s.users i with
    | .stopping _ | .starting => some { s.setUser i .absent with lock := none }
    | _ => none

/-- The desired state that the daemon has read last is still that of the row when it gets the
lock. -/
def Rechecked (s : State) : Action → Prop
  | .daemonAcquire => s.row = .running
  | _ => True

/-- What the user has stopped stays stopped. -/
def StaysStopped (s : State) : Prop :=
  s.stopped → s.row = .stopped ∧ s.manifest = .stopped ∧ s.serving = false

/-! ## The invariant -/

/-- The progress of a stop whose remaining writes are given. -/
structure StopInv (s : State) (i : ℕ) (rest : List StopWrite) : Prop where
  holder : s.lock = some (.user i)
  service : .service ∉ rest → s.serving = false
  manifest : .manifest ∉ rest → s.manifest = .stopped
  row : .row ∉ rest → s.row = .stopped

structure StartInv (s : State) (holder : Holder) : Prop where
  holder : s.lock = some holder
  wanted : s.stopped = false

structure Inv (s : State) : Prop where
  stays : StaysStopped s
  daemon : s.daemon.holds → StartInv s .daemon
  starting : ∀ {i}, s.users i = .starting → StartInv s (.user i)
  stopping : ∀ {i rest}, s.users i = .stopping rest → StopInv s i rest

theorem start_inv (row manifest : DesiredState) (serving : Bool) : Inv (start row manifest serving) where
  stays := nofun
  daemon := nofun
  starting := nofun
  stopping := nofun

section steps

variable {s t : State} {i : ℕ}

/-- The daemon goes on without the lock. -/
theorem daemon_inv (h : Inv s) (daemon : Daemon) (free : daemon.holds = false) :
    Inv { s with daemon := daemon } where
  stays := h.stays
  daemon := fun holds => by
    have : daemon.holds = true := holds
    rw [free] at this
    contradiction
  starting := fun found => ⟨(h.starting found).holder, (h.starting found).wanted⟩
  stopping := fun found =>
    have before := h.stopping found
    ⟨before.holder, before.service, before.manifest, before.row⟩

/-- A user comes or goes without the lock. -/
theorem user_inv (h : Inv s) {user : User} (idle : ∀ rest, user ≠ .stopping rest) (calm : user ≠ .starting) :
    Inv (s.setUser i user) := by
  have kept : ∀ {j}, ((s.setUser i user).users j = .starting ∨ ∃ rest, (s.setUser i user).users j = .stopping rest) →
      (s.setUser i user).users j = s.users j := by
    intro j busy
    apply Function.update_of_ne
    intro same
    subst same
    simp only [State.setUser, Function.update_self] at busy
    rcases busy with busy | ⟨rest, busy⟩
    · exact calm busy
    · exact idle rest busy
  refine ⟨h.stays, fun holds => ?_, fun found => ?_, fun {j rest} found => ?_⟩
  · exact ⟨(h.daemon holds).holder, (h.daemon holds).wanted⟩
  · rw [kept (.inl found)] at found
    exact ⟨(h.starting found).holder, (h.starting found).wanted⟩
  · rw [kept (.inr ⟨rest, found⟩)] at found
    have before := h.stopping found
    exact ⟨before.holder, before.service, before.manifest, before.row⟩

/-- Only the holder of the lock is inside. -/
theorem Inv.inside (h : Inv s) {holder : Option Holder} (held : s.lock = holder) :
    (s.daemon.holds → holder = some .daemon) ∧ (∀ i, s.users i = .starting → holder = some (.user i)) ∧
      ∀ i rest, s.users i = .stopping rest → holder = some (.user i) := by
  subst held
  exact ⟨fun holds => (h.daemon holds).holder, fun i found => (h.starting found).holder,
    fun i rest found => (h.stopping found).holder⟩

/-- A start writes while nobody stops. -/
theorem startWrite_inv (h : Inv s) (wanted : s.stopped = false) (others : ∀ i rest, s.users i ≠ .stopping rest)
    (write : StartWrite) : Inv (s.startWrite write) := by
  have lock : (s.startWrite write).lock = s.lock := by cases write <;> rfl
  have stopped : (s.startWrite write).stopped = s.stopped := by cases write <;> rfl
  have daemon : (s.startWrite write).daemon = s.daemon := by cases write <;> rfl
  have users : (s.startWrite write).users = s.users := by cases write <;> rfl
  refine ⟨fun stop => ?_, fun holds => ?_, fun found => ?_, fun {j rest} found => ?_⟩
  · rw [stopped, wanted] at stop
    contradiction
  · rw [daemon] at holds
    exact ⟨lock.trans (h.daemon holds).holder, stopped.trans wanted⟩
  · rw [users] at found
    exact ⟨lock.trans (h.starting found).holder, stopped.trans wanted⟩
  · rw [users] at found
    exact absurd found (others j rest)

theorem daemonWrite_inv (h : Inv s) (holds : s.daemon.holds) (write : StartWrite) : Inv (s.startWrite write) := by
  have held := h.daemon holds
  refine startWrite_inv h held.wanted (fun i rest found => ?_) write
  have := (h.inside held.holder).2.2 i rest found
  simp at this

theorem userStart_inv (h : Inv s) (found : s.users i = .starting) (write : StartWrite) :
    Inv (s.startWrite write) := by
  have held := h.starting found
  refine startWrite_inv h held.wanted (fun j rest found' => ?_) write
  have same := (h.inside held.holder).2.2 j rest found'
  obtain rfl : i = j := by simpa using same
  simp [found] at found'

theorem userStop_inv (h : Inv s) {write : StopWrite} {rest : List StopWrite}
    (found : s.users i = .stopping (write :: rest)) : Inv ((s.stopWrite write).setUser i (.stopping rest)) := by
  have own := h.stopping found
  have alone := h.inside own.holder
  refine ⟨?_, fun holds => ?_, fun {j} found' => ?_, fun {j rest'} found' => ?_⟩
  · intro stop
    cases write
    all_goals
      obtain ⟨row, manifest, serving⟩ := h.stays stop
      exact ⟨by first | exact row | rfl, by first | exact manifest | rfl, by first | exact serving | rfl⟩
  · have := alone.1 (by cases write <;> exact holds)
    simp at this
  · by_cases same : j = i
    · subst same
      simp [State.setUser] at found'
    · have before : s.users j = .starting := by cases write <;> simpa [State.setUser, State.stopWrite,
        same] using found'
      have := alone.2.1 j before
      simp at this
      exact absurd this.symm same
  · by_cases same : j = i
    · subst same
      obtain rfl : rest = rest' := by simpa [State.setUser] using found'
      cases write with
      | service =>
        exact ⟨own.holder, fun _ => rfl, fun left => own.manifest (by simp [left]),
          fun left => own.row (by simp [left])⟩
      | manifest =>
        exact ⟨own.holder, fun left => own.service (by simp [left]), fun _ => rfl, fun left => own.row (by simp [left])⟩
      | row =>
        exact ⟨own.holder, fun left => own.service (by simp [left]), fun left => own.manifest (by simp [left]),
          fun _ => rfl⟩
    · have before : s.users j = .stopping rest' := by
        cases write <;> simpa [State.setUser, State.stopWrite, same] using found'
      have := alone.2.2 j rest' before
      simp at this
      exact absurd this.symm same

/-- The daemon has read the desired state again before it gets the lock. -/
theorem daemonAcquire_inv (h : Inv s) (free : s.lock = none) (row : s.row = .running) (daemon : Daemon) :
    Inv { s with daemon := daemon, lock := some .daemon } := by
  have wanted : s.stopped = false := by
    by_contra stop
    rw [Bool.not_eq_false] at stop
    have := (h.stays stop).1
    simp [row] at this
  have nobody := h.inside free
  refine ⟨h.stays, fun _ => ⟨rfl, wanted⟩, fun {j} found => ?_, fun {j rest} found => ?_⟩
  · have := nobody.2.1 j found
    contradiction
  · have := nobody.2.2 j rest found
    contradiction

theorem daemonRelease_inv (h : Inv s) (holds : s.daemon.holds) (daemon : Daemon) (free : daemon.holds = false) :
    Inv { s with daemon := daemon, lock := none } := by
  have alone := h.inside (h.daemon holds).holder
  refine ⟨h.stays, fun holds' => ?_, fun {j} found => ?_, fun {j rest} found => ?_⟩
  · have : daemon.holds = true := holds'
    rw [free] at this
    contradiction
  · have := alone.2.1 j found
    simp at this
  · have := alone.2.2 j rest found
    simp at this

theorem setUser_eq {user found : User} {j : ℕ} (other : j ≠ i) (h : (s.setUser i user).users j = found) :
    s.users j = found := by
  rw [← h]
  exact (Function.update_of_ne other _ _).symm

theorem stopAcquire_inv (h : Inv s) (free : s.lock = none) :
    Inv { s.setUser i (.stopping stopWrites) with lock := some (.user i) } := by
  have nobody := h.inside free
  refine ⟨h.stays, fun holds => ?_, fun {j} found => ?_, fun {j rest} found => ?_⟩
  · have := nobody.1 holds
    contradiction
  · by_cases same : j = i
    · subst same
      simp [State.setUser] at found
    · have := nobody.2.1 j (setUser_eq same found)
      contradiction
  · by_cases same : j = i
    · subst same
      obtain rfl : stopWrites = rest := by simpa [State.setUser] using found
      refine ⟨rfl, fun left => ?_, fun left => ?_, fun left => ?_⟩
      all_goals simp [stopWrites] at left
    · have := nobody.2.2 j rest (setUser_eq same found)
      contradiction

theorem startAcquire_inv (h : Inv s) (free : s.lock = none) :
    Inv { s.setUser i .starting with lock := some (.user i), stopped := false } := by
  have nobody := h.inside free
  refine ⟨nofun, fun holds => ?_, fun {j} found => ?_, fun {j rest} found => ?_⟩
  · have := nobody.1 holds
    contradiction
  · by_cases same : j = i
    · subst same
      exact ⟨rfl, rfl⟩
    · have := nobody.2.1 j (setUser_eq same found)
      contradiction
  · by_cases same : j = i
    · subst same
      simp [State.setUser] at found
    · have := nobody.2.2 j rest (setUser_eq same found)
      contradiction

/-- A user leaves the lock: after the last write of a stop the instance is stopped. -/
theorem userLeave_inv (h : Inv s) (held : s.lock = some (.user i)) {stopped : Bool}
    (stays : stopped → s.row = .stopped ∧ s.manifest = .stopped ∧ s.serving = false) :
    Inv { s.setUser i .absent with lock := none, stopped := stopped } := by
  have alone := h.inside held
  have left : ∀ {j}, j ≠ i → (some (Holder.user i) : Option Holder) ≠ some (.user j) := by
    intro j other same
    simp at same
    exact other same.symm
  refine ⟨stays, fun holds => ?_, fun {j} found => ?_, fun {j rest} found => ?_⟩
  · have := alone.1 holds
    simp at this
  · by_cases same : j = i
    · subst same
      simp [State.setUser] at found
    · exact absurd (alone.2.1 j (setUser_eq same found)) (left same)
  · by_cases same : j = i
    · subst same
      simp [State.setUser] at found
    · exact absurd (alone.2.2 j rest (setUser_eq same found)) (left same)

end steps

theorem step_inv {s t : State} {a : Action} (h : Inv s) (rechecked : Rechecked s a) (taken : step s a = some t) :
    Inv t := by
  cases a with
  | readRow | observe | recheck =>
    simp only [step, Option.ite_none_right_eq_some, Option.some.injEq] at taken
    obtain ⟨-, rfl⟩ := taken
    apply daemon_inv h
    split <;> rfl
  | yield =>
    simp only [step, Option.ite_none_left_eq_some, Option.some.injEq] at taken
    obtain ⟨-, rfl⟩ := taken
    exact daemon_inv h .idle rfl
  | declineRollback =>
    simp only [step, Option.ite_none_right_eq_some, Option.some.injEq] at taken
    obtain ⟨-, rfl⟩ := taken
    exact daemon_inv h .restarting rfl
  | daemonAcquire =>
    simp only [step] at taken
    split at taken
    · rename_i free _
      obtain rfl := Option.some.inj taken
      exact daemonAcquire_inv h free rechecked .rollingBack
    · rename_i free _
      obtain rfl := Option.some.inj taken
      exact daemonAcquire_inv h free rechecked .starting
    · cases taken
  | daemonTimeout =>
    simp only [step] at taken
    split at taken
    · obtain rfl := Option.some.inj taken
      exact daemon_inv h .restarting rfl
    · obtain rfl := Option.some.inj taken
      exact daemon_inv h .idle rfl
    · cases taken
  | daemonWrite write =>
    simp only [step, Option.ite_none_right_eq_some, Option.some.injEq] at taken
    obtain ⟨holds, rfl⟩ := taken
    exact daemonWrite_inv h holds write
  | daemonRelease recovered =>
    simp only [step] at taken
    split at taken
    · rename_i daemon
      obtain rfl := Option.some.inj taken
      refine daemonRelease_inv h (by rw [daemon]; rfl) _ ?_
      split <;> rfl
    · rename_i daemon
      obtain rfl := Option.some.inj taken
      exact daemonRelease_inv h (by rw [daemon]; rfl) .idle rfl
    · cases taken
  | call i op =>
    simp only [step, Option.ite_none_right_eq_some, Option.some.injEq] at taken
    obtain ⟨-, rfl⟩ := taken
    exact user_inv h nofun nofun
  | userAcquire i =>
    simp only [step] at taken
    split at taken
    · rename_i free _
      obtain rfl := Option.some.inj taken
      exact stopAcquire_inv h free
    · rename_i free _
      obtain rfl := Option.some.inj taken
      exact startAcquire_inv h free
    · cases taken
  | userTimeout i =>
    simp only [step] at taken
    split at taken
    · obtain rfl := Option.some.inj taken
      exact user_inv h nofun nofun
    · cases taken
  | userStop i =>
    simp only [step] at taken
    split at taken
    · rename_i found
      obtain rfl := Option.some.inj taken
      exact userStop_inv h found
    · cases taken
  | stopReturn i =>
    simp only [step] at taken
    split at taken
    · rename_i found
      obtain rfl := Option.some.inj taken
      have done := h.stopping found
      exact userLeave_inv h done.holder fun _ => ⟨done.row nofun, done.manifest nofun, done.service nofun⟩
    · cases taken
  | userStart i write =>
    simp only [step, Option.ite_none_right_eq_some, Option.some.injEq] at taken
    obtain ⟨found, rfl⟩ := taken
    exact userStart_inv h found write
  | userRelease i =>
    simp only [step] at taken
    split at taken
    · rename_i found
      obtain rfl := Option.some.inj taken
      exact userLeave_inv h (h.stopping found).holder h.stays
    · rename_i found
      obtain rfl := Option.some.inj taken
      exact userLeave_inv h (h.starting found).holder h.stays
    · cases taken

/-- If the row still says running whenever the daemon gets the lock, what a user has stopped stays
stopped. -/
theorem rechecked_heal_stays_stopped {row manifest : DesiredState} {serving : Bool} {as : List Action} {s : State}
    (h : Run step Rechecked (start row manifest serving) as s) : StaysStopped s :=
  (h.invariant (start_inv row manifest serving) (fun _ _ _ inv rechecked taken => step_inv inv rechecked taken)).stays

/-- A stop that returns between the second look at the desired state and the lock is undone. -/
theorem reconcile_revives_stopped :
    ¬ ∀ row manifest serving as s, exec step (start row manifest serving) as = some s → StaysStopped s := by
  intro claim
  obtain ⟨s, run, stopped, row⟩ : ∃ s, exec step (start .running .running false)
      [.readRow, .observe true, .recheck, .call 0 .stop, .userAcquire 0, .declineRollback, .userStop 0, .userStop 0,
        .userStop 0, .stopReturn 0, .daemonAcquire, .daemonWrite (.service true), .daemonWrite .manifest,
        .daemonWrite .row, .daemonRelease true] = some s ∧ s.stopped = true ∧ s.row = .running := ⟨_, rfl, rfl, rfl⟩
  have := (claim _ _ _ _ s run stopped).1
  rw [row] at this
  contradiction

/-- A stop after a recovery, and the next round of the daemon. -/
theorem rechecked_heal_stays_stopped_round : ∃ s : State, s.stopped = true ∧ s.serving = false ∧ StaysStopped s := by
  obtain ⟨s, run, stopped, serving⟩ : ∃ s, Run step Rechecked (start .running .running false)
      [.readRow, .observe true, .recheck, .declineRollback, .daemonAcquire, .daemonWrite (.service true),
        .daemonWrite .manifest, .daemonWrite .row, .daemonRelease true, .call 0 .stop, .userAcquire 0, .userStop 0,
        .userStop 0, .userStop 0, .stopReturn 0, .readRow] s ∧ s.stopped = true ∧ s.serving = false := by
    refine ⟨_, .cons trivial rfl <| .cons trivial rfl <| .cons trivial rfl <| .cons trivial rfl <| .cons rfl rfl <|
      .cons trivial rfl <| .cons trivial rfl <| .cons trivial rfl <| .cons trivial rfl <| .cons trivial rfl <|
      .cons trivial rfl <| .cons trivial rfl <| .cons trivial rfl <| .cons trivial rfl <| .cons trivial rfl <|
      .cons trivial rfl <| .refl _, rfl, rfl⟩
  exact ⟨s, stopped, serving, rechecked_heal_stays_stopped run⟩

end LocalWebAccess.ReconcileStop
