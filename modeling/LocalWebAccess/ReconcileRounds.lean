import LocalWebAccess.GuardedRuns
import LocalWebAccess.Models
import LocalWebAccess.RaisingPrograms
import Mathlib.Algebra.Group.Nat.Defs
import Mathlib.Data.Rat.Defs

/-!
# The rounds of the daemon

`reconcile` goes through the rows of the registry and heals the instances that
should run and do not. A failed recovery is recorded with a delay that doubles;
whatever the handler of that failure or a call in front of the `try` raises ends
the round.
-/
namespace LocalWebAccess.ReconcileRounds
open GuardedRuns RaisingPrograms

/-- A row of the registry. The time is that of `updated_at` where it parses. -/
structure Row where
  id : String
  desired : DesiredState
  runtime : Runtime
  status : Status
  updatedAt : Option ℚ
  observationError : String
  runtimeAccess : String
  deriving DecidableEq, Repr

/-- `fresh.get("observation_error") or fresh.get("runtime_access")`. -/
def Row.observationBlock (row : Row) : String :=
  if row.observationError = "" then row.runtimeAccess else row.observationError

/-- A row with what the calls return or raise while it is looked at. -/
structure Visit where
  row : Row
  circuitBlocks : Except Exn Bool
  /-- `monotonic()` at the test of the backoff. -/
  reading : ℚ
  activeBuild : Except Exn Bool
  observed : Except Exn Status
  reread : Except Exn (Option Row)
  /-- `time.time()`, and `monotonic()` after it. -/
  wallTime : ℚ
  seedReading : ℚ
  recheck : Except Exn (Option Row)
  manualBuild : Except Exn Bool
  rollback : Except Exn Bool
  circuitClear : Except Exn Unit
  rollbackLogged : Except Exn Unit
  startLogged : Except Exn Unit
  restart : Except Exn Unit
  recoveryLogged : Except Exn Unit
  /-- `monotonic()` in the handler. -/
  failedReading : ℚ
  circuitRecord : Except Exn Unit
  failureLogged : Except Exn Unit

/-- The rows of a round, whose ids are a primary key, and the probes before the loop. -/
structure Round where
  fullContainersBlocked : Bool
  caddyGatewayOff : Bool
  selfHealPreferLastGood : Bool
  visits : List Visit
  distinct : (visits.map (fun v => v.row.id)).Nodup

def backoffBaseSeconds : ℕ := 60

def backoffMaxSeconds : ℕ := 3600

/-- `60.0 * (2 ** n)`: no value stands for infinity, and a power that is no float raises. -/
def backoffProduct (n : ℕ) : Except Exn (Option ℕ) :=
  if 1024 ≤ n then .error (.other "int too large to convert to float")
  else if 1019 ≤ n then .ok none
  else .ok (some (backoffBaseSeconds * 2 ^ n))

def backoffDelay (failures : ℕ) : Except Exn ℕ := do
  match ← backoffProduct (failures - 1) with
  | none => pure backoffMaxSeconds
  | some product => pure (min product backoffMaxSeconds)

/-- What a round does about an instance, the failures with their delays. -/
inductive Event where
  | recovered
  | failed (delay : ℕ)
  deriving DecidableEq, Repr

structure State where
  /-- `_reconcile_failures`: the number of failures and the time of the next try. -/
  failures : String → Option (ℕ × ℚ)
  /-- The events of an instance, the last one first. -/
  history : String → List Event
  considered : List String
  restarted : List String

namespace State

def count (s : State) (id : String) : ℕ := ((s.failures id).map Prod.fst).getD 0

/-- `_reconcile_failures.pop(failure_key, None)`. -/
def popFailures (s : State) (id : String) : State :=
  { s with
    failures := Function.update s.failures id none
    history := Function.update s.history id (.recovered :: s.history id) }

def setFailures (s : State) (id : String) (failures delay : ℕ) (reading : ℚ) : State :=
  { s with
    failures := Function.update s.failures id (some (failures, reading + delay))
    history := Function.update s.history id (.failed delay :: s.history id) }

def addRestarted (s : State) (id : String) : State := { s with restarted := s.restarted ++ [id] }

def consider (s : State) (id : String) : State := { s with considered := s.considered ++ [id] }

end State

def observationBlocks : List String :=
  ["permission_denied", "daemon_unavailable", "timeout", "unknown", "parse_error"]

inductive Verdict where
  | skip
  | recovered
  | seed
  | heal
  deriving DecidableEq, Repr

namespace Visit

def docker (v : Visit) : Bool := v.row.runtime = .dockerCompose

/-- The tests before the observation. -/
def selected (v : Visit) (round : Round) (failure : Option (ℕ × ℚ)) : Except Exn Bool := do
  if v.row.desired ≠ .running then pure false
  else if ← (if v.docker then v.circuitBlocks else pure false) then pure false
  else if failure.any (fun state => v.reading < state.2) then pure false
  else if v.docker ∧ round.fullContainersBlocked then pure false
  else if v.row.status = .pending ∨ v.row.status = .queued then pure false
  else if v.row.status = .building then return !(← v.activeBuild)
  else pure true

/-- The observed status, or `none` where the row is skipped. -/
def actual (v : Visit) : Option Status :=
  if v.docker ∨ v.row.status = .running then v.observed.toOption
  else if v.row.status = .building then some (v.observed.toOption.getD v.row.status)
  else some v.row.status

/-- The tests after the observation. -/
def judge (v : Visit) (round : Round) (failure : Option (ℕ × ℚ)) (actual : Status) (fresh : Row) : Verdict :=
  if v.docker ∧ fresh.observationBlock ∈ observationBlocks then .skip
  else if actual = .running then .recovered
  else if round.caddyGatewayOff ∧ v.row.runtime = .sharedStatic then .skip
  else if v.row.status = .failed ∧ failure = none ∧ v.row.updatedAt.getD 0 ≠ 0 ∧
      v.wallTime - v.row.updatedAt.getD 0 < backoffBaseSeconds then .seed
  else .heal

def verdict (v : Visit) (round : Round) (failure : Option (ℕ × ℚ)) : Except Exn Verdict := do
  if ← v.selected round failure then
    match v.actual with
    | none => pure .skip
    | some actual => return v.judge round failure actual ((← v.reread).getD v.row)
  else pure .skip

/-- The body of the `try`. -/
def attempt (v : Visit) (round : Round) : Prog Exn State Unit := do
  let fresh ← .ofExcept v.recheck
  if fresh.map (fun row => row.desired) ≠ some .running then pure ()
  else do
    let blocked ← .ofExcept v.manualBuild
    if blocked then pure ()
    else do
      let rolledBack ←
        (if v.docker ∧ round.selfHealPreferLastGood then .ofExcept v.rollback else pure false)
      if rolledBack then do
        .modify (fun s => s.popFailures v.row.id)
        .ofExcept v.circuitClear
        .modify (fun s => s.addRestarted v.row.id)
        .ofExcept v.rollbackLogged
      else do
        .ofExcept v.startLogged
        .ofExcept v.restart
        .modify (fun s => s.popFailures v.row.id)
        (if v.docker then .ofExcept v.circuitClear else pure ())
        .modify (fun s => s.addRestarted v.row.id)
        .ofExcept v.recoveryLogged

/-- The handler of the `try`. -/
def attemptFailed (v : Visit) : Prog Exn State Unit := do
  let s ← .get
  let failures := s.count v.row.id + 1
  let delay ← .ofExcept (backoffDelay failures)
  .modify (fun s => s.setFailures v.row.id failures delay v.failedReading)
  (if v.docker then .ofExcept v.circuitRecord else pure ())
  .ofExcept v.failureLogged

def act (v : Visit) (round : Round) : Verdict → Prog Exn State Unit
  | .skip => pure ()
  | .recovered => .modify (fun s => s.popFailures v.row.id)
  | .seed => .modify (fun s => s.setFailures v.row.id 1 backoffBaseSeconds v.seedReading)
  | .heal => (v.attempt round).handle (fun _ => v.attemptFailed)

def run (v : Visit) (round : Round) : Prog Exn State Unit := do
  .modify (fun s => s.consider v.row.id)
  let s ← .get
  let verdict ← .ofExcept (v.verdict round (s.failures v.row.id))
  v.act round verdict

end Visit

def visitAll (round : Round) : List Visit → Prog Exn State Unit
  | [] => pure ()
  | v :: visits => do
    v.run round
    visitAll round visits

def reconcile (round : Round) : Prog Exn State (List String) := do
  .modify (fun s => { s with considered := [], restarted := [] })
  visitAll round round.visits
  let s ← .get
  return s.restarted

/-- How a round has ended. -/
structure Outcome where
  listed : List String
  considered : List String
  result : Except Exn (List String)

structure Daemon where
  state : State
  rounds : List Outcome

/-- The daemon after its start. -/
def start : Daemon := ⟨⟨fun _ => none, fun _ => [], [], []⟩, []⟩

def step (daemon : Daemon) (round : Round) : Option Daemon :=
  let (result, state) := reconcile round daemon.state
  some ⟨state, daemon.rounds ++ [⟨round.visits.map (fun v => v.row.id), state.considered, result⟩]⟩

/-- The number of failures since the last recovery. -/
def consecutive : List Event → ℕ
  | [] => 0
  | .recovered :: _ => 0
  | .failed _ :: history => consecutive history + 1

/-- The delay after the `n`-th failure in a row. -/
def failureDelay (n : ℕ) : ℕ := min (60 * 2 ^ (n - 1)) 3600

/-- Every failure has the delay of its number, and none is shorter than those before. -/
def Paced (history : List Event) : Prop :=
  ∀ later delay earlier, history = later ++ .failed delay :: earlier →
    delay = failureDelay (consecutive earlier + 1) ∧ ∀ n ≤ consecutive earlier + 1, failureDelay n ≤ delay

/-- Every round returns and considers all rows, and the delays of every instance grow as they
should. -/
structure Isolated (daemon : Daemon) : Prop where
  rounds : ∀ outcome ∈ daemon.rounds, outcome.result.isOk ∧ outcome.considered = outcome.listed
  paced : ∀ id, Paced (daemon.state.history id)

/-- The recovery of the instance raises, whatever has happened before. -/
def Visit.Fails (v : Visit) (round : Round) : Prop :=
  ∀ s, ∃ e t, v.attempt round s = (.error e, t)

/-- The calls outside the `try` return, and a recovery that fails is not the 1025th in a row. -/
structure Visit.Calm (v : Visit) (round : Round) (failures : ℕ) : Prop where
  circuitBlocks : v.docker → v.circuitBlocks.isOk
  activeBuild : v.row.status = .building → v.activeBuild.isOk
  reread : v.reread.isOk
  failure : v.Fails round → failures < 1024 ∧ (v.docker → v.circuitRecord.isOk) ∧ v.failureLogged.isOk

def CalmRound (daemon : Daemon) (round : Round) : Prop :=
  ∀ v ∈ round.visits, v.row.desired = .running → v.Calm round (daemon.state.count v.row.id)

/-! ## Delays -/

theorem failureDelay_mono {m n : ℕ} (h : m ≤ n) : failureDelay m ≤ failureDelay n := by
  have : 2 ^ (m - 1) ≤ 2 ^ (n - 1) := Nat.pow_le_pow_right (by omega) (by omega)
  unfold failureDelay
  omega

theorem backoffDelay_eq {n : ℕ} (h : n ≤ 1024) : backoffDelay n = .ok (failureDelay n) := by
  have small : ¬ 1024 ≤ n - 1 := by omega
  unfold backoffDelay backoffProduct failureDelay backoffBaseSeconds backoffMaxSeconds
  by_cases large : 1019 ≤ n - 1
  · have : 2 ^ 6 ≤ 2 ^ (n - 1) := Nat.pow_le_pow_right (by omega) (by omega)
    have top : min (60 * 2 ^ (n - 1)) 3600 = 3600 := by omega
    rw [if_neg small, if_pos large, top]
    rfl
  · rw [if_neg small, if_neg large]
    rfl

/-- The power is no float any more. -/
theorem backoffDelay_overflow {n : ℕ} (h : 1025 ≤ n) : ∃ e, backoffDelay n = .error e := by
  have large : 1024 ≤ n - 1 := by omega
  refine ⟨.other "int too large to convert to float", ?_⟩
  unfold backoffDelay backoffProduct
  rw [if_pos large]
  rfl

theorem paced_nil : Paced [] := by
  intro later delay earlier split
  simp at split

theorem Paced.recovered {history : List Event} (h : Paced history) : Paced (.recovered :: history) := by
  intro later delay earlier split
  cases later with
  | nil => simp at split
  | cons event later =>
    rw [List.cons_append, List.cons.injEq] at split
    exact h later delay earlier split.2

theorem Paced.failed {history : List Event} (h : Paced history) :
    Paced (.failed (failureDelay (consecutive history + 1)) :: history) := by
  intro later delay earlier split
  cases later with
  | nil =>
    simp only [List.nil_append, List.cons.injEq, Event.failed.injEq] at split
    obtain ⟨rfl, rfl⟩ := split
    exact ⟨rfl, fun n le => failureDelay_mono le⟩
  | cons event later =>
    rw [List.cons_append, List.cons.injEq] at split
    exact h later delay earlier split.2

/-! ## One visit -/

/-- The counters are those of the events. -/
structure Inv (s : State) : Prop where
  paced : ∀ id, Paced (s.history id)
  count : ∀ id, s.count id = consecutive (s.history id)
  absent : ∀ id, s.failures id = none → consecutive (s.history id) = 0

theorem start_inv : Inv start.state := ⟨fun _ => paced_nil, fun _ => rfl, fun _ _ => rfl⟩

section visits

variable {s t : State} {v : Visit} {round : Round}

theorem Inv.frame (h : Inv s) (failures : t.failures = s.failures) (history : t.history = s.history) : Inv t where
  paced := fun id => by
    rw [history]
    exact h.paced id
  count := fun id => by
    rw [State.count, failures, history]
    exact h.count id
  absent := fun id => by
    rw [failures, history]
    exact h.absent id

theorem popFailures_inv (h : Inv s) (id : String) : Inv (s.popFailures id) := by
  refine ⟨fun id' => ?_, fun id' => ?_, fun id' none' => ?_⟩
  all_goals
    by_cases same : id' = id
    · subst same
      simp [State.popFailures, State.count, consecutive, (h.paced id').recovered]
    · have before := h.count id'
      simp only [State.count] at before
      first
        | simpa [State.popFailures, same] using h.paced id'
        | simpa [State.popFailures, State.count, same] using before
        | simpa [State.popFailures, same] using h.absent id' (by simpa [State.popFailures, same] using none')

theorem setFailures_inv (h : Inv s) (id : String) (reading : ℚ) :
    Inv (s.setFailures id (s.count id + 1) (failureDelay (s.count id + 1)) reading) := by
  refine ⟨fun id' => ?_, fun id' => ?_, fun id' none' => ?_⟩
  · by_cases same : id' = id
    · subst same
      simp only [State.setFailures, Function.update_self, h.count id']
      exact (h.paced id').failed
    · simpa [State.setFailures, same] using h.paced id'
  · by_cases same : id' = id
    · subst same
      have := h.count id'
      simp only [State.count] at this
      simp [State.setFailures, State.count, consecutive, this]
    · have before := h.count id'
      simp only [State.count] at before
      simpa [State.setFailures, State.count, same] using before
  · by_cases same : id' = id
    · subst same
      simp [State.setFailures] at none'
    · have before : s.failures id' = none := by simpa [State.setFailures, same] using none'
      simpa [State.setFailures, same] using h.absent id' before

/-- What a part of the visit of an instance leaves. -/
structure Leaves (id : String) (s t : State) : Prop where
  inv : Inv s → Inv t
  considered : t.considered = s.considered
  others : ∀ id', id' ≠ id → t.failures id' = s.failures id'
  count : t.count id ≤ s.count id

theorem Leaves.refl (id : String) (s : State) : Leaves id s s := ⟨fun h => h, rfl, fun _ _ => rfl, le_refl _⟩

theorem Leaves.trans {id : String} {u : State} (h : Leaves id s t) (h' : Leaves id t u) : Leaves id s u where
  inv := fun inv => h'.inv (h.inv inv)
  considered := h'.considered.trans h.considered
  others := fun id' other => (h'.others id' other).trans (h.others id' other)
  count := h'.count.trans h.count

theorem popFailures_leaves (id : String) (s : State) : Leaves id s (s.popFailures id) where
  inv := fun inv => popFailures_inv inv id
  considered := rfl
  others := fun _ other => Function.update_of_ne other _ _
  count := by simp [State.count, State.popFailures]

theorem addRestarted_leaves (id : String) (s : State) : Leaves id s (s.addRestarted id) :=
  ⟨fun inv => inv.frame rfl rfl, rfl, fun _ _ => rfl, le_refl _⟩

open Prog in
theorem attempt_leaves (v : Visit) (round : Round) : Keeps (Leaves v.row.id) (v.attempt round) := by
  have call : ∀ {α : Type} (result : Except Exn α), Keeps (Leaves v.row.id) (.ofExcept result) :=
    fun _ s => .refl _ s
  have done : Keeps (Leaves v.row.id) (pure () : Prog Exn State Unit) := fun s => .refl _ s
  have pop : Keeps (Leaves v.row.id) (.modify (fun s => s.popFailures v.row.id) : Prog Exn State Unit) :=
    popFailures_leaves _
  have add : Keeps (Leaves v.row.id) (.modify (fun s => s.addRestarted v.row.id) : Prog Exn State Unit) :=
    addRestarted_leaves _
  have seq : ∀ {α β : Type} {p : Prog Exn State α} {f : α → Prog Exn State β}, Keeps (Leaves v.row.id) p →
      (∀ a, Keeps (Leaves v.row.id) (f a)) → Keeps (Leaves v.row.id) (p >>= f) :=
    fun first second => .bind (fun _ _ _ h h' => h.trans h') first second
  apply seq (call _)
  intro fresh
  apply Keeps.ite done
  apply seq (call _)
  intro blocked
  apply Keeps.ite done
  apply seq (.ite (call _) (fun s => .refl _ s))
  intro rolledBack
  apply Keeps.ite
  · exact seq pop fun _ => seq (call _) fun _ => seq add fun _ => call _
  · exact seq (call _) fun _ => seq (call _) fun _ => seq pop fun _ => seq (.ite (call _) done) fun _ =>
      seq add fun _ => call _

open Prog in
theorem attempt_blind (v : Visit) (round : Round) : Blind (v.attempt round) := by
  apply (blind_ofExcept _).bind
  intro fresh
  apply (blind_pure ()).ite
  apply (blind_ofExcept _).bind
  intro blocked
  apply (blind_pure ()).ite
  apply (Blind.ite (blind_ofExcept _) (blind_pure _)).bind
  intro rolledBack
  apply Blind.ite
  · exact (blind_modify _).bind fun _ => (blind_ofExcept _).bind fun _ => (blind_modify _).bind
      fun _ => blind_ofExcept _
  · exact (blind_ofExcept _).bind fun _ => (blind_ofExcept _).bind fun _ => (blind_modify _).bind fun _ =>
      (Blind.ite (blind_ofExcept _) (blind_pure ())).bind fun _ => (blind_modify _).bind fun _ => blind_ofExcept _

theorem fails_of_error {e : Exn} (raised : v.attempt round s = (.error e, t)) : v.Fails round := by
  intro s'
  have same := attempt_blind v round s' s
  rw [raised] at same
  rcases run : v.attempt round s' with ⟨result, t'⟩
  rw [run] at same
  exact ⟨e, t', by rw [show result = .error e from same]⟩

theorem isOk_ofExcept {α : Type} {result : Except Exn α} (ok : result.isOk) : ∃ a, result = .ok a := by
  cases result with
  | ok a => exact ⟨a, rfl⟩
  | error e => simp [Except.isOk, Except.toBool] at ok

/-- The handler returns and has recorded the failure. -/
theorem attemptFailed_ok (h : Inv s) (few : s.count v.row.id < 1024) (record : v.docker → v.circuitRecord.isOk)
    (logged : v.failureLogged.isOk) :
    ∃ t, v.attemptFailed s = (.ok (), t) ∧ Inv t ∧ t.considered = s.considered ∧
      ∀ id, id ≠ v.row.id → t.failures id = s.failures id := by
  refine ⟨s.setFailures v.row.id (s.count v.row.id + 1) (failureDelay (s.count v.row.id + 1)) v.failedReading, ?_,
    setFailures_inv h _ _, rfl, fun id other => Function.update_of_ne other _ _⟩
  obtain ⟨_, logged⟩ := isOk_ofExcept logged
  have delay : backoffDelay (s.count v.row.id + 1) = .ok (failureDelay (s.count v.row.id + 1)) :=
    backoffDelay_eq (by omega)
  unfold Visit.attemptFailed
  rw [Prog.bind_of_ok (Prog.get_apply s), delay, Prog.bind_of_ok (Prog.ofExcept_apply _ _),
    Prog.bind_of_ok (Prog.modify_apply _ _), logged]
  by_cases docker : v.docker = true
  · obtain ⟨_, record⟩ := isOk_ofExcept (record docker)
    rw [if_pos docker, record]
    rfl
  · rw [if_neg docker]
    rfl

theorem returns_ite {α : Type} {c : Prop} [Decidable c] {p q : Except Exn α} (yes : c → ∃ a, p = .ok a)
    (no : ¬ c → ∃ a, q = .ok a) : ∃ a, (if c then p else q) = .ok a := by
  split_ifs with h
  · exact yes h
  · exact no h

theorem returns_bind {α β : Type} {p : Except Exn α} {f : α → Except Exn β} (first : ∃ a, p = .ok a)
    (second : ∀ a, ∃ b, f a = .ok b) : ∃ b, (p >>= f) = .ok b := by
  obtain ⟨a, rfl⟩ := first
  exact second a

theorem selected_ok {n : ℕ} (calm : v.Calm round n) (failure : Option (ℕ × ℚ)) :
    ∃ selected, v.selected round failure = .ok selected := by
  have skip : ∃ selected, (pure false : Except Exn Bool) = .ok selected := ⟨false, rfl⟩
  apply returns_ite (fun _ => skip)
  intro _
  apply returns_bind
  · exact returns_ite (fun docker => isOk_ofExcept (calm.circuitBlocks docker)) (fun _ => skip)
  intro blocks
  apply returns_ite (fun _ => skip)
  intro _
  apply returns_ite (fun _ => skip)
  intro _
  apply returns_ite (fun _ => skip)
  intro _
  apply returns_ite (fun _ => skip)
  intro _
  apply returns_ite
  · intro building
    exact returns_bind (isOk_ofExcept (calm.activeBuild building)) (fun active => ⟨!active, rfl⟩)
  · exact fun _ => ⟨true, rfl⟩

/-- The calls in front of the `try` return. -/
theorem verdict_ok {n : ℕ} (calm : v.row.desired = .running → v.Calm round n) (failure : Option (ℕ × ℚ)) :
    ∃ verdict, v.verdict round failure = .ok verdict ∧ (verdict = .heal → v.row.desired = .running) ∧
      (verdict = .seed → failure = none) := by
  by_cases desired : v.row.desired = .running
  · have calm := calm desired
    have returns : ∃ verdict, v.verdict round failure = .ok verdict ∧ (verdict = .seed → failure = none) := by
      obtain ⟨selected, returned⟩ := selected_ok calm failure
      unfold Visit.verdict
      rw [returned]
      cases selected with
      | false => exact ⟨.skip, rfl, nofun⟩
      | true =>
        obtain ⟨fresh, reread⟩ := isOk_ofExcept calm.reread
        cases observed : v.actual with
        | none => exact ⟨.skip, rfl, nofun⟩
        | some actual =>
          rw [reread]
          refine ⟨v.judge round failure actual (fresh.getD v.row), rfl, fun seed => ?_⟩
          unfold Visit.judge at seed
          split_ifs at seed with _ _ _ fresh
          exact fresh.2.1
    obtain ⟨verdict, returned, seed⟩ := returns
    exact ⟨verdict, returned, fun _ => desired, seed⟩
  · refine ⟨.skip, ?_, nofun, nofun⟩
    unfold Visit.verdict Visit.selected
    rw [if_pos desired]
    rfl

/-- A visit returns, and what it has changed belongs to its own instance. -/
theorem run_ok (h : Inv s) (calm : v.row.desired = .running → v.Calm round (s.count v.row.id)) :
    ∃ t, v.run round s = (.ok (), t) ∧ Inv t ∧ t.considered = s.considered ++ [v.row.id] ∧
      ∀ id, id ≠ v.row.id → t.failures id = s.failures id := by
  have inv : Inv (s.consider v.row.id) := h.frame rfl rfl
  obtain ⟨verdict, returned, healing, seeding⟩ := verdict_ok calm ((s.consider v.row.id).failures v.row.id)
  have run : v.run round s = v.act round verdict (s.consider v.row.id) := by
    unfold Visit.run
    rw [Prog.bind_of_ok (Prog.modify_apply _ _), Prog.bind_of_ok (Prog.get_apply _), returned]
    rfl
  rw [run]
  cases verdict with
  | skip => exact ⟨s.consider v.row.id, rfl, inv, rfl, fun _ _ => rfl⟩
  | recovered =>
    have leaves := popFailures_leaves v.row.id (s.consider v.row.id)
    exact ⟨_, rfl, leaves.inv inv, rfl, leaves.others⟩
  | seed =>
    have first : (s.consider v.row.id).count v.row.id = 0 := by
      rw [State.count, seeding rfl]
      rfl
    have seeded := setFailures_inv inv v.row.id v.seedReading
    rw [first] at seeded
    exact ⟨_, rfl, seeded, rfl, fun id other => Function.update_of_ne other _ _⟩
  | heal =>
    have leaves := attempt_leaves v round (s.consider v.row.id)
    rcases ended : v.attempt round (s.consider v.row.id) with ⟨result, t⟩
    rw [ended] at leaves
    cases result with
    | ok _ => exact ⟨t, Prog.handle_of_ok ended, leaves.inv inv, leaves.considered, leaves.others⟩
    | error e =>
      obtain ⟨few, record, logged⟩ := (calm (healing rfl)).failure (fails_of_error ended)
      have fewer : t.count v.row.id < 1024 := lt_of_le_of_lt leaves.count few
      obtain ⟨u, handled, inv', considered, others⟩ := attemptFailed_ok (leaves.inv inv) fewer record logged
      refine ⟨u, (Prog.handle_of_error ended).trans handled, inv', considered.trans leaves.considered, ?_⟩
      exact fun id other => (others id other).trans (leaves.others id other)

end visits

/-! ## Rounds -/

theorem visitAll_ok {s : State} {round : Round} {visits : List Visit} (h : Inv s)
    (distinct : (visits.map (fun v => v.row.id)).Nodup)
    (calm : ∀ v ∈ visits, v.row.desired = .running → v.Calm round (s.count v.row.id)) :
    ∃ t, visitAll round visits s = (.ok (), t) ∧ Inv t ∧
      t.considered = s.considered ++ visits.map (fun v => v.row.id) := by
  induction visits generalizing s with
  | nil => exact ⟨s, rfl, h, (List.append_nil _).symm⟩
  | cons v visits ih =>
    rw [List.map_cons, List.nodup_cons] at distinct
    obtain ⟨t, first, inv, considered, others⟩ := run_ok h (calm v List.mem_cons_self)
    have rest : ∀ w ∈ visits, w.row.desired = .running → w.Calm round (t.count w.row.id) := by
      intro w listed desired
      have other : w.row.id ≠ v.row.id := by
        intro same
        apply distinct.1
        rw [← same]
        exact List.mem_map_of_mem listed
      have same : t.count w.row.id = s.count w.row.id := by
        unfold State.count
        rw [others _ other]
      rw [same]
      exact calm w (List.mem_cons_of_mem _ listed) desired
    obtain ⟨u, others', inv', considered'⟩ := ih inv distinct.2 rest
    refine ⟨u, (Prog.bind_of_ok first).trans others', inv', ?_⟩
    rw [considered', considered, List.map_cons, List.append_assoc]
    rfl

structure DaemonInv (daemon : Daemon) : Prop where
  isolated : Isolated daemon
  state : Inv daemon.state

theorem step_inv {daemon daemon' : Daemon} {round : Round} (h : DaemonInv daemon) (calm : CalmRound daemon round)
    (taken : step daemon round = some daemon') : DaemonInv daemon' := by
  have fresh : Inv { daemon.state with considered := [], restarted := [] } := h.state.frame rfl rfl
  obtain ⟨t, visited, inv, considered⟩ := visitAll_ok fresh round.distinct calm
  have run : reconcile round daemon.state = (.ok t.restarted, t) := by
    unfold reconcile
    rw [Prog.bind_of_ok (Prog.modify_apply _ _), Prog.bind_of_ok visited]
    rfl
  simp only [step, run, Option.some.injEq] at taken
  subst taken
  refine ⟨⟨fun outcome found => ?_, inv.paced⟩, inv⟩
  rcases List.mem_append.mp found with earlier | last
  · exact h.isolated.rounds outcome earlier
  · obtain rfl := List.mem_singleton.mp last
    exact ⟨rfl, considered⟩

/-- In calm rounds the trouble of an instance stays its own. -/
theorem calm_rounds_isolated {rounds : List Round} {daemon : Daemon} (h : Run step CalmRound start rounds daemon) :
    Isolated daemon := by
  have begin : DaemonInv start := ⟨⟨nofun, fun _ => paced_nil⟩, start_inv⟩
  exact (h.invariant begin (fun _ _ _ inv calm taken => step_inv inv calm taken)).isolated

/-- The manifest of the first instance cannot be looked at, and the second one is not healed. -/
theorem unreadable_circuit_ends_round :
    ¬ ∀ rounds daemon, exec step start rounds = some daemon → Isolated daemon := by
  intro claim
  let row (id : String) : Row := ⟨id, .running, .dockerCompose, .stopped, none, "", ""⟩
  let visit (id : String) (blocks : Except Exn Bool) : Visit :=
    { row := row id, circuitBlocks := blocks, reading := 0, activeBuild := .ok false, observed := .ok .stopped
      reread := .ok (some (row id)), wallTime := 0, seedReading := 0, recheck := .ok (some (row id))
      manualBuild := .ok false, rollback := .ok false, circuitClear := .ok (), rollbackLogged := .ok ()
      startLogged := .ok (), restart := .ok (), recoveryLogged := .ok (), failedReading := 0
      circuitRecord := .ok (), failureLogged := .ok () }
  let round : Round :=
    ⟨false, false, true, [visit "a" (.error (.os "Permission denied")), visit "b" (.ok false)], by decide⟩
  obtain ⟨daemon, run, rounds⟩ : ∃ daemon, exec step start [round] = some daemon ∧
      daemon.rounds = [⟨["a", "b"], ["a"], .error (.os "Permission denied")⟩] := ⟨_, rfl, rfl⟩
  have := (claim _ _ run).rounds
  rw [rounds] at this
  have := (this _ List.mem_cons_self).2
  contradiction

/-- Two instances of which the first fails to restart. -/
theorem calm_rounds_isolated_restart : ∃ daemon : Daemon, daemon.state.history "a" = [.failed 60] ∧
    daemon.state.restarted = ["b"] ∧ Isolated daemon := by
  let row (id : String) : Row := ⟨id, .running, .dockerCompose, .stopped, none, "", ""⟩
  let visit (id : String) (restart : Except Exn Unit) : Visit :=
    { row := row id, circuitBlocks := .ok false, reading := 0, activeBuild := .ok false, observed := .ok .stopped
      reread := .ok (some (row id)), wallTime := 0, seedReading := 0, recheck := .ok (some (row id))
      manualBuild := .ok false, rollback := .ok false, circuitClear := .ok (), rollbackLogged := .ok ()
      startLogged := .ok (), restart := restart, recoveryLogged := .ok (), failedReading := 0
      circuitRecord := .ok (), failureLogged := .ok () }
  let round : Round := ⟨false, false, true, [visit "a" (.error (.docker "no image")), visit "b" (.ok ())], by decide⟩
  have calm : CalmRound start round := by
    intro v listed _
    simp only [round, List.mem_cons, List.not_mem_nil, or_false] at listed
    rcases listed with rfl | rfl
    · exact ⟨fun _ => rfl, fun _ => rfl, rfl, fun _ => ⟨by decide, fun _ => rfl, rfl⟩⟩
    · exact ⟨fun _ => rfl, fun _ => rfl, rfl, fun _ => ⟨by decide, fun _ => rfl, rfl⟩⟩
  obtain ⟨daemon, run, failed, restarted⟩ : ∃ daemon, Run step CalmRound start [round] daemon ∧
      daemon.state.history "a" = [.failed 60] ∧ daemon.state.restarted = ["b"] :=
    ⟨_, .cons calm rfl (.refl _), rfl, rfl⟩
  exact ⟨daemon, failed, restarted, calm_rounds_isolated run⟩

end LocalWebAccess.ReconcileRounds
