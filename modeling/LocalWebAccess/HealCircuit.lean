import Mathlib.Algebra.Group.Nat.Defs
import Mathlib.Data.Nat.Notation
import Mathlib.Data.Int.Notation
import Mathlib.Data.List.Induction
import Mathlib.Logic.Function.Basic
import Mathlib.Tactic.Cases
import Mathlib.Tactic.SplitIfs

/-!
# Heal circuit

The daemon counts the failed rebuilds of an instance in its manifest and stops retrying at a threshold;
a start, a restart or a rebuild by the user clears the count. The daemon adds to a copy it read before
it holds the instance lock, and then writes the copy's circuit into the manifest of the day.
-/
namespace LocalWebAccess.HealCircuit

def hourThreshold : ℕ := 3
def manualThreshold : ℕ := 5
def hourBackoffSeconds : ℕ := 3600
def baseBackoffSeconds : ℕ := 60

/-! ## The circuit -/

/-- The circuit fields of a manifest; the time of the next try is in seconds. -/
structure Circuit where
  consecutiveReconcileFailures : ℕ := 0
  reconcileCircuitManual : Bool := false
  reconcileNextRetryAt : Option ℤ := none
  deriving DecidableEq

structure Manifest (ρ : Type) extends Circuit where
  rest : ρ
  deriving DecidableEq

def backoffSeconds (count : ℕ) : ℕ :=
  if hourThreshold ≤ count then hourBackoffSeconds else baseBackoffSeconds * 2 ^ (count - 1)

def recordFailure (now : ℤ) (circuit : Circuit) : Circuit :=
  let count := circuit.consecutiveReconcileFailures + 1
  if manualThreshold ≤ count then ⟨count, true, none⟩
  else ⟨count, false, some (now + backoffSeconds count)⟩

def clearCircuit (_ : Circuit) : Circuit := {}

def Circuit.isBlocked (now : ℤ) (circuit : Circuit) : Prop :=
  circuit.reconcileCircuitManual = true ∨ ∃ deadline ∈ circuit.reconcileNextRetryAt, now < deadline

/-- The circuit of `count` failures: the flag from the threshold on, a time for the next try below it. -/
structure Circuit.Counts (circuit : Circuit) (count : ℕ) : Prop where
  failures : circuit.consecutiveReconcileFailures = count
  manual : circuit.reconcileCircuitManual = true ↔ manualThreshold ≤ count
  retry : circuit.reconcileNextRetryAt.isSome = true ↔ 1 ≤ count ∧ count ≤ manualThreshold - 1

variable {circuit : Circuit} {count : ℕ} {now : ℤ}

theorem counts_clearCircuit (circuit : Circuit) : (clearCircuit circuit).Counts 0 :=
  ⟨rfl, by simp [clearCircuit, manualThreshold], by simp [clearCircuit]⟩

theorem counts_recordFailure (now : ℤ) (circuit : Circuit) :
    (recordFailure now circuit).Counts (circuit.consecutiveReconcileFailures + 1) := by
  unfold recordFailure
  dsimp only
  split_ifs with reached
  · exact ⟨rfl, by simp [reached], by simp; omega⟩
  · exact ⟨rfl, by simp [reached], by simp; omega⟩

theorem Circuit.Counts.unique {other : ℕ} (counts : circuit.Counts count) (again : circuit.Counts other) :
    count = other := counts.failures.symm.trans again.failures

/-- A failure blocks the next try for a minute at least, whatever was counted before. -/
theorem isBlocked_recordFailure (now : ℤ) (circuit : Circuit) :
    (recordFailure now circuit).isBlocked now := by
  unfold recordFailure
  dsimp only
  split_ifs
  · exact Or.inl rfl
  · refine Or.inr ⟨_, rfl, ?_⟩
    have positive : 0 < backoffSeconds (circuit.consecutiveReconcileFailures + 1) := by
      unfold backoffSeconds
      split_ifs
      · decide
      · exact Nat.mul_pos (by decide) (Nat.two_pow_pos _)
    omega

theorem not_isBlocked_clearCircuit (now : ℤ) (circuit : Circuit) : ¬ (clearCircuit circuit).isBlocked now := by
  simp [Circuit.isBlocked, clearCircuit]

/-! ## The callers of an instance -/

inductive Change where
  | failure
  | cleared
  deriving DecidableEq

/-- What the daemon has read and changed before it takes the lock. -/
structure Call where
  change : Change
  circuit : Circuit
  deriving DecidableEq

/-- The manifest an operation holds under the lock, and whether its circuit was cleared since it was read. -/
structure Session (ρ : Type) where
  manifest : Manifest ρ
  cleared : Bool
  deriving DecidableEq

def Session.withRest {ρ : Type} (session : Session ρ) (rest : ρ) : Session ρ :=
  { session with manifest := { session.manifest with rest } }

/-- `written` lists the circuits that were written, the last first: this is the order of the lock. -/
structure State (κ ρ : Type) where
  file : Option (Manifest ρ)
  holder : Option (κ × Session ρ)
  calls : κ → Option Call
  written : List Change

inductive Action (κ ρ : Type) where
  | reconcileCircuitRecord (k : κ) (expensive : Bool) (now : ℤ)
  | reconcileCircuitClear (k : κ)
  | persistCircuit (k : κ)
  | persistFails (k : κ)
  | enter (k : κ) (fromReconcile saved : Bool)
  | saveHeld (k : κ) (rest : ρ)
  | reload (k : κ)
  | finish (k : κ) (saved : Bool)
  | fail (k : κ)
  | remove

def failuresSinceClear : List Change → ℕ
  | [] => 0
  | .cleared :: _ => 0
  | .failure :: written => failuresSinceClear written + 1

section Lock

variable {κ ρ : Type}

def setCircuit (circuit : Circuit) (manifest : Manifest ρ) : Manifest ρ :=
  { circuit with rest := manifest.rest }

/-- `manifest.save` under the lock; an error is swallowed. -/
def save (s : State κ ρ) (session : Session ρ) (saved : Bool) : State κ ρ :=
  if saved then
    { s with
      file := some session.manifest
      written := if session.cleared then .cleared :: s.written else s.written }
  else s

def clearSession (session : Session ρ) : Session ρ :=
  ⟨setCircuit (clearCircuit session.manifest.toCircuit) session.manifest, true⟩

def hold (s : State κ ρ) (k : κ) (session : Session ρ) : State κ ρ := { s with holder := some (k, session) }

def release (s : State κ ρ) : State κ ρ := { s with holder := none }

/-- `start_instance`, `restart_instance` and `rebuild_instance` up to the first save of the manifest. -/
def enter (s : State κ ρ) (k : κ) (manifest : Manifest ρ) (fromReconcile saved : Bool) : State κ ρ :=
  if fromReconcile then hold s k ⟨manifest, false⟩
  else hold (save s (clearSession ⟨manifest, false⟩) saved) k (clearSession ⟨manifest, false⟩)

end Lock

section Steps

variable {κ ρ : Type} [DecidableEq κ]

def begin (s : State κ ρ) (k : κ) (change : Change) (modify : Circuit → Circuit) : State κ ρ :=
  match s.file with
  | none => s
  | some manifest => { s with calls := Function.update s.calls k (some ⟨change, modify manifest.toCircuit⟩) }

def State.drop (s : State κ ρ) (k : κ) : State κ ρ := { s with calls := Function.update s.calls k none }

/-- Under the lock: the manifest is read again and takes the copy's circuit; an instance that is gone
stays gone. -/
def persistCircuit (s : State κ ρ) (k : κ) (call : Call) : State κ ρ :=
  match s.file with
  | none => s.drop k
  | some latest =>
    { s.drop k with
      file := some (setCircuit call.circuit latest)
      written := call.change :: s.written }

def step (s : State κ ρ) : Action κ ρ → State κ ρ
  | .reconcileCircuitRecord k expensive now =>
    if expensive then begin s k .failure (recordFailure now) else s
  | .reconcileCircuitClear k => begin s k .cleared clearCircuit
  | .persistCircuit k =>
    match s.holder, s.calls k with
    | none, some call => persistCircuit s k call
    | _, _ => s
  | .persistFails k => s.drop k
  | .enter k fromReconcile saved =>
    match s.holder, s.file with
    | none, some manifest => enter s k manifest fromReconcile saved
    | _, _ => s
  | .saveHeld k rest =>
    match s.holder with
    | some (holder, session) =>
      if holder = k then
        hold (save s (session.withRest rest) true) k (session.withRest rest)
      else s
    | none => s
  | .reload k =>
    match s.holder, s.file with
    | some (holder, _), some manifest => if holder = k then hold s k ⟨manifest, false⟩ else s
    | _, _ => s
  | .finish k saved =>
    match s.holder with
    | some (holder, session) => if holder = k then release (save s (clearSession session) saved) else s
    | none => s
  | .fail k =>
    match s.holder with
    | some (holder, _) => if holder = k then release s else s
    | none => s
  | .remove =>
    match s.holder with
    | none => { s with file := none }
    | some _ => s

def run (s : State κ ρ) (actions : List (Action κ ρ)) : State κ ρ := actions.foldl step s

end Steps

/-- A new instance. -/
def fresh {κ ρ : Type} (rest : ρ) : State κ ρ := ⟨some { rest }, none, fun _ => none, []⟩

/-! ## What a step keeps -/

section Locked

variable {κ ρ : Type} {s : State κ ρ} {k : κ} {manifest : Manifest ρ} {session : Session ρ}

/-- What the holder of the lock would save: the circuit it read, or a cleared one. -/
structure Session.Matches (session : Session ρ) (manifest : Manifest ρ) : Prop where
  read : session.cleared = false → session.manifest.toCircuit = manifest.toCircuit
  cleared : session.cleared = true → session.manifest.toCircuit = {}

structure Call.Sound (call : Call) : Prop where
  failure : call.change = .failure → call.circuit.Counts call.circuit.consecutiveReconcileFailures
  cleared : call.change = .cleared → call.circuit = {}

structure Sound (s : State κ ρ) : Prop where
  held : ∀ k session, s.holder = some (k, session) →
    ∃ manifest, s.file = some manifest ∧ session.Matches manifest
  calls : ∀ k call, s.calls k = some call → call.Sound

/-- The manifest counts the failures that were written after the last clear. -/
def Accurate (s : State κ ρ) : Prop :=
  ∀ manifest, s.file = some manifest → manifest.toCircuit.Counts (failuresSinceClear s.written)

/-- Nobody holds the lock, and every call of the daemon has ended. -/
structure Finished (s : State κ ρ) : Prop where
  free : s.holder = none
  ended : ∀ k, s.calls k = none

/-- A failure is written over the count it was added to. -/
def Current (s : State κ ρ) : Action κ ρ → Prop
  | .persistCircuit k => ∀ call manifest, s.holder = none → s.calls k = some call → call.change = .failure →
      s.file = some manifest →
      call.circuit.consecutiveReconcileFailures = manifest.consecutiveReconcileFailures + 1
  | _ => True

theorem counts_empty : ({} : Circuit).Counts 0 := counts_clearCircuit {}

@[simp] theorem toCircuit_setCircuit (circuit : Circuit) (manifest : Manifest ρ) :
    (setCircuit circuit manifest).toCircuit = circuit := rfl

@[simp] theorem calls_save (s : State κ ρ) (session : Session ρ) (saved : Bool) :
    (save s session saved).calls = s.calls := by
  cases saved <;> rfl

theorem file_save (s : State κ ρ) (session : Session ρ) (saved : Bool) :
    (save s session saved).file = if saved then some session.manifest else s.file := by
  cases saved <;> rfl

theorem Session.Matches.withRest (agrees : session.Matches manifest) (rest : ρ) :
    (session.withRest rest).Matches manifest := ⟨agrees.read, agrees.cleared⟩

theorem clearSession_matches (session : Session ρ) (manifest : Manifest ρ) :
    (clearSession session).Matches manifest :=
  ⟨fun read => absurd read (by simp [clearSession]), fun _ => rfl⟩

theorem Session.matches_self (manifest : Manifest ρ) : (Session.mk manifest false).Matches manifest :=
  ⟨fun _ => rfl, nofun⟩

theorem sound_hold (calls : ∀ k call, s.calls k = some call → call.Sound) (present : s.file = some manifest)
    (agrees : session.Matches manifest) : Sound (hold s k session) := by
  refine ⟨fun j other held => ?_, calls⟩
  simp only [hold, Option.some.injEq, Prod.mk.injEq] at held
  exact ⟨manifest, present, held.2 ▸ agrees⟩

theorem sound_hold_save (calls : ∀ k call, s.calls k = some call → call.Sound) (present : s.file = some manifest)
    (agrees : session.Matches manifest) (saved : Bool) : Sound (hold (save s session saved) k session) := by
  cases saved with
  | false => exact sound_hold calls present agrees
  | true => exact sound_hold calls (file_save s session true) ⟨fun _ => rfl, agrees.cleared⟩

theorem sound_release (calls : ∀ k call, s.calls k = some call → call.Sound) : Sound (release s) :=
  ⟨nofun, calls⟩

/-- A save under the lock writes the circuit that is there, or a clear. -/
theorem accurate_save (accurate : Accurate s) (present : s.file = some manifest) (agrees : session.Matches manifest)
    (saved : Bool) : Accurate (save s session saved) := by
  cases saved with
  | false => exact accurate
  | true =>
    intro written same
    obtain rfl : session.manifest = written := by simpa [file_save] using same
    cases cleared : session.cleared with
    | false =>
      rw [agrees.read cleared]
      simpa [save, cleared] using accurate manifest present
    | true =>
      rw [agrees.cleared cleared]
      simpa [save, cleared, failuresSinceClear] using counts_empty

theorem sound_enter (sound : Sound s) (present : s.file = some manifest) (fromReconcile saved : Bool) :
    Sound (enter s k manifest fromReconcile saved) := by
  unfold enter
  split_ifs
  · exact sound_hold sound.calls present (Session.matches_self manifest)
  · exact sound_hold_save sound.calls present (clearSession_matches _ manifest) saved

theorem accurate_enter (accurate : Accurate s) (present : s.file = some manifest) (fromReconcile saved : Bool) :
    Accurate (enter s k manifest fromReconcile saved) := by
  unfold enter
  split_ifs
  · exact accurate
  · exact accurate_save accurate present (clearSession_matches _ manifest) saved

theorem sound_fresh (rest : ρ) : Sound (fresh rest : State κ ρ) := ⟨nofun, nofun⟩

theorem accurate_fresh (rest : ρ) : Accurate (fresh rest : State κ ρ) :=
  fun _ there => Option.some.inj there ▸ counts_empty

end Locked

section Run

variable {κ ρ : Type} [DecidableEq κ] {s : State κ ρ} {k : κ} {call : Call} {manifest : Manifest ρ}

theorem calls_sound_update {calls : κ → Option Call} (sound : ∀ k call, calls k = some call → call.Sound)
    (k : κ) {entry : Option Call} (added : ∀ call, entry = some call → call.Sound) :
    ∀ j call, Function.update calls k entry j = some call → call.Sound := by
  intro j call made
  by_cases same : j = k
  · subst same
    exact added call (by simpa using made)
  · exact sound j call (by simpa [same] using made)

theorem sound_drop (sound : Sound s) (k : κ) : Sound (s.drop k) :=
  ⟨sound.held, calls_sound_update sound.calls k nofun⟩

theorem recordFailure_sound (now : ℤ) (circuit : Circuit) : (Call.mk .failure (recordFailure now circuit)).Sound := by
  have counts := counts_recordFailure now circuit
  exact ⟨fun _ => counts.failures ▸ counts, nofun⟩

theorem clearCircuit_sound (circuit : Circuit) : (Call.mk .cleared (clearCircuit circuit)).Sound :=
  ⟨nofun, fun _ => rfl⟩

theorem sound_begin (sound : Sound s) (k : κ) {change : Change} {modify : Circuit → Circuit}
    (modified : ∀ circuit, (Call.mk change (modify circuit)).Sound) : Sound (begin s k change modify) := by
  unfold begin
  split
  · exact sound
  · rename_i manifest _
    refine ⟨sound.held, calls_sound_update sound.calls k fun call made => ?_⟩
    exact Option.some.inj made ▸ modified manifest.toCircuit

theorem accurate_begin (s : State κ ρ) (k : κ) (change : Change) (modify : Circuit → Circuit) :
    Accurate (begin s k change modify) ↔ Accurate s := by
  unfold begin
  split <;> exact Iff.rfl

/-- A circuit is written into the manifest of the day, and never brings back an instance that was removed. -/
theorem rest_persistCircuit (s : State κ ρ) (k : κ) (call : Call) :
    (persistCircuit s k call).file.map (·.rest) = s.file.map (·.rest) := by
  unfold persistCircuit
  split <;> simp [State.drop, setCircuit, *]

theorem sound_persistCircuit (sound : Sound s) (free : s.holder = none) :
    Sound (persistCircuit s k call) := by
  have dropped := sound_drop sound k
  unfold persistCircuit
  split
  · exact dropped
  · exact ⟨fun j session held => absurd held (by simp [State.drop, free]), dropped.calls⟩

/-- The copy's circuit is the right one exactly when nothing was written since it was read. -/
theorem accurate_persistCircuit_iff (accurate : Accurate s) (present : s.file = some manifest) (sound : call.Sound) :
    Accurate (persistCircuit s k call) ↔ (call.change = .failure →
      call.circuit.consecutiveReconcileFailures = manifest.consecutiveReconcileFailures + 1) := by
  have counted := accurate manifest present
  have written : Accurate (persistCircuit s k call) ↔
      call.circuit.Counts (failuresSinceClear (call.change :: s.written)) := by
    unfold persistCircuit
    rw [present]
    exact ⟨fun holds => holds _ rfl, fun counts other same => Option.some.inj same ▸ counts⟩
  rw [written]
  cases change : call.change with
  | cleared =>
    rw [sound.cleared change]
    exact iff_of_true counts_empty nofun
  | failure =>
    have counts := sound.failure change
    rw [failuresSinceClear, ← counted.failures]
    exact ⟨fun holds _ => counts.unique holds, fun same => same rfl ▸ counts⟩

theorem sound_step (sound : Sound s) (a : Action κ ρ) : Sound (step s a) := by
  cases a with
  | reconcileCircuitRecord k expensive now =>
    cases expensive with
    | false => exact sound
    | true => exact sound_begin sound k (recordFailure_sound now)
  | reconcileCircuitClear k => exact sound_begin sound k clearCircuit_sound
  | persistCircuit k =>
    dsimp only [step]
    split
    · exact sound_persistCircuit sound ‹_›
    · exact sound
  | persistFails k => exact sound_drop sound k
  | enter k fromReconcile saved =>
    dsimp only [step]
    split
    · exact sound_enter sound ‹_› fromReconcile saved
    · exact sound
  | saveHeld k rest =>
    dsimp only [step]
    split
    · split_ifs
      · obtain ⟨manifest, present, agrees⟩ := sound.held _ _ ‹_›
        exact sound_hold_save sound.calls present (agrees.withRest rest) true
      · exact sound
    · exact sound
  | reload k =>
    dsimp only [step]
    split
    · split_ifs
      · exact sound_hold sound.calls ‹_› (Session.matches_self _)
      · exact sound
    · exact sound
  | finish k saved =>
    dsimp only [step]
    split
    · split_ifs
      · exact sound_release (by simpa using sound.calls)
      · exact sound
    · exact sound
  | fail k =>
    dsimp only [step]
    split
    · split_ifs
      · exact sound_release sound.calls
      · exact sound
    · exact sound
  | remove =>
    dsimp only [step]
    split
    · exact ⟨fun j session held => absurd held (by simp [*]), sound.calls⟩
    · exact sound

/-- A step keeps the count right exactly when it writes no failure over another count than it was added to. -/
theorem accurate_step_iff (sound : Sound s) (accurate : Accurate s) (a : Action κ ρ) :
    Accurate (step s a) ↔ Current s a := by
  cases a with
  | reconcileCircuitRecord k expensive now =>
    cases expensive with
    | false => exact iff_of_true accurate trivial
    | true => exact iff_of_true ((accurate_begin ..).mpr accurate) trivial
  | reconcileCircuitClear k => exact iff_of_true ((accurate_begin ..).mpr accurate) trivial
  | persistCircuit k =>
    cases free : s.holder with
    | some _ =>
      rw [step, free]
      exact iff_of_true accurate fun _ _ none => absurd (free.symm.trans none) nofun
    | none =>
    cases made : s.calls k with
    | none =>
      rw [step, free, made]
      exact iff_of_true accurate fun _ _ _ some => absurd (made.symm.trans some) nofun
    | some call =>
    cases present : s.file with
    | none =>
      have gone : (step s (.persistCircuit k)).file = none := by
        simp [step, free, made, persistCircuit, present, State.drop]
      exact iff_of_true (fun manifest there => absurd (gone.symm.trans there) nofun)
        fun _ _ _ _ _ there => absurd (present.symm.trans there) nofun
    | some manifest =>
      have stepped : step s (.persistCircuit k) = persistCircuit s k call := by simp only [step, free, made]
      rw [stepped, accurate_persistCircuit_iff accurate present (sound.calls k call made)]
      constructor
      · intro same other manifest' _ made' failed present'
        obtain rfl := Option.some.inj (made.symm.trans made')
        obtain rfl := Option.some.inj (present.symm.trans present')
        exact same failed
      · intro current failed
        exact current call manifest free made failed present
  | persistFails k => exact iff_of_true accurate trivial
  | enter k fromReconcile saved =>
    refine iff_of_true ?_ trivial
    dsimp only [step]
    split
    · exact accurate_enter accurate ‹_› fromReconcile saved
    · exact accurate
  | saveHeld k rest =>
    refine iff_of_true ?_ trivial
    dsimp only [step]
    split
    · split_ifs
      · obtain ⟨manifest, present, agrees⟩ := sound.held _ _ ‹_›
        exact accurate_save accurate present (agrees.withRest rest) true
      · exact accurate
    · exact accurate
  | reload k =>
    refine iff_of_true ?_ trivial
    dsimp only [step]
    split
    · split_ifs <;> exact accurate
    · exact accurate
  | finish k saved =>
    refine iff_of_true ?_ trivial
    dsimp only [step]
    split
    · split_ifs
      · obtain ⟨manifest, present, -⟩ := sound.held _ _ ‹_›
        exact accurate_save accurate present (clearSession_matches _ manifest) saved
      · exact accurate
    · exact accurate
  | fail k =>
    refine iff_of_true ?_ trivial
    dsimp only [step]
    split
    · split_ifs <;> exact accurate
    · exact accurate
  | remove =>
    refine iff_of_true ?_ trivial
    dsimp only [step]
    split
    · exact nofun
    · exact accurate

theorem run_append (s : State κ ρ) (past : List (Action κ ρ)) (a : Action κ ρ) :
    run s (past ++ [a]) = step (run s past) a := by
  rw [run, List.foldl_append]
  rfl

theorem sound_run (sound : Sound s) (actions : List (Action κ ρ)) : Sound (run s actions) := by
  induction actions using List.reverseRecOn with
  | nil => exact sound
  | append_singleton past a ih => rw [run_append]; exact sound_step ih a

/-- In every state of a run the manifest counts the failures since the last clear, if and only if every
failure is written over the count it was added to. -/
theorem circuit_counts_iff (rest : ρ) (actions : List (Action κ ρ)) :
    (∀ past, past <+: actions → Accurate (run (fresh rest) past)) ↔
      ∀ past a, past ++ [a] <+: actions → Current (run (fresh rest) past) a := by
  constructor
  · intro accurate past a within
    have before := accurate past ((List.prefix_append past [a]).trans within)
    rw [← accurate_step_iff (sound_run (sound_fresh rest) past) before, ← run_append]
    exact accurate _ within
  · intro current past
    induction past using List.reverseRecOn with
    | nil => exact fun _ => accurate_fresh rest
    | append_singleton past a ih =>
      intro within
      have before := ih ((List.prefix_append past [a]).trans within)
      rw [run_append, accurate_step_iff (sound_run (sound_fresh rest) past) before]
      exact current past a within

/-- Four failed heals; the daemon reads the manifest for the fifth while the user restarts the instance. -/
def restartDuringFailure : List (Action Bool Unit) :=
  (List.replicate 4 [.reconcileCircuitRecord false true 0, .persistCircuit false]).flatten ++
    [.reconcileCircuitRecord false true 0, .enter true false true, .finish true true, .persistCircuit false]

/-- After the clear one failure was written, and the retries have stopped for good. -/
theorem clear_undone : Finished (run (fresh ()) restartDuringFailure) ∧
    failuresSinceClear (run (fresh ()) restartDuringFailure).written = 1 ∧
    (run (fresh ()) restartDuringFailure).file = some ⟨⟨5, true, none⟩, ()⟩ ∧
    ¬ Accurate (run (fresh ()) restartDuringFailure) := by
  have file : (run (fresh ()) restartDuringFailure).file = some ⟨⟨5, true, none⟩, ()⟩ := rfl
  have written : failuresSinceClear (run (fresh ()) restartDuringFailure).written = 1 := rfl
  refine ⟨⟨rfl, by decide⟩, written, file, fun accurate => ?_⟩
  have failures := (accurate _ file).failures
  rw [written] at failures
  exact absurd failures (by decide)

end Run

end LocalWebAccess.HealCircuit
