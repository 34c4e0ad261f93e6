import LocalWebAccess.GuardedRuns

/-!
# The lock of a migration

`migrate_lock` creates a file exclusively and writes its pid into it. A file whose pid belongs to no
other live process is removed and created anew. So a process relies on its file being at the path until
it removes it itself.
-/
namespace LocalWebAccess.MigrateLock
open GuardedRuns

abbrev Pid := ℕ
abbrev Inode := ℕ

/-- Where a call of `migrate_lock` stands, with the file that it has created. -/
inductive Pc where
  | creating
  | reading
  | judging (oldPid : Pid)
  | clearing
  | recreating
  | writing (i : Inode)
  | inside (i : Inode)
  /-- The `finally` clause: `is_file`, `read_text` and `unlink`. -/
  | looking (i : Inode)
  | comparing (i : Inode)
  | removing (i : Inode)
  deriving DecidableEq, Repr

def Pc.file : Pc → Option Inode
  | writing i | inside i | looking i | comparing i | removing i => some i
  | creating | reading | judging _ | clearing | recreating => none

/-- `content` is the pid that a file has, `fresh` the next inode. -/
structure State where
  path : Option Inode
  content : Inode → Option Pid
  creator : Inode → Option Pid
  fresh : Inode
  alive : Pid → Bool
  calls : Pid → Option Pc

inductive Action where
  | starts (p : Pid)
  | dies (p : Pid)
  | called (p : Pid)
  /-- With a fault, the access of this step raises an `OSError`. -/
  | proceeds (p : Pid) (fault : Bool)
  deriving DecidableEq, Repr

namespace State

def setPc (s : State) (p : Pid) (pc : Option Pc) : State :=
  { s with calls := Function.update s.calls p pc }

/-- `os.open` with `O_CREAT | O_EXCL`, where nothing is at the path. -/
def create (s : State) (p : Pid) : State :=
  { s with
    path := some s.fresh
    content := Function.update s.content s.fresh none
    creator := Function.update s.creator s.fresh (some p)
    fresh := s.fresh + 1 }.setPc p (some (.writing s.fresh))

def unlink (s : State) : State := { s with path := none }

/-- The pid that is read, or none of an empty file. -/
def read (s : State) : Option Pid := s.path.bind s.content

end State

/-- The next step of a call; without a pc it has raised or returned. -/
def lockStep (s : State) (p : Pid) (fault : Bool) : Pc → State
  | .creating =>
    if fault then s.setPc p none
    else match s.path with
      | none => s.create p
      | some _ => s.setPc p (some .reading)
  | .reading => s.setPc p (some (.judging (if fault then 0 else s.read.getD 0)))
  | .judging oldPid =>
    if oldPid ≠ 0 ∧ s.alive oldPid ∧ oldPid ≠ p then s.setPc p none else s.setPc p (some .clearing)
  | .clearing => (if fault then s else s.unlink).setPc p (some .recreating)
  | .recreating =>
    if fault then s.setPc p none
    else match s.path with
      | none => s.create p
      | some _ => s.setPc p none
  | .writing i =>
    if fault then s.setPc p none
    else { s with content := Function.update s.content i (some p) }.setPc p (some (.inside i))
  | .inside i => s.setPc p (some (.looking i))
  | .looking i => if fault = false ∧ s.path.isSome then s.setPc p (some (.comparing i)) else s.setPc p none
  | .comparing i =>
    if fault = false ∧ s.read = some p then s.setPc p (some (.removing i)) else s.setPc p none
  | .removing _ => (if fault then s else s.unlink).setPc p none

def step (s : State) : Action → Option State
  | .starts p =>
    if s.alive p = false ∧ p ≠ 0 then some { s with alive := Function.update s.alive p true } else none
  | .dies p => some ({ s with alive := Function.update s.alive p false }.setPc p none)
  | .called p => if s.alive p ∧ s.calls p = none then some (s.setPc p (some .creating)) else none
  | .proceeds p fault => (s.calls p).map fun pc => lockStep s p fault pc

/-- No lock file, or one that a dead process has left. -/
def State.initial (leftover : Option (Option Pid)) : State where
  path := leftover.map fun _ => 0
  content := fun _ => leftover.join
  creator := fun _ => none
  fresh := 1
  alive := fun _ => false
  calls := fun _ => none

/-- A process clears the path only of a file that no live process relies on. -/
def Kept (s : State) : Action → Prop
  | .proceeds p false =>
    s.calls p = some .clearing → ∀ i ∈ s.path, ∀ q ∈ s.creator i, ∀ pc ∈ s.calls q, pc.file ≠ some i
  | _ => True

/-! ## The invariant -/

/-- The file of a live process is at the path, and the process has created it. -/
def Inv (s : State) : Prop :=
  ∀ p pc i, s.calls p = some pc → pc.file = some i → s.path = some i ∧ s.creator i = some p

variable {s t : State} {p q : Pid} {pc : Pc} {i j : Inode}

theorem inv_initial (leftover : Option (Option Pid)) : Inv (State.initial leftover) := by
  intro p pc i call
  cases call

theorem calls_setPc (pc : Option Pc) : (s.setPc p pc).calls q = if q = p then pc else s.calls q := by
  simp [State.setPc, Function.update_apply]

/-- A call goes on, with the file that it has. -/
theorem Inv.setPc (h : Inv s) {next : Option Pc} (own : ∀ pc ∈ next, ∀ i, pc.file = some i →
    s.path = some i ∧ s.creator i = some p) : Inv (s.setPc p next) := by
  intro q pc i call file
  rw [calls_setPc] at call
  split_ifs at call with same
  · exact same ▸ own pc call i file
  · exact h q pc i call file

/-- A call goes on without a file. -/
theorem Inv.setPc_without (h : Inv s) {next : Option Pc} (without : ∀ pc ∈ next, pc.file = none) :
    Inv (s.setPc p next) := by
  refine h.setPc fun pc among i file => ?_
  rw [without pc among] at file
  cases file

/-- Nobody has a file while there is none at the path. -/
theorem Inv.create (h : Inv s) (missing : s.path = none) : Inv (s.create p) := by
  intro q pc i call file
  rw [State.create, calls_setPc] at call
  split_ifs at call with same
  · cases call
    cases file
    exact ⟨rfl, by rw [same]; exact Function.update_self ..⟩
  · rw [(h q pc i call file).1] at missing
    cases missing

/-- The path is cleared of a file that at most this process has. -/
theorem inv_unlink {next : Option Pc} (without : ∀ pc ∈ next, pc.file = none)
    (free : ∀ q pc i, q ≠ p → s.calls q = some pc → pc.file ≠ some i) : Inv (s.unlink.setPc p next) := by
  intro q pc i call file
  rw [calls_setPc] at call
  split_ifs at call with same
  · rw [without pc call] at file
    cases file
  · exact absurd file (free q pc i same call)

theorem Inv.lockStep {fault : Bool} (h : Inv s) (kept : Kept s (.proceeds p fault)) (call : s.calls p = some pc) :
    Inv (lockStep s p fault pc) := by
  cases pc with
  | creating | recreating =>
    simp only [MigrateLock.lockStep]
    split_ifs
    · exact h.setPc_without (by simp)
    · split
      · exact h.create ‹_›
      · exact h.setPc_without (by simp [Pc.file])
  | reading => exact h.setPc_without (by simp [Pc.file])
  | judging oldPid =>
    simp only [MigrateLock.lockStep]
    split_ifs
    · exact h.setPc_without (by simp)
    · exact h.setPc_without (by simp [Pc.file])
  | clearing =>
    cases fault with
    | true => exact h.setPc_without (by simp [Pc.file])
    | false =>
      refine inv_unlink (by simp [Pc.file]) fun q pc i _ call' file => ?_
      obtain ⟨path, creator⟩ := h q pc i call' file
      exact kept call i path q creator pc call' file
  | writing i =>
    have mine := h p _ i call rfl
    simp only [MigrateLock.lockStep]
    split_ifs
    · exact h.setPc_without (by simp)
    · exact Inv.setPc (s := { s with content := Function.update s.content i (some p) }) h
        (by simpa [Pc.file] using mine)
  | inside i => exact h.setPc (by simpa [Pc.file] using h p _ i call rfl)
  | looking i | comparing i =>
    have mine := h p _ i call rfl
    simp only [MigrateLock.lockStep]
    split_ifs
    · exact h.setPc (by simpa [Pc.file] using mine)
    · exact h.setPc_without (by simp)
  | removing i =>
    cases fault with
    | true => exact h.setPc_without (by simp)
    | false =>
      refine inv_unlink (by simp) fun q pc j other call' file => other ?_
      have mine := h p _ i call rfl
      have theirs := h q pc j call' file
      obtain rfl := Option.some.inj (mine.1.symm.trans theirs.1)
      exact Option.some.inj (theirs.2.symm.trans mine.2)

theorem Inv.onward {a : Action} (h : Inv s) (kept : Kept s a) (h' : step s a = some t) : Inv t := by
  cases a with
  | starts p =>
    simp only [step] at h'
    split_ifs at h'
    cases h'
    exact h
  | dies p =>
    cases h'
    exact Inv.setPc_without (s := { s with alive := Function.update s.alive p false }) h (by simp)
  | called p =>
    simp only [step] at h'
    split_ifs at h'
    cases h'
    exact h.setPc_without (by simp [Pc.file])
  | proceeds p fault =>
    obtain ⟨pc, call, rfl⟩ := Option.map_eq_some_iff.mp h'
    exact h.lockStep kept call

theorem inv_of_run {leftover : Option (Option Pid)} {as : List Action}
    (run : Run step Kept (State.initial leftover) as s) : Inv s :=
  run.invariant (P := Inv) (inv_initial leftover) fun _ _ _ h kept enabled => h.onward kept enabled

/-- At most one process is in its body, and a release removes only the file that its process has created. -/
theorem exclusive_of_takeovers {leftover : Option (Option Pid)} {as : List Action}
    (run : Run step Kept (State.initial leftover) as s) :
    (∀ p q i j, s.calls p = some (.inside i) → s.calls q = some (.inside j) → p = q) ∧
      ∀ p i j, s.calls p = some (.removing i) → s.path = some j → s.creator j = some p := by
  have inv := inv_of_run run
  constructor
  · intro p q i j inside inside'
    obtain ⟨path, creator⟩ := inv p _ i inside rfl
    obtain ⟨path', creator'⟩ := inv q _ j inside' rfl
    obtain rfl := Option.some.inj (path.symm.trans path')
    exact Option.some.inj (creator.symm.trans creator')
  · intro p i j removing path
    obtain ⟨path', creator⟩ := inv p _ i removing rfl
    obtain rfl := Option.some.inj (path'.symm.trans path)
    exact creator

instance (s : State) : (a : Action) → Decidable (Kept s a)
  | .proceeds p false => inferInstanceAs (Decidable (s.calls p = some .clearing →
      ∀ i ∈ s.path, ∀ q ∈ s.creator i, ∀ pc ∈ s.calls q, pc.file ≠ some i))
  | .proceeds _ true | .starts _ | .dies _ | .called _ => instDecidableTrue

/-- One process takes the file of a dead one over, and another one is refused. -/
theorem exclusive_of_takeovers_once : ∃ as s, Run step Kept (State.initial (some (some 7))) as s ∧
    s.calls 1 = some (.inside 1) ∧ s.calls 2 = none ∧ ∀ p i, s.calls p = some (.inside i) → p = 1 := by
  have ends : (exec (Run.guarded step Kept) (State.initial (some (some 7)))
      ([.starts 1, .starts 2, .called 1, .called 2] ++ List.replicate 6 (.proceeds 1 false) ++
        List.replicate 3 (.proceeds 2 false))).map (fun s => (s.calls 1, s.calls 2)) =
      some (some (.inside 1), none) := by decide +kernel
  obtain ⟨s, ran, both⟩ := Option.map_eq_some_iff.mp ends
  obtain ⟨first, second⟩ := Prod.mk.inj both
  have run := Run.of_guarded ran
  refine ⟨_, s, run, first, second, fun p i inside => ?_⟩
  exact (exclusive_of_takeovers run).1 p 1 i 1 inside first

/-- A file that is still empty is taken over while its creator is about to write its pid. -/
theorem empty_file_taken_over : ∃ as s, Run step anyStep (State.initial none) as s ∧
    s.calls 1 = some (.inside 1) ∧ s.calls 2 = some (.inside 2) := by
  have ends : (exec step (State.initial none)
      ([.starts 1, .starts 2, .called 1, .called 2, .proceeds 1 false] ++ List.replicate 6 (.proceeds 2 false) ++
        [.proceeds 1 false])).map (fun s => (s.calls 1, s.calls 2)) =
      some (some (.inside 1), some (.inside 2)) := by decide +kernel
  obtain ⟨s, ran, both⟩ := Option.map_eq_some_iff.mp ends
  obtain ⟨first, second⟩ := Prod.mk.inj both
  exact ⟨_, s, Run.of_exec ran, first, second⟩

end LocalWebAccess.MigrateLock
