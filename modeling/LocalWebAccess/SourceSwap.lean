import LocalWebAccess.GuardedRuns
import Mathlib.Data.Nat.Notation

/-!
# Swapping the source of an instance

The directories that `_update_zip_locked` works on: `current/`, the staging
directory `current.new` and the backup `current.old`. Every removal, extraction
and rename is a step of its own, each may fail, and the process may die between
any two of them. The next update starts by deleting both temporary directories.
-/
namespace LocalWebAccess.SourceSwap
open GuardedRuns

inductive Place where
  | current
  | staging
  | backup
  deriving DecidableEq, Repr

/-- What a directory holds: nothing, a part of a tree, or a whole tree. -/
inductive Dir (Tree : Type) where
  | absent
  | partially
  | whole (tree : Tree)
  deriving DecidableEq

/-- Where an update stands, or `idle` where none runs. -/
inductive Phase where
  | idle
  | clearStaging
  | clearBackup
  | extract
  | swapOut
  | swapIn
  | undoClear
  | undoRename
  | swapped
  | rollbackClear
  | rollbackRename
  | finalStaging
  | finalBackup
  deriving DecidableEq, Repr

/-- The directory that `shutil.rmtree` is deleting in a phase, and the phase after it. -/
def Phase.removal : Phase → Option (Place × Phase)
  | clearStaging => some (.staging, clearBackup)
  | clearBackup => some (.backup, extract)
  | undoClear => some (.current, undoRename)
  | rollbackClear => some (.current, rollbackRename)
  | finalStaging => some (.staging, finalBackup)
  | finalBackup => some (.backup, idle)
  | _ => none

/-- The rename of a phase, and the phases after its success and its failure. -/
def Phase.replacement : Phase → Option (Place × Place × Phase × Phase)
  | swapOut => some (.current, .backup, swapIn, finalStaging)
  | swapIn => some (.staging, .current, swapped, undoClear)
  | undoRename => some (.backup, .current, finalStaging, finalStaging)
  | rollbackRename => some (.backup, .current, finalStaging, finalStaging)
  | _ => none

/-- The rename brings the backup back to `current/`. -/
def Phase.restores (phase : Phase) : Prop := phase = undoRename ∨ phase = rollbackRename

structure State (Tree : Type) where
  dirs : Place → Dir Tree
  phase : Phase
  /-- The tree that was `current/` when the last update began. -/
  last : Tree
  /-- The tree that this update has put in its place. -/
  incoming : Option Tree

inductive Action (Tree : Type) where
  | begin
  | removeSome
  | removeEnd (emptied : Bool)
  | extractSome
  | extractEnd (tree : Tree)
  | rename (succeeds : Bool)
  | raise
  | finish
  | die

variable {Tree : Type}

def start (tree : Tree) : State Tree where
  dirs := fun | .current => .whole tree | _ => .absent
  phase := .idle
  last := tree
  incoming := none

namespace Dir

def isWhole : Dir Tree → Bool
  | whole _ => true
  | _ => false

def exists? : Dir Tree → Bool
  | absent => false
  | _ => true

/-- `shutil.rmtree` has deleted some entry. -/
def lessen : Dir Tree → Dir Tree
  | absent => absent
  | _ => partially

end Dir

namespace State

def setDir (s : State Tree) (place : Place) (dir : Dir Tree) : State Tree :=
  { s with dirs := Function.update s.dirs place dir }

def setPhase (s : State Tree) (phase : Phase) : State Tree := { s with phase := phase }

/-- The second locked section begins; `current/` is not looked at. -/
def begin (s : State Tree) : State Tree := { s with
  phase := .clearStaging
  last := match s.dirs .current with | .whole tree => tree | _ => s.last
  incoming := none }

def move (s : State Tree) (src dst : Place) : State Tree := { s with
  dirs := Function.update (Function.update s.dirs dst (s.dirs src)) src .absent
  incoming := match src, s.dirs src with
    | .staging, .whole tree => some tree
    | .backup, _ => none
    | _, _ => s.incoming }

end State

/-- One step of an update. `os.replace` may put a directory in the place of an empty one only. -/
def step (s : State Tree) : Action Tree → Option (State Tree)
  | .begin => if s.phase = .idle then some s.begin else none
  | .removeSome =>
    s.phase.removal.map (fun (place, _) => s.setDir place (s.dirs place).lessen)
  | .removeEnd emptied =>
    s.phase.removal.map (fun (place, next) =>
      (if emptied then s.setDir place .absent else s).setPhase next)
  | .extractSome => if s.phase = .extract then some (s.setDir .staging .partially) else none
  | .extractEnd tree =>
    if s.phase = .extract then some ((s.setDir .staging (.whole tree)).setPhase .swapOut) else none
  | .rename succeeds =>
    match s.phase.replacement with
    | none => none
    | some (src, dst, done, failed) =>
      if succeeds then
        if (s.dirs src).exists? ∧ (s.dirs dst).isWhole = false then some ((s.move src dst).setPhase done)
        else none
      else some (s.setPhase failed)
  | .raise =>
    match s.phase with
    | .extract | .swapOut => some (s.setPhase .finalStaging)
    | .swapped => some (s.setPhase .rollbackClear)
    | _ => none
  | .finish => if s.phase = .swapped then some (s.setPhase .finalStaging) else none
  | .die => some (s.setPhase .idle)

/-- An update begins with a whole tree in `current/`, and a rename that brings the backup back
fails only where a whole tree is there already. -/
def Recoverable (s : State Tree) : Action Tree → Prop
  | .begin => (s.dirs .current).isWhole
  | .rename false => s.phase.restores → (s.dirs .current).isWhole
  | _ => True

/-- The last tree or the one being swapped in is there as a whole. -/
def Present (s : State Tree) : Prop :=
  s.dirs .current = .whole s.last ∨ s.dirs .backup = .whole s.last ∨
    ∃ tree, s.incoming = some tree ∧ s.dirs .current = .whole tree

/-! ## What holds in each phase -/

/-- `current/` holds the last tree or the one that was swapped in. -/
def InPlace (s : State Tree) : Prop :=
  s.dirs .current = .whole s.last ∨ ∃ tree, s.incoming = some tree ∧ s.dirs .current = .whole tree

/-- What an update relies on in each of its phases. -/
def Relies (s : State Tree) : Phase → Prop
  | .idle => Present s
  | .clearStaging | .clearBackup | .extract => s.dirs .current = .whole s.last
  | .swapOut => s.dirs .current = .whole s.last ∧ (s.dirs .staging).isWhole
  | .swapIn => s.dirs .backup = .whole s.last ∧ s.dirs .current = .absent ∧ (s.dirs .staging).isWhole
  | .undoClear | .undoRename => s.dirs .backup = .whole s.last ∧ s.dirs .current = .absent
  | .swapped => s.dirs .backup = .whole s.last ∧ ∃ tree, s.incoming = some tree ∧ s.dirs .current = .whole tree
  | .rollbackClear | .rollbackRename =>
    s.dirs .backup = .whole s.last ∧ ((s.dirs .current).isWhole → InPlace s)
  | .finalStaging | .finalBackup => InPlace s

theorem InPlace.present {s : State Tree} (h : InPlace s) : Present s :=
  h.elim .inl (fun swapped => .inr (.inr swapped))

/-- In every phase one of the two directories holds a whole tree. -/
theorem Relies.present {s : State Tree} {phase : Phase} (h : Relies s phase) : Present s := by
  cases phase with
  | idle => exact h
  | clearStaging | clearBackup | extract => exact .inl h
  | swapOut => exact .inl h.1
  | swapIn | undoClear | undoRename | swapped | rollbackClear | rollbackRename => exact .inr (.inl h.1)
  | finalStaging | finalBackup => exact InPlace.present h

theorem start_relies (tree : Tree) : Relies (start tree) .idle := .inl rfl

section steps

variable {s t : State Tree}

theorem setDir_of_ne {place other : Place} (dir : Dir Tree) (ne : other ≠ place) :
    (s.setDir place dir).dirs other = s.dirs other := by
  simp [State.setDir, ne]

@[simp] theorem setDir_self (place : Place) (dir : Dir Tree) : (s.setDir place dir).dirs place = dir := by
  simp [State.setDir]

/-- The phases in which a directory is deleted do not rely on it. -/
theorem clear_relies {phase next : Phase} {place : Place} {dir : Dir Tree} (h : Relies s phase)
    (removes : phase.removal = some (place, next)) (less : dir.isWhole → dir = s.dirs place)
    (gone : s.dirs place = .absent → dir = .absent) :
    Relies (s.setDir place dir) phase ∧ Relies (s.setDir place dir) next := by
  have current (other : Place.current ≠ place) := setDir_of_ne (s := s) dir other
  have backup (other : Place.backup ≠ place) := setDir_of_ne (s := s) dir other
  cases phase <;> simp only [Phase.removal, Option.some.injEq, Prod.mk.injEq, reduceCtorEq] at removes <;>
    obtain ⟨rfl, rfl⟩ := removes
  case clearStaging | clearBackup =>
    have kept := (current (by decide)).trans h
    exact ⟨kept, kept⟩
  case undoClear =>
    have kept : Relies (s.setDir .current dir) .undoRename :=
      ⟨(backup (by decide)).trans h.1, (setDir_self _ _).trans (gone h.2)⟩
    exact ⟨kept, kept⟩
  case rollbackClear =>
    have kept : Relies (s.setDir .current dir) .rollbackRename := by
      refine ⟨(backup (by decide)).trans h.1, fun whole => ?_⟩
      rw [setDir_self] at whole
      have same := less whole
      unfold InPlace
      rw [setDir_self, same]
      exact h.2 (same ▸ whole)
    exact ⟨kept, kept⟩
  case finalStaging =>
    have kept : InPlace (s.setDir .staging dir) := by
      unfold InPlace
      rw [current (by decide)]
      exact h
    exact ⟨kept, kept⟩
  case finalBackup =>
    have kept : InPlace (s.setDir .backup dir) := by
      unfold InPlace
      rw [current (by decide)]
      exact h
    exact ⟨kept, kept.present⟩

theorem rename_done {phase done failed : Phase} {src dst : Place} (h : Relies s phase)
    (renames : phase.replacement = some (src, dst, done, failed)) (found : (s.dirs src).exists?)
    (free : (s.dirs dst).isWhole = false) : Relies (s.move src dst) done := by
  cases phase <;> simp only [Phase.replacement, Option.some.injEq, Prod.mk.injEq, reduceCtorEq] at renames <;>
    obtain ⟨rfl, rfl, rfl, rfl⟩ := renames
  case swapOut =>
    refine ⟨?_, ?_, ?_⟩
    · simpa [State.move] using h.1
    · simp [State.move]
    · simpa [State.move] using h.2
  case swapIn =>
    obtain ⟨backup, -, whole⟩ := h
    cases staging : s.dirs .staging with
    | absent => simp [staging, Dir.isWhole] at whole
    | partially => simp [staging, Dir.isWhole] at whole
    | whole tree =>
      refine ⟨?_, tree, ?_, ?_⟩
      · simpa [State.move] using backup
      · simp [State.move, staging]
      · simp [State.move, staging]
  case undoRename | rollbackRename => exact .inl (by simpa [State.move] using h.1)

theorem rename_failed {phase done failed : Phase} {src dst : Place} (h : Relies s phase)
    (renames : phase.replacement = some (src, dst, done, failed))
    (restored : phase.restores → (s.dirs .current).isWhole) : Relies s failed := by
  cases phase <;> simp only [Phase.replacement, Option.some.injEq, Prod.mk.injEq, reduceCtorEq] at renames <;>
    obtain ⟨rfl, rfl, rfl, rfl⟩ := renames
  case swapOut => exact .inl h.1
  case swapIn => exact ⟨h.1, h.2.1⟩
  case undoRename =>
    have whole := restored (.inl rfl)
    simp [h.2, Dir.isWhole] at whole
  case rollbackRename => exact h.2 (restored (.inr rfl))

end steps

theorem begin_relies {s : State Tree} (whole : (s.dirs .current).isWhole) : Relies s.begin .clearStaging := by
  cases current : s.dirs .current with
  | whole tree => simp [Relies, State.begin, current]
  | absent => simp [current, Dir.isWhole] at whole
  | partially => simp [current, Dir.isWhole] at whole

theorem step_relies {s t : State Tree} {a : Action Tree} (h : Relies s s.phase) (recoverable : Recoverable s a)
    (taken : step s a = some t) : Relies t t.phase := by
  cases a with
  | begin =>
    simp only [step, Option.ite_none_right_eq_some, Option.some.injEq] at taken
    exact taken.2 ▸ begin_relies recoverable
  | removeSome =>
    obtain ⟨⟨place, next⟩, removes, rfl⟩ := Option.map_eq_some_iff.mp taken
    refine (clear_relies h removes (fun whole => ?_) (fun absent => ?_)).1
    · cases dir : s.dirs place <;> simp [dir, Dir.lessen, Dir.isWhole] at whole
    · simp [absent, Dir.lessen]
  | removeEnd emptied =>
    obtain ⟨⟨place, next⟩, removes, rfl⟩ := Option.map_eq_some_iff.mp taken
    cases emptied with
    | true => exact (clear_relies h removes (fun whole => by simp [Dir.isWhole] at whole) (fun _ => rfl)).2
    | false =>
      have kept : s.setDir place (s.dirs place) = s := by simp [State.setDir]
      have relies := (clear_relies h removes (fun _ => rfl) (fun absent => absent)).2
      rw [kept] at relies
      exact relies
  | extractSome =>
    simp only [step, Option.ite_none_right_eq_some, Option.some.injEq] at taken
    obtain ⟨phase, rfl⟩ := taken
    rw [phase] at h
    change Relies (s.setDir .staging .partially) s.phase
    rw [phase]
    exact (setDir_of_ne _ (by decide)).trans h
  | extractEnd tree =>
    simp only [step, Option.ite_none_right_eq_some, Option.some.injEq] at taken
    obtain ⟨phase, rfl⟩ := taken
    rw [phase] at h
    have current := setDir_of_ne (s := s) (.whole tree) (by decide : Place.current ≠ .staging)
    exact ⟨current.trans h, by simp [State.setPhase, Dir.isWhole]⟩
  | rename succeeds =>
    cases renames : s.phase.replacement with
    | none => simp [step, renames] at taken
    | some replacement =>
      obtain ⟨src, dst, done, failed⟩ := replacement
      cases succeeds with
      | true =>
        simp only [step, renames, if_true, Option.ite_none_right_eq_some, Option.some.injEq] at taken
        obtain ⟨⟨found, free⟩, rfl⟩ := taken
        exact rename_done h renames found free
      | false =>
        simp only [step, renames, Bool.false_eq_true, if_false, Option.some.injEq] at taken
        obtain rfl := taken
        exact rename_failed h renames recoverable
  | raise =>
    cases phase : s.phase <;> simp only [step, phase, Option.some.injEq, reduceCtorEq] at taken <;>
      subst taken <;> rw [phase] at h
    case extract => exact .inl h
    case swapOut => exact .inl h.1
    case swapped => exact ⟨h.1, fun _ => .inr h.2⟩
  | finish =>
    simp only [step, Option.ite_none_right_eq_some, Option.some.injEq] at taken
    obtain ⟨phase, rfl⟩ := taken
    rw [phase] at h
    exact .inr h.2
  | die =>
    obtain rfl := Option.some.inj taken
    exact h.present

/-- Where every update finds a whole `current/` and every restoring rename succeeds, no crash and
no failure loses the last tree and the incoming one. -/
theorem recoverable_updates_keep_source {tree : Tree} {as : List (Action Tree)} {s : State Tree}
    (h : Run step Recoverable (start tree) as s) : Present s :=
  (h.invariant (P := fun s => Relies s s.phase) (start_relies tree)
    (fun _ _ _ relies recoverable taken => step_relies relies recoverable taken)).present

/-- The process dies between the two renames, and the next update deletes the backup. -/
theorem update_deletes_last_source : ¬ ∀ (tree : ℕ) as s, exec step (start tree) as = some s → Present s := by
  intro claim
  obtain ⟨s, run, current, backup⟩ : ∃ s : State ℕ, exec step (start 0) [.begin, .removeEnd true,
      .removeEnd true, .extractEnd 1, .rename true, .die, .begin, .removeEnd true, .removeEnd true] = some s ∧
      s.dirs .current = .absent ∧ s.dirs .backup = .absent := ⟨_, rfl, rfl, rfl⟩
  have present := claim 0 _ s run
  simp [Present, current, backup] at present

/-- An update that is rolled back, with every file of the new tree deleted first. -/
theorem recoverable_updates_keep_source_rollback :
    ∃ s : State ℕ, s.dirs .current = .whole 0 ∧ s.dirs .backup = .absent ∧ Present s := by
  have run : Run step Recoverable (start 0) [.begin, .removeEnd true, .removeEnd true, .extractSome,
      .extractEnd 1, .rename true, .rename true, .raise, .removeSome, .removeEnd true, .rename true] _ :=
    .cons rfl rfl <| .cons trivial rfl <| .cons trivial rfl <| .cons trivial rfl <| .cons trivial rfl <|
      .cons trivial rfl <| .cons trivial rfl <| .cons trivial rfl <| .cons trivial rfl <|
      .cons trivial rfl <| .cons trivial rfl <| .refl _
  exact ⟨_, rfl, rfl, recoverable_updates_keep_source run⟩

end LocalWebAccess.SourceSwap
