import LocalWebAccess.GuardedRuns
import LocalWebAccess.PythonText

/-!
# Relocating a workspace

`run_migrate` and its resumptions, one call of another function a step. Each of these may raise, and then
the exception handler writes the journal; the process may also die. A resumption goes on from the journal
that it finds. What a migration has captured, backed up and stopped is recorded beside it.
-/
namespace LocalWebAccess.WorkspaceMigrate
open GuardedRuns

/-- `MigratePhase` -/
inductive MigratePhase where
  | preflight | backup | quiesce | move | rebind | regenerate | restore | verify | complete
  deriving DecidableEq, Repr

/-- Later than the backup. -/
def MigratePhase.late : MigratePhase → Bool
  | .preflight | .backup => false
  | .quiesce | .move | .rebind | .regenerate | .restore | .verify | .complete => true

structure MigrateSnapshot where
  restoreInstanceIds : List String
  desiredStates : List (String × String)
  autostartInstalled : List String
  controlPlaneRunning : List String
  pageviewHits : List (String × ℕ)
  capturedAt : String
  deriving DecidableEq, Repr

/-- `MigrateSnapshot.from_dict({})` -/
def MigrateSnapshot.empty : MigrateSnapshot := ⟨[], [], [], [], [], ""⟩

/-- `bool(captured_at.strip())` -/
def MigrateSnapshot.captured (x : MigrateSnapshot) : Bool := PythonText.strip x.capturedAt.toList ≠ []

/-- The two roots. -/
inductive Place where
  | old | new
  deriving DecidableEq, Repr

/-- The fields of a journal that are read again. A backup is a directory below one of the roots. -/
structure Journal where
  phase : MigratePhase
  snapshot : MigrateSnapshot
  backupDir : Option (Place × String)
  verifyOk : Option Bool
  verifyNotes : List String
  restoredIds : List String
  deriving DecidableEq, Repr

/-- Where `_run_migrate_locked` stands. -/
inductive Pc where
  | preflight
  | savingPreflight
  | opening
  | reverifying
  | capturing
  | backingUp
  | exporting
  | savingBackup
  | quiescing
  | savingQuiesce
  | requiescing
  | savingMoving
  | renaming
  | renamed
  | reopening
  | savingMoved
  | rebinding
  | savingRebind
  | regenerating
  | savingRegenerate
  | restoring
  | savingRestore
  | verifying
  | savingVerify
  | defaulting
  | savingComplete
  | handling
  | returned (ok : Bool)
  deriving DecidableEq, Repr

/-- A call with its variables; `quiesced` tells whether it has stopped the workspace without a failure. -/
structure Process where
  resume : Bool
  forceQuiesce : Bool
  preflightOk : Bool
  ws : Place
  journal : Option Journal
  phase : MigratePhase
  snapshot : MigrateSnapshot
  backupDir : Option (Place × String)
  started : List String
  verifyOk : Bool
  verifyNotes : List String
  quiesced : Bool
  pc : Pc
  deriving DecidableEq, Repr

/-- `tree` is where the workspace is, `config` whether it has a `local-web.yml`. Of this migration,
`captured` is the last snapshot, `backedUp` tells whether a backup has been finished, and `held` is what
had been captured when the workspace was first stopped. -/
structure State where
  tree : Place
  config : Bool
  journals : Place → Option Journal
  process : Option Process
  begun : Bool
  captured : Option MigrateSnapshot
  backedUp : Bool
  held : Option (Option MigrateSnapshot)
  renames : ℕ

/-- What a step is answered. -/
inductive Act where
  | proceed
  | captured (snapshot : MigrateSnapshot)
  | backedUp (name : String)
  | quiesced (clean : Bool)
  | verified (ok : Bool) (notes : List String)
  | unsynced (note : String)
  | fail
  | crash
  deriving DecidableEq, Repr

inductive Action where
  | call (resume forceQuiesce preflightOk : Bool)
  | act (a : Act)
  deriving DecidableEq, Repr

namespace State

def put (s : State) (p : Process) : State := { s with process := some p }

/-- `write_journal` -/
def writeJournal (s : State) (place : Place) (j : Journal) : State :=
  { s with journals := Function.update s.journals place (some j) }

/-- `_save` -/
def save (s : State) (p : Process) (j : Journal) : State :=
  (s.writeJournal p.ws j).put { p with journal := some j }

/-- `(new / "local-web.yml").is_file()` -/
def newHasConfig (s : State) : Bool := s.tree = .new && s.config

/-- The journal that a call finds, and the root it takes for the workspace. -/
def findJournal (s : State) (resume : Bool) : Place × Option Journal :=
  match s.journals .old with
  | some j => (.old, some j)
  | none =>
    match (if resume then s.journals .new else none) with
    | some j => (.new, some j)
    | none => (.old, none)

/-- The workspace begins to be stopped. -/
def hold (s : State) : State := { s with held := s.held.or (some s.captured) }

end State

/-- The journal without what a single phase adds. -/
def Process.entry (p : Process) (phase : MigratePhase) : Journal := ⟨phase, p.snapshot, p.backupDir, none, [], []⟩

/-- The variables at the beginning. -/
def start (s : State) (resume forceQuiesce preflightOk : Bool) : Process :=
  let (ws, journal) := s.findJournal resume
  { resume := resume
    forceQuiesce := forceQuiesce
    preflightOk := preflightOk
    ws := ws
    journal := journal
    phase := (journal.map fun j => j.phase).getD .preflight
    snapshot := (journal.map fun j => j.snapshot).getD .empty
    backupDir := journal.bind fun j => j.backupDir
    started := []
    verifyOk := true
    verifyNotes := []
    quiesced := false
    pc := .preflight }

/-- The first of the blocks `if phase == …` that is entered. -/
def enter (s : State) (p : Process) : Process :=
  match p.phase with
  | .preflight => { p with pc := .defaulting }
  | .backup =>
    match (if p.resume then p.journal else none) with
    | some j =>
      if j.snapshot.captured then
        { p with
          snapshot := j.snapshot
          backupDir := p.backupDir.or j.backupDir
          pc := .savingBackup }
      else { p with pc := .capturing }
    | none => { p with pc := .capturing }
  | .quiesce => { p with pc := .quiescing }
  | .move =>
    if s.newHasConfig then { p with pc := .renamed }
    else if p.resume then { p with pc := .requiescing }
    else { p with pc := .savingMoving }
  | .rebind => { p with pc := .rebinding }
  | .regenerate => { p with pc := .regenerating }
  | .restore => { p with pc := .restoring }
  | .verify => { p with pc := .verifying }
  | .complete => { p with pc := if p.resume then .reverifying else .defaulting }

/-- A block has ended with its journal. -/
def leave (s : State) (p : Process) (j : Journal) (phase : MigratePhase) : State :=
  s.save (enter s { p with phase := phase, journal := some j }) j

/-- A call of `quiesce_workspace` has returned. -/
def stopped (s : State) (p : Process) (clean : Bool) (pc : Pc) : State :=
  let p := { p with quiesced := p.quiesced || clean }
  s.put { p with pc := if clean || p.forceQuiesce then pc else .handling }

/-- `os.rename` moves the journal along. -/
def State.rename (s : State) : State :=
  { s with
    tree := .new
    journals := fun place => if place = .new then s.journals .old else none
    renames := s.renames + 1 }

def procStep (s : State) (p : Process) : Act → Option State
  | .proceed =>
    match p.pc with
    | .preflight =>
      if p.resume = false ∨ p.phase = .preflight then
        some (s.put { p with pc := if p.preflightOk then .savingPreflight else .handling })
      else
        some (s.put { p with
          ws := if p.phase ∈ [.rebind, .regenerate, .restore, .verify, .complete] ∧ s.newHasConfig then .new else p.ws
          pc := .opening })
    | .savingPreflight => some (s.save { p with phase := .backup, pc := .opening } (p.entry .preflight))
    | .opening => some (s.put (enter s { p with started := (p.journal.map fun j => j.restoredIds).getD [] }))
    | .reverifying =>
      match p.journal with
      | some j =>
        if j.verifyOk = some true then
          some (s.put { p with verifyOk := true, verifyNotes := j.verifyNotes, pc := .defaulting })
        else none
      | none => none
    | .exporting => some (s.put { p with pc := .savingBackup })
    | .savingBackup => some (leave s p (p.entry .backup) .quiesce)
    | .savingQuiesce => some (leave s p (p.entry .quiesce) .move)
    | .savingMoving => some (s.save { p with pc := .renaming } (p.entry .move))
    | .renaming => if s.tree = .old then some (s.rename.put { p with pc := .renamed }) else none
    | .renamed =>
      some (s.put { p with
        ws := .new
        backupDir := p.backupDir.map fun dir => (.new, dir.2)
        pc := .reopening })
    | .reopening => some (s.put { p with pc := .savingMoved })
    | .savingMoved => some (leave s p (p.entry .move) .rebind)
    | .rebinding => some (s.put { p with pc := .savingRebind })
    | .savingRebind => some (leave s p (p.entry .rebind) .regenerate)
    | .regenerating => some (s.put { p with pc := .savingRegenerate })
    | .savingRegenerate => some (leave s p (p.entry .regenerate) .restore)
    | .restoring => some (s.put { p with started := p.snapshot.restoreInstanceIds, pc := .savingRestore })
    | .savingRestore => some (leave s p { p.entry .restore with restoredIds := p.started } .verify)
    | .savingVerify =>
      some (s.save { p with phase := .complete, pc := .defaulting }
        { p.entry .verify with verifyOk := some p.verifyOk, verifyNotes := p.verifyNotes })
    | .defaulting => some (s.put { p with pc := .savingComplete })
    | .savingComplete =>
      some (s.save { p with pc := .returned p.verifyOk }
        { p.entry .complete with
          verifyOk := some p.verifyOk
          verifyNotes := p.verifyNotes
          restoredIds := p.started })
    | .handling => some ((s.writeJournal p.ws (p.entry p.phase)).put { p with pc := .returned false })
    | .capturing | .backingUp | .quiescing | .requiescing | .verifying | .returned _ => none
  | .captured x =>
    if p.pc = .capturing ∧ x.captured then
      some ({ s with captured := some x }.put { p with snapshot := x, pc := .backingUp })
    else none
  | .backedUp name =>
    if p.pc = .backingUp then
      some ({ s with backedUp := true }.put { p with backupDir := some (p.ws, name), pc := .exporting })
    else none
  | .quiesced clean =>
    if p.pc = .quiescing then some (stopped s p clean .savingQuiesce)
    else if p.pc = .requiescing then some (stopped s p clean .savingMoving)
    else none
  | .verified ok notes =>
    let p' := { p with verifyOk := ok, verifyNotes := notes }
    if p.pc = .verifying then some (s.put { p' with pc := .savingVerify })
    else if p.pc = .reverifying ∧ (p.journal.bind fun j => j.verifyOk) ≠ some true then
      some (s.put { p' with pc := .defaulting })
    else none
  | .unsynced note =>
    if p.pc = .defaulting ∧ p.verifyOk then
      some (s.put { p with verifyNotes := p.verifyNotes ++ [note], pc := .savingComplete })
    else none
  | .fail =>
    match p.pc with
    | .returned _ => none
    | .handling => some (s.put { p with pc := .returned false })
    | _ => some (s.put { p with pc := .handling })
  | .crash => some { s with process := none }

/-- The first call is no resumption and all others are. There is one call at a time. -/
def step (s : State) : Action → Option State
  | .call resume forceQuiesce preflightOk =>
    if resume ≠ s.begun ∨ s.process.any (fun p => !(p.pc = .returned true || p.pc = .returned false)) then none
    else if resume = false ∧ preflightOk = false then some { s with begun := true, process := none }
    else some { s with begun := true, process := some (start s resume forceQuiesce preflightOk) }
  | .act a =>
    match s.process with
    | none => none
    | some p => procStep (if p.pc = .quiescing ∨ p.pc = .requiescing then s.hold else s) p a

/-- Before a migration, with whatever journal an earlier one has left. -/
structure Initial (s : State) : Prop where
  tree : s.tree = .old
  new : s.journals .new = none
  process : s.process = none
  begun : s.begun = false
  captured : s.captured = none
  backedUp : s.backedUp = false
  held : s.held = none
  renames : s.renames = 0

end LocalWebAccess.WorkspaceMigrate
