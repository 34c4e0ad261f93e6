import LocalWebAccess.GuardedRuns
import Mathlib.Data.Int.Notation
import Mathlib.Data.List.Dedup

/-!
# The inbox and its watcher

Users drop archives into the inbox, overwrite and delete them at any time. In
every round the watcher lists them, takes a key of each from its path, size and
time stamp, waits until two looks at it agree, imports it and moves it to the
archive; a file that fails too often goes to the dead letters.
-/
namespace LocalWebAccess.InboxWatcher
open GuardedRuns

structure File (Content : Type) where
  content : Content
  size : ℕ
  mtimeNs : ℕ
  deriving DecidableEq, Repr

/-- The texts `path|size|mtime_ns` and `path`. -/
inductive Key (Name : Type) where
  | stamped (name : Name) (size mtimeNs : ℕ)
  | bare (name : Name)
  deriving DecidableEq, Repr

structure Fingerprint where
  mtime : ℤ
  size : ℤ
  deriving DecidableEq, Repr

inductive Outcome where
  | imported
  | conflict
  | failed
  deriving DecidableEq, Repr

inductive Dir where
  | processed
  | failed
  deriving DecidableEq, Repr

/-- A name in one of the archives: the stem with a time stamp, and the process id after it. -/
structure ArchiveName (Name : Type) where
  dir : Dir
  name : Name
  stamp : String
  pid : Option ℕ
  deriving DecidableEq, Repr

inductive Phase (Name : Type) where
  | idle
  | scanning (rest : List Name)
  | keyed (name : Name) (key : Key Name) (rest : List Name)
  | stable (name : Name) (key : Key Name) (rest : List Name)
  | attempted (name : Name) (key : Key Name) (outcome : Outcome) (rest : List Name)
  | archived (name : Name) (key : Key Name) (rest : List Name)
  deriving DecidableEq, Repr

/-- What the watcher has done. An attempt is `repeated` if the key of the file was recorded. -/
inductive Event (Name Content : Type) where
  | attempt (name : Name) (file : File Content) (outcome : Outcome) (repeated : Bool)
  | archived (dest : ArchiveName Name) (file : File Content)
  deriving DecidableEq, Repr

/-- `st_mtime` of a time stamp in nanoseconds, and the stability window. All times are counted in one
unit of which the floats are multiples. -/
structure Settings where
  stMtime : ℕ → ℤ
  stableSeconds : ℤ

structure State (Name Content : Type) where
  inbox : Name → Option (File Content)
  archive : ArchiveName Name → Option (File Content)
  /-- `daemon-processed.json`, and the list of the round. -/
  recorded : List (Key Name)
  processed : List (Key Name)
  fingerprints : Name → Option Fingerprint
  failCounts : Key Name → ℕ
  pid : ℕ
  phase : Phase Name
  log : List (Event Name Content)
  /-- All files there have been. -/
  seen : List (Name × File Content)
  /-- Visits after the stability window, imports and failed steps since the file has changed. -/
  lateVisits : Name → ℕ
  attempts : Name → ℕ
  mishaps : Name → ℕ

inductive Action (Name Content : Type) where
  | put (name : Name) (file : File Content)
  | remove (name : Name)
  | scan
  | finish
  | sampleKey (stat : Bool)
  | archiveDuplicate (stamp : String) (moves : Bool)
  | checkStable (stat : Bool) (now : ℤ)
  | importZip (outcome : Outcome)
  | settle (stamp : String) (moves : Bool)
  | record
  | restart (pid : ℕ)
  deriving Repr

def failedZipMaxAttempts : ℕ := 5

def processedSetMax : ℕ := 2048

variable {Name Content : Type} [DecidableEq Name]

/-- `processed_key`, with the result of `stat`. -/
def processedKey (name : Name) : Option (File Content) → Key Name
  | some file => .stamped name file.size file.mtimeNs
  | none => .bare name

def fingerprint (settings : Settings) : Option (File Content) → Fingerprint
  | some file => ⟨settings.stMtime file.mtimeNs, file.size⟩
  | none => ⟨0, -1⟩

/-- The file is older than the window, or its time lies in the future. -/
def isLate (settings : Settings) (file : File Content) (now : ℤ) : Bool :=
  settings.stableSeconds ≤ now - settings.stMtime file.mtimeNs ∨ now - settings.stMtime file.mtimeNs < 0

/-- `is_file_stable`, with the result of `stat`. -/
def isFileStable (settings : Settings) (file : Option (File Content)) (previous : Option Fingerprint) (now : ℤ) :
    Bool :=
  match file with
  | none => false
  | some found => previous = some (fingerprint settings file) ∧ isLate settings found now

/-- `save_processed_set`: each key once, in the order of their last occurrences. -/
def saveProcessedSet (keys : List (Key Name)) : List (Key Name) :=
  keys.dedup.drop (keys.dedup.length - processedSetMax)

def start (pid : ℕ) : State Name Content where
  inbox := fun _ => none
  archive := fun _ => none
  recorded := []
  processed := []
  fingerprints := fun _ => none
  failCounts := fun _ => 0
  pid := pid
  phase := .idle
  log := []
  seen := []
  lateVisits := fun _ => 0
  attempts := fun _ => 0
  mishaps := fun _ => 0

namespace State

/-- The file under a name changes, and with it all counts of what has happened to it. -/
def setFile (s : State Name Content) (name : Name) (file : Option (File Content)) : State Name Content :=
  { s with
    inbox := Function.update s.inbox name file
    lateVisits := Function.update s.lateVisits name 0
    attempts := Function.update s.attempts name 0
    mishaps := Function.update s.mishaps name 0 }

def mishap (s : State Name Content) (name : Name) : State Name Content :=
  { s with mishaps := Function.update s.mishaps name (s.mishaps name + 1) }

def dest (s : State Name Content) (dir : Dir) (name : Name) (stamp : String) : ArchiveName Name :=
  if (s.archive ⟨dir, name, stamp, none⟩).isSome then ⟨dir, name, stamp, some s.pid⟩ else ⟨dir, name, stamp, none⟩

/-- `_move_inbox_zip` of a file that is there. -/
def moved (s : State Name Content) (dir : Dir) (name : Name) (stamp : String) (file : File Content) :
    State Name Content :=
  { s.setFile name none with
    archive := Function.update s.archive (s.dest dir name stamp) (some file)
    log := .archived (s.dest dir name stamp) file :: s.log }

/-- `_move_inbox_zip`, and whether it returns a path. -/
def moveZip (s : State Name Content) (dir : Dir) (name : Name) (stamp : String) (moves : Bool) :
    State Name Content × Bool :=
  match s.inbox name with
  | some file => if moves then (s.moved dir name stamp file, true) else (s.mishap name, false)
  | none => (s, false)

/-- The visit of a file ends: `fingerprints.pop`, and the next name. -/
def leave (s : State Name Content) (name : Name) (rest : List Name) : State Name Content :=
  { s with fingerprints := Function.update s.fingerprints name none, phase := .scanning rest }

def scanInbox (s : State Name Content) : List Name :=
  (s.seen.map Prod.fst).dedup.filter (fun name => (s.inbox name).isSome)

/-- The name that is being visited. -/
def visiting (s : State Name Content) : Option Name :=
  match s.phase with
  | .idle | .scanning _ => none
  | .keyed name _ _ | .stable name _ _ | .attempted name _ _ _ | .archived name _ _ => some name

def importOf (s : State Name Content) (name : Name) (key : Key Name) (outcome : Outcome) (rest : List Name) :
    State Name Content :=
  { s with
    phase := .attempted name key outcome rest
    failCounts := Function.update s.failCounts key (if outcome = .failed then s.failCounts key + 1 else 0) }

/-- `is_file_stable` with the result of `stat`, whose fingerprint is kept. -/
def look (s : State Name Content) (settings : Settings) (name : Name) (key : Key Name) (rest : List Name)
    (file : Option (File Content)) (now : ℤ) : State Name Content :=
  let looked : State Name Content :=
    { s with fingerprints := Function.update s.fingerprints name (some (fingerprint settings file)) }
  match file with
  | none => { looked.mishap name with phase := .scanning rest }
  | some found =>
    if isFileStable settings file (s.fingerprints name) now then { looked with phase := .stable name key rest }
    else
      { looked with
        phase := .scanning rest
        lateVisits := Function.update s.lateVisits name
          (s.lateVisits name + if isLate settings found now then 1 else 0) }

end State

def step (settings : Settings) (s : State Name Content) : Action Name Content → Option (State Name Content)
  | .put name file => some { s.setFile name (some file) with seen := (name, file) :: s.seen }
  | .remove name => some (s.setFile name none)
  | .scan =>
    match s.phase with
    | .idle => some { s with processed := s.recorded.dedup, phase := .scanning s.scanInbox }
    | _ => none
  | .finish =>
    match s.phase with
    | .scanning [] => some { s with phase := .idle }
    | _ => none
  | .sampleKey stat =>
    match s.phase with
    | .scanning (name :: rest) =>
      some { s with phase := .keyed name (processedKey name (if stat then s.inbox name else none)) rest }
    | _ => none
  | .archiveDuplicate stamp moves =>
    match s.phase with
    | .keyed name key rest =>
      if key ∈ s.processed then some { (s.moveZip .processed name stamp moves).1 with phase := .scanning rest }
      else none
    | _ => none
  | .checkStable stat now =>
    match s.phase with
    | .keyed name key rest =>
      if key ∈ s.processed then none
      else some (s.look settings name key rest (if stat then s.inbox name else none) now)
    | _ => none
  | .importZip outcome =>
    match s.phase with
    | .stable name key rest =>
      match s.inbox name with
      | some file =>
        some { s.importOf name key outcome rest with
          log := .attempt name file outcome (processedKey name (some file) ∈ s.recorded) :: s.log
          attempts := Function.update s.attempts name (s.attempts name + 1)
          lateVisits := Function.update s.lateVisits name (s.lateVisits name + 1) }
      | none => some (s.importOf name key .failed rest)
    | _ => none
  | .settle stamp moves =>
    match s.phase with
    | .attempted name key .failed rest =>
      if s.failCounts key < failedZipMaxAttempts then some (s.leave name rest)
      else
        match s.moveZip .failed name stamp moves with
        | (t, true) => some { t.leave name rest with failCounts := Function.update t.failCounts key 0 }
        | (t, false) => some (t.leave name rest)
    | .attempted name key _ rest =>
      match s.moveZip .processed name stamp moves with
      | (t, true) => some { t with phase := .archived name key rest }
      | (t, false) => some (t.leave name rest)
    | _ => none
  | .record =>
    match s.phase with
    | .archived name key rest =>
      let processed := s.processed ++ [key, .bare name]
      some { s.leave name rest with processed := processed, recorded := saveProcessedSet processed }
    | _ => none
  | .restart pid =>
    some { s with
      processed := []
      fingerprints := fun _ => none
      failCounts := fun _ => 0
      pid := pid
      phase := .idle
      lateVisits := fun _ => 0
      attempts := fun _ => 0
      mishaps := fun _ => 0 }

end LocalWebAccess.InboxWatcher
