import LocalWebAccess.GuardedRuns
import Mathlib.Data.Nat.Notation

/-!
# The lock of the watcher

`daemon.lock` is a directory entry that points to an inode, and the exclusive lock belongs to
the inode. A watcher opens the entry, locks what it opened and works until it leaves.
The two stop routines remove the entry, which they decide from the pid in `daemon.json`.

The start lock of `start_daemon` is left out: the calls may interleave in any way.
-/
namespace LocalWebAccess.WatcherLock
open GuardedRuns

abbrev Pid := ℕ
abbrev Inode := ℕ
abbrev CallId := ℕ

/-- What `daemon.json` records. -/
structure DaemonState where
  enabled : Bool
  pid : Option Pid
  consecutiveStartFailures : ℕ
  deriving DecidableEq, Repr

/-- `state.pid` where it is neither `None` nor zero. -/
def DaemonState.recorded (d : DaemonState) : Option Pid := d.pid.filter (· ≠ 0)

/-- Where a watcher stands in `_main`, with the inode it has open. -/
inductive Pc where
  | starting
  | opened (i : Inode)
  | locked (i : Inode)
  | entered (i : Inode)
  | watching (i : Inode)
  | ended
  deriving DecidableEq, Repr

namespace Pc

def file : Pc → Option Inode
  | opened i => some i
  | locked i => some i
  | entered i => some i
  | watching i => some i
  | _ => none

def holds : Pc → Option Inode
  | locked i => some i
  | entered i => some i
  | watching i => some i
  | _ => none

/-- In the body of `daemon_lock`. -/
def body : Pc → Option Inode
  | entered i => some i
  | watching i => some i
  | _ => none

theorem holds_of_body {pc : Pc} {i : Inode} (h : pc.body = some i) : pc.holds = some i := by
  cases pc with
  | entered j => exact h
  | watching j => exact h
  | starting | opened | locked | ended => cases h

theorem file_of_holds {pc : Pc} {i : Inode} (h : pc.holds = some i) : pc.file = some i := by
  cases pc with
  | locked j => exact h
  | entered j => exact h
  | watching j => exact h
  | starting | opened | ended => cases h

end Pc

inductive Process where
  | watcher (pc : Pc)
  | other
  deriving DecidableEq, Repr

/-- Where a call of `start_daemon` stands; `old` is the state it read. -/
inductive StartPc where
  | reading
  | checking (old : Option DaemonState)
  | looking (old : Option DaemonState)
  | restoring (p : Pid)
  | intending (old : Option DaemonState)
  | spawning (state : DaemonState)
  | recording (state : DaemonState) (p : Pid)
  | waiting (state : DaemonState) (p : Pid)
  | failing (state : DaemonState) (child : Option Pid)
  | terminating (p : Pid)
  | finishing (state : DaemonState) (p : Pid)
  deriving DecidableEq, Repr

/-- `stop_daemon` or `stop_daemon_internal`. -/
inductive StopRoutine where
  | user
  | internal
  deriving DecidableEq, Repr

inductive StopPc where
  | reading
  | disabling (state : DaemonState)
  | checking (state : DaemonState)
  | rechecking (state : DaemonState)
  | terminating (state : DaemonState) (p : Pid)
  | terminated (state : DaemonState) (p : Pid)
  | unlinking (state : DaemonState)
  | clearing (state : DaemonState)
  deriving DecidableEq, Repr

inductive Call where
  | start (pc : StartPc)
  | stop (routine : StopRoutine) (pc : StopPc)
  deriving DecidableEq, Repr

/-- `payload` is the pid line of each lock file, `fresh` the next inode. -/
structure State where
  entry : Option Inode
  holder : Inode → Option Pid
  payload : Inode → Option Pid
  fresh : Inode
  daemon : Option DaemonState
  procs : Pid → Option Process
  calls : CallId → Option Call

namespace State

def initial (daemon : Option DaemonState) : State where
  entry := none
  holder := fun _ => none
  payload := fun _ => none
  fresh := 0
  daemon := daemon
  procs := fun _ => none
  calls := fun _ => none

def isPidAlive (s : State) (p : Pid) : Bool := (s.procs p).isSome

/-- `_live_watcher_lock_pid`; `recent` says that the heartbeat is not too old. -/
def liveWatcherLockPid (s : State) (recent : Bool) : Option Pid :=
  ((s.entry.bind s.payload).filter (fun p => s.isPidAlive p && recent))

/-- `is_running` after its second `read_state`. -/
def isRunning (s : State) (state : Option DaemonState) (recent : Bool) : Bool :=
  match state with
  | none => false
  | some d =>
    match d.recorded with
    | none => false
    | some p => d.enabled && s.isPidAlive p && (s.liveWatcherLockPid recent).isSome

def setPc (s : State) (p : Pid) (pc : Pc) : State :=
  { s with procs := Function.update s.procs p (some (.watcher pc)) }

/-- The locks of a process that ends are free. -/
def dies (s : State) (p : Pid) : State :=
  { s with
    procs := Function.update s.procs p none
    holder := fun i => (s.holder i).filter (· ≠ p) }

/-- Closing the file frees its lock. -/
def release (s : State) (p : Pid) (i : Inode) : State :=
  { s with holder := Function.update s.holder i none }.setPc p .ended

def setCall (s : State) (c : CallId) (call : Option Call) : State :=
  { s with calls := Function.update s.calls c call }

end State

inductive WatcherAction where
  | openLock (fault : Bool)
  | tryAcquire
  | writePayload (fault : Bool)
  | record
  | heartbeat
  | leave
  deriving DecidableEq, Repr

/-- What a step of a call meets: a torn `daemon.json`, a recent heartbeat, what can be read of a command
line and whether it names the daemon of this workspace, a fault or an expired deadline, and a new pid. -/
structure Observed where
  torn : Bool
  recent : Bool
  cmdline : Option Bool
  fault : Bool
  child : Pid
  deriving DecidableEq, Repr

inductive Action where
  | watcherStarts (p : Pid)
  | otherStarts (p : Pid)
  | dies (p : Pid)
  | watcher (p : Pid) (a : WatcherAction)
  | startCalled (c : CallId)
  | stopCalled (c : CallId) (routine : StopRoutine)
  | abandoned (c : CallId)
  | proceeds (c : CallId) (o : Observed)
  deriving DecidableEq, Repr

/-- `daemon_lock` and the body that `_main` runs in it. -/
def watcherStep (s : State) (p : Pid) : WatcherAction → Pc → Option State
  | .openLock true, .starting => some (s.setPc p .ended)
  | .openLock false, .starting =>
    match s.entry with
    | some i => some (s.setPc p (.opened i))
    | none =>
      some ({ s with
        entry := some s.fresh
        payload := Function.update s.payload s.fresh none
        fresh := s.fresh + 1 }.setPc p (.opened s.fresh))
  | .tryAcquire, .opened i =>
    match s.holder i with
    | some _ => some (s.setPc p .ended)
    | none => some ({ s with holder := Function.update s.holder i (some p) }.setPc p (.locked i))
  | .writePayload true, .locked i => some (s.release p i)
  | .writePayload false, .locked i =>
    some ({ s with payload := Function.update s.payload i (some p) }.setPc p (.entered i))
  | .record, .entered i => some ({ s with daemon := some ⟨true, some p, 0⟩ }.setPc p (.watching i))
  | .heartbeat, .watching _ =>
    -- the file is found by its name, and its pid line is kept
    match s.entry with
    | some j => some { s with payload := Function.update s.payload j ((s.payload j).or (some p)) }
    | none => some s
  | .leave, .entered i => some (s.release p i)
  | .leave, .watching i => some (s.release p i)
  | _, _ => none

def readState (s : State) (o : Observed) : Option DaemonState := if o.torn then none else s.daemon

/-- What is read of a command line; that of a watcher names the daemon. -/
def readPidCmdline (s : State) (p : Pid) (o : Observed) : Option Bool :=
  match s.procs p with
  | some (.watcher _) => o.cmdline.map (fun _ => true)
  | _ => o.cmdline

/-- `start_daemon` -/
def startStep (s : State) (c : CallId) (o : Observed) : StartPc → Option State
  | .reading => some (s.setCall c (some (.start (.checking (readState s o)))))
  | .checking old =>
    match old with
    | none => some (s.setCall c (some (.start (.looking old))))
    | some d =>
      if d.enabled && d.recorded.isSome && s.isRunning (readState s o) o.recent then
        if d.consecutiveStartFailures = 0 then some (s.setCall c none)
        else some ({ s with daemon := some { d with consecutiveStartFailures := 0 } }.setCall c none)
      else some (s.setCall c (some (.start (.looking old))))
  | .looking old =>
    match s.liveWatcherLockPid o.recent with
    | some p => some (s.setCall c (some (.start (.restoring p))))
    | none => some (s.setCall c (some (.start (.intending old))))
  | .restoring p => some ({ s with daemon := some ⟨true, some p, 0⟩ }.setCall c none)
  | .intending old =>
    let state : DaemonState := ⟨true, old.bind (·.pid), (old.map (·.consecutiveStartFailures)).getD 0⟩
    some ({ s with daemon := some state }.setCall c (some (.start (.spawning state))))
  | .spawning state =>
    if o.fault then some (s.setCall c (some (.start (.failing state none))))
    else if s.procs o.child = none ∧ o.child ≠ 0 then
      some ((s.setPc o.child .starting).setCall c (some (.start (.recording state o.child))))
    else none
  | .recording state p =>
    some ({ s with daemon := some { state with pid := some p } }.setCall c (some (.start (.waiting state p))))
  | .waiting state p =>
    if !s.isPidAlive p then some (s.setCall c (some (.start (.failing state (some p)))))
    else if s.liveWatcherLockPid o.recent = some p then some (s.setCall c (some (.start (.finishing state p))))
    else if o.fault then some (s.setCall c (some (.start (.failing state (some p)))))
    else some s
  | .failing state child =>
    some ({ s with
      daemon := some ⟨true, none, state.consecutiveStartFailures + 1⟩ }.setCall c
        ((child.filter s.isPidAlive).map (fun p => .start (.terminating p))))
  | .terminating p => if o.fault then some (s.setCall c none) else some ((s.dies p).setCall c none)
  | .finishing _ p => some ({ s with daemon := some ⟨true, some p, 0⟩ }.setCall c none)

/-- `stop_daemon` and `stop_daemon_internal` -/
def stopStep (s : State) (c : CallId) (o : Observed) (routine : StopRoutine) : StopPc → Option State
  | .reading =>
    match readState s o with
    | none => some (s.setCall c none)
    | some d =>
      match routine with
      | .user => some (s.setCall c (some (.stop routine (.disabling { d with enabled := false }))))
      | .internal => some (s.setCall c (some (.stop routine (.checking d))))
  | .disabling d => some ({ s with daemon := some d }.setCall c (some (.stop routine (.checking d))))
  | .checking d =>
    match d.recorded with
    | none => some (s.setCall c (some (.stop routine (.unlinking d))))
    | some p =>
      if s.isPidAlive p && readPidCmdline s p o != some true then
        match routine with
        | .user => some (s.setCall c (some (.stop routine (.rechecking d))))
        | .internal => some (s.setCall c (some (.stop routine (.unlinking d))))
      else some (s.setCall c (some (.stop routine (.terminating d p))))
  | .rechecking d =>
    match d.recorded.bind (fun p => readPidCmdline s p o) with
    | none => some (s.setCall c none)
    | some _ => some (s.setCall c (some (.stop routine (.unlinking d))))
  | .terminating d p =>
    if o.fault then some (s.setCall c (some (.stop routine (.terminated d p))))
    else some ((s.dies p).setCall c (some (.stop routine (.terminated d p))))
  | .terminated d p =>
    if s.isPidAlive p then some (s.setCall c none)
    else some (s.setCall c (some (.stop routine (.unlinking d))))
  | .unlinking d =>
    if o.fault then some (s.setCall c (some (.stop routine (.clearing d))))
    else some ({ s with entry := none }.setCall c (some (.stop routine (.clearing d))))
  | .clearing d =>
    match routine with
    | .user => some ({ s with daemon := some ⟨d.enabled, none, 0⟩ }.setCall c none)
    | .internal => some ({ s with daemon := some { d with pid := none } }.setCall c none)

/-- One action. A new process has a pid that no live process has. -/
def step (s : State) : Action → Option State
  | .watcherStarts p => if s.procs p = none ∧ p ≠ 0 then some (s.setPc p .starting) else none
  | .otherStarts p =>
    if s.procs p = none ∧ p ≠ 0 then some { s with procs := Function.update s.procs p (some .other) } else none
  | .dies p => some (s.dies p)
  | .watcher p a =>
    match s.procs p with
    | some (.watcher pc) => watcherStep s p a pc
    | _ => none
  | .startCalled c => if s.calls c = none then some (s.setCall c (some (.start .reading))) else none
  | .stopCalled c routine => if s.calls c = none then some (s.setCall c (some (.stop routine .reading))) else none
  | .abandoned c => some (s.setCall c none)
  | .proceeds c o =>
    match s.calls c with
    | some (.start pc) => startStep s c o pc
    | some (.stop routine pc) => stopStep s c o routine pc
    | none => none

namespace State

/-- What a live process has open. -/
def file (s : State) (p : Pid) : Option Inode :=
  match s.procs p with
  | some (.watcher pc) => pc.file
  | _ => none

def holds (s : State) (p : Pid) : Option Inode :=
  match s.procs p with
  | some (.watcher pc) => pc.holds
  | _ => none

def body (s : State) (p : Pid) : Option Inode :=
  match s.procs p with
  | some (.watcher pc) => pc.body
  | _ => none

end State

/-- The process is alive and in the body of `daemon_lock`. -/
def Inside (s : State) (p : Pid) : Prop := (s.body p).isSome

def Exclusive (s : State) : Prop := ∀ p q, Inside s p → Inside s q → p = q

/-- Some live watcher has the file open that the entry points to. -/
def Opened (s : State) : Prop := ∃ p i, s.file p = some i ∧ s.entry = some i

/-- A stop routine removes the entry only while no live watcher has the file open. -/
def UnlinksClosed (s : State) : Action → Prop
  | .proceeds c o => ∀ routine d, s.calls c = some (.stop routine (.unlinking d)) → o.fault = false → ¬ Opened s
  | _ => True

section invariant

variable {s t : State} {p q : Pid} {pc : Pc} {i : Inode}

/-! ## The lock has one holder -/

@[simp] theorem file_setPc : (s.setPc p pc).file q = if q = p then pc.file else s.file q := by
  by_cases same : q = p <;> simp [State.file, State.setPc, same]

@[simp] theorem holds_setPc : (s.setPc p pc).holds q = if q = p then pc.holds else s.holds q := by
  by_cases same : q = p <;> simp [State.holds, State.setPc, same]

@[simp] theorem body_setPc : (s.setPc p pc).body q = if q = p then pc.body else s.body q := by
  by_cases same : q = p <;> simp [State.body, State.setPc, same]

@[simp] theorem file_dies : (s.dies p).file q = if q = p then none else s.file q := by
  by_cases same : q = p <;> simp [State.file, State.dies, same]

@[simp] theorem holds_dies : (s.dies p).holds q = if q = p then none else s.holds q := by
  by_cases same : q = p <;> simp [State.holds, State.dies, same]

theorem holds_of_body (h : s.body p = some i) : s.holds p = some i := by
  unfold State.body at h
  unfold State.holds
  split at h
  case h_1 => exact Pc.holds_of_body h
  case h_2 => cases h

theorem file_of_holds (h : s.holds p = some i) : s.file p = some i := by
  unfold State.holds at h
  unfold State.file
  split at h
  case h_1 => exact Pc.file_of_holds h
  case h_2 => cases h

/-- A lock is held by the process that has it, and the inodes in use are older than the next one. -/
structure Inv (s : State) : Prop where
  locks : ∀ p i, s.holds p = some i ↔ s.holder i = some p
  below : ∀ p i, s.file p = some i → i < s.fresh
  entry : ∀ i, s.entry = some i → i < s.fresh

/-- Whoever has a lock file open has the one that the entry points to. -/
def Shared (s : State) : Prop := ∀ p i, s.file p = some i → s.entry = some i

theorem inv_initial (daemon : Option DaemonState) : Inv (State.initial daemon) := by
  constructor <;> simp [State.initial, State.holds, State.file]

theorem shared_initial (daemon : Option DaemonState) : Shared (State.initial daemon) := by
  intro p i there
  cases there

theorem exclusive_of_shared (h : Inv s) (shared : Shared s) : Exclusive s := by
  intro p q inside inside'
  obtain ⟨i, body⟩ := Option.isSome_iff_exists.mp inside
  obtain ⟨j, body'⟩ := Option.isSome_iff_exists.mp inside'
  have entry := shared p i (file_of_holds (holds_of_body body))
  have entry' := shared q j (file_of_holds (holds_of_body body'))
  obtain rfl : i = j := Option.some.inj (entry.symm.trans entry')
  have held := (h.locks p i).mp (holds_of_body body)
  have held' := (h.locks q i).mp (holds_of_body body')
  exact Option.some.inj (held.symm.trans held')

/-- One process moves, and the others keep what they have open and locked. -/
theorem Inv.move (h : Inv s) (p : Pid) (held : ∀ q ≠ p, t.holds q = s.holds q)
    (holder : ∀ q ≠ p, ∀ i, t.holder i = some q ↔ s.holder i = some q)
    (mine : ∀ i, t.holds p = some i ↔ t.holder i = some p) (grows : s.fresh ≤ t.fresh)
    (file : ∀ q ≠ p, t.file q = s.file q) (opened : ∀ i, t.file p = some i → i < t.fresh)
    (entry : ∀ i, t.entry = some i → i < t.fresh) : Inv t where
  locks := by
    intro q i
    by_cases same : q = p
    · subst same
      exact mine i
    · rw [held q same, holder q same]
      exact h.locks q i
  below := by
    intro q i there
    by_cases same : q = p
    · subst same
      exact opened i there
    · rw [file q same] at there
      exact Nat.lt_of_lt_of_le (h.below q i there) grows
  entry := entry

/-- A process changes its place without a lock taken or given up. -/
theorem Inv.setPc (h : Inv s) (held : pc.holds = s.holds p) (opened : ∀ i, pc.file = some i → i < s.fresh) :
    Inv (s.setPc p pc) := by
  refine h.move p (fun q other => by simp [other]) (fun _ _ _ => Iff.rfl) (fun i => ?_) (Nat.le_refl _)
    (fun q other => by simp [other]) (fun i there => opened i (by simpa using there)) h.entry
  simp only [holds_setPc, if_true, held]
  exact h.locks p i

theorem Inv.dies (h : Inv s) (p : Pid) : Inv (s.dies p) := by
  have filtered (i : Inode) (q : Pid) : (s.dies p).holder i = some q ↔ s.holder i = some q ∧ q ≠ p := by
    simp [State.dies, Option.filter_eq_some_iff]
  refine h.move p (fun q other => by simp [other]) (fun q other i => ?_) (fun i => ?_) (Nat.le_refl _)
    (fun q other => by simp [other]) (fun i there => by simp at there) h.entry
  · rw [filtered]
    exact and_iff_left other
  · rw [filtered]
    simp

theorem Inv.release (h : Inv s) (held : s.holds p = some i) : Inv (s.release p i) := by
  have holder := (h.locks p i).mp held
  refine h.move p (fun q other => by simp [State.release, State.holds, State.setPc, other]) (fun q other j => ?_)
    (fun j => ?_) (Nat.le_refl _) (fun q other => by simp [State.release, State.file, State.setPc, other])
    (fun j there => by simp [State.release, Pc.file] at there) h.entry
  · change Function.update s.holder i none j = some q ↔ _
    by_cases same : j = i
    · subst same
      simp [holder, Ne.symm other]
    · rw [Function.update_of_ne same]
  · change _ ↔ Function.update s.holder i none j = some p
    have nothing : (s.release p i).holds p = none := by simp [State.release, Pc.holds]
    rw [nothing]
    by_cases same : j = i
    · subst same
      simp
    · rw [Function.update_of_ne same]
      refine ⟨(by simp), fun there => absurd ?_ same⟩
      exact Option.some.inj (((h.locks p j).mpr there).symm.trans held)

theorem Inv.acquire (h : Inv s) (idle : s.holds p = none) (free : s.holder i = none) (opened : i < s.fresh) :
    Inv ({ s with holder := Function.update s.holder i (some p) }.setPc p (.locked i)) := by
  refine h.move p (fun q other => by simp [State.holds, State.setPc, other]) (fun q other j => ?_) (fun j => ?_)
    (Nat.le_refl _)
    (fun q other => by simp [State.file, State.setPc, other]) (fun j there => ?_) h.entry
  · change Function.update s.holder i (some p) j = some q ↔ _
    by_cases same : j = i
    · subst same
      simp [free, Ne.symm other]
    · rw [Function.update_of_ne same]
  · change _ ↔ Function.update s.holder i (some p) j = some p
    simp only [holds_setPc, if_true, Pc.holds]
    by_cases same : j = i
    · subst same
      simp
    · rw [Function.update_of_ne same]
      refine ⟨fun h => absurd (Option.some.inj h).symm same, fun there => ?_⟩
      rw [(h.locks p j).mpr there] at idle
      cases idle
  · simp only [file_setPc, if_true, Pc.file] at there
    obtain rfl := Option.some.inj there
    exact opened

/-! ## What the steps do to the lock -/

/-- Only `daemon.json`, the pid lines and the calls differ. -/
structure Kept (s t : State) : Prop where
  entry : t.entry = s.entry
  holder : t.holder = s.holder
  fresh : t.fresh = s.fresh
  procs : t.procs = s.procs

theorem Kept.file (h : Kept s t) (p : Pid) : t.file p = s.file p := by
  unfold State.file
  rw [h.procs]

theorem Kept.holds (h : Kept s t) (p : Pid) : t.holds p = s.holds p := by
  unfold State.holds
  rw [h.procs]

theorem Kept.inv (h : Kept s t) (inv : Inv s) : Inv t where
  locks := fun p i => by rw [h.holds, h.holder]; exact inv.locks p i
  below := fun p i there => by rw [h.fresh]; exact inv.below p i (h.file p ▸ there)
  entry := fun i there => by rw [h.fresh]; exact inv.entry i (h.entry ▸ there)

theorem Kept.shared (h : Kept s t) (shared : Shared s) : Shared t := by
  intro p i there
  rw [h.entry]
  exact shared p i (h.file p ▸ there)

theorem Shared.setPc (shared : Shared s) (opened : ∀ i, pc.file = some i → s.entry = some i) :
    Shared (s.setPc p pc) := by
  intro q i there
  by_cases same : q = p
  · exact opened i (by simpa [same] using there)
  · exact shared q i (by simpa [same] using there)

theorem Shared.dies (shared : Shared s) (p : Pid) : Shared (s.dies p) := by
  intro q i there
  by_cases same : q = p
  · simp [same] at there
  · exact shared q i (by simpa [same] using there)

/-- A step of `start_daemon` may create a watcher or end one. -/
theorem startStep_kept {c : CallId} {o : Observed} {place : StartPc} (taken : startStep s c o place = some t) :
    Kept s t ∨ (∃ p, s.procs p = none ∧ Kept (s.setPc p .starting) t) ∨ ∃ p, Kept (s.dies p) t := by
  cases place with
  | reading | restoring | intending | recording | failing | finishing =>
    cases taken
    exact .inl ⟨rfl, rfl, rfl, rfl⟩
  | checking old =>
    cases old with
    | none =>
      cases taken
      exact .inl ⟨rfl, rfl, rfl, rfl⟩
    | some d =>
      simp only [startStep] at taken
      split_ifs at taken <;> cases taken <;> exact .inl ⟨rfl, rfl, rfl, rfl⟩
  | looking old =>
    simp only [startStep] at taken
    split at taken <;> cases taken <;> exact .inl ⟨rfl, rfl, rfl, rfl⟩
  | spawning d =>
    simp only [startStep] at taken
    split_ifs at taken with fault new <;> cases taken
    · exact .inl ⟨rfl, rfl, rfl, rfl⟩
    · exact .inr (.inl ⟨o.child, new.1, ⟨rfl, rfl, rfl, rfl⟩⟩)
  | waiting d p =>
    simp only [startStep] at taken
    split_ifs at taken <;> cases taken <;> exact .inl ⟨rfl, rfl, rfl, rfl⟩
  | terminating p =>
    simp only [startStep] at taken
    split_ifs at taken <;> cases taken
    · exact .inl ⟨rfl, rfl, rfl, rfl⟩
    · exact .inr (.inr ⟨p, ⟨rfl, rfl, rfl, rfl⟩⟩)

/-- A step of a stop routine may end a process or remove the entry. -/
theorem stopStep_kept {c : CallId} {o : Observed} {routine : StopRoutine} {place : StopPc}
    (taken : stopStep s c o routine place = some t) :
    Kept s t ∨ (∃ p, Kept (s.dies p) t) ∨
      (∃ d, place = .unlinking d) ∧ o.fault = false ∧ Kept { s with entry := none } t := by
  cases place with
  | disabling =>
    cases taken
    exact .inl ⟨rfl, rfl, rfl, rfl⟩
  | reading | checking | rechecking | terminated | clearing =>
    simp only [stopStep] at taken
    split at taken
    all_goals first
      | (cases taken; exact .inl ⟨rfl, rfl, rfl, rfl⟩)
      | (split at taken <;> first | (cases taken; exact .inl ⟨rfl, rfl, rfl, rfl⟩) |
          (split at taken <;> cases taken <;> exact .inl ⟨rfl, rfl, rfl, rfl⟩))
  | terminating d p =>
    simp only [stopStep] at taken
    split_ifs at taken <;> cases taken
    · exact .inl ⟨rfl, rfl, rfl, rfl⟩
    · exact .inr (.inl ⟨p, ⟨rfl, rfl, rfl, rfl⟩⟩)
  | unlinking d =>
    simp only [stopStep] at taken
    split_ifs at taken with fault <;> cases taken
    · exact .inl ⟨rfl, rfl, rfl, rfl⟩
    · exact .inr (.inr ⟨⟨d, rfl⟩, by simpa using fault, ⟨rfl, rfl, rfl, rfl⟩⟩)

theorem watcherStep_inv (h : Inv s) (found : s.procs p = some (.watcher pc)) {a : WatcherAction}
    (taken : watcherStep s p a pc = some t) : Inv t := by
  have holds : s.holds p = pc.holds := by simp only [State.holds, found]
  have file : s.file p = pc.file := by simp only [State.file, found]
  unfold watcherStep at taken
  split at taken
  case h_1 =>
    cases taken
    exact h.setPc holds.symm (fun i there => by cases there)
  case h_2 =>
    split at taken <;> cases taken
    case h_1 i entry =>
      refine h.setPc holds.symm (fun j there => ?_)
      cases there
      exact h.entry i entry
    case h_2 entry =>
      have grown : Inv { s with
          entry := some s.fresh
          payload := Function.update s.payload s.fresh none
          fresh := s.fresh + 1 } :=
        ⟨h.locks, fun q i there => Nat.lt_succ_of_lt (h.below q i there), fun i there => by
          cases there
          exact Nat.lt_succ_self _⟩
      refine grown.setPc holds.symm (fun j there => ?_)
      cases there
      exact Nat.lt_succ_self _
  case h_3 i =>
    have opened : i < s.fresh := h.below p i file
    split at taken <;> cases taken
    · exact h.setPc holds.symm (fun j there => by cases there)
    · exact h.acquire holds (by assumption) opened
  case h_4 i =>
    cases taken
    exact h.release holds
  case h_5 i =>
    cases taken
    have written : Inv { s with payload := Function.update s.payload i (some p) } := ⟨h.locks, h.below, h.entry⟩
    exact written.setPc holds.symm (fun j there => h.below p j (file.trans there))
  case h_6 i =>
    cases taken
    have written : Inv { s with daemon := some ⟨true, some p, 0⟩ } := ⟨h.locks, h.below, h.entry⟩
    exact written.setPc holds.symm (fun j there => h.below p j (file.trans there))
  case h_7 =>
    split at taken <;> cases taken
    · exact ⟨h.locks, h.below, h.entry⟩
    · exact h
  case h_8 i =>
    cases taken
    exact h.release holds
  case h_9 i =>
    cases taken
    exact h.release holds
  case h_10 => cases taken

theorem step_inv (h : Inv s) {a : Action} (taken : step s a = some t) : Inv t := by
  cases a with
  | watcherStarts p =>
    obtain ⟨⟨free, -⟩, ⟨⟩⟩ := Option.ite_none_right_eq_some.mp taken
    exact h.setPc (by simp [State.holds, free, Pc.holds]) (fun i there => by cases there)
  | otherStarts p =>
    obtain ⟨⟨free, -⟩, ⟨⟩⟩ := Option.ite_none_right_eq_some.mp taken
    have nothing : s.holds p = none := by simp [State.holds, free]
    refine h.move p (fun q other => by simp [State.holds, other]) (fun _ _ _ => Iff.rfl) (fun i => ?_) (Nat.le_refl _)
      (fun q other => by simp [State.file, other]) (fun i there => by simp [State.file] at there) h.entry
    rw [← h.locks p i, nothing]
    simp [State.holds]
  | dies p =>
    cases taken
    exact h.dies p
  | watcher p a =>
    simp only [step] at taken
    split at taken
    case h_1 pc found => exact watcherStep_inv h found taken
    case h_2 => cases taken
  | startCalled c =>
    obtain ⟨-, ⟨⟩⟩ := Option.ite_none_right_eq_some.mp taken
    exact ⟨h.locks, h.below, h.entry⟩
  | stopCalled c routine =>
    obtain ⟨-, ⟨⟩⟩ := Option.ite_none_right_eq_some.mp taken
    exact ⟨h.locks, h.below, h.entry⟩
  | abandoned c =>
    cases taken
    exact ⟨h.locks, h.below, h.entry⟩
  | proceeds c o =>
    simp only [step] at taken
    split at taken
    case h_1 place found =>
      rcases startStep_kept taken with kept | ⟨p, free, kept⟩ | ⟨p, kept⟩
      · exact kept.inv h
      · exact kept.inv (h.setPc (by simp [State.holds, free, Pc.holds]) (fun i there => by cases there))
      · exact kept.inv (h.dies p)
    case h_2 routine place found =>
      rcases stopStep_kept taken with kept | ⟨p, kept⟩ | ⟨-, -, kept⟩
      · exact kept.inv h
      · exact kept.inv (h.dies p)
      · exact kept.inv ⟨h.locks, h.below, fun i there => by cases there⟩
    case h_3 => cases taken

theorem watcherStep_shared (shared : Shared s) (found : s.procs p = some (.watcher pc)) {a : WatcherAction}
    (taken : watcherStep s p a pc = some t) : Shared t := by
  have file : s.file p = pc.file := by simp only [State.file, found]
  unfold watcherStep at taken
  split at taken
  case h_1 =>
    cases taken
    exact shared.setPc (fun i there => by cases there)
  case h_2 =>
    split at taken <;> cases taken
    case h_1 i entry =>
      refine shared.setPc (fun j there => ?_)
      cases there
      exact entry
    case h_2 entry =>
      -- nobody else has a file open, since the entry would point to it
      intro q j there
      by_cases same : q = p
      · subst same
        simp only [file_setPc, if_true] at there
        exact there
      · have opened : s.file q = some j := by simpa [State.file, State.setPc, same] using there
        rw [shared q j opened] at entry
        cases entry
  case h_3 i =>
    have opened : s.entry = some i := shared p i file
    split at taken <;> cases taken
    · exact shared.setPc (fun j there => by cases there)
    · have acquired : Shared { s with holder := Function.update s.holder i (some p) } := shared
      exact acquired.setPc (fun j there => by cases there; exact opened)
  case h_5 i =>
    cases taken
    have written : Shared { s with payload := Function.update s.payload i (some p) } := shared
    exact written.setPc (fun j there => shared p j (file.trans there))
  case h_6 i =>
    cases taken
    have written : Shared { s with daemon := some ⟨true, some p, 0⟩ } := shared
    exact written.setPc (fun j there => shared p j (file.trans there))
  case h_7 => split at taken <;> cases taken <;> exact shared
  case h_4 i | h_8 i | h_9 i =>
    cases taken
    have released : Shared { s with holder := Function.update s.holder i none } := shared
    exact released.setPc (fun j there => by cases there)
  case h_10 => cases taken

theorem step_shared (shared : Shared s) {a : Action} (guard : UnlinksClosed s a) (taken : step s a = some t) :
    Shared t := by
  cases a with
  | watcherStarts p =>
    obtain ⟨-, ⟨⟩⟩ := Option.ite_none_right_eq_some.mp taken
    exact shared.setPc (fun i there => by cases there)
  | otherStarts p =>
    obtain ⟨-, ⟨⟩⟩ := Option.ite_none_right_eq_some.mp taken
    intro q i there
    by_cases same : q = p
    · simp [State.file, same] at there
    · exact shared q i (by simpa [State.file, same] using there)
  | dies p =>
    cases taken
    exact shared.dies p
  | watcher p a =>
    simp only [step] at taken
    split at taken
    case h_1 pc found => exact watcherStep_shared shared found taken
    case h_2 => cases taken
  | startCalled c =>
    obtain ⟨-, ⟨⟩⟩ := Option.ite_none_right_eq_some.mp taken
    exact shared
  | stopCalled c routine =>
    obtain ⟨-, ⟨⟩⟩ := Option.ite_none_right_eq_some.mp taken
    exact shared
  | abandoned c =>
    cases taken
    exact shared
  | proceeds c o =>
    simp only [step] at taken
    split at taken
    case h_1 place found =>
      rcases startStep_kept taken with kept | ⟨p, -, kept⟩ | ⟨p, kept⟩
      · exact kept.shared shared
      · exact kept.shared (shared.setPc (fun i there => by cases there))
      · exact kept.shared (shared.dies p)
    case h_2 routine place found =>
      rcases stopStep_kept taken with kept | ⟨p, kept⟩ | ⟨⟨d, rfl⟩, fault, kept⟩
      · exact kept.shared shared
      · exact kept.shared (shared.dies p)
      · have closed := guard routine d found fault
        refine kept.shared (fun p i there => ?_)
        exact absurd ⟨p, i, there, shared p i there⟩ closed
    case h_3 => cases taken

/-! ## Removing the entry of an open file -/

/-- What a process does until it is in the body: the other processes and the entry stay. -/
structure Enters (p : Pid) (s t : State) : Prop where
  inside : Inside t p
  entry : t.entry = s.entry
  procs : ∀ q ≠ p, t.procs q = s.procs q

theorem locked_enters (found : s.procs p = some (.watcher (.locked i))) :
    ∃ t, Run step anyStep s [.watcher p (.writePayload false)] t ∧ Enters p s t := by
  have written : step s (.watcher p (.writePayload false)) =
      some ({ s with payload := Function.update s.payload i (some p) }.setPc p (.entered i)) := by
    simp only [step, found, watcherStep]
  refine ⟨_, .cons trivial written (.refl _), ?_, rfl, fun q other => ?_⟩
  · simp [Inside, Pc.body]
  · exact Function.update_of_ne other _ _

/-- A watcher that has its file open gets into the body where nobody else holds the lock. -/
theorem opened_enters (h : Inv s) (opened : s.file p = some i) (mine : ∀ q, s.holder i = some q → q = p) :
    ∃ trace t, Run step anyStep s trace t ∧ Enters p s t := by
  unfold State.file at opened
  split at opened
  case h_2 => cases opened
  case h_1 pc found =>
    cases pc with
    | starting | ended => cases opened
    | opened j =>
      cases opened
      have free : s.holder i = none := by
        cases holder : s.holder i with
        | none => rfl
        | some q =>
          rw [mine q holder] at holder
          have held := (h.locks p i).mpr holder
          simp [State.holds, found, Pc.holds] at held
      have acquired : step s (.watcher p .tryAcquire) =
          some ({ s with holder := Function.update s.holder i (some p) }.setPc p (.locked i)) := by
        simp only [step, found, watcherStep, free]
      obtain ⟨t, run, enters⟩ := locked_enters (s := { s with
        holder := Function.update s.holder i (some p) }.setPc p (.locked i)) (Function.update_self ..)
      refine ⟨_, t, .cons trivial acquired run, enters.inside, enters.entry, fun q other => ?_⟩
      exact (enters.procs q other).trans (Function.update_of_ne other _ _)
    | locked j =>
      cases opened
      obtain ⟨t, run, enters⟩ := locked_enters found
      exact ⟨_, t, run, enters⟩
    | entered j | watching j =>
      exact ⟨[], s, .refl s, by simp [Inside, State.body, found, Pc.body], rfl, fun _ _ => rfl⟩

/-- Where there is no entry, a new watcher gets into the body whatever the others hold. -/
theorem new_enters (h : Inv s) (removed : s.entry = none) (free : s.procs p = none) (named : p ≠ 0) :
    ∃ trace t, Run step anyStep s trace t ∧ Inside t p ∧ ∀ q ≠ p, t.procs q = s.procs q := by
  have starts : step s (.watcherStarts p) = some (s.setPc p .starting) := if_pos ⟨free, named⟩
  have opens : ∃ t, step (s.setPc p .starting) (.watcher p (.openLock false)) = some t ∧
      t.file p = some s.fresh ∧ t.holder = s.holder ∧ ∀ q ≠ p, t.procs q = s.procs q := by
    simp only [step, State.setPc, Function.update_self, watcherStep, removed]
    refine ⟨_, rfl, by simp [State.file, Pc.file], rfl, fun q other => ?_⟩
    exact (Function.update_of_ne other _ _).trans (Function.update_of_ne other _ _)
  obtain ⟨t, opens, file, holder, others⟩ := opens
  have inv : Inv t := step_inv (step_inv h starts) opens
  have unlocked (q : Pid) (held : t.holder s.fresh = some q) : q = p := by
    rw [holder] at held
    have below := h.below q s.fresh (file_of_holds ((h.locks q s.fresh).mpr held))
    exact absurd below (Nat.lt_irrefl _)
  obtain ⟨trace, z, run, enters⟩ := opened_enters inv file unlocked
  exact ⟨_, z, .cons trivial starts (.cons trivial opens run), enters.inside, fun q other =>
    (enters.procs q other).trans (others q other)⟩

/-- The condition on the stop routines is exact: where one removes the entry of an open file, the run
goes on to a second watcher in the body. -/
theorem opened_unlink_breaks (h : Inv s) {c : CallId} {o : Observed} {routine : StopRoutine} {d : DaemonState}
    (removes : s.calls c = some (.stop routine (.unlinking d))) (fault : o.fault = false) (opened : Opened s)
    (free : s.procs p = none) (named : p ≠ 0) :
    ∃ trace t, Run step anyStep s (.proceeds c o :: trace) t ∧ ¬ Exclusive t := by
  obtain ⟨q, i, file, -⟩ := opened
  have first : ∃ q, s.file q = some i ∧ ∀ r, s.holder i = some r → r = q := by
    cases holder : s.holder i with
    | none => exact ⟨q, file, fun r held => by cases held⟩
    | some r => exact ⟨r, file_of_holds ((h.locks r i).mpr holder), fun r' held => (Option.some.inj held).symm⟩
  obtain ⟨q, file, alone⟩ := first
  have taken : step s (.proceeds c o) =
      some ({ s with entry := none }.setCall c (some (.stop routine (.clearing d)))) := by
    simp [step, removes, stopStep, fault]
  have inv := step_inv h taken
  obtain ⟨trace, t, run, enters⟩ := opened_enters inv file alone
  have distinct : p ≠ q := by
    rintro rfl
    simp [State.file, free] at file
  have still : t.procs p = none := (enters.procs p distinct).trans free
  have inv' : Inv t := run.invariant inv fun _ _ _ h _ taken => step_inv h taken
  obtain ⟨trace', z, run', inside, others⟩ := new_enters inv' enters.entry still named
  refine ⟨trace ++ trace', z, .cons trivial taken (run.append run'), fun exclusive => distinct ?_⟩
  have stays : Inside z q := by
    have first := enters.inside
    unfold Inside State.body at first ⊢
    rw [others q (Ne.symm distinct)]
    exact first
  exact exclusive p q inside stays

end invariant

/-- In every run in which the stop routines remove the entry only while no live watcher has the file
open, at most one watcher is in the body of `daemon_lock`. -/
theorem one_watcher {daemon : Option DaemonState} {trace : List Action} {s : State}
    (run : Run step UnlinksClosed (State.initial daemon) trace s) : Exclusive s := by
  have start : Inv (State.initial daemon) ∧ Shared (State.initial daemon) := ⟨inv_initial daemon, shared_initial daemon⟩
  have both := run.invariant (P := fun s => Inv s ∧ Shared s) start
    fun _ _ _ h guard taken => ⟨step_inv h.1 taken, step_shared h.2 guard taken⟩
  exact exclusive_of_shared both.1 both.2

def calmly : Observed where
  torn := false
  recent := true
  cmdline := some false
  fault := false
  child := 0

/-- The pid in `daemon.json` is of a watcher that has crashed, and the next watcher has the lock
but has not written its own yet. -/
def staleStop : List Action :=
  [.watcherStarts 10, .watcher 10 (.openLock false), .watcher 10 .tryAcquire, .watcher 10 (.writePayload false),
    .watcher 10 .record, .dies 10,
    .watcherStarts 11, .watcher 11 (.openLock false), .watcher 11 .tryAcquire, .watcher 11 (.writePayload false),
    .stopCalled 0 .internal, .proceeds 0 calmly, .proceeds 0 calmly, .proceeds 0 calmly, .proceeds 0 calmly,
    .proceeds 0 calmly,
    .watcherStarts 12, .watcher 12 (.openLock false), .watcher 12 .tryAcquire, .watcher 12 (.writePayload false)]

theorem stale_stop_two_watchers : ¬ ∀ (daemon : Option DaemonState) (trace : List Action) (s : State),
    Run step anyStep (State.initial daemon) trace s → Exclusive s := by
  intro claim
  have ran : ∃ s, exec step (State.initial none) staleStop = some s ∧ Inside s 11 ∧ Inside s 12 := ⟨_, rfl, rfl, rfl⟩
  obtain ⟨s, run, inside, inside'⟩ := ran
  have same := claim none staleStop s (Run.of_exec run) 11 12 inside inside'
  cases same

/-- A stop ends the watcher before it removes the entry, and the next watcher has the lock. -/
def orderlyStop : List Action :=
  [.watcherStarts 10, .watcher 10 (.openLock false), .watcher 10 .tryAcquire, .watcher 10 (.writePayload false),
    .watcher 10 .record, .stopCalled 0 .user, .proceeds 0 calmly, .proceeds 0 calmly,
    .proceeds 0 { calmly with cmdline := some true }, .proceeds 0 calmly, .proceeds 0 calmly, .proceeds 0 calmly,
    .watcherStarts 11, .watcher 11 (.openLock false), .watcher 11 .tryAcquire, .watcher 11 (.writePayload false)]

theorem one_watcher_orderly : ∃ s, Run step UnlinksClosed (State.initial none) orderlyStop s ∧ Inside s 11 ∧
    s.entry = some 1 ∧ Exclusive s := by
  have ran : ∃ s, Run step UnlinksClosed (State.initial none) orderlyStop s ∧ Inside s 11 ∧ s.entry = some 1 := by
    refine ⟨_, .cons trivial rfl <| .cons trivial rfl <| .cons trivial rfl <| .cons trivial rfl <|
      .cons trivial rfl <| .cons trivial rfl <| .cons ?_ rfl <| .cons ?_ rfl <| .cons ?_ rfl <| .cons ?_ rfl <|
      .cons ?_ rfl <| .cons ?_ rfl <| .cons trivial rfl <| .cons trivial rfl <| .cons trivial rfl <|
      .cons trivial rfl <| .refl _, rfl, rfl⟩
    case refine_6 =>
      rintro - - - - ⟨p, i, there, -⟩
      by_cases same : p = 10 <;> simp [State.file, State.setCall, State.dies, State.setPc, State.initial, same] at there
    all_goals
      intro routine d unlinking
      cases unlinking
  obtain ⟨s, run, inside, entry⟩ := ran
  exact ⟨s, run, inside, entry, one_watcher run⟩

end LocalWebAccess.WatcherLock
