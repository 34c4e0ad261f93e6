import LocalWebAccess.GuardedRuns

/-!
# The locks of the manager

`manager_start_lock` and `manager_instance_lock` lock an inode that they have opened by its path, and
write a record with the marker `flock` into it. A process of the old version knows nothing of this: it
creates the file where there is none, writes its pid into it, and removes it at its end. What the new
version reads in the file decides whether it waits for such a process.
-/
namespace LocalWebAccess.ManagerLocks
open GuardedRuns

abbrev Pid := ℕ
abbrev Inode := ℕ

/-- The pid line of a lock file, and whether the line `flock` follows. -/
structure Record where
  pid : Pid
  marked : Bool
  deriving DecidableEq, Repr

/-- `blank` is the newline of `ensure_lockable`. -/
inductive Payload where
  | empty
  | blank
  | record (r : Record)
  deriving DecidableEq, Repr

/-- `_read_lock_payload`, without the `OSError`s. -/
def readLockPayload : Payload → Option Record
  | .empty => none
  | .blank => none
  | .record r => some r

/-- `_LOCK_TAKEOVER_ATTEMPTS` -/
def lockTakeoverAttempts : ℕ := 5

/-- `_EMPTY_LOCK_CLAIM_SECONDS`, in nanoseconds like every time here. -/
def emptyLockClaimNs : ℕ := 60000000000

/-- `_EMPTY_LOCK_WATCH_SECONDS` -/
def emptyLockWatchNs : ℕ := 5000000000

/-- What the processes share. `fresh` is the next inode. -/
structure Shared where
  now : ℕ
  path : Option Inode
  payload : Inode → Payload
  mtime : Inode → ℕ
  holder : Inode → Option Pid
  fresh : Inode

namespace Shared

def write (d : Shared) (i : Inode) (x : Payload) : Shared :=
  { d with
    payload := Function.update d.payload i x
    mtime := Function.update d.mtime i d.now }

/-- A new file at the path. -/
def create (d : Shared) : Shared :=
  { d.write d.fresh .empty with
    path := some d.fresh
    fresh := d.fresh + 1 }

/-- `ensure_lockable` -/
def ensureLockable (d : Shared) (i : Inode) : Shared :=
  if d.payload i = .empty then d.write i .blank else d

def lock (d : Shared) (i : Inode) (p : Pid) : Shared :=
  { d with holder := Function.update d.holder i (some p) }

/-- The locks of a process are free. -/
def unlock (d : Shared) (p : Pid) : Shared :=
  { d with holder := fun i => (d.holder i).filter (· ≠ p) }

end Shared

/-- Which of the two locks it is. -/
inductive LockKind where
  | startLock
  | instanceLock
  deriving DecidableEq, Repr

/-- Where a call stands, with the inode it has open. -/
inductive Pc where
  | opening (tries : ℕ)
  | creating (tries : ℕ)
  | created (i : Inode)
  | reading (i : Inode)
  /-- `_await_empty_lock_record`, at the head of its loop. -/
  | watching (i : Inode)
  | comparing (i : Inode)
  | observing (i : Inode)
  | aging (i : Inode)
  | aged (i : Inode) (time : ℕ)
  | rereading (i : Inode)
  | judging (i : Inode) (r : Record)
  /-- The start lock waits for a process of the old version. -/
  | waiting (i : Inode) (holder : Pid)
  | polling (i : Inode) (holder : Pid)
  | polled (i : Inode) (holder : Pid)
  | settling (i : Inode) (holder : Pid)
  | settled (i : Inode)
  | matching (i : Inode) (holder : Pid)
  | claiming (i : Inode)
  | acquiring (i : Inode)
  | checking (i : Inode)
  | publishing (i : Inode)
  | rechecking (i : Inode)
  | releasing (i : Inode)
  | inside (i : Inode)
  deriving DecidableEq, Repr

structure Call where
  attempts : ℕ
  deadline : ℕ
  pc : Pc
  deriving DecidableEq, Repr

/-- `recycle` -/
def recycle (c : Call) : Option Call :=
  if c.attempts ≤ 1 then none else some { c with attempts := c.attempts - 1, pc := .opening 3 }

/-- The next step of a call; without a call it has been refused. -/
def lockStep (kind : LockKind) (isPidAlive managerPidMatches : Pid → Bool) (d : Shared) (p : Pid) (c : Call) :
    Shared × Option Call :=
  match c.pc with
  -- `_open_lock_file`
  | .opening 0 => (d, none)
  | .opening (tries + 1) =>
    match d.path with
    | some i => (d, some { c with pc := .reading i })
    | none => (d, some { c with pc := .creating tries })
  | .creating tries =>
    match d.path with
    | some _ => (d, some { c with pc := .opening tries })
    | none => (d.create, some { c with pc := .created d.fresh })
  | .created i => (d.write i (.record ⟨p, true⟩), some { c with pc := .claiming i })
  | .reading i =>
    match readLockPayload (d.payload i) with
    | some r => (d, some { c with pc := .judging i r })
    | none =>
      match kind with
      | .startLock => (d, some { c with pc := .watching i })
      | .instanceLock => (d, some { c with deadline := d.now + emptyLockWatchNs, pc := .watching i })
  -- `_await_empty_lock_record`
  | .watching i =>
    if d.now < c.deadline then (d, some { c with pc := .comparing i }) else (d, some { c with pc := .aging i })
  | .comparing i => if d.path = some i then (d, some { c with pc := .observing i }) else (d, recycle c)
  | .observing i =>
    match readLockPayload (d.payload i) with
    | some _ => (d, some { c with pc := .rereading i })
    | none => (d, some { c with pc := .watching i })
  | .aging i => (d, some { c with pc := .aged i d.now })
  | .aged i time =>
    if d.mtime i + emptyLockClaimNs ≤ time then (d, some { c with pc := .claiming i }) else (d, none)
  | .rereading i =>
    match readLockPayload (d.payload i) with
    | some r => (d, some { c with pc := .judging i r })
    | none => (d, some { c with pc := .claiming i })
  | .judging i r =>
    if 0 < r.pid ∧ isPidAlive r.pid ∧ r.marked = false then
      match kind with
      | .startLock => (d, some { c with pc := .waiting i r.pid })
      | .instanceLock =>
        if r.pid = p then (d, some { c with pc := .claiming i }) else (d, some { c with pc := .matching i r.pid })
    else (d, some { c with pc := .claiming i })
  | .waiting i holder =>
    if d.now < c.deadline then (d, some { c with pc := .polling i holder })
    else (d, some { c with pc := .settling i holder })
  | .polling i holder =>
    if d.path = some i then (d, some { c with pc := .polled i holder })
    else (d, some { c with pc := .settling i holder })
  | .polled i holder =>
    if isPidAlive holder then (d, some { c with pc := .waiting i holder })
    else (d, some { c with pc := .settling i holder })
  | .settling i holder => if isPidAlive holder then (d, some { c with pc := .settled i }) else (d, recycle c)
  | .settled i => if d.path = some i then (d, none) else (d, recycle c)
  | .matching i holder => if managerPidMatches holder then (d, none) else (d, some { c with pc := .claiming i })
  | .claiming i => (d.ensureLockable i, some { c with pc := .acquiring i })
  | .acquiring i =>
    match d.holder i with
    | none => (d.lock i p, some { c with pc := .checking i })
    | some _ =>
      match kind with
      | .startLock => if d.now < c.deadline then (d, some { c with pc := .opening 3 }) else (d, none)
      | .instanceLock => (d, none)
  | .checking i =>
    if d.path = some i then (d, some { c with pc := .publishing i }) else (d, some { c with pc := .releasing i })
  | .publishing i => (d.write i (.record ⟨p, true⟩), some { c with pc := .rechecking i })
  | .rechecking i =>
    if d.path = some i then (d, some { c with pc := .inside i }) else (d, some { c with pc := .releasing i })
  | .releasing _ => (d.unlock p, recycle c)
  | .inside _ => (d, some c)

/-- Where the process of the old version stands. -/
inductive Old where
  | ahead
  | created (p : Pid) (i : Inode) (since : ℕ)
  | working (p : Pid) (i : Inode)
  | finished (p : Pid)
  | dead
  deriving DecidableEq, Repr

namespace Old

/-- The process while it is alive. -/
def pid : Old → Option Pid
  | created p _ _ => some p
  | working p _ => some p
  | finished p => some p
  | _ => none

/-- The process while the file is its lock. -/
def holder : Old → Option Pid
  | created p _ _ => some p
  | working p _ => some p
  | _ => none

/-- The file that has its pid. -/
def file : Old → Option Inode
  | working _ i => some i
  | _ => none

end Old

structure State where
  shared : Shared
  alive : Pid → Bool
  calls : Pid → Option Call
  old : Old

inductive Action where
  | tick (n : ℕ)
  | starts (p : Pid)
  | dies (p : Pid)
  | called (p : Pid) (timeout : ℕ)
  /-- `matched` is what `_manager_pid_matches` finds of a process that is no manager of the old version. -/
  | proceeds (p : Pid) (matched : Bool)
  /-- The body or an exception ends the call. -/
  | ends (p : Pid)
  | oldCreates (p : Pid)
  | oldWrites
  | oldUnlinks
  deriving DecidableEq, Repr

def State.setCall (s : State) (p : Pid) (c : Option Call) : State :=
  { s with calls := Function.update s.calls p c }

/-- The record of the process of the old version names a manager of this workspace. -/
def State.managerPidMatches (s : State) (matched : Bool) (p : Pid) : Bool :=
  decide (s.old.pid = some p) || matched

def step (kind : LockKind) (s : State) : Action → Option State
  | .tick n =>
    match s.old with
    -- the pid is written less than 60 seconds after the file has been created
    | .created _ _ since =>
      if s.shared.now + n < since + emptyLockClaimNs then
        some { s with shared := { s.shared with now := s.shared.now + n } }
      else none
    | _ => some { s with shared := { s.shared with now := s.shared.now + n } }
  | .starts p =>
    if s.alive p = false ∧ 0 < p then some { s with alive := Function.update s.alive p true } else none
  | .dies p =>
    some {
      shared := s.shared.unlock p
      alive := Function.update s.alive p false
      calls := Function.update s.calls p none
      old := if s.old.pid = some p then .dead else s.old }
  | .called p timeout =>
    if s.alive p ∧ s.calls p = none ∧ s.old.pid ≠ some p then
      some (s.setCall p (some ⟨lockTakeoverAttempts, s.shared.now + timeout, .opening 3⟩))
    else none
  | .proceeds p matched =>
    match s.calls p with
    | none => none
    | some c =>
      let next := lockStep kind s.alive (s.managerPidMatches matched) s.shared p c
      some ({ s with shared := next.1 }.setCall p next.2)
  | .ends p =>
    some ({ s with shared := s.shared.unlock p }.setCall p none)
  | .oldCreates p =>
    if s.old = .ahead ∧ s.alive p ∧ 0 < p ∧ s.calls p = none ∧ s.shared.path = none then
      some { s with shared := s.shared.create, old := .created p s.shared.fresh s.shared.now }
    else none
  | .oldWrites =>
    match s.old with
    | .created p i _ => some { s with shared := s.shared.write i (.record ⟨p, false⟩), old := .working p i }
    | _ => none
  | .oldUnlinks =>
    match s.old with
    | .working p _ => some { s with shared := { s.shared with path := none }, old := .finished p }
    | _ => none

/-- No file, or one that a dead process has left. -/
def State.initial (now : ℕ) (leftover : Option (Payload × ℕ)) : State where
  shared := {
    now := now
    path := leftover.map fun _ => 0
    payload := fun _ => (leftover.map (·.1)).getD .empty
    mtime := fun _ => (leftover.map (·.2)).getD now
    holder := fun _ => none
    fresh := 1 }
  alive := fun _ => false
  calls := fun _ => none
  old := .ahead

/-- A call is in its body, which has this inode locked. -/
def Holds (s : State) (p : Pid) (i : Inode) : Prop := ∃ c, s.calls p = some c ∧ c.pc = .inside i

/-- The process is in the locked section. -/
def Inside (s : State) (p : Pid) : Prop := (∃ i, Holds s p i) ∨ s.old.holder = some p

/-- The file that a call is about to claim for its age. -/
def Pc.expired (d : Shared) : Pc → Option Inode
  | .aged i time => if d.mtime i + emptyLockClaimNs ≤ time then some i else none
  | _ => none

/-- A file is not claimed for its age while the process of the old version works with its pid in it. -/
def Kept (s : State) : Action → Prop
  | .proceeds p _ => ∀ c ∈ s.calls p, ∀ i ∈ c.pc.expired s.shared, s.old.file ≠ some i
  | _ => True

/-! ## One step of a call -/

namespace Pc

/-- What the call has open. -/
def file : Pc → Option Inode
  | opening _ => none
  | creating _ => none
  | created i | reading i | watching i | comparing i | observing i | aging i | aged i _ | rereading i => some i
  | judging i _ | waiting i _ | polling i _ | polled i _ | settling i _ | settled i | matching i _ => some i
  | claiming i | acquiring i | checking i | publishing i | rechecking i | releasing i | inside i => some i

/-- What the call has locked. -/
def holds : Pc → Option Inode
  | checking i | publishing i | rechecking i | releasing i | inside i => some i
  | _ => none

theorem file_of_holds {pc : Pc} {i : Inode} (h : pc.holds = some i) : pc.file = some i := by
  cases pc <;> first | exact h | cases h

end Pc

variable {kind : LockKind} {isPidAlive managerPidMatches : Pid → Bool} {d e : Shared} {p q : Pid} {i j : Inode}
  {c c' : Call} {next : Option Call} {pc : Pc}

theorem pc_of_recycle (h : recycle c = some c') : c'.pc = .opening 3 := by
  unfold recycle at h
  split_ifs at h
  cases h
  rfl

@[simp] theorem holds_recycle : (recycle c).bind (·.pc.holds) = none := by
  unfold recycle
  split_ifs <;> rfl

@[simp] theorem path_create : d.create.path = some d.fresh := rfl
@[simp] theorem path_write (x : Payload) : (d.write i x).path = d.path := rfl
@[simp] theorem path_lock : (d.lock i p).path = d.path := rfl
@[simp] theorem path_unlock : (d.unlock p).path = d.path := rfl
@[simp] theorem now_create : d.create.now = d.now := rfl
@[simp] theorem now_write (x : Payload) : (d.write i x).now = d.now := rfl
@[simp] theorem now_lock : (d.lock i p).now = d.now := rfl
@[simp] theorem now_unlock : (d.unlock p).now = d.now := rfl
@[simp] theorem holder_create : d.create.holder = d.holder := rfl
@[simp] theorem holder_write (x : Payload) : (d.write i x).holder = d.holder := rfl

@[simp] theorem path_ensureLockable : (d.ensureLockable i).path = d.path := by
  unfold Shared.ensureLockable
  split <;> rfl

@[simp] theorem now_ensureLockable : (d.ensureLockable i).now = d.now := by
  unfold Shared.ensureLockable
  split <;> rfl

@[simp] theorem holder_ensureLockable : (d.ensureLockable i).holder = d.holder := by
  unfold Shared.ensureLockable
  split <;> rfl

theorem holder_lock (free : d.holder i = none) (j : Inode) :
    (d.lock i p).holder j = some q ↔ d.holder j = some q ∨ (j = i ∧ q = p) := by
  by_cases same : j = i
  · subst same
    simp [Shared.lock, free, eq_comm]
  · simp [Shared.lock, same]

theorem holder_unlock (j : Inode) : (d.unlock p).holder j = some q ↔ d.holder j = some q ∧ q ≠ p := by
  simp [Shared.unlock, Option.filter_eq_some_iff]

/-- What a call relies on: the file that it writes into or works with is at the path, and the time it
has read is over. -/
def Fits (d : Shared) : Pc → Prop
  | .publishing i | .rechecking i | .inside i => d.path = some i
  | .aged _ time => time ≤ d.now
  | _ => True

theorem Fits.mono (h : Fits d pc) (path : ∀ i, d.path = some i → e.path = some i) (now : d.now ≤ e.now) :
    Fits e pc := by
  cases pc with
  | publishing i | rechecking i | inside i => exact path i h
  | aged i time => exact Nat.le_trans h now
  | _ => trivial

theorem fits_recycle : ∀ c' ∈ recycle c, Fits d c'.pc := by
  intro c' again
  rw [pc_of_recycle again]
  trivial

/-- What a step of a call does to the files, and what the call then holds and has open. -/
inductive LockMove (d : Shared) (p : Pid) (c : Call) : Shared → Option Call → Prop where
  | refused (free : c.pc.holds = none) : LockMove d p c d none
  | recycled (free : c.pc.holds = none) : LockMove d p c d (recycle c)
  | goes (c' : Call) (held : c'.pc.holds = c.pc.holds) (fits : Fits d c.pc → Fits d c'.pc)
      (file : ∀ j, c'.pc.file = some j → c.pc.file = some j ∨ d.path = some j) : LockMove d p c d (some c')
  | creates (c' : Call) (missing : d.path = none) (free : c.pc.holds = none) (next : c'.pc = .created d.fresh) :
      LockMove d p c d.create (some c')
  | writes (c' : Call) (i : Inode) (x : Payload) (held : c'.pc.holds = c.pc.holds) (fits : Fits d c.pc → Fits d c'.pc)
      (file : c'.pc.file = c.pc.file) : LockMove d p c (d.write i x) (some c')
  | readies (c' : Call) (i : Inode) (at_pc : c.pc = .claiming i) (next : c'.pc = .acquiring i) :
      LockMove d p c (d.ensureLockable i) (some c')
  | locks (c' : Call) (i : Inode) (at_pc : c.pc = .acquiring i) (free : d.holder i = none)
      (next : c'.pc = .checking i) : LockMove d p c (d.lock i p) (some c')
  | releases (i : Inode) (at_pc : c.pc = .releasing i) : LockMove d p c (d.unlock p) (recycle c)

theorem lockStep_move : LockMove d p c (lockStep kind isPidAlive managerPidMatches d p c).1
    (lockStep kind isPidAlive managerPidMatches d p c).2 := by
  obtain ⟨attempts, deadline, pc⟩ := c
  have same {i : Inode} {j : Inode} (file : some i = some j) : some i = some j ∨ d.path = some j := .inl file
  unfold lockStep
  cases pc with
  | opening tries =>
    cases tries with
    | zero => exact .refused rfl
    | succ tries =>
      dsimp only
      cases at_path : d.path with
      | none => exact .goes _ rfl (fun _ => trivial) nofun
      | some i => exact .goes _ rfl (fun _ => trivial) fun j file => .inr (at_path.trans file)
  | creating tries =>
    dsimp only
    cases at_path : d.path with
    | none => exact .creates _ at_path rfl rfl
    | some i => exact .goes _ rfl (fun _ => trivial) nofun
  | created i => exact .writes _ i _ rfl (fun _ => trivial) rfl
  | reading i =>
    dsimp only
    split
    · exact .goes _ rfl (fun _ => trivial) fun j => same
    · cases kind
      all_goals exact .goes _ rfl (fun _ => trivial) fun j => same
  | watching i | observing i | rereading i | polling i _ | polled i _ | waiting i _ =>
    dsimp only
    split
    all_goals exact .goes _ rfl (fun _ => trivial) fun j => same
  | comparing i =>
    dsimp only
    split
    · exact .goes _ rfl (fun _ => trivial) fun j => same
    · exact .recycled rfl
  | aging i => exact .goes _ rfl (fun _ => Nat.le_refl _) fun j => same
  | aged i time =>
    dsimp only
    split
    · exact .goes _ rfl (fun _ => trivial) fun j => same
    · exact .refused rfl
  | judging i r =>
    dsimp only
    split
    · cases kind with
      | startLock => exact .goes _ rfl (fun _ => trivial) fun j => same
      | instanceLock =>
        dsimp only
        split
        all_goals exact .goes _ rfl (fun _ => trivial) fun j => same
    · exact .goes _ rfl (fun _ => trivial) fun j => same
  | settling i holder =>
    dsimp only
    split
    · exact .goes _ rfl (fun _ => trivial) fun j => same
    · exact .recycled rfl
  | settled i =>
    dsimp only
    split
    · exact .refused rfl
    · exact .recycled rfl
  | matching i holder =>
    dsimp only
    split
    · exact .refused rfl
    · exact .goes _ rfl (fun _ => trivial) fun j => same
  | claiming i => exact .readies _ i rfl rfl
  | acquiring i =>
    dsimp only
    cases at_holder : d.holder i with
    | none => exact .locks _ i rfl at_holder rfl
    | some q =>
      cases kind with
      | startLock =>
        dsimp only
        split
        · exact .goes _ rfl (fun _ => trivial) nofun
        · exact .refused rfl
      | instanceLock => exact .refused rfl
  | checking i =>
    dsimp only
    split
    · rename_i at_path
      exact .goes _ rfl (fun _ => at_path) fun j => same
    · exact .goes _ rfl (fun _ => trivial) fun j => same
  | publishing i => exact .writes _ i _ rfl id rfl
  | rechecking i =>
    dsimp only
    split
    · rename_i at_path
      exact .goes _ rfl (fun _ => at_path) fun j => same
    · exact .goes _ rfl (fun _ => trivial) fun j => same
  | releasing i => exact .releases i rfl
  | inside i => exact .goes _ rfl id fun j => same

/-- A file at the path stays there. -/
theorem LockMove.path (move : LockMove d p c e next) (path : d.path = some i) : e.path = some i := by
  cases move with
  | creates c' missing =>
    rw [missing] at path
    cases path
  | readies c' j => exact path_ensureLockable.trans path
  | _ => exact path

theorem LockMove.now (move : LockMove d p c e next) : e.now = d.now := by
  cases move with
  | readies c' j => exact now_ensureLockable
  | _ => rfl

/-- The locks of the other processes stay as they are. -/
theorem LockMove.holder_of_ne (move : LockMove d p c e next) (other : q ≠ p) :
    e.holder j = some q ↔ d.holder j = some q := by
  cases move with
  | readies c' i => rw [holder_ensureLockable]
  | locks c' i at_pc free =>
    rw [holder_lock free]
    exact or_iff_left fun both => other both.2
  | releases i =>
    rw [holder_unlock]
    exact and_iff_left other
  | _ => exact Iff.rfl

/-- What a process has locked is what its call has locked. -/
theorem LockMove.holder_self (move : LockMove d p c e next) (owned : ∀ i, d.holder i = some p ↔ c.pc.holds = some i)
    (j : Inode) : e.holder j = some p ↔ next.bind (·.pc.holds) = some j := by
  cases move with
  | refused free =>
    rw [owned, free]
    exact Iff.rfl
  | recycled free => rw [owned, free, holds_recycle]
  | goes c' held =>
    rw [owned, ← held]
    exact Iff.rfl
  | creates c' missing free next =>
    rw [holder_create, owned, free, Option.bind_some, next]
    exact Iff.rfl
  | writes c' i x held =>
    rw [holder_write, owned, ← held]
    exact Iff.rfl
  | readies c' i at_pc next =>
    rw [holder_ensureLockable, owned, at_pc, Option.bind_some, next]
    exact Iff.rfl
  | locks c' i at_pc free next =>
    rw [holder_lock free, owned, at_pc, Option.bind_some, next]
    simp [Pc.holds, eq_comm]
  | releases i at_pc =>
    rw [holder_unlock, holds_recycle]
    exact ⟨fun both => absurd rfl both.2, nofun⟩

theorem LockMove.fits (move : LockMove d p c e next) (h : Fits d c.pc) : ∀ c' ∈ next, Fits e c'.pc := by
  have later {c' : Call} {e : Shared} (path : e.path = d.path) (now : e.now = d.now) (fits : Fits d c'.pc) :
      Fits e c'.pc := fits.mono (fun i at_path => path.trans at_path) (Nat.le_of_eq now.symm)
  cases move with
  | refused => exact nofun
  | recycled => exact fits_recycle
  | goes c' held fits =>
    rintro _ ⟨⟩
    exact fits h
  | creates c' missing free next =>
    rintro _ ⟨⟩
    rw [next]
    trivial
  | writes c' i x held fits =>
    rintro _ ⟨⟩
    exact later rfl rfl (fits h)
  | readies c' i at_pc next =>
    rintro _ ⟨⟩
    rw [next]
    trivial
  | locks c' i at_pc free next =>
    rintro _ ⟨⟩
    rw [next]
    trivial
  | releases => exact fits_recycle

/-- A call opens what is at the path. -/
theorem LockMove.file (move : LockMove d p c e next) : ∀ c' ∈ next, ∀ j, c'.pc.file = some j →
    c.pc.file = some j ∨ e.path = some j := by
  have recycled {e : Shared} : ∀ c' ∈ recycle c, ∀ j, c'.pc.file = some j → c.pc.file = some j ∨ e.path = some j := by
    intro c' again j file
    rw [pc_of_recycle again] at file
    cases file
  cases move with
  | refused => exact nofun
  | recycled => exact recycled
  | goes c' held fits file =>
    rintro _ ⟨⟩
    exact file
  | creates c' missing free next =>
    rintro _ ⟨⟩ j file
    rw [next] at file
    exact .inr file
  | writes c' i x held fits file =>
    rintro _ ⟨⟩ j named
    exact .inl (file.symm.trans named)
  | readies c' i at_pc next =>
    rintro _ ⟨⟩ j file
    rw [next] at file
    exact .inl (by rw [at_pc]; exact file)
  | locks c' i at_pc free next =>
    rintro _ ⟨⟩ j file
    rw [next] at file
    exact .inl (by rw [at_pc]; exact file)
  | releases => exact recycled

/-! ## While the process of the old version has the file -/

/-- A call that waits for the process of the old version, or has not noticed it yet. -/
def Defers (q : Pid) (i : Inode) (written : Bool) : Pc → Prop
  | .opening _ | .creating _ => True
  | .reading j | .watching j | .comparing j | .observing j | .aging j | .aged j _ => j = i
  | .rereading j | .settled j => j = i ∧ written = true
  | .judging j r => j = i ∧ written = true ∧ r = ⟨q, false⟩
  | .waiting j holder | .polling j holder | .polled j holder | .settling j holder | .matching j holder =>
    j = i ∧ written = true ∧ holder = q
  | _ => False

/-- What the process of the old version has written. -/
def oldPayload (q : Pid) (written : Bool) : Payload := if written then .record ⟨q, false⟩ else .empty

theorem Defers.write (h : Defers q i false pc) : Defers q i true pc := by
  cases pc with
  | rereading | settled => exact absurd h.2 Bool.false_ne_true
  | judging | waiting | polling | polled | settling | matching => exact absurd h.2.1 Bool.false_ne_true
  | _ => exact h

/-- Such a call leaves everything as it is, as long as it does not find the file old enough. -/
theorem defers_lockStep (kind : LockKind) {written : Bool} (h : Defers q i written c.pc) (path : d.path = some i)
    (payload : d.payload i = oldPayload q written) (positive : 0 < q) (alive : isPidAlive q = true) (other : q ≠ p)
    (matched : managerPidMatches q = true) (young : ∀ time, c.pc = .aged i time → time < d.mtime i + emptyLockClaimNs) :
    (lockStep kind isPidAlive managerPidMatches d p c).1 = d ∧
      ∀ c' ∈ (lockStep kind isPidAlive managerPidMatches d p c).2, Defers q i written c'.pc := by
  have recycled : ∀ c' ∈ recycle c, Defers q i written c'.pc := by
    intro c' again
    rw [pc_of_recycle again]
    trivial
  have read : readLockPayload (d.payload i) = if written then some ⟨q, false⟩ else none := by
    rw [payload]
    cases written <;> rfl
  fun_cases lockStep kind isPidAlive managerPidMatches d p c
  case case17 j time at_pc old =>
    rw [at_pc] at h
    obtain rfl : j = i := h
    exact absurd (young time at_pc) (Nat.not_lt.mpr old)
  all_goals constructor
  all_goals first | exact recycled | (clear recycled; simp_all [Defers])

theorem holds_of_defers {written : Bool} (h : Defers q i written pc) : pc.holds = none := by
  cases pc <;> first | rfl | exact h.elim

theorem defers_of_file_eq_none {written : Bool} (h : pc.file = none) : Defers q i written pc := by
  cases pc <;> trivial

theorem Defers.fits {written : Bool} (h : Defers q i written pc) (fits : Fits d pc) (now : d.now = e.now) :
    Fits e pc := by
  cases pc with
  | publishing | rechecking | inside => exact h.elim
  | aged j time => exact Nat.le_trans fits (Nat.le_of_eq now)
  | _ => trivial

/-! ## The invariant -/

variable {s t : State} {calls : Pid → Option Call}

/-- How far the process of the old version has come, and what the calls do in the meantime. -/
def OldFits (d : Shared) (calls : Pid → Option Call) : Old → Prop
  | .ahead => d.path = none → ∀ p c, calls p = some c → c.pc.file = none
  | .created q i since => d.path = some i ∧ d.payload i = oldPayload q false ∧ d.mtime i = since ∧
      d.now < since + emptyLockClaimNs ∧ ∀ p c, calls p = some c → Defers q i false c.pc
  | .working q i => d.path = some i ∧ d.payload i = oldPayload q true ∧
      ∀ p c, calls p = some c → Defers q i true c.pc
  | .finished _ => True
  | .dead => True

structure Inv (s : State) : Prop where
  locks : ∀ p i, s.shared.holder i = some p ↔ (s.calls p).bind (·.pc.holds) = some i
  calls : ∀ p c, s.calls p = some c → Fits s.shared c.pc
  oldPid : ∀ q, s.old.pid = some q → 0 < q ∧ s.alive q = true ∧ s.calls q = none
  old : OldFits s.shared s.calls s.old

theorem inv_initial (now : ℕ) (leftover : Option (Payload × ℕ)) : Inv (State.initial now leftover) := by
  constructor
  · exact fun p i => ⟨nofun, nofun⟩
  · exact nofun
  · exact nofun
  · exact fun _ => nofun

theorem Inv.path_of_holds (h : Inv s) (inside : Holds s p i) : s.shared.path = some i := by
  obtain ⟨c, call, pc⟩ := inside
  have fits := h.calls p c call
  rw [pc] at fits
  exact fits

/-- While the process of the old version has the file, no call is in its body. -/
theorem Inv.not_holds (h : Inv s) (old : s.old.holder = some q) : ¬Holds s p i := by
  rintro ⟨c, call, pc⟩
  have fits := h.old
  cases at_old : s.old with
  | created q' j since =>
    rw [at_old] at fits
    have defers := fits.2.2.2.2 p c call
    rw [pc] at defers
    exact defers
  | working q' j =>
    rw [at_old] at fits
    have defers := fits.2.2 p c call
    rw [pc] at defers
    exact defers
  | ahead | finished | dead =>
    rw [at_old] at old
    cases old

theorem Inv.exclusive (h : Inv s) (inside : Inside s p) (inside' : Inside s q) : p = q := by
  rcases inside with ⟨i, holds⟩ | old <;> rcases inside' with ⟨j, holds'⟩ | old'
  · have same := (h.path_of_holds holds).symm.trans (h.path_of_holds holds')
    obtain rfl := Option.some.inj same
    obtain ⟨c, call, pc⟩ := holds
    obtain ⟨c', call', pc'⟩ := holds'
    have locked := (h.locks p i).mpr (by rw [call, Option.bind_some, pc]; rfl)
    have locked' := (h.locks q i).mpr (by rw [call', Option.bind_some, pc']; rfl)
    exact Option.some.inj (locked.symm.trans locked')
  · exact absurd holds (h.not_holds old')
  · exact absurd holds' (h.not_holds old)
  · exact Option.some.inj (old.symm.trans old')

theorem calls_setCall (c : Option Call) : (s.setCall p c).calls q = if q = p then c else s.calls q := by
  simp [State.setCall, Function.update_apply]

/-- One process goes on or ends its call. -/
theorem Inv.setCall (h : Inv s) {next : Option Call}
    (others : ∀ q, q ≠ p → ∀ i, e.holder i = some q ↔ s.shared.holder i = some q)
    (own : ∀ i, e.holder i = some p ↔ next.bind (·.pc.holds) = some i) (fits : ∀ c ∈ next, Fits e c.pc)
    (path : ∀ i, s.shared.path = some i → e.path = some i) (now : s.shared.now ≤ e.now)
    (young : ∀ c ∈ next, s.old.pid ≠ some p) (old : OldFits e (({ s with shared := e }.setCall p next)).calls s.old) :
    Inv ({ s with shared := e }.setCall p next) where
  locks q i := by
    rw [calls_setCall]
    split_ifs with same
    · exact same ▸ own i
    · exact (others q same i).trans (h.locks q i)
  calls q c call := by
    rw [calls_setCall] at call
    split_ifs at call
    · exact fits c call
    · exact (h.calls q c call).mono path now
  oldPid q at_old := by
    obtain ⟨positive, alive, idle⟩ := h.oldPid q at_old
    refine ⟨positive, alive, ?_⟩
    rw [calls_setCall]
    split_ifs with same
    · exact Option.eq_none_iff_forall_not_mem.mpr fun c among => young c among (same ▸ at_old)
    · exact idle
  old := old

/-- A call of the process goes on to a file that is there, or defers to the process of the old version. -/
theorem OldFits.setCall {old : Old} {next : Option Call} (h : OldFits d s.calls old)
    (path : e.path = d.path) (payload : e.payload = d.payload) (mtime : e.mtime = d.mtime) (now : e.now = d.now)
    (unopened : old = .ahead → d.path = none → ∀ c ∈ next, c.pc.file = none)
    (created : ∀ q i since, old = .created q i since → ∀ c ∈ next, Defers q i false c.pc)
    (working : ∀ q i, old = .working q i → ∀ c ∈ next, Defers q i true c.pc) :
    OldFits e (s.setCall p next).calls old := by
  have others {P : Call → Prop} (before : ∀ q c, s.calls q = some c → P c) (own : ∀ c ∈ next, P c) :
      ∀ q c, (s.setCall p next).calls q = some c → P c := by
    intro q c call
    rw [calls_setCall] at call
    split_ifs at call
    · exact own c call
    · exact before q c call
  cases old with
  | ahead => exact fun none => others (h (path ▸ none)) (unopened rfl (path ▸ none))
  | created q i since =>
    obtain ⟨at_path, empty, written, young, defers⟩ := h
    exact ⟨path ▸ at_path, payload ▸ empty, mtime ▸ written, now ▸ young, others defers (created q i since rfl)⟩
  | working q i =>
    obtain ⟨at_path, record, defers⟩ := h
    exact ⟨path ▸ at_path, payload ▸ record, others defers (working q i rfl)⟩
  | finished | dead => trivial

theorem Inv.proceeds {matched : Bool} (h : Inv s) (kept : Kept s (.proceeds p matched)) (call : s.calls p = some c) :
    Inv ({ s with shared := (lockStep kind s.alive (s.managerPidMatches matched) s.shared p c).1 }.setCall p
      (lockStep kind s.alive (s.managerPidMatches matched) s.shared p c).2) := by
  have young : s.old.pid ≠ some p := by
    intro old
    rw [(h.oldPid p old).2.2] at call
    cases call
  have owned (i : Inode) : s.shared.holder i = some p ↔ c.pc.holds = some i := by
    rw [h.locks, call, Option.bind_some]
  have move := @lockStep_move kind s.alive (s.managerPidMatches matched) s.shared p c
  refine h.setCall (fun q other i => move.holder_of_ne other) (move.holder_self owned) (move.fits (h.calls p c call))
    (fun i => move.path) (Nat.le_of_eq move.now.symm) (fun _ _ => young) ?_
  have other {q : Pid} (old : s.old.pid = some q) : q ≠ p := by
    rintro rfl
    exact young old
  have matches' {q : Pid} (old : s.old.pid = some q) : s.managerPidMatches matched q = true := by
    simp [State.managerPidMatches, old]
  have fits := h.old
  cases at_old : s.old with
  | ahead =>
    rw [at_old] at fits
    intro none q c' call'
    have before : s.shared.path = .none := by
      refine Option.eq_none_iff_forall_not_mem.mpr fun i path => ?_
      rw [move.path path] at none
      cases none
    rw [calls_setCall] at call'
    split_ifs at call'
    · refine Option.eq_none_iff_forall_not_mem.mpr fun i file => ?_
      rcases move.file c' call' i file with opened | path
      · rw [fits before p c call] at opened
        cases opened
      · rw [path] at none
        cases none
    · exact fits before q c' call'
  | created q i since =>
    have old : s.old.pid = some q := by rw [at_old]; rfl
    obtain ⟨positive, alive, -⟩ := h.oldPid q old
    rw [at_old] at fits
    have ⟨path, payload, mtime, now, defers⟩ := fits
    have still := defers_lockStep kind (defers p c call) path payload positive alive (other old) (matches' old)
      fun time at_pc => by
        have read := h.calls p c call
        rw [at_pc] at read
        exact Nat.lt_of_le_of_lt read (mtime ▸ now)
    rw [still.1]
    refine fits.setCall rfl rfl rfl rfl nofun (fun q' j since' same => ?_) nofun
    cases same
    exact still.2
  | working q i =>
    have old : s.old.pid = some q := by rw [at_old]; rfl
    obtain ⟨positive, alive, -⟩ := h.oldPid q old
    rw [at_old] at fits
    have ⟨path, payload, defers⟩ := fits
    have still := defers_lockStep kind (defers p c call) path payload positive alive (other old) (matches' old)
      fun time at_pc => by
        refine Nat.lt_of_not_le fun claimed => ?_
        have expired : c.pc.expired s.shared = some i := by
          rw [at_pc]
          exact if_pos claimed
        exact kept c call i expired (by rw [at_old]; rfl)
    rw [still.1]
    refine fits.setCall rfl rfl rfl rfl nofun nofun (fun q' j same => ?_)
    cases same
    exact still.2
  | finished | dead => trivial

theorem Inv.ends (h : Inv s) (p : Pid) : Inv ({ s with shared := s.shared.unlock p }.setCall p none) := by
  refine h.setCall (fun q other i => ?_) (fun i => ?_) nofun (fun i path => path) (Nat.le_refl _) nofun ?_
  · rw [holder_unlock]
    exact and_iff_left other
  · rw [holder_unlock]
    exact ⟨fun both => absurd rfl both.2, nofun⟩
  · exact h.old.setCall rfl rfl rfl rfl (fun _ _ => nofun) (fun _ _ _ _ => nofun) (fun _ _ _ => nofun)

theorem Inv.called {timeout : ℕ} (h : Inv s) (idle : s.calls p = none) (young : s.old.pid ≠ some p) :
    Inv (s.setCall p (some ⟨lockTakeoverAttempts, s.shared.now + timeout, .opening 3⟩)) := by
  refine h.setCall (fun q other i => Iff.rfl) (fun i => ?_) (fun c new => ?_) (fun i path => path) (Nat.le_refl _)
    (fun _ _ => young) ?_
  · rw [h.locks, idle]
    exact ⟨nofun, nofun⟩
  · cases new
    trivial
  · refine h.old.setCall rfl rfl rfl rfl (fun _ _ c new => ?_) (fun _ _ _ _ c new => ?_) (fun _ _ _ c new => ?_)
    all_goals cases new; trivial

theorem Inv.onward {a : Action} (h : Inv s) (kept : Kept s a) (h' : step kind s a = some t) : Inv t := by
  cases a with
  | tick n =>
    have later : s.shared.now ≤ s.shared.now + n := Nat.le_add_right _ _
    have calls (q : Pid) (c : Call) (call : s.calls q = some c) :
        Fits { s.shared with now := s.shared.now + n } c.pc := (h.calls q c call).mono (fun i path => path) later
    have fits := h.old
    simp only [step] at h'
    split at h'
    · rename_i q i since at_old
      split_ifs at h' with young
      cases h'
      rw [at_old] at fits
      obtain ⟨path, payload, mtime, -, defers⟩ := fits
      exact ⟨h.locks, calls, h.oldPid, by rw [at_old]; exact ⟨path, payload, mtime, young, defers⟩⟩
    · rename_i uncreated
      cases h'
      refine ⟨h.locks, calls, h.oldPid, ?_⟩
      cases at_old : s.old with
      | created q i since => exact absurd at_old (uncreated q i since)
      | ahead | working | finished | dead =>
        rw [at_old] at fits
        exact fits
  | starts p =>
    simp only [step] at h'
    split_ifs at h' with enabled
    cases h'
    refine ⟨h.locks, h.calls, fun q old => ?_, h.old⟩
    obtain ⟨positive, alive, idle⟩ := h.oldPid q old
    refine ⟨positive, ?_, idle⟩
    by_cases same : q = p <;> simp [same, alive]
  | dies p =>
    cases h'
    obtain ⟨locks, calls, oldPid, old⟩ := h.ends p
    refine ⟨locks, calls, fun q at_old => ?_, ?_⟩
    · simp only at at_old
      split_ifs at at_old with dies
      · cases at_old
      · obtain ⟨positive, alive, idle⟩ := oldPid q at_old
        have other : q ≠ p := by
          rintro rfl
          exact dies at_old
        exact ⟨positive, (Function.update_of_ne other _ _).trans alive, idle⟩
    · simp only
      split_ifs with dies
      · trivial
      · exact old
  | called p timeout =>
    simp only [step] at h'
    split_ifs at h' with enabled
    cases h'
    exact h.called enabled.2.1 enabled.2.2
  | proceeds p matched =>
    simp only [step] at h'
    split at h'
    · cases h'
    · cases h'
      exact h.proceeds kept ‹_›
  | ends p =>
    cases h'
    exact h.ends p
  | oldCreates p =>
    simp only [step] at h'
    split_ifs at h' with enabled
    cases h'
    obtain ⟨ahead, alive, positive, idle, missing⟩ := enabled
    have fits := h.old
    rw [ahead] at fits
    have unopened := fits missing
    refine ⟨h.locks, fun q c call => ?_, fun q old => ?_, rfl, ?_, ?_, ?_, fun q c call => ?_⟩
    · exact (h.calls q c call).mono (fun i path => by rw [missing] at path; cases path) (Nat.le_refl _)
    · cases old
      exact ⟨positive, alive, idle⟩
    · exact Function.update_self ..
    · exact Function.update_self ..
    · exact Nat.lt_add_of_pos_right (by decide)
    · exact defers_of_file_eq_none (unopened q c call)
  | oldWrites =>
    simp only [step] at h'
    split at h'
    · rename_i q i since at_old
      cases h'
      have fits := h.old
      have oldPid := h.oldPid
      rw [at_old] at fits oldPid
      obtain ⟨path, -, -, -, defers⟩ := fits
      refine ⟨h.locks, fun q' c call => ?_, oldPid, path, Function.update_self .., fun q' c call => ?_⟩
      · exact (h.calls q' c call).mono (fun j path => path) (Nat.le_refl _)
      · exact (defers q' c call).write
    · cases h'
  | oldUnlinks =>
    simp only [step] at h'
    split at h'
    · rename_i q i at_old
      cases h'
      have fits := h.old
      have oldPid := h.oldPid
      rw [at_old] at fits oldPid
      obtain ⟨path, -, defers⟩ := fits
      exact ⟨h.locks, fun q' c call => (defers q' c call).fits (h.calls q' c call) rfl, oldPid, trivial⟩
    · cases h'

theorem inv_of_run {now : ℕ} {leftover : Option (Payload × ℕ)} {as : List Action}
    (run : Run (step kind) Kept (State.initial now leftover) as s) : Inv s :=
  run.invariant (P := Inv) (inv_initial now leftover) fun _ _ _ h kept enabled => h.onward kept enabled

/-- At most one process is in the locked section, and the path names the file that a call in its body
has locked. -/
theorem exclusive_of_run {now : ℕ} {leftover : Option (Payload × ℕ)} {as : List Action}
    (run : Run (step kind) Kept (State.initial now leftover) as s) :
    (∀ p q, Inside s p → Inside s q → p = q) ∧ ∀ p i, Holds s p i → s.shared.path = some i :=
  ⟨fun _ _ => (inv_of_run run).exclusive, fun _ _ => (inv_of_run run).path_of_holds⟩

instance (s : State) : (a : Action) → Decidable (Kept s a)
  | .proceeds p _ => inferInstanceAs (Decidable (∀ c ∈ s.calls p, ∀ i ∈ c.pc.expired s.shared, s.old.file ≠ some i))
  | .tick _ | .starts _ | .dies _ | .called _ _ | .ends _ => instDecidableTrue
  | .oldCreates _ | .oldWrites | .oldUnlinks => instDecidableTrue

/-- A start waits until a process of the old version has removed its file, and locks a new one. -/
theorem exclusive_of_run_waited : ∃ as s, Run (step .startLock) Kept (State.initial 0 none) as s ∧ Holds s 2 2 ∧
    s.shared.path = some 2 ∧ ¬Inside s 1 := by
  have ends : (exec (Run.guarded (step .startLock) Kept) (State.initial 0 none)
      ([.starts 1, .starts 2, .oldCreates 1, .oldWrites, .called 2 5000000000] ++
        List.replicate 5 (.proceeds 2 false) ++ [.oldUnlinks] ++ List.replicate 13 (.proceeds 2 false))).map
      (fun s => s.calls 2) =
      some (some ⟨4, 5000000000, .inside 2⟩) := by decide +kernel
  obtain ⟨s, ran, call⟩ := Option.map_eq_some_iff.mp ends
  have run := Run.of_guarded ran
  have holds : Holds s 2 2 := ⟨_, call, rfl⟩
  have both := exclusive_of_run run
  refine ⟨_, s, run, holds, both.2 2 2 holds, fun inside => ?_⟩
  cases both.1 1 2 inside (.inl ⟨2, holds⟩)

/-- A start that pauses after its last look into the empty file: it claims the file for the age of the
pid that has been written in the meantime. -/
theorem claimed_while_working : ∃ as s, Run (step .startLock) anyStep (State.initial 0 none) as s ∧
    Inside s 1 ∧ Inside s 2 := by
  have ends : (exec (step .startLock) (State.initial 0 none)
      ([.starts 1, .starts 2, .oldCreates 1, .called 2 5000000000] ++ List.replicate 2 (.proceeds 2 false) ++
        [.tick 5000000000, .proceeds 2 false, .tick 5000000000, .oldWrites, .tick 60000000000] ++
        List.replicate 7 (.proceeds 2 false))).map (fun s => (s.calls 2, s.old)) =
      some (some ⟨5, 5000000000, .inside 1⟩, .working 1 1) := by decide +kernel
  obtain ⟨s, ran, both⟩ := Option.map_eq_some_iff.mp ends
  obtain ⟨call, old⟩ := Prod.mk.inj both
  refine ⟨_, s, Run.of_exec ran, .inr ?_, .inl ⟨1, _, call, rfl⟩⟩
  rw [old]
  rfl

end LocalWebAccess.ManagerLocks
