import LocalWebAccess.BuildGateSlots
import LocalWebAccess.BuildQueueMachine
import LocalWebAccess.DeploymentFingerprints
import LocalWebAccess.Models

/-!
# The builds of the lifecycle calls

A call of the lifecycle holds the lock of its instance. It may come to a builder in
two ways: through `BuildQueue.run`, which takes a slot and records the build in
`build_tasks`, or directly, where a recreate or a light start falls back to
`host_container` and where a restart hosts the instance itself.

Each step makes at most one access to the lock database. Cancels are not among the
steps, so only the owner of a row and the reclaim of dead owners write it.
-/
namespace LocalWebAccess.LifecycleBuilds
open BuildTaskTable GuardedRuns
open BuildGateSlots (SlotRow Slot)
open DeploymentFingerprints (StartAction)

/-! ## The ways to a builder -/

inductive Operation where
  | start
  | restart
  | recover
  | rebuild
  | reconcile
  deriving DecidableEq, Repr

/-- What a call finds: the manifest, the decision of `_deployed_action`, whether the container
can be created again without a build, and what `start_container` observes. -/
structure Situation where
  runtime : Runtime
  frontendStatic : Bool
  deployed : Bool
  pendingHostBuild : Bool
  action : StartAction
  recreatable : Bool
  drifted : Bool
  running : Bool
  existing : Bool
  deriving DecidableEq, Repr

/-- How a call comes to a builder, if at all. -/
inductive Route where
  | queued
  | unqueued
  | none
  deriving DecidableEq, Repr

/-- `host_instance` ends in a build of an image or of a front end. -/
def hostInstance (s : Situation) : Bool := s.runtime = .dockerCompose || s.frontendStatic

/-- `recreate_container_runtime` falls back to `host_container`. -/
def recreateContainerRuntime (s : Situation) : Bool := !s.recreatable

/-- `start_container` falls back to `host_container`. -/
def startContainer (s : Situation) : Bool := !s.drifted && !s.running && !s.existing && !s.recreatable

def direct (builds : Bool) : Route := if builds then .unqueued else .none

/-- `start_instance`; a first start and a full rebuild go through `_try_host_with_fallback`. -/
def startInstance (fromReconcile : Bool) (s : Situation) : Route :=
  if s.pendingHostBuild && fromReconcile then .none
  else if s.deployed && !s.pendingHostBuild then
    match s.action with
    | .fullRebuild => .queued
    | .runtimeRecreate => direct (recreateContainerRuntime s)
    | .none => direct (startContainer s)
  else .queued

/-- `_restart_instance_locked`. -/
def restartInstanceLocked (s : Situation) : Route :=
  if s.pendingHostBuild then .none
  else if s.deployed then
    match s.action with
    | .fullRebuild => direct (hostInstance s)
    | .runtimeRecreate => direct (recreateContainerRuntime s)
    | .none => direct (startContainer s)
  else direct (hostInstance s)

def Operation.route : Operation → Situation → Route
  | start => startInstance false
  | restart => restartInstanceLocked
  | recover => restartInstanceLocked
  | rebuild => fun _ => .queued
  | reconcile => startInstance true

/-- The calls that build outside the queue: a restart or recover that hosts its instance, and every
call whose recreate or light start falls back. -/
theorem route_unqueued_iff (operation : Operation) (s : Situation) :
    operation.route s = .unqueued ↔ operation ≠ .rebuild ∧ s.pendingHostBuild = false ∧
      ((operation = .restart ∨ operation = .recover) ∧ (s.deployed = false ∨ s.action = .fullRebuild) ∧
          hostInstance s = true ∨
        s.deployed = true ∧ s.action = .runtimeRecreate ∧ recreateContainerRuntime s = true ∨
        s.deployed = true ∧ s.action = .none ∧ startContainer s = true) := by
  have falls (builds : Bool) : direct builds = .unqueued ↔ builds = true := by
    cases builds <;> simp [direct]
  cases pending : s.pendingHostBuild <;> cases deployed : s.deployed <;> cases action : s.action <;>
    cases operation <;> simp [Operation.route, startInstance, restartInstanceLocked, pending, deployed, action, falls]

/-! ## The machine -/

abbrev CallId := ℕ

/-- Where a call stands while it holds the lock of its instance. A queued build has its token. -/
inductive Pc where
  | entered
  | waiting (k : BuildToken)
  | holding (k : BuildToken) (n : Slot)
  | executing (k : BuildToken) (n : Slot)
  | releasing (k : BuildToken) (n : Option Slot) (cancelled : Bool)
  | executingUnqueued
  deriving DecidableEq, Repr

namespace Pc

def token : Pc → Option BuildToken
  | waiting k => some k
  | holding k _ => some k
  | executing k _ => some k
  | releasing k _ _ => some k
  | _ => none

def held : Pc → Option (BuildToken × Slot)
  | holding k n => some (k, n)
  | executing k n => some (k, n)
  | releasing k (some n) _ => some (k, n)
  | _ => none

/-- A builder is running. -/
def Executes (pc : Pc) : Prop := pc = executingUnqueued ∨ ∃ k n, pc = executing k n

theorem held_token {pc : Pc} {k : BuildToken} {n : Slot} (h : pc.held = some (k, n)) : pc.token = some k := by
  unfold held at h
  split at h
  all_goals first
    | cases h
      rfl
    | cases h

end Pc

structure Call where
  pid : Pid
  instanceId : String
  route : Route
  pc : Pc

/-- `locks` is the holder of each instance lock, `spent` the tokens drawn so far. -/
structure State where
  rows : Table
  slots : Slot → Option SlotRow
  locks : String → Option CallId
  calls : CallId → Option Call
  spent : BuildToken → Bool
  alive : Pid → Bool

namespace State

def initial (rows : Table) : State where
  rows := rows
  slots := fun _ => none
  locks := fun _ => none
  calls := fun _ => none
  spent := fun _ => false
  alive := fun _ => false

def setPc (s : State) (c : CallId) (call : Call) (pc : Pc) : State :=
  { s with calls := Function.update s.calls c (some { call with pc := pc }) }

/-- The calls of a process that dies are gone, and their locks are free. -/
def die (s : State) (p : Pid) : State :=
  { s with
    alive := Function.update s.alive p false
    calls := fun c => (s.calls c).filter (fun call => call.pid ≠ p)
    locks := fun i => (s.locks i).filter (fun c => (s.calls c).all (fun call => call.pid ≠ p)) }

def leave (s : State) (c : CallId) (call : Call) : State :=
  { s with
    calls := Function.update s.calls c none
    locks := Function.update s.locks call.instanceId none }

end State

inductive Action where
  | spawn (p : Pid)
  | die (p : Pid)
  | enter (c : CallId) (p : Pid) (instanceId : String) (operation : Operation) (situation : Situation)
  | register (c : CallId) (k : BuildToken) (now : Time) (fault : Bool)
  | requeue (c : CallId) (now : Time) (fault : Bool)
  | tryAcquire (c : CallId) (now : Time) (pidAlive : Pid → Bool)
  | giveUp (c : CallId) (now : Time) (fault : Bool)
  | persistBuilding (c : CallId) (now : Time) (fault fault' : Bool)
  | finish (c : CallId) (status : BuildStatus) (now : Time) (fault : Bool)
  | release (c : CallId) (fault : Bool)
  | buildUnqueued (c : CallId)
  | endUnqueued (c : CallId)
  | leave (c : CallId)

section step

variable (identity : Pid → String) (concurrency : ℕ)

/-- `_persist_task`: the rows afterwards, and `none` where an exception was swallowed. -/
def persistTask (call : Call) (k : BuildToken) (status : BuildStatus) (replaceGeneration : Bool) (now : Time)
    (fault : Bool) (rows : Table) : Table × Option Bool :=
  if fault then (rows, none)
  else
    let written := upsertBuildTask now call.instanceId
      { buildToken := k
        status := status
        ownerPid := call.pid
        ownerIdentity := identity call.pid
        workerPid := none
        workerPgid := none
        workerIdentity := none
        cancelRequestedAt := none
        replaceGeneration := replaceGeneration } rows
    (written.1, some written.2)

/-- `_try_acquire`: dead owners are reclaimed with the same transaction as the slot is taken. -/
def tryAcquire (s : State) (c : CallId) (call : Call) (k : BuildToken) (now : Time) (pidAlive : Pid → Bool) :
    State :=
  let slots := BuildGateSlots.State.reclaimed s.slots pidAlive
  match BuildGateSlots.State.freeSlot slots concurrency with
  | none => s
  | some n =>
    { s with
      slots := Function.update slots n (some ⟨call.instanceId, call.pid, k⟩)
      rows := reclaimDead now (fun _ => pidAlive) s.rows }.setPc c call (.holding k n)

/-- The `finally` block of `run`. -/
def releaseSlots (call : Call) (slot : Option Slot) (cancelled fault : Bool) (slots : Slot → Option SlotRow) :
    Slot → Option SlotRow :=
  if fault then slots
  else fun n => (slots n).filter (fun row =>
    !(decide (slot = some n) && row.pid = call.pid) &&
      !(cancelled && row.instanceId = call.instanceId && row.pid = call.pid))

/-- What a call does in the state it is in. -/
def callStep (s : State) (c : CallId) (call : Call) : Action → Pc → Option State
  | .register _ k now fault, .entered =>
    if call.route = .queued ∧ s.spent k = false then
      some ({ s with
        rows := (persistTask identity call k .queued true now fault s.rows).1
        spent := Function.update s.spent k true }.setPc c call (.waiting k))
    else none
  | .requeue _ now fault, .waiting k =>
    some ({ s with rows := (persistTask identity call k .queued false now fault s.rows).1 }.setPc c call
      (.waiting k))
  | .tryAcquire _ now pidAlive, .waiting k =>
    some (tryAcquire concurrency s c call k now (fun p => pidAlive p || s.alive p))
  | .giveUp _ now fault, .waiting k =>
    some ({ s with rows := (persistTask identity call k .failed false now fault s.rows).1 }.setPc c call
      (.releasing k none false))
  | .persistBuilding _ now fault fault', .holding k n =>
    let written := persistTask identity call k .building false now fault s.rows
    if written.2 = some true then some ({ s with rows := written.1 }.setPc c call (.executing k n))
    else
      some ({ s with rows := (persistTask identity call k .cancelled false now fault' written.1).1 }.setPc c call
        (.releasing k (some n) true))
  | .finish _ status now fault, .executing k n =>
    some ({ s with rows := (persistTask identity call k status false now fault s.rows).1 }.setPc c call
      (.releasing k (some n) false))
  | .release _ fault, .releasing _ n cancelled =>
    some ({ s with slots := releaseSlots call n cancelled fault s.slots }.setPc c call .entered)
  | .buildUnqueued _, .entered =>
    if call.route = .unqueued then some (s.setPc c call .executingUnqueued) else none
  | .endUnqueued _, .executingUnqueued => some (s.setPc c call .entered)
  | .leave _, .entered => some (s.leave c call)
  | _, _ => none

def Action.call : Action → Option CallId
  | .register c _ _ _ => some c
  | .requeue c _ _ => some c
  | .tryAcquire c _ _ => some c
  | .giveUp c _ _ => some c
  | .persistBuilding c _ _ _ => some c
  | .finish c _ _ _ => some c
  | .release c _ => some c
  | .buildUnqueued c => some c
  | .endUnqueued c => some c
  | .leave c => some c
  | _ => none

/-- One action. A call enters with the lock of its instance; `_pid_alive` denies no live process. -/
def step (s : State) (a : Action) : Option State :=
  match a with
  | .spawn p => if s.alive p then none else some { s with alive := Function.update s.alive p true }
  | .die p => some (s.die p)
  | .enter c p instanceId operation situation =>
    if s.alive p ∧ s.calls c = none ∧ s.locks instanceId = none then
      some { s with
        locks := Function.update s.locks instanceId (some c)
        calls := Function.update s.calls c (some ⟨p, instanceId, operation.route situation, .entered⟩) }
    else none
  | a =>
    match a.call with
    | some c =>
      match s.calls c with
      | some call => callStep identity concurrency s c call a call.pc
      | none => none
    | none => none

end step

/-- Every build counts: no more builders run than the concurrency, and each has its row, so that a
cancel finds a build to cancel. -/
structure Limited (concurrency : ℕ) (s : State) : Prop where
  bounded : ∀ builds : Finset CallId,
    (∀ c ∈ builds, ∃ call, s.calls c = some call ∧ call.pc.Executes) → builds.card ≤ concurrency
  recorded : ∀ c call, s.calls c = some call → call.pc.Executes → ∃ k row, call.pc.token = some k ∧
    s.rows call.instanceId = some row ∧ row.buildToken = k ∧ row.status = .building
  found : ∀ c call e, s.calls c = some call → call.pc.Executes →
    BuildQueueMachine.cancelRead e (s.rows call.instanceId) ≠ .returned .noop

/-- No call starts a builder outside the queue. -/
def ThroughQueue (_ : State) : Action → Prop
  | .buildUnqueued _ => False
  | _ => True

/-! ## The invariant -/

/-- A slot is held with its row. -/
def HasSlot (concurrency : ℕ) (slots : Slot → Option SlotRow) (call : Call) (pc : Pc) : Prop :=
  ∀ k n, pc.held = some (k, n) → slots n = some ⟨call.instanceId, call.pid, k⟩ ∧ n < concurrency

/-- A queued builder runs with its row. -/
def HasRow (rows : Table) (call : Call) (pc : Pc) : Prop :=
  ∀ k n, pc = .executing k n → ∃ row, rows call.instanceId = some row ∧ row.buildToken = k ∧
    row.status = .building ∧ row.ownerPid = call.pid

/-- Every call holds the lock of its instance in a live process, with a token of its own, and what it
holds and runs is in the lock database. -/
structure Inv (concurrency : ℕ) (s : State) : Prop where
  locked : ∀ c call, s.calls c = some call → s.locks call.instanceId = some c
  live : ∀ c call, s.calls c = some call → s.alive call.pid = true
  spent : ∀ c call k, s.calls c = some call → call.pc.token = some k → s.spent k = true
  own : ∀ c call c' call' k, s.calls c = some call → s.calls c' = some call' → call.pc.token = some k →
    call'.pc.token = some k → c = c'
  slot : ∀ c call, s.calls c = some call → HasSlot concurrency s.slots call call.pc
  row : ∀ c call, s.calls c = some call → HasRow s.rows call call.pc
  queued : ∀ c call, s.calls c = some call → call.pc ≠ .executingUnqueued

section invariant

variable {identity : Pid → String} {concurrency : ℕ} {s t : State} {c : CallId} {call : Call}

theorem inv_initial (rows : Table) : Inv concurrency (State.initial rows) where
  locked := fun _ _ h => by simp [State.initial] at h
  live := fun _ _ h => by simp [State.initial] at h
  spent := fun _ _ _ h => by simp [State.initial] at h
  own := fun _ _ _ _ _ h => by simp [State.initial] at h
  slot := fun _ _ h => by simp [State.initial] at h
  row := fun _ _ h => by simp [State.initial] at h
  queued := fun _ _ h => by simp [State.initial] at h

/-- Two calls are of different instances. -/
theorem Inv.other_instance (h : Inv concurrency s) {c' : CallId} {call' : Call} (found : s.calls c = some call)
    (found' : s.calls c' = some call') (other : c' ≠ c) : call'.instanceId ≠ call.instanceId := by
  intro same
  have holder := h.locked c' call' found'
  rw [same, h.locked c call found] at holder
  exact other (Option.some.inj holder).symm

/-- Two calls hold different slots. -/
theorem Inv.other_slot (h : Inv concurrency s) {c' : CallId} {call' : Call} {k k' : BuildToken} {n n' : Slot}
    (found : s.calls c = some call) (found' : s.calls c' = some call') (other : c' ≠ c)
    (held : call.pc.held = some (k, n)) (held' : call'.pc.held = some (k', n')) : n' ≠ n := by
  rintro rfl
  have row := (h.slot c call found k n' held).1
  rw [(h.slot c' call' found' k' n' held').1] at row
  have same : k' = k := congrArg SlotRow.run (Option.some.inj row)
  subst same
  exact other (h.own c' call' c call k' found' found (Pc.held_token held') (Pc.held_token held))

/-- A call moves on, and changes the lock database only so that the other calls keep what they have. -/
theorem Inv.move (h : Inv concurrency s) (found : s.calls c = some call) {pc : Pc} {rows : Table}
    {slots : Slot → Option SlotRow} {spent : BuildToken → Bool}
    (token : ∀ k, pc.token = some k → call.pc.token = some k ∨ s.spent k = false ∧ spent k = true)
    (grows : ∀ k, s.spent k = true → spent k = true) (queued : pc ≠ .executingUnqueued)
    (slot : HasSlot concurrency slots call pc) (row : HasRow rows call pc)
    (others : ∀ c' call', c' ≠ c → s.calls c' = some call' →
      HasSlot concurrency slots call' call'.pc ∧ HasRow rows call' call'.pc) :
    Inv concurrency ({ s with rows := rows, slots := slots, spent := spent }.setPc c call pc) := by
  have calls {c' : CallId} {call' : Call} (there : Function.update s.calls c (some { call with pc := pc }) c' =
      some call') : (c' = c ∧ call' = { call with pc := pc }) ∨ (c' ≠ c ∧ s.calls c' = some call') := by
    by_cases same : c' = c
    · subst same
      rw [Function.update_self] at there
      exact .inl ⟨rfl, (Option.some.inj there).symm⟩
    · rw [Function.update_of_ne same] at there
      exact .inr ⟨same, there⟩
  have fresh {k : BuildToken} {c' : CallId} {call' : Call} (mine : pc.token = some k) (other : c' ≠ c)
      (there : s.calls c' = some call') (theirs : call'.pc.token = some k) : False := by
    rcases token k mine with old | ⟨unspent, -⟩
    · exact other (h.own c' call' c call k there found theirs old)
    · rw [h.spent c' call' k there theirs] at unspent
      cases unspent
  constructor
  · intro c' call' there
    rcases calls there with ⟨rfl, rfl⟩ | ⟨-, there⟩
    · exact h.locked c' call found
    · exact h.locked c' call' there
  · intro c' call' there
    rcases calls there with ⟨rfl, rfl⟩ | ⟨-, there⟩
    · exact h.live c' call found
    · exact h.live c' call' there
  · intro c' call' k there drawn
    rcases calls there with ⟨rfl, rfl⟩ | ⟨-, there⟩
    · rcases token k drawn with old | ⟨-, new⟩
      · exact grows k (h.spent c' call k found old)
      · exact new
    · exact grows k (h.spent c' call' k there drawn)
  · intro c₁ call₁ c₂ call₂ k there₁ there₂ token₁ token₂
    rcases calls there₁ with ⟨rfl, rfl⟩ | ⟨other₁, found₁⟩
    · rcases calls there₂ with ⟨rfl, rfl⟩ | ⟨other₂, found₂⟩
      · rfl
      · exact (fresh token₁ other₂ found₂ token₂).elim
    · rcases calls there₂ with ⟨rfl, rfl⟩ | ⟨other₂, found₂⟩
      · exact (fresh token₂ other₁ found₁ token₁).elim
      · exact h.own c₁ call₁ c₂ call₂ k found₁ found₂ token₁ token₂
  · intro c' call' there
    rcases calls there with ⟨rfl, rfl⟩ | ⟨other, there⟩
    · exact slot
    · exact (others c' call' other there).1
  · intro c' call' there
    rcases calls there with ⟨rfl, rfl⟩ | ⟨other, there⟩
    · exact row
    · exact (others c' call' other there).2
  · intro c' call' there
    rcases calls there with ⟨rfl, rfl⟩ | ⟨-, there⟩
    · exact queued
    · exact h.queued c' call' there

/-! ### Writes of the lock database -/

/-- A persist writes no row but that of its own instance. -/
theorem persistTask_other {k : BuildToken} {status : BuildStatus} {replace fault : Bool} {now : Time}
    {rows : Table} {i : String} (other : i ≠ call.instanceId) :
    (persistTask identity call k status replace now fault rows).1 i = rows i := by
  unfold persistTask
  split_ifs
  · rfl
  · simp [upsertBuildTask, other]

theorem HasRow.persist {rows : Table} {call' : Call} (has : HasRow rows call' call'.pc)
    (other : call'.instanceId ≠ call.instanceId) {k : BuildToken} {status : BuildStatus} {replace fault : Bool}
    {now : Time} : HasRow (persistTask identity call k status replace now fault rows).1 call' call'.pc := by
  intro k' n executes
  obtain ⟨row, there, facts⟩ := has k' n executes
  exact ⟨row, by rw [persistTask_other other, there], facts⟩

/-- A persist that was accepted leaves a row of the token, the status and the process. -/
theorem persistTask_accepted {k : BuildToken} {status : BuildStatus} {now : Time} {fault : Bool} {rows : Table}
    (accepted : (persistTask identity call k status false now fault rows).2 = some true) :
    ∃ row, (persistTask identity call k status false now fault rows).1 call.instanceId = some row ∧
      row.buildToken = k ∧ row.status = status ∧ row.ownerPid = call.pid := by
  unfold persistTask at accepted ⊢
  cases fault with
  | true => simp at accepted
  | false =>
    simp only [Bool.false_eq_true, if_false, upsertBuildTask, Function.update_self, Option.some.injEq] at accepted ⊢
    cases there : rows call.instanceId with
    | none => exact ⟨_, rfl, rfl, rfl, rfl⟩
    | some row =>
      rw [there] at accepted
      simp only [upsertRow] at accepted ⊢
      by_cases stale : row.buildToken = k
      · by_cases allowed : Allowed row.status status
        · simp only [stale, allowed, ne_eq, not_true_eq_false, if_false, if_true]
          exact ⟨_, rfl, stale, rfl, rfl⟩
        · simp [stale, allowed] at accepted
      · simp [stale] at accepted

/-- The reclaim of dead owners leaves the rows of live ones. -/
theorem HasRow.reclaim {rows : Table} {pidAlive : Pid → Bool} {now : Time} (has : HasRow rows call call.pc)
    (lives : pidAlive call.pid = true) : HasRow (reclaimDead now (fun _ => pidAlive) rows) call call.pc := by
  intro k n executes
  obtain ⟨row, there, token, status, owner⟩ := has k n executes
  refine ⟨row, ?_, token, status, owner⟩
  simp [reclaimDead, there, reclaimRow, owner, lives]

theorem HasSlot.reclaim {slots : Slot → Option SlotRow} {pidAlive : Pid → Bool}
    (has : HasSlot concurrency slots call call.pc) (lives : pidAlive call.pid = true) :
    HasSlot concurrency (BuildGateSlots.State.reclaimed slots pidAlive) call call.pc := by
  intro k n held
  obtain ⟨there, below⟩ := has k n held
  refine ⟨?_, below⟩
  simp [BuildGateSlots.State.reclaimed, there, lives]

theorem HasSlot.take {slots : Slot → Option SlotRow} (has : HasSlot concurrency slots call call.pc) {n : Slot}
    (free : slots n = none) (row : SlotRow) :
    HasSlot concurrency (Function.update slots n (some row)) call call.pc := by
  intro k n' held
  obtain ⟨there, below⟩ := has k n' held
  have other : n' ≠ n := by
    rintro rfl
    rw [free] at there
    cases there
  exact ⟨by rw [Function.update_of_ne other, there], below⟩

/-- The release of a slot, and the sweep of an instance, leave the rows of the other calls. -/
theorem HasSlot.release {slots : Slot → Option SlotRow} {call' : Call}
    (has : HasSlot concurrency slots call' call'.pc) {slot : Option Slot} {cancelled fault : Bool}
    (instances : call'.instanceId ≠ call.instanceId)
    (others : ∀ k n, call'.pc.held = some (k, n) → slot ≠ some n) :
    HasSlot concurrency (releaseSlots call slot cancelled fault slots) call' call'.pc := by
  intro k n held
  obtain ⟨there, below⟩ := has k n held
  refine ⟨?_, below⟩
  unfold releaseSlots
  split_ifs
  · exact there
  · simp [there, others k n held, instances]

/-! ### The steps -/

theorem Inv.rewrite (h : Inv concurrency s) (found : s.calls c = some call) (pc : Pc) {k : BuildToken}
    (token : pc.token = some k → call.pc.token = some k) (same : ∀ k', pc.token = some k' → k' = k)
    (queued : pc ≠ .executingUnqueued) (slot : HasSlot concurrency s.slots call pc)
    {status : BuildStatus} {replace fault : Bool} {now : Time}
    (row : HasRow (persistTask identity call k status replace now fault s.rows).1 call pc) :
    Inv concurrency ({ s with rows := (persistTask identity call k status replace now fault s.rows).1 }.setPc
      c call pc) := by
  refine h.move found (fun k' drawn => ?_) (fun _ old => old) queued slot row fun c' call' other there => ?_
  · obtain rfl := same k' drawn
    exact .inl (token drawn)
  · exact ⟨h.slot c' call' there, (h.row c' call' there).persist (h.other_instance found there other)⟩

theorem tryAcquire_inv (h : Inv concurrency s) (found : s.calls c = some call) {k : BuildToken}
    (place : call.pc = .waiting k) {now : Time} {pidAlive : Pid → Bool} (honest : ∀ p, s.alive p → pidAlive p) :
    Inv concurrency (tryAcquire concurrency s c call k now pidAlive) := by
  cases free : BuildGateSlots.State.freeSlot (BuildGateSlots.State.reclaimed s.slots pidAlive) concurrency with
  | none =>
    simp only [tryAcquire, free]
    exact h
  | some n =>
    simp only [tryAcquire, free]
    obtain ⟨empty, below⟩ := BuildGateSlots.freeSlot_spec free
    refine h.move found (fun k' drawn => ?_) (fun _ old => old) (by simp) ?_ (fun _ _ executes => by cases executes)
      fun c' call' other there => ?_
    · rw [place]
      exact .inl drawn
    · intro k' n' held
      cases held
      exact ⟨Function.update_self .., below⟩
    · have lives := honest _ (h.live c' call' there)
      exact ⟨((h.slot c' call' there).reclaim lives).take empty _, (h.row c' call' there).reclaim lives⟩

/-- Calls end, and the others keep their locks and processes. -/
theorem Inv.restrict (h : Inv concurrency s) {calls : CallId → Option Call} {locks : String → Option CallId}
    {alive : Pid → Bool} (old : ∀ c call, calls c = some call → s.calls c = some call)
    (locked : ∀ c call, calls c = some call → locks call.instanceId = some c)
    (live : ∀ c call, calls c = some call → alive call.pid = true) :
    Inv concurrency { s with calls := calls, locks := locks, alive := alive } where
  locked := locked
  live := live
  spent := fun c call k there => h.spent c call k (old c call there)
  own := fun c call c' call' k there there' => h.own c call c' call' k (old c call there) (old c' call' there')
  slot := fun c call there => h.slot c call (old c call there)
  row := fun c call there => h.row c call (old c call there)
  queued := fun c call there => h.queued c call (old c call there)

theorem Inv.leave (h : Inv concurrency s) (found : s.calls c = some call) : Inv concurrency (s.leave c call) := by
  have remains {c' : CallId} {call' : Call} (there : Function.update s.calls c none c' = some call') :
      c' ≠ c ∧ s.calls c' = some call' := by
    by_cases same : c' = c
    · subst same
      simp at there
    · rw [Function.update_of_ne same] at there
      exact ⟨same, there⟩
  refine h.restrict (fun c' call' there => (remains there).2) (fun c' call' there => ?_) fun c' call' there =>
    h.live c' call' (remains there).2
  obtain ⟨other, there⟩ := remains there
  rw [Function.update_of_ne (h.other_instance found there other)]
  exact h.locked c' call' there

theorem Inv.die (h : Inv concurrency s) (p : Pid) : Inv concurrency (s.die p) := by
  have remains {c' : CallId} {call' : Call} (there : (s.calls c').filter (fun call => call.pid ≠ p) = some call') :
      s.calls c' = some call' ∧ call'.pid ≠ p := by
    obtain ⟨there, lives⟩ := Option.filter_eq_some_iff.mp there
    exact ⟨there, by simpa using lives⟩
  refine h.restrict (fun c' call' there => (remains there).1) (fun c' call' there => ?_) fun c' call' there => ?_
  · obtain ⟨there, lives⟩ := remains there
    refine Option.filter_eq_some_iff.mpr ⟨h.locked c' call' there, ?_⟩
    simp [there, lives]
  · obtain ⟨there, lives⟩ := remains there
    rw [Function.update_of_ne lives]
    exact h.live c' call' there

theorem Inv.enter (h : Inv concurrency s) {p : Pid} {i : String} {route : Route} (lives : s.alive p = true)
    (fresh : s.calls c = none) (free : s.locks i = none) :
    Inv concurrency { s with
      locks := Function.update s.locks i (some c)
      calls := Function.update s.calls c (some ⟨p, i, route, .entered⟩) } := by
  have calls {c' : CallId} {call' : Call} (there : Function.update s.calls c (some ⟨p, i, route, .entered⟩) c' =
      some call') : (c' = c ∧ call' = ⟨p, i, route, .entered⟩) ∨ s.calls c' = some call' := by
    by_cases same : c' = c
    · subst same
      rw [Function.update_self] at there
      exact .inl ⟨rfl, (Option.some.inj there).symm⟩
    · rw [Function.update_of_ne same] at there
      exact .inr there
  constructor
  · intro c' call' there
    rcases calls there with ⟨rfl, rfl⟩ | there
    · exact Function.update_self ..
    · have other : call'.instanceId ≠ i := by
        intro same
        have holder := h.locked c' call' there
        rw [same, free] at holder
        cases holder
      exact (Function.update_of_ne other (some c) s.locks).trans (h.locked c' call' there)
  · intro c' call' there
    rcases calls there with ⟨rfl, rfl⟩ | there
    · exact lives
    · exact h.live c' call' there
  · intro c' call' k there drawn
    rcases calls there with ⟨rfl, rfl⟩ | there
    · cases drawn
    · exact h.spent c' call' k there drawn
  · intro c₁ call₁ c₂ call₂ k there₁ there₂ drawn₁ drawn₂
    rcases calls there₁ with ⟨rfl, rfl⟩ | found₁
    · cases drawn₁
    · rcases calls there₂ with ⟨rfl, rfl⟩ | found₂
      · cases drawn₂
      · exact h.own c₁ call₁ c₂ call₂ k found₁ found₂ drawn₁ drawn₂
  · intro c' call' there k n held
    rcases calls there with ⟨rfl, rfl⟩ | there
    · cases held
    · exact h.slot c' call' there k n held
  · intro c' call' there k n executes
    rcases calls there with ⟨rfl, rfl⟩ | there
    · cases executes
    · exact h.row c' call' there k n executes
  · intro c' call' there
    rcases calls there with ⟨rfl, rfl⟩ | there
    · simp
    · exact h.queued c' call' there

theorem callStep_inv (h : Inv concurrency s) (found : s.calls c = some call) {a : Action} (guard : ThroughQueue s a)
    (taken : callStep identity concurrency s c call a call.pc = some t) : Inv concurrency t := by
  have idle {slots : Slot → Option SlotRow} {pc : Pc} (nothing : pc.held = none) :
      HasSlot concurrency slots call pc := by
    intro k n held
    rw [nothing] at held
    cases held
  have silent {rows : Table} {pc : Pc} (nothing : ∀ k n, pc ≠ .executing k n) : HasRow rows call pc :=
    fun k n executes => absurd executes (nothing k n)
  generalize place : call.pc = pc at taken
  unfold callStep at taken
  split at taken
  case h_1 k now fault =>
    obtain ⟨⟨-, unspent⟩, ⟨⟩⟩ := Option.ite_none_right_eq_some.mp taken
    refine h.move found (fun k' drawn => ?_) (fun k' old => ?_) (by simp) (idle rfl) (silent (by simp))
      fun c' call' other there => ?_
    · cases drawn
      exact .inr ⟨unspent, Function.update_self ..⟩
    · by_cases same : k' = k
      · subst same
        exact Function.update_self ..
      · rw [Function.update_of_ne same]
        exact old
    · exact ⟨h.slot c' call' there, (h.row c' call' there).persist (h.other_instance found there other)⟩
  case h_2 now fault k =>
    cases taken
    exact h.rewrite found (.waiting k) (fun _ => by rw [place]; rfl) (fun k' drawn => by cases drawn; rfl) (by simp)
      (idle rfl)
      (silent (by simp))
  case h_3 now pidAlive k =>
    cases taken
    exact tryAcquire_inv h found place fun p lives => by simp [lives]
  case h_4 now fault k =>
    cases taken
    exact h.rewrite found (.releasing k none false) (fun _ => by rw [place]; rfl)
      (fun k' drawn => by cases drawn; rfl) (by simp)
      (idle rfl) (silent (by simp))
  case h_5 now fault fault' k n =>
    have slot := h.slot c call found
    rw [place] at slot
    simp only at taken
    split_ifs at taken with accepted
    · cases taken
      refine h.rewrite found (.executing k n) (fun _ => by rw [place]; rfl) (fun k' drawn => by cases drawn; rfl)
        (by simp)
        (fun _ _ held => slot _ _ held) fun k' n' executes => ?_
      cases executes
      exact persistTask_accepted accepted
    · cases taken
      refine h.move found (fun k' drawn => ?_) (fun _ old => old) (by simp) (fun _ _ held => slot _ _ held)
        (silent (by simp))
        fun c' call' other there => ⟨h.slot c' call' there, ?_⟩
      · rw [place]
        exact .inl drawn
      · have instances := h.other_instance found there other
        exact ((h.row c' call' there).persist instances).persist instances
  case h_6 status now fault k n =>
    have slot := h.slot c call found
    rw [place] at slot
    cases taken
    exact h.rewrite found (.releasing k (some n) false) (fun _ => by rw [place]; rfl)
      (fun k' drawn => by cases drawn; rfl) (by simp)
      (fun _ _ held => slot _ _ held) (silent (by simp))
  case h_7 fault k n cancelled =>
    cases taken
    refine h.move found (fun k' drawn => by cases drawn) (fun _ old => old) (by simp) (idle rfl) (silent (by simp))
      fun c' call' other there => ⟨?_, h.row c' call' there⟩
    refine (h.slot c' call' there).release (h.other_instance found there other) fun k' n' held => ?_
    rintro rfl
    exact h.other_slot found there other (by rw [place]; rfl) held rfl
  case h_8 => exact guard.elim
  case h_9 => exact absurd place (h.queued c call found)
  case h_10 =>
    cases taken
    exact h.leave found
  case h_11 => cases taken

theorem step_inv (h : Inv concurrency s) {a : Action} (guard : ThroughQueue s a)
    (taken : step identity concurrency s a = some t) : Inv concurrency t := by
  have calls (c : CallId) (a : Action) (guard : ThroughQueue s a)
      (taken : (match s.calls c with
        | some call => callStep identity concurrency s c call a call.pc
        | none => none) = some t) : Inv concurrency t := by
    cases found : s.calls c with
    | none => simp [found] at taken
    | some call =>
      rw [found] at taken
      exact callStep_inv h found guard taken
  cases a with
  | spawn p =>
    obtain ⟨-, ⟨⟩⟩ := Option.ite_none_left_eq_some.mp taken
    refine h.restrict (fun _ _ there => there) h.locked fun c' call' there => ?_
    by_cases same : call'.pid = p
    · rw [same]
      exact Function.update_self ..
    · rw [Function.update_of_ne same]
      exact h.live c' call' there
  | die p =>
    cases taken
    exact h.die p
  | enter c p instanceId operation situation =>
    obtain ⟨⟨lives, fresh, free⟩, ⟨⟩⟩ := Option.ite_none_right_eq_some.mp taken
    exact h.enter lives fresh free
  | register c k now fault => exact calls c _ guard taken
  | requeue c now fault => exact calls c _ guard taken
  | tryAcquire c now pidAlive => exact calls c _ guard taken
  | giveUp c now fault => exact calls c _ guard taken
  | persistBuilding c now fault fault' => exact calls c _ guard taken
  | finish c status now fault => exact calls c _ guard taken
  | release c fault => exact calls c _ guard taken
  | buildUnqueued c => exact guard.elim
  | endUnqueued c => exact calls c _ guard taken
  | leave c => exact calls c _ guard taken

theorem Inv.executes (h : Inv concurrency s) (found : s.calls c = some call) (executes : call.pc.Executes) :
    ∃ k n, call.pc = .executing k n :=
  executes.resolve_left (h.queued c call found)

theorem Inv.limited (h : Inv concurrency s) : Limited concurrency s := by
  have recorded (c : CallId) (call : Call) (found : s.calls c = some call) (executes : call.pc.Executes) :
      ∃ k row, call.pc.token = some k ∧ s.rows call.instanceId = some row ∧ row.buildToken = k ∧
        row.status = .building := by
    obtain ⟨k, n, place⟩ := h.executes found executes
    obtain ⟨row, there, token, status, -⟩ := h.row c call found k n place
    exact ⟨k, row, by rw [place]; rfl, there, token, status⟩
  refine ⟨fun builds runs => ?_, recorded, fun c call e found executes => ?_⟩
  · let slotOf (c : CallId) : Slot := (((s.calls c).bind (fun call => call.pc.held)).map Prod.snd).getD 0
    have slots (c : CallId) (mem : c ∈ builds) : ∃ call k, s.calls c = some call ∧
        call.pc.held = some (k, slotOf c) ∧ slotOf c < concurrency := by
      obtain ⟨call, found, executes⟩ := runs c mem
      obtain ⟨k, n, place⟩ := h.executes found executes
      have held : call.pc.held = some (k, n) := by rw [place]; rfl
      have slot : slotOf c = n := by simp [slotOf, found, held]
      exact ⟨call, k, found, by rw [held, slot], by rw [slot]; exact (h.slot c call found k n held).2⟩
    rw [← Finset.card_range concurrency]
    refine Finset.card_le_card_of_injOn slotOf (fun c mem => ?_) fun c mem c' mem' same => ?_
    · obtain ⟨call, k, -, -, below⟩ := slots c mem
      simpa using below
    · obtain ⟨call, k, found, held, -⟩ := slots c mem
      obtain ⟨call', k', found', held', -⟩ := slots c' mem'
      by_contra other
      exact h.other_slot found' found other held' held same
  · obtain ⟨k, row, -, there, -, status⟩ := recorded c call found executes
    rw [there]
    simp [BuildQueueMachine.cancelRead, status, BuildQueueMachine.finalOutcome]

end invariant

/-- In every run in which no call starts a builder outside the queue, no more builders run than the
concurrency, and each is recorded and can be cancelled. -/
theorem queued_builds_limited {identity : Pid → String} {concurrency : ℕ} {rows : Table} {trace : List Action}
    {s : State} (run : Run (step identity concurrency) ThroughQueue (State.initial rows) trace s) :
    Limited concurrency s :=
  (run.invariant (inv_initial rows) fun _ _ _ inv guard taken => step_inv inv guard taken).limited

/-- A container that is deployed and has changed so that it has to be built again. -/
def changedImage : Situation where
  runtime := .dockerCompose
  frontendStatic := false
  deployed := true
  pendingHostBuild := false
  action := .fullRebuild
  recreatable := true
  drifted := false
  running := true
  existing := true

/-- A restart builds without a slot, while a rebuild of another instance has the only one. -/
def restartBuilds : List Action :=
  [.spawn 10, .enter 0 10 "blog" .rebuild changedImage, .register 0 1 1 false, .tryAcquire 0 2 (fun _ => true),
    .persistBuilding 0 3 false false, .enter 1 10 "site" .restart changedImage, .buildUnqueued 1]

theorem restart_builds_unlimited : ¬ ∀ (identity : Pid → String) (concurrency : ℕ) (rows : Table)
    (trace : List Action) (s : State), Run (step identity concurrency) anyStep (State.initial rows) trace s →
    Limited concurrency s := by
  intro claim
  have ran : ∃ s, exec (step (fun _ => "") 1) (State.initial (fun _ => none)) restartBuilds = some s ∧
      (∃ call, s.calls 0 = some call ∧ call.pc = .executing 1 0) ∧
      ∃ call, s.calls 1 = some call ∧ call.pc = .executingUnqueued :=
    ⟨_, rfl, ⟨_, rfl, rfl⟩, _, rfl, rfl⟩
  obtain ⟨s, run, ⟨rebuild, found, place⟩, restart, found', place'⟩ := ran
  have both := (claim _ 1 _ _ s (Run.of_exec run)).bounded {0, 1} fun c mem => ?_
  · simp at both
  · rcases Finset.mem_insert.mp mem with rfl | mem
    · exact ⟨rebuild, found, .inr ⟨_, _, place⟩⟩
    · obtain rfl := Finset.mem_singleton.mp mem
      exact ⟨restart, found', .inl place'⟩

theorem queued_builds_limited_rebuild : ∃ s, Run (step (fun _ => "") 1) ThroughQueue
    (State.initial (fun _ => none)) (restartBuilds.take 6) s ∧
    (∃ call, s.calls 0 = some call ∧ call.pc = .executing 1 0) ∧ Limited 1 s := by
  have ran : ∃ s, Run (step (fun _ => "") 1) ThroughQueue (State.initial (fun _ => none)) (restartBuilds.take 6) s ∧
      ∃ call, s.calls 0 = some call ∧ call.pc = .executing 1 0 :=
    ⟨_, .cons trivial rfl <| .cons trivial rfl <| .cons trivial rfl <| .cons trivial rfl <| .cons trivial rfl <|
      .cons trivial rfl <| .refl _, _, rfl, rfl⟩
  obtain ⟨s, run, executes⟩ := ran
  exact ⟨s, run, executes, queued_builds_limited run⟩

end LocalWebAccess.LifecycleBuilds
