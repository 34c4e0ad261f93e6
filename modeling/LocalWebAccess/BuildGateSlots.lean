import LocalWebAccess.GuardedRuns
import Mathlib.Data.Finset.Card
import Mathlib.Data.List.Range

/-!
# The cross-process build gate

The slots are rows of one database that any number of processes share. A run
waits for the least free slot below its gate's concurrency, holds it while it
builds, and gives it up when it ends. Each process caches one gate object for
the database and one queue over it; both are replaced when the configured
concurrency changes, and replacing a gate closes it for every run that still
refers to it.
-/
namespace LocalWebAccess.BuildGateSlots
open GuardedRuns

abbrev Pid := ℕ
abbrev RunId := ℕ
abbrev GateId := ℕ
abbrev Slot := ℕ

/-- A row of `build_slots`. The run is not a column: it is the one that inserted the row. -/
structure SlotRow where
  instanceId : String
  pid : Pid
  run : RunId
  deriving DecidableEq, Repr

structure Gate where
  pid : Pid
  concurrency : ℕ
  closed : Bool
  deriving DecidableEq, Repr

/-- Where a call of `run` stands. A run is gone when its process has died before it ended. -/
inductive RunPc where
  | waiting
  | holding (slot : Slot)
  | ending (slot : Option Slot)
  | sweeping
  | ended
  | gone
  deriving DecidableEq, Repr

structure Run where
  pid : Pid
  instanceId : String
  gate : GateId
  pc : RunPc
  deriving DecidableEq, Repr

/-- `gates` is every gate object made, `cache` the entry of `_gates` for the database,
`queue` the gate of the process's shared queue. -/
structure State where
  slots : Slot → Option SlotRow
  gates : GateId → Option Gate
  cache : Pid → Option GateId
  queue : Pid → Option GateId
  runs : RunId → Option Run
  alive : Pid → Bool

namespace State

def initial : State where
  slots := fun _ => none
  gates := fun _ => none
  cache := fun _ => none
  queue := fun _ => none
  runs := fun _ => none
  alive := fun _ => false

def setPc (s : State) (r : RunId) (run : Run) (pc : RunPc) : State :=
  { s with runs := Function.update s.runs r (some { run with pc := pc }) }

def isClosed (s : State) (g : GateId) : Bool := (s.gates g).all Gate.closed

def close (s : State) (g : GateId) : State :=
  { s with gates := Function.update s.gates g ((s.gates g).map (fun gate => { gate with closed := true })) }

def concurrencyOf (s : State) (g : GateId) : ℕ := ((s.gates g).map Gate.concurrency).getD 0

/-- The part of `_shared_gate` that closes and drops a gate of another concurrency. -/
def dropStale (s : State) (p : Pid) (n : ℕ) : State :=
  match s.cache p with
  | some g =>
    if s.concurrencyOf g ≠ n then { s.close g with cache := Function.update s.cache p none } else s
  | none => s

def makeGate (s : State) (p : Pid) (n : ℕ) (new : GateId) : State :=
  { s with
    gates := Function.update s.gates new (some ⟨p, n, false⟩)
    cache := Function.update s.cache p (some new) }

/-- `_shared_gate`: a gate of the asked concurrency that is still open is reused, and
otherwise `new` is made. -/
def sharedGate (s : State) (p : Pid) (n : ℕ) (new : GateId) : State × GateId :=
  let s' := s.dropStale p n
  match s'.cache p with
  | some g => if s'.isClosed g then (s'.makeGate p n new, new) else (s', g)
  | none => (s'.makeGate p n new, new)

/-- `get_build_queue` for a configured concurrency. -/
def getBuildQueue (s : State) (p : Pid) (buildConcurrency : ℕ) (new : GateId) : State :=
  let n := max 1 buildConcurrency
  let renew (s : State) : State :=
    let shared := s.sharedGate p n new
    { shared.1 with queue := Function.update shared.1.queue p (some shared.2) }
  match s.queue p with
  | none => renew s
  | some g => if s.concurrencyOf g ≠ n then renew (s.close g) else s

/-- `_reclaim_dead` on the slots; `pidAlive` is what `_pid_alive` answers. -/
def reclaimed (slots : Slot → Option SlotRow) (pidAlive : Pid → Bool) : Slot → Option SlotRow :=
  fun n => (slots n).filter (fun row => pidAlive row.pid)

/-- The least slot below the concurrency that has no row. -/
def freeSlot (slots : Slot → Option SlotRow) (concurrency : ℕ) : Option Slot :=
  (List.range concurrency).find? (fun n => (slots n).isNone)

/-- `_try_acquire` by the run `r`; without a free slot the reclaim is rolled back. -/
def tryAcquire (s : State) (r : RunId) (run : Run) (pidAlive : Pid → Bool) : State :=
  let slots := reclaimed s.slots pidAlive
  match freeSlot slots (s.concurrencyOf run.gate) with
  | none => s
  | some n =>
    { s with slots := Function.update slots n (some ⟨run.instanceId, run.pid, r⟩) }.setPc r run
      (.holding n)

/-- `release`: the row of the slot is deleted if it is of this process. -/
def release (s : State) (p : Pid) (n : Slot) : State :=
  { s with slots := Function.update s.slots n ((s.slots n).filter (fun row => row.pid ≠ p)) }

/-- `release_instance_slots`. -/
def releaseInstanceSlots (s : State) (p : Pid) (instanceId : String) : State :=
  { s with slots := fun n =>
      (s.slots n).filter (fun row => ¬ (row.instanceId = instanceId ∧ row.pid = p)) }

/-- The runs of a process that dies are gone, unless they have ended before. -/
def die (s : State) (p : Pid) : State :=
  { s with
    alive := Function.update s.alive p false
    cache := Function.update s.cache p none
    queue := Function.update s.queue p none
    runs := fun r => (s.runs r).map (fun run =>
      if run.pid = p ∧ run.pc ≠ .ended then { run with pc := .gone } else run) }

end State

inductive Action where
  | spawn (p : Pid)
  | die (p : Pid)
  | getBuildQueue (p : Pid) (buildConcurrency : ℕ) (new : GateId)
  | sharedGate (p : Pid) (concurrency : ℕ) (new : GateId)
  | start (r : RunId) (p : Pid) (instanceId : String) (g : GateId)
  | tryAcquire (r : RunId) (pidAlive : Pid → Bool)
  | giveUp (r : RunId)
  | finish (r : RunId)
  | release (r : RunId) (fault : Bool)
  | sweep (r : RunId) (cancelled fault : Bool)

open State in
/-- One action. `_pid_alive` denies no live process, and a dead pid may be used again. -/
def step (s : State) : Action → Option State
  | .spawn p => if s.alive p then none else some { s with alive := Function.update s.alive p true }
  | .die p => if s.alive p then some (s.die p) else none
  | .getBuildQueue p n new =>
    if s.alive p ∧ s.gates new = none then some (s.getBuildQueue p n new) else none
  | .sharedGate p n new =>
    if s.alive p ∧ s.gates new = none then some (s.sharedGate p (max 1 n) new).1 else none
  | .start r p instanceId g =>
    if s.alive p ∧ s.runs r = none ∧ (s.gates g).any (fun gate => gate.pid = p) then
      some { s with runs := Function.update s.runs r (some ⟨p, instanceId, g, .waiting⟩) }
    else none
  | .tryAcquire r pidAlive =>
    match s.runs r with
    | some run =>
      if run.pc ≠ .waiting then none
      -- a closed gate raises, and `run` goes on to release nothing
      else if s.isClosed run.gate then some (s.setPc r run (.ending none))
      else some (s.tryAcquire r run (fun p => pidAlive p || s.alive p))
    | none => none
  | .giveUp r =>
    match s.runs r with
    | some run => if run.pc ≠ .waiting then none else some (s.setPc r run (.ending none))
    | none => none
  | .finish r =>
    match s.runs r with
    | some run =>
      match run.pc with
      | .holding n => some (s.setPc r run (.ending (some n)))
      | _ => none
    | none => none
  | .release r fault =>
    match s.runs r with
    | some run =>
      match run.pc with
      | .ending none => some (s.setPc r run .sweeping)
      | .ending (some n) =>
        -- an exception here leaves the `finally` block
        if s.isClosed run.gate ∨ fault then some (s.setPc r run .ended)
        else some ((s.release run.pid n).setPc r run .sweeping)
      | _ => none
    | none => none
  | .sweep r cancelled fault =>
    match s.runs r with
    | some run =>
      if run.pc ≠ .sweeping then none
      else if cancelled ∧ s.isClosed run.gate = false ∧ fault = false then
        some ((s.releaseInstanceSlots run.pid run.instanceId).setPc r run .ended)
      else some (s.setPc r run .ended)
    | none => none

/-- The slot that a run at this place has acquired and not yet given up. -/
def RunPc.slot : RunPc → Option Slot
  | .holding n => some n
  | .ending n => n
  | _ => none

/-- The slot of a run in a live process. -/
def State.slotOf (s : State) (r : RunId) : Option Slot := (s.runs r).bind (fun run => run.pc.slot)

def State.Gone (s : State) (r : RunId) : Prop := ∃ run, s.runs r = some run ∧ run.pc = .gone

/-- The semaphore: no slot is held twice, no more runs hold one than the largest
concurrency of their gates, and a run that has ended has left no row. -/
structure Semaphore (s : State) : Prop where
  distinct : ∀ r r' n, s.slotOf r = some n → s.slotOf r' = some n → r = r'
  bounded : ∀ (N : ℕ) (holders : Finset RunId), (∀ r ∈ holders, ∃ run, s.runs r = some run ∧
    run.pc.slot.isSome ∧ s.concurrencyOf run.gate ≤ N) → holders.card ≤ N
  returned : ∀ r run, s.runs r = some run → run.pc = .ended →
    ∀ n row, s.slots n = some row → row.run ≠ r

/-- A row disappears when its own run releases it, or after its process has died. -/
def DeletedByOwner (s : State) (a : Action) (t : State) : Prop :=
  ∀ n row, s.slots n = some row → t.slots n ≠ some row →
    (∃ fault, a = .release row.run fault) ∨ s.Gone row.run

/-- A run that gives up a slot finds its gate open and the database in order, and the
sweep of a cancelled run finds no other run of its process on the same instance. -/
def ReleasesCleanly (s : State) : Action → Prop
  | .release r fault => ∀ run n, s.runs r = some run → run.pc = .ending (some n) →
      s.isClosed run.gate = false ∧ fault = false
  | .sweep r true false => ∀ run, s.runs r = some run → run.pc = .sweeping →
      s.isClosed run.gate = false → ∀ n row, s.slots n = some row →
        row.instanceId = run.instanceId → row.pid = run.pid → s.Gone row.run
  | _ => True

/-- Every held slot has the row of its run, every row is of a run that holds it or is
gone, and the process of a run is alive until the run has ended. -/
structure Owned (s : State) : Prop where
  held : ∀ r run n, s.runs r = some run → run.pc.slot = some n →
    s.slots n = some ⟨run.instanceId, run.pid, r⟩ ∧ n < s.concurrencyOf run.gate
  owner : ∀ n row, s.slots n = some row → ∃ run, s.runs row.run = some run ∧
    run.pid = row.pid ∧ (run.pc = .gone ∨ run.pc.slot = some n)
  live : ∀ r run, s.runs r = some run → run.pc ≠ .gone → run.pc ≠ .ended → s.alive run.pid = true
  gated : ∀ r run, s.runs r = some run → (s.gates run.gate).isSome

theorem owned_initial : Owned State.initial where
  held := fun _ _ _ h => by simp [State.initial] at h
  owner := fun _ _ h => by simp [State.initial] at h
  live := fun _ _ h => by simp [State.initial] at h
  gated := fun _ _ h => by simp [State.initial] at h

section gates

/-- What closing and making gates leaves as it is. -/
structure Rewired (s t : State) : Prop where
  slots : t.slots = s.slots
  runs : t.runs = s.runs
  alive : t.alive = s.alive
  gates : ∀ g, (s.gates g).isSome →
    (t.gates g).isSome ∧ t.concurrencyOf g = s.concurrencyOf g

variable {s t u : State}

theorem Rewired.refl (s : State) : Rewired s s := ⟨rfl, rfl, rfl, fun _ h => ⟨h, rfl⟩⟩

theorem Rewired.trans (h : Rewired s t) (h' : Rewired t u) : Rewired s u where
  slots := h'.slots.trans h.slots
  runs := h'.runs.trans h.runs
  alive := h'.alive.trans h.alive
  gates := fun g there =>
    have first := h.gates g there
    have second := h'.gates g first.1
    ⟨second.1, second.2.trans first.2⟩

theorem Rewired.close (s : State) (g : GateId) : Rewired s (s.close g) where
  slots := rfl
  runs := rfl
  alive := rfl
  gates := by
    intro g' there
    by_cases same : g' = g
    · subst same
      obtain ⟨gate, found⟩ := Option.isSome_iff_exists.mp there
      simp [State.close, State.concurrencyOf, found]
    · simp [State.close, State.concurrencyOf, same, there]

theorem Rewired.makeGate (p : Pid) (n : ℕ) {new : GateId} (fresh : s.gates new = none) :
    Rewired s (s.makeGate p n new) where
  slots := rfl
  runs := rfl
  alive := rfl
  gates := by
    intro g there
    have other : g ≠ new := by
      rintro rfl
      simp [fresh] at there
    simp [State.makeGate, State.concurrencyOf, other, there]

theorem Rewired.relabel (s : State) (cache queue : Pid → Option GateId) :
    Rewired s { s with cache := cache, queue := queue } :=
  ⟨rfl, rfl, rfl, fun _ h => ⟨h, rfl⟩⟩

theorem State.close_gates_fresh {g new : GateId} (fresh : s.gates new = none) :
    (s.close g).gates new = none := by
  by_cases same : new = g
  · subst same
    simp [State.close, fresh]
  · simp [State.close, same, fresh]

theorem Rewired.dropStale (p : Pid) (n : ℕ) {new : GateId} (fresh : s.gates new = none) :
    Rewired s (s.dropStale p n) ∧ (s.dropStale p n).gates new = none := by
  unfold State.dropStale
  split
  · split_ifs
    · exact ⟨(Rewired.close s _).trans (.relabel _ _ s.queue), State.close_gates_fresh fresh⟩
    · exact ⟨.refl s, fresh⟩
  · exact ⟨.refl s, fresh⟩

theorem Rewired.sharedGate (p : Pid) (n : ℕ) {new : GateId} (fresh : s.gates new = none) :
    Rewired s (s.sharedGate p n new).1 := by
  obtain ⟨dropped, fresh⟩ := Rewired.dropStale p n fresh
  unfold State.sharedGate
  simp only
  split
  · split_ifs
    · exact dropped.trans (.makeGate p n fresh)
    · exact dropped
  · exact dropped.trans (.makeGate p n fresh)

theorem Rewired.getBuildQueue (p : Pid) (n : ℕ) {new : GateId} (fresh : s.gates new = none) :
    Rewired s (s.getBuildQueue p n new) := by
  have renews (s : State) (fresh : s.gates new = none) :
      Rewired s { (s.sharedGate p (max 1 n) new).1 with
        queue := Function.update (s.sharedGate p (max 1 n) new).1.queue p
          (some (s.sharedGate p (max 1 n) new).2) } :=
    (Rewired.sharedGate p (max 1 n) fresh).trans (.relabel _ _ _)
  unfold State.getBuildQueue
  simp only
  split
  · exact renews s fresh
  · split_ifs
    · exact (Rewired.close s _).trans (renews _ (State.close_gates_fresh fresh))
    · exact .refl s

end gates

section operations

open State

variable {s t : State} {r : RunId} {run : Run}

theorem Owned.rewired (h : Owned s) (rewired : Rewired s t) : Owned t where
  held := by
    intro r run n found slot
    rw [rewired.runs] at found
    obtain ⟨row, below⟩ := h.held r run n found slot
    rw [rewired.slots, (rewired.gates _ (h.gated r run found)).2]
    exact ⟨row, below⟩
  owner := by
    rw [rewired.slots, rewired.runs]
    exact h.owner
  live := by
    rw [rewired.runs, rewired.alive]
    exact h.live
  gated := by
    intro r run found
    rw [rewired.runs] at found
    exact (rewired.gates _ (h.gated r run found)).1

/-- Rows of runs that are gone may be deleted. -/
theorem Owned.drop (h : Owned s) {slots : Slot → Option SlotRow}
    (kept : ∀ n row, s.slots n = some row → slots n = some row ∨ s.Gone row.run)
    (old : ∀ n row, slots n = some row → s.slots n = some row) :
    Owned { s with slots := slots } where
  held := by
    intro r run n found slot
    obtain ⟨row, below⟩ := h.held r run n found slot
    refine ⟨(kept n _ row).resolve_right ?_, below⟩
    rintro ⟨run', found', gone⟩
    obtain rfl : run = run' := Option.some.inj (found.symm.trans found')
    simp [gone, RunPc.slot] at slot
  owner := fun n row found => h.owner n row (old n row found)
  live := h.live
  gated := h.gated

theorem State.setPc_runs (s : State) (r : RunId) (run : Run) (pc : RunPc) {r' : RunId} {run' : Run}
    (found : (s.setPc r run pc).runs r' = some run') :
    (r' = r ∧ run' = { run with pc := pc }) ∨ (r' ≠ r ∧ s.runs r' = some run') := by
  by_cases same : r' = r
  · subst same
    simp only [State.setPc, Function.update_self, Option.some.injEq] at found
    exact .inl ⟨rfl, found.symm⟩
  · refine .inr ⟨same, ?_⟩
    simpa [State.setPc, same] using found

/-- A run that moves on without touching its slot. -/
theorem Owned.setPc (h : Owned s) (found : s.runs r = some run) {pc : RunPc}
    (slot : pc.slot = run.pc.slot) (here : run.pc ≠ .gone) (running : run.pc ≠ .ended) :
    Owned (s.setPc r run pc) where
  held := by
    intro r' run' n found' slot'
    rcases s.setPc_runs r run pc found' with ⟨rfl, rfl⟩ | ⟨-, found'⟩
    · exact h.held r' run n found (slot ▸ slot')
    · exact h.held r' run' n found' slot'
  owner := by
    intro n row there
    obtain ⟨run', found', pid, place⟩ := h.owner n row there
    by_cases same : row.run = r
    · obtain rfl : run = run' := Option.some.inj (found.symm.trans (same ▸ found'))
      refine ⟨{ run with pc := pc }, by simp [State.setPc, same], pid, .inr ?_⟩
      exact slot.trans (place.resolve_left here)
    · exact ⟨run', by simpa [State.setPc, same] using found', pid, place⟩
  live := by
    intro r' run' found' here' running'
    rcases s.setPc_runs r run pc found' with ⟨rfl, rfl⟩ | ⟨-, found'⟩
    · exact h.live r' run found here running
    · exact h.live r' run' found' here' running'
  gated := by
    intro r' run' found'
    rcases s.setPc_runs r run pc found' with ⟨rfl, rfl⟩ | ⟨-, found'⟩
    · exact h.gated r' run found
    · exact h.gated r' run' found'

/-- A waiting run takes a free slot below the concurrency of its gate. -/
theorem Owned.take (h : Owned s) (found : s.runs r = some run) (waiting : run.pc = .waiting) {n : Slot}
    (free : s.slots n = none) (below : n < s.concurrencyOf run.gate) :
    Owned ({ s with slots := Function.update s.slots n (some ⟨run.instanceId, run.pid, r⟩) }.setPc r run
      (.holding n)) where
  held := by
    intro r' run' m found' slot'
    rcases State.setPc_runs _ r run _ found' with ⟨rfl, rfl⟩ | ⟨other, found'⟩
    · obtain rfl : n = m := by simpa [RunPc.slot] using slot'
      exact ⟨by simp [State.setPc], below⟩
    · obtain ⟨row, below'⟩ := h.held r' run' m found' slot'
      have apart : m ≠ n := by
        rintro rfl
        simp [free] at row
      exact ⟨by simpa [State.setPc, apart] using row, below'⟩
  owner := by
    intro m row there
    by_cases same : m = n
    · subst same
      obtain rfl : _ = row := by simpa [State.setPc] using there
      exact ⟨{ run with pc := .holding m }, by simp [State.setPc], rfl, .inr rfl⟩
    · have there' : s.slots m = some row := by simpa [State.setPc, same] using there
      obtain ⟨run', found', pid, place⟩ := h.owner m row there'
      have other : row.run ≠ r := by
        rintro rfl
        obtain rfl : run = run' := Option.some.inj (found.symm.trans found')
        simp [waiting, RunPc.slot] at place
      exact ⟨run', by simpa [State.setPc, other] using found', pid, place⟩
  live := by
    intro r' run' found' here' running'
    rcases State.setPc_runs _ r run _ found' with ⟨rfl, rfl⟩ | ⟨-, found'⟩
    · exact h.live r' run found (by simp [waiting]) (by simp [waiting])
    · exact h.live r' run' found' here' running'
  gated := by
    intro r' run' found'
    rcases State.setPc_runs _ r run _ found' with ⟨rfl, rfl⟩ | ⟨-, found'⟩
    · exact h.gated r' run found
    · exact h.gated r' run' found'

theorem reclaimed_kept (h : Owned s) {pidAlive : Pid → Bool} (honest : ∀ p, s.alive p → pidAlive p)
    {n : Slot} {row : SlotRow} (there : s.slots n = some row) :
    reclaimed s.slots pidAlive n = some row ∨ s.Gone row.run := by
  obtain ⟨run, found, pid, gone | slot⟩ := h.owner n row there
  · exact .inr ⟨run, found, gone⟩
  · have here : run.pc ≠ .gone := fun gone => by simp [gone, RunPc.slot] at slot
    have running : run.pc ≠ .ended := fun ended => by simp [ended, RunPc.slot] at slot
    refine .inl ?_
    simp [reclaimed, there, honest _ (pid ▸ h.live _ run found here running)]

theorem reclaimed_old {slots : Slot → Option SlotRow} {pidAlive : Pid → Bool} {n : Slot} {row : SlotRow}
    (there : reclaimed slots pidAlive n = some row) : slots n = some row :=
  (Option.filter_eq_some_iff.mp there).1

theorem freeSlot_spec {slots : Slot → Option SlotRow} {concurrency n : ℕ}
    (found : freeSlot slots concurrency = some n) : slots n = none ∧ n < concurrency := by
  have free := List.find?_some found
  have below := List.mem_of_find?_eq_some found
  exact ⟨by simpa using free, List.mem_range.mp below⟩

theorem Owned.tryAcquire (h : Owned s) (found : s.runs r = some run) (waiting : run.pc = .waiting)
    {pidAlive : Pid → Bool} (honest : ∀ p, s.alive p → pidAlive p) :
    Owned (s.tryAcquire r run pidAlive) := by
  unfold State.tryAcquire
  simp only
  split
  · exact h
  · next n free =>
    obtain ⟨free, below⟩ := freeSlot_spec free
    have dropped : Owned { s with slots := reclaimed s.slots pidAlive } :=
      h.drop (fun _ _ => reclaimed_kept h honest) (fun _ _ => reclaimed_old)
    exact dropped.take found waiting free below

/-- A run gives up its slot. -/
theorem Owned.release (h : Owned s) (found : s.runs r = some run) {n : Slot}
    (ending : run.pc = .ending (some n)) : Owned ((s.release run.pid n).setPc r run .sweeping) := by
  have mine := (h.held r run n found (by simp [ending, RunPc.slot])).1
  have cleared : (s.release run.pid n).slots = Function.update s.slots n none := by
    simp [State.release, mine, Option.filter_some]
  refine ⟨?_, ?_, ?_, ?_⟩
  · intro r' run' m found' slot'
    rcases State.setPc_runs _ r run _ found' with ⟨rfl, rfl⟩ | ⟨other, found'⟩
    · simp [RunPc.slot] at slot'
    · obtain ⟨row, below⟩ := h.held r' run' m found' slot'
      have apart : m ≠ n := by
        rintro rfl
        rw [mine] at row
        exact other (congrArg SlotRow.run (Option.some.inj row)).symm
      exact ⟨by simpa [State.setPc, cleared, apart] using row, below⟩
  · intro m row there
    have there' : Function.update s.slots n none m = some row := cleared ▸ there
    have apart : m ≠ n := by
      rintro rfl
      simp at there'
    rw [Function.update_of_ne apart] at there'
    obtain ⟨run', found', pid, place⟩ := h.owner m row there'
    have other : row.run ≠ r := by
      rintro rfl
      obtain rfl : run = run' := Option.some.inj (found.symm.trans found')
      simp [ending, RunPc.slot, apart.symm] at place
    exact ⟨run', by simpa [State.setPc, State.release, other] using found', pid, place⟩
  · intro r' run' found' here' running'
    rcases State.setPc_runs _ r run _ found' with ⟨rfl, rfl⟩ | ⟨-, found'⟩
    · exact h.live r' run found (by simp [ending]) (by simp [ending])
    · exact h.live r' run' found' here' running'
  · intro r' run' found'
    rcases State.setPc_runs _ r run _ found' with ⟨rfl, rfl⟩ | ⟨-, found'⟩
    · exact h.gated r' run found
    · exact h.gated r' run' found'

/-- The sweep of a cancelled run, where it finds only rows of runs that are gone. -/
theorem Owned.sweep (h : Owned s) (found : s.runs r = some run) (sweeping : run.pc = .sweeping)
    (abandoned : ∀ n row, s.slots n = some row → row.instanceId = run.instanceId →
      row.pid = run.pid → s.Gone row.run) :
    Owned ((s.releaseInstanceSlots run.pid run.instanceId).setPc r run .ended) := by
  have dropped : Owned (s.releaseInstanceSlots run.pid run.instanceId) := by
    refine h.drop (fun n row there => ?_) (fun n row there => (Option.filter_eq_some_iff.mp there).1)
    by_cases swept : row.instanceId = run.instanceId ∧ row.pid = run.pid
    · exact .inr (abandoned n row there swept.1 swept.2)
    · exact .inl (Option.filter_eq_some_iff.mpr ⟨there, decide_eq_true swept⟩)
  exact dropped.setPc found (by simp [sweeping, RunPc.slot]) (by simp [sweeping]) (by simp [sweeping])

theorem die_runs {p : Pid} {run' : Run} (found : (s.die p).runs r = some run') :
    ∃ run, s.runs r = some run ∧ ((run.pid = p ∧ run.pc ≠ .ended ∧ run' = { run with pc := .gone }) ∨
      (¬ (run.pid = p ∧ run.pc ≠ .ended) ∧ run' = run)) := by
  obtain ⟨run, found, same⟩ := Option.map_eq_some_iff.mp found
  refine ⟨run, found, ?_⟩
  split_ifs at same with dies
  · exact .inl ⟨dies.1, dies.2, same.symm⟩
  · exact .inr ⟨dies, same.symm⟩

theorem Owned.die (h : Owned s) (p : Pid) : Owned (s.die p) where
  held := by
    intro r run' n found slot
    obtain ⟨run, found, ⟨-, -, rfl⟩ | ⟨-, rfl⟩⟩ := die_runs found
    · simp [RunPc.slot] at slot
    · exact h.held r run' n found slot
  owner := by
    intro n row there
    obtain ⟨run, found, pid, place⟩ := h.owner n row there
    by_cases dies : run.pid = p ∧ run.pc ≠ .ended
    · exact ⟨{ run with pc := .gone }, by simp [State.die, found, dies], pid, .inl rfl⟩
    · exact ⟨run, by simp [State.die, found, dies], pid, place⟩
  live := by
    intro r run' found here running
    obtain ⟨run, found, ⟨-, -, rfl⟩ | ⟨survives, rfl⟩⟩ := die_runs found
    · exact absurd rfl here
    · have other : run'.pid ≠ p := fun same => survives ⟨same, running⟩
      simpa [State.die, other] using h.live r run' found here running
  gated := by
    intro r run' found'
    obtain ⟨run, found, ⟨-, -, rfl⟩ | ⟨-, rfl⟩⟩ := die_runs found'
    · exact h.gated r run found
    · exact h.gated r run' found

theorem Owned.spawn (h : Owned s) (p : Pid) :
    Owned { s with alive := Function.update s.alive p true } where
  held := h.held
  owner := h.owner
  live := by
    intro r run found here running
    have lives := h.live r run found here running
    by_cases same : run.pid = p
    · simp [same]
    · simpa [same] using lives
  gated := h.gated

theorem Owned.start (h : Owned s) (fresh : s.runs r = none) {p : Pid} (lives : s.alive p = true)
    {g : GateId} (gate : (s.gates g).isSome) (instanceId : String) :
    Owned { s with runs := Function.update s.runs r (some ⟨p, instanceId, g, .waiting⟩) } := by
  have splits {r' run'} (found : Function.update s.runs r (some ⟨p, instanceId, g, .waiting⟩) r' =
      some run') : run' = ⟨p, instanceId, g, .waiting⟩ ∨ s.runs r' = some run' := by
    by_cases same : r' = r
    · subst same
      simp only [Function.update_self, Option.some.injEq] at found
      exact .inl found.symm
    · exact .inr (by simpa [same] using found)
  refine ⟨?_, ?_, ?_, ?_⟩
  · intro r' run' n found slot
    rcases splits found with rfl | found
    · simp [RunPc.slot] at slot
    · exact h.held r' run' n found slot
  · intro n row there
    obtain ⟨run', found, pid, place⟩ := h.owner n row there
    have other : row.run ≠ r := by
      rintro rfl
      simp [fresh] at found
    exact ⟨run', by simpa [other] using found, pid, place⟩
  · intro r' run' found here running
    rcases splits found with rfl | found
    · exact lives
    · exact h.live r' run' found here running
  · intro r' run' found
    rcases splits found with rfl | found
    · exact gate
    · exact h.gated r' run' found

end operations

/-! ## What the semaphore keeps -/

theorem Owned.distinct {s : State} (h : Owned s) {r r' : RunId} {n : Slot}
    (slot : s.slotOf r = some n) (slot' : s.slotOf r' = some n) : r = r' := by
  obtain ⟨run, found, slot⟩ := Option.bind_eq_some_iff.mp slot
  obtain ⟨run', found', slot'⟩ := Option.bind_eq_some_iff.mp slot'
  have row := (h.held r run n found slot).1
  rw [(h.held r' run' n found' slot').1] at row
  exact (congrArg SlotRow.run (Option.some.inj row)).symm

theorem Owned.semaphore {s : State} (h : Owned s) : Semaphore s where
  distinct := fun _ _ _ => h.distinct
  bounded := by
    intro N holders holds
    have slots : ∀ r ∈ holders, ∃ n, s.slotOf r = some n ∧ n < N := by
      intro r mem
      obtain ⟨run, found, slot, below⟩ := holds r mem
      obtain ⟨n, slot⟩ := Option.isSome_iff_exists.mp slot
      refine ⟨n, by simp [State.slotOf, found, slot], ?_⟩
      exact (h.held r run n found slot).2.trans_le below
    rw [← Finset.card_range N]
    refine Finset.card_le_card_of_injOn (fun r => (s.slotOf r).getD 0) ?_ ?_
    · intro r mem
      obtain ⟨n, slot, below⟩ := slots r mem
      simpa [slot] using below
    · intro r mem r' mem' same
      obtain ⟨n, slot, -⟩ := slots r mem
      obtain ⟨n', slot', -⟩ := slots r' mem'
      obtain rfl : n = n' := by simpa [slot, slot'] using same
      exact h.distinct slot slot'
  returned := by
    intro r run found ended n row there owner
    obtain ⟨run', found', -, place⟩ := h.owner n row there
    rw [owner] at found'
    obtain rfl : run = run' := Option.some.inj (found.symm.trans found')
    simp [ended, RunPc.slot] at place

open State in
/-- Everything a step can do to slots, runs, gates and processes. -/
inductive Stepped (s : State) : Action → State → Prop where
  | spawns (p) : Stepped s (.spawn p) { s with alive := Function.update s.alive p true }
  | dies (p) : Stepped s (.die p) (s.die p)
  | rewires {a t} (rewired : Rewired s t) : Stepped s a t
  | starts (r p instanceId g) (lives : s.alive p = true) (fresh : s.runs r = none)
      (gate : (s.gates g).isSome) : Stepped s (.start r p instanceId g)
        { s with runs := Function.update s.runs r (some ⟨p, instanceId, g, .waiting⟩) }
  | acquires (r run) (pidAlive : Pid → Bool) (found : s.runs r = some run)
      (waiting : run.pc = .waiting) : Stepped s (.tryAcquire r pidAlive)
        (s.tryAcquire r run (fun p => pidAlive p || s.alive p))
  | moves {a} (r run pc) (found : s.runs r = some run) (slot : pc.slot = run.pc.slot)
      (here : run.pc ≠ .gone) (running : run.pc ≠ .ended) : Stepped s a (s.setPc r run pc)
  | releases (r run n fault) (found : s.runs r = some run) (ending : run.pc = .ending (some n)) :
      Stepped s (.release r fault) ((s.release run.pid n).setPc r run .sweeping)
  | leaks (r run n fault) (found : s.runs r = some run) (ending : run.pc = .ending (some n))
      (unclean : s.isClosed run.gate = true ∨ fault = true) :
      Stepped s (.release r fault) (s.setPc r run .ended)
  | sweeps (r run) (found : s.runs r = some run) (sweeping : run.pc = .sweeping)
      (opened : s.isClosed run.gate = false) : Stepped s (.sweep r true false)
        ((s.releaseInstanceSlots run.pid run.instanceId).setPc r run .ended)

theorem Stepped.moves_on {s : State} {a : Action} {r : RunId} {run : Run} {pc pc' : RunPc}
    (found : s.runs r = some run) (place : run.pc = pc) (slot : pc'.slot = pc.slot)
    (here : pc ≠ .gone) (running : pc ≠ .ended) : Stepped s a (s.setPc r run pc') := by
  subst place
  exact .moves r run pc' found slot here running

theorem step_cases {s t : State} {a : Action} (enabled : step s a = some t) : Stepped s a t := by
  cases a with
  | spawn p =>
    obtain ⟨-, same⟩ := Option.ite_none_left_eq_some.mp enabled
    obtain rfl := Option.some.inj same
    exact .spawns p
  | die p =>
    obtain ⟨-, same⟩ := Option.ite_none_right_eq_some.mp enabled
    obtain rfl := Option.some.inj same
    exact .dies p
  | getBuildQueue p n new =>
    obtain ⟨⟨-, fresh⟩, same⟩ := Option.ite_none_right_eq_some.mp enabled
    obtain rfl := Option.some.inj same
    exact .rewires (.getBuildQueue p n fresh)
  | sharedGate p n new =>
    obtain ⟨⟨-, fresh⟩, same⟩ := Option.ite_none_right_eq_some.mp enabled
    obtain rfl := Option.some.inj same
    exact .rewires (.sharedGate p (max 1 n) fresh)
  | start r p instanceId g =>
    obtain ⟨⟨lives, fresh, gate⟩, same⟩ := Option.ite_none_right_eq_some.mp enabled
    obtain rfl := Option.some.inj same
    exact .starts r p instanceId g lives fresh (Option.isSome_of_any gate)
  | tryAcquire r pidAlive =>
    cases found : s.runs r with
    | none => simp [step, found] at enabled
    | some run =>
      simp only [step, found] at enabled
      split_ifs at enabled with waiting closed
      · obtain rfl := Option.some.inj enabled
        exact .moves_on found (not_not.mp waiting) rfl (by simp) (by simp)
      · obtain rfl := Option.some.inj enabled
        exact .acquires r run pidAlive found (not_not.mp waiting)
  | giveUp r =>
    cases found : s.runs r with
    | none => simp [step, found] at enabled
    | some run =>
      simp only [step, found] at enabled
      split_ifs at enabled with waiting
      obtain rfl := Option.some.inj enabled
      exact .moves_on found (not_not.mp waiting) rfl (by simp) (by simp)
  | finish r =>
    cases found : s.runs r with
    | none => simp [step, found] at enabled
    | some run =>
      simp only [step, found] at enabled
      split at enabled
      · next n holding =>
        obtain rfl := Option.some.inj enabled
        exact .moves_on found holding rfl (by simp) (by simp)
      · simp at enabled
  | release r fault =>
    cases found : s.runs r with
    | none => simp [step, found] at enabled
    | some run =>
      simp only [step, found] at enabled
      split at enabled
      · next ending =>
        obtain rfl := Option.some.inj enabled
        exact .moves_on found ending rfl (by simp) (by simp)
      · next n ending =>
        split_ifs at enabled with unclean
        · obtain rfl := Option.some.inj enabled
          exact .leaks r run n fault found ending unclean
        · obtain rfl := Option.some.inj enabled
          exact .releases r run n fault found ending
      · simp at enabled
  | sweep r cancelled fault =>
    cases found : s.runs r with
    | none => simp [step, found] at enabled
    | some run =>
      simp only [step, found] at enabled
      split_ifs at enabled with sweeping sweeps
      · obtain rfl := Option.some.inj enabled
        obtain ⟨rfl, opened, rfl⟩ := sweeps
        exact .sweeps r run found (not_not.mp sweeping) opened
      · obtain rfl := Option.some.inj enabled
        exact .moves_on found (not_not.mp sweeping) rfl (by simp) (by simp)

theorem owned_step {s t : State} {a : Action} (h : Owned s) (meets : ReleasesCleanly s a)
    (enabled : step s a = some t) : Owned t := by
  cases step_cases enabled with
  | spawns p => exact h.spawn p
  | dies p => exact h.die p
  | rewires rewired => exact h.rewired rewired
  | starts r p instanceId g lives fresh gate => exact h.start fresh lives gate instanceId
  | acquires r run pidAlive found waiting =>
    exact h.tryAcquire found waiting (fun p lives => by simp only [lives, Bool.or_true])
  | moves r run pc found slot here running => exact h.setPc found slot here running
  | releases r run n fault found ending => exact h.release found ending
  | leaks r run n fault found ending unclean =>
    obtain ⟨opened, rfl⟩ := meets run n found ending
    simp [opened] at unclean
  | sweeps r run found sweeping opened =>
    exact h.sweep found sweeping (meets run found sweeping opened)

theorem deleted_step {s t : State} {a : Action} (h : Owned s) (meets : ReleasesCleanly s a)
    (enabled : step s a = some t) : DeletedByOwner s a t := by
  intro n row there deleted
  cases step_cases enabled with
  | spawns p => exact absurd there deleted
  | dies p => exact absurd there deleted
  | rewires rewired =>
    rw [rewired.slots] at deleted
    exact absurd there deleted
  | starts r p instanceId g lives fresh gate => exact absurd there deleted
  | acquires r run pidAlive found waiting =>
    have honest : ∀ p, s.alive p → (pidAlive p || s.alive p) := fun p lives => by simp [lives]
    rcases reclaimed_kept h honest there with kept | gone
    · refine absurd ?_ deleted
      unfold State.tryAcquire
      simp only
      split
      · exact there
      · next m free =>
        have apart : n ≠ m := by
          rintro rfl
          rw [(freeSlot_spec free).1] at kept
          simp at kept
        simpa [State.setPc, apart] using kept
    · exact .inr gone
  | moves r run pc found slot here running => exact absurd there deleted
  | releases r run m fault found ending =>
    by_cases same : n = m
    · subst same
      have mine := (h.held r run n found (by simp [ending, RunPc.slot])).1
      obtain rfl : _ = row := Option.some.inj (mine.symm.trans there)
      exact .inl ⟨fault, rfl⟩
    · refine absurd ?_ deleted
      simpa [State.setPc, State.release, same] using there
  | leaks r run m fault found ending unclean => exact absurd there deleted
  | sweeps r run found sweeping opened =>
    by_cases swept : row.instanceId = run.instanceId ∧ row.pid = run.pid
    · exact .inr (meets run found sweeping opened n row there swept.1 swept.2)
    · exact absurd (Option.filter_eq_some_iff.mpr ⟨there, decide_eq_true swept⟩) deleted

/-- In every run whose releases are clean, every state is one of a semaphore and every
step deletes rows of its own run or of runs that are gone only. -/
theorem gate_is_semaphore {as : List Action} {s : State}
    (h : GuardedRuns.Run step ReleasesCleanly State.initial as s) :
    Semaphore s ∧ ∀ a t, ReleasesCleanly s a → step s a = some t → DeletedByOwner s a t := by
  have owned : Owned s := h.invariant owned_initial (fun _ _ _ => owned_step)
  exact ⟨owned.semaphore, fun _ _ => deleted_step owned⟩

/-- A build holds the only slot when another thread asks for a queue of two slots. -/
def reconfigured : List Action :=
  [.spawn 10, .getBuildQueue 10 1 0, .start 0 10 "site" 0, .tryAcquire 0 (fun _ => true),
    .getBuildQueue 10 2 1, .finish 0, .release 0 false]

theorem gate_leaks_reconfigured : ¬ ∀ as s, GuardedRuns.Run step anyStep State.initial as s →
    Semaphore s ∧ ∀ a t, step s a = some t → DeletedByOwner s a t := by
  intro claim
  have leaked : ∃ s, exec step State.initial reconfigured = some s ∧
      s.runs 0 = some ⟨10, "site", 0, .ended⟩ ∧ s.slots 0 = some ⟨"site", 10, 0⟩ :=
    ⟨_, rfl, rfl, rfl⟩
  obtain ⟨s, run, ended, row⟩ := leaked
  exact (claim _ s (.of_exec run)).1.returned 0 _ ended rfl 0 _ row rfl

/-- Two processes share two slots, and a cancelled build gives its own back. -/
def shared : List Action :=
  [.spawn 10, .spawn 20, .getBuildQueue 10 2 0, .getBuildQueue 20 2 1, .start 0 10 "site" 0,
    .start 1 20 "api" 1, .tryAcquire 0 (fun _ => true), .tryAcquire 1 (fun _ => true), .finish 0,
    .release 0 false]

theorem gate_is_semaphore_shared : ∃ s, exec step State.initial shared = some s ∧ Semaphore s := by
  refine ⟨_, rfl, (gate_is_semaphore
    (show GuardedRuns.Run step ReleasesCleanly State.initial shared _ from ?_)).1⟩
  unfold shared
  iterate 9 refine .cons trivial rfl ?_
  refine .cons (fun run n found _ => ?_) rfl (.refl _)
  obtain rfl := Option.some.inj found
  exact ⟨rfl, rfl⟩

end LocalWebAccess.BuildGateSlots
