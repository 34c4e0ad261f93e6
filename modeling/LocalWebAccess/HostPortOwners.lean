import LocalWebAccess.HostPorts

/-!
# Who serves on a port owns it

A deployment comes to its `up` with a port that it has just allocated. The calls that do
not ask the table rely on the manifest of a deployed instance: its port is the one of
the compose file, of the row and of the container, and it is owned unless it was released.
-/
namespace LocalWebAccess.HostPorts
open GuardedRuns

/-! ## Where the code keeps the claim -/

/-- The step releases all ports of its instance. -/
def Pc.drops (o : Observed) : Pc → Bool
  | .dropping _ | .deleting => true
  | .releasing d | .failing d _ => d.fresh && o.ok
  | _ => false

/-- The one port that the step releases. -/
def Pc.dropsPort (o : Observed) : Pc → Option Port
  | .rollingPorts _ => if o.ok then none else some o.port
  | .disabling port fresh _ => if fresh then some port else none
  | _ => none

/-- A light start and a recreate begin where the port of the manifest has not been released since it was
allocated, and a port is released while its instance does not serve on it. -/
def Guard (s : State) : Action → Prop
  | .called i .startContainer | .called i .recreateContainerRuntime =>
    ∀ m, (s.inst i).manifestPort = some m → (s.inst i).released m = false
  | .called _ _ | .raises _ => True
  | .proceeds i o => ∀ pc, (s.inst i).pc = some pc →
      (pc.drops o = true → ∀ p, ¬ (s.inst i).Up p) ∧ ∀ p, pc.dropsPort o = some p → ¬ (s.inst i).Up p
  | .cancels i ok => ∀ d, (s.inst i).pc = some (.building d) → d.fresh = true → ok = true →
      ∀ p, ¬ (s.inst i).Up p

/-! ## What holds of one instance -/

namespace Inst

/-- Whatever container there is has the port. -/
def ContainerAt (x : Inst) (m : Port) : Prop := ∀ c r, x.container = some (c, r) → c = m

/-- The container and the records of the instance agree on its port. -/
def Agrees (x : Inst) (m : Port) : Prop :=
  x.ContainerAt m ∧ x.manifestPort = some m ∧ x.compose = some m

variable {own : Port → Prop} {x : Inst} {p m : Port}

/-- What every step keeps: who serves on a port owns it, a released port is not owned, and only a registered
instance has a row. -/
structure Kept (own : Port → Prop) (x : Inst) : Prop where
  up : ∀ p, x.Up p → own p
  released : ∀ p, x.released p = true → ¬ own p
  row : x.rowPort.isSome = true → x.registered = true

/-- A deployed instance can be started from its records unless its port was released. -/
def Ready (own : Port → Prop) (x : Inst) (m : Port) : Prop :=
  x.Agrees m ∧ (own m ∧ x.rowPort = some m ∨ x.released m = true ∧ x.running = false)

/-- Between two calls. -/
def Idle (own : Port → Prop) (x : Inst) : Prop :=
  x.deployed = true → x.runtime = .dockerCompose ∧ ∃ m, x.Ready own m

/-- A call that works from the records of the instance. -/
def Lit (own : Port → Prop) (x : Inst) (m : Port) : Prop :=
  x.runtime = .dockerCompose ∧ x.Agrees m ∧ own m ∧ x.rowPort = some m

/-- A deployment of a container that is down. -/
def Down (x : Inst) : Prop := x.runtime = .dockerCompose ∧ x.deployed = false ∧ x.running = false

/-- A deployment that has rendered its compose file and, build-first, can go back to the same port. -/
def Placed (own : Port → Prop) (x : Inst) (d : Deploy) : Prop :=
  x.runtime = .dockerCompose ∧ own d.port ∧ x.ContainerAt d.port ∧ x.compose = some d.port ∧
    (x.deployed = true → x.manifestPort = some d.port) ∧ (d.txn = true → x.prev = some d.port ∧ d.fresh = false)

/-- A build-first deployment works on the port of the running container. -/
def First (own : Port → Prop) (x : Inst) (d : Deploy) : Prop :=
  x.Lit own d.port ∧ x.prev = some d.port ∧ d.fresh = false

end Inst

open Inst

namespace Pc

/-- What holds of an instance while its call is there. -/
def Fact (own : Port → Prop) (x : Inst) : Option Pc → Prop
  | none | some removing | some deleting | some purging => x.Idle own
  | some (preparing _) => x.runtime = .dockerCompose ∧ x.Idle own
  | some (ensuring (.container txn _)) =>
    if txn then ∃ m, x.Lit own m ∧ x.prev = some m else x.Down
  | some (dropping (.container txn _)) | some (allocating (.container txn _)) => txn = false ∧ x.Down
  | some (ensuring (.site _)) | some (dropping (.site _)) | some (allocating (.site _)) => x.deployed = false
  | some (rendering d) => if d.txn then x.First own d else x.Down ∧ own d.port
  | some (building d) =>
    if d.txn then x.First own d else x.Down ∧ own d.port ∧ x.compose = some d.port
  | some (swapping d) => d.txn = true ∧ x.First own d
  | some (upping d) => x.Down ∧ own d.port ∧ x.compose = some d.port ∧
      (d.txn = true → x.prev = some d.port ∧ d.fresh = false ∧ x.ContainerAt d.port)
  | some (observing d) | some (stopping d) | some (releasing d) | some (failing d true) => x.Placed own d
  | some (compensating d) | some (reviving d) => d.txn = true ∧ x.Placed own d
  | some (committing d) => x.Placed own d ∧ x.manifestPort = some d.port
  | some (verifying d) => x.Placed own d ∧ x.rowPort = some d.port
  | some (failing _ false) => x.deployed = false
  | some (downing _) => x.deployed = true → x.runtime = .dockerCompose ∧
      ∃ m, x.Agrees m ∧ (own m ∨ x.released m = true ∧ x.running = false)
  | some (rolling _) | some (rollingPorts _) | some (restoring _) => True
  | some lightStarting | some (lightObserving _) => ∃ m, x.Lit own m
  | some lightUpping => x.deployed = false ∧ ∃ m, x.Lit own m
  | some recreating | some reUpping | some reVerifying | some reDowning | some reReviving =>
    ∃ m, x.Lit own m ∧ x.prev = some m
  | some (enabling port _ _) | some (disabling port _ _) => x.deployed = false ∧ own port
  | some (enabled port _) => x.deployed = false ∧ own port

end Pc

/-- What holds of an instance and the ports it owns. -/
def Local (own : Port → Prop) (x : Inst) : Prop := x.Kept own ∧ Pc.Fact own x x.pc

def Inv (s : State) : Prop := ∀ i, Local (fun p => s.ports p = some i) (s.inst i)

namespace Inst

variable {own : Port → Prop} {x y : Inst} {p m : Port} {d : Deploy}

theorem Kept.of_up (h : x.Kept own) (up : ∀ p, y.Up p → x.Up p ∨ own p) (same : y.released = x.released)
    (row : y.rowPort = x.rowPort) (registered : y.registered = x.registered) : y.Kept own where
  up := by
    intro p serves
    rcases up p serves with before | owned
    · exact h.up p before
    · exact owned
  released := same ▸ h.released
  row := row ▸ registered ▸ h.row

theorem running_of_up (down : ∀ p, ¬ x.Up p) : x.running = false := by
  unfold running
  cases there : x.container with
  | none => rfl
  | some c =>
    obtain ⟨p, r⟩ := c
    cases r with
    | true => exact absurd (.inl there) (down p)
    | false => rfl

/-- `down` leaves no container or the one there was. -/
theorem down_container {ok : Bool} {c : Port × Bool} (h : (x.down ok).container = some c) : x.container = some c := by
  cases ok with
  | true => cases h
  | false => exact h

theorem down_up {ok : Bool} (h : (x.down ok).Up p) : x.Up p := by
  cases ok with
  | true =>
    rcases h with container | site
    · cases container
    · exact .inr site
  | false => exact h

theorem ContainerAt.down (h : x.ContainerAt m) (ok : Bool) : (x.down ok).ContainerAt m :=
  fun c r there => h c r (down_container there)

theorem ContainerAt.upFails (h : x.ContainerAt m) (compose : x.compose = some m) (left : Bool) :
    (x.upFails left).ContainerAt m := by
  cases left with
  | false => exact h
  | true =>
    intro c r there
    simp only [Inst.upFails, if_true, compose, Option.map_some, Option.some.injEq, Prod.mk.injEq] at there
    exact there.1.symm

theorem upFails_up {left : Bool} (h : (x.upFails left).Up p) : x.Up p := by
  cases left with
  | false => exact h
  | true =>
    rcases h with container | site
    · cases compose : x.compose <;> simp [upFails, compose] at container
    · exact .inr site

theorem up_container (compose : x.compose = some m) : x.up.container = some (m, true) := by
  simp [up, compose]

theorem up_up (compose : x.compose = some m) (h : x.up.Up p) : x.Up p ∨ p = m := by
  rcases h with container | site
  · rw [up_container compose, Option.some.injEq, Prod.mk.injEq] at container
    exact .inr container.1.symm
  · exact .inl (.inr site)

theorem containerAt_up (compose : x.compose = some m) : x.up.ContainerAt m := by
  intro c r there
  rw [up_container compose, Option.some.injEq, Prod.mk.injEq] at there
  exact there.1.symm

theorem stop_container {c : Port × Bool} (h : x.stop.container = some c) :
    ∃ r, x.container = some (c.1, r) ∧ c.2 = false := by
  obtain ⟨b, there, rfl⟩ := Option.map_eq_some_iff.mp h
  exact ⟨b.2, there, rfl⟩

theorem stop_up (h : x.stop.Up p) : x.Up p := by
  rcases h with container | site
  · obtain ⟨_, -, stopped⟩ := stop_container container
    cases stopped
  · exact .inr site

theorem ContainerAt.stop (h : x.ContainerAt m) : x.stop.ContainerAt m := by
  intro c r there
  obtain ⟨b, before, -⟩ := stop_container there
  exact h c b before

theorem Lit.idle (h : x.Lit own m) : x.Idle own :=
  fun _ => ⟨h.1, m, h.2.1, .inl h.2.2⟩

theorem idle_of_undeployed (h : x.deployed = false) : x.Idle own := by
  intro deployed
  cases h.symm.trans deployed

/-- The row that `upsert_from_manifest` writes is the port of the manifest. -/
theorem Idle.upsert (h : x.Idle own) : x.upsert.Idle own := by
  intro deployed
  obtain ⟨docker, m, agrees, state⟩ := h deployed
  refine ⟨docker, m, agrees, ?_⟩
  rcases state with ⟨owned, -⟩ | released
  · exact .inl ⟨owned, agrees.2.1⟩
  · exact .inr released

theorem Placed.idle_upsert (h : x.Placed own d) : x.upsert.Idle own := by
  intro deployed
  obtain ⟨docker, owned, container, compose, manifest, -⟩ := h
  exact ⟨docker, d.port, ⟨container, manifest deployed, compose⟩, .inl ⟨owned, manifest deployed⟩⟩

theorem Idle.down (h : x.Idle own) (ok : Bool) : (x.down ok).Idle own := by
  cases ok with
  | false => exact h
  | true =>
    intro deployed
    obtain ⟨docker, m, agrees, state⟩ := h deployed
    refine ⟨docker, m, ⟨agrees.1.down true, agrees.2⟩, ?_⟩
    rcases state with owned | ⟨released, -⟩
    · exact .inl owned
    · exact .inr ⟨released, rfl⟩

theorem Idle.stop (h : x.Idle own) : x.stop.Idle own := by
  intro deployed
  obtain ⟨docker, m, agrees, state⟩ := h deployed
  refine ⟨docker, m, ⟨agrees.1.stop, agrees.2⟩, ?_⟩
  rcases state with owned | ⟨released, -⟩
  · exact .inl owned
  · refine .inr ⟨released, ?_⟩
    cases there : x.container <;> simp [running, Inst.stop, there]

end Inst

/-! ## Steps -/

namespace Inv

variable {s t : State} {i : InstanceId} {p : Port} {f : Inst → Inst}

/-- A step of one instance leaves the ports of the others alone. -/
theorem local_step (h : Inv s)
    (others : ∀ j, j ≠ i → t.inst j = s.inst j ∧ ∀ q, t.ports q = some j ↔ s.ports q = some j)
    (mine : Local (fun q => t.ports q = some i) (t.inst i)) : Inv t := by
  intro j
  by_cases same : j = i
  · subst same
    exact mine
  · obtain ⟨inst, ports⟩ := others j same
    have kept := h j
    rw [← inst, ← funext fun q => propext (ports q)] at kept
    exact kept

theorem edit (h : Inv s) (mine : Local (fun q => s.ports q = some i) (f (s.inst i))) : Inv (s.edit i f) := by
  apply h.local_step (i := i)
  · exact fun j ne => ⟨by simp [State.edit, State.put, ne], fun _ => Iff.rfl⟩
  · simpa [State.edit, State.put] using mine

theorem allocate (h : Inv s) (may : s.mayAllocate i p = true)
    (mine : Local (fun q => q = p ∨ s.ports q = some i)
      (f { s.inst i with released := Function.update (s.inst i).released p false })) :
    Inv ((s.allocatePort i p).edit i f) := by
  have free : s.ports p = none ∨ s.ports p = some i := by
    simp only [State.mayAllocate, Bool.and_eq_true, Bool.or_eq_true, decide_eq_true_eq] at may
    exact may.2
  apply h.local_step (i := i)
  · intro j ne
    refine ⟨by simp [State.edit, State.put, State.allocatePort, ne], ?_⟩
    intro q
    by_cases same : q = p
    · subst same
      rcases free with free | free <;> simp [State.edit, State.put, State.allocatePort, free, Ne.symm ne]
    · simp [State.edit, State.put, State.allocatePort, same]
  · have own : (fun q => ((s.allocatePort i p).edit i f).ports q = some i) = fun q => q = p ∨ s.ports q = some i := by
      funext q
      by_cases same : q = p <;> simp [State.edit, State.put, State.allocatePort, same]
    rw [own]
    simpa [State.edit, State.put, State.allocatePort] using mine

theorem release (h : Inv s)
    (mine : Local (fun _ => False)
      (f { s.inst i with released := fun q => (s.inst i).released q || s.ports q = some i })) :
    Inv ((s.releaseInstance i).edit i f) := by
  apply h.local_step (i := i)
  · intro j ne
    refine ⟨by simp [State.edit, State.put, State.releaseInstance, ne], ?_⟩
    intro q
    by_cases mine : s.ports q = some i <;> simp [State.edit, State.put, State.releaseInstance, mine, Ne.symm ne]
  · have own : (fun q => ((s.releaseInstance i).edit i f).ports q = some i) = fun _ => False := by
      funext q
      by_cases mine : s.ports q = some i <;> simp [State.edit, State.put, State.releaseInstance, mine]
    rw [own]
    simpa [State.edit, State.put, State.releaseInstance] using mine

theorem releasePort (h : Inv s) (owner : s.ports p = some i)
    (mine : Local (fun q => q ≠ p ∧ s.ports q = some i)
      (f { s.inst i with released := Function.update (s.inst i).released p true })) :
    Inv ((s.releasePort i p).edit i f) := by
  apply h.local_step (i := i)
  · intro j ne
    refine ⟨by simp [State.edit, State.put, State.releasePort, ne], ?_⟩
    intro q
    by_cases same : q = p
    · subst same
      simp [State.edit, State.put, State.releasePort, owner, Ne.symm ne]
    · simp [State.edit, State.put, State.releasePort, same]
  · have own : (fun q => ((s.releasePort i p).edit i f).ports q = some i) = fun q => q ≠ p ∧ s.ports q = some i := by
      funext q
      by_cases same : q = p <;> simp [State.edit, State.put, State.releasePort, same]
    rw [own]
    simpa [State.edit, State.put, State.releasePort] using mine

end Inv

namespace Inst

variable {own : Port → Prop} {x y : Inst} {p m : Port} {d : Deploy} {attempt : Option Snapshot} {o : Observed}

theorem Kept.done (kept : x.Kept own) (idle : x.Idle own) : Local own x.done :=
  ⟨⟨kept.up, kept.released, kept.row⟩, idle⟩

theorem Kept.fails (kept : x.Kept own) (idle : x.Idle own) : Local own (x.fails attempt) := by
  refine ⟨⟨kept.up, kept.released, kept.row⟩, ?_⟩
  cases attempt with
  | none => exact idle
  | some => trivial

/-- What the next place asks for does not depend on the place. -/
theorem Kept.goto (kept : x.Kept own) {pc : Pc} (fact : Pc.Fact own x (some pc)) : Local own (x.goto pc) := by
  refine ⟨⟨kept.up, kept.released, kept.row⟩, ?_⟩
  cases pc with
  | ensuring c | dropping c | allocating c => cases c <;> exact fact
  | failing d up => cases up <;> exact fact
  | _ => exact fact

theorem Kept.upsert (kept : x.Kept own) : x.upsert.Kept own := ⟨kept.up, kept.released, fun _ => rfl⟩

theorem Kept.down (kept : x.Kept own) (ok : Bool) : (x.down ok).Kept own :=
  kept.of_up (fun _ serves => .inl (down_up serves)) (by cases ok <;> rfl) (by cases ok <;> rfl)
    (by cases ok <;> rfl)

theorem Kept.stop (kept : x.Kept own) : x.stop.Kept own :=
  kept.of_up (fun _ serves => .inl (stop_up serves)) rfl rfl rfl

theorem Kept.upFails (kept : x.Kept own) (left : Bool) : (x.upFails left).Kept own :=
  kept.of_up (fun _ serves => .inl (upFails_up serves)) (by cases left <;> rfl) (by cases left <;> rfl)
    (by cases left <;> rfl)

theorem Kept.composed (kept : x.Kept own) (compose : x.compose = some m) (owned : own m) : x.up.Kept own := by
  refine kept.of_up ?_ rfl rfl rfl
  intro p serves
  rcases up_up compose serves with before | rfl
  · exact .inl before
  · exact .inr owned

/-- A deployment that has put its container up goes on to its compensation, or to the handler of its failure. -/
theorem Kept.compensates {e : Deploy → Pc} (kept : x.Kept own) (placed : x.Placed own d)
    (fact : x.Placed own d → Pc.Fact own x (some (e d))) :
    Local own (x.goto (if d.txn then .compensating d else e d)) := by
  split
  · rename_i first
    exact kept.goto ⟨first, placed⟩
  · exact kept.goto (fact placed)

theorem prepare_local (kept : x.Kept own) (docker : x.runtime = .dockerCompose) (idle : x.Idle own) :
    Local own (prepare x attempt o) := by
  unfold prepare
  split
  · rename_i running
    split
    · rename_i first
      simp only [Bool.and_eq_true] at first
      obtain ⟨-, m, agrees, state⟩ := idle first.1
      rcases state with owned | ⟨-, down⟩
      · apply Kept.goto
        · exact ⟨kept.up, kept.released, kept.row⟩
        · exact ⟨m, ⟨docker, agrees, owned⟩, agrees.2.2⟩
      · cases down.symm.trans running
    · split
      · apply Kept.goto
        · exact ⟨(kept.down true).up, kept.released, kept.row⟩
        · exact ⟨docker, rfl, rfl⟩
      · exact kept.fails idle
  · rename_i stopped
    apply Kept.goto
    · exact ⟨kept.up, kept.released, kept.row⟩
    · exact ⟨docker, rfl, Bool.eq_false_iff.mpr stopped⟩

theorem lightStart_local (kept : x.Kept own) (lit : x.Lit own m) : Local own (lightStart x o) := by
  unfold lightStart
  split
  · split
    · apply Kept.goto
      · exact ⟨(kept.down true).up, kept.released, kept.row⟩
      · exact ⟨rfl, m, lit.1, ⟨lit.2.1.1.down true, lit.2.1.2⟩, lit.2.2⟩
    · exact kept.done lit.idle
  · split
    · exact kept.goto ⟨m, lit⟩
    · rename_i p stopped
      split
      · -- the container starts on its own port, which is the one of the records
        obtain rfl : p = m := lit.2.1.1 p false stopped
        apply Kept.goto
        · refine kept.of_up ?_ rfl rfl rfl
          rintro q (container | site)
          · obtain ⟨rfl, -⟩ := Prod.mk.inj (Option.some.inj container)
            exact .inr lit.2.2.1
          · exact .inl (.inr site)
        · refine ⟨p, lit.1, ⟨?_, lit.2.1.2⟩, lit.2.2⟩
          intro c r there
          exact (Prod.mk.inj (Option.some.inj there)).1.symm
      · exact kept.done lit.idle
    · split
      · apply Kept.goto
        · exact ⟨kept.up, kept.released, kept.row⟩
        · exact ⟨rfl, m, lit⟩
      · exact kept.goto ⟨lit.1, lit.idle⟩

/-- The compensation comes back on the port of the deployment. -/
theorem revive_local (kept : x.Kept own) (first : d.txn = true) (placed : x.Placed own d) :
    Local own (revive x d o) := by
  obtain ⟨docker, owned, container, compose, manifest, prev⟩ := placed
  unfold revive
  split
  · rename_i absent
    cases absent.symm.trans (prev first).1
  rename_i p there
  obtain rfl := Option.some.inj (there.symm.trans (prev first).1)
  have rendered : Placed own { x with compose := some d.port } d := ⟨docker, owned, container, rfl, manifest, prev⟩
  have kept' : Kept own { x with compose := some d.port } := ⟨kept.up, kept.released, kept.row⟩
  have upKept : Kept own (up { x with compose := some d.port }) := kept'.composed rfl owned
  have upAt : ContainerAt (up { x with compose := some d.port }) d.port := containerAt_up rfl
  split
  · split
    · apply Kept.fails
      · exact ⟨upKept.up, upKept.released, fun _ => rfl⟩
      · exact fun _ => ⟨docker, d.port, ⟨upAt, rfl, rfl⟩, .inl ⟨owned, rfl⟩⟩
    · apply upKept.upsert.fails
      have placed : Placed own (up { x with compose := some d.port }) d := ⟨docker, owned, upAt, rfl, manifest, prev⟩
      exact placed.idle_upsert
  · apply (kept'.upFails o.left).upsert.fails
    have placed : Placed own (upFails { x with compose := some d.port } o.left) d := by
      have at_port := ContainerAt.upFails (x := { x with compose := some d.port }) container rfl o.left
      cases left : o.left with
      | true => exact ⟨docker, owned, left ▸ at_port, rfl, manifest, prev⟩
      | false => exact rendered
    exact placed.idle_upsert

theorem reRevive_local (kept : x.Kept own) (lit : x.Lit own m) (prev : x.prev = some m) :
    Local own (reRevive x o) := by
  obtain ⟨docker, ⟨container, manifest, compose⟩, owned, row⟩ := lit
  unfold reRevive
  split
  case h_2 absent => cases absent m m prev manifest
  rename_i p q there _
  obtain rfl := Option.some.inj (there.symm.trans prev)
  have kept' : Kept own { x with compose := some p } := ⟨kept.up, kept.released, kept.row⟩
  have upKept : Kept own (up { x with compose := some p }) := kept'.composed rfl owned
  have upAt : ContainerAt (up { x with compose := some p }) p := containerAt_up rfl
  split
  · split
    · apply Kept.done
      · exact ⟨upKept.up, upKept.released, fun _ => rfl⟩
      · exact fun _ => ⟨docker, p, ⟨upAt, manifest, rfl⟩, .inl ⟨owned, manifest⟩⟩
    · have downKept := upKept.down o.left
      apply Kept.done
      · exact ⟨downKept.up, downKept.released, fun _ => rfl⟩
      · exact idle_of_undeployed rfl
  · have failKept := kept'.upFails o.left
    apply Kept.done
    · exact ⟨failKept.up, failKept.released, fun _ => rfl⟩
    · exact idle_of_undeployed rfl

theorem Lit.back (h : x.Lit own m) (prev : x.prev = some m) : Lit own { x with compose := x.prev } m :=
  ⟨h.1, ⟨h.2.1.1, h.2.1.2.1, prev⟩, h.2.2⟩

/-- An exception before the swap takes the compose file back. -/
theorem failsEarly_local (txn : Bool) (kept : x.Kept own)
    (fact : if txn then ∃ m, x.Lit own m ∧ x.prev = some m else x.Down) : Local own (failsEarly x txn attempt) := by
  cases txn with
  | true =>
    obtain ⟨m, lit, prev⟩ := fact
    have idle : Idle own { x with compose := x.prev } := (lit.back prev).idle
    apply Kept.fails
    · exact ⟨kept.up, kept.released, kept.row⟩
    · exact idle
  | false => exact kept.upsert.fails (idle_of_undeployed fact.2.1)

theorem raise_local {pc : Pc} (kept : x.Kept own) (fact : Pc.Fact own x (some pc)) (raised : raise x pc = some y) :
    Local own y := by
  cases pc with
  | preparing attempt =>
    cases raised
    exact kept.upsert.fails fact.2.upsert
  | ensuring c =>
    cases c with
    | container txn attempt =>
      cases raised
      exact failsEarly_local txn kept fact
    | site attempt =>
      cases raised
      exact kept.fails (idle_of_undeployed fact)
  | dropping c | allocating c =>
    cases c with
    | container txn attempt =>
      cases raised
      obtain ⟨rfl, down⟩ := fact
      exact failsEarly_local false kept down
    | site attempt =>
      cases raised
      exact kept.fails (idle_of_undeployed fact)
  | rendering d | building d =>
    simp only [raise, Option.some.injEq] at raised
    subst raised
    simp only [Pc.Fact] at fact
    split
    · rename_i first
      rw [if_pos first] at fact
      exact failsEarly_local true kept ⟨d.port, fact.1, fact.2.1⟩
    · rename_i first
      rw [if_neg first] at fact
      exact kept.goto fact.1.2.1
  | observing d =>
    cases raised
    exact kept.compensates (e := (.failing · true)) fact id
  | committing d | verifying d =>
    cases raised
    exact kept.compensates (e := (.failing · true)) fact.1 id
  | enabled port attempt =>
    cases raised
    exact kept.fails (idle_of_undeployed fact.1)
  | lightStarting | lightObserving up =>
    cases raised
    obtain ⟨m, lit⟩ := fact
    exact kept.done lit.idle
  | recreating | reVerifying =>
    cases raised
    obtain ⟨m, lit, -⟩ := fact
    exact kept.done lit.idle
  | removing | deleting | purging =>
    cases raised
    exact kept.done fact
  | _ => cases raised

theorem Kept.allocated (kept : x.Kept own) :
    Kept (fun q => q = p ∨ own q) { x with released := Function.update x.released p false } where
  up q serves := .inr (kept.up q serves)
  released := by
    intro q released
    by_cases same : q = p
    · subst same
      simp at released
    · have before : x.released q = true := (Function.update_of_ne same false x.released).symm.trans released
      rintro (rfl | owned)
      · exact same rfl
      · exact kept.released q before owned
  row := kept.row

theorem Kept.dropped (kept : x.Kept own) (down : ∀ p, ¬ x.Up p) (released : Port → Bool) :
    Kept (fun _ => False) { x with released := released } where
  up p serves := down p serves
  released _ _ := id
  row := kept.row

theorem Kept.droppedPort (kept : x.Kept own) (down : ¬ x.Up p) :
    Kept (fun q => q ≠ p ∧ own q) { x with released := Function.update x.released p true } where
  up := by
    intro q serves
    refine ⟨?_, kept.up q serves⟩
    rintro rfl
    exact down serves
  released := by
    rintro q released ⟨ne, owned⟩
    exact kept.released q ((Function.update_of_ne ne true x.released).symm.trans released) owned
  row := kept.row

/-- The places from the release to the allocation ask for the same. -/
theorem dropping_iff {c : Caller} : Pc.Fact own x (some (.dropping c)) ↔ Pc.Fact own x (some (.allocating c)) := by
  cases c <;> rfl

/-- A call that has its port goes on to render or to enable the site. -/
theorem next_fact {c : Caller} {fresh : Bool} (fact : Pc.Fact own x (some (.allocating c))) (owned : own p) :
    Pc.Fact own x (some (c.next p fresh)) := by
  cases c with
  | container txn attempt =>
    obtain ⟨rfl, down⟩ := fact
    exact ⟨down, owned⟩
  | site attempt => exact ⟨fact, owned⟩

end Inst

namespace Inv

variable {s t : State} {i : InstanceId} {o : Observed} {c : Caller} {x : Inst}

theorem goes (h : Inv s) {pc : Pc} (fact : Pc.Fact (fun q => s.ports q = some i) (s.inst i) (some pc)) :
    Inv (s.edit i (·.goto pc)) :=
  h.edit ((h i).1.goto fact)

/-- A call that does not work from a deployed instance takes any port that the table gives it. -/
theorem takes {p : Port} {fresh : Bool} (h : Inv s) (may : s.mayAllocate i p = true)
    (fact : ∀ own released, Pc.Fact own { s.inst i with released := released } (some (.allocating c))) :
    Inv ((s.allocatePort i p).edit i (·.goto (c.next p fresh))) := by
  apply h.allocate may
  apply ((h i).1.allocated (p := p)).goto
  exact next_fact (fact _ _) (.inl rfl)

/-- What the places before the allocation ask for does not speak of the ports. -/
theorem asks {own : Port → Prop} (fact : Pc.Fact own x (some (.allocating c))) (own' : Port → Prop)
    (released : Port → Bool) : Pc.Fact own' { x with released := released } (some (.allocating c)) := by
  cases c <;> exact fact

theorem ensurePort_inv (h : Inv s) (at_i : (s.inst i).pc = some (.ensuring c)) : Inv (ensurePort s i o c) := by
  obtain ⟨kept, fact⟩ := h i
  rw [at_i] at fact
  have known : (∃ attempt, c = .container true attempt ∧
      ∃ m, (s.inst i).Lit (fun q => s.ports q = some i) m ∧ (s.inst i).prev = some m) ∨
      Pc.Fact (fun q => s.ports q = some i) (s.inst i) (some (.allocating c)) := by
    cases c with
    | container txn attempt =>
      cases txn with
      | true => exact .inl ⟨attempt, rfl, fact⟩
      | false => exact .inr ⟨rfl, fact⟩
    | site => exact .inr fact
  rcases known with ⟨attempt, rfl, m, ⟨docker, agrees, owned, row⟩, prev⟩ | known
  · -- the row names a port that the instance owns, so the table does not refuse it
    have may : s.mayAllocate i m = true := by
      have registered := kept.row (by simp [row])
      simp [State.mayAllocate, registered, owned]
    have taken : ensurePort s i o (.container true attempt) =
        (s.allocatePort i m).edit i (·.goto (.rendering ⟨true, m, false, attempt⟩)) := by
      simp [ensurePort, row, may, Caller.next]
    rw [taken]
    apply h.allocate may
    apply (kept.allocated (p := m)).goto
    exact ⟨⟨docker, agrees, .inl rfl, row⟩, prev, rfl⟩
  · have drops : Inv (s.edit i (·.goto (.dropping c))) := h.goes (dropping_iff.mpr known)
    cases row : (s.inst i).rowPort with
    | none =>
      simp only [ensurePort, row]
      exact drops
    | some p =>
      have either : ∀ usable : Bool, Inv (if (usable && s.mayAllocate i p) = true
          then (s.allocatePort i p).edit i (·.goto (c.next p false)) else s.edit i (·.goto (.dropping c))) := by
        intro usable
        split
        · rename_i may
          exact h.takes (Bool.and_eq_true_iff.mp may).2 (asks known)
        · exact drops
      simp only [ensurePort, row]
      exact either _

end Inv

namespace Inst

variable {own : Port → Prop} {x y : Inst} {m : Port} {d : Deploy} {o : Observed}

theorem Placed.down (h : x.Placed own d) (ok : Bool) : (x.down ok).Placed own d := by
  obtain ⟨docker, owned, container, rest⟩ := h
  cases ok with
  | true => exact ⟨docker, owned, container.down true, rest⟩
  | false => exact ⟨docker, owned, container, rest⟩

theorem Lit.down (h : x.Lit own m) (ok : Bool) : (x.down ok).Lit own m := by
  obtain ⟨docker, ⟨container, records⟩, rest⟩ := h
  cases ok with
  | true => exact ⟨docker, ⟨container.down true, records⟩, rest⟩
  | false => exact ⟨docker, ⟨container, records⟩, rest⟩

theorem Lit.upFails (h : x.Lit own m) (left : Bool) : (x.upFails left).Lit own m := by
  obtain ⟨docker, ⟨container, records⟩, rest⟩ := h
  have at_port := container.upFails records.2 left
  cases left with
  | true => exact ⟨docker, ⟨at_port, records⟩, rest⟩
  | false => exact ⟨docker, ⟨container, records⟩, rest⟩

theorem Lit.composed (h : x.Lit own m) : x.up.Lit own m :=
  ⟨h.1, ⟨containerAt_up h.2.1.2.2, h.2.1.2⟩, h.2.2⟩

theorem rendering_local (kept : x.Kept own) (fact : Pc.Fact own x (some (.rendering d))) :
    Local own ({ x with compose := some d.port }.goto (.building d)) := by
  apply Kept.goto
  · exact ⟨kept.up, kept.released, kept.row⟩
  · simp only [Pc.Fact] at fact ⊢
    split
    · rename_i first
      rw [if_pos first] at fact
      obtain ⟨⟨docker, agrees, owned, row⟩, rest⟩ := fact
      exact ⟨⟨docker, ⟨agrees.1, agrees.2.1, rfl⟩, owned, row⟩, rest⟩
    · rename_i first
      rw [if_neg first] at fact
      exact ⟨fact.1, fact.2, trivial⟩

theorem building_local (kept : x.Kept own) (fact : Pc.Fact own x (some (.building d))) :
    Local own (x.goto (if d.txn then .swapping d else .upping d)) := by
  simp only [Pc.Fact] at fact
  split
  · rename_i first
    rw [if_pos first] at fact
    exact kept.goto ⟨first, fact⟩
  · rename_i first
    rw [if_neg first] at fact
    exact kept.goto ⟨fact.1, fact.2.1, fact.2.2, fun txn => absurd txn first⟩

theorem swapping_local (kept : x.Kept own) (fact : Pc.Fact own x (some (.swapping d))) :
    Local own (if x.running && !o.ok then { x with compose := x.prev }.fails d.attempt
      else { x.down x.running with deployed := false }.goto (.upping d)) := by
  obtain ⟨-, lit, prev, old⟩ := fact
  split
  · exact failsEarly_local true kept ⟨d.port, lit, prev⟩
  · have down := lit.down x.running
    have kept' := kept.down x.running
    have stopped : (x.down x.running).running = false := by
      cases running : x.running with
      | true => rfl
      | false => exact running
    apply Kept.goto
    · exact ⟨kept'.up, kept'.released, kept'.row⟩
    · refine ⟨⟨down.1, rfl, stopped⟩, down.2.2.1, down.2.1.2.2, fun _ => ⟨?_, old, down.2.1.1⟩⟩
      cases x.running <;> exact prev

theorem upping_local (kept : x.Kept own) (fact : Pc.Fact own x (some (.upping d))) :
    Local own (if o.ok then x.up.goto (.observing d)
      else (x.upFails o.left).goto (if d.txn then .compensating d else .failing d false)) := by
  obtain ⟨⟨docker, undeployed, -⟩, owned, compose, back⟩ := fact
  split
  · apply (kept.composed compose owned).goto
    refine ⟨docker, owned, containerAt_up compose, compose, ?_, fun first => ⟨(back first).1, (back first).2.1⟩⟩
    intro deployed
    cases undeployed.symm.trans deployed
  · have failed := kept.upFails o.left
    split
    · rename_i first
      obtain ⟨prev, old, container⟩ := back first
      have placed : (x.upFails o.left).Placed own d := by
        have at_port := container.upFails compose o.left
        cases left : o.left with
        | true =>
          refine ⟨docker, owned, left ▸ at_port, compose, ?_, fun _ => ⟨prev, old⟩⟩
          intro deployed
          cases undeployed.symm.trans deployed
        | false =>
          refine ⟨docker, owned, container, compose, ?_, fun _ => ⟨prev, old⟩⟩
          intro deployed
          cases undeployed.symm.trans deployed
      exact failed.goto ⟨first, placed⟩
    · apply failed.goto
      cases o.left <;> exact undeployed

theorem observing_local (kept : x.Kept own) (placed : x.Placed own d) :
    Local own (if o.ok then { x with manifestPort := some d.port, deployed := true }.goto (.committing d)
      else x.goto (if d.txn then .compensating d else .stopping d)) := by
  split
  · obtain ⟨docker, owned, container, compose, -, back⟩ := placed
    apply Kept.goto
    · exact ⟨kept.up, kept.released, kept.row⟩
    · exact ⟨⟨docker, owned, container, compose, fun _ => rfl, back⟩, rfl⟩
  · exact kept.compensates (e := .stopping) placed id

theorem verifying_local (kept : x.Kept own) (fact : Pc.Fact own x (some (.verifying d))) :
    Local own (if o.ok then x.done else x.goto (if d.txn then .compensating d else .stopping d)) := by
  obtain ⟨placed, row⟩ := fact
  split
  · apply kept.done
    intro deployed
    obtain ⟨docker, owned, container, compose, manifest, -⟩ := placed
    exact ⟨docker, d.port, ⟨container, manifest deployed, compose⟩, .inl ⟨owned, row⟩⟩
  · exact kept.compensates (e := .stopping) placed id

/-- The call works on: `manifest` and `row` get the one port of the records. -/
theorem lightObserving_local {up : Bool} (kept : x.Kept own) (lit : x.Lit own m) :
    Local own (if up && !o.ok then (x.down o.healthy).upsert.done
      else ({ x with deployed := x.deployed || up }.upsert).done) := by
  split
  · exact (kept.down o.healthy).upsert.done (lit.idle.down o.healthy).upsert
  · apply Kept.done
    · exact ⟨kept.up, kept.released, fun _ => rfl⟩
    · exact fun _ => ⟨lit.1, m, lit.2.1, .inl ⟨lit.2.2.1, lit.2.1.2.1⟩⟩

theorem recreating_local (kept : x.Kept own) (lit : x.Lit own m) (prev : x.prev = some m) :
    Local own (if !o.recreatable then x.goto (.preparing none)
      else if x.running && !o.ok then x.done
      else { x.stop with deployed := false }.goto .reUpping) := by
  split
  · exact kept.goto ⟨lit.1, lit.idle⟩
  · split
    · exact kept.done lit.idle
    · obtain ⟨docker, ⟨container, records⟩, rest⟩ := lit
      have stopped := kept.stop
      apply Kept.goto
      · exact ⟨stopped.up, stopped.released, stopped.row⟩
      · refine ⟨m, ⟨docker, ⟨?_, records⟩, rest⟩, prev⟩
        exact container.stop

theorem downing_local (kept : x.Kept own) (fact : Pc.Fact own x (some (.downing d))) :
    Local own ((x.down o.ok).upsert.fails d.attempt) := by
  apply (kept.down o.ok).upsert.fails
  intro deployed
  have before : x.deployed = true := by
    cases ok : o.ok <;> rw [ok] at deployed <;> exact deployed
  obtain ⟨docker, m, agrees, state⟩ := fact before
  cases o.ok with
  | true =>
    refine ⟨docker, m, ⟨agrees.1.down true, agrees.2⟩, ?_⟩
    exact state.imp (fun owned => ⟨owned, agrees.2.1⟩) (fun released => ⟨released.1, rfl⟩)
  | false => exact ⟨docker, m, agrees, state.imp (fun owned => ⟨owned, agrees.2.1⟩) id⟩

theorem lightUpping_local (kept : x.Kept own) (lit : x.Lit own m) :
    Local own (if o.ok then x.up.goto (.lightObserving true) else (x.upFails o.left).done) := by
  split
  · exact (kept.composed lit.2.1.2.2 lit.2.2.1).goto ⟨m, lit.composed⟩
  · exact (kept.upFails o.left).done (lit.upFails o.left).idle

theorem reUpping_local (kept : x.Kept own) (lit : x.Lit own m) (prev : x.prev = some m) :
    Local own (if o.ok then x.up.goto .reVerifying else (x.upFails o.left).goto .reDowning) := by
  split
  · exact (kept.composed lit.2.1.2.2 lit.2.2.1).goto ⟨m, lit.composed, prev⟩
  · apply (kept.upFails o.left).goto
    refine ⟨m, lit.upFails o.left, ?_⟩
    cases o.left <;> exact prev

theorem reVerifying_local (kept : x.Kept own) (lit : x.Lit own m) (prev : x.prev = some m) :
    Local own (if o.ok then { x with deployed := o.healthy }.done else x.goto .reDowning) := by
  split
  · apply Kept.done
    · exact ⟨kept.up, kept.released, kept.row⟩
    · exact fun _ => ⟨lit.1, m, lit.2.1, .inl lit.2.2⟩
  · exact kept.goto ⟨m, lit, prev⟩

theorem enabling_local {fresh : Bool} {attempt : Option Snapshot} (kept : x.Kept own) (undeployed : x.deployed = false)
    (owned : own m) :
    Local own (if o.ok then { x with site := some m }.goto (.enabled m attempt)
      else { x with site := if o.left then x.site else none }.goto (.disabling m fresh attempt)) := by
  split
  · apply Kept.goto
    · refine kept.of_up ?_ rfl rfl rfl
      rintro p (container | site)
      · exact .inl (.inl container)
      · obtain rfl := Option.some.inj site
        exact .inr owned
    · exact ⟨undeployed, owned⟩
  · apply Kept.goto
    · refine kept.of_up ?_ rfl rfl rfl
      rintro p (container | site)
      · exact .inl (.inl container)
      · exact .inl (.inr (Option.ite_none_right_eq_some.mp site).2)
    · exact ⟨undeployed, owned⟩

theorem removing_local (kept : x.Kept own) (idle : x.Idle own) :
    Local own ({ x.down o.ok with site := if o.ok then none else x.site }.goto .deleting) := by
  have down := kept.down o.ok
  have idle' := idle.down o.ok
  apply Kept.goto
  · refine down.of_up ?_ rfl rfl rfl
    rintro p (container | site)
    · exact .inl (.inl container)
    · obtain ⟨failed, site⟩ := Option.ite_none_left_eq_some.mp site
      rw [Bool.not_eq_true] at failed
      rw [failed]
      exact .inl (.inr site)
  · exact idle'

/-- The manifest of a deployed instance names a port that is owned, unless it was released. -/
theorem converge_local {pc : Pc} (kept : x.Kept own) (idle : x.Idle own)
    (allocated : ∀ m, x.manifestPort = some m → x.released m = false) (begun : converge x pc = some y) :
    ∃ m z, Lit own z m ∧ z.prev = some m ∧ z.Kept own ∧ y = z.goto pc := by
  obtain ⟨⟨-, deployed, -⟩, ⟨⟩⟩ := Option.ite_none_right_eq_some.mp begun
  obtain ⟨docker, m, agrees, state⟩ := idle deployed
  obtain ⟨owned, row⟩ : own m ∧ x.rowPort = some m := by
    rcases state with state | ⟨released, -⟩
    · exact state
    · cases released.symm.trans (allocated m agrees.2.1)
  refine ⟨m, { x with prev := x.compose, compose := x.manifestPort }, ?_, agrees.2.2, ?_, rfl⟩
  · exact ⟨docker, ⟨agrees.1, agrees.2.1, agrees.2.1⟩, owned, row⟩
  · exact ⟨kept.up, kept.released, kept.row⟩

/-- Only a light start and a recreate meet the guard of a call. -/
theorem begin_local {operation : Operation} [DecidablePred own] (kept : x.Kept own) (idle : x.Idle own)
    (between : x.pc = none)
    (ok : operation = .startContainer ∨ operation = .recreateContainerRuntime →
      ∀ m, x.manifestPort = some m → x.released m = false)
    (begun : begin (own ·) x operation = some y) : Local own y := by
  cases operation with
  | importZip runtime =>
    obtain ⟨-, ⟨⟩⟩ := Option.ite_none_left_eq_some.mp begun
    refine ⟨⟨kept.up, kept.released, fun row => by cases row⟩, ?_⟩
    simp only [between]
    exact idle_of_undeployed rfl
  | hostInstance attempt =>
    simp only [begin] at begun
    split at begun
    · rename_i docker
      cases begun
      exact kept.goto ⟨docker, idle⟩
    · rename_i static
      cases begun
      apply kept.goto
      apply Bool.eq_false_iff.mpr
      intro deployed
      cases static.symm.trans (idle deployed).1
  | startContainer =>
    obtain ⟨m, y', lit, -, kept', rfl⟩ := converge_local kept idle (ok (.inl rfl)) begun
    exact kept'.goto ⟨m, lit⟩
  | recreateContainerRuntime =>
    obtain ⟨m, y', lit, prev, kept', rfl⟩ := converge_local kept idle (ok (.inr rfl)) begun
    exact kept'.goto ⟨m, lit, prev⟩
  | stopInstance ok =>
    simp only [begin] at begun
    split at begun
    · obtain ⟨-, ⟨⟩⟩ := Option.ite_none_right_eq_some.mp begun
      refine ⟨kept.stop.upsert, ?_⟩
      have pc : x.stop.upsert.pc = none := between
      rw [pc]
      exact idle.stop.upsert
    · obtain ⟨-, ⟨⟩⟩ := Option.ite_none_right_eq_some.mp begun
      refine ⟨⟨?_, kept.released, fun _ => rfl⟩, ?_⟩
      · rintro p (container | site)
        · exact kept.up p (.inl container)
        · cases site
      · have pc : Inst.pc (upsert { x with site := none }) = none := between
        rw [pc]
        exact idle.upsert
  | removeInstance =>
    cases begun
    exact kept.goto idle

end Inst

namespace Inv

variable {s t : State} {i : InstanceId} {o : Observed} {f : Inst → Inst} {d : Deploy}

/-- A step that may release all ports of its instance. -/
theorem releaseFresh (h : Inv s) {released : Bool} (down : released = true → ∀ p, ¬ (s.inst i).Up p)
    (keeps : Local (fun q => s.ports q = some i) (f (s.inst i)))
    (drops : (∀ p, ¬ (s.inst i).Up p) → Local (fun _ => False)
      (f { s.inst i with released := fun q => (s.inst i).released q || s.ports q = some i })) :
    Inv ((s.releaseFresh i released).edit i f) := by
  cases released with
  | true => exact h.release (drops (down rfl))
  | false => exact h.edit keeps

/-- A deployment whose new port was released while its container was down. -/
theorem placed_released {x : Inst} {own : Port → Prop} [DecidablePred own] (placed : x.Placed own d)
    (down : ∀ p, ¬ x.Up p) :
    let y := { x with released := fun q => x.released q || decide (own q) }
    y.deployed = true → y.runtime = .dockerCompose ∧ y.Agrees d.port ∧ y.released d.port = true ∧ y.running = false :=
      by
  intro y deployed
  obtain ⟨docker, owned, container, compose, manifest, -⟩ := placed
  have stopped : x.running = false := running_of_up down
  exact ⟨docker, ⟨container, manifest deployed, compose⟩, by simp [y, owned], stopped⟩

theorem releasing_inv (h : Inv s) (at_i : (s.inst i).pc = some (.releasing d))
    (down : (d.fresh && o.ok) = true → ∀ p, ¬ (s.inst i).Up p) :
    Inv ((s.releaseFresh i (d.fresh && o.ok)).edit i (·.upsert.fails d.attempt)) := by
  obtain ⟨kept, fact⟩ := h i
  rw [at_i] at fact
  have placed : (s.inst i).Placed (fun q => s.ports q = some i) d := fact
  apply h.releaseFresh down
  · exact kept.upsert.fails placed.idle_upsert
  · intro down
    apply (kept.dropped down _).upsert.fails
    intro deployed
    obtain ⟨docker, agrees, released, stopped⟩ := placed_released placed down deployed
    exact ⟨docker, d.port, agrees, .inr ⟨released, stopped⟩⟩

theorem failing_inv {upCompleted : Bool} (h : Inv s) (at_i : (s.inst i).pc = some (.failing d upCompleted))
    (down : (d.fresh && o.ok) = true → ∀ p, ¬ (s.inst i).Up p) :
    Inv ((s.releaseFresh i (d.fresh && o.ok)).edit i (fun x =>
      if upCompleted then x.goto (.downing d) else x.upsert.fails d.attempt)) := by
  obtain ⟨kept, fact⟩ := h i
  rw [at_i] at fact
  cases upCompleted with
  | true =>
    have placed : (s.inst i).Placed (fun q => s.ports q = some i) d := fact
    apply h.releaseFresh down
    · apply kept.goto
      intro deployed
      obtain ⟨docker, owned, container, compose, manifest, -⟩ := placed
      exact ⟨docker, d.port, ⟨container, manifest deployed, compose⟩, .inl owned⟩
    · intro down
      apply (kept.dropped down _).goto
      intro deployed
      obtain ⟨docker, agrees, rest⟩ := placed_released placed down deployed
      exact ⟨docker, d.port, agrees, .inr rest⟩
  | false =>
    apply h.releaseFresh down
    · exact kept.upsert.fails (idle_of_undeployed fact)
    · exact fun down => (kept.dropped down _).upsert.fails (idle_of_undeployed fact)

/-- A cancelled build gives its new port back; its container is down or, build-first, the previous one. -/
theorem cancel_inv {ok : Bool} (h : Inv s) (at_i : (s.inst i).pc = some (.building d))
    (down : (d.fresh && ok) = true → ∀ p, ¬ (s.inst i).Up p) :
    Inv ((s.releaseFresh i (d.fresh && ok)).edit i (fun x =>
      { x with compose := if d.txn then x.prev else x.compose }.done)) := by
  obtain ⟨kept, fact⟩ := h i
  rw [at_i] at fact
  simp only [Pc.Fact] at fact
  split at fact
  · rename_i first
    obtain ⟨lit, prev, old⟩ := fact
    simp only [old, if_pos first]
    apply h.edit
    have idle := (lit.back prev).idle
    apply Kept.done
    · exact ⟨kept.up, kept.released, kept.row⟩
    · exact idle
  · rename_i first
    simp only [if_neg first]
    apply h.releaseFresh down
    · exact kept.done (idle_of_undeployed fact.1.2.1)
    · exact fun down => (kept.dropped down _).done (idle_of_undeployed fact.1.2.1)

theorem dropping_inv {c : Caller} (h : Inv s) (at_i : (s.inst i).pc = some (.dropping c))
    (down : ∀ p, ¬ (s.inst i).Up p) : Inv ((s.releaseInstance i).edit i (·.goto (.allocating c))) := by
  obtain ⟨kept, fact⟩ := h i
  rw [at_i] at fact
  exact h.release ((kept.dropped down _).goto (asks (dropping_iff.mp fact) _ _))

theorem deleting_inv (h : Inv s) (at_i : (s.inst i).pc = some .deleting) (down : ∀ p, ¬ (s.inst i).Up p) :
    Inv ((s.releaseInstance i).edit i (fun x => { x with registered := false, rowPort := none }.goto .purging)) := by
  obtain ⟨kept, idle⟩ := h i
  rw [at_i] at idle
  have dropped := kept.dropped down (fun q => (s.inst i).released q || s.ports q = some i)
  apply h.release
  apply Kept.goto
  · exact ⟨dropped.up, dropped.released, fun row => by cases row⟩
  · intro deployed
    obtain ⟨docker, m, agrees, state⟩ := idle deployed
    have stopped : (s.inst i).running = false := running_of_up down
    refine ⟨docker, m, agrees, .inr ⟨?_, stopped⟩⟩
    rcases state with ⟨owned, -⟩ | ⟨released, -⟩
    · simp [owned]
    · simp [released]

/-- `release_port` in a rollback, which asks for the owner first. -/
theorem rollingPorts_inv {p : Port} {snapshot : Snapshot} (h : Inv s)
    (at_i : (s.inst i).pc = some (.rollingPorts snapshot)) (owner : s.ports p = some i)
    (down : ¬ (s.inst i).Up p) : Inv (s.releasePort i p) := by
  have same : s.releasePort i p = (s.releasePort i p).edit i id := by
    simp [State.edit, State.put]
  rw [same]
  apply h.releasePort owner
  refine ⟨(h i).1.droppedPort down, ?_⟩
  simp only [id, at_i]
  trivial

theorem disabling_inv {p : Port} {fresh : Bool} {attempt : Option Snapshot} (h : Inv s)
    (at_i : (s.inst i).pc = some (.disabling p fresh attempt)) (down : fresh = true → ¬ (s.inst i).Up p) :
    Inv ((if fresh then s.releasePort i p else s).edit i (·.fails attempt)) := by
  obtain ⟨kept, fact⟩ := h i
  rw [at_i] at fact
  obtain ⟨undeployed, owner⟩ := fact
  cases fresh with
  | true => exact h.releasePort owner ((kept.droppedPort (down rfl)).fails (idle_of_undeployed undeployed))
  | false => exact h.edit (kept.fails (idle_of_undeployed undeployed))

theorem initial : Inv .initial := by
  intro i
  refine ⟨⟨?_, ?_, ?_⟩, ?_⟩
  · rintro p (container | site)
    · cases container
    · cases site
  · intro p released
    cases released
  · intro row
    cases row
  · exact idle_of_undeployed rfl

theorem advance_inv {pc : Pc} (h : Inv s) (at_i : (s.inst i).pc = some pc)
    (drops : pc.drops o = true → ∀ p, ¬ (s.inst i).Up p) (dropsPort : ∀ p, pc.dropsPort o = some p → ¬ (s.inst i).Up p)
    (advanced : advance s i o pc = some t) : Inv t := by
  obtain ⟨kept, fact⟩ := h i
  rw [at_i] at fact
  cases pc with
  | preparing attempt =>
    cases advanced
    exact h.edit (prepare_local kept fact.1 fact.2)
  | ensuring c =>
    cases advanced
    exact h.ensurePort_inv at_i
  | dropping c =>
    cases advanced
    exact h.dropping_inv at_i (drops rfl)
  | allocating c =>
    obtain ⟨may, ⟨⟩⟩ := Option.ite_none_right_eq_some.mp advanced
    exact h.takes may (asks fact)
  | rendering d =>
    cases advanced
    exact h.edit (rendering_local kept fact)
  | building d =>
    cases advanced
    exact h.edit (building_local kept fact)
  | swapping d =>
    cases advanced
    exact h.edit (swapping_local kept fact)
  | upping d =>
    cases advanced
    exact h.edit (upping_local kept fact)
  | observing d =>
    cases advanced
    exact h.edit (observing_local kept fact)
  | committing d =>
    cases advanced
    exact h.edit (kept.upsert.goto ⟨fact.1, fact.2⟩)
  | verifying d =>
    cases advanced
    exact h.edit (verifying_local kept fact)
  | stopping d =>
    cases advanced
    have placed : (s.inst i).Placed (fun q => s.ports q = some i) d := fact
    exact h.edit ((kept.down _).goto (placed.down _))
  | releasing d =>
    cases advanced
    exact h.releasing_inv at_i drops
  | failing d upCompleted =>
    cases advanced
    exact h.failing_inv at_i drops
  | downing d =>
    cases advanced
    exact h.edit (downing_local kept fact)
  | compensating d =>
    cases advanced
    exact h.edit ((kept.down _).goto ⟨fact.1, fact.2.down _⟩)
  | reviving d =>
    cases advanced
    exact h.edit (revive_local kept fact.1 fact.2)
  | rolling snapshot =>
    cases advanced
    exact h.edit ((kept.down _).goto trivial)
  | rollingPorts snapshot =>
    simp only [advance] at advanced
    split at advanced
    · cases advanced
      exact h.edit (kept.goto trivial)
    · rename_i more
      obtain ⟨⟨owner, -⟩, ⟨⟩⟩ := Option.ite_none_right_eq_some.mp advanced
      exact h.rollingPorts_inv at_i owner (dropsPort o.port (by simp [Pc.dropsPort, more]))
  | restoring snapshot =>
    cases advanced
    apply h.edit
    apply Kept.done
    · exact ⟨kept.up, kept.released, kept.row⟩
    · exact idle_of_undeployed rfl
  | lightStarting =>
    cases advanced
    obtain ⟨m, lit⟩ := fact
    exact h.edit (lightStart_local kept lit)
  | lightUpping =>
    cases advanced
    obtain ⟨-, m, lit⟩ := fact
    exact h.edit (lightUpping_local kept lit)
  | lightObserving up =>
    cases advanced
    obtain ⟨m, lit⟩ := fact
    exact h.edit (lightObserving_local kept lit)
  | recreating =>
    cases advanced
    obtain ⟨m, lit, prev⟩ := fact
    exact h.edit (recreating_local kept lit prev)
  | reUpping =>
    cases advanced
    obtain ⟨m, lit, prev⟩ := fact
    exact h.edit (reUpping_local kept lit prev)
  | reVerifying =>
    cases advanced
    obtain ⟨m, lit, prev⟩ := fact
    exact h.edit (reVerifying_local kept lit prev)
  | reDowning =>
    cases advanced
    obtain ⟨m, lit, prev⟩ := fact
    apply h.edit
    apply (kept.down o.ok).goto
    refine ⟨m, lit.down o.ok, ?_⟩
    cases o.ok <;> exact prev
  | reReviving =>
    cases advanced
    obtain ⟨m, lit, prev⟩ := fact
    exact h.edit (reRevive_local kept lit prev)
  | enabling port fresh attempt =>
    cases advanced
    exact h.edit (enabling_local kept fact.1 fact.2)
  | enabled port attempt =>
    cases advanced
    apply h.edit
    apply Kept.done
    · exact ⟨kept.up, kept.released, fun _ => rfl⟩
    · exact idle_of_undeployed fact.1
  | disabling port fresh attempt =>
    cases advanced
    apply h.disabling_inv at_i
    rintro rfl
    exact dropsPort port rfl
  | removing =>
    cases advanced
    exact h.edit (removing_local kept fact)
  | deleting =>
    cases advanced
    exact h.deleting_inv at_i (drops rfl)
  | purging =>
    cases advanced
    apply h.edit
    split
    · apply Kept.done
      · exact ⟨kept.up, kept.released, kept.row⟩
      · exact idle_of_undeployed rfl
    · exact kept.done fact

theorem step_inv (h : Inv s) {a : Action} (ok : Guard s a) (taken : step s a = some t) : Inv t := by
  cases a with
  | called i operation =>
    obtain ⟨idle, moved⟩ := Option.ite_none_right_eq_some.mp taken
    obtain ⟨y, begun, rfl⟩ := Option.map_eq_some_iff.mp moved
    have between : (s.inst i).pc = none := Option.isNone_iff_eq_none.mp idle
    obtain ⟨kept, fact⟩ := h i
    rw [between] at fact
    apply h.edit (f := fun _ => y)
    refine begin_local kept fact between ?_ begun
    rintro (rfl | rfl)
    · exact ok
    · exact ok
  | proceeds i o =>
    obtain ⟨pc, at_i, advanced⟩ := Option.bind_eq_some_iff.mp taken
    obtain ⟨drops, dropsPort⟩ := ok pc at_i
    exact h.advance_inv at_i drops dropsPort advanced
  | raises i =>
    obtain ⟨y, raised, rfl⟩ := Option.map_eq_some_iff.mp taken
    obtain ⟨pc, at_i, raised⟩ := Option.bind_eq_some_iff.mp raised
    obtain ⟨kept, fact⟩ := h i
    rw [at_i] at fact
    exact h.edit (f := fun _ => y) (raise_local kept fact raised)
  | cancels i released =>
    obtain ⟨pc, at_i, cancelled⟩ := Option.bind_eq_some_iff.mp taken
    cases pc with
    | building d =>
      cases cancelled
      apply h.cancel_inv at_i
      intro drops
      rw [Bool.and_eq_true] at drops
      exact ok d at_i drops.1 drops.2
    | _ => cases cancelled

end Inv

namespace State

/-- Who serves on a port owns it in the table. -/
def Owned (s : State) : Prop := ∀ i p, (s.inst i).Up p → s.ports p = some i

def Distinct (s : State) : Prop := ∀ i j p, (s.inst i).Up p → (s.inst j).Up p → i = j

/-- A port that was released and not allocated again is not in use. -/
def Unused (s : State) : Prop := ∀ i p, (s.inst i).released p = true → ¬ (s.inst i).Up p

end State

/-- In every run whose steps meet the guard the ports in use are owned by the instances that serve on them. -/
theorem serving_ports_owned {trace : List Action} {s : State} (run : Run step Guard .initial trace s) :
    s.Owned ∧ s.Distinct ∧ s.Unused := by
  have inv : Inv s := run.invariant (P := Inv) Inv.initial fun _ _ _ h guard taken => h.step_inv guard taken
  have owned : s.Owned := fun i p serves => (inv i).1.up p serves
  refine ⟨owned, ?_, ?_⟩
  · intro i j p first second
    exact Option.some.inj ((owned i p first).symm.trans (owned j p second))
  · intro i p released serves
    exact (inv i).1.released p released (owned i p serves)

/-- Every command and check succeeds, and the allocator finds the port. -/
def flawless (p : Port) : Observed := ⟨true, true, true, false, false, true, false, p⟩

/-- Instance `i` is imported and deployed on port `p` up to its last check. -/
def deployOn (i : InstanceId) (p : Port) : List Action :=
  [.called i (.importZip .dockerCompose), .called i (.hostInstance false), .proceeds i (flawless p),
    .proceeds i (flawless p), .proceeds i (flawless p), .proceeds i (flawless p), .proceeds i (flawless p),
    .proceeds i (flawless p), .proceeds i (flawless p), .proceeds i (flawless p), .proceeds i (flawless p)]

/-- Instance 0 is deployed, stopped and started again on its port. -/
theorem serving_ports_owned_restart : ∃ trace s, Run step Guard .initial trace s ∧
    (s.inst 0).Up 8100 ∧ s.Owned ∧ s.Distinct ∧ s.Unused := by
  have ran : ∃ trace s, Run step Guard .initial trace s ∧ (s.inst 0).Up 8100 := by
    refine ⟨deployOn 0 8100 ++ [.proceeds 0 (flawless 8100), .called 0 (.stopInstance true), .called 0 .startContainer,
        .proceeds 0 (flawless 8100), .proceeds 0 (flawless 8100)], _,
      .cons trivial rfl <| .cons trivial rfl <| .cons ?_ rfl <| .cons ?_ rfl <| .cons ?_ rfl <| .cons ?_ rfl <|
      .cons ?_ rfl <| .cons ?_ rfl <| .cons ?_ rfl <| .cons ?_ rfl <| .cons ?_ rfl <| .cons ?_ rfl <|
      .cons trivial rfl <| .cons ?_ rfl <| .cons ?_ rfl <| .cons ?_ rfl <| .refl _, .inl rfl⟩
    case refine_11 =>
      intro m manifest
      cases manifest
      rfl
    all_goals
      intro pc at_0
      cases at_0
      constructor
      · exact nofun
      · exact nofun
  obtain ⟨trace, s, run, serves⟩ := ran
  exact ⟨trace, s, run, serves, serving_ports_owned run⟩

/-- Without the guard: the last check of a first deployment fails, its port is released but stays in the manifest;
instance 1 takes the port and is stopped, and a light start of instance 0 serves on it again. -/
theorem unguarded_ports : ∃ trace s, Run step anyStep .initial trace s ∧ ¬ s.Owned ∧ ¬ s.Unused := by
  have ran : ∃ s, exec step .initial (deployOn 0 8100 ++
      [.proceeds 0 { flawless 8100 with ok := false }, .proceeds 0 (flawless 8100), .proceeds 0 (flawless 8100)] ++
      deployOn 1 8100 ++ [.proceeds 1 (flawless 8100), .called 1 (.stopInstance true), .called 0 .startContainer,
        .proceeds 0 (flawless 8100), .proceeds 0 (flawless 8100)]) =
        some s ∧ (s.inst 0).Up 8100 ∧ s.ports 8100 = some 1 ∧ (s.inst 0).released 8100 = true :=
    ⟨_, rfl, .inl rfl, rfl, rfl⟩
  obtain ⟨s, exec, serves, owner, released⟩ := ran
  refine ⟨_, s, .of_exec exec, ?_, fun unused => unused 0 8100 released serves⟩
  intro owned
  exact absurd ((owned 0 8100 serves).symm.trans owner) (by decide)

end LocalWebAccess.HostPorts
