import LocalWebAccess.GatewaySwitchSteps

/-!
# One switch after the other

Each call works alone from the state in which it got the lock, and ends with every
component switched or with every component as it was.
-/
namespace LocalWebAccess.GatewaySwitch
open GuardedRuns

/-- What holds of a call in the lock: its steps so far are those of a call that works alone. -/
structure Holds (before s : Shared) (j : Job) : Prop where
  planned : j.Planned before
  fact : j.Fact before s
  alone : ∃ trace, Run body anyStep (before, .start j.config j.plan) trace (s, j)

namespace Holds

variable {before s t : Shared} {j j' : Job} {o : Observed} {config : ConfigId} {plan : Plan}

theorem start (planned : before.planSwitch config plan.toBackend = some plan) (switches : plan.noop = false) :
    Holds before before (.start config plan) :=
  ⟨⟨planned, switches⟩, rfl, [], .refl _⟩

theorem step (h : Holds before s j) (meets : j.Meets s o) (taken : body (s, j) o = some (t, j')) :
    Holds before t j' := by
  obtain ⟨config, plan⟩ := Job.body_same taken
  obtain ⟨trace, run⟩ := h.alone
  refine ⟨?_, Job.body_fact h.planned h.fact meets taken, trace ++ [o], ?_⟩
  · rw [Job.Planned, config, plan]
    exact h.planned
  · rw [config, plan]
    exact run.snoc trivial taken

/-- The outcome that the end of a call records. -/
theorem outcome {ok degraded : Bool} (h : Holds before s j) (ended : j.pc = .finished ok degraded) :
    let o : Outcome := ⟨j.config, j.plan.toBackend, ok, degraded, false, before, s⟩
    o.Atomic ∧ o.Alone := by
  obtain ⟨trace, run⟩ := h.alone
  refine ⟨?_, j.plan, trace, j, h.planned.1, h.planned.2, run, ended⟩
  have fact := h.fact
  simp only [Job.Fact, ended] at fact
  refine ⟨fun done _ => fact.1 done, ?_⟩
  intro failed intact
  have same : s = before := fact.2 failed intact
  exact ⟨same, fun matching => same ▸ matching⟩

end Holds

theorem Serial.mono {call call' : CallId → Call} {a b : Shared} {order : List CallId} (h : Serial call a order b)
    (keeps : ∀ c o, call c = .ended o → call' c = .ended o) : Serial call' a order b := by
  induction h with
  | nil => exact .nil
  | cons later ended alone earlier ih => exact .cons later (keeps _ _ ended) alone ih

/-- Only calls that have ended are in the order. -/
theorem Serial.ended {call : CallId → Call} {a b : Shared} {order : List CallId} (h : Serial call a order b)
    {c : CallId} (mem : c ∈ order) : ∃ o, call c = .ended o := by
  induction h with
  | nil => cases mem
  | cons later ended alone earlier ih =>
    rcases List.mem_cons.mp mem with rfl | mem
    · exact ⟨_, ended⟩
    · exact ih mem

/-- The record of a call after one call has become another. -/
theorem State.become_cases {s : State} {c k : CallId} {next call : Call} (there : (s.become c next).call k = call) :
    k = c ∧ call = next ∨ k ≠ c ∧ s.call k = call := by
  by_cases same : k = c
  · subst same
    have self : (s.become k next).call k = next := by simp [State.become]
    exact .inl ⟨rfl, there.symm.trans self⟩
  · have other : (s.become c next).call k = s.call k := by simp [State.become, same]
    exact .inr ⟨same, other.symm.trans there⟩

structure Inv (start : Shared) (s : State) : Prop where
  atomic : ∀ c o, s.call c = .ended o → o.Atomic
  serial : s.Serialised start
  holder : ∀ c j b, s.call c = .locked j b → s.lock = some c
  holds : ∀ c j b, s.call c = .locked j b → Holds b s.shared j

namespace Inv

variable {start : Shared} {s t : State} {c : CallId}

theorem initial (start : Shared) : Inv start (.start start) where
  atomic c o ended := by cases ended
  serial := by
    refine ⟨[], start, .nil, fun _ => rfl, ?_, ?_⟩
    · intro c job before locked
      cases locked
    · intro c o ended
      cases ended
  holder c j b locked := by cases locked
  holds c j b locked := by cases locked

/-- The record of a call that has not ended plays no part in the order. -/
theorem serial_update {call : CallId → Call} {a b : Shared} {order : List CallId} (h : Serial call a order b)
    (open' : ∀ o, call c ≠ .ended o) (next : Call) : Serial (Function.update call c next) a order b := by
  apply h.mono
  intro k o ended
  have other : k ≠ c := by
    rintro rfl
    exact open' o ended
  rw [Function.update_of_ne other]
  exact ended

/-- A call that is not in the lock changes its own record alone. -/
theorem outside (h : Inv start s) {next : Call} (open' : ∀ o, s.call c ≠ .ended o)
    (waits : ∀ j b, next ≠ .locked j b)
    (nothing : ∀ o, next = .ended o → o.Atomic ∧ o.after = o.before) : Inv start (s.become c next) := by
  obtain ⟨order, base, serial, unlocked, held, rest⟩ := h.serial
  refine ⟨?_, ⟨order, base, serial_update serial open' next, unlocked, ?_, ?_⟩, ?_, ?_⟩
  · intro k o ended
    rcases State.become_cases ended with ⟨-, new⟩ | ⟨-, old⟩
    · exact (nothing o new.symm).1
    · exact h.atomic k o old
  · intro k j b locked
    rcases State.become_cases locked with ⟨-, new⟩ | ⟨-, old⟩
    · exact absurd new.symm (waits j b)
    · exact held k j b old
  · intro k o ended
    rcases State.become_cases ended with ⟨-, new⟩ | ⟨-, old⟩
    · exact .inr (nothing o new.symm).2
    · exact rest k o old
  · intro k j b locked
    rcases State.become_cases locked with ⟨-, new⟩ | ⟨-, old⟩
    · exact absurd new.symm (waits j b)
    · exact h.holder k j b old
  · intro k j b locked
    rcases State.become_cases locked with ⟨-, new⟩ | ⟨-, old⟩
    · exact absurd new.symm (waits j b)
    · exact h.holds k j b old

/-- A call that waits gets the free lock, and nothing has happened to the state since the last one ended. -/
theorem acquires (h : Inv start s) {config : ConfigId} {plan : Plan} (waits : s.call c = .waiting config plan)
    (unlocked : s.lock = none) (planned : s.shared.planSwitch config plan.toBackend = some plan)
    (switches : plan.noop = false) :
    Inv start ({ s with lock := some c }.become c (.locked (.start config plan) s.shared)) := by
  obtain ⟨order, base, serial, last, held, rest⟩ := h.serial
  have open' : ∀ o, s.call c ≠ .ended o := by
    intro o ended
    cases waits.symm.trans ended
  have alone : ∀ {k j b}, s.call k = .locked j b → False := by
    intro k j b locked
    cases unlocked.symm.trans (h.holder k j b locked)
  refine ⟨?_, ⟨order, base, serial_update serial open' _, ?_, ?_, ?_⟩, ?_, ?_⟩
  · intro k o ended
    rcases State.become_cases ended with ⟨-, new⟩ | ⟨-, old⟩
    · cases new
    · exact h.atomic k o old
  · intro free
    cases free
  · intro k j b locked
    rcases State.become_cases locked with ⟨-, new⟩ | ⟨-, old⟩
    · cases new
      exact last unlocked
    · exact (alone old).elim
  · intro k o ended
    rcases State.become_cases ended with ⟨-, new⟩ | ⟨-, old⟩
    · cases new
    · exact rest k o old
  · intro k j b locked
    rcases State.become_cases locked with ⟨rfl, -⟩ | ⟨-, old⟩
    · rfl
    · exact (alone old).elim
  · intro k j b locked
    rcases State.become_cases locked with ⟨-, new⟩ | ⟨-, old⟩
    · cases new
      exact .start planned switches
    · exact (alone old).elim

variable {before shared : Shared} {job job' : Job}

/-- The holder of the lock takes a step. -/
theorem works (h : Inv start s) (locked : s.call c = .locked job before) (holds : Holds before shared job') :
    Inv start ({ s with shared := shared }.become c (.locked job' before)) := by
  obtain ⟨order, base, serial, -, held, rest⟩ := h.serial
  have mine : s.lock = some c := h.holder c job before locked
  have open' : ∀ o, s.call c ≠ .ended o := by
    intro o ended
    cases locked.symm.trans ended
  have alone : ∀ {k j b}, k ≠ c → s.call k = .locked j b → False := by
    intro k j b other old
    exact other (Option.some.inj ((h.holder k j b old).symm.trans mine))
  refine ⟨?_, ⟨order, base, serial_update serial open' _, ?_, ?_, ?_⟩, ?_, ?_⟩
  · intro k o ended
    rcases State.become_cases ended with ⟨-, new⟩ | ⟨-, old⟩
    · cases new
    · exact h.atomic k o old
  · intro free
    cases mine.symm.trans free
  · intro k j b there
    rcases State.become_cases there with ⟨-, new⟩ | ⟨other, old⟩
    · cases new
      exact held c job before locked
    · exact (alone other old).elim
  · intro k o ended
    rcases State.become_cases ended with ⟨-, new⟩ | ⟨-, old⟩
    · cases new
    · exact rest k o old
  · intro k j b there
    rcases State.become_cases there with ⟨rfl, -⟩ | ⟨other, old⟩
    · exact mine
    · exact (alone other old).elim
  · intro k j b there
    rcases State.become_cases there with ⟨-, new⟩ | ⟨other, old⟩
    · cases new
      exact holds
    · exact (alone other old).elim

/-- The holder of the lock ends, and is the next in the order. -/
theorem ends (h : Inv start s) (locked : s.call c = .locked job before) {o : Outcome} (first : o.before = before)
    (last : o.after = shared) (atomic : o.Atomic) (works : o.Alone) :
    Inv start ({ s with shared := shared, lock := none }.become c (.ended o)) := by
  obtain ⟨order, base, serial, -, held, rest⟩ := h.serial
  have mine : s.lock = some c := h.holder c job before locked
  have open' : ∀ o, s.call c ≠ .ended o := by
    intro o ended
    cases locked.symm.trans ended
  have alone : ∀ {k j b}, k ≠ c → s.call k = .locked j b → False := by
    intro k j b other old
    exact other (Option.some.inj ((h.holder k j b old).symm.trans mine))
  have new : c ∉ order := by
    intro mem
    obtain ⟨o, ended⟩ := serial.ended mem
    exact open' o ended
  have earlier : Serial (Function.update s.call c (.ended o)) start order o.before := by
    rw [first, ← held c job before locked]
    exact serial_update serial open' _
  have unlocked : ∀ {k j b},
      (State.become { s with shared := shared, lock := none } c (.ended o)).call k = .locked j b → False := by
    intro k j b there
    rcases State.become_cases there with ⟨-, new⟩ | ⟨other, old⟩
    · cases new
    · exact alone other old
  refine ⟨?_, ⟨c :: order, o.after, .cons new (Function.update_self c _ _) works earlier, ?_, ?_, ?_⟩, ?_, ?_⟩
  · intro k o' ended
    rcases State.become_cases ended with ⟨-, new⟩ | ⟨-, old⟩
    · cases new
      exact atomic
    · exact h.atomic k o' old
  · exact fun _ => last
  · exact fun k j b there => (unlocked there).elim
  · intro k o' ended
    rcases State.become_cases ended with ⟨rfl, -⟩ | ⟨-, old⟩
    · exact .inl (.head _)
    · exact (rest k o' old).imp_left (.tail _)
  · exact fun k j b there => (unlocked there).elim
  · exact fun k j b there => (unlocked there).elim

theorem refuse (h : Inv start s) {config : ConfigId} {target : Backend} {ok noop : Bool}
    (open' : ∀ o, s.call c ≠ .ended o) (fine : ok = true → noop = true) :
    Inv start (s.refuse c config target ok noop) := by
  apply h.outside open'
  · intro j b locked
    cases locked
  · intro o ended
    cases ended
    refine ⟨⟨?_, fun _ _ => ⟨rfl, id⟩⟩, rfl⟩
    intro done switches
    cases (fine done).symm.trans switches

theorem step_inv (h : Inv start s) {a : Action} (ok : Guard s a) (taken : step s a = some t) : Inv start t := by
  cases a with
  | called c config target dryRun =>
    simp only [step] at taken
    split at taken
    · rename_i idle
      have open' : ∀ o, s.call c ≠ .ended o := by
        intro o ended
        cases idle.symm.trans ended
      split at taken
      · cases taken
        exact h.refuse open' nofun
      · split at taken
        · cases taken
          exact h.refuse open' fun _ => rfl
        · rw [if_neg (by simp [show dryRun = false from ok])] at taken
          cases taken
          apply h.outside open'
          · intro j b locked
            cases locked
          · intro o ended
            cases ended
    · cases taken
  | acquires c =>
    simp only [step] at taken
    split at taken
    · rename_i config plan waits unlocked
      cases taken
      obtain ⟨planned, switches⟩ := ok config plan waits
      exact h.acquires waits unlocked planned switches
    · cases taken
  | timesOut c =>
    simp only [step] at taken
    split at taken
    · rename_i config plan waits
      cases taken
      apply h.refuse
      · intro o ended
        cases waits.symm.trans ended
      · exact nofun
    · cases taken
  | proceeds c o =>
    simp only [step] at taken
    split at taken
    · rename_i job before locked
      split at taken
      · cases taken
      · rename_i shared job' worked
        have holds : Holds before shared job' := (h.holds c job before locked).step (ok job before locked) worked
        obtain ⟨config, plan⟩ := Job.body_same worked
        split at taken
        · rename_i done degraded place
          cases taken
          obtain ⟨atomic, alone⟩ := holds.outcome place
          rw [config, plan] at atomic alone
          exact h.ends locked rfl rfl atomic alone
        · cases taken
          exact h.works locked holds
    · cases taken

end Inv

/-- In every run whose steps meet the guard, from any state, every call switches everything or nothing unless it is
degraded, and the calls that had the lock have worked one after the other. -/
theorem gateway_switch_atomic {start : Shared} {trace : List Action} {s : State}
    (run : Run step Guard (.start start) trace s) :
    (∀ c o, s.call c = .ended o → o.Atomic) ∧ s.Serialised start := by
  have inv : Inv start s := run.invariant (P := Inv start) (.initial start) fun _ _ _ h guard taken =>
    h.step_inv guard taken
  exact ⟨inv.atomic, inv.serial⟩

/-- Site 3 runs behind Caddy. -/
def oneSite : Shared where
  config := fun _ => ⟨.caddy, 0⟩
  yml := some (.written ⟨.caddy, 0⟩)
  gatewayJson := some (.written ⟨true, some 7, 0, 0⟩)
  sites := fun _ => none
  aliases := fun _ => none
  instances := [3]
  runtime := fun _ => .sharedStatic
  running := fun _ => true
  manifests := fun i => if i = 3 then some (.written (some ⟨some ⟨.caddy, some 8100, none, 0⟩, 0⟩)) else none
  staticSites := fun i => if i = 3 then some ⟨.caddy, some 8100, none, 0⟩ else none
  caddy := some 7
  builtin := fun _ => false
  caddyInstalled := true

/-- No step raises, and the LAN address is not known. -/
def quietly : Observed := ⟨true, false, false, [], 1⟩

/-- Site 3 is switched to the builtin server. -/
theorem gateway_switch_atomic_builtin : ∃ trace s o, Run step Guard (.start oneSite) trace s ∧
    s.call 0 = .ended o ∧ o.ok = true ∧ o.after.Switched 0 .builtin ∧ s.Serialised oneSite := by
  have ran : ∃ trace s o, Run step Guard (.start oneSite) trace s ∧ s.call 0 = .ended o ∧
      o.config = 0 ∧ o.target = .builtin ∧ o.ok = true ∧ o.noop = false := by
    refine ⟨.called 0 0 .builtin false :: .acquires 0 :: List.replicate 12 (.proceeds 0 quietly), _, _,
      .cons rfl rfl <| .cons ?_ rfl <| .cons ?_ rfl <| .cons ?_ rfl <| .cons ?_ rfl <| .cons ?_ rfl <|
      .cons ?_ rfl <| .cons ?_ rfl <| .cons ?_ rfl <| .cons ?_ rfl <| .cons ?_ rfl <| .cons ?_ rfl <|
      .cons ?_ rfl <| .cons ?_ rfl <| .refl _, rfl, rfl, rfl, rfl, rfl⟩
    case refine_1 =>
      intro config plan waits
      cases waits
      exact ⟨rfl, rfl⟩
    case refine_13 =>
      intro job before locked
      cases locked
      intro i row stored
      by_cases same : i = 3
      · subst same
        exact ⟨List.mem_cons_self, _, rfl⟩
      · change Function.update (fun i => if i = 3 then _ else none) 3 _ i = some row at stored
        simp [same] at stored
    all_goals
      intro job before locked
      cases locked
    all_goals first
      | trivial
      | exact nofun
  obtain ⟨trace, s, o, run, ended, config, target, ok, switches⟩ := ran
  obtain ⟨atomic, serial⟩ := gateway_switch_atomic run
  refine ⟨trace, s, o, run, ended, ok, ?_, serial⟩
  rw [← config, ← target]
  exact (atomic 0 o ended).1 ok switches

/-- Without the guard: the new configuration cannot be loaded, as with TLS, which the builtin server does not have. The
rollback goes through, but the `Config` object of the caller keeps the target. -/
theorem unguarded_switch : ∃ trace s o, Run step anyStep (.start oneSite) trace s ∧ s.call 0 = .ended o ∧
    ¬ o.Atomic := by
  have ran : ∃ s o, exec step (.start oneSite)
      (.called 0 0 .builtin false :: .acquires 0 :: List.replicate 5 (.proceeds 0 quietly) ++
        .proceeds 0 { quietly with ok := false } :: List.replicate 10 (.proceeds 0 quietly)) = some s ∧
        s.call 0 = .ended o ∧ o.ok = false ∧ o.degraded = false ∧
        (o.before.config 0).staticGateway = .caddy ∧ (o.after.config 0).staticGateway = .builtin :=
    ⟨_, _, rfl, rfl, rfl, rfl, rfl, rfl⟩
  obtain ⟨s, o, exec, ended, failed, intact, before, after⟩ := ran
  refine ⟨_, s, o, .of_exec exec, ended, ?_⟩
  intro atomic
  rw [(atomic.2 failed intact).1, before] at after
  cases after

end LocalWebAccess.GatewaySwitch
