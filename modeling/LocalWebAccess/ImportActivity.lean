import LocalWebAccess.GuardedRuns

/-!
# Import activity

Imports run inside a lock on a file that a thread takes anew only at its outermost level. An update takes the
lock once to see that no import is under way, gives it back, and restarts the manager and the daemon.
-/
namespace LocalWebAccess.ImportActivity

open GuardedRuns

/-- The services that an update restarts. -/
inductive Service where
  | manager
  | daemon
  deriving DecidableEq

/-- Who has the file lock: a thread that imports, the probe of the update, or a descriptor that stayed open in a
process because the payload could not be written. -/
inductive Owner (τ π : Type*) where
  | thread (t : τ)
  | probe
  | leaked (p : π)
  deriving DecidableEq

/-- Where `_run_runtime_phase` is; `restarting` covers all stops and starts of one of `restart_manager` and
`restart_daemon`, by itself or through the supervisor. -/
inductive Phase where
  | waiting
  | probing
  | restarting (service : Service)
  | done
  deriving DecidableEq

/-- `late` holds of the threads that took the lock after the probe of the update. -/
structure State (τ π : Type*) where
  alive : π → Bool
  serving : Service → Option π
  gate : π → Option τ
  trying : τ → Bool
  depth : τ → ℕ
  lock : Option (Owner τ π)
  update : Phase
  late : τ → Bool

inductive Action (τ π : Type*) where
  | launch (p : π) (role : Option Service)
  | exit (p : π)
  | enter (t : τ)
  | acquire (t : τ)
  | fumble (t : τ)
  | giveUp (t : τ)
  | leave (t : τ)
  | probe
  | found
  | timeout
  | stop (service : Service)
  | advance

variable {τ π : Type*} [DecidableEq τ] [DecidableEq π] (home : τ → π)

/-- The update may still stop the service. -/
def Phase.stops : Phase → Service → Bool
  | .restarting .manager, _ => true
  | .restarting .daemon, service => service = .daemon
  | _, _ => false

def Phase.restarts : Phase → Bool
  | .restarting _ => true
  | _ => false

/-- The lock is lost with the process of its owner. -/
def Owner.process : Owner τ π → Option π
  | .thread t => some (home t)
  | .probe => none
  | .leaked p => some p

def State.initial : State τ π where
  alive _ := false
  serving _ := none
  gate _ := none
  trying _ := false
  depth _ := 0
  lock := none
  update := .waiting
  late _ := false

/-- A process begins, as a service where it has a role: by a restart of the update, by hand or by the supervisor. -/
def State.launched (s : State τ π) (p : π) (role : Option Service) : State τ π :=
  { s with
    alive := Function.update s.alive p true
    serving := fun service => if role = some service then some p else s.serving service }

def State.exited (s : State τ π) (p : π) : State τ π :=
  { s with
    alive := Function.update s.alive p false
    serving := fun service => if s.serving service = some p then none else s.serving service
    gate := Function.update s.gate p none
    trying := fun t => if home t = p then false else s.trying t
    depth := fun t => if home t = p then 0 else s.depth t
    lock := s.lock.filter fun owner => owner.process home ≠ some p }

/-- `import_activity_lock` up to the thread lock; a thread that is inside already goes one level deeper. -/
def State.entered (s : State τ π) (t : τ) : State τ π :=
  if s.depth t = 0 then
    { s with gate := Function.update s.gate (home t) (some t), trying := Function.update s.trying t true }
  else { s with depth := Function.update s.depth t (s.depth t + 1) }

def State.acquired (s : State τ π) (t : τ) : State τ π :=
  { s with
    trying := Function.update s.trying t false
    depth := Function.update s.depth t 1
    lock := some (.thread t)
    late := Function.update s.late t s.update.restarts }

/-- The loop of a thread ends with an error, and the thread lock is given back. -/
def State.failed (s : State τ π) (t : τ) : State τ π :=
  { s with gate := Function.update s.gate (home t) none, trying := Function.update s.trying t false }

/-- The `finally` of `import_activity_lock` -/
def State.left (s : State τ π) (t : τ) : State τ π :=
  if s.depth t = 1 then
    { s with
      gate := Function.update s.gate (home t) none
      depth := Function.update s.depth t 0
      lock := none }
  else { s with depth := Function.update s.depth t (s.depth t - 1) }

/-- One step of a process, of a thread that imports or of the update. A stop is the moment at which the signal is
sent; the process may exit at any time after it. -/
def step (s : State τ π) : Action τ π → Option (State τ π)
  | .launch p role =>
    if s.alive p = false ∧ role.bind s.serving = none then some (s.launched p role) else none
  | .exit p => if s.alive p then some (s.exited home p) else none
  | .enter t =>
    if s.alive (home t) ∧ s.trying t = false ∧ (s.gate (home t) = none ∨ s.gate (home t) = some t) then
      some (s.entered home t)
    else none
  | .acquire t => if s.trying t ∧ s.lock = none then some (s.acquired t) else none
  | .fumble t =>
    if s.trying t ∧ s.lock = none then some { s.failed home t with lock := some (.leaked (home t)) } else none
  | .giveUp t => if s.trying t then some (s.failed home t) else none
  | .leave t => if s.depth t ≠ 0 then some (s.left home t) else none
  | .probe =>
    if s.update = .waiting ∧ s.lock = none then some { s with update := .probing, lock := some .probe } else none
  | .found =>
    if s.update = .probing then some { s with update := .restarting .manager, lock := none } else none
  | .timeout => if s.update = .waiting then some { s with update := .done } else none
  | .stop service => if s.update = .restarting service then some s else none
  | .advance =>
    match s.update with
    | .restarting .manager => some { s with update := .restarting .daemon }
    | .restarting .daemon => some { s with update := .done }
    | _ => none

/-! ## The lock -/

/-- The threads inside the lock are the owner of the file lock, and belong to living processes. -/
structure Locked (s : State τ π) : Prop where
  held : ∀ t, s.depth t ≠ 0 ↔ s.lock = some (.thread t)
  living : ∀ t, s.depth t ≠ 0 ∨ s.trying t = true → s.alive (home t) = true
  probing : s.lock = some .probe ↔ s.update = .probing
  recent : s.update.restarts = true → ∀ t, s.depth t ≠ 0 → s.late t = true

variable {home} {s x : State τ π} {t : τ} {p : π}

omit [DecidableEq τ] [DecidableEq π] in
theorem Locked.initial : Locked home (.initial : State τ π) where
  held t := by simp [State.initial]
  living t inside := by simp [State.initial] at inside
  probing := by simp [State.initial]
  recent restarts := by simp [State.initial, Phase.restarts] at restarts

omit [DecidableEq τ] [DecidableEq π] in
theorem Locked.depth_of_free (locked : Locked home s) (free : s.lock = none) (t : τ) : s.depth t = 0 := by
  by_contra inside
  have held := (locked.held t).mp inside
  rw [free] at held
  exact nomatch held

omit [DecidableEq τ] [DecidableEq π] in
theorem Locked.depth_of_probe (locked : Locked home s) (probe : s.lock = some .probe) (t : τ) : s.depth t = 0 := by
  by_contra inside
  have held := (locked.held t).mp inside
  rw [probe] at held
  exact nomatch held

omit [DecidableEq τ] in
theorem Locked.exited (locked : Locked home s) (p : π) : Locked home (s.exited home p) where
  held t := by
    by_cases gone : home t = p
    · simp [State.exited, gone, Owner.process, Option.filter_eq_some_iff]
    · simp [State.exited, gone, Owner.process, Option.filter_eq_some_iff, locked.held t]
  living t inside := by
    by_cases gone : home t = p
    · simp [State.exited, gone] at inside
    · simp only [State.exited, gone, if_false] at inside ⊢
      rw [Function.update_of_ne gone]
      exact locked.living t inside
  probing := by simp [State.exited, Owner.process, Option.filter_eq_some_iff, locked.probing]
  recent restarts t inside := by
    by_cases gone : home t = p
    · simp [State.exited, gone] at inside
    · simp only [State.exited, gone, if_false] at inside
      exact locked.recent restarts t inside

theorem Locked.entered (locked : Locked home s) (alive : s.alive (home t) = true) : Locked home (s.entered home t) := by
  unfold State.entered
  split_ifs with outside
  · refine ⟨locked.held, fun other inside => ?_, locked.probing, locked.recent⟩
    by_cases same : other = t
    · exact same ▸ alive
    · exact locked.living other (by simpa [same] using inside)
  · have depth : ∀ other, Function.update s.depth t (s.depth t + 1) other ≠ 0 ↔ s.depth other ≠ 0 := by
      intro other
      by_cases same : other = t
      · simp [same, outside]
      · simp [same]
    constructor
    · exact fun other => (depth other).trans (locked.held other)
    · exact fun other inside => locked.living other (inside.imp_left (depth other).mp)
    · exact locked.probing
    · exact fun restarts other inside => locked.recent restarts other ((depth other).mp inside)

omit [DecidableEq π] in
theorem Locked.acquired (locked : Locked home s) (trying : s.trying t = true) (free : s.lock = none) :
    Locked home (s.acquired t) := by
  have outside := locked.depth_of_free free
  have idle : s.update ≠ .probing := fun probing => by
    rw [locked.probing.mpr probing] at free
    exact nomatch free
  constructor
  · intro other
    by_cases same : other = t
    · simp [State.acquired, same]
    · simp [State.acquired, same, outside, Ne.symm same]
  · intro other inside
    by_cases same : other = t
    · exact same ▸ locked.living t (.inr trying)
    · exact locked.living other (by simpa [State.acquired, same] using inside)
  · simp [State.acquired, idle]
  · intro restarts other inside
    by_cases same : other = t
    · simpa [State.acquired, same] using restarts
    · simp [State.acquired, same, outside] at inside

theorem Locked.failed (locked : Locked home s) (t : τ) : Locked home (s.failed home t) where
  held := locked.held
  living other inside := by
    refine locked.living other (inside.imp_right fun trying => ?_)
    by_cases same : other = t
    · simp [State.failed, same] at trying
    · simpa [State.failed, same] using trying
  probing := locked.probing
  recent := locked.recent

omit [DecidableEq τ] [DecidableEq π] in
/-- A descriptor that stays open keeps the lock from all threads. -/
theorem Locked.fumbled (locked : Locked home s) (free : s.lock = none) (p : π) :
    Locked home { s with lock := some (.leaked p) } where
  held t := by simp [locked.depth_of_free free]
  living := locked.living
  probing := by
    have idle : s.update ≠ .probing := fun probing => by
      rw [locked.probing.mpr probing] at free
      exact nomatch free
    simp [idle]
  recent := locked.recent

theorem Locked.left (locked : Locked home s) (inside : s.depth t ≠ 0) : Locked home (s.left home t) := by
  have held := (locked.held t).mp inside
  have other_depth : ∀ other, other ≠ t → s.depth other = 0 := by
    intro other apart
    by_contra within
    rw [(locked.held other).mp within] at held
    exact apart (by simpa using held)
  have idle : s.update ≠ .probing := fun probing => by
    rw [locked.probing.mpr probing] at held
    exact nomatch held
  unfold State.left
  split_ifs with last
  · have gone : ∀ other, Function.update s.depth t 0 other = 0 := by
      intro other
      by_cases same : other = t
      · simp [same]
      · simp [same, other_depth other same]
    refine ⟨fun other => by simp [gone], fun other within => ?_, by simp [idle], fun _ other within => ?_⟩
    · exact locked.living other (within.elim (absurd (gone other)) .inr)
    · exact absurd (gone other) within
  · have depth : ∀ other, Function.update s.depth t (s.depth t - 1) other ≠ 0 ↔ s.depth other ≠ 0 := by
      intro other
      by_cases same : other = t
      · subst same
        simp only [Function.update_self]
        omega
      · simp [same]
    constructor
    · exact fun other => (depth other).trans (locked.held other)
    · exact fun other within => locked.living other (within.imp_left (depth other).mp)
    · exact locked.probing
    · exact fun restarts other within => locked.recent restarts other ((depth other).mp within)

theorem Locked.step (locked : Locked home s) (a : Action τ π) (taken : step home s a = some x) : Locked home x := by
  cases a with dsimp only [ImportActivity.step] at taken
  | launch p role =>
    split_ifs at taken
    cases taken
    refine ⟨locked.held, fun t inside => ?_, locked.probing, locked.recent⟩
    have alive := locked.living t inside
    by_cases same : home t = p
    · simp [State.launched, same]
    · simpa [State.launched, same] using alive
  | exit p =>
    split_ifs at taken
    cases taken
    exact locked.exited p
  | enter t =>
    split_ifs at taken with able
    cases taken
    exact locked.entered able.1
  | acquire t =>
    split_ifs at taken with able
    cases taken
    exact locked.acquired able.1 able.2
  | fumble t =>
    split_ifs at taken with able
    cases taken
    exact (locked.failed t).fumbled able.2 (home t)
  | giveUp t =>
    split_ifs at taken
    cases taken
    exact locked.failed t
  | leave t =>
    split_ifs at taken with inside
    cases taken
    exact locked.left inside
  | probe =>
    split_ifs at taken with able
    cases taken
    refine ⟨fun t => by simp [locked.depth_of_free able.2], locked.living, by simp, nofun⟩
  | found =>
    split_ifs at taken with probing
    cases taken
    have outside := locked.depth_of_probe (locked.probing.mpr probing)
    exact ⟨fun t => by simp [outside], locked.living, by simp, fun _ t inside => absurd (outside t) inside⟩
  | timeout =>
    split_ifs at taken with waiting
    cases taken
    exact ⟨locked.held, locked.living, by simpa [waiting] using locked.probing, nofun⟩
  | stop service =>
    split_ifs at taken
    cases taken
    exact locked
  | advance =>
    split at taken
    · cases taken
      rename_i phase
      have restarts : s.update.restarts = true := by rw [phase]; rfl
      exact ⟨locked.held, locked.living, by simpa [phase] using locked.probing, fun _ => locked.recent restarts⟩
    · cases taken
      rename_i phase
      exact ⟨locked.held, locked.living, by simpa [phase] using locked.probing, nofun⟩
    · exact nomatch taken

omit [DecidableEq τ] [DecidableEq π] in
/-- No two threads are inside the lock. -/
theorem Locked.exclusive (locked : Locked home s) {u : τ} (first : s.depth t ≠ 0) (second : s.depth u ≠ 0) : t = u := by
  have held := (locked.held t).mp first
  rw [(locked.held u).mp second] at held
  simpa using held.symm

/-! ## The restarts -/

variable (home) in
/-- A thread of the process of a service is inside the lock. -/
def Imports (s : State τ π) (service : Service) : Prop := ∃ t, s.depth t ≠ 0 ∧ s.serving service = some (home t)

variable (home) in
/-- Threads of a service that the update may still stop do not take the lock. -/
def Quiet (s : State τ π) : Action τ π → Prop
  | .acquire t => ∀ service, s.update.stops service = true → s.serving service ≠ some (home t)
  | _ => True

variable (home) in
/-- No service that the update may still stop has a thread inside the lock. -/
def Undisturbed (s : State τ π) : Prop :=
  ∀ service, s.update.stops service = true → ∀ t, s.serving service = some (home t) → s.depth t = 0

theorem entered_outside {u : τ} (outside : s.depth t = 0) : (s.entered home u).depth t = 0 := by
  unfold State.entered
  split_ifs with first
  · exact outside
  · have apart : t ≠ u := by
      rintro rfl
      exact first outside
    simp only [Function.update_of_ne apart, outside]

theorem left_outside {u : τ} (outside : s.depth t = 0) : (s.left home u).depth t = 0 := by
  unfold State.left
  by_cases same : t = u
  · subst same
    split_ifs <;> simp [outside]
  · split_ifs <;> simp [outside, same]

theorem entered_frame {u : τ} : (s.entered home u).update = s.update ∧ (s.entered home u).serving = s.serving := by
  unfold State.entered
  split_ifs <;> exact ⟨rfl, rfl⟩

theorem left_frame {u : τ} : (s.left home u).update = s.update ∧ (s.left home u).serving = s.serving := by
  unfold State.left
  split_ifs <;> exact ⟨rfl, rfl⟩

theorem Undisturbed.step (undisturbed : Undisturbed home s) (locked : Locked home s) (a : Action τ π)
    (quiet : Quiet home s a) (taken : step home s a = some x) : Undisturbed home x := by
  intro service stops t serves
  cases a with dsimp only [ImportActivity.step] at taken
  | launch p role =>
    split_ifs at taken with able
    cases taken
    by_cases fresh : role = some service
    · simp only [State.launched, if_pos fresh, Option.some.injEq] at serves
      subst serves
      by_contra inside
      exact absurd (locked.living t (.inl inside)) (by simp [able.1])
    · simp only [State.launched, if_neg fresh] at serves
      exact undisturbed service stops t serves
  | exit p =>
    split_ifs at taken
    cases taken
    simp only [State.exited] at serves ⊢
    split_ifs at serves
    rw [undisturbed service stops t serves, ite_self]
  | enter u =>
    split_ifs at taken with able
    cases taken
    rw [entered_frame.1] at stops
    rw [entered_frame.2] at serves
    exact entered_outside (undisturbed service stops t serves)
  | acquire u =>
    split_ifs at taken with able
    cases taken
    have apart : t ≠ u := fun same => quiet service stops (same ▸ serves)
    simp only [State.acquired, Function.update_of_ne apart]
    exact undisturbed service stops t serves
  | fumble t =>
    split_ifs at taken with able
    cases taken
    exact undisturbed service stops _ serves
  | giveUp t =>
    split_ifs at taken
    cases taken
    exact undisturbed service stops _ serves
  | leave u =>
    split_ifs at taken with inside
    cases taken
    rw [left_frame.1] at stops
    rw [left_frame.2] at serves
    exact left_outside (undisturbed service stops t serves)
  | probe =>
    split_ifs at taken with able
    cases taken
    exact absurd stops nofun
  | found =>
    split_ifs at taken with probing
    cases taken
    exact locked.depth_of_probe (locked.probing.mpr probing) t
  | timeout =>
    split_ifs at taken with waiting
    cases taken
    exact absurd stops nofun
  | stop service =>
    split_ifs at taken
    cases taken
    exact undisturbed _ stops t serves
  | advance =>
    split at taken
    · cases taken
      rename_i phase
      exact undisturbed service (by rw [phase]; rfl) t serves
    · cases taken
      exact absurd stops nofun
    · exact nomatch taken

/-- No two threads are ever inside the lock. An import that a stop interrupts has taken the lock after the probe;
where the threads of the services stay outside while the update may stop them, a stop interrupts none. -/
theorem stop_imports_iff (home : τ → π) :
    (∀ actions s, exec (step home) .initial actions = some s →
        ∀ t u, s.depth t ≠ 0 → s.depth u ≠ 0 → t = u) ∧
      (∀ actions s, exec (step home) .initial actions = some s → ∀ service, (step home s (.stop service)).isSome →
        (Imports home s service ↔ ∃ t, s.depth t ≠ 0 ∧ s.late t = true ∧ s.serving service = some (home t))) ∧
      ∀ actions s, Run (step home) (Quiet home) .initial actions s →
        ∀ service, (step home s (.stop service)).isSome → ¬Imports home s service := by
  have locked : ∀ actions s, exec (step home) .initial actions = some s → Locked home s := fun actions s reached =>
    (Run.of_exec reached).invariant .initial fun _ a _ locked _ taken => locked.step a taken
  have stopping : ∀ (s : State τ π) service, (step home s (.stop service)).isSome → s.update = .restarting service := by
    intro s service able
    by_contra other
    simp [step, other] at able
  refine ⟨fun actions s reached t u => (locked actions s reached).exclusive, ?_, ?_⟩
  · intro actions s reached service able
    have restarts : s.update.restarts = true := by rw [stopping s service able]; rfl
    constructor
    · rintro ⟨t, inside, serves⟩
      exact ⟨t, inside, (locked actions s reached).recent restarts t inside, serves⟩
    · rintro ⟨t, inside, -, serves⟩
      exact ⟨t, inside, serves⟩
  · rintro actions s run service able ⟨t, inside, serves⟩
    have kept : Locked home s ∧ Undisturbed home s :=
      Run.invariant (P := fun s => Locked home s ∧ Undisturbed home s) run ⟨.initial, nofun⟩
        fun _ a _ both quiet taken => ⟨both.1.step a taken, both.2.step both.1 a quiet taken⟩
    have stops : s.update.stops service = true := by
      rw [stopping s service able]
      cases service <;> rfl
    exact inside (kept.2 service stops t serves)

/-- A stop after the probe, when the import of the manager has ended. -/
theorem stop_after_import : ∃ s : State ℕ ℕ,
    Run (step fun t => t) (Quiet fun t => t) .initial
      [.launch 0 (some .manager), .enter 0, .acquire 0, .leave 0, .probe, .found] s ∧
      (step (fun t => t) s (.stop .manager)).isSome ∧ ¬Imports (fun t => t) s .manager := by
  have run : ∃ s : State ℕ ℕ, Run (step fun t => t) (Quiet fun t => t) .initial
      [.launch 0 (some .manager), .enter 0, .acquire 0, .leave 0, .probe, .found] s ∧
        s.update = .restarting .manager :=
    ⟨_, .cons trivial rfl (.cons trivial rfl (.cons (fun _ stops => nomatch stops) rfl (.cons trivial rfl
      (.cons trivial rfl (.cons trivial rfl (.refl _)))))), rfl⟩
  obtain ⟨s, run, phase⟩ := run
  have able : (step (fun t => t) s (.stop .manager)).isSome := by simp [step, phase]
  exact ⟨s, run, able, (stop_imports_iff fun t => t).2.2 _ s run .manager able⟩

/-- The manager starts an import between the probe and its stop. -/
theorem stop_interrupts_import : ∃ s : State ℕ ℕ,
    exec (step fun t => t) .initial [.launch 0 (some .manager), .probe, .found, .enter 0, .acquire 0] = some s ∧
      (step (fun t => t) s (.stop .manager)).isSome ∧ Imports (fun t => t) s .manager :=
  ⟨_, rfl, rfl, 0, by decide, rfl⟩

end LocalWebAccess.ImportActivity
