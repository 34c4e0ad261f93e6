import LocalWebAccess.GatewayService

/-!
# The masters of a workspace

Starting a master is check, spawn and wait, under the start lock. A check finds a master by its
answer on the admin address, by `run/caddy.pid` or by `lsof`, and overlooks one that has not come
up yet. As long as no check overlooks a master there is at most one, and a stop that returned
`True` leaves none behind.
-/

namespace LocalWebAccess.GatewayService
open GuardedRuns

/-- At most one master is alive, and those that are were started after each stop that returned
`True` came to its verdict: the masters are numbered in the order of their start. -/
structure OneMaster (s : State) : Prop where
  one : s.masters.length ≤ 1
  stopped : ∀ c call n, s.calls c = some call → call.pc = .returned true n → ∀ m ∈ s.masters, n ≤ m.pid

/-- A check of a start or of a stop finds no master of the workspace. -/
def FindsNone (s : State) (answer : Answer) : Pc → Prop
  | .probeRunning | .ensureRecheck _ | .offAdmin | .stopProbe _ | .stopWait _ => s.adminAlive = false
  | .probeOwner => s.ownerOk answer = false
  | .stopAdopt _ => s.adoptable answer = none
  | _ => False

/-- A check does not see a master: the master does not answer yet, `run/caddy.pid` does not name it or
its user is not known, or `lsof` does not find it for the adoption. -/
def Overlooks (s : State) (answer : Answer) (pc : Pc) (m : Master) : Prop :=
  match pc with
  | .probeOwner => s.pidFile ≠ some m.pid ∨ answer = .no
  | .stopAdopt _ => m.listening = false ∨ s.pidAlive = true ∨ answer ≠ .names m.pid
  | _ => m.listening = false

/-- No check that finds no master overlooks one. -/
def SeesMasters (s : State) : Action → Prop
  | .advance c answer => ∀ call, s.calls c = some call → FindsNone s answer call.pc →
      ∀ m ∈ s.masters, ¬ Overlooks s answer call.pc m
  | _ => True

variable {s s' t : State} {c : CallId} {call call' : Call} {answer : Answer} {m : Master}

theorem alive_of_mem (mem : m ∈ s.masters) : s.alive m.pid = true := by
  have among : (s.masters.any fun n => n.pid = m.pid) = true := List.any_eq_true.mpr ⟨m, mem, by simp⟩
  rw [State.alive, among, Bool.or_true]

theorem adminAlive_of_mem (mem : m ∈ s.masters) (listens : m.listening = true) : s.adminAlive = true := by
  have among : (s.masters.any fun n => n.listening) = true := List.any_eq_true.mpr ⟨m, mem, listens⟩
  rw [State.adminAlive, among, Bool.or_true]

theorem pidAlive_of_mem (mem : m ∈ s.masters) (named : s.pidFile = some m.pid) : s.pidAlive = true := by
  rw [State.pidAlive, named]
  exact alive_of_mem mem

/-- A check that finds no master and overlooks none is right. -/
theorem masters_eq_nil {pc : Pc} (finds : FindsNone s answer pc)
    (sees : ∀ m ∈ s.masters, ¬ Overlooks s answer pc m) : s.masters = [] := by
  apply List.eq_nil_iff_forall_not_mem.mpr
  intro m mem
  have silent (seen : ¬ m.listening = false) (finds : s.adminAlive = false) : False := by
    rw [adminAlive_of_mem mem (by simpa using seen)] at finds
    cases finds
  cases pc
  case probeRunning => exact silent (sees m mem) finds
  case ensureRecheck e => exact silent (sees m mem) finds
  case offAdmin => exact silent (sees m mem) finds
  case stopProbe f => exact silent (sees m mem) finds
  case stopWait f => exact silent (sees m mem) finds
  case probeOwner =>
    obtain ⟨named, known⟩ := not_or.mp (sees m mem)
    have owned : s.ownerOk answer = true := by
      rw [State.ownerOk, pidAlive_of_mem mem (not_not.mp named)]
      simpa using known
    cases owned.symm.trans finds
  case stopAdopt f =>
    obtain ⟨listens, rest⟩ := not_or.mp (sees m mem)
    obtain ⟨dead, names⟩ := not_or.mp rest
    obtain rfl := not_not.mp names
    have adopts : s.adoptable (.names m.pid) = some m.pid := by
      rw [State.adoptable, adminAlive_of_mem mem (by simpa using listens), alive_of_mem mem, Bool.eq_false_iff.mpr dead]
      rfl
    cases adopts.symm.trans finds
  all_goals exact finds

/-! ## The invariant -/

/-- The places inside `with gateway_start_lock`. -/
def Pc.locked : Pc → Bool
  | .stopProbe f | .stopOwn f | .stopAdopt f | .stopPost f | .stopWait f | .stopped f _ => f = .internal
  | .probeAdmin | .probeOwn | .adopt | .failRead | .failWrite _ | .probeRunning | .probeOwner | .runRead
  | .runWrite _ _ | .verifyRunning _ | .tlsRead _ _ | .tlsWrite _ | .coldRead | .coldWrite _ | .coldFail _
  | .upReload | .upWrite | .verifyUp _ | .upFail _ | .spawn _ | .await _ | .ensureRecheck _
  | .ensureRecheckOwner _ => true
  | .reloadProbe r | .reloadOwner r | .reload r | .reloadAgain r => r.nested
  | .ensureProbe e | .ensureOwner e | .ensureAcquire e | .ensureBusy e => e.nested
  | _ => false

/-- The places between a check that found no master and `caddy start`. -/
def Pc.starting : Pc → Bool
  | .coldRead | .coldWrite _ | .spawn _ => true
  | _ => false

/-- The verdict that a stop goes on with or has returned. -/
def Pc.verdict? : Pc → Option ℕ
  | .stopped _ n | .stopRead n | .stopWrite n _ | .returned true n => some n
  | _ => none

theorem locked_of_starting {pc : Pc} (starting : pc.starting = true) : pc.locked = true := by
  cases pc
  case coldRead => rfl
  case coldWrite state => rfl
  case spawn f => rfl
  all_goals cases starting

structure MastersInv (s : State) : Prop where
  one : s.masters.length ≤ 1
  below : ∀ m ∈ s.masters, m.pid < s.spawned
  holds : ∀ c call, s.calls c = some call → call.pc.locked = true → s.lock = some c
  clear : ∀ c call, s.calls c = some call → call.pc.starting = true → s.masters = []
  verdict : ∀ c call n, s.calls c = some call → call.pc.verdict? = some n →
    n ≤ s.spawned ∧ ∀ m ∈ s.masters, n ≤ m.pid

/-- What the place that a call comes to needs of the masters. -/
structure Stands (s : State) (pc : Pc) : Prop where
  clear : pc.starting = true → s.masters = []
  verdict : ∀ n, pc.verdict? = some n → n ≤ s.spawned ∧ ∀ m ∈ s.masters, n ≤ m.pid

theorem Stands.of_plain {pc : Pc} (starting : pc.starting = false) (verdict : pc.verdict? = none) : Stands s pc :=
  ⟨fun starts => (by cases starting.symm.trans starts), fun n is => (by cases verdict.symm.trans is)⟩

theorem MastersInv.stands (h : MastersInv s) (mine : s.calls c = some call) : Stands s call.pc :=
  ⟨h.clear c call mine, fun n is => h.verdict c call n mine is⟩

/-- What a step that neither starts nor ends a master leaves as it is. -/
structure SameMasters (s s' : State) : Prop where
  masters : s'.masters = s.masters
  spawned : s'.spawned = s.spawned
  calls : s'.calls = s.calls

theorem SameMasters.refl (s : State) : SameMasters s s := ⟨rfl, rfl, rfl⟩

theorem Frame.same (frame : Frame s s') : SameMasters s s' := ⟨frame.masters, frame.spawned, frame.calls⟩

/-- A step of one call that starts no master. -/
theorem MastersInv.put (h : MastersInv s) (same : SameMasters s s') (own : call'.pc.locked = true → s'.lock = some c)
    (others : ∀ d other, d ≠ c → s.calls d = some other → other.pc.locked = true → s'.lock = some d)
    (stands : Stands s call'.pc) : MastersInv (s'.put c call') := by
  have split : ∀ d other, (s'.put c call').calls d = some other →
      (d = c ∧ other = call') ∨ (d ≠ c ∧ s.calls d = some other) := by
    intro d other theirs
    by_cases mine : d = c
    · exact .inl ⟨mine, (Option.some.inj ((if_pos mine).symm.trans theirs)).symm⟩
    · refine .inr ⟨mine, ?_⟩
      rw [← same.calls]
      exact (if_neg mine).symm.trans theirs
  have masters : (s'.put c call').masters = s.masters := same.masters
  have spawned : (s'.put c call').spawned = s.spawned := same.spawned
  refine ⟨?_, ?_, ?_, ?_, ?_⟩
  · rw [masters]
    exact h.one
  · rw [masters, spawned]
    exact h.below
  · intro d other theirs locked
    rcases split d other theirs with ⟨rfl, rfl⟩ | ⟨far, before⟩
    · exact own locked
    · exact others d other far before locked
  · intro d other theirs starting
    rw [masters]
    rcases split d other theirs with ⟨rfl, rfl⟩ | ⟨-, before⟩
    · exact stands.clear starting
    · exact h.clear d other before starting
  · intro d other n theirs is
    rw [masters, spawned]
    rcases split d other theirs with ⟨rfl, rfl⟩ | ⟨-, before⟩
    · exact stands.verdict n is
    · exact h.verdict d other n before is

theorem MastersInv.moves (h : MastersInv s) (mine : s.calls c = some call) (same : SameMasters s s')
    (lock : s'.lock = s.lock) (keeps : call'.pc.locked = true → call.pc.locked = true) (stands : Stands s call'.pc) :
    MastersInv (s'.put c call') := by
  refine h.put same (fun locked => ?_) (fun d other _ theirs locked => ?_) stands
  · rw [lock]
    exact h.holds c call mine (keeps locked)
  · rw [lock]
    exact h.holds d other theirs locked

theorem MastersInv.takes (h : MastersInv s) (free : s.lock = none) (stands : Stands s call'.pc) :
    MastersInv ((s.take c).put c call') := by
  refine h.put (Frame.take s c).same (fun _ => rfl) (fun d other _ theirs locked => ?_) stands
  cases free.symm.trans (h.holds d other theirs locked)

theorem MastersInv.releases (h : MastersInv s) (mine : s.calls c = some call) (same : SameMasters s s')
    (locked : call.pc.locked = true) (unlocked : call'.pc.locked = false) (stands : Stands s call'.pc) :
    MastersInv (s'.put c call') := by
  refine h.put same (fun locks => ?_) (fun d other far theirs locks => ?_) stands
  · cases unlocked.symm.trans locks
  · have here := h.holds c call mine locked
    have there := h.holds d other theirs locks
    exact absurd (Option.some.inj (there.symm.trans here)) far

theorem MastersInv.leaves {e : EnsureFrom} (h : MastersInv s) (mine : s.calls c = some call)
    (locked : call.pc.locked = true) (left : call'.pc.locked = e.nested) (stands : Stands s call'.pc) :
    MastersInv ((s.leave e).put c call') := by
  rcases nested : e.nested with _ | _
  · exact h.releases mine (Frame.leave s e).same locked (left.trans nested) stands
  · have lock : (s.leave e).lock = s.lock := by
      rw [State.leave, nested]
      rfl
    exact h.moves mine (Frame.leave s e).same lock (fun _ => locked) stands

/-- A stop returns `True`. -/
theorem MastersInv.stops {n : ℕ} (h : MastersInv s) (mine : s.calls c = some call) (same : SameMasters s s')
    (lock : s'.lock = s.lock) (le : n ≤ s.spawned) (before : ∀ m ∈ s.masters, n ≤ m.pid) :
    MastersInv (s'.stops c call n) := by
  have stands : Stands s (.returned true n) := by
    refine ⟨fun starts => (by cases starts), fun k is => ?_⟩
    obtain rfl := Option.some.inj is
    exact ⟨le, before⟩
  unfold State.stops
  split_ifs
  · exact h.moves mine ⟨same.masters, same.spawned, same.calls⟩ lock (fun locks => by cases locks) stands
  · exact h.moves mine same lock (fun locks => by cases locks) stands

theorem reloadAfter_stands (r : ReloadFrom) (ok : Bool) : Stands s (r.after ok) := by
  cases r <;> cases ok <;> exact .of_plain rfl rfl

theorem reloadAfter_locked (r : ReloadFrom) (ok : Bool) : (r.after ok).locked = r.nested := by
  cases r <;> cases ok <;> rfl

theorem ensureAfter_stands (e : EnsureFrom) (ok : Bool) : Stands s (e.after ok) := by
  cases e with
  | alone | reload _ => exact .of_plain rfl rfl
  | heal r =>
    cases ok
    · exact reloadAfter_stands r false
    · exact .of_plain rfl rfl

theorem ensureAfter_locked (e : EnsureFrom) (ok : Bool) : (e.after ok).locked = e.nested := by
  cases e with
  | alone | reload _ => rfl
  | heal r =>
    cases ok
    · exact reloadAfter_locked r false
    · rfl

theorem afterStart_stands (ok : Bool) : Stands s (call.afterStart ok).pc := by
  rcases call.afterStart_pc ok with pc | pc | pc <;> rw [pc] <;> exact .of_plain rfl rfl

theorem afterStart_unlocked (ok : Bool) : (call.afterStart ok).pc.locked = false := by
  rcases call.afterStart_pc ok with pc | pc | pc <;> rw [pc] <;> rfl

/-- A stop goes on with the verdict that no master is left. -/
theorem stopped_stands {f : StopFrom} (gone : s.masters = []) : Stands s (.stopped f s.spawned) := by
  refine ⟨fun starts => (by cases starts), fun n is => ?_⟩
  obtain rfl := Option.some.inj is
  rw [gone]
  exact ⟨Nat.le_refl _, fun m mem => (by cases mem)⟩

/-! ## The steps -/

theorem stopStep_masters (h : MastersInv s) (mine : s.calls c = some call)
    (gone : FindsNone s answer call.pc → s.masters = []) (taken : stopStep s c call answer = some t) :
    MastersInv t := by
  rcases call with ⟨kind, pc⟩
  have stands := h.stands mine
  cases pc <;> simp only [stopStep] at taken
  case stopBackend =>
    cases taken
    split
    all_goals exact h.moves mine (.refl s) rfl (fun locks => by cases locks) (.of_plain rfl rfl)
  case offRead =>
    split at taken <;> cases taken
    all_goals exact h.moves mine (.refl s) rfl (fun locks => by cases locks) (.of_plain rfl rfl)
  case offWrite state =>
    cases taken
    exact h.moves mine ⟨rfl, rfl, rfl⟩ rfl (fun locks => by cases locks) (.of_plain rfl rfl)
  case offAdmin =>
    split at taken <;> cases taken
    · exact h.moves mine (.refl s) rfl (fun locks => by cases locks) (.of_plain rfl rfl)
    · rename_i silent
      have gone : s.masters = [] := gone (Bool.eq_false_iff.mpr silent)
      refine h.stops mine (.refl s) rfl (Nat.le_refl _) fun m mem => ?_
      rw [gone] at mem
      cases mem
  case stopAcquire =>
    split_ifs at taken with failed free <;> cases taken
    · exact h.moves mine (.refl s) rfl (fun locks => by cases locks) (.of_plain rfl rfl)
    · exact h.takes free (.of_plain rfl rfl)
  case stopProbe f =>
    split at taken <;> cases taken
    · exact h.moves mine (.refl s) rfl id (.of_plain rfl rfl)
    · rename_i silent
      refine h.moves mine (Frame.clearStale s).same ?_ id (stopped_stands (gone (Bool.eq_false_iff.mpr silent)))
      exact clearStale_lock s
  case stopOwn f =>
    cases taken
    split
    all_goals exact h.moves mine (.refl s) rfl id (.of_plain rfl rfl)
  case stopAdopt f =>
    split at taken <;> cases taken
    · exact h.moves mine (Frame.pidFile s _).same rfl id (.of_plain rfl rfl)
    · rename_i refused
      exact h.moves mine (Frame.clearStale s).same (clearStale_lock s) id (stopped_stands (gone refused))
  case stopPost f =>
    cases taken
    exact h.moves mine (.refl s) rfl id (.of_plain rfl rfl)
  case stopWait f =>
    split_ifs at taken with alive waits internal <;> cases taken
    · exact h.releases mine (Frame.release s).same (by simp [Pc.locked, internal]) rfl (.of_plain rfl rfl)
    · exact h.moves mine (.refl s) rfl (fun locks => by cases locks) (.of_plain rfl rfl)
    · exact h.moves mine (Frame.clearStale s).same (clearStale_lock s) id
        (stopped_stands (gone (Bool.eq_false_iff.mpr alive)))
  case stopped f n =>
    obtain ⟨le, before⟩ := stands.verdict n rfl
    have reads : Stands s (.stopRead n) := ⟨fun starts => (by cases starts), stands.verdict⟩
    cases f <;> cases taken
    · exact h.moves mine (.refl s) rfl (fun locks => by cases locks) reads
    · exact h.stops mine (.refl s) rfl le before
    · exact h.releases mine (Frame.release s).same rfl rfl reads
  case stopRead n =>
    obtain ⟨le, before⟩ := stands.verdict n rfl
    split at taken <;> cases taken
    · exact h.stops mine (.refl s) rfl le before
    · exact h.moves mine (.refl s) rfl (fun locks => by cases locks)
        ⟨fun starts => (by cases starts), stands.verdict⟩
  case stopWrite n state =>
    obtain ⟨le, before⟩ := stands.verdict n rfl
    cases taken
    exact h.stops mine ⟨rfl, rfl, rfl⟩ rfl le before
  all_goals cases taken

theorem startStep_masters (h : MastersInv s) (mine : s.calls c = some call)
    (gone : FindsNone s answer call.pc → s.masters = []) (taken : startStep s c call answer = some t) :
    MastersInv t := by
  rcases call with ⟨kind, pc⟩
  cases pc <;> simp only [startStep] at taken
  case maybeBackend =>
    cases taken
    split
    all_goals exact h.moves mine (.refl s) rfl (fun locks => by cases locks) (.of_plain rfl rfl)
  case maybeRead =>
    split at taken <;> cases taken
    · exact h.moves mine (.refl s) rfl (fun locks => by cases locks) (.of_plain rfl rfl)
    · split
      all_goals exact h.moves mine (.refl s) rfl (fun locks => by cases locks) (.of_plain rfl rfl)
  case polling =>
    split at taken <;> cases taken
    · exact h.moves mine (.refl s) rfl (fun locks => by cases locks) (.of_plain rfl rfl)
    · split
      all_goals exact h.moves mine (.refl s) rfl (fun locks => by cases locks) (.of_plain rfl rfl)
  case pollOwner =>
    cases taken
    split
    all_goals exact h.moves mine (.refl s) rfl (fun locks => by cases locks) (.of_plain rfl rfl)
  case requireBackend =>
    cases taken
    split
    · refine h.moves mine (.refl s) rfl (fun locks => ?_) (afterStart_stands false)
      cases (afterStart_unlocked false).symm.trans locks
    · exact h.moves mine (.refl s) rfl (fun locks => by cases locks) (.of_plain rfl rfl)
  case acquire =>
    split_ifs at taken with failed free <;> cases taken
    · refine h.moves mine (.refl s) rfl (fun locks => ?_) (afterStart_stands false)
      cases (afterStart_unlocked false).symm.trans locks
    · exact h.takes free (.of_plain rfl rfl)
  case probeAdmin =>
    cases taken
    split
    all_goals exact h.moves mine (.refl s) rfl id (.of_plain rfl rfl)
  case probeOwn =>
    cases taken
    split
    all_goals exact h.moves mine (.refl s) rfl id (.of_plain rfl rfl)
  case adopt =>
    split at taken <;> cases taken
    · exact h.moves mine (Frame.pidFile s _).same rfl id (.of_plain rfl rfl)
    · exact h.moves mine (.refl s) rfl id (.of_plain rfl rfl)
  case failRead =>
    cases taken
    exact h.moves mine (.refl s) rfl id (.of_plain rfl rfl)
  case failWrite state =>
    cases taken
    exact h.releases mine ⟨rfl, rfl, rfl⟩ rfl (afterStart_unlocked false) (afterStart_stands false)
  case probeRunning =>
    cases taken
    split
    · exact h.moves mine (.refl s) rfl id (.of_plain rfl rfl)
    · rename_i silent
      exact h.moves mine (.refl s) rfl id ⟨fun _ => gone (Bool.eq_false_iff.mpr silent), fun n is => (by cases is)⟩
  case probeOwner =>
    cases taken
    split
    · exact h.moves mine (.refl s) rfl id (.of_plain rfl rfl)
    · rename_i other
      exact h.moves mine (.refl s) rfl id ⟨fun _ => gone (Bool.eq_false_iff.mpr other), fun n is => (by cases is)⟩
  all_goals cases taken

theorem runningStep_masters (h : MastersInv s) (mine : s.calls c = some call)
    (taken : runningStep s c call answer = some t) : MastersInv t := by
  rcases call with ⟨kind, pc⟩
  cases pc <;> simp only [runningStep] at taken
  case runRead =>
    split at taken
    · cases taken
      exact h.moves mine (.refl s) rfl id (.of_plain rfl rfl)
    · split_ifs at taken <;> cases taken
      all_goals exact h.moves mine (.refl s) rfl (fun _ => rfl) (.of_plain rfl rfl)
  case runWrite pid state =>
    cases taken
    exact h.moves mine ⟨rfl, rfl, rfl⟩ rfl (fun _ => rfl) (.of_plain rfl rfl)
  case verifyRunning pid =>
    split at taken <;> cases taken
    · exact h.moves mine (.refl s) rfl (fun _ => rfl) (.of_plain rfl rfl)
    · exact h.releases mine (Frame.release s).same rfl (afterStart_unlocked true) (afterStart_stands true)
  case tlsRead pid reason =>
    cases taken
    exact h.moves mine (.refl s) rfl id (.of_plain rfl rfl)
  case tlsWrite state =>
    cases taken
    exact h.releases mine ⟨rfl, rfl, rfl⟩ rfl (afterStart_unlocked false) (afterStart_stands false)
  all_goals cases taken

/-- `caddy start`: no master is alive, and only the holder of the start lock comes here. -/
theorem MastersInv.spawned {f : SpawnFrom} {kind : Kind} (h : MastersInv s) (mine : s.calls c = some ⟨kind, .spawn f⟩) :
    MastersInv (s.spawn.setPc c ⟨kind, .spawn f⟩ (.await f)) := by
  have gone : s.masters = [] := h.clear c _ mine rfl
  have lock : s.lock = some c := h.holds c _ mine rfl
  have only : ∀ m ∈ s.spawn.masters, m = ⟨s.spawned, false⟩ := by
    intro m mem
    rw [State.spawn, gone] at mem
    exact List.mem_singleton.mp mem
  have split : ∀ d other, (s.spawn.setPc c ⟨kind, .spawn f⟩ (.await f)).calls d = some other →
      (d = c ∧ other = ⟨kind, .await f⟩) ∨ (d ≠ c ∧ s.calls d = some other) := fun _ _ => entry_cases
  refine ⟨?_, ?_, ?_, ?_, ?_⟩
  · show (s.spawn.masters).length ≤ 1
    rw [State.spawn, gone]
    exact Nat.le_refl 1
  · intro m mem
    rw [only m mem]
    exact Nat.lt_succ_self s.spawned
  · intro d other theirs locked
    rcases split d other theirs with ⟨rfl, rfl⟩ | ⟨-, before⟩
    · exact lock
    · exact h.holds d other before locked
  · intro d other theirs starting
    rcases split d other theirs with ⟨rfl, rfl⟩ | ⟨far, before⟩
    · cases starting
    · have theirLock := h.holds d other before (locked_of_starting starting)
      exact absurd (Option.some.inj (theirLock.symm.trans lock)) far
  · intro d other n theirs is
    rcases split d other theirs with ⟨rfl, rfl⟩ | ⟨-, before⟩
    · cases is
    · have le : n ≤ s.spawned := (h.verdict d other n before is).1
      refine ⟨Nat.le_succ_of_le le, fun m mem => ?_⟩
      rw [only m mem]
      exact le

theorem coldStep_masters (h : MastersInv s) (mine : s.calls c = some call)
    (taken : coldStep s c call answer = some t) : MastersInv t := by
  rcases call with ⟨kind, pc⟩
  have stands := h.stands mine
  cases pc <;> simp only [coldStep] at taken
  case coldRead =>
    cases taken
    exact h.moves mine (.refl s) rfl id ⟨fun _ => stands.clear rfl, fun n is => (by cases is)⟩
  case coldWrite state =>
    cases taken
    exact h.moves mine ⟨rfl, rfl, rfl⟩ rfl id ⟨fun _ => stands.clear rfl, fun n is => (by cases is)⟩
  case spawn f =>
    split at taken
    · cases f with
      | cold intent =>
        cases taken
        exact h.moves mine (.refl s) rfl id (.of_plain rfl rfl)
      | ensure e =>
        cases taken
        exact h.leaves mine rfl (ensureAfter_locked e false) (ensureAfter_stands e false)
    · cases taken
      exact h.spawned mine
  case await f =>
    split at taken
    · cases taken
      exact h.moves mine (.refl s) rfl id (.of_plain rfl rfl)
    · cases taken
      exact h.leaves mine rfl (ensureAfter_locked _ false) (ensureAfter_stands _ false)
    · split at taken
      · cases f with
        | cold intent =>
          cases taken
          exact h.moves mine (.refl s) rfl id (.of_plain rfl rfl)
        | ensure e =>
          cases taken
          exact h.leaves mine rfl (ensureAfter_locked e true) (ensureAfter_stands e true)
      · cases taken
  case coldFail state =>
    cases taken
    exact h.releases mine ⟨rfl, rfl, rfl⟩ rfl (afterStart_unlocked false) (afterStart_stands false)
  case upReload =>
    cases taken
    split
    all_goals exact h.moves mine (.refl s) rfl id (.of_plain rfl rfl)
  case upWrite =>
    cases taken
    exact h.moves mine ⟨rfl, rfl, rfl⟩ rfl id (.of_plain rfl rfl)
  case verifyUp state =>
    split at taken <;> cases taken
    · exact h.moves mine (.refl s) rfl id (.of_plain rfl rfl)
    · exact h.releases mine (Frame.release s).same rfl (afterStart_unlocked true) (afterStart_stands true)
  case upFail state =>
    cases taken
    exact h.releases mine ⟨rfl, rfl, rfl⟩ rfl (afterStart_unlocked false) (afterStart_stands false)
  all_goals cases taken

theorem reloadStep_masters (h : MastersInv s) (mine : s.calls c = some call)
    (gone : FindsNone s answer call.pc → s.masters = []) (taken : reloadStep s c call answer = some t) :
    MastersInv t := by
  rcases call with ⟨kind, pc⟩
  have afterReload (r : ReloadFrom) (ok : Bool) (locked : pc.locked = r.nested) :
      MastersInv (s.setPc c ⟨kind, pc⟩ (r.after ok)) := by
    refine h.moves mine (.refl s) rfl (fun locks => ?_) (reloadAfter_stands r ok)
    exact locked.trans ((reloadAfter_locked r ok).symm.trans locks)
  have afterEnsure (e : EnsureFrom) (ok : Bool) (locked : pc.locked = e.nested) :
      MastersInv (s.setPc c ⟨kind, pc⟩ (e.after ok)) := by
    refine h.moves mine (.refl s) rfl (fun locks => ?_) (ensureAfter_stands e ok)
    exact locked.trans ((ensureAfter_locked e ok).symm.trans locks)
  cases pc <;> simp only [reloadStep] at taken
  case reloadProbe r =>
    split at taken <;> cases taken
    · exact afterReload r false rfl
    · split
      all_goals exact h.moves mine (.refl s) rfl id (.of_plain rfl rfl)
  case reloadOwner r =>
    cases taken
    split
    · exact h.moves mine (.refl s) rfl id (.of_plain rfl rfl)
    · exact afterReload r false rfl
  case reload r =>
    cases taken
    split
    · exact h.moves mine (.refl s) rfl id (.of_plain rfl rfl)
    · exact afterReload r true rfl
  case reloadAgain r =>
    cases taken
    exact afterReload r _ rfl
  case ensureProbe e =>
    cases taken
    split
    all_goals exact h.moves mine (.refl s) rfl id (.of_plain rfl rfl)
  case ensureOwner e =>
    cases taken
    exact afterEnsure e _ rfl
  case ensureAcquire e =>
    split_ifs at taken with nested failed free <;> cases taken
    · exact h.moves mine (.refl s) rfl (fun _ => nested) (.of_plain rfl rfl)
    · exact h.moves mine (.refl s) rfl id (.of_plain rfl rfl)
    · exact h.takes free (.of_plain rfl rfl)
  case ensureRecheck e =>
    split at taken <;> cases taken
    · exact h.moves mine (.refl s) rfl id (.of_plain rfl rfl)
    · rename_i silent
      exact h.moves mine (Frame.clearStale s).same (clearStale_lock s) id
        ⟨fun _ => gone (Bool.eq_false_iff.mpr silent), fun n is => (by cases is)⟩
  case ensureRecheckOwner e =>
    cases taken
    exact h.leaves mine rfl (ensureAfter_locked e _) (ensureAfter_stands e _)
  case ensureBusy e =>
    cases taken
    exact afterEnsure e _ rfl
  all_goals cases taken

theorem advance_masters (h : MastersInv s) (mine : s.calls c = some call) (guard : SeesMasters s (.advance c answer))
    (taken : advance s c call answer = some t) : MastersInv t := by
  have gone (finds : FindsNone s answer call.pc) : s.masters = [] := masters_eq_nil finds (guard call mine finds)
  unfold advance at taken
  split at taken
  all_goals first
    | exact stopStep_masters h mine gone taken
    | exact startStep_masters h mine gone taken
    | exact runningStep_masters h mine taken
    | exact coldStep_masters h mine taken
    | exact reloadStep_masters h mine gone taken
    | cases taken

/-- A step of a master or of another program. -/
theorem MastersInv.outside (h : MastersInv s) (calls : s'.calls = s.calls) (spawned : s'.spawned = s.spawned)
    (lock : s'.lock = s.lock) (length : s'.masters.length ≤ s.masters.length)
    (among : ∀ m ∈ s'.masters, ∃ n ∈ s.masters, m.pid = n.pid) : MastersInv s' := by
  refine ⟨Nat.le_trans length h.one, ?_, ?_, ?_, ?_⟩
  · intro m mem
    obtain ⟨n, earlier, same⟩ := among m mem
    rw [same, spawned]
    exact h.below n earlier
  · rw [calls, lock]
    exact h.holds
  · intro d other theirs starting
    rw [calls] at theirs
    rw [h.clear d other theirs starting] at length
    exact List.length_eq_zero_iff.mp (Nat.le_zero.mp length)
  · intro d other n theirs is
    rw [calls] at theirs
    obtain ⟨le, before⟩ := h.verdict d other n theirs is
    rw [spawned]
    refine ⟨le, fun m mem => ?_⟩
    obtain ⟨m', earlier, same⟩ := among m mem
    rw [same]
    exact before m' earlier

theorem step_masters {a : Action} (h : MastersInv s) (guard : SeesMasters s a) (taken : step s a = some t) :
    MastersInv t := by
  cases a with
  | begin c kind =>
    simp only [step] at taken
    split at taken <;> cases taken
    have unlocked : kind.call.pc.locked = false := by cases kind <;> rfl
    have plain : Stands s kind.call.pc := by cases kind <;> exact .of_plain rfl rfl
    refine h.put ⟨rfl, rfl, rfl⟩ (fun locks => ?_) (fun d other _ theirs locked => h.holds d other theirs locked) plain
    cases unlocked.symm.trans locks
  | advance c answer =>
    simp only [step] at taken
    split at taken
    · cases taken
    · rename_i call mine
      exact advance_masters h mine guard taken
  | abandon c =>
    simp only [step] at taken
    split at taken
    · cases taken
    · rename_i call mine
      split_ifs at taken with ended held <;> cases taken
      · refine h.put (Frame.release s).same (fun locks => by cases locks) (fun d other far theirs locked => ?_)
          (.of_plain rfl rfl)
        exact absurd (Option.some.inj ((h.holds d other theirs locked).symm.trans held)) far
      · exact h.moves mine (.refl s) rfl (fun locks => by cases locks) (.of_plain rfl rfl)
  | listens p =>
    cases taken
    refine h.outside rfl rfl rfl (Nat.le_of_eq (List.length_map _)) fun m mem => ?_
    obtain ⟨n, earlier, rfl⟩ := List.mem_map.mp mem
    exact ⟨n, earlier, by split <;> rfl⟩
  | writesPid p =>
    simp only [step] at taken
    split at taken <;> cases taken
    exact h.outside rfl rfl rfl (Nat.le_refl _) fun m mem => ⟨m, mem, rfl⟩
  | exits p removes =>
    cases taken
    exact h.outside rfl rfl rfl (List.length_filter_le _ _) fun m mem => ⟨m, (List.mem_filter.mp mem).1, rfl⟩
  | foreign _ | stranger _ _ =>
    cases taken
    exact h.outside rfl rfl rfl (Nat.le_refl _) fun m mem => ⟨m, mem, rfl⟩

theorem initial_masters (file : Option GatewayState) (pidFile : Option Pid) : MastersInv (.initial file pidFile) :=
  ⟨Nat.zero_le 1, fun _ mem => (by cases mem), fun _ _ theirs => (by cases theirs), fun _ _ theirs => (by cases theirs),
    fun _ _ _ theirs => (by cases theirs)⟩

theorem MastersInv.oneMaster (h : MastersInv s) : OneMaster s := by
  refine ⟨h.one, fun c call n mine returned => ?_⟩
  exact (h.verdict c call n mine (by rw [returned]; rfl)).2

/-- While no check overlooks a master, the workspace has one master at most and a stop leaves none. -/
theorem guarded_one_master {file : Option GatewayState} {pidFile : Option Pid} {as : List Action}
    (run : Run step SeesMasters (.initial file pidFile) as s) : OneMaster s :=
  (run.invariant (initial_masters file pidFile) fun _ _ _ h ok taken => step_masters h ok taken).oneMaster

theorem sees_of (mine : s.calls c = some call) (sees : FindsNone s answer call.pc → s.masters = []) :
    SeesMasters s (.advance c answer) := by
  intro other theirs finds m mem
  obtain rfl := Option.some.inj (mine.symm.trans theirs)
  rw [sees finds] at mem
  cases mem

/-- A start that waits for its master, and a stop of it. -/
theorem guarded_one_master_session : ∃ s, Run step SeesMasters (.initial none none)
    (.begin 0 (.start true .manual) :: List.replicate 7 (.advance 0 .yes) ++
      [.listens 0, .writesPid 0, .advance 0 .yes, .begin 1 .stop] ++ List.replicate 4 (.advance 1 .yes) ++
      [.exits 0 true] ++ List.replicate 4 (.advance 1 .yes)) s ∧
    (s.calls 1).map Call.pc = some (.returned true 1) ∧ OneMaster s := by
  have run : ∃ s, Run step SeesMasters (.initial none none)
      (.begin 0 (.start true .manual) :: List.replicate 7 (.advance 0 .yes) ++
        [.listens 0, .writesPid 0, .advance 0 .yes, .begin 1 .stop] ++ List.replicate 4 (.advance 1 .yes) ++
        [.exits 0 true] ++ List.replicate 4 (.advance 1 .yes)) s ∧
      (s.calls 1).map Call.pc = some (.returned true 1) := by
    refine ⟨_, .cons trivial rfl <| .cons (sees_of rfl ?_) rfl <| .cons (sees_of rfl ?_) rfl <|
      .cons (sees_of rfl ?_) rfl <| .cons (sees_of rfl ?_) rfl <| .cons (sees_of rfl ?_) rfl <|
      .cons (sees_of rfl ?_) rfl <| .cons (sees_of rfl ?_) rfl <| .cons trivial rfl <| .cons trivial rfl <|
      .cons (sees_of rfl ?_) rfl <| .cons trivial rfl <| .cons (sees_of rfl ?_) rfl <| .cons (sees_of rfl ?_) rfl <|
      .cons (sees_of rfl ?_) rfl <| .cons (sees_of rfl ?_) rfl <| .cons trivial rfl <| .cons (sees_of rfl ?_) rfl <|
      .cons (sees_of rfl ?_) rfl <| .cons (sees_of rfl ?_) rfl <| .cons (sees_of rfl ?_) rfl <| .refl _, rfl⟩
    all_goals first
      | exact fun _ => rfl
      | exact fun finds => by cases finds
  obtain ⟨s, run, returned⟩ := run
  exact ⟨s, run, returned, guarded_one_master run⟩

/-! ## A master that comes up late -/

/-- A start gives up on its master before that answers, and the next start finds none. -/
theorem late_master_doubled : ¬ ∀ file pidFile as s, Run step anyStep (.initial file pidFile) as s → OneMaster s := by
  intro all
  let gaveUp : List Action := .begin 0 (.start true .manual) :: List.replicate 7 (.advance 0 .yes) ++
    [.advance 0 .no, .advance 0 .yes]
  let again : List Action := .begin 1 (.start true .manual) :: List.replicate 7 (.advance 1 .yes)
  have ran : ∃ s, exec step (.initial none none) (gaveUp ++ again) = some s ∧ s.masters = [⟨1, false⟩, ⟨0, false⟩] :=
    ⟨_, rfl, rfl⟩
  obtain ⟨s, ran, masters⟩ := ran
  have one := (all _ _ _ s (.of_exec ran)).one
  rw [masters] at one
  exact absurd one (by decide)

end LocalWebAccess.GatewayService
