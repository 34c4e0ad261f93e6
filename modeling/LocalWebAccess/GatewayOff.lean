import LocalWebAccess.GatewayService

/-!
# The gateway that the user has turned off

Between a stop of the user that returned `True` and the next start by the user, the flag in
`run/gateway.json` stays false and no master is started, as long as no other call comes to one of
the checks after which it turns the gateway on without reading the flag.
-/

namespace LocalWebAccess.GatewayService
open GuardedRuns

/-- No state file says that the gateway is on. -/
def State.FlagOff (s : State) : Prop := ∀ state, s.file = some state → state.enabled = false

/-- The user's `off` stays off. -/
def OffStaysOff (s : State) : Prop := s.off = true → s.FlagOff ∧ s.revived = false

def ReloadFrom.turnsOn : ReloadFrom → Bool
  | .started => true
  | .alone | .running _ => false

def EnsureFrom.turnsOn : EnsureFrom → Bool
  | .alone => false
  | .reload r | .heal r => r.turnsOn

/-- The places from which a call goes on to start a master or to write that the gateway is on,
whatever the file says by then. -/
def Pc.turnsOn : Pc → Bool
  | .offWrite state | .stopWrite _ state | .runWrite _ state | .tlsWrite state => state.enabled
  | .failRead | .failWrite _ | .coldRead | .coldWrite _ | .coldFail _ | .upReload | .upWrite | .verifyUp _
  | .upFail _ | .spawn _ | .await (.cold _) => true
  | .await (.ensure e) | .ensureProbe e | .ensureOwner e | .ensureAcquire e | .ensureRecheck e
  | .ensureRecheckOwner e | .ensureBusy e => e.turnsOn
  | .reloadProbe r | .reloadOwner r | .reload r | .reloadAgain r => r.turnsOn
  | _ => false

/-- The checks that send a call to such a place: the admin address belongs to another program, no
master is found, or there is no state file. -/
def Revives (s : State) (answer : Answer) : Pc → Prop
  | .adopt => s.adoptable answer = none
  | .probeRunning | .ensureRecheck _ => s.adminAlive = false
  | .probeOwner => s.ownerOk answer = false
  | .runRead | .tlsRead _ _ => s.file = none
  | _ => False

/-- The step in which a stop of the user returns `True`. -/
def Returns (s : State) (call : Call) : Prop :=
  call.kind = .stop ∧
    match call.pc with
    | .offAdmin => s.adminAlive = false
    | .stopped f _ => f = .otherBackend
    | .stopRead _ => s.file = none
    | .stopWrite _ _ => True
    | _ => False

/-- What the file says when a stop returns. -/
def FlagAtReturn (s : State) : Pc → Prop
  | .stopWrite _ state => state.enabled = false
  | _ => s.FlagOff

/-- While the gateway is off, no call passes a check after which it turns the gateway on; and when
a stop of the user returns, no other call is past such a check. -/
def Guard (s : State) : Action → Prop
  | .advance c answer => ∀ call, s.calls c = some call →
      (s.off = true → ¬ Revives s answer call.pc) ∧
      (Returns s call → FlagAtReturn s call.pc ∧
        ∀ d other, d ≠ c → s.calls d = some other → other.pc.turnsOn = false)
  | _ => True

/-! ## The invariant -/

/-- The user's stop writes that the gateway is off. -/
def Call.WritesOff (call : Call) : Prop :=
  match call.pc with
  | .offWrite state => state.enabled = false
  | .stopWrite _ state => call.kind = .stop → state.enabled = false
  | _ => True

structure OffInv (s : State) : Prop where
  writes : ∀ c call, s.calls c = some call → call.WritesOff
  calm : s.off = true → s.FlagOff ∧ s.revived = false
  idle : s.off = true → ∀ c call, s.calls c = some call → call.pc.turnsOn = false

variable {s s' t : State} {c : CallId} {call call' : Call} {answer : Answer}

/-- A step of one call that leaves `off` as it is. -/
theorem OffInv.put (h : OffInv s) (calls : s'.calls = s.calls) (off : s'.off = s.off)
    (writes : call'.WritesOff) (calm : s.off = true → (s'.FlagOff ∧ s'.revived = false) ∧ call'.pc.turnsOn = false) :
    OffInv (s'.put c call') := by
  refine ⟨?_, ?_, ?_⟩
  · intro d other theirs
    rcases entry_cases theirs with ⟨-, rfl⟩ | ⟨-, before⟩
    · exact writes
    · rw [calls] at before
      exact h.writes d other before
  · intro isOff
    rw [show (s'.put c call').off = s.off from off] at isOff
    exact (calm isOff).1
  · intro isOff d other theirs
    rw [show (s'.put c call').off = s.off from off] at isOff
    rcases entry_cases theirs with ⟨-, rfl⟩ | ⟨-, before⟩
    · exact (calm isOff).2
    · rw [calls] at before
      exact h.idle isOff d other before

theorem OffInv.moves (h : OffInv s) (frame : Frame s s') (writes : call'.WritesOff)
    (idle : s.off = true → call'.pc.turnsOn = false) : OffInv (s'.put c call') := by
  refine h.put frame.calls frame.off writes fun isOff => ⟨⟨?_, ?_⟩, idle isOff⟩
  · intro state file
    rw [frame.file] at file
    exact (h.calm isOff).1 state file
  · rw [frame.revived]
    exact (h.calm isOff).2

/-- A write of `run/gateway.json`, before the lock may be released. -/
theorem OffInv.writesState {state : GatewayState} (h : OffInv s) (frame : Frame (s.writeState state) s')
    (writes : call'.WritesOff) (idle : s.off = true → state.enabled = false ∧ call'.pc.turnsOn = false) :
    OffInv (s'.put c call') := by
  refine h.put frame.calls frame.off writes fun isOff => ⟨⟨?_, ?_⟩, (idle isOff).2⟩
  · intro written file
    rw [frame.file] at file
    obtain rfl : state = written := Option.some.inj file
    exact (idle isOff).1
  · rw [frame.revived]
    exact (h.calm isOff).2

/-- A stop returns `True`. -/
theorem OffInv.stops {n : ℕ} (h : OffInv s) (calls : s'.calls = s.calls) (off : s'.off = s.off)
    (revived : s'.revived = s.revived)
    (user : call.kind = .stop → s'.FlagOff ∧ ∀ d other, d ≠ c → s.calls d = some other → other.pc.turnsOn = false)
    (internal : call.kind ≠ .stop → s.off = true → s'.FlagOff) : OffInv (s'.stops c call n) := by
  unfold State.stops
  split_ifs with kind
  · obtain ⟨flagOff, quiet⟩ := user kind
    refine ⟨?_, fun _ => ⟨flagOff, rfl⟩, ?_⟩
    · intro d other theirs
      rcases entry_cases theirs with ⟨-, rfl⟩ | ⟨-, before⟩
      · trivial
      · rw [calls] at before
        exact h.writes d other before
    · intro _ d other theirs
      rcases entry_cases theirs with ⟨-, rfl⟩ | ⟨far, before⟩
      · rfl
      · rw [calls] at before
        exact quiet d other far before
  · refine h.put calls off trivial fun isOff => ⟨⟨internal kind isOff, ?_⟩, rfl⟩
    rw [revived]
    exact (h.calm isOff).2

theorem afterStart_writesOff (ok : Bool) : (call.afterStart ok).WritesOff := by
  unfold Call.WritesOff
  rcases call.afterStart_pc ok with pc | pc | pc <;> rw [pc] <;> trivial

theorem afterStart_idle (ok : Bool) : (call.afterStart ok).pc.turnsOn = false := by
  rcases call.afterStart_pc ok with pc | pc | pc <;> rw [pc] <;> rfl

theorem reloadAfter_writesOff (r : ReloadFrom) (ok : Bool) : Call.WritesOff { call with pc := r.after ok } := by
  cases r <;> cases ok <;> trivial

theorem reloadAfter_idle {r : ReloadFrom} (idle : r.turnsOn = false) (ok : Bool) : (r.after ok).turnsOn = false := by
  cases r with
  | started => cases idle
  | alone | running _ => cases ok <;> rfl

theorem ensureAfter_writesOff (e : EnsureFrom) (ok : Bool) : Call.WritesOff { call with pc := e.after ok } := by
  cases e with
  | alone | reload _ => trivial
  | heal r =>
    cases ok
    · exact reloadAfter_writesOff r false
    · trivial

theorem ensureAfter_idle {e : EnsureFrom} (idle : e.turnsOn = false) (ok : Bool) : (e.after ok).turnsOn = false := by
  cases e with
  | alone => rfl
  | reload r => exact idle
  | heal r =>
    cases ok
    · exact reloadAfter_idle idle false
    · exact idle

/-! ## The steps -/

theorem stopStep_off (h : OffInv s) (mine : s.calls c = some call)
    (ends : Returns s call → FlagAtReturn s call.pc ∧
      ∀ d other, d ≠ c → s.calls d = some other → other.pc.turnsOn = false)
    (taken : stopStep s c call answer = some t) : OffInv t := by
  rcases call with ⟨kind, pc⟩
  have writes := h.writes c _ mine
  have idle := fun isOff => h.idle isOff c _ mine
  cases pc <;> simp only [stopStep] at taken
  case stopBackend =>
    cases taken
    split
    all_goals exact h.moves (.refl s) trivial fun _ => rfl
  case offRead =>
    split at taken <;> cases taken
    all_goals exact h.moves (.refl s) (by trivial) fun _ => rfl
  case offWrite state =>
    cases taken
    exact h.writesState (.refl _) trivial fun _ => ⟨writes, rfl⟩
  case offAdmin =>
    split at taken <;> cases taken
    · exact h.moves (.refl s) trivial fun _ => rfl
    · rename_i silent
      refine h.stops rfl rfl rfl (fun user => ?_) fun _ isOff => (h.calm isOff).1
      exact ends ⟨user, by simpa using silent⟩
  case stopAcquire =>
    split_ifs at taken <;> cases taken
    · exact h.moves (.refl s) trivial fun _ => rfl
    · exact h.moves (.take s c) trivial fun _ => rfl
  case stopProbe f =>
    split at taken <;> cases taken
    · exact h.moves (.refl s) trivial fun _ => rfl
    · exact h.moves (.clearStale s) trivial fun _ => rfl
  case stopOwn f =>
    cases taken
    split
    all_goals exact h.moves (.refl s) trivial fun _ => rfl
  case stopAdopt f =>
    split at taken <;> cases taken
    · exact h.moves (.pidFile s _) trivial fun _ => rfl
    · exact h.moves (.clearStale s) trivial fun _ => rfl
  case stopPost f =>
    cases taken
    exact h.moves (.refl s) trivial fun _ => rfl
  case stopWait f =>
    split_ifs at taken <;> cases taken
    · exact h.moves (.release s) trivial fun _ => rfl
    · exact h.moves (.refl s) trivial fun _ => rfl
    · exact h.moves (.clearStale s) trivial fun _ => rfl
  case stopped f n =>
    split at taken <;> cases taken
    · exact h.moves (.refl s) trivial fun _ => rfl
    · refine h.stops rfl rfl rfl (fun user => ?_) fun _ isOff => (h.calm isOff).1
      exact ends ⟨user, rfl⟩
    · exact h.moves (.release s) trivial fun _ => rfl
  case stopRead n =>
    split at taken <;> cases taken
    · rename_i absent
      refine h.stops rfl rfl rfl (fun user => ?_) fun _ isOff => (h.calm isOff).1
      exact ends ⟨user, absent⟩
    · rename_i state present
      refine h.moves (.refl s) ?_ fun isOff => ?_
      · intro user
        rw [if_pos user]
        rfl
      · show GatewayState.enabled (if kind = .stop then _ else _) = false
        split_ifs
        · rfl
        · exact (h.calm isOff).1 state present
  case stopWrite n state =>
    cases taken
    refine h.stops rfl rfl rfl (fun user => ?_) fun _ isOff => ?_
    · obtain ⟨-, quiet⟩ := ends ⟨user, trivial⟩
      refine ⟨fun written file => ?_, quiet⟩
      obtain rfl := Option.some.inj file
      exact writes user
    · intro written file
      obtain rfl := Option.some.inj file
      exact idle isOff
  all_goals cases taken

theorem startStep_off (h : OffInv s) (mine : s.calls c = some call) (safe : s.off = true → ¬ Revives s answer call.pc)
    (taken : startStep s c call answer = some t) : OffInv t := by
  rcases call with ⟨kind, pc⟩
  have idle := fun isOff => h.idle isOff c _ mine
  cases pc <;> simp only [startStep] at taken
  case maybeBackend =>
    cases taken
    split
    all_goals exact h.moves (.refl s) trivial fun _ => rfl
  case maybeRead =>
    split at taken <;> cases taken
    · exact h.moves (.refl s) trivial fun _ => rfl
    · split
      all_goals exact h.moves (.refl s) trivial fun _ => rfl
  case polling =>
    split at taken <;> cases taken
    · exact h.moves (.refl s) trivial fun _ => rfl
    · split
      all_goals exact h.moves (.refl s) trivial fun _ => rfl
  case pollOwner =>
    cases taken
    split
    all_goals exact h.moves (.refl s) trivial fun _ => rfl
  case requireBackend =>
    cases taken
    split
    · exact h.moves (.refl s) (afterStart_writesOff false) fun _ => afterStart_idle false
    · exact h.moves (.refl s) trivial fun _ => rfl
  case acquire =>
    split_ifs at taken <;> cases taken
    · exact h.moves (.refl s) (afterStart_writesOff false) fun _ => afterStart_idle false
    · exact h.moves (.take s c) trivial fun _ => rfl
  case probeAdmin =>
    cases taken
    split
    all_goals exact h.moves (.refl s) trivial fun _ => rfl
  case probeOwn =>
    cases taken
    split
    all_goals exact h.moves (.refl s) trivial fun _ => rfl
  case adopt =>
    split at taken <;> cases taken
    · exact h.moves (.pidFile s _) trivial fun _ => rfl
    · rename_i refused
      exact h.moves (.refl s) trivial fun isOff => absurd refused (safe isOff)
  case failRead =>
    cases taken
    exact h.moves (.refl s) trivial fun isOff => by cases idle isOff
  case failWrite state =>
    cases taken
    exact h.writesState (.release _) (afterStart_writesOff false) fun isOff => by cases idle isOff
  case probeRunning =>
    cases taken
    split
    · exact h.moves (.refl s) trivial fun _ => rfl
    · rename_i silent
      exact h.moves (.refl s) trivial fun isOff => absurd (Bool.eq_false_iff.mpr silent) (safe isOff)
  case probeOwner =>
    cases taken
    split
    · exact h.moves (.refl s) trivial fun _ => rfl
    · rename_i other
      exact h.moves (.refl s) trivial fun isOff => absurd (Bool.eq_false_iff.mpr other) (safe isOff)
  all_goals cases taken

theorem runningStep_off (h : OffInv s) (mine : s.calls c = some call)
    (safe : s.off = true → ¬ Revives s answer call.pc) (taken : runningStep s c call answer = some t) : OffInv t := by
  rcases call with ⟨kind, pc⟩
  have idle := fun isOff => h.idle isOff c _ mine
  cases pc <;> simp only [runningStep] at taken
  case runRead =>
    split at taken
    · rename_i absent
      cases taken
      exact h.moves (.refl s) trivial fun isOff => absurd absent (safe isOff)
    · rename_i state present
      split_ifs at taken with enabled <;> cases taken
      · refine h.moves (.refl s) trivial fun isOff => ?_
        rw [(h.calm isOff).1 state present] at enabled
        cases enabled
      · refine h.moves (.refl s) trivial fun isOff => ?_
        rw [(h.calm isOff).1 state present] at enabled
        cases enabled
      · exact h.moves (.refl s) trivial fun _ => rfl
      · exact h.moves (.refl s) trivial fun _ => rfl
  case runWrite pid state =>
    cases taken
    exact h.writesState (.refl _) trivial fun isOff => ⟨idle isOff, rfl⟩
  case verifyRunning pid =>
    split at taken <;> cases taken
    · exact h.moves (.refl s) trivial fun _ => rfl
    · exact h.moves (.release s) (afterStart_writesOff true) fun _ => afterStart_idle true
  case tlsRead pid reason =>
    cases taken
    refine h.moves (.refl s) trivial fun isOff => ?_
    rcases file : s.file with _ | state
    · exact absurd file (safe isOff)
    · exact (h.calm isOff).1 state file
  case tlsWrite state =>
    cases taken
    exact h.writesState (.release _) (afterStart_writesOff false) fun isOff => ⟨idle isOff, afterStart_idle false⟩
  all_goals cases taken

/-- From these places a call turns the gateway on, and none is left in them while it is off. -/
theorem coldStep_off (h : OffInv s) (mine : s.calls c = some call) (taken : coldStep s c call answer = some t) :
    OffInv t := by
  rcases call with ⟨kind, pc⟩
  have idle := fun isOff => h.idle isOff c _ mine
  cases pc <;> simp only [coldStep] at taken
  case coldRead =>
    cases taken
    exact h.moves (.refl s) trivial fun isOff => by cases idle isOff
  case coldWrite state =>
    cases taken
    exact h.writesState (.refl _) trivial fun isOff => by cases idle isOff
  case spawn f =>
    split at taken
    · split at taken <;> cases taken
      · exact h.moves (.refl s) trivial fun isOff => by cases idle isOff
      · exact h.moves (.leave s _) (ensureAfter_writesOff _ false) fun isOff => by cases idle isOff
    · cases taken
      exact h.put rfl rfl trivial fun isOff => by cases idle isOff
  case await f =>
    split at taken
    · cases taken
      exact h.moves (.refl s) trivial fun isOff => by cases idle isOff
    · cases taken
      exact h.moves (.leave s _) (ensureAfter_writesOff _ false) fun isOff => ensureAfter_idle (idle isOff) false
    · split at taken
      · split at taken <;> cases taken
        · exact h.moves (.refl s) trivial fun isOff => by cases idle isOff
        · exact h.moves (.leave s _) (ensureAfter_writesOff _ true) fun isOff => ensureAfter_idle (idle isOff) true
      · cases taken
  case coldFail state =>
    cases taken
    exact h.writesState (.release _) (afterStart_writesOff false) fun isOff => by cases idle isOff
  case upReload =>
    cases taken
    split
    all_goals exact h.moves (.refl s) trivial fun isOff => by cases idle isOff
  case upWrite =>
    cases taken
    exact h.writesState (.refl _) trivial fun isOff => by cases idle isOff
  case verifyUp state =>
    split at taken <;> cases taken
    · exact h.moves (.refl s) trivial fun isOff => by cases idle isOff
    · exact h.moves (.release s) (afterStart_writesOff true) fun _ => afterStart_idle true
  case upFail state =>
    cases taken
    exact h.writesState (.release _) (afterStart_writesOff false) fun isOff => by cases idle isOff
  all_goals cases taken

theorem reloadStep_off (h : OffInv s) (mine : s.calls c = some call)
    (safe : s.off = true → ¬ Revives s answer call.pc) (taken : reloadStep s c call answer = some t) : OffInv t := by
  rcases call with ⟨kind, pc⟩
  have idle := fun isOff => h.idle isOff c _ mine
  cases pc <;> simp only [reloadStep] at taken
  case reloadProbe r =>
    split at taken <;> cases taken
    · exact h.moves (.refl s) (reloadAfter_writesOff r false) fun isOff => reloadAfter_idle (idle isOff) false
    · split
      all_goals exact h.moves (.refl s) trivial fun isOff => idle isOff
  case reloadOwner r =>
    cases taken
    split
    · exact h.moves (.refl s) trivial fun isOff => idle isOff
    · exact h.moves (.refl s) (reloadAfter_writesOff r false) fun isOff => reloadAfter_idle (idle isOff) false
  case reload r =>
    cases taken
    split
    · exact h.moves (.refl s) trivial fun isOff => idle isOff
    · exact h.moves (.refl s) (reloadAfter_writesOff r true) fun isOff => reloadAfter_idle (idle isOff) true
  case reloadAgain r =>
    cases taken
    exact h.moves (.refl s) (reloadAfter_writesOff r _) fun isOff => reloadAfter_idle (idle isOff) _
  case ensureProbe e =>
    cases taken
    split
    all_goals exact h.moves (.refl s) trivial fun isOff => idle isOff
  case ensureOwner e =>
    cases taken
    exact h.moves (.refl s) (ensureAfter_writesOff e _) fun isOff => ensureAfter_idle (idle isOff) _
  case ensureAcquire e =>
    split_ifs at taken <;> cases taken
    · exact h.moves (.refl s) trivial fun isOff => idle isOff
    · exact h.moves (.refl s) trivial fun isOff => idle isOff
    · exact h.moves (.take s c) trivial fun isOff => idle isOff
  case ensureRecheck e =>
    split at taken <;> cases taken
    · exact h.moves (.refl s) trivial fun isOff => idle isOff
    · rename_i silent
      exact h.moves (.clearStale s) trivial fun isOff => absurd (Bool.eq_false_iff.mpr silent) (safe isOff)
  case ensureRecheckOwner e =>
    cases taken
    exact h.moves (.leave s e) (ensureAfter_writesOff e _) fun isOff => ensureAfter_idle (idle isOff) _
  case ensureBusy e =>
    cases taken
    exact h.moves (.refl s) (ensureAfter_writesOff e _) fun isOff => ensureAfter_idle (idle isOff) _
  all_goals cases taken

theorem advance_off (h : OffInv s) (mine : s.calls c = some call) (guard : Guard s (.advance c answer))
    (taken : advance s c call answer = some t) : OffInv t := by
  obtain ⟨safe, ends⟩ := guard call mine
  unfold advance at taken
  split at taken
  all_goals first
    | exact stopStep_off h mine ends taken
    | exact startStep_off h mine safe taken
    | exact runningStep_off h mine safe taken
    | exact coldStep_off h mine taken
    | exact reloadStep_off h mine safe taken
    | cases taken

/-- A step of another process than the calls. -/
theorem OffInv.outside (h : OffInv s) (file : s'.file = s.file) (calls : s'.calls = s.calls) (off : s'.off = s.off)
    (revived : s'.revived = s.revived) : OffInv s' := by
  refine ⟨?_, ?_, ?_⟩
  · rw [calls]
    exact h.writes
  · rw [off, revived]
    unfold State.FlagOff
    rw [file]
    exact h.calm
  · rw [off, calls]
    exact h.idle

theorem step_off {a : Action} (h : OffInv s) (guard : Guard s a) (taken : step s a = some t) : OffInv t := by
  cases a with
  | begin c kind =>
    simp only [step] at taken
    split at taken <;> cases taken
    -- a start of the user ends the time in which the gateway is off
    have later : OffInv { s with off := s.off && !kind.turnsOn } := by
      refine ⟨h.writes, fun isOff => ?_, fun isOff => ?_⟩
      · exact h.calm (Bool.and_eq_true_iff.mp isOff).1
      · exact h.idle (Bool.and_eq_true_iff.mp isOff).1
    cases kind <;> exact later.moves (.refl _) trivial fun _ => rfl
  | advance c answer =>
    simp only [step] at taken
    split at taken
    · cases taken
    · rename_i call mine
      exact advance_off h mine guard taken
  | abandon c =>
    simp only [step] at taken
    split at taken
    · cases taken
    · split_ifs at taken <;> cases taken
      · exact h.moves (.release s) trivial fun _ => rfl
      · exact h.moves (.refl s) trivial fun _ => rfl
  | writesPid p =>
    simp only [step] at taken
    split at taken <;> cases taken
    exact h.outside rfl rfl rfl rfl
  | listens _ | exits _ _ | foreign _ | stranger _ _ =>
    cases taken
    exact h.outside rfl rfl rfl rfl

theorem initial_off (file : Option GatewayState) (pidFile : Option Pid) : OffInv (.initial file pidFile) :=
  ⟨fun _ _ theirs => (by cases theirs), fun isOff => (by cases isOff), fun isOff => (by cases isOff)⟩

/-- While no call turns the gateway on behind a stop of the user, it stays off. -/
theorem guarded_off_stays {file : Option GatewayState} {pidFile : Option Pid} {as : List Action}
    (run : Run step Guard (.initial file pidFile) as s) : OffStaysOff s :=
  (run.invariant (initial_off file pidFile) fun _ _ _ h ok taken => step_off h ok taken).calm

theorem guard_of (mine : s.calls c = some call) (safe : ¬ Revives s answer call.pc)
    (ends : Returns s call → FlagAtReturn s call.pc ∧
      ∀ d other, d ≠ c → s.calls d = some other → other.pc.turnsOn = false) : Guard s (.advance c answer) := by
  intro other theirs
  obtain rfl := Option.some.inj (mine.symm.trans theirs)
  exact ⟨fun _ => safe, ends⟩

/-- The user turns the gateway off, and `maybe_start_gateway` leaves it off. -/
theorem guarded_off_stays_session : ∃ s, Run step Guard (.initial (some (.wanted none)) none)
    (.begin 0 .stop :: List.replicate 5 (.advance 0 .yes) ++ [.begin 1 .maybeStart, .advance 1 .yes,
    .advance 1 .yes]) s ∧
    s.off = true ∧ s.FlagOff := by
  have run : ∃ s, Run step Guard (.initial (some (.wanted none)) none)
      (.begin 0 .stop :: List.replicate 5 (.advance 0 .yes) ++ [.begin 1 .maybeStart, .advance 1 .yes,
      .advance 1 .yes]) s ∧
      s.off = true := by
    refine ⟨_, .cons trivial rfl <| .cons (guard_of rfl id ?_) rfl <| .cons (guard_of rfl id ?_) rfl <|
      .cons (guard_of rfl id ?_) rfl <| .cons (guard_of rfl id ?_) rfl <| .cons (guard_of rfl id ?_) rfl <|
      .cons trivial rfl <| .cons (guard_of rfl id ?_) rfl <| .cons (guard_of rfl id ?_) rfl <| .refl _, rfl⟩
    · exact fun returns => by cases returns.2
    · exact fun returns => by cases returns.2
    · exact fun returns => by cases returns.2
    · exact fun returns => by cases returns.2
    · refine fun _ => ⟨rfl, fun d other far theirs => ?_⟩
      simp [State.setPc, State.put, State.clearStale, State.pidAlive, State.initial, far] at theirs
    · exact fun returns => by cases returns.1
    · exact fun returns => by cases returns.1
  obtain ⟨s, run, off⟩ := run
  exact ⟨s, run, off, (guarded_off_stays run off).1⟩

/-! ## The supervisor turns the gateway on again -/

/-- The supervisor of `run_gateway_foreground` has started a master, the user turns the gateway off
and the supervisor finds no master. -/
theorem supervisor_revives_gateway :
    ¬ ∀ file pidFile as s, Run step anyStep (.initial file pidFile) as s → OffStaysOff s := by
  intro all
  let supervised : List Action := .begin 0 (.supervise false) :: List.replicate 7 (.advance 0 .yes) ++
    [.listens 0, .writesPid 0, .advance 0 .yes, .advance 0 .no, .advance 0 .yes, .advance 0 .yes]
  let turnedOff : List Action := .begin 1 .stop :: List.replicate 4 (.advance 1 .yes) ++ [.exits 0 true] ++
    List.replicate 4 (.advance 1 .yes)
  let polled : List Action := List.replicate 7 (.advance 0 .yes)
  have ran : ∃ s, exec step (.initial none none) (supervised ++ turnedOff ++ polled) = some s ∧
      s.off = true ∧ s.file = some (.wanted none) := ⟨_, rfl, rfl, rfl⟩
  obtain ⟨s, ran, off, file⟩ := ran
  cases (all _ _ _ s (.of_exec ran) off).1 _ file

end LocalWebAccess.GatewayService
