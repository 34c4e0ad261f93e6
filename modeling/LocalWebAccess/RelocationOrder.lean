import LocalWebAccess.WorkspaceMigrate

/-!
# The order of a relocation

A resumption that finds a snapshot in the journal skips the backup, also where the journal has it from the
exception handler or from an earlier migration. Where every resumption finds a snapshot that this migration has
backed up, or none and no later phase, the tree is only moved after a backup and after it has been stopped.
-/
namespace LocalWebAccess.WorkspaceMigrate
open GuardedRuns

variable {s t : State} {p : Process} {x : MigrateSnapshot}

/-- What a resumption finds in the journal has been captured by this migration, which has finished a backup. -/
def Kept (s : State) : Action → Prop
  | .call true _ _ => ∀ j ∈ (s.findJournal true).2, j.snapshot.captured = true ∨ j.phase.late = true →
      s.backedUp = true ∧ s.captured = some j.snapshot
  | _ => True

instance (s : State) (a : Action) : Decidable (Kept s a) :=
  match a with
  | .call true _ _ => inferInstanceAs (Decidable (∀ j ∈ (s.findJournal true).2,
      j.snapshot.captured = true ∨ j.phase.late = true → s.backedUp = true ∧ s.captured = some j.snapshot))
  | .call false _ _ => .isTrue trivial
  | .act _ => .isTrue trivial

/-- At a rename a backup has been finished and the workspace stopped, there is at most one, and what is restored
has been captured before the first stop. -/
structure Ordered (s : State) : Prop where
  moved : ∀ p, s.process = some p → p.pc = .renaming →
    s.backedUp = true ∧ (p.forceQuiesce = true ∨ p.quiesced = true)
  once : s.renames ≤ 1
  restored : ∀ p, s.process = some p → p.pc = .restoring →
    ∃ x, s.held = some (some x) ∧ p.snapshot.restoreInstanceIds = x.restoreInstanceIds

@[simp]
theorem enter_ws : (enter s p).ws = p.ws := by
  fun_cases enter s p <;> rfl

@[simp]
theorem enter_journal : (enter s p).journal = p.journal := by
  fun_cases enter s p <;> rfl

theorem save_of_journal {j : Journal} (journal : p.journal = some j) : s.save p j = (s.writeJournal p.ws j).put p := by
  unfold State.save
  rw [← journal]

theorem leave_eq (j : Journal) (next : MigratePhase) : leave s p j next =
    (s.writeJournal p.ws j).put (enter s { p with phase := next, journal := some j }) := by
  unfold leave
  rw [save_of_journal enter_journal, enter_ws]

/-! ## After the workspace has first been stopped -/

/-- Where a call may stand after the workspace has been stopped with a snapshot. -/
def Process.Here (tree : Place) (x : MigrateSnapshot) (p : Process) : Prop :=
  match p.pc with
  | .savingPreflight | .capturing | .backingUp | .exporting => False
  | .preflight | .opening => p.resume = true ∧ ∃ j, p.journal = some j ∧ j.snapshot = x
  | .savingQuiesce | .savingMoving | .renaming => p.forceQuiesce = true ∨ p.quiesced = true
  | .renamed => tree = .new
  | _ => True

structure Process.Later (tree : Place) (x : MigrateSnapshot) (p : Process) : Prop where
  snapshot : p.snapshot = x
  phase : p.phase ≠ .preflight
  here : p.Here tree x

structure Settled (s : State) (x : MigrateSnapshot) : Prop where
  held : s.held = some (some x)
  begun : s.begun = true
  captured : s.captured = some x
  nonblank : x.captured = true
  backedUp : s.backedUp = true
  journals : ∀ place j, s.journals place = some j → j.snapshot = x ∧ j.phase ≠ .preflight
  there : ∃ j, s.journals s.tree = some j
  process : ∀ p, s.process = some p → p.Later s.tree x

namespace Settled

theorem put (h : Settled s x) (later : p.Later s.tree x) : Settled (s.put p) x :=
  { h with process := fun _ same => Option.some.inj same ▸ later }

theorem writeJournal (h : Settled s x) {j : Journal} (snapshot : j.snapshot = x) (phase : j.phase ≠ .preflight)
    (place : Place) : Settled (s.writeJournal place j) x := by
  refine { h with journals := fun place' j' found => ?_, there := ?_ }
  · by_cases same : place' = place
    · have written : Function.update s.journals place (some j) place' = some j' := found
      rw [same, Function.update_self] at written
      obtain rfl : j = j' := Option.some.inj written
      exact ⟨snapshot, phase⟩
    · exact h.journals place' j' ((Function.update_of_ne same ..).symm.trans found)
  · by_cases same : s.tree = place
    · exact ⟨j, same ▸ Function.update_self ..⟩
    · obtain ⟨j', found⟩ := h.there
      exact ⟨j', (Function.update_of_ne same ..).trans found⟩

theorem hold (h : Settled s x) : Settled s.hold x := by
  refine { h with held := ?_ }
  unfold State.hold
  rw [h.held]
  rfl

theorem save (h : Settled s x) {j : Journal} (snapshot : j.snapshot = x) (phase : j.phase ≠ .preflight)
    (later : ({ p with journal := some j } : Process).Later s.tree x) : Settled (s.save p j) x :=
  (h.writeJournal snapshot phase p.ws).put later

/-- A block is entered with the snapshot; a move, only after a stop or again with a stop. -/
theorem later_enter {tree : Place} (snapshot : p.snapshot = x) (nonblank : x.captured = true)
    (phase : p.phase ≠ .preflight)
    (journal : p.phase = .backup → p.resume = true ∧ ∃ j, p.journal = some j ∧ j.snapshot = x)
    (stopped : p.phase = .move → p.resume = false → p.forceQuiesce = true ∨ p.quiesced = true)
    (same : s.tree = tree) : (enter s p).Later tree x := by
  fun_cases enter s p
  all_goals refine ⟨?_, ?_, ?_⟩
  all_goals simp_all [Process.Here, State.newHasConfig]
  case case13.refine_3 => cases p.resume <;> exact trivial

theorem leave (h : Settled s x) {j : Journal} (snapshot : p.snapshot = x) (same : j.snapshot = x)
    (phase : j.phase ≠ .preflight) {next : MigratePhase} (onward : next ≠ .preflight ∧ next ≠ .backup)
    (stopped : next = .move → p.forceQuiesce = true ∨ p.quiesced = true) : Settled (leave s p j next) x := by
  rw [leave_eq]
  refine (h.writeJournal same phase p.ws).put ?_
  refine later_enter snapshot h.nonblank onward.1 ?_ ?_ rfl
  · exact fun backup => absurd backup onward.2
  · exact fun move _ => stopped move

theorem stop (h : Settled s x) (snapshot : p.snapshot = x) (phase : p.phase ≠ .preflight) {clean : Bool} {pc : Pc}
    (next : pc = .savingQuiesce ∨ pc = .savingMoving) : Settled (stopped s p clean pc) x := by
  unfold stopped
  refine h.put ⟨snapshot, phase, ?_⟩
  unfold Process.Here
  dsimp only
  by_cases onward : clean || p.forceQuiesce
  · rw [if_pos onward]
    have either : p.forceQuiesce = true ∨ (p.quiesced || clean) = true := by
      simp only [Bool.or_eq_true] at onward ⊢
      exact onward.symm.imp_right .inr
    obtain rfl | rfl := next <;> exact either
  · rw [if_neg onward]
    exact trivial

theorem rename (h : Settled s x) (tree : s.tree = .old) : Settled s.rename x := by
  refine { h with journals := fun place j found => ?_, there := ?_, process := fun p there => ?_ }
  · unfold State.rename at found
    dsimp only at found
    split_ifs at found
    exact h.journals _ j found
  · obtain ⟨j, found⟩ := h.there
    exact ⟨j, by rw [← found, tree]; rfl⟩
  · obtain ⟨snapshot, phase, here⟩ := h.process p there
    refine ⟨snapshot, phase, ?_⟩
    unfold Process.Here at here ⊢
    split <;> simp_all [State.rename]

theorem procStep (h : Settled s x) (there : s.process = some p) {a : Act} (next : procStep s p a = some t) :
    Settled t x := by
  obtain ⟨snapshot, phase, here⟩ := h.process p there
  unfold Process.Here at here
  revert next
  fun_cases WorkspaceMigrate.procStep s p a
  all_goals intro next
  all_goals first | cases next; done | obtain rfl := Option.some.inj next
  case case5 | case8 | case14 | case15 | case17 | case19 | case21 | case24 | case40 | case41 | case43 | case46
      | case47 =>
    exact h.put ⟨snapshot, phase, trivial⟩
  case case1 pc either =>
    rw [pc] at here
    rcases either with initial | initial
    · simp [here.1] at initial
    · exact absurd initial phase
  case case2 pc _ =>
    rw [pc] at here
    exact h.put ⟨snapshot, phase, here⟩
  case case3 pc =>
    rw [pc] at here
    exact here.elim
  case case4 pc =>
    rw [pc] at here
    refine h.put (later_enter snapshot h.nonblank phase ?_ ?_ rfl)
    · exact fun _ => here
    · exact fun _ initial => by simp [here.1] at initial
  case case9 | case16 | case18 | case20 | case22 =>
    exact h.leave snapshot snapshot (by simp [Process.entry]) (by decide) (by simp)
  case case10 pc =>
    rw [pc] at here
    exact h.leave snapshot snapshot (by simp [Process.entry]) (by decide) fun _ => here
  case case11 pc =>
    rw [pc] at here
    exact h.save snapshot (by simp [Process.entry]) ⟨snapshot, phase, here⟩
  case case12 pc tree => exact (h.rename tree).put ⟨snapshot, phase, rfl⟩
  case case23 | case25 => exact h.save snapshot (by simp [Process.entry]) ⟨snapshot, by simp [phase], trivial⟩
  case case26 pc =>
    have written : Settled (s.writeJournal p.ws (p.entry p.phase)) x := h.writeJournal snapshot phase p.ws
    exact written.put ⟨snapshot, phase, trivial⟩
  case case33 capturing =>
    rw [capturing.1] at here
    exact here.elim
  case case35 pc =>
    rw [pc] at here
    exact here.elim
  case case37 => exact h.stop snapshot phase (.inl rfl)
  case case38 => exact h.stop snapshot phase (.inr rfl)
  case case48 => exact { h with process := fun _ there => nomatch there }

end Settled

/-! ## Before -/

/-- The last snapshot is the one of the call, and a backup has been finished. -/
def Ready (s : State) (p : Process) : Prop := s.backedUp = true ∧ s.captured = some p.snapshot

/-- No journal has a phase after the backup. -/
def Fresh (s : State) : Prop := ∀ j, s.journals .old = some j → j.phase.late = false

/-- A resumption has no snapshot but one that is ready. -/
def Sound (s : State) (p : Process) : Prop := p.resume = true → p.snapshot.captured = true → Ready s p

/-- The call has its snapshot from the journal. -/
def Process.Known (p : Process) : Prop := ∀ j, p.journal = some j → j.snapshot = p.snapshot

/-- Where a call may stand before the workspace is stopped. A later phase can only be one that an earlier
migration has left, and then nothing has been captured. -/
def Before (s : State) (p : Process) : Prop :=
  match p.pc with
  | .preflight => p.Known ∧ Sound s p ∧ (p.phase.late = true → s.captured = none) ∧
      (p.resume = true → p.phase.late = false ∧ Fresh s)
  | .savingPreflight => Sound s p ∧ (p.phase.late = true → s.captured = none)
  | .opening => p.Known ∧ Sound s p ∧ p.phase = .backup ∧ Fresh s
  | .capturing => p.phase = .backup ∧ Fresh s
  | .backingUp => s.captured = some p.snapshot ∧ p.phase = .backup ∧ Fresh s
  | .exporting | .savingBackup => Ready s p ∧ p.phase = .backup ∧ Fresh s
  | .quiescing => Ready s p ∧ p.phase = .quiesce ∧
      ∃ j, s.journals .old = some j ∧ j.snapshot = p.snapshot ∧ j.phase = .backup
  | .handling => p.phase.late = true → s.captured = none
  | .returned _ => True
  | _ => False

structure Early (s : State) : Prop where
  held : s.held = none
  tree : s.tree = .old
  new : s.journals .new = none
  nonblank : ∀ x, s.captured = some x → x.captured = true
  stale : ∀ j, s.journals .old = some j → j.phase.late = true → s.captured = none
  process : ∀ p, s.process = some p → s.begun = true ∧ p.ws = .old ∧ Before s p

theorem backup_of_early {phase : MigratePhase} (early : phase.late = false) (further : phase ≠ .preflight) :
    phase = .backup := by
  cases phase with
  | backup => rfl
  | preflight => exact absurd rfl further
  | _ => cases early

/-- Before the first stop, a later phase has not been reached by this migration. -/
theorem stale_of_before (before : Before s p) (pc : p.pc ≠ .quiescing) (active : ∀ ok, p.pc ≠ .returned ok)
    (late : p.phase.late = true) : s.captured = none := by
  unfold Before at before
  split at before
  all_goals simp_all [MigratePhase.late]

theorem fresh_written {j : Journal} {place : Place} (old : place = .old) (early : j.phase.late = false) :
    Fresh (s.writeJournal place j) := by
  subst old
  exact fun _ found => Option.some.inj found ▸ early

namespace Early

theorem put (h : Early s) (begun : s.begun = true) (ws : p.ws = .old) (before : Before s p) : Early (s.put p) :=
  { h with process := fun _ same => Option.some.inj same ▸ ⟨begun, ws, before⟩ }

/-- A journal of a later phase is only written where nothing has been captured. -/
theorem file (h : Early s) {j : Journal} {place : Place} (old : place = .old)
    (stale : j.phase.late = true → s.captured = none) (begun : s.begun = true) (ws : p.ws = .old)
    (before : Before (s.writeJournal place j) p) : Early ((s.writeJournal place j).put p) := by
  subst old
  refine { h with new := h.new, stale := fun j' found late => ?_, process := fun q same => ?_ }
  · obtain rfl : j = j' := Option.some.inj found
    exact stale late
  · obtain rfl : p = q := Option.some.inj same
    exact ⟨begun, ws, before⟩

/-- The backup is entered with a snapshot that is ready or to be captured. -/
theorem before_enter (known : p.Known) (sound : Sound s p) (backup : p.phase = .backup) (fresh : Fresh s) :
    Before s (enter s p) := by
  fun_cases enter s p
  all_goals try simp_all only [reduceCtorEq]; done
  case case2 j found reused =>
    have resumed : p.resume = true ∧ p.journal = some j := by
      split_ifs at found with resume
      exact ⟨resume, found⟩
    have same := known j resumed.2
    rw [same] at reused ⊢
    exact ⟨sound resumed.1 reused, backup, fresh⟩
  case case3 => exact ⟨backup, fresh⟩
  case case4 => exact ⟨backup, fresh⟩

/-- The first stop settles what is restored. -/
theorem hold (h : Early s) (there : s.process = some p) (pc : p.pc = .quiescing) : Settled s.hold p.snapshot := by
  obtain ⟨begun, -, before⟩ := h.process p there
  unfold Before at before
  rw [pc] at before
  obtain ⟨⟨backedUp, captured⟩, phase, j, found, snapshot, backup⟩ := before
  refine ⟨?_, begun, captured, h.nonblank _ captured, backedUp, fun place j' found' => ?_, ?_, fun q same => ?_⟩
  · unfold State.hold
    rw [h.held, captured]
    rfl
  · have old : place = .old := by
      cases place
      · rfl
      · exact nomatch h.new.symm.trans found'
    subst old
    obtain rfl : j = j' := Option.some.inj (found.symm.trans found')
    exact ⟨snapshot, by simp [backup]⟩
  · exact ⟨j, by rw [← found, ← h.tree]; rfl⟩
  · obtain rfl : p = q := Option.some.inj (there.symm.trans same)
    refine ⟨rfl, by simp [phase], ?_⟩
    unfold Process.Here
    rw [pc]
    trivial

theorem procStep (h : Early s) (there : s.process = some p) (pc : p.pc ≠ .quiescing) {a : Act}
    (next : procStep s p a = some t) : Early t := by
  obtain ⟨begun, ws, before⟩ := h.process p there
  unfold Before at before
  revert next
  fun_cases WorkspaceMigrate.procStep s p a
  all_goals intro next
  all_goals first | cases next; done | obtain rfl := Option.some.inj next
  case case1 at' either =>
    rw [at'] at before
    obtain ⟨-, sound, stale, -⟩ := before
    refine h.put begun ws ?_
    unfold Before
    dsimp only
    split_ifs
    · exact ⟨sound, stale⟩
    · exact stale
  case case2 at' either =>
    rw [at'] at before
    obtain ⟨known, sound, -, resumed⟩ := before
    obtain ⟨resume, phase⟩ := not_or.mp either
    obtain ⟨early, fresh⟩ := resumed ((Bool.not_eq_false _).mp resume)
    have backup : p.phase = .backup := backup_of_early early phase
    refine h.put begun ?_ ⟨known, sound, backup, fresh⟩
    rw [backup]
    exact ws
  case case3 at' =>
    rw [at'] at before
    refine h.file ws nofun begun ws ⟨?_, before.1, rfl, ?_⟩
    · exact fun j same => Option.some.inj same ▸ rfl
    · exact fresh_written ws rfl
  case case4 at' =>
    rw [at'] at before
    obtain ⟨known, sound, backup, fresh⟩ := before
    refine h.put begun ?_ (before_enter known sound backup fresh)
    rw [enter_ws]
    exact ws
  case case8 at' =>
    rw [at'] at before
    exact h.put begun ws before
  case case9 at' =>
    rw [at'] at before
    rw [leave_eq]
    refine h.file ws nofun begun ws ⟨before.1, rfl, p.entry .backup, ?_, rfl, rfl⟩
    exact ws ▸ Function.update_self ..
  case case26 at' =>
    rw [at'] at before
    exact h.file ws before begun ws trivial
  case case33 x capturing =>
    rw [capturing.1] at before
    refine { h with nonblank := ?_, stale := ?_, process := ?_ }
    · exact fun x' same => Option.some.inj same ▸ capturing.2
    · exact fun j found late => nomatch late.symm.trans (before.2 j found)
    · exact fun q same => Option.some.inj same ▸ ⟨begun, ws, rfl, before⟩
  case case35 at' =>
    rw [at'] at before
    exact { h with process := fun q same => Option.some.inj same ▸ ⟨begun, ws, ⟨rfl, before.1⟩, before.2⟩ }
  case case37 at' => exact absurd at' pc
  case case46 => exact h.put begun ws trivial
  case case47 active _ =>
    have stale := stale_of_before (h.process p there).2.2 pc active
    exact h.put begun ws stale
  case case48 => exact { h with process := fun _ there => nomatch there }
  all_goals simp_all only

end Early

theorem captured_empty : MigrateSnapshot.empty.captured = false := by decide

/-! ## Calls -/

/-- What a call changes: the first one may be refused at once. -/
theorem call_cases {resume forceQuiesce preflightOk : Bool}
    (next : step s (.call resume forceQuiesce preflightOk) = some t) :
    resume = s.begun ∧ ∃ process, t = { s with begun := true, process := process } ∧
      ∀ p, process = some p → p = start s resume forceQuiesce preflightOk := by
  unfold step at next
  dsimp only at next
  split_ifs at next with refused blocked
  · obtain rfl := Option.some.inj next
    exact ⟨not_not.mp (not_or.mp refused).1, none, rfl, fun _ there => nomatch there⟩
  · obtain rfl := Option.some.inj next
    exact ⟨not_not.mp (not_or.mp refused).1, _, rfl, fun _ there => (Option.some.inj there).symm⟩

theorem Early.findJournal (h : Early s) (resume : Bool) : s.findJournal resume = (.old, s.journals .old) := by
  unfold State.findJournal
  rw [h.new, ite_self]
  split
  case h_1 j found => rw [found]
  case h_2 missing => rw [missing]

theorem Early.call (h : Early s) {resume forceQuiesce preflightOk : Bool}
    (kept : Kept s (.call resume forceQuiesce preflightOk))
    (next : step s (.call resume forceQuiesce preflightOk) = some t) : Early t := by
  obtain ⟨-, process, rfl, started⟩ := call_cases next
  refine { h with process := fun p there => ⟨rfl, ?_⟩ }
  obtain rfl := started p there
  have ready : resume = true → ∀ j, s.journals .old = some j → j.snapshot.captured = true ∨ j.phase.late = true →
      s.backedUp = true ∧ s.captured = some j.snapshot := by
    intro resumed j found
    subst resumed
    exact kept j (by rw [h.findJournal]; exact found)
  unfold start
  rw [h.findJournal]
  dsimp only
  cases found : s.journals .old with
  | none =>
    refine ⟨rfl, ?_⟩
    unfold Before
    refine ⟨?_, fun _ captured => ?_, ?_, fun _ => ⟨rfl, fun j there => ?_⟩⟩
    · exact fun _ same => nomatch same
    · exact nomatch captured_empty.symm.trans captured
    · exact fun late => nomatch late
    · exact nomatch found.symm.trans there
  | some j =>
    refine ⟨rfl, ?_⟩
    unfold Before
    refine ⟨fun _ same => Option.some.inj same ▸ rfl, ?_, h.stale j found, fun resumed => ?_⟩
    · exact fun resumed captured => ready resumed j found (.inl captured)
    · have early : j.phase.late = false := by
        cases late : j.phase.late with
        | false => rfl
        | true => exact nomatch (h.stale j found late).symm.trans (ready resumed j found (.inr late)).2
      exact ⟨early, fun j' found' => Option.some.inj (found.symm.trans found') ▸ early⟩

theorem Settled.findJournal (h : Settled s x) :
    ∃ place j, s.findJournal true = (place, some j) ∧ s.journals place = some j := by
  unfold State.findJournal
  split
  case h_1 j found => exact ⟨.old, j, rfl, found⟩
  case h_2 missing =>
    obtain ⟨j, found⟩ := h.there
    cases tree : s.tree with
    | old =>
      rw [tree, missing] at found
      cases found
    | new =>
      rw [tree] at found
      rw [if_pos rfl, found]
      exact ⟨.new, j, rfl, found⟩

theorem Settled.call (h : Settled s x) {resume forceQuiesce preflightOk : Bool}
    (next : step s (.call resume forceQuiesce preflightOk) = some t) : Settled t x := by
  obtain ⟨resumed, process, rfl, started⟩ := call_cases next
  rw [h.begun] at resumed
  subst resumed
  refine { h with begun := rfl, process := fun p there => ?_ }
  obtain rfl := started p there
  obtain ⟨place, j, finds, found⟩ := h.findJournal
  obtain ⟨snapshot, phase⟩ := h.journals place j found
  unfold start
  rw [finds]
  exact ⟨snapshot, phase, rfl, j, rfl, snapshot⟩

/-! ## Runs -/

/-- The tree is moved once, from the old root to the new one. -/
theorem renames_procStep {a : Act} (next : procStep s p a = some t) :
    (t.tree = s.tree ∧ t.renames = s.renames) ∨ (s.tree = .old ∧ t.tree = .new ∧ t.renames = s.renames + 1) := by
  revert next
  fun_cases procStep s p a
  all_goals intro next
  all_goals first | cases next; done | obtain rfl := Option.some.inj next
  case case12 tree => exact .inr ⟨tree, rfl, rfl⟩
  all_goals exact .inl ⟨rfl, rfl⟩

structure Inv (s : State) : Prop where
  order : Early s ∨ ∃ x, Settled s x
  renames : s.renames = if s.tree = .new then 1 else 0

theorem Initial.inv (h : Initial s) : Inv s where
  order := by
    refine .inl ⟨h.held, h.tree, h.new, ?_, fun _ _ _ => h.captured, ?_⟩
    · exact fun x same => nomatch h.captured.symm.trans same
    · exact fun p same => nomatch h.process.symm.trans same
  renames := by rw [h.renames, h.tree]; rfl

theorem Inv.act (h : Inv s) {a : Act} (next : step s (.act a) = some t) : Inv t := by
  unfold step at next
  dsimp only at next
  split at next
  case h_1 => cases next
  case h_2 p there =>
    constructor
    · obtain early | ⟨x, settled⟩ := h.order
      · split_ifs at next with stops
        · have before := (early.process p there).2.2
          obtain stops | again := stops
          · exact .inr ⟨p.snapshot, (early.hold there stops).procStep there next⟩
          · unfold Before at before
            rw [again] at before
            exact before.elim
        · exact .inl (early.procStep there (fun stops' => stops (.inl stops')) next)
      · split_ifs at next with stops
        · exact .inr ⟨x, settled.hold.procStep there next⟩
        · exact .inr ⟨x, settled.procStep there next⟩
    · have same : ∀ u : State, u.tree = s.tree → u.renames = s.renames → procStep u p a = some t →
          t.renames = if t.tree = .new then 1 else 0 := by
        intro u tree renames next
        obtain ⟨tree', renames'⟩ | ⟨old, new, more⟩ := renames_procStep next
        · rw [renames', tree', tree, renames, h.renames]
        · rw [more, new, renames, h.renames, ← tree, old]
          rfl
      split_ifs at next with stops
      · exact same s.hold rfl rfl next
      · exact same s rfl rfl next

theorem Inv.call (h : Inv s) {resume forceQuiesce preflightOk : Bool}
    (kept : Kept s (.call resume forceQuiesce preflightOk))
    (next : step s (.call resume forceQuiesce preflightOk) = some t) : Inv t := by
  constructor
  · obtain early | ⟨x, settled⟩ := h.order
    · exact .inl (early.call kept next)
    · exact .inr ⟨x, settled.call next⟩
  · obtain ⟨-, process, rfl, -⟩ := call_cases next
    exact h.renames

theorem Inv.onward (h : Inv s) {a : Action} (kept : Kept s a) (next : step s a = some t) : Inv t := by
  cases a with
  | call => exact h.call kept next
  | act => exact h.act next

theorem Inv.ordered (h : Inv s) : Ordered s where
  moved p there pc := by
    obtain early | ⟨x, settled⟩ := h.order
    · have before := (early.process p there).2.2
      unfold Before at before
      rw [pc] at before
      exact before.elim
    · have here := (settled.process p there).here
      unfold Process.Here at here
      rw [pc] at here
      exact ⟨settled.backedUp, here⟩
  once := by
    rw [h.renames]
    split_ifs <;> decide
  restored p there pc := by
    obtain early | ⟨x, settled⟩ := h.order
    · have before := (early.process p there).2.2
      unfold Before at before
      rw [pc] at before
      exact before.elim
    · exact ⟨x, settled.held, by rw [(settled.process p there).snapshot]⟩

/-- In a run whose resumptions go on from no snapshot and no later phase, or from the snapshot that this
migration has last captured, after a backup, the tree is moved at most once, and after a backup and a stop. What
is restored has been captured before the first stop. -/
theorem relocation_ordered {as : List Action} (initial : Initial s) (run : Run step Kept s as t) : Ordered t :=
  (run.invariant (P := Inv) initial.inv fun _ _ _ h => h.onward).ordered

/-! ## Two runs -/

/-- A workspace that has not been relocated. -/
def resting : State :=
  { tree := .old
    config := true
    journals := fun _ => none
    process := none
    begun := false
    captured := none
    backedUp := false
    held := none
    renames := 0 }

theorem resting_initial : Initial resting := ⟨rfl, rfl, rfl, rfl, rfl, rfl, rfl, rfl⟩

def sampled : MigrateSnapshot := ⟨["web"], [("web", "running")], [], ["manager"], [], "2024-05-01T10:00:00"⟩

/-- The workspace cannot be stopped at first. -/
def stoppedLater : List Action :=
  [.call false false true, .act .proceed, .act .proceed, .act .proceed, .act (.captured sampled), .act (.backedUp "b"),
    .act .proceed, .act .proceed, .act (.quiesced false), .act .proceed,
    .call true false true, .act .proceed, .act .proceed, .act (.quiesced true), .act .proceed, .act (.quiesced true),
    .act .proceed]

theorem relocation_ordered_later : ∃ t, Run step Kept resting stoppedLater t ∧ Ordered t ∧
    ∃ p, t.process = some p ∧ p.pc = .renaming ∧ p.forceQuiesce = false := by
  obtain ⟨t, ran, p, there, pc, unforced⟩ : ∃ t, exec (Run.guarded step Kept) resting stoppedLater = some t ∧
      ∃ p, t.process = some p ∧ p.pc = .renaming ∧ p.forceQuiesce = false := ⟨_, rfl, _, rfl, rfl, rfl⟩
  have run := Run.of_guarded ran
  exact ⟨t, run, relocation_ordered resting_initial run, p, there, pc, unforced⟩

/-- The backup fails after the snapshot, which the exception handler writes into the journal. -/
def backupSkipped : List Action :=
  [.call false false true, .act .proceed, .act .proceed, .act .proceed, .act (.captured sampled), .act .fail,
    .act .proceed,
    .call true false true, .act .proceed, .act .proceed, .act .proceed, .act (.quiesced true), .act .proceed,
    .act (.quiesced true), .act .proceed]

theorem moved_without_backup :
    ¬∀ (s t : State) (as : List Action), Initial s → Run step anyStep s as t → Ordered t := by
  intro all
  obtain ⟨t, ran, p, there, pc, missing⟩ : ∃ t, exec step resting backupSkipped = some t ∧
      ∃ p, t.process = some p ∧ p.pc = .renaming ∧ t.backedUp = false := ⟨_, rfl, _, rfl, rfl, rfl⟩
  have moved := (all resting t backupSkipped resting_initial (.of_exec ran)).moved p there pc
  exact nomatch missing.symm.trans moved.1

end LocalWebAccess.WorkspaceMigrate
