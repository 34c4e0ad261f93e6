import LocalWebAccess.GuardedRuns
import Mathlib.Data.Nat.Notation

/-!
# The revision of an instance

Operations on one instance by several processes, cut at the points where another
process may come in between: the read of the revision, `instance_lock`, the
change of source or image, the release and the CAS. Updates hold the import
lock of the workspace throughout and change the content in the lock but bump the
revision behind it; a rebuild observes the revision before it takes the lock and
bumps inside; a rollback does both inside; `start`, `restart` and their like
check an expected revision and bump nothing.
-/
namespace LocalWebAccess.RevisionCounter
open GuardedRuns

inductive Kind where
  | update
  | rebuild
  | rollback
  | plain
  | reader
  deriving DecidableEq, Repr

/-- The operations that call `cas_increment_revision`. -/
def Kind.bumps : Kind → Bool
  | update | rebuild | rollback => true
  | plain | reader => false

inductive Phase where
  | called
  | entered
  | observed
  | locked
  | changed
  | released
  deriving DecidableEq, Repr

namespace Phase

def holds : Phase → Bool
  | locked | changed => true
  | _ => false

/-- The content is changed and the revision is not bumped yet. -/
def pending : Phase → Bool
  | changed | released => true
  | _ => false

end Phase

/-- The phase from which an operation takes the instance lock for its change. -/
def Kind.waits : Kind → Phase
  | update | rebuild => .observed
  | _ => .called

structure Op where
  kind : Kind
  /-- `expected_revision`, with the number of changes made when the caller has read it. -/
  expected : Option (ℕ × ℕ)
  /-- The revision that the CAS starts from. -/
  base : ℕ
  phase : Phase

structure State (Content : Type) where
  rev : ℕ
  content : Content
  changes : ℕ
  lock : Option ℕ
  activity : Option ℕ
  ops : ℕ → Option Op
  /-- What readers have seen who held the lock. -/
  observations : List (ℕ × Content)
  /-- For each `revision_conflict`, whether its operation had changed the content. -/
  conflicts : List Bool
  /-- For each change under an expected revision, the changes made when the caller has read it
  and those made when the change was applied. -/
  applied : List (ℕ × ℕ)

variable {Content : Type}

def start (rev : ℕ) (content : Content) : State Content where
  rev := rev
  content := content
  changes := 0
  lock := none
  activity := none
  ops := fun _ => none
  observations := []
  conflicts := []
  applied := []

inductive Action (Content : Type) where
  | call (p : ℕ) (kind : Kind) (expects : Bool)
  | enter (p : ℕ)
  | precheck (p : ℕ)
  | observe (p : ℕ)
  | lock (p : ℕ)
  | look (p : ℕ)
  | change (p : ℕ) (content : Content)
  | release (p : ℕ)
  | bump (p : ℕ)
  | fail (p : ℕ)

namespace State

def setOp (s : State Content) (p : ℕ) (op : Op) : State Content :=
  { s with ops := Function.update s.ops p (some op) }

/-- The operation ends and holds no lock any more. -/
def leave (s : State Content) (p : ℕ) : State Content := { s with
  ops := Function.update s.ops p none
  lock := s.lock.filter (· ≠ p)
  activity := s.activity.filter (· ≠ p) }

/-- The operation raises `revision_conflict`. -/
def conflict (s : State Content) (p : ℕ) (changed : Bool) : State Content :=
  { s.leave p with conflicts := changed :: s.conflicts }

/-- `_ensure_revision_locked`, and the checks of `_update_zip_locked`. -/
def expects (s : State Content) (op : Op) : Bool :=
  op.expected.all (fun expected => expected.1 = s.rev)

/-- The revision that the CAS of an operation starts from once it has the lock. -/
def baseOf (s : State Content) (op : Op) : ℕ :=
  match op.kind, op.expected with
  | .update, some expected => expected.1
  | .update, none | .rebuild, _ => op.base
  | _, _ => s.rev

def change (s : State Content) (p : ℕ) (op : Op) (content : Content) : State Content := {
  s.setOp p { op with phase := if op.kind.bumps then .changed else .locked } with
  content := content
  changes := s.changes + 1
  applied := match op.expected with
    | some expected => (expected.2, s.changes) :: s.applied
    | none => s.applied }

/-- `cas_increment_revision`, after which the operation is over. -/
def bump (s : State Content) (p : ℕ) (op : Op) : State Content :=
  if op.base = s.rev then { s.leave p with rev := s.rev + 1 } else s.conflict p true

end State

/-- The steps of an operation that is under way. -/
def opStep (s : State Content) (op : Op) : Action Content → Option (State Content)
  | .call _ _ _ => none
  | .enter p =>
    if op.kind = .update ∧ op.phase = .called ∧ s.activity = none then
      some { s.setOp p { op with phase := .entered } with activity := some p }
    else none
  | .precheck p =>
    if op.phase = .entered then some (if s.expects op then s else s.conflict p false) else none
  | .observe p =>
    if (op.kind = .update ∧ op.phase = .entered) ∨ (op.kind = .rebuild ∧ op.phase = .called) then
      some (s.setOp p { op with base := s.rev, phase := .observed })
    else none
  | .lock p =>
    if s.lock = none ∧ op.phase = op.kind.waits then
      some (if s.expects op then
        { s.setOp p { op with base := s.baseOf op, phase := .locked } with lock := some p }
      else s.conflict p false)
    else none
  | .look _ =>
    if op.kind = .reader ∧ op.phase = .locked then
      some { s with observations := (s.rev, s.content) :: s.observations }
    else none
  | .change p content =>
    if op.kind ≠ .reader ∧ op.phase = .locked then some (s.change p op content) else none
  | .release p =>
    if op.phase = .locked then some (s.leave p)
    else if op.phase = .changed ∧ op.kind = .update then
      some { s.setOp p { op with phase := .released } with lock := none }
    else none
  | .bump p =>
    if op.phase = (if op.kind = .update then .released else .changed) then some (s.bump p op) else none
  | .fail p => some (s.leave p)

def Action.process : Action Content → ℕ
  | call p _ _ | enter p | precheck p | observe p | lock p | look p | change p _ | release p | bump p
  | fail p => p

def step (s : State Content) (a : Action Content) : Option (State Content) :=
  match s.ops a.process, a with
  | none, .call p kind expects =>
    some (s.setOp p ⟨kind, if expects then some (s.rev, s.changes) else none, 0, .called⟩)
  | none, _ => none
  | some op, a => opStep s op a

/-- No operation is between its change and its CAS. -/
def Quiet (s : State Content) : Prop := ∀ p op, s.ops p = some op → op.phase.pending = false

/-- Nobody takes the lock between the change of an operation and its CAS; without an expected
revision an update or a rebuild takes it only while the revision is the one it has observed; only
operations that bump the revision change the content, and none of them ends in between. -/
def Settled (s : State Content) : Action Content → Prop
  | .lock p => Quiet s ∧ ∀ op, s.ops p = some op → op.expected = none →
      op.kind.waits = .observed → op.base = s.rev
  | .change p _ => ∀ op, s.ops p = some op → op.kind.bumps
  | .fail p => ∀ op, s.ops p = some op → op.phase.pending = false
  | _ => True

/-- The revision tells contents apart, no conflict comes behind a change, and no change under an
expected revision comes behind another one. -/
structure Faithful (s : State Content) : Prop where
  agree : ∀ {rev content content'}, (rev, content) ∈ s.observations → (rev, content') ∈ s.observations →
    content = content'
  unchanged : ∀ changed ∈ s.conflicts, changed = false
  current : ∀ {seen now}, (seen, now) ∈ s.applied → seen = now

/-! ## The invariant -/

/-- What an operation that is under way relies on. -/
structure OpInv (s : State Content) (p : ℕ) (op : Op) : Prop where
  holder : op.phase.holds → s.lock = some p
  observed : op.phase = .observed → op.base ≤ s.rev ∧
    (op.kind = .rebuild → ∀ {rev seen}, op.expected = some (rev, seen) → rev ≤ op.base)
  base : op.phase = .locked ∨ op.phase.pending → op.kind.bumps → op.base = s.rev
  bumps : op.phase.pending → op.kind.bumps
  expected : op.phase = .locked → ∀ {rev seen}, op.expected = some (rev, seen) → rev = s.rev
  known : ∀ {rev seen}, op.expected = some (rev, seen) → rev ≤ s.rev
  seen : op.phase.pending = false → Quiet s →
    ∀ {rev seen}, op.expected = some (rev, seen) → rev = s.rev → seen = s.changes

structure Inv (s : State Content) : Prop extends Faithful s where
  ops : ∀ {p op}, s.ops p = some op → OpInv s p op
  alone : ∀ {p q op op'}, s.ops p = some op → op.phase.pending → s.ops q = some op' →
    op'.phase.pending ∨ op'.phase.holds → p = q
  observed : ∀ {rev content}, (rev, content) ∈ s.observations → rev ≤ s.rev
  latest : Quiet s → ∀ {content}, (s.rev, content) ∈ s.observations → content = s.content

theorem start_inv (rev : ℕ) (content : Content) : Inv (start rev content) where
  agree := nofun
  unchanged := nofun
  current := nofun
  ops := nofun
  alone := nofun
  observed := nofun
  latest := nofun

section steps

variable {s t : State Content} {p : ℕ} {op : Op}

theorem OpInv.transfer {q : ℕ} {op : Op} (h : OpInv s q op) (rev : t.rev = s.rev) (changes : t.changes = s.changes)
    (quiet : Quiet t → Quiet s) (lock : s.lock = some q → t.lock = some q) : OpInv t q op where
  holder := fun holds => lock (h.holder holds)
  observed := by
    rw [rev]
    exact h.observed
  base := by
    rw [rev]
    exact h.base
  bumps := h.bumps
  expected := by
    rw [rev]
    exact h.expected
  known := by
    rw [rev]
    exact h.known
  seen := by
    rw [rev, changes]
    exact fun settled calm => h.seen settled (quiet calm)

/-- A step of one operation that leaves the content, the revision and what is pending. -/
structure Calm (s t : State Content) (p : ℕ) : Prop where
  rev : t.rev = s.rev
  content : t.content = s.content
  changes : t.changes = s.changes
  observations : t.observations = s.observations
  conflicts : ∀ changed ∈ t.conflicts, changed ∈ s.conflicts ∨ changed = false
  applied : t.applied = s.applied
  others : ∀ q, q ≠ p → t.ops q = s.ops q
  lock : ∀ q, q ≠ p → s.lock = some q → t.lock = some q
  pending : ∀ {op'}, t.ops p = some op' → op'.phase.pending →
    ∃ op, s.ops p = some op ∧ op.phase.pending
  kept : ∀ {op}, s.ops p = some op → op.phase.pending → ∃ op', t.ops p = some op' ∧ op'.phase.pending
  holds : ∀ {op'}, t.ops p = some op' → op'.phase.holds →
    Quiet s ∨ ∃ op, s.ops p = some op ∧ (op.phase.pending ∨ op.phase.holds)

theorem Calm.quiet (calm : Calm s t p) (quiet : Quiet t) : Quiet s := by
  intro q op found
  by_contra pending
  rw [Bool.not_eq_false] at pending
  by_cases own : q = p
  · subst own
    obtain ⟨op', found', pending'⟩ := calm.kept found pending
    simp [quiet q op' found'] at pending'
  · simp [quiet q op ((calm.others q own).trans found)] at pending

theorem Inv.calm (h : Inv s) (calm : Calm s t p) (own : ∀ {op'}, t.ops p = some op' → OpInv t p op') : Inv t where
  agree := by
    rw [calm.observations]
    exact h.agree
  unchanged := fun changed found =>
    (calm.conflicts changed found).elim (h.unchanged changed) id
  current := by
    rw [calm.applied]
    exact h.current
  ops := by
    intro q op found
    by_cases same : q = p
    · subst same
      exact own found
    · rw [calm.others q same] at found
      exact (h.ops found).transfer calm.rev calm.changes calm.quiet (calm.lock q same)
  alone := by
    intro a b op op' foundA pendingA foundB activeB
    by_contra apart
    by_cases isA : a = p
    · subst isA
      obtain ⟨old, found, pending⟩ := calm.pending foundA pendingA
      rw [calm.others b (Ne.symm apart)] at foundB
      exact apart (h.alone found pending foundB activeB)
    · rw [calm.others a isA] at foundA
      by_cases isB : b = p
      · subst isB
        have before : Quiet s ∨ ∃ op, s.ops b = some op ∧ (op.phase.pending ∨ op.phase.holds) := by
          rcases activeB with pending | holds
          · obtain ⟨old, found, pending'⟩ := calm.pending foundB pending
            exact .inr ⟨old, found, .inl pending'⟩
          · exact calm.holds foundB holds
        rcases before with quiet | ⟨old, found, active⟩
        · simp [quiet a op foundA] at pendingA
        · exact isA (h.alone foundA pendingA found active)
      · rw [calm.others b isB] at foundB
        exact apart (h.alone foundA pendingA foundB activeB)
  observed := by
    rw [calm.observations, calm.rev]
    exact h.observed
  latest := by
    rw [calm.observations, calm.rev, calm.content]
    exact fun quiet => h.latest (calm.quiet quiet)

/-- An operation goes to a phase that is pending exactly if the one before was. -/
theorem calm_setOp {op' : Op} {lock activity : Option ℕ} (found : s.ops p = some op)
    (same : op'.phase.pending = op.phase.pending) (others : ∀ q, q ≠ p → s.lock = some q → lock = some q)
    (holds : op'.phase.holds → Quiet s ∨ op.phase.pending ∨ op.phase.holds) :
    Calm s { s.setOp p op' with lock := lock, activity := activity } p where
  rev := rfl
  content := rfl
  changes := rfl
  observations := rfl
  conflicts := fun _ found => .inl found
  applied := rfl
  others := fun q other => Function.update_of_ne other _ _
  lock := others
  pending := by
    intro new found' pending
    obtain rfl : op' = new := by simpa [State.setOp] using found'
    exact ⟨op, found, same ▸ pending⟩
  kept := by
    intro old found' pending
    obtain rfl := Option.some.inj (found.symm.trans found')
    exact ⟨op', Function.update_self .., same ▸ pending⟩
  holds := by
    intro new found' held
    obtain rfl : op' = new := by simpa [State.setOp] using found'
    exact (holds held).imp_right (fun active => ⟨op, found, active⟩)

/-- An operation that is not pending leaves, with or without a conflict. -/
theorem calm_leave {conflicts : List Bool} (found : s.ops p = some op) (settled : op.phase.pending = false)
    (told : ∀ changed ∈ conflicts, changed ∈ s.conflicts ∨ changed = false) :
    Calm s { s.leave p with conflicts := conflicts } p where
  rev := rfl
  content := rfl
  changes := rfl
  observations := rfl
  conflicts := told
  applied := rfl
  others := fun q other => Function.update_of_ne other _ _
  lock := fun q other held => by simp [State.leave, held, other]
  pending := fun found' => by simp [State.leave] at found'
  kept := by
    intro old found' pending
    obtain rfl := Option.some.inj (found.symm.trans found')
    simp [settled] at pending
  holds := fun found' => by simp [State.leave] at found'

theorem leave_inv {conflicts : List Bool} (h : Inv s) (found : s.ops p = some op)
    (settled : op.phase.pending = false)
    (told : ∀ changed ∈ conflicts, changed ∈ s.conflicts ∨ changed = false) :
    Inv { s.leave p with conflicts := conflicts } :=
  h.calm (calm_leave found settled told) (fun found' => by simp [State.leave] at found')

theorem conflict_inv (h : Inv s) (found : s.ops p = some op) (settled : op.phase.pending = false) :
    Inv (s.conflict p false) :=
  leave_inv h found settled (fun _ told => (List.mem_cons.mp told).symm)

theorem call_inv (h : Inv s) (free : s.ops p = none) (kind : Kind) (expects : Bool) :
    Inv (s.setOp p ⟨kind, if expects then some (s.rev, s.changes) else none, 0, .called⟩) := by
  have own : ∀ {op'}, (s.setOp p ⟨kind, if expects then some (s.rev, s.changes) else none, 0, .called⟩).ops p =
      some op' → op' = ⟨kind, if expects then some (s.rev, s.changes) else none, 0, .called⟩ :=
    fun found => (by simpa [State.setOp] using found : _ = _).symm
  refine h.calm ⟨rfl, rfl, rfl, rfl, fun _ told => .inl told, rfl, fun q other => Function.update_of_ne other _ _,
    fun _ _ held => held, fun found pending => ?_, fun found => ?_, fun found held => ?_⟩ (fun found => ?_)
  · simp [own found, Phase.pending] at pending
  · simp [free] at found
  · simp [own found, Phase.holds] at held
  · rw [own found]
    refine ⟨by simp [Phase.holds], by simp, by simp [Phase.pending], by simp [Phase.pending], by simp, ?_, ?_⟩
    · intro rev seen expected
      cases expects <;> simp at expected
      exact expected.1 ▸ Nat.le_refl _
    · intro _ _ rev seen expected _
      cases expects <;> simp at expected
      exact expected.2.symm

/-- `enter` and `observe` change the phase of an operation that holds nothing. -/
theorem approach_inv {op' : Op} (h : Inv s) (activity : Option ℕ) (found : s.ops p = some op)
    (before : op.phase.pending = false) (idle : op'.phase.holds = false) (quiet : op'.phase.pending = false)
    (expected : op'.expected = op.expected) (observed : op'.phase = .observed → op'.base = s.rev) :
    Inv { s.setOp p op' with activity := activity } := by
  have calm : Calm s { s.setOp p op' with lock := s.lock, activity := activity } p :=
    calm_setOp found (quiet.trans before.symm) (fun _ _ held => held) (fun held => by simp [idle] at held)
  refine h.calm calm (fun {new} found' => ?_)
  obtain rfl : op' = new := by simpa [State.setOp] using found'
  have old := h.ops found
  refine ⟨fun held => by simp [idle] at held, fun at' => ?_, fun active => ?_, fun pending => ?_,
    fun locked => ?_, ?_, ?_⟩
  · rw [observed at']
    exact ⟨Nat.le_refl _, fun _ _ _ told => old.known (expected ▸ told)⟩
  · rcases active with locked | pending
    · simp [locked, Phase.holds] at idle
    · simp [quiet] at pending
  · simp [quiet] at pending
  · simp [locked, Phase.holds] at idle
  · rw [expected]
    exact old.known
  · rw [expected]
    exact fun _ settled => old.seen before (calm.quiet settled)

theorem expects_iff : s.expects op = true ↔ ∀ rev seen, op.expected = some (rev, seen) → rev = s.rev := by
  unfold State.expects
  cases op.expected with
  | none => simp
  | some expected =>
    obtain ⟨rev, seen⟩ := expected
    simp

/-- In the lock the CAS of an operation starts from the revision that is there. -/
theorem baseOf_eq (h : OpInv s p op) (waits : op.phase = op.kind.waits) (expects : s.expects op = true)
    (observed : op.expected = none → op.kind.waits = .observed → op.base = s.rev) : s.baseOf op = s.rev := by
  have told := expects_iff.mp expects
  unfold State.baseOf
  cases kind : op.kind <;> cases expected : op.expected <;> simp only
  case update.none => exact observed expected (by simp [kind, Kind.waits])
  case update.some pair => exact told _ _ expected
  case rebuild.none => exact observed expected (by simp [kind, Kind.waits])
  case rebuild.some pair =>
    obtain ⟨le, ge⟩ := h.observed (by simp [waits, kind, Kind.waits])
    have before := ge kind expected
    have same : pair.1 = s.rev := told _ _ expected
    omega

theorem lock_inv (h : Inv s) (found : s.ops p = some op) (free : s.lock = none)
    (waits : op.phase = op.kind.waits) (expects : s.expects op = true) (quiet : Quiet s)
    (observed : op.expected = none → op.kind.waits = .observed → op.base = s.rev) :
    Inv { s.setOp p { op with base := s.baseOf op, phase := .locked } with lock := some p } := by
  have settled : op.phase.pending = false := quiet p op found
  have old := h.ops found
  have calm : Calm s { s.setOp p { op with base := s.baseOf op, phase := .locked } with
      lock := some p, activity := s.activity } p :=
    calm_setOp found settled.symm (fun q _ held => by simp [free] at held) (fun _ => .inl quiet)
  refine h.calm calm (fun {new} found' => ?_)
  obtain rfl : { op with base := s.baseOf op, phase := .locked } = new := by simpa [State.setOp] using found'
  exact {
    holder := fun _ => rfl
    observed := by simp
    base := fun _ _ => baseOf_eq old waits expects observed
    bumps := by simp [Phase.pending]
    expected := fun _ => expects_iff.mp expects _ _
    known := old.known
    seen := fun _ _ => old.seen settled quiet }

theorem look_inv (h : Inv s) (found : s.ops p = some op) (locked : op.phase = .locked) :
    Inv { s with observations := (s.rev, s.content) :: s.observations } where
  agree := by
    have quiet : Quiet s := by
      intro q op' found'
      by_contra pending
      rw [Bool.not_eq_false] at pending
      have same := h.alone found' pending found (.inr (by simp [locked, Phase.holds]))
      subst same
      obtain rfl := Option.some.inj (found.symm.trans found')
      simp [locked, Phase.pending] at pending
    intro rev content content' one other
    rcases List.mem_cons.mp one with one | one <;> rcases List.mem_cons.mp other with other | other
    · cases one
      cases other
      rfl
    · cases one
      exact (h.latest quiet other).symm
    · cases other
      exact h.latest quiet one
    · exact h.agree one other
  unchanged := h.unchanged
  current := h.current
  ops := fun found => (h.ops found).transfer rfl rfl id id
  alone := h.alone
  observed := by
    intro rev content seen
    rcases List.mem_cons.mp seen with seen | seen
    · cases seen
      exact Nat.le_refl _
    · exact h.observed seen
  latest := by
    intro quiet content seen
    rcases List.mem_cons.mp seen with seen | seen
    · cases seen
      rfl
    · exact h.latest quiet seen

/-- Who holds the lock for its change is alone. -/
theorem locked_quiet (h : Inv s) (found : s.ops p = some op) (locked : op.phase = .locked) : Quiet s := by
  intro q op' found'
  by_contra pending
  rw [Bool.not_eq_false] at pending
  have same := h.alone found' pending found (.inr (by simp [locked, Phase.holds]))
  subst same
  obtain rfl := Option.some.inj (found.symm.trans found')
  simp [locked, Phase.pending] at pending

/-- The lock tells who may be in a phase that holds it. -/
theorem holder_unique (h : Inv s) {q : ℕ} {op' : Op} (found : s.ops p = some op) (held : op.phase.holds)
    (found' : s.ops q = some op') (held' : op'.phase.holds) : q = p := by
  have one := (h.ops found).holder held
  have other := (h.ops found').holder held'
  exact Option.some.inj (other.symm.trans one)

theorem change_inv (h : Inv s) (found : s.ops p = some op) (locked : op.phase = .locked)
    (bumps : op.kind.bumps) (content : Content) : Inv (s.change p op content) := by
  have quiet := locked_quiet h found locked
  have old := h.ops found
  have noisy : ¬ Quiet (s.change p op content) := by
    intro calm
    have pending := calm p { op with phase := .changed } (by simp [State.change, State.setOp, bumps])
    simp [Phase.pending] at pending
  have others : ∀ {q op'}, q ≠ p → (s.change p op content).ops q = some op' → s.ops q = some op' :=
    fun other found' => by simpa [State.change, State.setOp, other] using found'
  have own : ∀ {op'}, (s.change p op content).ops p = some op' → op' = { op with phase := .changed } := by
    intro op' found'
    simpa [State.change, State.setOp, bumps, eq_comm] using found'
  refine ⟨⟨h.agree, h.unchanged, ?_⟩, ?_, ?_, h.observed, fun calm => absurd calm noisy⟩
  · intro seen now told
    unfold State.change at told
    cases expected : op.expected with
    | none =>
      rw [expected] at told
      exact h.current told
    | some pair =>
      obtain ⟨rev, count⟩ := pair
      rw [expected] at told
      rcases List.mem_cons.mp told with now' | before
      · cases now'
        exact old.seen (quiet p op found) quiet expected (old.expected locked expected)
      · exact h.current before
  · intro q op' found'
    by_cases same : q = p
    · subst same
      rw [own found']
      exact {
        holder := fun _ => old.holder (by simp [locked, Phase.holds])
        observed := by simp
        base := fun _ => old.base (.inl locked)
        bumps := fun _ => bumps
        expected := by simp
        known := old.known
        seen := by simp [Phase.pending] }
    · have before := h.ops (others same found')
      exact {
        holder := before.holder
        observed := before.observed
        base := before.base
        bumps := before.bumps
        expected := before.expected
        known := before.known
        seen := fun _ calm => absurd calm noisy }
  · intro a b op₁ op₂ foundA pendingA foundB activeB
    have isA : a = p := by
      by_contra other
      simp [quiet a op₁ (others other foundA)] at pendingA
    have isB : b = p := by
      by_contra other
      have found' := others other foundB
      rcases activeB with pending | held
      · simp [quiet b op₂ found'] at pending
      · exact other (holder_unique h found (by simp [locked, Phase.holds]) found' held)
    rw [isA, isB]

theorem release_inv (h : Inv s) (found : s.ops p = some op) (changed : op.phase = .changed) :
    Inv { s.setOp p { op with phase := .released } with lock := none } := by
  have old := h.ops found
  have held : op.phase.holds := by simp [changed, Phase.holds]
  have calm : Calm s { s.setOp p { op with phase := .released } with
      lock := none, activity := s.activity } p := by
    refine calm_setOp found (by simp [changed, Phase.pending]) (fun q other taken => ?_)
      (fun held' => by simp [Phase.holds] at held')
    rw [old.holder held] at taken
    exact absurd (Option.some.inj taken).symm other
  refine h.calm calm (fun {new} found' => ?_)
  obtain rfl : { op with phase := .released } = new := by simpa [State.setOp] using found'
  exact {
    holder := by simp [Phase.holds]
    observed := by simp
    base := fun _ => old.base (.inr (by simp [changed, Phase.pending]))
    bumps := fun _ => old.bumps (by simp [changed, Phase.pending])
    expected := by simp
    known := old.known
    seen := by simp [Phase.pending] }

/-- A pending operation finds the revision its CAS starts from. -/
theorem bump_inv (h : Inv s) (found : s.ops p = some op) (pending : op.phase.pending) : Inv (s.bump p op) := by
  have old := h.ops found
  have same : op.base = s.rev := old.base (.inr pending) (old.bumps pending)
  rw [State.bump, if_pos same]
  have before : ∀ {q op'}, ({ s.leave p with rev := s.rev + 1 } : State Content).ops q = some op' →
      q ≠ p ∧ s.ops q = some op' := by
    intro q op' found'
    by_cases own : q = p
    · simp [State.leave, own] at found'
    · exact ⟨own, by simpa [State.leave, own] using found'⟩
  -- nobody else is in a phase that knows the revision to be the current one
  have inactive : ∀ {q op'}, q ≠ p → s.ops q = some op' → op'.phase.pending = false ∧ op'.phase.holds = false := by
    intro q op' other found'
    refine ⟨?_, ?_⟩ <;> by_contra active <;> rw [Bool.not_eq_false] at active
    · exact other (h.alone found pending found' (.inl active)).symm
    · exact other (h.alone found pending found' (.inr active)).symm
  refine ⟨⟨h.agree, h.unchanged, h.current⟩, ?_, ?_, ?_, ?_⟩
  · intro q op' found'
    obtain ⟨other, found'⟩ := before found'
    obtain ⟨settled, idle⟩ := inactive other found'
    have own := h.ops found'
    refine ⟨fun held => by simp [idle] at held, fun at' => ?_, fun active => ?_, own.bumps, fun locked => ?_,
      fun expected => ?_, fun _ _ _ _ expected current => ?_⟩
    · obtain ⟨le, ge⟩ := own.observed at'
      exact ⟨Nat.le_succ_of_le le, ge⟩
    · rcases active with locked | active
      · simp [locked, Phase.holds] at idle
      · simp [settled] at active
    · simp [locked, Phase.holds] at idle
    · exact Nat.le_succ_of_le (own.known expected)
    · have := own.known expected
      simp only at current
      omega
  · intro a b op₁ op₂ foundA pendingA _ _
    obtain ⟨other, found'⟩ := before foundA
    simp [(inactive other found').1] at pendingA
  · intro rev content seen
    exact Nat.le_succ_of_le (h.observed seen)
  · intro _ content seen
    have : s.rev + 1 ≤ s.rev := h.observed seen
    omega

end steps

theorem step_inv {s t : State Content} {a : Action Content} (h : Inv s) (settled : Settled s a)
    (taken : step s a = some t) : Inv t := by
  cases found : s.ops a.process with
  | none =>
    cases a <;> simp only [step, found, Option.some.injEq, reduceCtorEq] at taken
    case call p kind expects => exact taken ▸ call_inv h found kind expects
  | some op =>
    simp only [step, found] at taken
    cases a with
    | call p kind expects => simp [opStep] at taken
    | enter p =>
      simp only [opStep, Option.ite_none_right_eq_some, Option.some.injEq] at taken
      obtain ⟨⟨-, phase, -⟩, rfl⟩ := taken
      exact approach_inv h (some p) found (by simp [phase, Phase.pending]) rfl rfl rfl (by simp)
    | precheck p =>
      simp only [opStep, Option.ite_none_right_eq_some, Option.some.injEq] at taken
      obtain ⟨phase, rfl⟩ := taken
      split_ifs
      · exact h
      · exact conflict_inv h found (by simp [phase, Phase.pending])
    | observe p =>
      simp only [opStep, Option.ite_none_right_eq_some, Option.some.injEq] at taken
      obtain ⟨phase, rfl⟩ := taken
      have before : op.phase.pending = false := by
        rcases phase with ⟨-, phase⟩ | ⟨-, phase⟩ <;> simp [phase, Phase.pending]
      exact approach_inv h s.activity found before rfl rfl rfl (fun _ => rfl)
    | lock p =>
      simp only [opStep, Option.ite_none_right_eq_some, Option.some.injEq] at taken
      obtain ⟨⟨free, waits⟩, rfl⟩ := taken
      obtain ⟨quiet, observed⟩ := settled
      split_ifs with expects
      · exact lock_inv h found free waits expects quiet (observed op found)
      · exact conflict_inv h found (quiet p op found)
    | look p =>
      simp only [opStep, Option.ite_none_right_eq_some, Option.some.injEq] at taken
      exact taken.2 ▸ look_inv h found taken.1.2
    | change p content =>
      simp only [opStep, Option.ite_none_right_eq_some, Option.some.injEq] at taken
      exact taken.2 ▸ change_inv h found taken.1.2 (settled op found) content
    | release p =>
      simp only [opStep] at taken
      split_ifs at taken with locked changed
      · obtain rfl := Option.some.inj taken
        exact leave_inv h found (by simp [locked, Phase.pending]) (fun _ told => .inl told)
      · obtain rfl := Option.some.inj taken
        exact release_inv h found changed.1
    | bump p =>
      simp only [opStep, Option.ite_none_right_eq_some, Option.some.injEq] at taken
      obtain ⟨phase, rfl⟩ := taken
      refine bump_inv h found ?_
      rw [phase]
      split_ifs <;> rfl
    | fail p =>
      simp only [opStep, Option.some.injEq] at taken
      exact taken ▸ leave_inv h found (settled op found) (fun _ told => .inl told)

/-- Where nobody comes between a change and its CAS, the revision is a faithful counter. -/
theorem settled_revisions_faithful {rev : ℕ} {content : Content} {as : List (Action Content)} {s : State Content}
    (h : Run step Settled (start rev content) as s) : Faithful s :=
  (h.invariant (start_inv rev content) (fun _ _ _ inv settled taken => step_inv inv settled taken)).toFaithful

/-- Between the release of an update and its CAS a second reader sees new content under the old
revision. -/
theorem released_update_unfaithful : ¬ ∀ (rev : ℕ) (content : ℕ) as s,
    exec step (start rev content) as = some s → Faithful s := by
  intro claim
  obtain ⟨s, run, seen⟩ : ∃ s : State ℕ, exec step (start 1 0) [.call 0 .reader false, .lock 0, .look 0, .release 0,
      .call 1 .update false, .enter 1, .observe 1, .lock 1, .change 1 7, .release 1,
      .call 2 .reader false, .lock 2, .look 2] = some s ∧ s.observations = [(1, 7), (1, 0)] := ⟨_, rfl, rfl⟩
  have faithful := claim 1 0 _ s run
  have late : (1, 7) ∈ s.observations := by simp [seen]
  have early : (1, 0) ∈ s.observations := by simp [seen]
  have agree : 7 = 0 := faithful.agree late early
  contradiction

/-- An update under an expected revision, and a reader behind it. -/
theorem settled_revisions_faithful_update : ∃ s : State ℕ, s.rev = 2 ∧ s.applied = [(0, 0)] ∧
    s.observations = [(2, 7)] ∧ Faithful s := by
  have single : ∀ {s : State ℕ} (p) (op : Op), (∀ q, q ≠ p → s.ops q = none) → s.ops p = some op →
      op.phase.pending = false → Quiet s := by
    intro s p op others found settled q op' found'
    by_cases same : q = p
    · subst same
      obtain rfl := Option.some.inj (found.symm.trans found')
      exact settled
    · simp [others q same] at found'
  obtain ⟨s, run, facts⟩ : ∃ s : State ℕ, Run step Settled (start 1 0) [.call 1 .update true, .enter 1, .precheck 1,
      .observe 1, .lock 1, .change 1 7, .release 1, .bump 1, .call 2 .reader false, .lock 2, .look 2] s ∧
      s.rev = 2 ∧ s.applied = [(0, 0)] ∧ s.observations = [(2, 7)] := by
    refine ⟨_, .cons trivial rfl <| .cons trivial rfl <| .cons trivial rfl <| .cons trivial rfl <|
      .cons ⟨single 1 ⟨.update, some (1, 0), 1, .observed⟩ (fun q other => ?_) rfl rfl, fun op found expected => ?_⟩
        rfl <| .cons (fun op found => ?_) rfl <|
      .cons trivial rfl <| .cons trivial rfl <| .cons trivial rfl <|
      .cons ⟨single 2 ⟨.reader, none, 0, .called⟩ (fun q other => ?_) rfl rfl, fun op found _ waits => ?_⟩ rfl <|
      .cons trivial rfl <| .refl _,
      rfl, rfl, rfl⟩
    · simp [State.setOp, State.expects, start, other]
    · cases found
      cases expected
    · cases found
      rfl
    · by_cases same : q = 1 <;>
        simp [State.bump, State.leave, State.change, State.setOp, State.expects, State.baseOf, start, Kind.bumps,
          other, same]
    · cases found
      cases waits
  exact ⟨s, facts.1, facts.2.1, facts.2.2, settled_revisions_faithful run⟩

end LocalWebAccess.RevisionCounter
