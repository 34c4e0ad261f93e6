import LocalWebAccess.GuardedRuns

/-!
# Rotations of instance logs

A log that has grown too long becomes archive 1, and the archives before it move up by one; the last one is
deleted. Processes go on writing to files that they have opened before, and a rotation can stop after any step,
because a call fails or because its process dies. Only one process rotates at a time.
-/
namespace LocalWebAccess.InstanceLogs
open GuardedRuns

abbrev Pid := ℕ
abbrev Inode := ℕ
abbrev Bytes := List UInt8

/-- The arguments of `rotate_path`. -/
structure Limits where
  maxBytes : ℕ
  keep : ℕ

/-- `if keep < 1: keep = 1`. -/
def Limits.kept (limits : Limits) : ℕ := if limits.keep < 1 then 1 else limits.keep

/-- Where `_rotate_path_locked` stands; it renames the archive `i` to `i + 1`, and the log itself is number 0. -/
inductive Phase where
  | checking
  | unlinking
  | moving (i : ℕ)
  deriving DecidableEq, Repr

/-- `names` are the files of the directory: the log is number 0, the others are `<stem>.log.<i>`. -/
structure State where
  names : ℕ → Option Inode
  content : Inode → Bytes
  /-- The next inode. -/
  fresh : Inode
  handles : Pid → Option Inode
  /-- The process that holds the lock of the rotation. -/
  rotation : Option (Pid × Phase)
  /-- How many rotations have found the log too long. -/
  begun : ℕ

namespace State

def empty : State := ⟨fun _ => none, fun _ => [], 0, fun _ => none, none, 0⟩

def goto (s : State) (p : Pid) (phase : Phase) : State := { s with rotation := some (p, phase) }

/-- The lock is released. -/
def release (s : State) : State := { s with rotation := none }

def unlink (s : State) (i : ℕ) : State := { s with names := Function.update s.names i none }

/-- `rename` replaces what has the new name. -/
def rename (s : State) (i j : ℕ) (x : Inode) : State :=
  { s with names := Function.update (Function.update s.names i none) j (some x) }

end State

inductive Action where
  /-- `path.open("a")`. -/
  | opens (p : Pid)
  | writes (p : Pid) (bytes : Bytes)
  | closes (p : Pid)
  /-- `rotate_path` gets the lock. -/
  | rotates (p : Pid)
  /-- The next call of the rotation, which may raise. -/
  | proceeds (fault : Bool)
  | dies (p : Pid)
  deriving DecidableEq, Repr

/-- The next call of `_rotate_path_locked`. -/
def rotateStep (limits : Limits) (s : State) (p : Pid) (fault : Bool) : Phase → State
  | .checking =>
    match s.names 0 with
    | none => s.release
    | some x =>
      if fault then s.release
      else if (s.content x).length ≤ limits.maxBytes then s.release
      else { s with begun := s.begun + 1 }.goto p .unlinking
  | .unlinking => if fault then s.release else (s.unlink limits.kept).goto p (.moving (limits.kept - 1))
  | .moving i =>
    match s.names i with
    | none =>
      match i with
      | 0 => s.release
      | i + 1 => s.goto p (.moving i)
    | some x =>
      if fault then s.release
      else
        match i with
        | 0 => (s.rename 0 1 x).release
        | i + 1 => (s.rename (i + 1) (i + 2) x).goto p (.moving i)

def step (limits : Limits) (s : State) : Action → Option State
  | .opens p =>
    match s.names 0 with
    | some x => some { s with handles := Function.update s.handles p (some x) }
    | none =>
      some { s with
        names := Function.update s.names 0 (some s.fresh)
        content := Function.update s.content s.fresh []
        fresh := s.fresh + 1
        handles := Function.update s.handles p (some s.fresh) }
  | .writes p bytes =>
    (s.handles p).map fun x => { s with content := Function.update s.content x (s.content x ++ bytes) }
  | .closes p => some { s with handles := Function.update s.handles p none }
  | .rotates p => if s.rotation = none then some (s.goto p .checking) else none
  | .proceeds fault => s.rotation.map fun (p, phase) => rotateStep limits s p fault phase
  | .dies p =>
    some { s with
      handles := Function.update s.handles p none
      rotation := s.rotation.filter fun holder => holder.1 ≠ p }

/-! ## The invariant -/

/-- The files have numbers up to the limit, the older ones the higher numbers, and a rotation has freed the number
to which it renames next. -/
structure Inv (limits : Limits) (s : State) : Prop where
  bounded : ∀ i x, s.names i = some x → i ≤ limits.kept ∧ x < s.fresh
  older : ∀ i j x y, i < j → s.names i = some x → s.names j = some y → y < x
  opened : ∀ p x, s.handles p = some x → x < s.fresh
  freed : ∀ p i, s.rotation = some (p, .moving i) → i < limits.kept ∧ s.names (i + 1) = none

variable {limits : Limits} {s t : State} {p : Pid} {i j : ℕ} {x y : Inode} {as bs : List Action}

theorem kept_pos (limits : Limits) : 1 ≤ limits.kept := by
  unfold Limits.kept
  split_ifs with small
  · exact Nat.le_refl 1
  · exact Nat.le_of_not_lt small

/-- What is where after a renaming to a free number. -/
theorem names_rename (free : s.names (i + 1) = none) (named : s.names i = some x) (j : ℕ) (y : Inode) :
    (s.rename i (i + 1) x).names j = some y ↔ (j = i + 1 ∧ y = x) ∨ (j ≠ i ∧ s.names j = some y) := by
  unfold State.rename
  simp only [Function.update_apply]
  by_cases top : j = i + 1
  · subst top
    rw [if_pos rfl, free]
    constructor
    · intro same
      exact .inl ⟨rfl, (Option.some.inj same).symm⟩
    · rintro (⟨-, rfl⟩ | ⟨-, impossible⟩)
      · rfl
      · cases impossible
  · rw [if_neg top]
    by_cases here : j = i
    · rw [if_pos here]
      constructor
      · intro impossible
        cases impossible
      · rintro (⟨same, -⟩ | ⟨other, -⟩)
        · exact absurd same top
        · exact absurd here other
    · rw [if_neg here]
      constructor
      · intro still
        exact .inr ⟨here, still⟩
      · rintro (⟨same, -⟩ | ⟨-, still⟩)
        · exact absurd same top
        · exact still

theorem names_unlink (k j : ℕ) (y : Inode) : (s.unlink k).names j = some y ↔ j ≠ k ∧ s.names j = some y := by
  unfold State.unlink
  simp only [Function.update_apply]
  split_ifs with here
  · simp [here]
  · simp [here]

theorem Inv.release (h : Inv limits s) : Inv limits s.release where
  bounded := h.bounded
  older := h.older
  opened := h.opened
  freed := fun p i rotating => by cases rotating

theorem Inv.rename (h : Inv limits s) (below : i < limits.kept) (free : s.names (i + 1) = none)
    (named : s.names i = some x) :
    (∀ j y, (s.rename i (i + 1) x).names j = some y → j ≤ limits.kept ∧ y < s.fresh) ∧
    (∀ j k y z, j < k → (s.rename i (i + 1) x).names j = some y → (s.rename i (i + 1) x).names k = some z → z < y) := by
  constructor
  · intro j y found
    obtain ⟨rfl, rfl⟩ | ⟨-, still⟩ := (names_rename free named j y).mp found
    · exact ⟨below, (h.bounded i y named).2⟩
    · exact h.bounded j y still
  · intro j k y z less first second
    obtain ⟨rfl, rfl⟩ | ⟨other, still⟩ := (names_rename free named j y).mp first
    · obtain ⟨rfl, rfl⟩ | ⟨-, still'⟩ := (names_rename free named k z).mp second
      · exact absurd less (Nat.lt_irrefl _)
      · exact h.older i k y z (by omega) named still'
    · obtain ⟨rfl, rfl⟩ | ⟨-, still'⟩ := (names_rename free named k z).mp second
      · exact h.older j i y z (by omega) still named
      · exact h.older j k y z less still still'

theorem Inv.rotateStep (h : Inv limits s) {fault : Bool} {phase : Phase} (rotating : s.rotation = some (p, phase)) :
    Inv limits (rotateStep limits s p fault phase) := by
  have positive := kept_pos limits
  cases phase with
  | checking =>
    simp only [InstanceLogs.rotateStep]
    split
    · exact h.release
    · split_ifs
      · exact h.release
      · exact h.release
      · exact ⟨h.bounded, h.older, h.opened, fun q i same => by cases same⟩
  | unlinking =>
    simp only [InstanceLogs.rotateStep]
    split_ifs
    · exact h.release
    · refine ⟨fun i x named => ?_, fun i j x y less first second => ?_, h.opened, fun q i same => ?_⟩
      · exact h.bounded i x ((names_unlink _ i x).mp named).2
      · exact h.older i j x y less ((names_unlink _ i x).mp first).2 ((names_unlink _ j y).mp second).2
      · cases same
        refine ⟨by omega, ?_⟩
        rw [Nat.sub_add_cancel positive]
        exact Function.update_self _ _ _
  | moving i =>
    obtain ⟨below, free⟩ := h.freed p i rotating
    cases named : s.names i with
    | none =>
      cases i with
      | zero =>
        simp only [InstanceLogs.rotateStep, named]
        exact h.release
      | succ i =>
        simp only [InstanceLogs.rotateStep, named]
        refine ⟨h.bounded, h.older, h.opened, fun q j same => ?_⟩
        cases same
        exact ⟨by omega, named⟩
    | some x =>
      obtain ⟨bounded, older⟩ := h.rename below free named
      cases i with
      | zero =>
        simp only [InstanceLogs.rotateStep, named]
        split_ifs
        · exact h.release
        · exact ⟨bounded, older, h.opened, fun q j same => by cases same⟩
      | succ i =>
        simp only [InstanceLogs.rotateStep, named]
        split_ifs
        · exact h.release
        · refine ⟨bounded, older, h.opened, fun q j same => ?_⟩
          cases same
          refine ⟨by omega, ?_⟩
          cases gone : ((s.rename (i + 1) (i + 1 + 1) x).goto p (.moving i)).names (i + 1) with
          | none => rfl
          | some y =>
            obtain ⟨same, -⟩ | ⟨other, -⟩ := (names_rename free named (i + 1) y).mp gone
            · omega
            · exact absurd rfl other

theorem inv_step {a : Action} (h : Inv limits s) (taken : step limits s a = some t) : Inv limits t := by
  cases a with
  | opens p =>
    simp only [step] at taken
    split at taken
    case h_1 x named =>
      cases taken
      refine ⟨h.bounded, h.older, fun q y held => ?_, h.freed⟩
      simp only [Function.update_apply] at held
      split_ifs at held
      · cases held
        exact (h.bounded 0 _ named).2
      · exact h.opened q y held
    case h_2 absent =>
      cases taken
      refine ⟨fun i x named => ?_, fun i j x y less first second => ?_, fun q y held => ?_, fun q i rotating => ?_⟩
      · simp only [Function.update_apply] at named
        split_ifs at named with log
        · cases named
          exact ⟨by omega, Nat.lt_succ_self _⟩
        · obtain ⟨small, known⟩ := h.bounded i x named
          exact ⟨small, Nat.lt_succ_of_lt known⟩
      · simp only [Function.update_apply] at first second
        rw [if_neg (by omega)] at second
        split_ifs at first
        · cases first
          exact (h.bounded j y second).2
        · exact h.older i j x y less first second
      · simp only [Function.update_apply] at held
        split_ifs at held
        · cases held
          exact Nat.lt_succ_self _
        · exact Nat.lt_succ_of_lt (h.opened q y held)
      · obtain ⟨below, free⟩ := h.freed q i rotating
        refine ⟨below, ?_⟩
        simp only [Function.update_apply]
        rw [if_neg (by omega)]
        exact free
  | writes p bytes =>
    obtain ⟨x, -, rfl⟩ := Option.map_eq_some_iff.mp taken
    exact ⟨h.bounded, h.older, h.opened, h.freed⟩
  | closes p =>
    cases taken
    refine ⟨h.bounded, h.older, fun q y held => ?_, h.freed⟩
    simp only [Function.update_apply] at held
    split_ifs at held
    exact h.opened q y held
  | rotates p =>
    simp only [step] at taken
    split_ifs at taken
    cases taken
    exact ⟨h.bounded, h.older, h.opened, fun q i same => by cases same⟩
  | proceeds fault =>
    obtain ⟨⟨p, phase⟩, rotating, rfl⟩ := Option.map_eq_some_iff.mp taken
    exact h.rotateStep rotating
  | dies p =>
    cases taken
    refine ⟨h.bounded, h.older, fun q y held => ?_, fun q i rotating => ?_⟩
    · simp only [Function.update_apply] at held
      split_ifs at held
      exact h.opened q y held
    · exact h.freed q i (Option.filter_eq_some_iff.mp rotating).1

/-- A file that had the number `a` after `r` rotations has not moved up more often than rotations have begun since,
and the one going on has not moved it yet where it is still to come to it. -/
def Reaches (a r : ℕ) (x : Inode) (s : State) : Prop :=
  ∃ b, s.names b = some x ∧ b + r ≤ a + s.begun ∧
    ∀ p phase, s.rotation = some (p, phase) →
      (phase = .unlinking → b + 1 + r ≤ a + s.begun) ∧ ∀ i, phase = .moving i → b ≤ i → b + 1 + r ≤ a + s.begun

variable {a r : ℕ}

theorem Reaches.release (h : Reaches a r x s) : Reaches a r x s.release := by
  obtain ⟨b, named, bound, -⟩ := h
  exact ⟨b, named, bound, fun p phase rotating => by cases rotating⟩

theorem Reaches.rotateStep (h : Reaches a r x s) (inv : Inv limits s) {fault : Bool} {phase : Phase}
    (rotating : s.rotation = some (p, phase))
    (few : (rotateStep limits s p fault phase).begun + a ≤ r + limits.kept) :
    Reaches a r x (rotateStep limits s p fault phase) := by
  obtain ⟨b, named, bound, mid⟩ := h
  have stays : Reaches a r x s := ⟨b, named, bound, mid⟩
  obtain ⟨before, coming⟩ := mid p phase rotating
  cases phase with
  | checking =>
    simp only [InstanceLogs.rotateStep] at few ⊢
    split
    · exact stays.release
    · split_ifs
      · exact stays.release
      · exact stays.release
      · refine ⟨b, named, Nat.le_succ_of_le bound, fun q phase same => ⟨fun _ => ?_, fun i moving => ?_⟩⟩
        · change b + 1 + r ≤ a + (s.begun + 1)
          omega
        · cases same
          cases moving
  | unlinking =>
    simp only [InstanceLogs.rotateStep] at few ⊢
    split_ifs at few ⊢
    · exact stays.release
    · have ahead := before rfl
      have few : s.begun + a ≤ r + limits.kept := few
      have other : b ≠ limits.kept := by omega
      refine ⟨b, (names_unlink _ b x).mpr ⟨other, named⟩, bound,
        fun q phase same => ⟨fun unlinking => ?_, fun _ _ _ => ahead⟩⟩
      cases same
      cases unlinking
  | moving i =>
    obtain ⟨below, free⟩ := inv.freed p i rotating
    cases there : s.names i with
    | none =>
      cases i with
      | zero =>
        simp only [InstanceLogs.rotateStep, there]
        exact stays.release
      | succ i =>
        simp only [InstanceLogs.rotateStep, there]
        refine ⟨b, named, bound, fun q phase same => ⟨fun unlinking => ?_, fun j moving lower => ?_⟩⟩
        · cases same
          cases unlinking
        · cases same
          cases moving
          exact coming (i + 1) rfl (Nat.le_succ_of_le lower)
    | some y =>
      -- The renaming moves the file if it is at its number, and no other one.
      have moved : ∃ b', (s.rename i (i + 1) y).names b' = some x ∧ b' + r ≤ a + s.begun ∧
          ∀ j, j + 1 = i → b' ≤ j → b' + 1 + r ≤ a + s.begun := by
        by_cases here : b = i
        · subst here
          obtain rfl : x = y := Option.some.inj (named.symm.trans there)
          have ahead := coming b rfl (Nat.le_refl b)
          refine ⟨b + 1, (names_rename free there _ _).mpr (.inl ⟨rfl, rfl⟩), ahead, fun j next lower => ?_⟩
          omega
        · refine ⟨b, (names_rename free there _ _).mpr (.inr ⟨here, named⟩), bound, fun j next lower => ?_⟩
          exact coming i rfl (by omega)
      obtain ⟨b', named', bound', coming'⟩ := moved
      cases i with
      | zero =>
        simp only [InstanceLogs.rotateStep, there]
        split_ifs
        · exact stays.release
        · exact ⟨b', named', bound', fun q phase same => by cases same⟩
      | succ i =>
        simp only [InstanceLogs.rotateStep, there]
        split_ifs
        · exact stays.release
        · refine ⟨b', named', bound', fun q phase same => ⟨fun unlinking => ?_, fun j moving lower => ?_⟩⟩
          · cases same
            cases unlinking
          · cases same
            cases moving
            exact coming' i rfl lower

/-- A log of one byte, and the same log after a rotation that keeps one archive. -/
def written : State := (exec (step ⟨0, 1⟩) State.empty [.opens 1, .writes 1 [65]]).getD State.empty

def rotated : State :=
  (exec (step ⟨0, 1⟩) written [.rotates 2, .proceeds false, .proceeds false, .proceeds false]).getD State.empty

end LocalWebAccess.InstanceLogs
