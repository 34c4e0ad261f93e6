import Mathlib.Data.Nat.Notation
import Mathlib.Logic.Function.Basic
import Mathlib.Tactic.SplitIfs

/-!
# Runs of labelled transition systems under a step condition

A system is a partial step function on states and actions. A guarded run is a
finite sequence of enabled actions each of which meets a condition in the state
it is taken from. Invariants need only be preserved by steps meeting it.
-/
namespace LocalWebAccess.GuardedRuns

universe u v

variable {S : Type u} {A : Type v}

/-- The state after a list of actions, or `none` once an action is not enabled. -/
def exec (step : S → A → Option S) : S → List A → Option S
  | s, [] => some s
  | s, a :: as => (step s a).bind (fun t => exec step t as)

/-- How often an event occurs along a list of actions. -/
def occurrences (step : S → A → Option S) (event : S → A → S → Bool) : S → List A → ℕ
  | _, [] => 0
  | s, a :: as =>
    match step s a with
    | none => 0
    | some t => (if event s a t then 1 else 0) + occurrences step event t as

/-- Finite runs whose every action satisfies `ok` in the state it starts from. -/
inductive Run (step : S → A → Option S) (ok : S → A → Prop) : S → List A → S → Prop where
  | refl (s) : Run step ok s [] s
  | cons {s t z a as} (meets : ok s a) (enabled : step s a = some t)
      (tail : Run step ok t as z) : Run step ok s (a :: as) z

/-- No restriction on the steps. -/
def anyStep : S → A → Prop := fun _ _ => True

namespace Run

variable {step : S → A → Option S} {ok ok' : S → A → Prop} {s t z : S} {as bs : List A}

theorem append (h : Run step ok s as t) (h' : Run step ok t bs z) :
    Run step ok s (as ++ bs) z := by
  induction h with
  | refl => exact h'
  | cons meets enabled tail ih => exact .cons meets enabled (ih h')

theorem snoc {a : A} (h : Run step ok s as t) (meets : ok t a) (enabled : step t a = some z) :
    Run step ok s (as ++ [a]) z :=
  h.append (.cons meets enabled (.refl z))

/-- A property of the first state that guarded steps preserve holds of the last one. -/
theorem invariant {P : S → Prop} (h : Run step ok s as t) (start : P s)
    (preserved : ∀ x a y, P x → ok x a → step x a = some y → P y) : P t := by
  induction h with
  | refl => exact start
  | cons meets enabled tail ih => exact ih (preserved _ _ _ start meets enabled)

/-- A reflexive and transitive relation that holds across guarded steps from
states satisfying an invariant holds across the whole run. -/
theorem relation {P : S → Prop} {R : S → S → Prop} (h : Run step ok s as t) (start : P s)
    (preserved : ∀ x a y, P x → ok x a → step x a = some y → P y)
    (rfl' : ∀ x, R x x) (trans : ∀ x y w, R x y → R y w → R x w)
    (local' : ∀ x a y, P x → ok x a → step x a = some y → R x y) : R s t := by
  induction h with
  | refl => exact rfl' _
  | cons meets enabled tail ih =>
    exact trans _ _ _ (local' _ _ _ start meets enabled)
      (ih (preserved _ _ _ start meets enabled))

/-- In the states of an invariant another condition may follow from the one of the run. -/
theorem imp {P : S → Prop} (h : Run step ok s as t) (start : P s)
    (preserved : ∀ x a y, P x → ok x a → step x a = some y → P y)
    (follows : ∀ x a y, P x → step x a = some y → ok x a → ok' x a) : Run step ok' s as t := by
  induction h with
  | refl => exact .refl _
  | cons meets enabled tail ih =>
    exact .cons (follows _ _ _ start enabled meets) enabled (ih (preserved _ _ _ start meets enabled))

theorem of_exec (h : exec step s as = some t) : Run step anyStep s as t := by
  induction as generalizing s with
  | nil =>
    obtain rfl : s = t := Option.some.inj h
    exact .refl s
  | cons a as ih =>
    obtain ⟨x, hx, ht⟩ := Option.bind_eq_some_iff.mp h
    exact .cons trivial hx (ih ht)

/-- Actions that meet the condition in every state. -/
theorem of_exec_of_forall (h : exec step s as = some t) (meets : ∀ a ∈ as, ∀ x, ok x a) : Run step ok s as t := by
  induction as generalizing s with
  | nil =>
    obtain rfl : s = t := Option.some.inj h
    exact .refl s
  | cons a as ih =>
    obtain ⟨x, hx, ht⟩ := Option.bind_eq_some_iff.mp h
    exact .cons (meets a List.mem_cons_self s) hx (ih ht fun b among => meets b (List.mem_cons_of_mem a among))

theorem exec_eq (h : Run step ok s as t) : exec step s as = some t := by
  induction h with
  | refl => rfl
  | cons meets enabled tail ih =>
    unfold exec
    rw [enabled]
    exact ih

/-- The last step of a run meets the condition. -/
theorem meets_last {a : A} (h : Run step ok s (as ++ [a]) z) (reached : exec step s as = some t) : ok t a := by
  induction as generalizing s with
  | nil =>
    obtain rfl : s = t := Option.some.inj reached
    cases h with
    | cons meets => exact meets
  | cons b bs ih =>
    obtain ⟨x, taken, rest⟩ := Option.bind_eq_some_iff.mp reached
    cases h with
    | cons meets enabled tail =>
      cases enabled.symm.trans taken
      exact ih tail rest

/-- The steps allowed by a decidable condition. -/
def guarded (step : S → A → Option S) (ok : S → A → Prop) [∀ s a, Decidable (ok s a)] (s : S) (a : A) :
    Option S :=
  if ok s a then step s a else none

theorem of_guarded [∀ s a, Decidable (ok s a)] (h : exec (guarded step ok) s as = some t) :
    Run step ok s as t := by
  induction as generalizing s with
  | nil =>
    obtain rfl : s = t := Option.some.inj h
    exact .refl s
  | cons a as ih =>
    obtain ⟨x, hx, ht⟩ := Option.bind_eq_some_iff.mp h
    unfold guarded at hx
    split_ifs at hx with meets
    exact .cons meets hx (ih ht)

/-! ## Counting events -/

variable {event : S → A → S → Bool} {P I : S → Prop}

/-- An event that needs a property that is never gained does not occur without it. -/
theorem occurrences_eq_zero (h : Run step ok s as t) (start : I s)
    (preserved : ∀ x a y, I x → ok x a → step x a = some y → I y)
    (needs : ∀ x a y, step x a = some y → event x a y = true → P x)
    (lost : ∀ x a y, I x → step x a = some y → ¬P x → ¬P y) (without : ¬P s) :
    occurrences step event s as = 0 := by
  induction h with
  | refl => rfl
  | @cons x y z a as meets enabled tail ih =>
    unfold occurrences
    rw [enabled]
    simp only
    rw [ih (preserved _ _ _ start meets enabled) (lost _ _ _ start enabled without)]
    split
    case isTrue occurs => exact absurd (needs _ _ _ enabled occurs) without
    case isFalse => rfl

/-- An event that needs such a property and ends it occurs at most once. -/
theorem occurrences_le_one (h : Run step ok s as t) (start : I s)
    (preserved : ∀ x a y, I x → ok x a → step x a = some y → I y)
    (needs : ∀ x a y, step x a = some y → event x a y = true → P x)
    (ends : ∀ x a y, step x a = some y → event x a y = true → ¬P y)
    (lost : ∀ x a y, I x → step x a = some y → ¬P x → ¬P y) :
    occurrences step event s as ≤ 1 := by
  induction h with
  | refl => exact Nat.zero_le 1
  | @cons x y z a as meets enabled tail ih =>
    unfold occurrences
    rw [enabled]
    simp only
    split
    case isTrue occurs =>
      have never := tail.occurrences_eq_zero (preserved _ _ _ start meets enabled) preserved needs lost
        (ends _ _ _ enabled occurs)
      exact Nat.le_of_eq (congrArg (1 + ·) never)
    case isFalse =>
      rw [Nat.zero_add]
      exact ih (preserved _ _ _ start meets enabled)

end Run

/-- What a table holds after one entry of it has been set. -/
theorem entry_cases {K V : Type*} [DecidableEq K] {i j : K} {v w : V} {rest : Option V}
    (entry : (if j = i then some v else rest) = some w) : (j = i ∧ w = v) ∨ (j ≠ i ∧ rest = some w) := by
  split_ifs at entry with same
  · exact .inl ⟨same, (Option.some.inj entry).symm⟩
  · exact .inr ⟨same, entry⟩

end LocalWebAccess.GuardedRuns
