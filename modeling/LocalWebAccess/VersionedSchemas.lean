import Mathlib.Data.Option.Basic
import Mathlib.Data.Nat.Notation

/-!
# Schemas that scripts bring from version to version

A statement takes a schema to the next one, or is refused. A statement is guarded if it does nothing
where its object is there already. A script of guarded statements can be broken off anywhere and
started again, also by several parties at once.
-/
namespace LocalWebAccess.VersionedSchemas

variable {σ ι : Type} {apply : ι → σ → Option σ} {present : ι → σ → Prop}

/-- The statements of a script one after the other; a refused one ends it. -/
def runAll (apply : ι → σ → Option σ) : List ι → σ → Option σ
  | [], s => some s
  | i :: rest, s => (apply i s).bind (runAll apply rest)

/-- The schema of a version. -/
def schemaAt (apply : ι → σ → Option σ) (script : ℕ → List ι) (initial : σ) : ℕ → Option σ
  | 0 => some initial
  | v + 1 => (schemaAt apply script initial v).bind (runAll apply (script (v + 1)))

theorem schemaAt_one (apply : ι → σ → Option σ) (script : ℕ → List ι) (initial : σ) :
    schemaAt apply script initial 1 = runAll apply (script 1) initial := rfl

/-- The object of a statement is there after it, and no statement removes one. -/
structure Lasting (apply : ι → σ → Option σ) (present : ι → σ → Prop) : Prop where
  leaves : ∀ {i s t}, apply i s = some t → present i t
  stays : ∀ {i j s t}, present i s → apply j s = some t → present i t

/-- The statement does nothing where its object is there already. -/
def Guarded (apply : ι → σ → Option σ) (present : ι → σ → Prop) (i : ι) : Prop :=
  ∀ s, present i s → apply i s = some s

/-- The script has been run up to somewhere. -/
def Begun (apply : ι → σ → Option σ) (script : List ι) (initial s : σ) : Prop :=
  ∃ done rest, done ++ rest = script ∧ runAll apply done initial = some s

variable {script done rest : List ι} {initial s t : σ} {i : ι}

theorem runAll_append (first second : List ι) (s : σ) :
    runAll apply (first ++ second) s = (runAll apply first s).bind (runAll apply second) := by
  induction first generalizing s with
  | nil => rfl
  | cons i rest ih =>
    cases taken : apply i s with
    | none => simp only [List.cons_append, runAll, taken, Option.bind_none]
    | some t =>
      have tail := ih t
      simpa only [List.cons_append, runAll, taken, Option.bind_some] using tail

theorem runAll_snoc (reached : runAll apply done initial = some s) (taken : apply i s = some t) :
    runAll apply (done ++ [i]) initial = some t := by
  rw [runAll_append, reached]
  simp only [Option.bind_some, runAll, taken]

/-- A script that can be run to its end can be run up to everywhere. -/
theorem runAll_isSome_of_append (whole : (runAll apply (done ++ rest) initial).isSome) :
    (runAll apply done initial).isSome := by
  rw [runAll_append] at whole
  exact Option.isSome_of_isSome_bind whole

namespace Lasting

variable (lasting : Lasting apply present)

include lasting

theorem stays_runAll (there : present i s) (ran : runAll apply script s = some t) : present i t := by
  induction script generalizing s with
  | nil =>
    obtain rfl : s = t := Option.some.inj ran
    exact there
  | cons j rest ih =>
    obtain ⟨next, taken, tail⟩ := Option.bind_eq_some_iff.mp ran
    exact ih (lasting.stays there taken) tail

theorem present_runAll (ran : runAll apply script s = some t) : ∀ i ∈ script, present i t := by
  induction script generalizing s with
  | nil => intro i among; cases among
  | cons j rest ih =>
    obtain ⟨next, taken, tail⟩ := Option.bind_eq_some_iff.mp ran
    intro i among
    cases among with
    | head => exact lasting.stays_runAll (lasting.leaves taken) tail
    | tail _ among => exact ih tail i among

/-- The objects of the first script are there in every later version. -/
theorem present_schemaAt {scripts : ℕ → List ι} {v : ℕ} (at_v : schemaAt apply scripts initial (v + 1) = some s) :
    ∀ i ∈ scripts 1, present i s := by
  induction v generalizing s with
  | zero => exact lasting.present_runAll (s := initial) at_v
  | succ v ih =>
    obtain ⟨before, reached, ran⟩ := Option.bind_eq_some_iff.mp at_v
    intro i among
    exact lasting.stays_runAll (ih reached i among) ran

end Lasting

/-- Guarded statements whose objects are there do nothing. -/
theorem runAll_eq_self (guarded : ∀ i ∈ script, Guarded apply present i) (there : ∀ i ∈ script, present i s) :
    runAll apply script s = some s := by
  induction script with
  | nil => rfl
  | cons i rest ih =>
    have taken : apply i s = some s := guarded i List.mem_cons_self s (there i List.mem_cons_self)
    have tail := ih (fun j among => guarded j (List.mem_cons_of_mem i among))
      (fun j among => there j (List.mem_cons_of_mem i among))
    simp only [runAll, taken, Option.bind_some, tail]

namespace Begun

theorem start (script : List ι) (initial : σ) : Begun apply script initial initial :=
  ⟨[], script, rfl, rfl⟩

section

variable (lasting : Lasting apply present)

include lasting

/-- Whoever has got as far as the objects of a script are there, the script has been run that far. -/
theorem runAll_done (guarded : ∀ i ∈ script, Guarded apply present i) (begun : Begun apply script initial s)
    (split : done ++ rest = script)
    (there : ∀ i ∈ done, present i s) :
    runAll apply done initial = some s ∨ ∀ i, rest.head? = some i → present i s := by
  obtain ⟨done', rest', split', ran⟩ := begun
  have both : done ++ rest = done' ++ rest' := split.trans split'.symm
  rcases List.append_eq_append_iff.mp both with ⟨more, longer, remains⟩ | ⟨more, longer, remains⟩
  · cases more with
    | nil =>
      rw [List.append_nil] at longer
      exact .inl (longer ▸ ran)
    | cons j more =>
      refine .inr fun i first => ?_
      have same : j = i := by
        rw [remains] at first
        exact Option.some.inj first
      have among : i ∈ done' := by
        rw [longer, same]
        exact List.mem_append_right done List.mem_cons_self
      exact lasting.present_runAll ran i among
  · refine .inl ?_
    have idle : runAll apply more s = some s := by
      refine runAll_eq_self (fun i among => (guarded i ?_ : Guarded apply present i)) fun i among => there i ?_
      · rw [← split, longer]
        exact List.mem_append_left rest (List.mem_append_right done' among)
      · rw [longer]
        exact List.mem_append_right done' among
    rw [longer, runAll_append, ran]
    exact idle

/-- The next statement of a party is not refused, and leaves a script that has been run up to somewhere. -/
theorem next (guarded : ∀ i ∈ script, Guarded apply present i) (begun : Begun apply script initial s)
    (split : done ++ i :: rest = script) (complete : (runAll apply script initial).isSome)
    (there : ∀ j ∈ done, present j s) :
    ∃ t, apply i s = some t ∧ Begun apply script initial t := by
  cases runAll_done lasting guarded begun split there with
  | inl ran =>
    have further : done ++ [i] ++ rest = script := by rw [List.append_assoc]; exact split
    obtain ⟨t, reached⟩ := Option.isSome_iff_exists.mp
      (runAll_isSome_of_append (further ▸ complete : (runAll apply (done ++ [i] ++ rest) initial).isSome = true))
    have taken : apply i s = some t := by
      rw [runAll_append, ran] at reached
      simpa only [Option.bind_some, runAll, Option.bind_fun_some] using reached
    exact ⟨t, taken, done ++ [i], rest, further, reached⟩
  | inr there =>
    have inside : i ∈ script := split ▸ List.mem_append_right done List.mem_cons_self
    exact ⟨s, guarded i inside s (there i rfl), begun⟩

end

/-- With all its objects there the script has been run to its end. -/
theorem finished (guarded : ∀ i ∈ script, Guarded apply present i) (begun : Begun apply script initial s)
    (there : ∀ i ∈ script, present i s) : runAll apply script initial = some s := by
  obtain ⟨done', rest', split', ran⟩ := begun
  have idle : runAll apply rest' s = some s := by
    refine runAll_eq_self (fun i among => (guarded i ?_ : Guarded apply present i)) fun i among => there i ?_
    · exact split' ▸ List.mem_append_right done' among
    · exact split' ▸ List.mem_append_right done' among
  rw [← split', runAll_append, ran]
  exact idle

end Begun

end LocalWebAccess.VersionedSchemas
