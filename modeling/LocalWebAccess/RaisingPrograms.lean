import Mathlib.Logic.Basic
import Mathlib.Tactic.SplitIfs

/-!
# Programs with a state that may raise

A program maps a state to a result or an exception, and to the state it leaves
in either case. A handler continues from the state in which the exception was
raised, so nothing is rolled back unless a program does it.
-/
namespace LocalWebAccess.RaisingPrograms

/-- A program over states `σ` that returns an `α` or raises an `ε`. -/
def Prog (ε σ α : Type) : Type := σ → Except ε α × σ

namespace Prog

variable {ε σ α β : Type}

instance : Monad (Prog ε σ) where
  pure a := fun s => (.ok a, s)
  bind p f := fun s =>
    match p s with
    | (.ok a, t) => f a t
    | (.error e, t) => (.error e, t)

private theorem map_id (p : Prog ε σ α) : id <$> p = p := by
  funext s
  change (match p s with | (.ok a, t) => (.ok a, t) | (.error e, t) => (.error e, t)) = p s
  rcases p s with ⟨_ | _, _⟩ <;> rfl

private theorem bind_bind {γ : Type} (p : Prog ε σ α) (f : α → Prog ε σ β) (g : β → Prog ε σ γ) :
    p >>= f >>= g = p >>= fun a => f a >>= g := by
  funext s
  change (match (match p s with | (.ok a, t) => f a t | (.error e, t) => (.error e, t)) with
      | (.ok b, t) => g b t
      | (.error e, t) => (.error e, t)) =
    match p s with
    | (.ok a, t) => (f a >>= g) t
    | (.error e, t) => (.error e, t)
  rcases p s with ⟨_ | _, _⟩ <;> rfl

instance : LawfulMonad (Prog ε σ) :=
  LawfulMonad.mk' (Prog ε σ) map_id (fun _ _ => rfl) bind_bind

def raise (e : ε) : Prog ε σ α := fun s => (.error e, s)

def get : Prog ε σ σ := fun s => (.ok s, s)

def modify (f : σ → σ) : Prog ε σ Unit := fun s => (.ok (), f s)

def ofExcept (result : Except ε α) : Prog ε σ α := fun s => (result, s)

/-- Raise an exception that is given, and go on otherwise. -/
def check : Option ε → Prog ε σ Unit
  | none => pure ()
  | some e => raise e

/-- Run a program and continue with the handler where it raises. -/
def handle (p : Prog ε σ α) (handler : ε → Prog ε σ α) : Prog ε σ α := fun s =>
  match p s with
  | (.ok a, t) => (.ok a, t)
  | (.error e, t) => handler e t

/-- Ignore whatever a program raises. -/
def suppress (p : Prog ε σ Unit) : Prog ε σ Unit := p.handle (fun _ => pure ())

/-- Run a program, and change the state it leaves however it has ended. -/
def ensure (p : Prog ε σ α) (cleanup : σ → σ) : Prog ε σ α := fun s => ((p s).1, cleanup (p s).2)

/-- Run a program on each element, until one raises. -/
def forEach (f : α → Prog ε σ Unit) : List α → Prog ε σ Unit
  | [] => pure ()
  | a :: rest => f a >>= fun _ => forEach f rest

/-! ## How a program has ended -/

variable {p : Prog ε σ α} {f : α → Prog ε σ β} {s t : σ} {a : α} {b : β} {e : ε}

@[simp] theorem pure_apply (a : α) (s : σ) : (pure a : Prog ε σ α) s = (.ok a, s) := rfl

@[simp] theorem raise_apply (e : ε) (s : σ) : (raise e : Prog ε σ α) s = (.error e, s) := rfl

@[simp] theorem get_apply (s : σ) : (get : Prog ε σ σ) s = (.ok s, s) := rfl

@[simp] theorem modify_apply (f : σ → σ) (s : σ) : (modify f : Prog ε σ Unit) s = (.ok (), f s) := rfl

@[simp] theorem ofExcept_apply (result : Except ε α) (s : σ) :
    (ofExcept result : Prog ε σ α) s = (result, s) := rfl

@[simp] theorem check_none (s : σ) : (check none : Prog ε σ Unit) s = (.ok (), s) := rfl

@[simp] theorem check_some (e : ε) (s : σ) : (check (some e) : Prog ε σ Unit) s = (.error e, s) := rfl

@[simp] theorem ite_run (c : Prop) [Decidable c] (p q : Prog ε σ α) (s : σ) :
    (if c then p else q) s = if c then p s else q s := by
  split_ifs <;> rfl

theorem bind_apply (p : Prog ε σ α) (f : α → Prog ε σ β) (s : σ) :
    (p >>= f) s =
      match p s with
      | (.ok a, t) => f a t
      | (.error e, t) => (.error e, t) := rfl

theorem bind_of_ok (h : p s = (.ok a, t)) : (p >>= f) s = f a t := by
  rw [bind_apply, h]

theorem bind_of_error (h : p s = (.error e, t)) : (p >>= f) s = (.error e, t) := by
  rw [bind_apply, h]

theorem bind_eq_ok {t : σ} :
    (p >>= f) s = (.ok b, t) ↔ ∃ a u, p s = (.ok a, u) ∧ f a u = (.ok b, t) := by
  constructor
  · intro h
    rcases run : p s with ⟨result, u⟩
    cases result with
    | ok a =>
      rw [bind_of_ok run] at h
      exact ⟨a, u, rfl, h⟩
    | error e =>
      rw [bind_of_error run] at h
      simp at h
  · rintro ⟨a, u, run, h⟩
    rwa [bind_of_ok run]

/-- A sequence raises where its first part does, or where its second part does after it. -/
theorem bind_eq_error {t : σ} :
    (p >>= f) s = (.error e, t) ↔
      p s = (.error e, t) ∨ ∃ a u, p s = (.ok a, u) ∧ f a u = (.error e, t) := by
  constructor
  · intro h
    rcases run : p s with ⟨result, u⟩
    cases result with
    | ok a =>
      rw [bind_of_ok run] at h
      exact .inr ⟨a, u, rfl, h⟩
    | error e' =>
      rw [bind_of_error run] at h
      cases h
      exact .inl rfl
  · rintro (h | ⟨a, u, run, h⟩)
    · exact bind_of_error h
    · rwa [bind_of_ok run]

theorem handle_of_ok {handler : ε → Prog ε σ α} (h : p s = (.ok a, t)) :
    p.handle handler s = (.ok a, t) := by
  simp [handle, h]

theorem handle_of_error {handler : ε → Prog ε σ α} (h : p s = (.error e, t)) :
    p.handle handler s = handler e t := by
  simp [handle, h]

/-- A suppressed program returns and leaves the state that the program has left. -/
theorem suppress_apply (p : Prog ε σ Unit) (s : σ) : suppress p s = (.ok (), (p s).2) := by
  rcases run : p s with ⟨result, u⟩
  cases result with
  | ok a => exact handle_of_ok run
  | error e => exact handle_of_error run

@[simp] theorem check_eq_ok {fault : Option ε} {u : Unit} :
    (check fault : Prog ε σ Unit) s = (.ok u, t) ↔ fault = none ∧ s = t := by
  cases fault <;> simp

@[simp] theorem check_eq_error {fault : Option ε} :
    (check fault : Prog ε σ Unit) s = (.error e, t) ↔ fault = some e ∧ s = t := by
  cases fault <;> simp

/-! ## The first exception of a sequence -/

/-- From whatever state it starts, the program raises the exception that is given, if there is one. -/
def Raises (fault : Option ε) (p : Prog ε σ Unit) : Prop := ∀ s, (p s).1 = fault.elim (.ok ()) .error

theorem raises_pure : Raises none (Pure.pure () : Prog ε σ Unit) := fun _ => rfl

theorem raises_modify (g : σ → σ) : Raises none (modify g : Prog ε σ Unit) := fun _ => rfl

theorem raises_check (fault : Option ε) : Raises fault (check fault : Prog ε σ Unit) := by
  intro s
  cases fault <;> rfl

/-- A sequence raises the exception of its first part, or else that of its second part. -/
theorem Raises.bind {a b : Option ε} {p q : Prog ε σ Unit} (first : Raises a p) (second : Raises b q) :
    Raises (a.or b) (p >>= fun _ => q) := by
  intro s
  have result := first s
  rcases run : p s with ⟨exc | u, t⟩
  · rw [run] at result
    rw [bind_of_error run]
    cases a with
    | none => cases result
    | some raised => exact result
  · rw [run] at result
    rw [bind_of_ok run]
    cases a with
    | none => exact second t
    | some raised => cases result

theorem Raises.ite {a b : Option ε} {p q : Prog ε σ Unit} (c : Prop) [Decidable c] (yes : Raises a p)
    (no : Raises b q) : Raises (if c then a else b) (if c then p else q) := by
  split_ifs
  · exact yes
  · exact no

/-! ## What a program leaves as it is -/

/-- Whatever way the program ends, it leaves a state related to the one it started from. -/
def Keeps (R : σ → σ → Prop) (p : Prog ε σ α) : Prop := ∀ s, R s (p s).2

theorem Keeps.pure {R : σ → σ → Prop} (refl : ∀ s, R s s) (a : α) :
    Keeps R (Pure.pure a : Prog ε σ α) := refl

theorem Keeps.bind {R : σ → σ → Prop} (trans : ∀ s t u, R s t → R t u → R s u)
    (first : Keeps R p) (second : ∀ a, Keeps R (f a)) : Keeps R (p >>= f) := by
  intro s
  have before := first s
  rcases run : p s with ⟨result, t⟩
  rw [run] at before
  cases result with
  | ok a =>
    rw [bind_of_ok run]
    exact trans _ _ _ before (second a t)
  | error e =>
    rw [bind_of_error run]
    exact before

/-- Where the program raises, it leaves a state related to the one it started from. -/
def RaisesWith (R : σ → σ → Prop) (p : Prog ε σ α) : Prop := ∀ s e t, p s = (.error e, t) → R s t

theorem Keeps.raisesWith {R : σ → σ → Prop} (keeps : Keeps R p) : RaisesWith R p := by
  intro s e t raised
  have related := keeps s
  rwa [raised] at related

theorem RaisesWith.of_returns {R : σ → σ → Prop} (returns : ∀ s, ∃ a, (p s).1 = .ok a) :
    RaisesWith R p := by
  intro s e t raised
  obtain ⟨a, returned⟩ := returns s
  simp [raised] at returned

theorem RaisesWith.bind {R : σ → σ → Prop} (trans : ∀ s t u, R s t → R t u → R s u)
    (first : Keeps R p) (second : ∀ a, RaisesWith R (f a)) : RaisesWith R (p >>= f) := by
  intro s e t raised
  rcases bind_eq_error.mp raised with raised | ⟨a, u, returned, raised⟩
  · exact first.raisesWith s e t raised
  · have before := first s
    rw [returned] at before
    exact trans _ _ _ before (second a u e t raised)

theorem Keeps.ite {R : σ → σ → Prop} {q : Prog ε σ α} {c : Prop} [Decidable c] (yes : Keeps R p) (no : Keeps R q) :
    Keeps R (if c then p else q) := by
  split_ifs
  · exact yes
  · exact no

/-- Whatever state the program starts from, it returns or raises the same. -/
def Blind (p : Prog ε σ α) : Prop := ∀ s t, (p s).1 = (p t).1

theorem blind_pure (a : α) : Blind (Pure.pure a : Prog ε σ α) := fun _ _ => rfl

theorem blind_ofExcept (result : Except ε α) : Blind (ofExcept result : Prog ε σ α) := fun _ _ => rfl

theorem blind_modify (g : σ → σ) : Blind (modify g : Prog ε σ Unit) := fun _ _ => rfl

theorem Blind.bind (first : Blind p) (second : ∀ a, Blind (f a)) : Blind (p >>= f) := by
  intro s t
  have same := first s t
  rcases left : p s with ⟨result, u⟩
  rcases right : p t with ⟨result', u'⟩
  rw [left, right] at same
  obtain rfl : result = result' := same
  cases result with
  | ok a =>
    rw [bind_of_ok left, bind_of_ok right]
    exact second a u u'
  | error e => rw [bind_of_error left, bind_of_error right]

theorem Blind.ite {q : Prog ε σ α} {c : Prop} [Decidable c] (yes : Blind p) (no : Blind q) :
    Blind (if c then p else q) := by
  split_ifs
  · exact yes
  · exact no

/-! ## Pre- and postconditions -/

/-- From a state in `P` the program returns in `Q` or raises in `E`. -/
def Triple (P : σ → Prop) (p : Prog ε σ α) (Q : α → σ → Prop) (E : ε → σ → Prop) : Prop :=
  ∀ s, P s → match p s with
    | (.ok a, t) => Q a t
    | (.error e, t) => E e t

section triples

variable {P P' : σ → Prop} {Q Q' : α → σ → Prop} {R : β → σ → Prop} {E E' : ε → σ → Prop}

theorem Triple.consequence (h : Triple P p Q E) (before : ∀ s, P' s → P s) (returned : ∀ a s, Q a s → Q' a s)
    (raised : ∀ e s, E e s → E' e s) : Triple P' p Q' E' := by
  intro s start
  have ended := h s (before s start)
  rcases run : p s with ⟨exc | a, t⟩
  · rw [run] at ended
    exact raised exc t ended
  · rw [run] at ended
    exact returned a t ended

theorem Triple.bind (first : Triple P p Q E) (second : ∀ a, Triple (Q a) (f a) R E) :
    Triple P (p >>= f) R E := by
  intro s start
  have ended := first s start
  rcases run : p s with ⟨exc | a, t⟩
  · rw [run] at ended
    rw [bind_of_error run]
    exact ended
  · rw [run] at ended
    rw [bind_of_ok run]
    exact second a t ended

theorem Triple.handle {F : ε → σ → Prop} {handler : ε → Prog ε σ α} (body : Triple P p Q F)
    (handlers : ∀ e, Triple (F e) (handler e) Q E) : Triple P (p.handle handler) Q E := by
  intro s start
  have ended := body s start
  rcases run : p s with ⟨exc | a, t⟩
  · rw [run] at ended
    rw [handle_of_error run]
    exact handlers exc t ended
  · rw [run] at ended
    rw [handle_of_ok run]
    exact ended

theorem Triple.ite {c : Prop} [Decidable c] {q : Prog ε σ α} (yes : c → Triple P p Q E)
    (no : ¬ c → Triple P q Q E) : Triple P (if c then p else q) Q E := by
  split_ifs with holds
  · exact yes holds
  · exact no holds

theorem triple_pure (h : ∀ s, P s → Q a s) : Triple P (Pure.pure a) Q E := h

theorem triple_raise (h : ∀ s, P s → E e s) : Triple P (raise e) Q E := h

theorem triple_modify {g : σ → σ} {Q : Unit → σ → Prop} (h : ∀ s, P s → Q () (g s)) :
    Triple P (modify g) Q E := h

theorem triple_ofExcept {result : Except ε α} (returned : ∀ a, result = .ok a → ∀ s, P s → Q a s)
    (raised : ∀ e, result = .error e → ∀ s, P s → E e s) : Triple P (ofExcept result) Q E := by
  intro s start
  rw [ofExcept_apply]
  cases result with
  | ok a => exact returned a rfl s start
  | error e => exact raised e rfl s start

theorem triple_ofExcept_bind {result : Except ε α} {f : α → Prog ε σ β}
    (returned : ∀ a, result = .ok a → Triple P (f a) R E) (raised : ∀ e s, P s → E e s) :
    Triple P (ofExcept result >>= f) R E := by
  cases result with
  | ok a => exact returned a rfl
  | error e => exact raised e

theorem triple_check {fault : Option ε} {Q : Unit → σ → Prop} (passed : fault = none → ∀ s, P s → Q () s)
    (raised : ∀ e, fault = some e → ∀ s, P s → E e s) : Triple P (check fault) Q E := by
  intro s start
  cases fault with
  | none => exact passed rfl s start
  | some e => exact raised e rfl s start

/-- The state that is read is the state from which the rest runs. -/
theorem triple_get {f : σ → Prog ε σ β} (rest : ∀ s, P s → Triple (· = s) (f s) R E) :
    Triple P (get >>= f) R E := by
  intro s start
  exact rest s start s rfl

/-- What holds of the elements done so far holds of all of them at the end. -/
theorem Triple.forEach {I : List α → σ → Prop} {f : α → Prog ε σ Unit} {all : List α}
    (each : ∀ done a rest, all = done ++ a :: rest → Triple (I done) (f a) (fun _ => I (done ++ [a])) E) :
    Triple (I []) (forEach f all) (fun _ => I all) E := by
  have loop (rest done : List α) (split : all = done ++ rest) :
      Triple (I done) (Prog.forEach f rest) (fun _ => I all) E := by
    induction rest generalizing done with
    | nil =>
      rw [List.append_nil] at split
      subst split
      exact triple_pure (fun _ h => h)
    | cons a rest ih =>
      refine Triple.bind (Q := fun _ => I (done ++ [a])) (each done a rest split) (fun _ => ?_)
      exact ih (done ++ [a]) (by simpa using split)
  exact loop all [] rfl

/-- However the program ends, it ends in a state that keeps the condition. -/
def Maintains (I : σ → Prop) (p : Prog ε σ α) : Prop := Triple I p (fun _ => I) (fun _ => I)

variable {I : σ → Prop}

theorem maintains_pure : Maintains I (Pure.pure a : Prog ε σ α) := triple_pure (fun _ h => h)

theorem maintains_raise : Maintains I (raise e : Prog ε σ α) := triple_raise (fun _ h => h)

theorem maintains_check (fault : Option ε) : Maintains I (check fault : Prog ε σ Unit) :=
  triple_check (fun _ _ h => h) (fun _ _ _ h => h)

theorem maintains_ofExcept (result : Except ε α) : Maintains I (ofExcept result : Prog ε σ α) :=
  triple_ofExcept (fun _ _ _ h => h) (fun _ _ _ h => h)

theorem maintains_modify {g : σ → σ} (h : ∀ s, I s → I (g s)) : Maintains I (modify g : Prog ε σ Unit) :=
  triple_modify h

theorem maintains_get {f : σ → Prog ε σ β} (rest : ∀ s, Maintains I (f s)) :
    Maintains I (get >>= f) := fun s => rest s s

theorem Maintains.bind (first : Maintains I p) (second : ∀ a, Maintains I (f a)) : Maintains I (p >>= f) :=
  Triple.bind first second

theorem Maintains.handle {handler : ε → Prog ε σ α} (body : Maintains I p)
    (handlers : ∀ e, Maintains I (handler e)) : Maintains I (p.handle handler) := Triple.handle body handlers

theorem Maintains.suppress {p : Prog ε σ Unit} (body : Maintains I p) : Maintains I (suppress p) :=
  body.handle (fun _ => maintains_pure)

theorem Maintains.ite {c : Prop} [Decidable c] {q : Prog ε σ α} (yes : Maintains I p) (no : Maintains I q) :
    Maintains I (if c then p else q) := Triple.ite (fun _ => yes) (fun _ => no)

/-- What a program leaves related to its start maintains a condition that the relation respects. -/
theorem Keeps.maintains {R : σ → σ → Prop} (keeps : Keeps R p) (respects : ∀ s t, I s → R s t → I t) :
    Maintains I p := by
  intro s start
  have kept := respects s _ start (keeps s)
  rcases run : p s with ⟨exc | a, t⟩
  · rwa [run] at kept
  · rwa [run] at kept

end triples

end Prog

end LocalWebAccess.RaisingPrograms
