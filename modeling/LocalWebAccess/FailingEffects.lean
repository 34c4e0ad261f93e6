import Mathlib.Data.Nat.Notation

/-!
# Effects that may fail

A computation changes a state and may raise; what it has changed until then stays, also for a handler. `Ends`
says how it ends, and has one rule for each way to compose computations.
-/
namespace LocalWebAccess.FailingEffects

universe u

/-- A computation that keeps its state when it raises. -/
abbrev Effect (S E α : Type u) := ExceptT E (StateM S) α

variable {S E α β : Type u}

/-- The outcome and the last state of a computation have a property. -/
def Ends (x : Effect S E α) (s : S) (post : Except E α → S → Prop) : Prop := post (x.run.run s).1 (x.run.run s).2

/-- After a value a computation goes on, an exception ends it. -/
def onValue (f : α → S → Prop) (g : E → S → Prop) : Except E α → S → Prop
  | .ok a => f a
  | .error e => g e

@[simp]
theorem onValue_ok {f : α → S → Prop} {g : E → S → Prop} {a : α} : onValue f g (.ok a) = f a := rfl

@[simp]
theorem onValue_error {f : α → S → Prop} {g : E → S → Prop} {e : E} : onValue f g (.error e) = g e := rfl

/-- Where the outcome does not matter. -/
@[simp]
theorem onValue_same {g : S → Prop} : onValue (fun (_ : α) t => g t) (fun (_ : E) t => g t) = fun _ t => g t := by
  funext r
  cases r <;> rfl

variable {x : Effect S E α} {s : S} {post : Except E α → S → Prop}

@[simp]
theorem ends_pure {a : α} : Ends (pure a : Effect S E α) s post ↔ post (.ok a) s := Iff.rfl

@[simp]
theorem ends_throw {e : E} : Ends (throw e : Effect S E α) s post ↔ post (.error e) s := Iff.rfl

@[simp]
theorem ends_bind {f : α → Effect S E β} {post : Except E β → S → Prop} :
    Ends (x >>= f) s post ↔ Ends x s (onValue (fun a t => Ends (f a) t post) fun e t => post (.error e) t) := by
  have runs : (x >>= f).run.run s = (ExceptT.bindCont f (x.run.run s).1).run (x.run.run s).2 := rfl
  unfold Ends
  rw [runs]
  cases (x.run.run s).1 <;> rfl

@[simp]
theorem ends_map {f : α → β} {post : Except E β → S → Prop} : Ends (f <$> x) s post ↔
    Ends x s (onValue (fun a t => post (.ok (f a)) t) fun e t => post (.error e) t) := by
  rw [map_eq_pure_bind, ends_bind]
  rfl

/-- What a handler makes of an outcome. -/
def handled (handler : E → Effect S E α) : Except E α → Effect S E α
  | .ok a => pure a
  | .error e => handler e

@[simp]
theorem ends_tryCatch {handler : E → Effect S E α} : Ends (tryCatch x handler) s post ↔
    Ends x s (onValue (fun a t => post (.ok a) t) fun e t => Ends (handler e) t post) := by
  have runs : (tryCatch x handler).run.run s = (handled handler (x.run.run s).1).run.run (x.run.run s).2 := by
    unfold tryCatch
    rcases ends : x.run.run s with ⟨_ | _, t⟩
    all_goals exact congrArg (fun r => (handled handler r.1).run.run r.2) ends
  unfold Ends
  rw [runs]
  cases (x.run.run s).1 <;> rfl

@[simp]
theorem ends_get {post : Except E S → S → Prop} : Ends (get : Effect S E S) s post ↔ post (.ok s) s := Iff.rfl

@[simp]
theorem ends_modify {f : S → S} {post : Except E PUnit → S → Prop} :
    Ends (modify f : Effect S E PUnit) s post ↔ post (.ok ⟨⟩) (f s) := Iff.rfl

theorem ends_ite {c : Prop} [Decidable c] {y : Effect S E α} :
    Ends (if c then x else y) s post ↔ (c → Ends x s post) ∧ (¬c → Ends y s post) := by
  by_cases holds : c <;> simp [holds]

/-- A step that raises or not. -/
def attempt (failure : Option E) : Effect S E PUnit :=
  match failure with
  | none => pure ⟨⟩
  | some e => throw e

@[simp]
theorem ends_attempt {failure : Option E} {post : Except E PUnit → S → Prop} : Ends (attempt failure) s post ↔
    (failure = none → post (.ok ⟨⟩) s) ∧ ∀ e, failure = some e → post (.error e) s := by
  cases failure <;> simp [attempt]

/-- A handler that swallows every exception. -/
def suppress (x : Effect S E PUnit) : Effect S E PUnit := tryCatch x fun _ => pure ⟨⟩

theorem ends_suppress {x : Effect S E PUnit} {post : Except E PUnit → S → Prop} : Ends (suppress x) s post ↔
    Ends x s (onValue (fun _ t => post (.ok ⟨⟩) t) fun _ t => post (.ok ⟨⟩) t) := ends_tryCatch

theorem ends_congr {post' : Except E α → S → Prop} (same : ∀ r t, post r t ↔ post' r t) :
    Ends x s post ↔ Ends x s post' := same _ _

/-- What has been found out without any effect. -/
def ofResult (r : Except E α) : Effect S E α := ExceptT.mk (pure r)

@[simp]
theorem ends_ofResult {r : Except E α} : Ends (ofResult r) s post ↔ post r s := Iff.rfl

/-- `try: … finally: …`; what the second part raises is raised. -/
def finalize (x : Effect S E α) (last : Effect S E PUnit) : Effect S E α := do
  let r ← tryCatch (x >>= fun a => pure (.ok a)) fun e => pure (.error e)
  last
  ofResult r

theorem ends_finalize {last : Effect S E PUnit} : Ends (finalize x last) s post ↔
    Ends x s fun r t => Ends last t (onValue (fun _ u => post r u) fun e u => post (.error e) u) := by
  simp only [finalize, ends_bind, ends_tryCatch, ends_pure, ends_ofResult]
  refine ends_congr fun r t => ?_
  cases r <;> rfl

theorem Ends.imp {post' : Except E α → S → Prop} (ends : Ends x s post) (weaker : ∀ r t, post r t → post' r t) :
    Ends x s post' := weaker _ _ ends

/-- Two properties that agree where the computation can end. -/
theorem Ends.congr {frame : S → Prop} {post' : Except E α → S → Prop} (ends : Ends x s fun _ t => frame t)
    (same : ∀ r t, frame t → (post r t ↔ post' r t)) : Ends x s post ↔ Ends x s post' := same _ _ ends

end LocalWebAccess.FailingEffects
