import LocalWebAccess.PathTexts

/-!
# What the rewriting of a text keeps

Where a text can be marked so that the passes meet the marks only, and these are whole paths, the
rewriting is exact, idempotent and reversible. Roots that do not overlap always leave such marks,
if no root stands within a longer path.
-/
namespace LocalWebAccess.PathTexts
open PythonText TextReplacement

variable {old new repl text : Text}

/-- What may follow a root: a separator, the end, or what is no character of a path. -/
def live (rest : Text) : Bool := rest.head?.all fun c => c = '/' || c = '\\' || !isPathChar c

/-- No character of a path stands at the end. -/
def opens (front : Text) : Bool := front.getLast?.all fun c => !isPathChar c

def starts (c : Char) (rest : Text) : Bool := rest.head? = some c

/-- The pass that finds an occurrence. -/
inductive Pass where
  | slash
  | backslash
  | ended
  deriving DecidableEq, Repr

def Pass.follows : Pass → Text → Bool
  | slash => starts '/'
  | backslash => starts '\\'
  | ended => PathTexts.ended

/-- The passes meet the marked places, each those of its kind, and no other place. -/
structure Undisturbed (old new : Text) (m : Marked Char Pass) : Prop where
  apart : occursIn (old ++ (old ++ ['/'])) (fill (fun _ => old) m) = false
  slash : FoundAt old (starts '/') .slash (fun _ => old) m
  backslash : FoundAt old (starts '\\') .backslash (Function.update (fun _ => old) .slash new) m
  ended : FoundAt old ended .ended (Function.update (Function.update (fun _ => old) .slash new) .backslash new) m

/-- The marks are whole paths in the text that has the root at them. -/
def Whole (root : Text) (m : Marked Char Pass) : Prop :=
  ∀ A pass B, m = A ++ .inr pass :: B →
    opens (fill (fun _ => root) A) = true ∧ live (fill (fun _ => root) B) = true

def ContainsWhole (root text : Text) : Prop :=
  ∃ front rest, text = front ++ (root ++ rest) ∧ opens front = true ∧ live rest = true

def AllWhole (root text : Text) : Prop :=
  ∀ front rest, text = front ++ (root ++ rest) → live rest = true → opens front = true

/-- Only whole paths are rewritten, the verifier is content with the result, a second rewriting changes
nothing, and the way back restores a text without a path under the new root. -/
structure Lawful (old new text after : Text) : Prop where
  rewritten : rewriteTextPaths text old new = some after
  exact : ∃ m : Marked Char Pass, fill (fun _ => old) m = text ∧ fill (fun _ => new) m = after ∧ Whole old m
  verified : containsOldPath after old = false
  idempotent : rewriteTextPaths after old new = some after
  reversible : ¬ ContainsWhole new text → rewriteTextPaths after new old = some text

/-- Whole paths can be marked so that the passes meet the marks and nothing else, forth and back. -/
structure Settled (old new text : Text) (m : Marked Char Pass) : Prop where
  marked : fill (fun _ => old) m = text
  whole : Whole old m
  expands : expandTemplate old new = some new
  undisturbed : Undisturbed old new m
  gone : containsOldPath (fill (fun _ => new) m) old = false
  back : ¬ ContainsWhole new text → expandTemplate new old = some old ∧ Undisturbed new old m

/-- Roots that overlap neither each other nor themselves, and after which no root can follow at once. -/
structure Apart (old new : Text) : Prop where
  solitary : Solitary [old, new]
  closed : opens old = false

section solitary

variable {old new : Root} {m : Marked Char Pass} {f g : Pass → Text}

/-- At the marks stand roots. -/
def Rooted (old new : Root) (f : Pass → Text) : Prop := ∀ pass, f pass ∈ [old.path, new.path]

theorem Rooted.update (rooted : Rooted old new f) {root : Text} (mem : root ∈ [old.path, new.path]) (pass : Pass) :
    Rooted old new (Function.update f pass root) := by
  intro pass'
  by_cases same : pass' = pass
  · rwa [same, Function.update_self]
  · rw [Function.update_of_ne same]
    exact rooted pass'

end solitary

theorem allWhole_iff {root text : Text} : AllWhole root text ↔
    ∀ i < text.length + 1, Hit root live (text.drop i) → opens (text.take i) = true := by
  constructor
  · intro whole i _ hit
    obtain ⟨rest, start, alive⟩ := hit.eq_append
    exact whole (text.take i) rest (by rw [← start, List.take_append_drop]) alive
  · rintro whole front rest rfl alive
    have here := whole front.length (by rw [List.length_append]; omega)
    rw [List.drop_left, List.take_left] at here
    exact here (hit_append.mpr alive)

instance (root text : Text) : Decidable (AllWhole root text) := decidable_of_iff _ allWhole_iff.symm

end LocalWebAccess.PathTexts
