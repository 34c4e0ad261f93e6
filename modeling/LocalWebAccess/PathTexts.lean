import LocalWebAccess.PythonText
import LocalWebAccess.TextReplacement
import Mathlib.Data.Char

/-!
# Rewriting the paths in a text

The old root is replaced in three passes: before a slash, before a backslash, and before everything
else that is no character of a path. What stands before the root is not looked at.
-/
namespace LocalWebAccess.PathTexts
open PythonText TextReplacement

abbrev Text : Type := List Char

/-- `[A-Za-z0-9_./\\-]`. -/
def isPathChar (c : Char) : Bool := c.isAlphanum || c ∈ ['_', '.', '/', '\\', '-']

/-- The lookahead `(?![A-Za-z0-9_./\\-])`. -/
def ended : Text → Bool
  | [] => true
  | c :: _ => !isPathChar c

def anywhere (_ : Text) : Bool := true

/-! ## The template of `re.sub` -/

def isOctal (c : Char) : Bool := '0' ≤ c && c ≤ '7'

def octal (digits : Text) : ℕ := digits.foldl (fun n d => 8 * n + (d.toNat - '0'.toNat)) 0

def ESCAPES : List (Char × ℕ) :=
  [('a', 7), ('b', 8), ('f', 12), ('n', 10), ('r', 13), ('t', 9), ('v', 11), ('\\', 92)]

/-- What the escape after a backslash stands for, and its length. The pattern has no groups, so only
the whole match can be referred to. -/
def escape (found : Text) : Text → Option (Text × ℕ)
  | [] => none
  | 'g' :: '<' :: rest =>
    let name := rest.takeWhile (· ≠ '>')
    if '>' ∈ rest ∧ name ≠ [] ∧ name.all (· = '0') then some (found, name.length + 3) else none
  | '0' :: rest =>
    let digits := (rest.take 2).takeWhile isOctal
    some ([Char.ofNat (octal digits)], digits.length + 1)
  | c :: rest =>
    if c.isDigit then
      let digits := c :: rest.take 2
      if digits.length = 3 ∧ digits.all isOctal ∧ octal digits ≤ 255 then some ([Char.ofNat (octal digits)], 3)
      else none
    else
      match ESCAPES.lookup c with
      | some code => some ([Char.ofNat code], 1)
      | none => if c.isAlpha then none else some (['\\', c], 1)

/-- The template from a position whose first `skip` characters belong to an escape that has been read. -/
def expandFrom (found : Text) : (skip : ℕ) → Text → Option Text
  | _, [] => some []
  | skip + 1, _ :: template => expandFrom found skip template
  | 0, c :: template =>
    if c = '\\' then do
      let (piece, length) ← escape found template
      let rest ← expandFrom found length template
      return piece ++ rest
    else (expandFrom found 0 template).map (c :: ·)

/-- The replacement of a match; a template with a bad escape raises, also where nothing matches. -/
def expandTemplate (found template : Text) : Option Text := expandFrom found 0 template

/-- The template stands for itself. -/
def Literal (template : Text) : Prop := ∀ found, expandTemplate found template = some template

/-- `out.replace(needle, …)` under its guard. -/
def replaceSeparated (old new : Text) (separator : Char) (out : Text) : Text :=
  let needle := old ++ [separator]
  if occursIn needle out then replace needle anywhere (new ++ [separator]) out else out

def replacePaths (old new repl text : Text) : Text :=
  let out := ['/', '\\'].foldl (fun out separator => replaceSeparated old new separator out) text
  replace old ended repl out

def rewriteTextPaths (text old new : Text) : Option Text :=
  if old = new ∨ old = [] then some text
  else (expandTemplate old new).map fun repl => replacePaths old new repl text

def containsOldPath (text old : Text) : Bool :=
  old ≠ [] && (occursIn (old ++ ['/']) text || occursIn (old ++ ['\\']) text || Occurs old ended text)

/-- The root of a workspace. -/
structure Root where
  path : Text
  absolute : path.head? = some '/'

theorem Root.filled (root : Root) : root.path ≠ [] := by
  intro empty
  have absolute := root.absolute
  rw [empty] at absolute
  exact absurd absolute (by decide)

/-! ## The passes -/

variable {old new repl text v : Text} {R : Text → Text → Prop}

theorem occursIn_iff {needle : Text} : occursIn needle text = true ↔ Occurs needle anywhere text := by
  simp [occursIn, Occurs, Hit, anywhere]

theorem append_ne_nil (old : Text) (separator : Char) : old ++ [separator] ≠ [] := by simp

/-- The guard changes nothing. -/
theorem replaceSeparated_eq (old new : Text) (separator : Char) (out : Text) :
    replaceSeparated old new separator out = replace (old ++ [separator]) anywhere (new ++ [separator]) out := by
  unfold replaceSeparated
  dsimp only
  split_ifs with found
  · rfl
  · rw [occursIn_iff] at found
    exact (replace_eq_self found).symm

theorem replaceSeparated_eq_self {separator : Char} (absent : occursIn (old ++ [separator]) text = false) :
    replaceSeparated old new separator text = text := by
  rw [replaceSeparated, if_neg (by rw [absent]; decide)]

theorem replaceSeparated_toward (order : Contextual R) (moves : R old new) (separator : Char) (text : Text) :
    replaceSeparated old new separator text = text ∨ R text (replaceSeparated old new separator text) := by
  rw [replaceSeparated_eq]
  exact replace_toward order (append_ne_nil old separator) (order.context [] [separator] _ _ moves) text

theorem replaceSeparated_moves (order : Contextual R) (moves : R old new) {separator : Char}
    (found : occursIn (old ++ [separator]) text = true) : R text (replaceSeparated old new separator text) := by
  rw [replaceSeparated_eq]
  exact replace_moves order (append_ne_nil old separator) (order.context [] [separator] _ _ moves)
    (occursIn_iff.mp found)

theorem replacePaths_eq (old new repl text : Text) : replacePaths old new repl text =
    replace old ended repl (replaceSeparated old new '\\' (replaceSeparated old new '/' text)) := rfl

theorem toward_trans (order : Contextual R) {s t u : Text} (st : t = s ∨ R s t) (tu : u = t ∨ R t u) :
    u = s ∨ R s u := by
  rcases st with rfl | st
  · exact tu
  · rcases tu with rfl | tu
    · exact .inr st
    · exact .inr (order.trans _ _ _ st tu)

/-- A step that leads back to the start has been none. -/
theorem eq_of_toward (order : Contextual R) {s t u : Text} (st : t = s ∨ R s t) (tu : u = t ∨ R t u)
    (back : u = s) : t = s := by
  rcases st with same | st
  · exact same
  · subst back
    rcases tu with same | tu
    · exact same.symm
    · exact absurd (order.trans _ _ _ st tu) (order.irrefl _)

/-- The passes after the first one. -/
theorem later_toward (order : Contextual R) (moves : R old new) (filled : old ≠ []) (text : Text) :
    replace old ended new (replaceSeparated old new '\\' text) = text ∨
      R text (replace old ended new (replaceSeparated old new '\\' text)) :=
  toward_trans order (replaceSeparated_toward order moves '\\' text) (replace_toward order filled moves _)

theorem later_eq_self (order : Contextual R) (moves : R old new) (filled : old ≠ [])
    (same : replace old ended new (replaceSeparated old new '\\' text) = text) :
    occursIn (old ++ ['\\']) text = false ∧ ¬ Occurs old ended text := by
  have first := eq_of_toward order (replaceSeparated_toward order moves '\\' text)
    (replace_toward order filled moves _) same
  rw [first] at same
  constructor
  · by_contra found
    rw [Bool.not_eq_false] at found
    have moved := replaceSeparated_moves order moves found
    rw [first] at moved
    exact order.irrefl _ moved
  · intro found
    have moved := replace_moves order filled moves found
    rw [same] at moved
    exact order.irrefl _ moved

theorem replaceSeparated_under (rest : Text) :
    replaceSeparated old new '/' (old ++ '/' :: rest) = new ++ '/' :: replaceSeparated old new '/' rest := by
  rw [replaceSeparated_eq, replaceSeparated_eq]
  have ends : anywhere rest = true := rfl
  have pass := replace_append (new ++ ['/']) (append_ne_nil old '/') ends
  simpa using pass

/-- The root itself is rewritten by the last pass. -/
theorem replacePaths_root (filled : old ≠ []) : replacePaths old new repl old = repl := by
  have longer : ∀ separator, occursIn (old ++ [separator]) old = false := by
    intro separator
    by_contra found
    rw [Bool.not_eq_false, occursIn_iff] at found
    obtain ⟨tail, mem, ⟨start, -⟩⟩ := found
    have := ((List.mem_tails _ _).mp mem).length_le
    have := start.length_le
    simp only [List.length_append, List.length_singleton] at this
    omega
  rw [replacePaths_eq, replaceSeparated_eq_self (longer _), replaceSeparated_eq_self (longer _)]
  have ends : ended [] = true := rfl
  have pass := replace_append repl filled ends
  simpa using pass

/-- A path with a backslash after the root does not stay. -/
theorem replacePaths_backslash (filled : old ≠ []) (differ : old ≠ new) (rest : Text) :
    replacePaths old new new (old ++ '\\' :: rest) ≠ old ++ '\\' :: rest := by
  intro same
  obtain ⟨R, order, moves⟩ := exists_contextual differ
  rw [replacePaths_eq] at same
  have first := eq_of_toward order (replaceSeparated_toward order moves '/' _) (later_toward order moves filled _) same
  rw [first] at same
  have absent := (later_eq_self order moves filled same).1
  have found : occursIn (old ++ ['\\']) (old ++ '\\' :: rest) = true := by
    have ends : anywhere rest = true := rfl
    have occurs := occurs_append (old ++ ['\\']) [] ends
    rw [occursIn_iff]
    simpa using occurs
  rw [absent] at found
  exact absurd found (by decide)

end LocalWebAccess.PathTexts
