import LocalWebAccess.AgentLogPages
import LocalWebAccess.ShellHooks

/-!
# Tokens of a hook

The source splits a hook with one regular expression. A hook that is spelled in the grammar of simple
commands, without Unicode blanks or digits outside quotes, is split into its elements.
-/
namespace LocalWebAccess.RemovalGate

open PythonText ShellHooks
open AgentLogs (decimal)

/-! ## The tokens of the source -/

inductive Kind where
  | comment
  | word
  | operator
  deriving DecidableEq

structure Token where
  kind : Kind
  text : List Char
  deriving DecidableEq

/-- `"(?:\\[\s\S]|[^"\\])*"` behind its first quote, and what is left. -/
def closeDouble : List Char → Option (List Char × List Char)
  | [] => none
  | '"' :: rest => some (['"'], rest)
  | '\\' :: c :: rest => (closeDouble rest).map fun r => ('\\' :: c :: r.1, r.2)
  | ['\\'] => none
  | c :: rest => (closeDouble rest).map fun r => (c :: r.1, r.2)

/-- `'[^']*'` behind its first quote, and what is left. -/
def closeSingle (text : List Char) : Option (List Char × List Char) :=
  match text.dropWhile (· ≠ '\'') with
  | [] => none
  | c :: rest => some (text.takeWhile (· ≠ '\'') ++ [c], rest)

/-- `[^\s;&|<>()'"\\]` -/
def isWordChar (c : Char) : Bool := !isSpace c && c ∉ [';', '&', '|', '<', '>', '(', ')', '\'', '"', '\\']

/-- One repetition in the group `word`. -/
def wordPart : List Char → Option (List Char × List Char)
  | [] => none
  | c :: rest =>
    if c = '\\' then
      match rest with
      | [] => none
      | d :: rest => some (['\\', d], rest)
    else if c = '"' then (closeDouble rest).map fun r => ('"' :: r.1, r.2)
    else if c = '\'' then (closeSingle rest).map fun r => ('\'' :: r.1, r.2)
    else if isWordChar c then some ([c], rest)
    else none

/-- The longest word at the start of the text; every part takes a character. -/
def takeWord : ℕ → List Char → List Char × List Char
  | 0, text => ([], text)
  | fuel + 1, text =>
    match wordPart text with
    | none => ([], text)
    | some (part, rest) => (part ++ (takeWord fuel rest).1, (takeWord fuel rest).2)

/-- The group `operator`. -/
def operatorAt : List Char → Option (List Char × List Char)
  | '&' :: '>' :: '>' :: rest => some (['&', '>', '>'], rest)
  | '&' :: '>' :: rest => some (['&', '>'], rest)
  | '<' :: '<' :: '<' :: rest => some (['<', '<', '<'], rest)
  | '<' :: '<' :: '-' :: rest => some (['<', '<', '-'], rest)
  | '<' :: '<' :: rest => some (['<', '<'], rest)
  | '<' :: '&' :: rest => some (['<', '&'], rest)
  | '>' :: '&' :: rest => some (['>', '&'], rest)
  | '<' :: '>' :: rest => some (['<', '>'], rest)
  | '>' :: '|' :: rest => some (['>', '|'], rest)
  | '>' :: '>' :: rest => some (['>', '>'], rest)
  | '&' :: '&' :: rest => some (['&', '&'], rest)
  | '|' :: '|' :: rest => some (['|', '|'], rest)
  | '|' :: '&' :: rest => some (['|', '&'], rest)
  | c :: rest => if c ∈ [';', '&', '|', '<', '>', '(', ')', '\n'] then some ([c], rest) else none
  | [] => none

/-- What `_SHELL_TOKEN_RE` matches at the start of the text. -/
def tokenAt (text : List Char) : Option (Token × List Char) :=
  if text.head? = some '#' then some (⟨.comment, text.takeWhile (· ≠ '\n')⟩, text.dropWhile (· ≠ '\n'))
  else if (takeWord text.length text).1 ≠ [] then
    some (⟨.word, (takeWord text.length text).1⟩, (takeWord text.length text).2)
  else (operatorAt text).map fun r => (⟨.operator, r.1⟩, r.2)

/-- `_SHELL_TOKEN_RE.finditer(text)`: the tokens with what is passed before each, and the rest. -/
def scan : ℕ → List Char → List Char → List (List Char × Token) × List Char
  | 0, gap, text => ([], gap ++ text)
  | _ + 1, gap, [] => ([], gap)
  | fuel + 1, gap, c :: text =>
    match tokenAt (c :: text) with
    | some (token, rest) => ((gap, token) :: (scan fuel [] rest).1, (scan fuel [] rest).2)
    | none => scan fuel (gap ++ [c]) text

/-! ## Words -/

/-- No blank or digit outside ASCII stands outside quotes. -/
def Tame (w : Word) : Prop := ∀ c, .bare c ∈ w → isSpace c = false ∧ ((decimal c).isSome = true → c.isDigit = true)

variable {w : Word} {rest text gap : List Char} {fuel : ℕ}

/-- No word goes on here. -/
def Stops (rest : List Char) : Prop := wordPart rest = none

theorem spelling_cons (literal : Literal w) :
    ∃ c rest, spelling w = c :: rest ∧ c ≠ '#' ∧ c ∉ ['&', '|', '<', '>', ' ', '\t'] := by
  obtain ⟨p, w', rfl⟩ := List.exists_cons_of_ne_nil literal.filled
  have proper := literal.proper p List.mem_cons_self
  cases p with
  | bare c =>
    have plain : c ∉ special := proper
    simp only [special, List.mem_cons, List.not_mem_nil, or_false, not_or] at plain
    refine ⟨c, _, rfl, fun same => literal.start.1 (by simp [same]), ?_⟩
    simp [plain]
  | escaped c => exact ⟨'\\', _, rfl, by decide, by decide⟩
  | single text => exact ⟨'\'', _, rfl, by decide, by decide⟩
  | double quoted => exact ⟨'"', _, rfl, by decide, by decide⟩

/-- The characters no word goes on with. -/
def stopping : List Char := [' ', '\t', '\n', ';', '&', '|', '<', '>']

/-- The words of an element are tame. -/
def TameElem (e : Elem) : Prop := ∀ w ∈ e.lastWord, Tame w

theorem redirection_cons {op : List Char} (mem : op ∈ redirections) : ∃ c more, op = c :: more ∧ c ∈ stopping := by
  have each : ∀ op ∈ redirections, ∃ c ∈ stopping, op.head? = some c := by decide
  obtain ⟨c, stop, head⟩ := each op mem
  obtain ⟨more, rfl⟩ := List.head?_eq_some_iff.mp head
  exact ⟨c, more, rfl, stop⟩

theorem join_cons {op : List Char} (mem : op ∈ joins) : ∃ c more, op = c :: more ∧ c ∈ stopping := by
  have each : ∀ op ∈ joins, ∃ c ∈ stopping, op.head? = some c := by decide
  obtain ⟨c, stop, head⟩ := each op mem
  obtain ⟨more, rfl⟩ := List.head?_eq_some_iff.mp head
  exact ⟨c, more, rfl, stop⟩

variable {before : Option Elem} {hook : Hook} {last : List Char}

theorem redirect_cons {fd op gap : List Char} {w : Word} (proper : (Elem.redirect fd op gap w).Proper) :
    ∃ c more, (Elem.redirect fd op gap w).spelling = c :: more ∧ c ∉ ['&', '|'] ∧ (fd = [] → c ∈ stopping) := by
  obtain ⟨digits, mem, -, -⟩ := proper
  rcases fd with _ | ⟨c, fd⟩
  · obtain ⟨c, more, rfl, stop⟩ := redirection_cons mem
    have heads : ∀ op ∈ redirections, ∀ c ∈ op.head?, c ∉ ['&', '|'] := by decide
    exact ⟨c, _, rfl, heads _ mem c rfl, fun _ => stop⟩
  · refine ⟨c, _, rfl, fun bad => ?_, nofun⟩
    have marks : ∀ c ∈ ['&', '|'], c.isDigit = false := by decide
    have digit := digits c List.mem_cons_self
    rw [marks c bad] at digit
    cases digit

theorem spelling_pos {e : Elem} (proper : e.Proper) : e.spelling ≠ [] := by
  cases e with
  | word w =>
    obtain ⟨c, more, start, -⟩ := spelling_cons proper
    rw [Elem.spelling, start]
    exact List.cons_ne_nil _ _
  | redirect =>
    obtain ⟨c, more, start, -⟩ := redirect_cons proper
    rw [start]
    exact List.cons_ne_nil _ _
  | join =>
    obtain ⟨c, more, rfl, -⟩ := join_cons proper
    exact List.cons_ne_nil _ _
  | comment => exact List.cons_ne_nil _ _

end LocalWebAccess.RemovalGate
