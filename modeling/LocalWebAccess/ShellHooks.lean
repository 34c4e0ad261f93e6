import Mathlib.Data.List.Basic
import Mathlib.Tactic.Cases
import Mathlib.Tactic.SplitIfs

/-!
# Shell hooks

Simple commands of `sh` with literal words, redirections and comments, joined by operators and newlines:
their spelling, and the words that `sh` makes of them.
-/
namespace LocalWebAccess.ShellHooks

/-! ## Words -/

/-- Between double quotes a backslash escapes only `"`, `\`, `$` and the backquote. -/
inductive Quoted where
  | plain (c : Char)
  | escaped (c : Char)
  | kept (c : Char)
  deriving DecidableEq

inductive Piece where
  | bare (c : Char)
  | escaped (c : Char)
  | single (text : List Char)
  | double (text : List Quoted)
  deriving DecidableEq

abbrev Word := List Piece

def Quoted.spelling : Quoted → List Char
  | .plain c => [c]
  | .escaped c => ['\\', c]
  | .kept c => ['\\', c]

def Piece.spelling : Piece → List Char
  | .bare c => [c]
  | .escaped c => ['\\', c]
  | .single text => '\'' :: text ++ ['\'']
  | .double text => '"' :: text.flatMap Quoted.spelling ++ ['"']

def spelling (w : Word) : List Char := w.flatMap Piece.spelling

/-- What `sh` makes of it. -/
def Quoted.meaning : Quoted → List Char
  | .plain c => [c]
  | .escaped c => [c]
  | .kept c => ['\\', c]

def Piece.meaning : Piece → List Char
  | .bare c => [c]
  | .escaped c => [c]
  | .single text => text
  | .double text => text.flatMap Quoted.meaning

def meaning (w : Word) : List Char := w.flatMap Piece.meaning

/-- The characters that end a word, and the quoting ones. -/
def special : List Char := [' ', '\t', '\n', ';', '&', '|', '<', '>', '(', ')', '\'', '"', '\\']

/-- The characters that expansions start with. -/
def expanding : List Char := ['$', '\x60', '*', '?', '[']

def Quoted.Proper : Quoted → Prop
  | .plain c => c ∉ ['"', '\\', '$', '\x60']
  | .escaped c => c ∈ ['"', '\\', '$', '\x60']
  | .kept c => c ∉ ['"', '\\', '$', '\x60', '\n']

def Piece.Proper : Piece → Prop
  | .bare c => c ∉ special
  | .escaped c => c ≠ '\n'
  | .single text => '\'' ∉ text
  | .double text => ∀ q ∈ text, q.Proper

/-- A literal word. The word `[` is a command of its own. -/
structure Literal (w : Word) : Prop where
  filled : w ≠ []
  proper : ∀ p ∈ w, p.Proper
  plain : w = [.bare '['] ∨ ∀ c ∈ expanding, .bare c ∉ w
  start : w.head? ≠ some (.bare '#') ∧ w.head? ≠ some (.bare '~')

/-! ## Hooks -/

def redirections : List (List Char) :=
  [['>'], ['<'], ['>', '>'], ['<', '&'], ['>', '&'], ['<', '>'], ['>', '|']]

def joins : List (List Char) := [['&', '&'], ['|', '|'], [';'], ['|'], ['\n']]

inductive Elem where
  | word (w : Word)
  | redirect (fd op gap : List Char) (target : Word)
  | join (op : List Char)
  | comment (text : List Char)

def Elem.spelling : Elem → List Char
  | .word w => ShellHooks.spelling w
  | .redirect fd op gap target => fd ++ (op ++ (gap ++ ShellHooks.spelling target))
  | .join op => op
  | .comment text => '#' :: text

def Blank (gap : List Char) : Prop := ∀ c ∈ gap, c ∈ [' ', '\t']

def Elem.Proper : Elem → Prop
  | .word w => Literal w
  | .redirect fd op gap target => (∀ c ∈ fd, c.isDigit = true) ∧ op ∈ redirections ∧ Blank gap ∧ Literal target
  | .join op => op ∈ joins
  | .comment text => '\n' ∉ text

/-- The word that a next one has to be set off from. -/
def Elem.lastWord : Elem → Option Word
  | .word w => some w
  | .redirect _ _ _ target => some target
  | _ => none

def Elem.isComment : Elem → Bool
  | .comment _ => true
  | _ => false

def Elem.isJoin : Elem → Bool
  | .join op => op ≠ ['\n']
  | _ => false

/-- What may stand behind an element with a gap between them, so that it is read as it is meant. -/
def Fits (before : Elem) (gap : List Char) : Elem → Prop
  | .word _ => before.isComment = false ∧ (gap ≠ [] ∨ before.lastWord = none)
  | .redirect fd _ _ _ => before.isComment = false ∧
      (gap ≠ [] ∨ before.lastWord = none ∨ fd = [] ∧ ∀ w ∈ before.lastWord, ∃ c ∈ ShellHooks.spelling w, c.isDigit = false)
  | .join op => op = ['\n'] ∧ (before.isComment = true → gap = []) ∨
      before.isComment = false ∧ (gap ≠ [] ∨ before.isJoin = false)
  | .comment _ => before.isComment = false ∧ (gap ≠ [] ∨ before.lastWord = none)

/-- Elements with the blanks before them. -/
abbrev Hook := List (List Char × Elem)

def Hook.text (hook : Hook) (last : List Char) : List Char :=
  hook.flatMap (fun e => e.1 ++ e.2.spelling) ++ last

/-- A hook that is spelled right behind an element. -/
def Hook.Spelled : Option Elem → Hook → List Char → Prop
  | before, [], last => Blank last ∧ ∀ e ∈ before, e.isComment = true → last = []
  | before, (gap, e) :: hook, last =>
    Blank gap ∧ e.Proper ∧ (∀ b ∈ before, Fits b gap e) ∧ Hook.Spelled (some e) hook last

/-! ## What `sh` executes -/

def Hook.elems (hook : Hook) : List Elem := hook.map Prod.snd

/-- The words of the simple commands. -/
def commands : List Elem → List (List Word)
  | [] => [[]]
  | .word w :: rest => (commands rest).modifyHead (w :: ·)
  | .join _ :: rest => [] :: commands rest
  | _ :: rest => commands rest

def isNameChar (c : Char) : Bool := c.isAlphanum || c = '_'

/-- `NAME=…`, the name and the sign without quotes. -/
def isAssignment (w : Word) : Bool :=
  let name := w.takeWhile fun p => match p with
    | .bare c => isNameChar c
    | _ => false
  match name, w.drop name.length with
  | .bare c :: _, .bare '=' :: _ => !c.isDigit
  | _, _ => false

/-- The program and its arguments. -/
def argv (command : List Word) : List (List Char) := (command.dropWhile isAssignment).map meaning

/-! ## Removals -/

def IsRm (program : List Char) : Prop :=
  program = ['r', 'm'] ∨ program.head? = some '/' ∧ (program.splitOn '/').getLast? = some ['r', 'm']

/-- Options and operands of `rm`, which may stand in any order before `--`. -/
def rmArguments : List (List Char) → List (List Char) × List (List Char)
  | [] => ([], [])
  | a :: rest =>
    if a = ['-', '-'] then ([], rest)
    else if a.head? = some '-' ∧ a ≠ ['-'] then (a :: (rmArguments rest).1, (rmArguments rest).2)
    else ((rmArguments rest).1, a :: (rmArguments rest).2)

/-- Recursive or forced; a long option may be shortened. -/
def IsDestructive (option : List Char) : Prop :=
  if ['-', '-'] <+: option then
    3 ≤ option.length ∧ (option <+: "--recursive".toList ∨ option <+: "--force".toList)
  else ∃ c ∈ option, c ∈ ['r', 'R', 'f']

/-- One more component of a path. -/
def enter (path : List (List Char)) (name : List Char) : List (List Char) :=
  if name = [] ∨ name = ['.'] then path else if name = ['.', '.'] then path.dropLast else path ++ [name]

/-- The normalized absolute path that a text stands for. -/
def resolve (cwd : List (List Char)) (text : List Char) : List (List Char) :=
  (text.splitOn '/').foldl enter (if text.head? = some '/' then [] else cwd)

/-- The operand is an artifact directory, lies inside one, or is above one. -/
def Reaches (cwd : List (List Char)) (dests : List (List (List Char))) (operand : List Char) : Prop :=
  operand ≠ [] ∧ ∃ dest ∈ dests, dest <+: resolve cwd operand ∨ resolve cwd operand <+: dest

/-- Some simple command is an `rm` that deletes an artifact directory or in one. -/
def Deletes (cwd : List (List Char)) (dests : List (List (List Char))) (hook : Hook) : Prop :=
  ∃ command ∈ commands hook.elems, ∃ program args, argv command = program :: args ∧ IsRm program ∧
    (∃ option ∈ (rmArguments args).1, IsDestructive option) ∧ ∃ operand ∈ (rmArguments args).2, Reaches cwd dests operand

end LocalWebAccess.ShellHooks
