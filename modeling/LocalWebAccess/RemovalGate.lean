import LocalWebAccess.HookTokens
import LocalWebAccess.RemovalPaths

/-!
# The removal gate

`_rm_operands_hit_dests` looks for an `rm` of an artifact directory among the tokens of a build hook.
-/
namespace LocalWebAccess.RemovalGate

open PythonText ShellHooks
open AgentLogs (decimal)

/-! ## The gate -/

inductive Mode where
  | plain
  | single
  | double
  deriving DecidableEq

/-- `shlex.split` of a token, which is one word. Between double quotes a backslash escapes only `"` and `\`. -/
def unquote : Mode → List Char → List Char
  | .plain, '\\' :: c :: text => c :: unquote .plain text
  | .plain, '\'' :: text => unquote .single text
  | .plain, '"' :: text => unquote .double text
  | .plain, c :: text => c :: unquote .plain text
  | .single, '\'' :: text => unquote .plain text
  | .single, c :: text => c :: unquote .single text
  | .double, '"' :: text => unquote .plain text
  | .double, '\\' :: c :: text =>
    if c = '"' ∨ c = '\\' then c :: unquote .double text else '\\' :: c :: unquote .double text
  | .double, c :: text => c :: unquote .double text
  | _, [] => []

def redirects (token : Token) : Bool := token.kind = .operator && token.text.any (· ∈ ['<', '>'])

/-- What `shlex` makes of a word. -/
def Quoted.shlex : Quoted → List Char
  | .plain c => [c]
  | .escaped c => if c = '"' ∨ c = '\\' then [c] else ['\\', c]
  | .kept c => ['\\', c]

def Piece.shlex : Piece → List Char
  | .bare c => [c]
  | .escaped c => [c]
  | .single text => text
  | .double text => text.flatMap Quoted.shlex

def shlex (w : Word) : List Char := w.flatMap Piece.shlex

/-- The elements before the first comment, where the source stops to read. -/
def uncommented (hook : Hook) : List Elem := hook.elems.takeWhile fun e => !e.isComment

variable {w : Word} {before : Option Elem} {hook : Hook} {last : List Char}

variable {text gap : List Char} {dests words : List (List Char)}

/-- The options of the source. It takes `F` for an option too. -/
def Accepted (option : List Char) : Prop :=
  option ∈ ["--force".toList, "--recursive".toList] ∨
    ¬['-', '-'] <+: option ∧ ∃ c ∈ option, c ∈ ['r', 'R', 'f', 'F']

end LocalWebAccess.RemovalGate
