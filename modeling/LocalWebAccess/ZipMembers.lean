import LocalWebAccess.PythonText
import Mathlib.Algebra.Group.Nat.Defs
import Mathlib.Data.Nat.Notation

/-!
# Members of a zip

An import leaves out the members that a build makes again, and audits the names of the others. Both read a name as
its segments between slashes of either kind.
-/
namespace LocalWebAccess.ZipMembers
open PythonText

/-- `_STRIPPABLE_SEGMENTS` -/
def strippableSegments : List String :=
  ["node_modules", "__pycache__", ".pytest_cache", ".mypy_cache", ".ruff_cache", ".venv", "venv", ".git", "__MACOSX",
    ".tox", ".cache", ".eggs", ".idea", ".vscode", ".next", ".nuxt", ".turbo", ".gradle", "build/dependencies"]

/-- `_STRIPPABLE_FILES` -/
def strippableFiles : List String := [".DS_Store", "Thumbs.db", "yarn-error.log"]

/-- `name.replace("\\", "/")` -/
def slashed (name : List Char) : List Char := name.map fun c => if c = '\\' then '/' else c

/-- The segments of a name that are not empty. -/
def segments (name : List Char) : List (List Char) := ((slashed name).splitOn '/').filter (· ≠ [])

/-- The rule of the last segment. -/
def lastRule (last : List Char) : Option String :=
  if String.ofList last ∈ strippableSegments then some (String.ofList last)
  else if String.ofList last ∈ strippableFiles then some (String.ofList last)
  else if "._".toList <+: last then some "._*"
  else none

/-- The loop of `_strip_rule_for`, with the segments that it has put back together. -/
def stripRuleFrom (acc : List Char) : List (List Char) → Option String
  | [] => none
  | [last] => lastRule last
  | part :: rest =>
    let acc := acc ++ part ++ ['/']
    let joined := String.ofList (acc.rdropWhile (· = '/'))
    if String.ofList part ∈ strippableSegments then some (String.ofList part)
    else if joined ∈ strippableSegments then some joined
    else stripRuleFrom acc rest

/-- `_strip_rule_for` -/
def stripRuleFor (name : List Char) : Option String := stripRuleFrom [] (segments name)

/-- `_is_symlink_mode` -/
def isSymlinkMode (mode : ℕ) : Bool := mode ≠ 0 && mode % 2 ^ 16 / 2 ^ 12 = 0o12

/-- A name that is stripped is counted under its rule. -/
def counted (rule : String) : List (String × ℕ) → List (String × ℕ)
  | [] => [(rule, 1)]
  | (other, n) :: rest => if other = rule then (other, n + 1) :: rest else (other, n) :: counted rule rest

/-- `ZipSanitizeResult` before the contents are filtered. -/
structure ZipSanitizeResult where
  keepIndices : List ℕ
  strippedNames : List (List Char)
  strippedSymlinkCount : ℕ
  categories : List (String × ℕ)
  deriving DecidableEq, Repr

namespace ZipSanitizeResult

def empty : ZipSanitizeResult := ⟨[], [], 0, []⟩

/-- One round of the loop over the members. -/
def add (result : ZipSanitizeResult) (idx : ℕ) (name : List Char) (mode : Option ℕ) : ZipSanitizeResult :=
  match stripRuleFor name with
  | none => { result with keepIndices := result.keepIndices ++ [idx] }
  | some rule =>
    { result with
      strippedNames := result.strippedNames ++ [name]
      categories := counted rule result.categories
      strippedSymlinkCount := result.strippedSymlinkCount + if mode.any isSymlinkMode then 1 else 0 }

/-- The loop of `sanitize_zip_members`. -/
def addAll (modes : List ℕ) (result : ZipSanitizeResult) (idx : ℕ) : List (List Char) → ZipSanitizeResult
  | [] => result
  | name :: names => addAll modes (result.add idx name modes[idx]?) (idx + 1) names

end ZipSanitizeResult

/-- `sanitize_zip_members` -/
def sanitizeZipMembers (names : List (List Char)) (modes : List ℕ) : ZipSanitizeResult :=
  ZipSanitizeResult.empty.addAll modes 0 names

end LocalWebAccess.ZipMembers
