import LocalWebAccess.PythonText

/-!
# The lines of an env file

`_parse_existing_env` takes the text of the old `docker/.env` apart line by line: the value of
`DATABASE_URL`, the lines of the keys that the program does not manage itself, and the lines
that are no assignments.
-/
namespace LocalWebAccess.EnvLines
open PythonText

/-- What one line of an env file is. -/
inductive EnvLine
  | blank
  | unparseable
  | assignment (key value : List Char)
  deriving DecidableEq

def isNameStart (c : Char) : Bool := c.isAlpha || c = '_'

/-- The full match of `[A-Za-z_][A-Za-z0-9_]*`. -/
def isKey : List Char → Bool
  | [] => false
  | c :: key => isNameStart c && key.all fun c => isNameStart c || c.isDigit

def exportPrefix : List Char := ['e', 'x', 'p', 'o', 'r', 't', ' ']

/-- A line that is neither blank nor a comment, after `export` is dropped. -/
def parseAssignment (line : List Char) : EnvLine :=
  let key := strip (line.takeWhile (· ≠ '='))
  if '=' ∈ line ∧ isKey key = true then .assignment key (line.dropWhile (· ≠ '=')).tail else .unparseable

def parseLine (raw : List Char) : EnvLine :=
  let line := strip raw
  if line = [] ∨ line.head? = some '#' then .blank
  else if exportPrefix <+: line then parseAssignment (strip (line.drop exportPrefix.length))
  else parseAssignment line

/-! ## The old file -/

def databaseUrlKey : List Char := ['D', 'A', 'T', 'A', 'B', 'A', 'S', 'E', '_', 'U', 'R', 'L']

def hostPortKey : List Char := ['H', 'O', 'S', 'T', '_', 'P', 'O', 'R', 'T']

def internalPortKey : List Char := ['I', 'N', 'T', 'E', 'R', 'N', 'A', 'L', '_', 'P', 'O', 'R', 'T']

def memoryLimitKey : List Char := ['M', 'E', 'M', 'O', 'R', 'Y', '_', 'L', 'I', 'M', 'I', 'T']

def cpuLimitKey : List Char := ['C', 'P', 'U', '_', 'L', 'I', 'M', 'I', 'T']

def envManagedKeys : List (List Char) := [hostPortKey, internalPortKey, memoryLimitKey, cpuLimitKey, databaseUrlKey]

structure ExistingEnv where
  databaseUrl : Option (List Char)
  businessLines : List (List Char × List Char)
  unparseableLines : List (List Char)
  deriving DecidableEq

/-- One round of the loop of `_parse_existing_env`; `extraManagedKeys` are the keys of `buildEnv`. -/
def readLine (databaseUrlManaged : Bool) (extraManagedKeys : List (List Char)) (existing : ExistingEnv)
    (raw : List Char) : ExistingEnv :=
  match parseLine raw with
  | .blank => existing
  | .unparseable => { existing with unparseableLines := existing.unparseableLines ++ [raw] }
  | .assignment key value =>
    if key = databaseUrlKey ∧ databaseUrlManaged = true then { existing with databaseUrl := some value }
    else if key ∉ envManagedKeys ++ extraManagedKeys ∨ key = databaseUrlKey then
      { existing with businessLines := existing.businessLines ++ [(key, raw)] }
    else existing

def parseExistingEnv (databaseUrlManaged : Bool) (extraManagedKeys : List (List Char)) (text : List Char) :
    ExistingEnv :=
  (splitlines text).foldl (readLine databaseUrlManaged extraManagedKeys) ⟨none, [], []⟩

/-! ## The value of an assignment -/

section
variable {managed : List (List Char)}

end

end LocalWebAccess.EnvLines
