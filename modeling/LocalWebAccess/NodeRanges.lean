import LocalWebAccess.AgentLogPages
import LocalWebAccess.VersionRanges

/-!
# Node ranges

`engines.node` of a package is read as the common subset of npm's ranges, once to ask whether a version
is in the range and once to find the versions of a major line that are.
-/
namespace LocalWebAccess.NodeRanges

open PythonText VersionRanges
open AgentLogs (decimal int)

/-- What Python raises: `int` of a digit that is no decimal, and `None` compared with a number. -/
inductive Raised where
  | valueError
  | typeError
  deriving DecidableEq

/-! ## Partial versions -/

/-- The characters with a digit value that `int` does not take. -/
def superscripts : List (ℕ × ℕ) :=
  [(0xb2, 0xb3), (0xb9, 0xb9), (0x1369, 0x1371), (0x19da, 0x19da), (0x2070, 0x2070), (0x2074, 0x2079), (0x2080, 0x2089),
    (0x2460, 0x2468), (0x2474, 0x247c), (0x2488, 0x2490), (0x24ea, 0x24ea), (0x24f5, 0x24fd), (0x24ff, 0x24ff),
    (0x2776, 0x277e), (0x2780, 0x2788), (0x278a, 0x2792), (0x10a40, 0x10a43), (0x10e60, 0x10e68), (0x11052, 0x1105a),
    (0x1f100, 0x1f10a)]

/-- `str.isdigit` -/
def isDigitText (text : List Char) : Bool :=
  text ≠ [] && text.all fun c => (decimal c).isSome || superscripts.any fun r => r.1 ≤ c.toNat && c.toNat ≤ r.2

def isWildcard (text : List Char) : Bool := text ∈ [['*'], ['x'], ['X']]

/-- A component of a version: `some none` for a wildcard, `none` where the token is given up. -/
def parsePart (part : List Char) : Except Raised (Option (Option ℕ)) :=
  if isWildcard part then .ok (some none)
  else if isDigitText part then
    match int part with
    | some n => .ok (some (some n.toNat))
    | none => .error .valueError
  else .ok none

def parseParts : List (List Char) → Except Raised (Option (List (Option ℕ)))
  | [] => .ok (some [])
  | part :: parts =>
    match parsePart (strip part) with
    | .error e => .error e
    | .ok none => .ok none
    | .ok (some num) =>
      match parseParts parts with
      | .error e => .error e
      | .ok none => .ok none
      | .ok (some nums) => .ok (some (num :: nums))

/-- The first three numbers, missing ones as wildcards. -/
def padded (nums : List (Option ℕ)) : Partial :=
  ⟨(nums[0]?).join, (nums[1]?).join, (nums[2]?).join⟩

/-- `_parse_partial_version` -/
def parsePartialVersion (token : List Char) : Except Raised (Option Partial) :=
  if isWildcard (strip token) then .ok (some ⟨none, none, none⟩)
  else
    let parts := (strip token).splitOn '.'
    if 3 < parts.length then .ok none
    else
      match parseParts parts with
      | .error e => .error e
      | .ok none => .ok none
      | .ok (some nums) => .ok (some (padded nums))

/-! ## Bounds -/

/-- An end of an interval; the first component may be `None` by mistake. -/
structure Bound where
  major : Option ℕ
  minor : ℕ
  patch : ℕ
  deriving DecidableEq

structure Bounds where
  low : Bound
  high : Option Bound
  deriving DecidableEq

def Bound.of (v : Version) : Bound := ⟨some v.major, v.minor, v.patch⟩

def Bounds.of (i : Interval) : Bounds := ⟨.of i.low, i.high.map .of⟩

def zero : Bound := ⟨some 0, 0, 0⟩

/-- `a < b` of tuples. -/
def Bound.lt (a b : Bound) : Except Raised Bool :=
  match a.major, b.major with
  | some m, some n => .ok (m < n || m = n && (a.minor < b.minor || a.minor = b.minor && a.patch < b.patch))
  | none, none => .ok (a.minor < b.minor || a.minor = b.minor && a.patch < b.patch)
  | _, _ => .error .typeError

/-- `max(a, b)` -/
def Bound.max (a b : Bound) : Except Raised Bound := do
  if ← a.lt b then pure b else pure a

/-- `min(a, b)` -/
def Bound.min (a b : Bound) : Except Raised Bound := do
  if ← b.lt a then pure b else pure a

/-- `_caret_bounds` -/
def caretBounds : Partial → Bounds
  | ⟨none, _, _⟩ => ⟨zero, none⟩
  | ⟨some major, none, _⟩ => ⟨⟨some major, 0, 0⟩, some ⟨some (major + 1), 0, 0⟩⟩
  | ⟨some major, some minor, none⟩ =>
    if 0 < major then ⟨⟨some major, minor, 0⟩, some ⟨some (major + 1), 0, 0⟩⟩
    else ⟨⟨some major, minor, 0⟩, some ⟨some 0, minor + 1, 0⟩⟩
  | ⟨some major, some minor, some patch⟩ =>
    if 0 < major then ⟨⟨some major, minor, patch⟩, some ⟨some (major + 1), 0, 0⟩⟩
    else if 0 < minor then ⟨⟨some major, minor, patch⟩, some ⟨some 0, minor + 1, 0⟩⟩
    else ⟨⟨some major, minor, patch⟩, some ⟨some 0, 0, patch + 1⟩⟩

/-- `_tilde_bounds` -/
def tildeBounds : Partial → Bounds
  | ⟨none, _, _⟩ => ⟨zero, none⟩
  | ⟨some major, none, _⟩ => ⟨⟨some major, 0, 0⟩, some ⟨some (major + 1), 0, 0⟩⟩
  | ⟨some major, some minor, none⟩ => ⟨⟨some major, minor, 0⟩, some ⟨some major, minor + 1, 0⟩⟩
  | ⟨some major, some minor, some patch⟩ => ⟨⟨some major, minor, patch⟩, some ⟨some major, minor + 1, 0⟩⟩

/-- `(major or 0, minor or 0, patch or 0)` -/
def lower (ver : Partial) : Bound := ⟨some (ver.major.getD 0), ver.minor.getD 0, ver.patch.getD 0⟩

/-- The end behind `>` and `<=`. -/
def upper : Partial → Bound
  | ⟨major, none, _⟩ => ⟨some (major.elim 1 (· + 1)), 0, 0⟩
  | ⟨major, some minor, none⟩ => ⟨some (major.getD 0), minor + 1, 0⟩
  | ⟨major, some minor, some patch⟩ => ⟨major, minor, patch + 1⟩

/-- `_comparator_bounds` -/
def comparatorBounds : Op → Partial → Option Bounds
  | .exact, ⟨none, _, _⟩ => some ⟨zero, none⟩
  | .exact, ⟨some major, none, _⟩ => some ⟨⟨some major, 0, 0⟩, some ⟨some (major + 1), 0, 0⟩⟩
  | .exact, ⟨some major, some minor, none⟩ => some ⟨⟨some major, minor, 0⟩, some ⟨some major, minor + 1, 0⟩⟩
  | .exact, ⟨some major, some minor, some patch⟩ =>
    some ⟨lower ⟨some major, some minor, some patch⟩, some ⟨some major, minor, patch + 1⟩⟩
  | .atLeast, ver => some ⟨lower ver, none⟩
  | .greater, ver => some ⟨upper ver, none⟩
  | .less, ver => some ⟨zero, some (lower ver)⟩
  | .atMost, ver => some ⟨zero, some (upper ver)⟩
  | .tilde, _ => none
  | .caret, _ => none

/-! ## Atoms -/

/-- A component of a range as `_RANGE_ATOM_RE` finds it. Of a hyphen range only its two words are read
again. -/
inductive Atom where
  | hyphen (left right : List Char)
  | plain (text : List Char)
  deriving DecidableEq

/-- The class `[0-9.*xX]`. -/
def isVersionChar (c : Char) : Bool := c.isDigit || c ∈ ['.', '*', 'x', 'X']

def isInk (c : Char) : Bool := !isSpace c

/-- The operator a text starts with, and the rest. -/
def splitOp : List Char → Option (Op × List Char × List Char)
  | '^' :: rest => some (.caret, ['^'], rest)
  | '~' :: rest => some (.tilde, ['~'], rest)
  | '>' :: '=' :: rest => some (.atLeast, ['>', '='], rest)
  | '<' :: '=' :: rest => some (.atMost, ['<', '='], rest)
  | '>' :: rest => some (.greater, ['>'], rest)
  | '<' :: rest => some (.less, ['<'], rest)
  | '=' :: rest => some (.exact, ['='], rest)
  | _ => none

/-- `\S+\s+-\s+\S+` at the start of the text, and what is left. -/
def hyphenAtom (text : List Char) : Option (Atom × List Char) :=
  match (text.dropWhile isInk).dropWhile isSpace with
  | '-' :: more =>
    let right := (more.dropWhile isSpace).takeWhile isInk
    if (more.takeWhile isSpace) = [] || right = [] then none
    else some (.hyphen (text.takeWhile isInk) right, (more.dropWhile isSpace).dropWhile isInk)
  | _ => none

/-- `(?:\^|~|>=|<=|>|<|=)\s*[0-9.*xX]+` at the start of the text, and what is left. -/
def comparatorAtom (text : List Char) : Option (Atom × List Char) :=
  match splitOp text with
  | none => none
  | some (_, symbol, rest) =>
    let version := (rest.dropWhile isSpace).takeWhile isVersionChar
    if version = [] then none
    else some (.plain (symbol ++ rest.takeWhile isSpace ++ version), (rest.dropWhile isSpace).dropWhile isVersionChar)

/-- The alternatives of `_RANGE_ATOM_RE` at a character that is no blank, the last one `\S+`. -/
def nextAtom (text : List Char) : Atom × List Char :=
  ((hyphenAtom text).or (comparatorAtom text)).getD (.plain (text.takeWhile isInk), text.dropWhile isInk)

def atomsFrom : ℕ → List Char → List Atom
  | 0, _ => []
  | fuel + 1, text =>
    match text.dropWhile isSpace with
    | [] => []
    | c :: rest => (nextAtom (c :: rest)).1 :: atomsFrom fuel (nextAtom (c :: rest)).2

/-- `_RANGE_ATOM_RE.findall(branch)`; every atom takes a character. -/
def atoms (branch : List Char) : List Atom := atomsFrom branch.length branch

/-- `^(\^|~|>=|<=|>|<|=)?\s*([0-9.*xX]+)$` -/
def matchPlain (text : List Char) : Option (Op × List Char) :=
  let (op, rest) := ((splitOp text).map fun s => (s.1, s.2.2)).getD (.exact, text)
  let version := rest.dropWhile isSpace
  if version ≠ [] && version.all isVersionChar then some (op, version) else none

def opBounds (op : Op) (ver : Partial) : Option Bounds :=
  match op with
  | .caret => some (caretBounds ver)
  | .tilde => some (tildeBounds ver)
  | op => comparatorBounds op ver

def hyphenBounds (left right : Partial) : Option Bounds :=
  match left.major, right.major with
  | some low, some high =>
    some ⟨⟨some low, left.minor.getD 0, left.patch.getD 0⟩, some (
      match right.minor, right.patch with
      | none, _ => ⟨some (high + 1), 0, 0⟩
      | some minor, none => ⟨some high, minor + 1, 0⟩
      | some minor, some patch => ⟨some high, minor, patch + 1⟩)⟩
  | _, _ => none

/-- `_atom_bounds` -/
def atomBounds : Atom → Except Raised (Option Bounds)
  | .hyphen left right => do
    let left ← parsePartialVersion left
    let right ← parsePartialVersion right
    match left, right with
    | some left, some right => pure (hyphenBounds left right)
    | _, _ => pure none
  | .plain text =>
    match matchPlain text with
    | none => pure none
    | some (op, version) => do
      match ← parsePartialVersion version with
      | none => pure none
      | some ver => pure (opBounds op ver)

/-! ## The range -/

/-- `_interval_contains` -/
def intervalContains (bounds : Bounds) (version : Version) : Except Raised Bool := do
  if ← (Bound.of version).lt bounds.low then pure false
  else
    match bounds.high with
    | none => pure true
    | some high => (Bound.of version).lt high

/-- `_eval_range_atom` -/
def evalRangeAtom (atom : Atom) (version : Version) : Except Raised (Option Bool) := do
  match ← atomBounds atom with
  | none => pure none
  | some bounds => some <$> intervalContains bounds version

/-- `str.split("||")` -/
def splitBars : List Char → List (List Char)
  | [] => [[]]
  | '|' :: '|' :: text => [] :: splitBars text
  | c :: text => (splitBars text).modifyHead (c :: ·)

/-- The atoms of the branches of a range. -/
def branchAtoms (text : List Char) : List (List Atom) := (splitBars (strip text)).map atoms

def evalBranch (version : Version) (branch : List Atom) : Except Raised (Option Bool) :=
  if branch = [] then pure none
  else do
    let results ← branch.mapM (evalRangeAtom · version)
    if none ∈ results then pure none else pure (some (results.all (· = some true)))

def evalBranches (version : Version) : List (List Atom) → Except Raised (Option Bool)
  | [] => pure (some false)
  | branch :: branches => do
    match ← evalBranch version branch with
    | none => pure none
    | some true => pure (some true)
    | some false => evalBranches version branches

/-- `node_version_in_range` -/
def nodeVersionInRange (text : List Char) (version : Version) : Except Raised (Option Bool) :=
  if strip text = [] then pure none else evalBranches version (branchAtoms text)

def mergeHigh (high hi : Option Bound) : Except Raised (Option Bound) :=
  match hi, high with
  | none, high => pure high
  | some hi, none => pure (some hi)
  | some hi, some high => some <$> high.min hi

def mergeBounds : List Atom → Bounds → Except Raised (Option Bounds)
  | [], bounds => pure (some bounds)
  | atom :: branch, bounds => do
    match ← atomBounds atom with
    | none => pure none
    | some found => do
      let low ← bounds.low.max found.low
      let high ← mergeHigh bounds.high found.high
      mergeBounds branch ⟨low, high⟩

/-- `_branch_bounds` -/
def branchBounds (branch : List Atom) : Except Raised (Option Bounds) :=
  if branch = [] then pure none else mergeBounds branch ⟨zero, none⟩

/-- `None`, `False` or an interval within the line. -/
inductive Intersection where
  | unparsable
  | empty
  | within (bounds : Bounds)
  deriving DecidableEq

/-- The better of two intervals is the one that reaches higher, the first one of two alike. -/
def better (best : Option Bounds) (found : Bounds) : Except Raised Bounds :=
  match best with
  | none => pure found
  | some best =>
    match best.high, found.high with
    | none, _ => pure best
    | some _, none => pure found
    | some high, some hi => do if ← high.lt hi then pure found else pure best

/-- The part of a branch within a line, `none` where there is none. -/
def clip (start stop : Bound) (bounds : Bounds) : Except Raised (Option Bounds) := do
  let lo ← bounds.low.max start
  let hi ← (bounds.high.elim (pure stop) (·.min stop))
  if ← lo.lt hi then
    if ← hi.lt stop then pure (some ⟨lo, some hi⟩) else pure (some ⟨lo, none⟩)
  else pure none

def intersectBranches (start stop : Bound) :
    Option Bounds → List (List Atom) → Except Raised Intersection
  | none, [] => pure .empty
  | some best, [] => pure (.within best)
  | best, branch :: branches => do
    match ← branchBounds branch with
    | none => pure .unparsable
    | some bounds =>
      match ← clip start stop bounds with
      | none => intersectBranches start stop best branches
      | some found => do
        let best ← better best found
        intersectBranches start stop (some best) branches

/-- `node_range_major_intersection` -/
def nodeRangeMajorIntersection (text : List Char) (major : ℕ) : Except Raised Intersection :=
  if strip text = [] then pure .unparsable
  else intersectBranches ⟨some major, 0, 0⟩ ⟨some (major + 1), 0, 0⟩ none (branchAtoms text)

end LocalWebAccess.NodeRanges
