import LocalWebAccess.PythonText
import Mathlib.Data.List.Basic
import Mathlib.Data.List.DropRight
import Mathlib.Tactic.Cases
import Mathlib.Tactic.SplitIfs

/-!
# Workspace globs

The patterns of npm workspaces against the path of a package, as `PurePosixPath.full_match` reads them
once their braces are expanded.
-/
namespace LocalWebAccess.Workspaces

abbrev Name := List Char

abbrev Path := List Name

def up : Name := ['.', '.']

/-! ## Components -/

/-- Within a component `*` stands for any characters and `?` for one. -/
def matchName : Name → Name → Bool
  | [], name => name = []
  | c :: glob, name =>
    if c = '*' then name.tails.any (matchName glob)
    else
      match name with
      | [] => false
      | d :: name => (c = '?' || c = d) && matchName glob name

/-- `**` stands for any components, at the end of a pattern for at least one. -/
def matchPath : Path → Path → Bool
  | [], path => path = []
  | part :: glob, path =>
    if part = ['*', '*'] then if glob = [] then path ≠ [] else path.tails.any (matchPath glob)
    else
      match path with
      | [] => false
      | name :: path => matchName part name && matchPath glob path

/-- The components that `PurePosixPath` keeps of a text. -/
def components (text : List Char) : Path := (text.splitOn '/').filter fun part => part ≠ [] && part ≠ ['.']

/-- `path.full_match(pattern)` of a relative path; no absolute pattern matches it. -/
def fullMatch (path : Path) (pattern : List Char) : Bool :=
  pattern.head? ≠ some '/' && matchPath (components pattern) path

/-! ## Braces -/

def notBrace (c : Char) : Bool := c ≠ '{' && c ≠ '}'

/-- `re.search(r"\{([^{}]*,[^{}]*)\}", pattern)`: what stands before and behind, and the choices. -/
def findBraces : List Char → Option (List Char × List (List Char) × List Char)
  | [] => none
  | c :: text =>
    let inner := text.takeWhile notBrace
    let behind := text.dropWhile notBrace
    if c = '{' ∧ behind.head? = some '}' ∧ ',' ∈ inner then some ([], inner.splitOn ',', behind.tail)
    else (findBraces text).map fun found => (c :: found.1, found.2)

def matchesFrom (path : Path) : ℕ → List Char → Bool
  | 0, pattern => fullMatch path pattern
  | fuel + 1, pattern =>
    match findBraces pattern with
    | none => fullMatch path pattern
    | some (before, choices, behind) => choices.any fun choice => matchesFrom path fuel (before ++ choice ++ behind)

/-- The inner `matches`; every expansion makes the pattern shorter. -/
def matchesPattern (path : Path) (pattern : List Char) : Bool := matchesFrom path pattern.length pattern

theorem length_of_mem_splitOn {choice text : List Char} {c : Char} (mem : choice ∈ text.splitOn c) :
    choice.length ≤ text.length := by
  induction text generalizing choice with
  | nil =>
    rw [List.splitOn_nil, List.mem_singleton] at mem
    exact mem ▸ le_rfl
  | cons d text ih =>
    have first : text.splitOn c ≠ [] := List.splitOn_ne_nil c text
    rw [List.splitOn, List.splitOnP_cons_eq_if_modifyHead] at mem
    split_ifs at mem with cut
    · rcases List.mem_cons.mp mem with rfl | later
      · exact Nat.zero_le _
      · exact (ih later).trans (Nat.le_succ _)
    · obtain ⟨head, rest, split⟩ := List.exists_cons_of_ne_nil first
      rw [← List.splitOn, split, List.modifyHead_cons] at mem
      rw [split] at ih
      rcases List.mem_cons.mp mem with rfl | later
      · exact Nat.succ_le_succ (ih List.mem_cons_self)
      · exact (ih (List.mem_cons_of_mem _ later)).trans (Nat.le_succ _)

theorem findBraces_length {pattern before behind choice : List Char} {choices : List (List Char)}
    (found : findBraces pattern = some (before, choices, behind)) (mem : choice ∈ choices) :
    (before ++ choice ++ behind).length < pattern.length := by
  induction pattern generalizing before with
  | nil => cases found
  | cons c text ih =>
    rw [findBraces] at found
    split_ifs at found with opens
    · obtain ⟨rfl, rest⟩ := Prod.mk.inj (Option.some.inj found)
      obtain ⟨rfl, rfl⟩ := Prod.mk.inj rest
      have inner := length_of_mem_splitOn mem
      have whole : (text.takeWhile notBrace).length + (text.dropWhile notBrace).length = text.length := by
        rw [← List.length_append, List.takeWhile_append_dropWhile]
      simp only [List.nil_append, List.length_append, List.length_tail, List.length_cons]
      omega
    · obtain ⟨⟨before', rest⟩, found', same⟩ := Option.map_eq_some_iff.mp found
      obtain ⟨rfl, same'⟩ := Prod.mk.inj same
      subst same'
      have shorter := ih found'
      simp only [List.length_append, List.length_cons] at shorter ⊢
      omega

theorem matchesFrom_congr {path : Path} {pattern : List Char} {fuel fuel' : ℕ} (enough : pattern.length ≤ fuel)
    (enough' : pattern.length ≤ fuel') : matchesFrom path fuel pattern = matchesFrom path fuel' pattern := by
  induction fuel generalizing fuel' pattern with
  | zero =>
    obtain rfl := List.length_eq_zero_iff.mp (Nat.le_zero.mp enough)
    cases fuel' <;> rfl
  | succ fuel ih =>
    cases fuel' with
    | zero =>
      obtain rfl := List.length_eq_zero_iff.mp (Nat.le_zero.mp enough')
      rfl
    | succ fuel' =>
      cases found : findBraces pattern with
      | none => simp only [matchesFrom, found]
      | some parts =>
        obtain ⟨before, choices, behind⟩ := parts
        simp only [matchesFrom, found]
        rw [Bool.eq_iff_iff, List.any_eq_true, List.any_eq_true]
        refine exists_congr fun choice => and_congr_right fun mem => ?_
        have shorter := findBraces_length found mem
        rw [ih (by omega) (by omega : _ ≤ fuel')]

/-- The recursion of the source. -/
theorem matchesPattern_eq (path : Path) (pattern : List Char) :
    matchesPattern path pattern =
      match findBraces pattern with
      | none => fullMatch path pattern
      | some (before, choices, behind) =>
        choices.any fun choice => matchesPattern path (before ++ choice ++ behind) := by
  have once : matchesPattern path pattern = matchesFrom path (pattern.length + 1) pattern :=
    matchesFrom_congr le_rfl (Nat.le_succ _)
  cases found : findBraces pattern with
  | none => simp only [once, matchesFrom, found]
  | some parts =>
    obtain ⟨before, choices, behind⟩ := parts
    simp only [once, matchesFrom, found]
    rw [Bool.eq_iff_iff, List.any_eq_true, List.any_eq_true]
    refine exists_congr fun choice => and_congr_right fun mem => ?_
    rw [matchesFrom_congr (findBraces_length found mem).le le_rfl, matchesPattern]

end LocalWebAccess.Workspaces
