import LocalWebAccess.WorkspaceGlobs
import Mathlib.Data.Char
import Mathlib.Data.List.Sort
import Mathlib.Data.List.Lex
import Mathlib.Data.List.Perm.Basic

/-!
# Workspaces

The packages of a monorepo. `detect_workspaces` lists directories that a pattern points at, and keeps those
that `workspace_contains` finds by matching whole paths.
-/
namespace LocalWebAccess.Workspaces

/-! ## Patterns -/

/-- A pattern without character classes and without `..`. -/
structure Pattern where
  text : List Char
  noClass : '[' ∉ text
  inside : up ∉ text.splitOn '/'

def Pattern.negative (p : Pattern) : Bool := p.text.head? = some '!'

def Pattern.glob (p : Pattern) : List Char := if p.negative then p.text.tail else p.text

/-- `glob.removeprefix("./")` -/
def removeDot : List Char → List Char
  | '.' :: '/' :: text => text
  | text => text

def stripSlash (text : List Char) : List Char := text.rdropWhile (· = '/')

def Pattern.matches' (p : Pattern) (path : Path) : Bool :=
  p.glob ≠ [] && p.glob.head? ≠ some '/' && up ∉ p.glob.splitOn '/' &&
    matchesPattern path (stripSlash (removeDot p.glob))

/-- Included by one pattern and excluded by none. -/
def containedIn (patterns : List Pattern) (path : Path) : Bool :=
  (patterns.any fun p => !p.negative && p.matches' path) && !patterns.any fun p => p.negative && p.matches' path

/-! ## The project -/

def packageJson : Name := "package.json".toList

def packagesName : Name := "packages".toList

def nodeModules : Name := "node_modules".toList

structure ProperName (name : Name) : Prop where
  filled : name ≠ []
  flat : '/' ∉ name
  named : name ≠ ['.'] ∧ name ≠ up

/-- A tree of directories and files without links at `home`, by absolute paths. Of `pnpm-workspace.yaml`,
where there is one, the patterns it gives, if any. -/
structure Project where
  home : Path
  isDir : Path → Bool
  isFile : Path → Bool
  entries : Path → List Name
  workspaces : List Pattern
  pnpm : Option (Option (List Pattern))
  root : isDir home = true
  resolved : up ∉ home
  declared : isFile (home ++ [packageJson]) = true
  listed : ∀ path name, name ≠ up → isDir (path ++ [name]) = true → isDir path = true ∧ name ∈ entries path
  named : ∀ path, ∀ name ∈ entries path, ProperName name

variable (project : Project)

/-- `workspace_contains(root, root / rel)` -/
def workspaceContains (rel : Path) : Bool :=
  if rel = [] then true
  else
    match project.pnpm with
    | some (some patterns) => containedIn patterns rel
    | some none => false
    | none => containedIn project.workspaces rel

/-- `root / text`, where it is not below a root `//` of its own. -/
def placed (text : List Char) : Option Path :=
  match text with
  | '/' :: '/' :: '/' :: rest => some (components rest)
  | '/' :: '/' :: _ => none
  | '/' :: rest => some (components rest)
  | text => some (project.home ++ components text)

/-- `_rel_within_root` -/
def relWithinRoot (path : Path) : Option Path :=
  if project.home <+: path then
    if up ∈ path.drop project.home.length then none else some (path.drop project.home.length)
  else none

def isPackage (path : Path) : Bool := project.isDir path && project.isFile (path ++ [packageJson])

/-- The packages among the entries of a directory. -/
def packagesIn (parent : Path) : List Path :=
  if project.isDir parent then
    ((project.entries parent).insertionSort (· ≤ ·)).filterMap fun name =>
      if isPackage project (parent ++ [name]) then relWithinRoot project (parent ++ [name]) else none
  else []

/-- What stands before the first `*`. -/
def literalPart (text : List Char) : List Char := stripSlash (text.takeWhile (· ≠ '*'))

/-- The directories that a pattern points at. -/
def expand (pattern : Pattern) : List Path :=
  if '*' ∈ pattern.text then
    match placed project (literalPart pattern.text) with
    | some parent => packagesIn project parent
    | none => []
  else
    match placed project pattern.text with
    | some target => if isPackage project target then (relWithinRoot project target).toList else []
    | none => []

/-- `if rel not in seen` -/
def addNew (found : List Path) (rel : Path) : List Path := if rel ∈ found then found else found ++ [rel]

/-- `as_posix` -/
def posix (rel : Path) : List Char := if rel = [] then ['.'] else ['/'].intercalate rel

/-- `pkg_dirs` before it is sorted. -/
def packageDirs : List Path :=
  let found := (project.workspaces.flatMap (expand project) ++
    packagesIn project (project.home ++ [packagesName])).foldl addNew []
  if project.workspaces = [] then found else found.filter (workspaceContains project)

/-- `detect_workspaces` -/
def detectWorkspaces : List (List Char) :=
  if project.isFile (project.home ++ [packageJson]) then
    ((packageDirs project).map posix).insertionSort (· ≤ ·)
  else []

/-! ## What is listed -/

/-- The pattern points at the directory: literally, or its part before the first `*` does at the parent. -/
def Pattern.Names (p : Pattern) (rel : Path) : Prop :=
  if '*' ∈ p.text then
    ∃ parent name, placed project (literalPart p.text) = some parent ∧ project.home ++ rel = parent ++ [name]
  else placed project p.text = some (project.home ++ rel)

/-- A pattern points at the directory, or it stands in `packages`. -/
def Listed (rel : Path) : Prop :=
  (∃ p ∈ project.workspaces, p.Names project rel) ∨ ∃ name, rel = [packagesName, name]

/-- A directory of the project with a `package.json`. -/
def Package (rel : Path) : Prop := isPackage project (project.home ++ rel) = true ∧ up ∉ rel

variable {project} {rel : Path}

theorem relWithinRoot_eq_some {path : Path} :
    relWithinRoot project path = some rel ↔ path = project.home ++ rel ∧ up ∉ rel := by
  rw [relWithinRoot]
  constructor
  · intro found
    split_ifs at found with within climbs
    obtain ⟨rest, rfl⟩ := within
    rw [List.drop_left] at found climbs
    obtain rfl := Option.some.inj found
    exact ⟨rfl, climbs⟩
  · rintro ⟨rfl, stays⟩
    rw [if_pos (List.prefix_append _ _), List.drop_left, if_neg stays]

theorem ne_up_of_append {parent : Path} {name : Name} (stays : up ∉ rel)
    (same : project.home ++ rel = parent ++ [name]) : name ≠ up := by
  have mem : name ∈ project.home ++ rel := same ▸ List.mem_append_right _ (List.mem_singleton_self name)
  rintro rfl
  exact (List.mem_append.mp mem).elim project.resolved stays

theorem mem_packagesIn {parent : Path} :
    rel ∈ packagesIn project parent ↔ (∃ name, project.home ++ rel = parent ++ [name]) ∧ Package project rel := by
  rw [packagesIn]
  constructor
  · intro mem
    split_ifs at mem with dir
    · obtain ⟨name, -, found⟩ := List.mem_filterMap.mp mem
      split_ifs at found with package
      obtain ⟨same, stays⟩ := relWithinRoot_eq_some.mp found
      exact ⟨⟨name, same.symm⟩, same ▸ package, stays⟩
    · exact absurd mem List.not_mem_nil
  · rintro ⟨⟨name, same⟩, package, stays⟩
    rw [same] at package
    have dir : project.isDir (parent ++ [name]) = true := (Bool.and_eq_true_iff.mp package).1
    obtain ⟨above, among⟩ := project.listed parent name (ne_up_of_append stays same) dir
    rw [if_pos above, List.mem_filterMap]
    refine ⟨name, (List.mem_insertionSort _).mpr among, ?_⟩
    rw [if_pos package]
    exact relWithinRoot_eq_some.mpr ⟨same.symm, stays⟩

theorem mem_expand {p : Pattern} : rel ∈ expand project p ↔ p.Names project rel ∧ Package project rel := by
  rw [expand, Pattern.Names]
  split_ifs with star
  · cases found : placed project (literalPart p.text) with
    | none => simp
    | some parent => simp [mem_packagesIn]
  · cases found : placed project p.text with
    | none => simp
    | some target =>
      dsimp only
      constructor
      · intro mem
        split_ifs at mem with package
        · obtain ⟨rfl, stays⟩ := relWithinRoot_eq_some.mp (Option.mem_toList.mp mem)
          exact ⟨rfl, package, stays⟩
        · exact absurd mem List.not_mem_nil
      · rintro ⟨same, package, stays⟩
        obtain rfl := Option.some.inj same
        rw [if_pos package, Option.mem_toList]
        exact relWithinRoot_eq_some.mpr ⟨rfl, stays⟩

theorem mem_foldl_addNew {listing found : List Path} :
    rel ∈ listing.foldl addNew found ↔ rel ∈ found ∨ rel ∈ listing := by
  induction listing generalizing found with
  | nil => simp
  | cons other listing ih =>
    rw [List.foldl_cons, ih, addNew]
    split_ifs with seen
    · constructor
      · exact fun either => either.imp_right (List.mem_cons_of_mem _)
      · rintro (old | new)
        · exact Or.inl old
        · rcases List.mem_cons.mp new with rfl | later
          · exact Or.inl seen
          · exact Or.inr later
    · rw [List.mem_append, List.mem_singleton, List.mem_cons, or_assoc]

theorem nodup_foldl_addNew {listing found : List Path} (distinct : found.Nodup) :
    (listing.foldl addNew found).Nodup := by
  induction listing generalizing found with
  | nil => exact distinct
  | cons other listing ih =>
    rw [List.foldl_cons]
    apply ih
    rw [addNew]
    split_ifs with seen
    · exact distinct
    · rw [← List.concat_eq_append]
      exact distinct.concat seen

theorem nodup_packageDirs : (packageDirs project).Nodup := by
  have distinct : ((project.workspaces.flatMap (expand project) ++
      packagesIn project (project.home ++ [packagesName])).foldl addNew []).Nodup :=
    nodup_foldl_addNew List.nodup_nil
  rw [packageDirs]
  split_ifs
  · exact distinct
  · exact distinct.filter _

/-- What is found: the packages that are listed, and with patterns only those that match. -/
theorem mem_packageDirs : rel ∈ packageDirs project ↔
    Listed project rel ∧ Package project rel ∧ (project.workspaces ≠ [] → workspaceContains project rel = true) := by
  have found : rel ∈ (project.workspaces.flatMap (expand project) ++
      packagesIn project (project.home ++ [packagesName])).foldl addNew [] ↔
      Listed project rel ∧ Package project rel := by
    rw [mem_foldl_addNew, or_iff_right List.not_mem_nil, List.mem_append, List.mem_flatMap, mem_packagesIn, Listed,
      or_and_right]
    have weak : (∃ name, project.home ++ rel = project.home ++ [packagesName] ++ [name]) ↔
        ∃ name, rel = [packagesName, name] := by
      simp
    rw [weak]
    refine or_congr_left ?_
    simp only [mem_expand]
    exact ⟨fun ⟨p, mem, names, package⟩ => ⟨⟨p, mem, names⟩, package⟩,
      fun ⟨⟨p, mem, names⟩, package⟩ => ⟨p, mem, names, package⟩⟩
  rw [packageDirs]
  split_ifs with empty
  · rw [found]
    simp [empty]
  · rw [List.mem_filter, found, and_assoc]
    simp [empty]

/-! ## Paths as texts -/

/-- The names below the root are those of directory entries. -/
theorem properName_of_package (package : Package project rel) : ∀ name ∈ rel, ProperName name := by
  obtain ⟨found, stays⟩ := package
  have dir : project.isDir (project.home ++ rel) = true := (Bool.and_eq_true_iff.mp found).1
  clear found
  induction rel using List.reverseRecOn with
  | nil => exact nofun
  | append_singleton rel name ih =>
    rw [List.mem_append, not_or, List.mem_singleton] at stays
    rw [← List.append_assoc] at dir
    obtain ⟨above, among⟩ := project.listed _ name (Ne.symm stays.2) dir
    intro other mem
    rcases List.mem_append.mp mem with front | last
    · exact ih stays.1 above other front
    · rw [List.mem_singleton.mp last]
      exact project.named _ name among

/-- A path below the root is read back from its text. -/
theorem components_posix (proper : ∀ name ∈ rel, ProperName name) : components (posix rel) = rel := by
  rw [posix]
  split_ifs with empty
  · rw [empty]
    decide
  · rw [components, List.splitOn_intercalate '/' (fun name mem => (proper name mem).flat) empty, List.filter_eq_self]
    intro name mem
    simp [(proper name mem).filled, (proper name mem).named.1]

theorem posix_inj {other : Path} (proper : ∀ name ∈ rel, ProperName name) (proper' : ∀ name ∈ other, ProperName name)
    (same : posix rel = posix other) : rel = other := by
  rw [← components_posix proper, same, components_posix proper']

/-! ## Members -/

variable (project) in
/-- A package of the workspace below the root. -/
structure Member (rel : Path) : Prop where
  below : rel ≠ []
  package : Package project rel
  outside : nodeModules ∉ rel
  contains : workspaceContains project rel = true

variable (project) in
/-- Members are all listed, and what is listed and kept is a member: it is not the root, not in
`node_modules`, and without patterns it matches those of `pnpm-workspace.yaml`. -/
structure Reached : Prop where
  listed : ∀ rel, Member project rel → Listed project rel
  below : ∀ rel, Listed project rel → Package project rel → workspaceContains project rel = true →
    rel ≠ [] ∧ nodeModules ∉ rel
  weak : project.workspaces = [] → ∀ name, Package project [packagesName, name] →
    workspaceContains project [packagesName, name] = true

theorem mem_detectWorkspaces {text : List Char} :
    text ∈ detectWorkspaces project ↔ ∃ rel ∈ packageDirs project, posix rel = text := by
  rw [detectWorkspaces, if_pos project.declared, List.mem_insertionSort, List.mem_map]

theorem packageDirs_eq_members_iff : (∀ rel, rel ∈ packageDirs project ↔ Member project rel) ↔ Reached project := by
  constructor
  · intro same
    refine ⟨fun rel member => (mem_packageDirs.mp ((same rel).mpr member)).1, fun rel listed package contains => ?_,
      fun empty name package => ?_⟩
    · have member := (same rel).mp (mem_packageDirs.mpr ⟨listed, package, fun _ => contains⟩)
      exact ⟨member.below, member.outside⟩
    · have listed : Listed project [packagesName, name] := Or.inr ⟨name, rfl⟩
      exact ((same _).mp (mem_packageDirs.mpr ⟨listed, package, fun filled => absurd empty filled⟩)).contains
  · intro reached rel
    rw [mem_packageDirs]
    constructor
    · rintro ⟨listed, package, matching⟩
      have contains : workspaceContains project rel = true := by
        by_cases empty : project.workspaces = []
        · rcases listed with ⟨p, mem, -⟩ | ⟨name, rfl⟩
          · exact absurd (empty ▸ mem) List.not_mem_nil
          · exact reached.weak empty name package
        · exact matching empty
      obtain ⟨below, outside⟩ := reached.below rel listed package contains
      exact ⟨below, package, outside, contains⟩
    · intro member
      exact ⟨reached.listed rel member, member.package, fun _ => member.contains⟩

/-- The texts of the members are found, and no others, just where the same paths are. -/
theorem detectWorkspaces_eq_members_iff :
    (∀ text, text ∈ detectWorkspaces project ↔ ∃ rel, Member project rel ∧ posix rel = text) ↔
      ∀ rel, rel ∈ packageDirs project ↔ Member project rel := by
  have proper : ∀ rel, rel ∈ packageDirs project → ∀ name ∈ rel, ProperName name := fun rel mem =>
    properName_of_package (mem_packageDirs.mp mem).2.1
  constructor
  · intro same rel
    constructor
    · intro mem
      obtain ⟨other, member, text⟩ := (same _).mp (mem_detectWorkspaces.mpr ⟨rel, mem, rfl⟩)
      exact posix_inj (properName_of_package member.package) (proper rel mem) text ▸ member
    · intro member
      obtain ⟨other, mem, text⟩ := mem_detectWorkspaces.mp ((same _).mpr ⟨rel, member, rfl⟩)
      exact posix_inj (proper other mem) (properName_of_package member.package) text ▸ mem
  · intro same text
    rw [mem_detectWorkspaces]
    exact exists_congr fun rel => and_congr_left fun _ => same rel

/-! ## The order of the patterns -/

variable (project) in
def Project.withPatterns (patterns : List Pattern) : Project := { project with workspaces := patterns }

theorem containedIn_perm {patterns other : List Pattern} (perm : patterns.Perm other) (path : Path) :
    containedIn patterns path = containedIn other path := by
  have same : ∀ f : Pattern → Bool, patterns.any f = other.any f := fun f => by
    rw [Bool.eq_iff_iff, List.any_eq_true, List.any_eq_true]
    exact exists_congr fun p => and_congr_left fun _ => perm.mem_iff
  rw [containedIn, containedIn, same, same]

theorem packageDirs_perm {patterns : List Pattern} (perm : project.workspaces.Perm patterns) :
    (packageDirs project).Perm (packageDirs (project.withPatterns patterns)) := by
  rw [List.perm_ext_iff_of_nodup nodup_packageDirs nodup_packageDirs]
  intro rel
  rw [mem_packageDirs, mem_packageDirs]
  have listed : Listed project rel ↔ Listed (project.withPatterns patterns) rel :=
    or_congr_left (exists_congr fun p => and_congr_left fun _ => perm.mem_iff)
  have contains : workspaceContains project rel = workspaceContains (project.withPatterns patterns) rel := by
    rw [workspaceContains, workspaceContains]
    dsimp only [Project.withPatterns]
    rw [containedIn_perm perm]
  have empty : project.workspaces ≠ [] ↔ patterns ≠ [] := not_congr ⟨fun h => by simpa [h] using perm, fun h => by
    simpa [h] using perm⟩
  rw [listed, contains]
  exact and_congr_right fun _ => and_congr_right fun _ => imp_congr_left empty

/-- The same patterns in another order give the same workspaces. -/
theorem detectWorkspaces_perm {patterns : List Pattern} (perm : project.workspaces.Perm patterns) :
    detectWorkspaces (project.withPatterns patterns) = detectWorkspaces project := by
  have file : (project.withPatterns patterns).isFile ((project.withPatterns patterns).home ++ [packageJson]) = true :=
    project.declared
  rw [detectWorkspaces, detectWorkspaces, if_pos file, if_pos project.declared]
  refine List.Perm.eq_of_pairwise' (List.pairwise_insertionSort _ _) (List.pairwise_insertionSort _ _) ?_
  exact ((List.perm_insertionSort _ _).trans ((packageDirs_perm perm).symm.map posix)).trans
    (List.perm_insertionSort _ _).symm

/-- The workspaces found are the members that `workspace_contains` tells just where the patterns reach
them all; they never depend on the order of the patterns. -/
theorem detectWorkspaces_iff_reached (project : Project) :
    ((∀ text, text ∈ detectWorkspaces project ↔ ∃ rel, Member project rel ∧ posix rel = text) ↔ Reached project) ∧
      ∀ patterns, project.workspaces.Perm patterns →
        detectWorkspaces (project.withPatterns patterns) = detectWorkspaces project :=
  ⟨detectWorkspaces_eq_members_iff.trans packageDirs_eq_members_iff, fun _ => detectWorkspaces_perm⟩

/-! ## A pattern with a star inside a name -/

instance (name : Name) : Decidable (ProperName name) :=
  decidable_of_iff (name ≠ [] ∧ '/' ∉ name ∧ name ≠ ['.'] ∧ name ≠ up)
    ⟨fun h => ⟨h.1, h.2.1, h.2.2⟩, fun h => ⟨h.filled, h.flat, h.named⟩⟩

/-- The project at `home` whose directories are the given ones, with a `package.json` in some. -/
def Project.ofTree (home : Path) (dirs packages : List Path) (patterns : List Pattern) (root : home ∈ dirs)
    (declared : home ∈ packages) (closed : ∀ dir ∈ dirs, dir ≠ [] → dir.dropLast ∈ dirs)
    (proper : ∀ dir ∈ dirs, ∀ name ∈ dir, ProperName name) : Project where
  home := home
  isDir path := path ∈ dirs
  isFile path := path ∈ packages.map (· ++ [packageJson])
  entries path := dirs.filterMap fun dir => if dir.dropLast = path then dir.getLast? else none
  workspaces := patterns
  pnpm := none
  root := decide_eq_true root
  resolved mem := (proper home root up mem).named.2 rfl
  declared := decide_eq_true (List.mem_map_of_mem declared)
  listed path name _ dir := by
    have mem : path ++ [name] ∈ dirs := of_decide_eq_true dir
    have above := closed _ mem (List.append_ne_nil_of_right_ne_nil _ (List.cons_ne_nil _ _))
    rw [List.dropLast_concat] at above
    exact ⟨decide_eq_true above, List.mem_filterMap.mpr ⟨_, mem, by simp⟩⟩
  named path name mem := by
    obtain ⟨dir, among, found⟩ := List.mem_filterMap.mp mem
    split_ifs at found
    exact proper dir among name (List.mem_of_getLast? found)

def starred : Pattern := ⟨"apps/pkg-*".toList, by decide, by decide⟩

def apps : Name := "apps".toList

def pkgWeb : Name := "pkg-web".toList

def starredProject : Project :=
  .ofTree [['p']] [[], [['p']], [['p'], apps], [['p'], apps, pkgWeb]] [[['p']], [['p'], apps, pkgWeb]] [starred]
    (by decide) (by decide) (by decide) (by decide)

/-- `apps/pkg-web` matches `apps/pkg-*`, but only a directory `apps/pkg-` would be listed. -/
theorem not_found_pkg_web :
    ¬∀ text, text ∈ detectWorkspaces starredProject ↔ ∃ rel, Member starredProject rel ∧ posix rel = text := by
  intro same
  have none : detectWorkspaces starredProject = [] := by decide
  have member : Member starredProject [apps, pkgWeb] :=
    ⟨List.cons_ne_nil _ _, ⟨by decide, by decide⟩, by decide, by decide⟩
  have found := (same _).mpr ⟨_, member, rfl⟩
  rw [none] at found
  exact List.not_mem_nil found

end LocalWebAccess.Workspaces
