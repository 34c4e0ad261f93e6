import LocalWebAccess.LinkTrees
import LocalWebAccess.WorkspaceGlobs

/-!
# Build outputs

The directory with the products of a build is found by a hint and by the usual names, and copied to the
public directory of the instance, links followed.
-/
namespace LocalWebAccess.BuildOutputs

open LinkTrees
open Workspaces (Name Path components)

/-! ## The search -/

/-- `_BUILD_OUTPUT_DIRS` -/
def buildOutputDirs : List Name :=
  ["dist".toList, "build".toList, "out".toList, ".output".toList, ".svelte-kit".toList]

/-- A project directory at `path`, which is really `home`; copies go down `depth` directories at most. -/
structure Project where
  tree : LinkTrees.Tree Name
  up : tree.up = Workspaces.up
  path : Path
  home : Path
  resolves : tree.real path = some home
  depth : ℕ

variable (project : Project)

/-- `project_dir / text` -/
def Project.join (text : List Char) : Path :=
  if text.head? = some '/' then components text else project.path ++ components text

/-- `path.resolve().is_relative_to(project_dir.resolve())` of a path that exists. -/
def Project.holds (path : Path) : Bool :=
  match project.tree.real path with
  | some real => project.home <+: real
  | none => false

/-- `path.is_dir() and any(path.iterdir())` -/
def Project.filled (path : Path) : Bool :=
  match project.tree.real path with
  | some real => project.tree.isDir path && project.tree.entries real ≠ []
  | none => false

/-- The usual names in a directory. -/
def outputsIn (dir : Path) : List Path := buildOutputDirs.map fun name => dir ++ [name]

/-- `project_dir / Path(hint).parent`, where the hint names more than one step. -/
def Project.hintParent (hint : List Char) : Option Path :=
  if hint.head? ≠ some '/' && (components hint).dropLast = [] then none
  else if hint.head? = some '/' then some (components hint).dropLast
  else some (project.path ++ (components hint).dropLast)

/-- The directory of the hint, where it is one to look into. -/
def Project.hintDir (hint : List Char) : Option Path :=
  if hint = [] then none
  else (project.hintParent hint).filter fun dir => project.holds dir && project.tree.isDir dir

/-- `find_build_output` -/
def findBuildOutput (hint : List Char) : Option Path :=
  if hint ≠ [] && project.filled (project.join hint) && project.holds (project.join hint) then some (project.join hint)
  else
    match (project.hintDir hint).bind fun dir => (outputsIn dir).find? project.filled with
    | some found => some found
    | none => (outputsIn project.path).find? project.filled

/-- The files that `sync_dir` puts into the public directory, each with its steps below it and the real path
it is copied from; `none` where it raises. -/
def syncDir (src : Path) : Option (List (Path × Path)) :=
  if project.tree.isDir src then project.tree.copy (project.depth + 1) src else none

/-! ## What is asked -/

/-- The directory found is really in the project, and so is all that is published from it. -/
structure Safe (hint : List Char) : Prop where
  found : ∀ dir, findBuildOutput project hint = some dir →
    ∃ real, project.tree.real dir = some real ∧ project.home <+: real
  published : ∀ dir, findBuildOutput project hint = some dir → ∀ files, syncDir project dir = some files →
    ∀ file ∈ files, project.home <+: file.2

/-! ## The directory that is taken -/

/-- The places that are looked at after the hint itself. -/
def places (hint : List Char) : List Path := ((project.hintDir hint).map outputsIn).getD [] ++ outputsIn project.path

/-- The hint is a filled directory really in the project. -/
def Accepted (hint : List Char) : Prop :=
  hint ≠ [] ∧ project.filled (project.join hint) = true ∧ project.holds (project.join hint) = true

/-- The hint, or else the first place that is a filled directory. -/
inductive Taken (hint : List Char) : Path → Prop
  | hint : Accepted project hint → Taken hint (project.join hint)
  | place {before after : List Path} {dir : Path} : ¬Accepted project hint →
      places project hint = before ++ dir :: after → (∀ other ∈ before, project.filled other = false) →
      project.filled dir = true → Taken hint dir

variable {project} {hint : List Char} {dir : Path}

theorem findBuildOutput_eq (hint : List Char) :
    findBuildOutput project hint =
      if hint ≠ [] && project.filled (project.join hint) && project.holds (project.join hint) then
        some (project.join hint)
      else (places project hint).find? project.filled := by
  rw [findBuildOutput, places, List.find?_append]
  split_ifs
  · rfl
  · cases project.hintDir hint with
    | none => rfl
    | some dir =>
      rw [Option.bind_some, Option.map_some, Option.getD_some]
      cases (outputsIn dir).find? project.filled <;> rfl

theorem accepted_iff : (hint ≠ [] && project.filled (project.join hint) && project.holds (project.join hint)) = true ↔
    Accepted project hint := by
  simp [Accepted, and_assoc]

theorem findBuildOutput_eq_some_iff : findBuildOutput project hint = some dir ↔ Taken project hint dir := by
  rw [findBuildOutput_eq]
  split_ifs with accepted
  · rw [accepted_iff] at accepted
    constructor
    · rintro ⟨⟩
      exact .hint accepted
    · rintro (_ | ⟨not, -, -, -⟩)
      · rfl
      · exact absurd accepted not
  · rw [accepted_iff] at accepted
    rw [List.find?_eq_some_iff_append]
    constructor
    · rintro ⟨filled, before, after, split, others⟩
      exact .place accepted split (by simpa using others) filled
    · rintro (yes | ⟨-, split, others, filled⟩)
      · exact absurd yes accepted
      · exact ⟨filled, _, _, split, by simpa using others⟩

/-! ## Where it is -/

theorem real_of_filled (filled : project.filled dir = true) :
    ∃ real, project.tree.real dir = some real ∧ project.tree.isDir dir = true := by
  rw [Project.filled] at filled
  split at filled
  · rename_i real found
    exact ⟨real, found, (Bool.and_eq_true_iff.mp filled).1⟩
  · cases filled

theorem prefix_of_holds (holds : project.holds dir = true) :
    ∃ real, project.tree.real dir = some real ∧ project.home <+: real := by
  rw [Project.holds] at holds
  split at holds
  · rename_i real found
    exact ⟨real, found, of_decide_eq_true holds⟩
  · cases holds

/-- Every place is a usual name in a directory that is really in the project. -/
theorem place_of_mem (mem : dir ∈ places project hint) :
    ∃ parent real, ∃ name ∈ buildOutputDirs, dir = parent ++ [name] ∧ project.tree.real parent = some real ∧
      project.home <+: real := by
  rw [places] at mem
  rcases List.mem_append.mp mem with hinted | usual
  · cases found : project.hintDir hint with
    | none =>
      rw [found] at hinted
      exact absurd hinted List.not_mem_nil
    | some parent =>
      rw [found] at hinted
      obtain ⟨name, among, rfl⟩ := List.mem_map.mp hinted
      rw [Project.hintDir] at found
      split_ifs at found
      have holds := (Option.filter_eq_some_iff.mp found).2
      obtain ⟨real, resolves, inside⟩ := prefix_of_holds (Bool.and_eq_true_iff.mp holds).1
      exact ⟨parent, real, name, among, rfl, resolves, inside⟩
  · obtain ⟨name, among, rfl⟩ := List.mem_map.mp usual
    exact ⟨project.path, project.home, name, among, rfl, project.resolves, List.prefix_rfl⟩

theorem buildOutputDirs_ne_up : ∀ name ∈ buildOutputDirs, name ≠ project.tree.up := by
  rw [project.up]
  decide

/-- What is taken is really in the project, but where a link leads out. -/
theorem taken_inside_iff (taken : Taken project hint dir) :
    (∃ real, project.tree.real dir = some real ∧ project.home <+: real) ↔
      (project.tree.IsLink dir → ∀ real, project.tree.real dir = some real → project.home <+: real) := by
  constructor
  · rintro ⟨real, resolves, inside⟩ - other same
    exact Option.some.inj (resolves.symm.trans same) ▸ inside
  · intro contained
    cases taken with
    | hint accepted => exact prefix_of_holds accepted.2.2
    | place _ split _ filled =>
      obtain ⟨real, resolves, -⟩ := real_of_filled filled
      refine ⟨real, resolves, ?_⟩
      obtain ⟨parent, above, name, among, rfl, found, inside⟩ :=
        place_of_mem (split ▸ List.mem_append_right _ List.mem_cons_self : _ ∈ places project hint)
      rcases real_step found (buildOutputDirs_ne_up name among) resolves with link | rfl
      · exact contained link real resolves
      · exact inside.trans (List.prefix_append _ _)

/-! ## What is published -/

/-- Everything below resolves, within the depth. -/
def Copyable (project : Project) (dir : Path) : Prop :=
  ∀ rest, project.tree.Reached dir rest →
    rest.length < project.depth + 1 ∧ (project.tree.real (dir ++ rest)).isSome = true

/-- No link below leads to a file out of the project, directly or through a directory. -/
def LinksInside (project : Project) (dir : Path) : Prop :=
  ∀ root rest, project.tree.Root dir root → project.tree.node (root ++ rest) = some .file →
    project.home <+: root ++ rest

theorem published_inside_iff (isDir : project.tree.isDir dir = true) :
    (∀ files, syncDir project dir = some files → ∀ file ∈ files, project.home <+: file.2) ↔
      (Copyable project dir → LinksInside project dir) := by
  rw [syncDir, if_pos isDir]
  constructor
  · intro all copyable root rest reached kind
    obtain ⟨files, copied⟩ := Option.isSome_iff_exists.mp (copy_isSome_iff.mpr copyable)
    obtain ⟨steps, takes⟩ := takes_of_root reached kind
    exact all files copied (steps, root ++ rest) ((mem_copy copied).mpr takes)
  · intro inside files copied file mem
    have takes := (mem_copy copied).mp mem
    have copyable : Copyable project dir := copy_isSome_iff.mp (by rw [copied]; rfl)
    obtain ⟨root, rest, reached, same⟩ := exists_root takes
    rw [same]
    exact inside copyable root rest reached (same ▸ takes.2.2)

/-- The directory is no link out of the project, and where it can be copied no link below leads out. -/
structure Contained (project : Project) (dir : Path) : Prop where
  itself : project.tree.IsLink dir → ∀ real, project.tree.real dir = some real → project.home <+: real
  below : Copyable project dir → LinksInside project dir

theorem safe_iff_contained (project : Project) (hint : List Char) :
    Safe project hint ↔ ∀ dir, Taken project hint dir → Contained project dir := by
  have isDir : ∀ dir, Taken project hint dir → project.tree.isDir dir = true := by
    rintro _ (accepted | ⟨-, -, -, filled⟩)
    · exact (real_of_filled accepted.2.1).choose_spec.2
    · exact (real_of_filled filled).choose_spec.2
  constructor
  · intro safe dir taken
    have found := findBuildOutput_eq_some_iff.mpr taken
    exact ⟨(taken_inside_iff taken).mp (safe.found dir found),
      (published_inside_iff (isDir dir taken)).mp (safe.published dir found)⟩
  · intro contained
    refine ⟨fun dir found => ?_, fun dir found => ?_⟩
    · have taken := findBuildOutput_eq_some_iff.mp found
      exact (taken_inside_iff taken).mpr (contained dir taken).itself
    · have taken := findBuildOutput_eq_some_iff.mp found
      exact (published_inside_iff (isDir dir taken)).mpr (contained dir taken).below

/-! ## A link out of the project -/

/-- The tree with the given nodes. -/
def treeOf (nodes : List (Path × Node Name)) (root : nodes.lookup [] = some .dir)
    (closed : ∀ entry ∈ nodes, entry.1 ≠ [] → nodes.lookup entry.1.dropLast = some .dir)
    (proper : ∀ entry ∈ nodes, Workspaces.up ∉ entry.1) : LinkTrees.Tree Name where
  up := Workspaces.up
  node path := nodes.lookup path
  entries path := nodes.filterMap fun entry => if entry.1.dropLast = path then entry.1.getLast? else none
  limit := 40
  root := root
  above path name found := by
    obtain ⟨node, same⟩ := Option.ne_none_iff_exists'.mp found
    have mem : (path ++ [name], node) ∈ nodes := by
      obtain ⟨before, after, rfl, -⟩ := List.lookup_eq_some_iff.mp same
      exact List.mem_append_right _ List.mem_cons_self
    have above := closed _ mem (List.append_ne_nil_of_right_ne_nil _ (List.cons_ne_nil _ _))
    rw [List.dropLast_concat] at above
    exact ⟨above, List.mem_filterMap.mpr ⟨_, mem, by simp⟩⟩
  below path name mem := by
    obtain ⟨entry, among, found⟩ := List.mem_filterMap.mp mem
    split_ifs at found
    rintro rfl
    exact proper entry among (List.mem_of_getLast? found)

def etc : Name := "etc".toList

def distName : Name := "dist".toList

/-- `dist` is a link to `/etc`. -/
def linkedProject : Project where
  tree := treeOf [([], .dir), ([['p']], .dir), ([['p'], distName], .link ⟨true, [etc]⟩), ([etc], .dir),
    ([etc, "passwd".toList], .file)] (by decide) (by decide) (by decide)
  up := rfl
  path := [['p']]
  home := [['p']]
  resolves := by decide
  depth := 1000

theorem not_safe_linked : ¬Safe linkedProject [] := by
  intro safe
  have found : findBuildOutput linkedProject [] = some [['p'], distName] := by decide
  obtain ⟨real, resolves, inside⟩ := safe.found _ found
  have outside : linkedProject.tree.real [['p'], distName] = some [etc] := by decide
  obtain rfl := Option.some.inj (outside.symm.trans resolves)
  exact absurd inside (by decide)

end LocalWebAccess.BuildOutputs
