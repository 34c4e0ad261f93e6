import LocalWebAccess.DeploymentFingerprints
import LocalWebAccess.GeneratedFiles
import LocalWebAccess.StableSort

/-!
# Folder sources

The fingerprint of a linked folder is the digest of one stream of paths and contents, each with a NUL
behind it, and an update is skipped while it stays the same. The package that is deployed has the
execute permissions of the files too. All files are read here; names are their UTF-8 bytes.
-/
namespace LocalWebAccess.FolderSource
open SeparatedStreams StableSort
open DeploymentFingerprints (Name utf8 isOsMetadataName arcname arcname_labelled)

/-- What is listed in a directory, apart from other directories. -/
inductive Node where
  | regular (content : Bytes) (mode : ℕ)
  | symlink
  | special
  deriving DecidableEq

inductive Tree where
  | node (files : List (Name × Node)) (dirs : List (Name × Tree))

/-- `_SKIP_DIRS` -/
def skipDirs : List Bytes :=
  ["node_modules", "__pycache__", ".venv", "venv", ".tox", ".git", ".svn", ".hg", "__MACOSX", ".mypy_cache",
    ".pytest_cache", ".ruff_cache"].map utf8

/-- `_SKIP_FILES` -/
def skipFiles : List Bytes := [".DS_Store", "Thumbs.db"].map utf8

structure SourceFile where
  path : List Name
  content : Bytes
  mode : ℕ
  deriving DecidableEq

/-- What both walks take of a directory's files. -/
def taken : Name × Node → Option SourceFile
  | (name, .regular content mode) =>
    if name.1 ∈ skipFiles ∨ isOsMetadataName name.1 then none else some ⟨[name], content, mode⟩
  | (_, .symlink) | (_, .special) => none

mutual

/-- `os.walk` as both functions use it: the files of a directory in the order of their names, then its
directories. -/
def walk : Tree → List SourceFile
  | .node files dirs =>
    (files.insertionSort (fun a b => a.1.1 ≤ b.1.1)).filterMap taken ++
      ((walkDirs dirs).insertionSort (fun a b => a.1.1 ≤ b.1.1)).flatMap (fun dir =>
        dir.2.map (fun file => { file with path := dir.1 :: file.path }))

def walkDirs : List (Name × Tree) → List (Name × List SourceFile)
  | [] => []
  | (name, tree) :: dirs => if name.1 ∈ skipDirs then walkDirs dirs else (name, walk tree) :: walkDirs dirs

end

/-! ## The fingerprint -/

def SourceFile.fed (file : SourceFile) : Bytes := arcname file.path ++ 0 :: (file.content ++ [0])

/-- What `compute_source_hash` feeds to SHA-256. -/
def sourceStream (tree : Tree) : Bytes := (walk tree).flatMap SourceFile.fed

/-! ## The package -/

/-- A member of the package, with the permission bits of its `external_attr`. -/
structure Member where
  arcname : Bytes
  content : Bytes
  mode : ℕ
  deriving DecidableEq

/-- `.replace("\\", "/")` -/
def slashed (path : Bytes) : Bytes := path.map fun b => if b = 92 then 47 else b

def normalized (mode : ℕ) : ℕ := if mode &&& 0o111 ≠ 0 then 0o755 else 0o644

def member (file : SourceFile) : Member := ⟨slashed (arcname file.path), file.content, normalized file.mode⟩

/-- `pack_source_dir` -/
def packSourceDir (tree : Tree) : List Member :=
  ((walk tree).map member).insertionSort fun a b => a.arcname ≤ b.arcname

/-! ## What the stream tells -/

/-- The paths and contents in the order in which they are hashed. -/
def hashed (tree : Tree) : List (Bytes × Bytes) := (walk tree).map fun file => (arcname file.path, file.content)

/-- The packed permissions of the files in that order. -/
def modes (tree : Tree) : List ℕ := (walk tree).map fun file => normalized file.mode

variable {tree tree' : Tree}

theorem sourceStream_eq_encodeClosed (tree : Tree) : sourceStream tree = encodeClosed 0 (hashed tree) := by
  simp only [sourceStream, hashed, encodeClosed, List.flatMap_map]
  rfl

theorem hashed_labelled (tree : Tree) : Labelled 0 (hashed tree) := by
  intro entry listed
  obtain ⟨file, -, rfl⟩ := List.mem_map.mp listed
  exact arcname_labelled file.path

theorem arcname_ties (a b : Member) (same : a.arcname = b.arcname) : a.arcname ≤ b.arcname := same ▸ List.le_refl _

/-- The members are made of what is hashed and of the permissions. -/
theorem members_eq (tree : Tree) : (walk tree).map member =
    List.zipWith (fun entry mode => ⟨slashed entry.1, entry.2, mode⟩) (hashed tree) (modes tree) := by
  rw [hashed, modes, List.zipWith_map, List.zipWith_self]
  rfl

theorem members_hashed (tree : Tree) : (((walk tree).map member).map fun m => (m.arcname, m.content)) =
    (hashed tree).map fun entry => (slashed entry.1, entry.2) := by
  rw [hashed, List.map_map, List.map_map]
  rfl

theorem members_arcnames (tree : Tree) :
    ((walk tree).map member).map Member.arcname = (hashed tree).map fun entry => slashed entry.1 := by
  rw [hashed, List.map_map, List.map_map]
  rfl

theorem members_modes (tree : Tree) : ((walk tree).map member).map Member.mode = modes tree := by
  rw [modes, List.map_map]
  rfl

/-- Packages of trees that hash the same files are the same if their permissions are. -/
theorem packSourceDir_eq_iff_of_hashed (same : hashed tree = hashed tree') :
    packSourceDir tree = packSourceDir tree' ↔ modes tree = modes tree' := by
  have keys : ((walk tree).map member).map Member.arcname = ((walk tree').map member).map Member.arcname := by
    rw [members_arcnames, members_arcnames, same]
  unfold packSourceDir
  rw [insertionSort_eq_iff arcname_ties keys]
  constructor
  · intro members
    rw [← members_modes, ← members_modes, members]
  · intro permissions
    rw [members_eq, members_eq, same, permissions]

/-- A content that goes on in one of the trees is packed as it is there. -/
theorem packSourceDir_ne_of_continued (continued : Continued 0 (hashed tree) (hashed tree')) :
    packSourceDir tree ≠ packSourceDir tree' := by
  obtain ⟨common, label, content, more, rest, rest', files, files', -⟩ := continued
  intro same
  have keys : (((walk tree).map member).map Member.arcname).take (common.length + 1) =
      (((walk tree').map member).map Member.arcname).take (common.length + 1) := by
    rw [members_arcnames, members_arcnames, files, files']
    simp [List.take_append]
  have members := congrArg (List.map fun m : Member => (m.arcname, m.content))
    (take_eq_of_insertionSort_eq arcname_ties keys same)
  rw [List.map_take, List.map_take, members_hashed, members_hashed, files, files'] at members
  simp [List.take_append] at members

theorem packSourceDir_eq_of_sourceStream_eq (onward : ¬Continued 0 (hashed tree) (hashed tree'))
    (backward : ¬Continued 0 (hashed tree') (hashed tree))
    (permissions : hashed tree = hashed tree' → modes tree = modes tree')
    (same : sourceStream tree = sourceStream tree') : packSourceDir tree = packSourceDir tree' := by
  rw [sourceStream_eq_encodeClosed, sourceStream_eq_encodeClosed,
    encodeClosed_eq_iff (hashed_labelled tree) (hashed_labelled tree')] at same
  rcases same with files | continued | continued
  · exact (packSourceDir_eq_iff_of_hashed files).mpr (permissions files)
  · exact absurd continued onward
  · exact absurd continued backward

/-- Without NUL in the contents only the permissions go unnoticed. -/
theorem packSourceDir_eq_of_plain (plain : ∀ entry ∈ hashed tree, (0 : UInt8) ∉ entry.2)
    (plain' : ∀ entry ∈ hashed tree', (0 : UInt8) ∉ entry.2)
    (permissions : hashed tree = hashed tree' → modes tree = modes tree')
    (same : sourceStream tree = sourceStream tree') : packSourceDir tree = packSourceDir tree' :=
  packSourceDir_eq_of_sourceStream_eq (not_continued_of_plain plain') (not_continued_of_plain plain) permissions same

/-- Equal streams mean equal packages exactly if the permissions agree where the files do, and no content
goes on in one tree with what the other one has in the files after it. -/
theorem source_stream_faithful_iff (tree tree' : Tree) :
    (sourceStream tree = sourceStream tree' → packSourceDir tree = packSourceDir tree') ↔
      ¬Continued 0 (hashed tree) (hashed tree') ∧ ¬Continued 0 (hashed tree') (hashed tree) ∧
        (hashed tree = hashed tree' → modes tree = modes tree') := by
  constructor
  · intro faithful
    rw [sourceStream_eq_encodeClosed, sourceStream_eq_encodeClosed] at faithful
    refine ⟨fun continued => ?_, fun continued => ?_, fun same => ?_⟩
    · exact packSourceDir_ne_of_continued continued (faithful continued.encode_eq)
    · exact packSourceDir_ne_of_continued continued (faithful continued.encode_eq.symm).symm
    · exact (packSourceDir_eq_iff_of_hashed same).mp (faithful (congrArg (encodeClosed 0) same))
  · rintro ⟨onward, backward, permissions⟩ same
    exact packSourceDir_eq_of_sourceStream_eq onward backward permissions same

/-- A file `a` with the content `x NUL b NUL y`, and two files `a` and `b` with the contents `x` and `y`. -/
theorem split_file_unnoticed :
    ¬∀ tree tree', sourceStream tree = sourceStream tree' → packSourceDir tree = packSourceDir tree' := by
  intro faithful
  let a : Name := ⟨[97], by decide⟩
  let b : Name := ⟨[98], by decide⟩
  let one : Tree := .node [(a, .regular [120, 0, 98, 0, 121] 0o644)] []
  let two : Tree := .node [(a, .regular [120] 0o644), (b, .regular [121] 0o644)] []
  have packed := faithful one two (by decide)
  revert packed
  decide

/-- A script that is made executable. -/
example : sourceStream (.node [(⟨[97], by decide⟩, .regular [120] 0o644)] []) =
      sourceStream (.node [(⟨[97], by decide⟩, .regular [120] 0o755)] []) ∧
    packSourceDir (.node [(⟨[97], by decide⟩, .regular [120] 0o644)] []) ≠
      packSourceDir (.node [(⟨[97], by decide⟩, .regular [120] 0o755)] []) := by
  decide

end LocalWebAccess.FolderSource
