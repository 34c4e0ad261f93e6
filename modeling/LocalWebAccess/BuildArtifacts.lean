import LocalWebAccess.PythonText
import Mathlib.Data.Nat.Notation
import Mathlib.Logic.Function.Basic

/-!
# Archived builds

A verified deployment keeps its image under a tag of its own and a copy of its generated files. The
newest such build whose image is not in use is what a rollback returns to, and a collection after each
deployment removes what is older than the retention.
-/
namespace LocalWebAccess.BuildArtifacts
open PythonText

/-! ## Builds -/

/-- A row of `builds`, as far as archives go. `config_snapshot` names the directory of the build itself. -/
structure Build where
  id : ℕ
  status : String
  imageRef : Option String
  imageId : Option String
  deriving DecidableEq, Repr

/-- A text that is neither missing nor empty. -/
def given (value : Option String) : Option String := value.filter (· ≠ "")

/-- `str.removeprefix` -/
def removePrefix (start value : String) : String :=
  if start.toList.isPrefixOf value.toList then String.ofList (value.toList.drop start.length) else value

/-- `normalize_image_id` -/
def normalizeImageId (value : Option String) : Option String :=
  given ((given value).map (removePrefix "sha256:"))

/-- `is_rollback_candidate` -/
def isRollbackCandidate (row : Build) : Bool := row.status = "success" && (given row.imageRef).isSome

/-- `str(row["image_ref"])` -/
def Build.ref (row : Build) : String := row.imageRef.getD "None"

def Build.cleared (row : Build) : Build := { row with imageRef := none, imageId := none }

/-- Two builds have no tag in common. -/
def Apart (a b : Build) : Prop := (given a.imageRef).isSome → given a.imageRef ≠ given b.imageRef

instance : DecidableRel Apart := fun a b =>
  inferInstanceAs (Decidable ((given a.imageRef).isSome → given a.imageRef ≠ given b.imageRef))

instance : Std.Symm Apart := ⟨fun _ _ differ registered same => differ (same ▸ registered) same.symm⟩

/-- The builds of an instance from the newest to the oldest. A tag has the id of its build at its end. -/
structure Builds where
  rows : List Build
  descending : rows.Pairwise fun a b => b.id < a.id
  tags : rows.Pairwise Apart

/-- `list_builds` -/
def Builds.listBuilds (builds : Builds) (limit : ℕ) : List Build := builds.rows.take limit

/-- `clear_build_artifacts` -/
def Builds.clearBuildArtifacts (builds : Builds) (id : ℕ) : Builds where
  rows := builds.rows.map fun row => if row.id = id then row.cleared else row
  descending := by
    have same : ∀ row : Build, (if row.id = id then row.cleared else row).id = row.id := by
      intro row
      split <;> rfl
    refine List.pairwise_map.mpr (builds.descending.imp fun {a b} less => ?_)
    rwa [same a, same b]
  tags := by
    refine List.pairwise_map.mpr (builds.tags.imp fun {a b} differ => ?_)
    by_cases mine : a.id = id
    · rw [if_pos mine]
      intro registered
      cases registered
    · rw [if_neg mine]
      split
      · intro registered same
        rw [same] at registered
        cases registered
      · exact differ

/-! ## Snapshots -/

/-- The files of a directory; `none` is a file that is no text. -/
abbrev Snapshot := List (String × Option (List Char))

/-- `GENERATED_FILES` -/
def generatedFiles : List String := ["compose.yaml", "Dockerfile", ".env"]

/-- `OPTIONAL_GENERATED_FILES` -/
def optionalGeneratedFiles : List String := ["lwa_static_wsgi.py"]

def Snapshot.isFile (files : Snapshot) (name : String) : Bool := (files.lookup name).isSome

/-- `snapshot_complete` -/
def snapshotComplete : Option Snapshot → Bool
  | none => false
  | some files =>
    generatedFiles.all files.isFile &&
      match files.lookup "Dockerfile" with
      | some (some dockerfile) =>
        optionalGeneratedFiles.all fun name => !occursIn name.toList dockerfile || files.isFile name
      | _ => false

/-! ## Selection -/

/-- The builds, the tags that Docker has and the directories of the builds. -/
structure Store where
  builds : Builds
  images : List String
  snapshots : ℕ → Option Snapshot

/-- `image_exists`, while Docker answers. -/
def imageExists (s : Store) (ref : String) : Bool := ref ∈ s.images

/-- The checks of `select_rollback_target` on a row, with the image that is in use. -/
def selectable (s : Store) (excludeBuildId : Option ℕ) (inUse : Option String) (row : Build) : Bool :=
  !(excludeBuildId = some row.id) && !(inUse.isSome && normalizeImageId row.imageId = inUse) &&
    isRollbackCandidate row && snapshotComplete (s.snapshots row.id) && imageExists s row.ref

/-- `select_rollback_target` -/
def selectRollbackTarget (s : Store) (excludeBuildId : Option ℕ) (excludeImageId : Option String) : Option Build :=
  (s.builds.listBuilds 100).find? (selectable s excludeBuildId (normalizeImageId excludeImageId))

/-! ## Collection -/

/-- What Docker and the file system do during a collection: the tags that `docker image rm` removes, those
about which `docker image inspect` is answered, the files of a snapshot that cannot be deleted and the
rows that can be written. -/
structure Conditions where
  removes : String → Bool
  answers : String → Bool
  stuck : ℕ → List String
  writes : ℕ → Bool

/-- `_image_rm` -/
def imageRm (env : Conditions) (images : List String) (ref : String) : List String :=
  if env.removes ref then images.filter (· ≠ ref) else images

/-- `shutil.rmtree(ignore_errors=True)` -/
def rmtree (stuck : List String) (snapshot : Option Snapshot) : Option Snapshot :=
  (snapshot.map fun files => files.filter fun file => file.1 ∈ stuck).filter (!·.isEmpty)

/-- The removal of one build. Its row is cleared only where the tag is known to be missing. -/
def removeBuild (env : Conditions) (s : Store) (row : Build) : Store :=
  let images := imageRm env s.images row.ref
  { images := images
    snapshots := Function.update s.snapshots row.id (rmtree (env.stuck row.id) (s.snapshots row.id))
    builds :=
      if env.answers row.ref ∧ row.ref ∉ images ∧ env.writes row.id then s.builds.clearBuildArtifacts row.id
      else s.builds }

/-- The loop of `gc_build_artifacts`, with what it has kept and removed. -/
def gcRows (env : Conditions) (retention : ℕ) (guarded : List ℕ) :
    List Build → List ℕ → List ℕ → Store → Store × List ℕ × List ℕ
  | [], kept, removed, s => (s, kept, removed)
  | row :: rows, kept, removed, s =>
    if kept.length < retention ∨ row.id ∈ guarded then gcRows env retention guarded rows (kept ++ [row.id]) removed s
    else gcRows env retention guarded rows kept (removed ++ [row.id]) (removeBuild env s row)

/-- `max(1, int(config.imageRetention or 3))` -/
def retention (imageRetention : ℕ) : ℕ := max 1 (if imageRetention = 0 then 3 else imageRetention)

/-- The image in use: the one that is given, or the one that the container was last seen with. -/
def inUseImage (inUseImageId containerImageId : Option String) : Option String :=
  (normalizeImageId inUseImageId).or (normalizeImageId containerImageId)

/-- The rows that take part in a collection. -/
def archivedRows (s : Store) : List Build := (s.builds.listBuilds 500).filter fun row => (given row.imageRef).isSome

def successRows (s : Store) : List Build := (archivedRows s).filter isRollbackCandidate

def inUseBuildId (s : Store) (inUse : Option String) : Option ℕ :=
  ((successRows s).find? fun row => normalizeImageId row.imageId = inUse).map Build.id

def prevGoodBuildId (s : Store) (inUse : Option String) : Option ℕ :=
  ((successRows s).find? fun row =>
    normalizeImageId row.imageId ≠ inUse && (normalizeImageId row.imageId).isSome).map Build.id

def protectedIds (s : Store) (inUse : Option String) : List ℕ :=
  ((inUseBuildId s inUse).toList ++ (prevGoodBuildId s inUse).toList).filter (· ≠ 0)

/-- `gc_build_artifacts`: the store after it, and the ids it kept and removed. -/
def gcBuildArtifacts (env : Conditions) (imageRetention : ℕ) (containerImageId inUseImageId : Option String)
    (s : Store) : Store × List ℕ × List ℕ :=
  gcRows env (retention imageRetention) (protectedIds s (inUseImage inUseImageId containerImageId)) (archivedRows s)
    [] [] s

end LocalWebAccess.BuildArtifacts
