import LocalWebAccess.Models
import Mathlib.Logic.Function.Basic

/-!
# Generated files and their snapshot

The files that the renderer writes to `docker/`, and the one snapshot of them
in `docker/.prev`. A snapshot that fails takes an older one with it.
-/
namespace LocalWebAccess

abbrev Bytes := List UInt8

/-- `ALL_GENERATED_FILES`. -/
inductive GeneratedFile where
  | composeYaml
  | dockerfile
  | env
  | staticWsgi
  deriving DecidableEq, Repr

namespace GeneratedFile

def name : GeneratedFile → String
  | composeYaml => "compose.yaml"
  | dockerfile => "Dockerfile"
  | env => ".env"
  | staticWsgi => "lwa_static_wsgi.py"

end GeneratedFile

/-- The contents of the generated files in a directory, where they exist. -/
abbrev Files := GeneratedFile → Option Bytes

/-- `docker/` and `docker/.prev`. -/
structure DockerDir where
  files : Files
  prev : Option Files

namespace DockerDir

/-- A file is written with whatever content the writer leaves. -/
def write (dir : DockerDir) (file : GeneratedFile) (content : Option Bytes) : DockerDir :=
  { dir with files := Function.update dir.files file content }

/-- `snapshot_generated`, which either succeeds or leaves no snapshot. -/
def snapshotGenerated (dir : DockerDir) (failed : Bool) : DockerDir :=
  { dir with prev := if failed then none else some dir.files }

/-- `restore_generated` where no copy fails: whether there was a snapshot, and the directory. -/
def restoreGenerated (dir : DockerDir) : Bool × DockerDir :=
  match dir.prev with
  | none => (false, dir)
  | some files => (true, { dir with files := files })

@[simp] theorem write_prev (dir : DockerDir) (file : GeneratedFile) (content : Option Bytes) :
    (dir.write file content).prev = dir.prev := rfl

@[simp] theorem restoreGenerated_files (dir : DockerDir) :
    dir.restoreGenerated.2.files = dir.prev.getD dir.files := by
  unfold restoreGenerated
  cases dir.prev <;> rfl

/-- Restoring a snapshot undoes every write made since. -/
theorem restoreGenerated_of_snapshot {dir dir' : DockerDir}
    (same : dir'.prev = (dir.snapshotGenerated false).prev) :
    dir'.restoreGenerated = (true, { dir' with files := dir.files }) := by
  simp [restoreGenerated, same, snapshotGenerated]

end DockerDir

end LocalWebAccess
