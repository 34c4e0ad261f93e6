import LocalWebAccess.PythonText
import LocalWebAccess.ShellHooks

/-!
# Paths of removals

`posixpath.normpath`, and its comparison of paths as texts with that of their components.
-/
namespace LocalWebAccess.RemovalGate

open PythonText ShellHooks

/-! ## Normal paths -/

/-- Two slashes stay, three or more are one. -/
def leadingSlashes (path : List Char) : List Char :=
  if path.head? ≠ some '/' then []
  else if path.take 2 = ['/', '/'] ∧ path.take 3 ≠ ['/', '/', '/'] then ['/', '/']
  else ['/']

variable {path dest : List (List Char)} {text : List Char}

/-- The text of an artifact directory, an absolute path below the root. -/
structure Artifact (dest : List Char) : Prop where
  rooted : leadingSlashes dest = ['/']
  below : resolve [] dest ≠ []

end LocalWebAccess.RemovalGate
