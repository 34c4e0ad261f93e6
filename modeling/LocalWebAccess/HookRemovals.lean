import LocalWebAccess.RemovalGate

/-!
# Removals that the gate catches

The gate against the deletions of `sh`: what it sees is one, but it leaves some out.
-/
namespace LocalWebAccess.RemovalGate

open ShellHooks

variable {w : Word} {before : Option Elem} {hook : Hook} {last : List Char} {dests : List (List Char)}

/-! ## Removals that the gate reads as `sh` does -/

/-- The options that `rm` takes as they are written out. -/
def Exact (option : List Char) : Prop :=
  option ∈ ["--force".toList, "--recursive".toList] ∨
    ¬['-', '-'] <+: option ∧ ∃ c ∈ option, c ∈ ['r', 'R', 'f']

/-- A hook in the grammar, without Unicode blanks or digits outside quotes. -/
structure BuildHook where
  hook : Hook
  last : List Char
  spelled : hook.Spelled none last
  tame : ∀ e ∈ hook, TameElem e.2

def BuildHook.text (b : BuildHook) : List Char := b.hook.text b.last

def ArtifactDir : Type := {dest : List Char // Artifact dest}

/-- A word without quotes. -/
def bare (text : List Char) : Word := text.map .bare

def static : ArtifactDir := ⟨"/app/static".toList, by decide +kernel, by decide +kernel⟩

end LocalWebAccess.RemovalGate
