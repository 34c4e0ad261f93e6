import Mathlib.Data.Nat.Notation
import Mathlib.Logic.Function.Basic
import Mathlib.Tactic.SplitIfs

/-!
# Files behind names

A volume maps names to files and files to contents. An open file stays the same
file when another one takes its name, so a reader that has opened it before a
replacement goes on reading the old contents, and so does a writer.
-/
namespace LocalWebAccess.FileVolumes

variable {N B : Type}

/-- No file has two names, and files not yet created have none. -/
structure Volume (N B : Type) where
  names : N → Option ℕ
  contents : ℕ → List B
  fresh : ℕ
  created : ∀ {name i}, names name = some i → i < fresh
  unshared : ∀ {name name' i}, names name = some i → names name' = some i → name = name'

namespace Volume

def read (v : Volume N B) (name : N) : Option (List B) := (v.names name).map v.contents

/-- The file that opening `name` for writing yields. -/
def opened (v : Volume N B) (name : N) : ℕ := (v.names name).getD v.fresh

/-- Create the file or truncate the one that is there. -/
def openTruncate [DecidableEq N] (v : Volume N B) (name : N) : Volume N B where
  names := Function.update v.names name (some (v.opened name))
  contents := Function.update v.contents (v.opened name) []
  fresh := max v.fresh (v.opened name + 1)
  created := by
    intro name' i named
    by_cases same : name' = name
    · subst same
      rw [Function.update_self] at named
      obtain rfl := Option.some.inj named
      omega
    · rw [Function.update_of_ne same] at named
      have := v.created named
      omega
  unshared := by
    have kept : ∀ name' i, name' ≠ name → v.names name' = some i → v.opened name ≠ i := by
      intro name' i other named clash
      cases current : v.names name with
      | none =>
        have := v.created named
        simp only [opened, current, Option.getD_none] at clash
        omega
      | some j =>
        simp only [opened, current, Option.getD_some] at clash
        exact other (v.unshared named (clash ▸ current))
    intro a b i ha hb
    by_cases isA : a = name <;> by_cases isB : b = name
    · rw [isA, isB]
    · subst isA
      rw [Function.update_self] at ha
      rw [Function.update_of_ne isB] at hb
      exact absurd (Option.some.inj ha) (kept b i isB hb)
    · subst isB
      rw [Function.update_self] at hb
      rw [Function.update_of_ne isA] at ha
      exact absurd (Option.some.inj hb) (kept a i isA ha)
    · rw [Function.update_of_ne isA] at ha
      rw [Function.update_of_ne isB] at hb
      exact v.unshared ha hb

/-- Bytes with a chunk written at an offset; a gap is filled with zeros. -/
def overwrite [Zero B] (bytes : List B) (offset : ℕ) (chunk : List B) : List B :=
  bytes.take offset ++ List.replicate (offset - bytes.length) 0 ++ chunk ++
    bytes.drop (offset + chunk.length)

/-- Write at an offset of an open file. -/
def writeAt [Zero B] (v : Volume N B) (i offset : ℕ) (chunk : List B) : Volume N B :=
  { v with contents := Function.update v.contents i (overwrite (v.contents i) offset chunk) }

/-- Give the file of one name to another name, or fail if there is none. -/
def rename [DecidableEq N] (v : Volume N B) (src dst : N) : Option (Volume N B) :=
  match named : v.names src with
  | none => none
  | some i => some {
      names := Function.update (Function.update v.names src none) dst (some i)
      contents := v.contents
      fresh := v.fresh
      created := by
        intro name j h
        by_cases isDst : name = dst
        · subst isDst
          rw [Function.update_self] at h
          exact Option.some.inj h ▸ v.created named
        · rw [Function.update_of_ne isDst] at h
          by_cases isSrc : name = src
          · simp [isSrc] at h
          · rw [Function.update_of_ne isSrc] at h
            exact v.created h
      unshared := by
        have other : ∀ name, name ≠ dst →
            Function.update (Function.update v.names src none) dst (some i) name ≠ some i := by
          intro name isDst h
          rw [Function.update_of_ne isDst] at h
          by_cases isSrc : name = src
          · simp [isSrc] at h
          · rw [Function.update_of_ne isSrc] at h
            exact isSrc (v.unshared h named)
        intro a b j ha hb
        by_cases isA : a = dst <;> by_cases isB : b = dst
        · rw [isA, isB]
        · have same : j = i := by
            rw [isA, Function.update_self] at ha
            exact (Option.some.inj ha).symm
          exact absurd (same ▸ hb) (other b isB)
        · have same : j = i := by
            rw [isB, Function.update_self] at hb
            exact (Option.some.inj hb).symm
          exact absurd (same ▸ ha) (other a isA)
        · rw [Function.update_of_ne isA] at ha
          rw [Function.update_of_ne isB] at hb
          by_cases a' : a = src
          · simp [a'] at ha
          · by_cases b' : b = src
            · simp [b'] at hb
            · rw [Function.update_of_ne a'] at ha
              rw [Function.update_of_ne b'] at hb
              exact v.unshared ha hb }

variable {v v' : Volume N B} {name name' src dst : N} {i j : ℕ}

/-- A file created before that has another name, or none, is not the one that gets opened. -/
theorem ne_opened (unnamed : v.names name ≠ some i) (old : i < v.fresh) : i ≠ v.opened name := by
  intro clash
  cases current : v.names name with
  | none =>
    simp only [opened, current, Option.getD_none] at clash
    omega
  | some j =>
    simp only [opened, current, Option.getD_some] at clash
    exact unnamed (clash ▸ current)

section writes

variable [Zero B] {offset : ℕ} {chunk : List B}

@[simp] theorem writeAt_names : (v.writeAt i offset chunk).names = v.names := rfl

@[simp] theorem writeAt_fresh : (v.writeAt i offset chunk).fresh = v.fresh := rfl

theorem writeAt_contents_of_ne (other : j ≠ i) : (v.writeAt i offset chunk).contents j = v.contents j := by
  simp [writeAt, other]

/-- Writing at the end appends. -/
theorem writeAt_end : (v.writeAt i (v.contents i).length chunk).contents i = v.contents i ++ chunk := by
  simp [writeAt, overwrite]

end writes

section names

variable [DecidableEq N]

@[simp] theorem openTruncate_names_self : (v.openTruncate name).names name = some (v.opened name) := by
  simp [openTruncate]

theorem openTruncate_names_of_ne (other : name' ≠ name) :
    (v.openTruncate name).names name' = v.names name' := by
  simp [openTruncate, other]

@[simp] theorem openTruncate_contents_opened : (v.openTruncate name).contents (v.opened name) = [] := by
  simp [openTruncate]

theorem openTruncate_contents_of_ne (other : i ≠ v.opened name) :
    (v.openTruncate name).contents i = v.contents i := by
  simp [openTruncate, other]

theorem fresh_le_openTruncate : v.fresh ≤ (v.openTruncate name).fresh :=
  Nat.le_max_left _ _

theorem rename_eq_some (h : v.rename src dst = some v') :
    ∃ i, v.names src = some i ∧ v'.names = Function.update (Function.update v.names src none) dst (some i) ∧
      v'.contents = v.contents ∧ v'.fresh = v.fresh := by
  unfold rename at h
  split at h
  · cases h
  · rename_i i named
    obtain rfl := Option.some.inj h
    exact ⟨i, named, rfl, rfl, rfl⟩

end names

end Volume

end LocalWebAccess.FileVolumes
