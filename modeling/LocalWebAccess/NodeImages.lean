import LocalWebAccess.NodeRangeAnswers

/-!
# Node images

The base image of a Node project is chosen by `engines.node`: the default image where its version is in
the range, else a tag of one of a few major lines, pinned to a minor where the range ends inside the line.
-/
namespace LocalWebAccess.NodeImages

open VersionRanges NodeRanges

/-! ## Tags -/

/-- The version of `_NODE_IMAGE`. -/
def defaultVersion : Version := ⟨24, 22, 1⟩

inductive Image where
  | default
  | line (major : ℕ)
  | minor (major minor : ℕ)
  deriving DecidableEq

def Image.tag : Image → List Char
  | .default => "node:24.22.1-alpine".toList
  | .line major => "node:".toList ++ (toString major).toList ++ "-alpine".toList
  | .minor major n => "node:".toList ++ (toString major).toList ++ '.' :: (toString n).toList ++ "-alpine".toList

/-- The versions that a tag may stand for. -/
def Image.Holds : Image → Version → Prop
  | .default, v => v = defaultVersion
  | .line major, v => v.major = major
  | .minor major n, v => v.major = major ∧ v.minor = n

def Image.major : Image → ℕ
  | .default => defaultVersion.major
  | .line major => major
  | .minor major _ => major

/-- The source compares tags. -/
theorem tag_eq_default_iff (image : Image) : image.tag = Image.default.tag ↔ image = .default := by
  have digits : ∀ n : ℕ, ((toString n).toList).count '.' = 0 := fun n =>
    List.count_eq_zero.mpr fun mem => absurd (isDigit_toString n '.' mem) (by decide)
  have joined : ∀ a b c : List Char, a.count '.' = 0 → b.count '.' = 0 → (a ++ b ++ c).count '.' = c.count '.' := by
    intro a b c left middle
    simp only [List.count_append, left, middle, Nat.zero_add]
  have dotted : ∀ a b c : List Char, a.count '.' = 0 → b.count '.' = 0 →
      (a ++ '.' :: b ++ c).count '.' = c.count '.' + 1 := by
    intro a b c left middle
    simp only [List.count_append, List.count_cons_self, left, middle, Nat.zero_add, Nat.add_comm]
  have whole : Image.default.tag.count '.' = 2 := by decide +kernel
  have front : "node:".toList.count '.' = 0 := by decide
  refine ⟨fun same => ?_, fun same => congrArg _ same⟩
  rw [← same] at whole
  cases image with
  | default => rfl
  | line major => exact absurd ((joined _ _ _ front (digits major)).symm.trans whole) (by decide)
  | minor major n =>
    have start : ("node:".toList ++ (toString major).toList).count '.' = 0 :=
      List.count_append.trans (congrArg₂ (· + ·) front (digits major))
    exact absurd ((dotted _ _ _ start (digits n)).symm.trans whole) (by decide)

/-- `_KNOWN_LATEST_NODE_MINOR` -/
def knownLatestNodeMinor : ℕ → Option ℕ
  | 24 => some 22
  | 22 => some 21
  | 20 => some 19
  | 18 => some 20
  | _ => none

/-! ## The choice -/

/-- What is read of the source directory. -/
structure Project where
  engines : Option (List Char)
  berry : Bool

/-- The versions of the line that satisfy the range end below the bound, within the known minors. -/
structure EndsAt (text : List Char) (major : ℕ) (bound : Version) : Prop where
  some : ∃ v, v.major = major ∧ Satisfies text v
  below : ∀ v, v.major = major → Satisfies text v → v < bound
  known : ∃ latest ∈ knownLatestNodeMinor major, bound ≤ ⟨major, latest + 1, 0⟩

/-- A known minor line of the candidates has all its versions in the range. -/
def WholeMinor (text : List Char) : Prop :=
  ∃ major ∈ [defaultVersion.major, 22, 20, 18], ∃ latest ∈ knownLatestNodeMinor major, ∃ minor ≤ latest,
    ∀ v, (Image.minor major minor).Holds v → Satisfies text v

def Meets (text : List Char) (major : ℕ) : Prop := ∃ v, v.major = major ∧ Satisfies text v

structure Fits (text : List Char) (berry : Bool) (image : Image) : Prop where
  default : image = .default → Satisfies text defaultVersion ∨
    ¬WholeMinor text ∧ ∀ major ∈ [22, 20, 18], ¬Meets text major
  other : image ≠ .default → ∃ v, image.Holds v ∧ Satisfies text v
  known : ∀ major minor, image = .minor major minor → ∃ latest ∈ knownLatestNodeMinor major, minor ≤ latest
  bounded : ∀ bound, EndsAt text image.major bound → ∀ v, image.Holds v → ⟨v.major, v.minor, 0⟩ < bound
  yarn : berry = true → image = .default → ¬Meets text 22

variable {text : List Char} {major latest : ℕ} {i : Interval}

/-- What is asked of an image of a line that is not the default image. -/
structure FitsLine (text : List Char) (major : ℕ) (image : Image) : Prop where
  line : image.major = major ∧ image ≠ .default
  other : ∃ v, image.Holds v ∧ Satisfies text v
  known : ∀ major minor, image = .minor major minor → ∃ latest ∈ knownLatestNodeMinor major, minor ≤ latest
  bounded : ∀ bound, EndsAt text major bound → ∀ v, image.Holds v → ⟨v.major, v.minor, 0⟩ < bound

theorem FitsLine.fits {image : Image} (line : FitsLine text major image) (berry : Bool) : Fits text berry image where
  default same := absurd same line.line.2
  other _ := line.other
  known := line.known
  bounded := line.line.1 ▸ line.bounded
  yarn _ same := absurd same line.line.2

section Chosen

variable (chosen : Chosen ⟨major, 0, 0⟩ ⟨major + 1, 0, 0⟩ (Satisfies text) i)
include chosen

end Chosen

/-! ## The choice over the lines -/

section Lines

variable (line : ∀ major, ∃ best, nodeRangeMajorIntersection text major = .ok (.of best) ∧ LineMeans text major best)
include line

end Lines

/-! ## The image -/

section Chosen

variable {berry : Bool} (filled : text ≠ [])
  (line : ∀ major, ∃ best, nodeRangeMajorIntersection text major = .ok (.of best) ∧ LineMeans text major best)
include filled line

end Chosen

end LocalWebAccess.NodeImages
