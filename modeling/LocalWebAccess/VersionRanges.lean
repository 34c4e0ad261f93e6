import Mathlib.Data.Prod.Lex
import Mathlib.Order.MinMax
import Mathlib.Tactic.Cases
import Mathlib.Tactic.SplitIfs

/-!
# Version ranges

Release versions in their order, intervals of them, and what the operators of npm's ranges mean on a
partial version.
-/
namespace LocalWebAccess.VersionRanges

/-! ## Versions -/

structure Version where
  major : ℕ
  minor : ℕ
  patch : ℕ
  deriving DecidableEq

def Version.key (v : Version) : ℕ ×ₗ ℕ ×ₗ ℕ := toLex (v.major, toLex (v.minor, v.patch))

theorem Version.key_injective : Function.Injective Version.key := by
  rintro ⟨a, b, c⟩ ⟨d, e, f⟩ same
  have parts : (a, toLex (b, c)) = (d, toLex (e, f)) := same
  obtain ⟨rfl, rest⟩ := Prod.mk.inj parts
  obtain ⟨rfl, rfl⟩ := Prod.mk.inj (toLex.injective rest)
  rfl

instance : LinearOrder Version := LinearOrder.lift' Version.key Version.key_injective

variable {v w : Version}

theorem Version.lt_iff : v < w ↔ v.major < w.major ∨ v.major = w.major ∧
    (v.minor < w.minor ∨ v.minor = w.minor ∧ v.patch < w.patch) := by
  have keys : v < w ↔ v.key < w.key := Iff.rfl
  rw [keys, Version.key, Version.key, Prod.Lex.toLex_lt_toLex, Prod.Lex.toLex_lt_toLex]

theorem Version.le_iff : v ≤ w ↔ v.major < w.major ∨ v.major = w.major ∧
    (v.minor < w.minor ∨ v.minor = w.minor ∧ v.patch ≤ w.patch) := by
  rw [← not_lt, Version.lt_iff]
  omega

/-! ## Intervals -/

/-- The versions from `low` on, and below `high` where there is one. -/
structure Interval where
  low : Version
  high : Option Version
  deriving DecidableEq

def Interval.Contains (i : Interval) (v : Version) : Prop := i.low ≤ v ∧ ∀ high ∈ i.high, v < high

instance (i : Interval) (v : Version) : Decidable (i.Contains v) :=
  inferInstanceAs (Decidable (i.low ≤ v ∧ ∀ high ∈ i.high, v < high))

def Interval.all : Interval := ⟨⟨0, 0, 0⟩, none⟩

def earlier : Option Version → Option Version → Option Version
  | none, high => high
  | some high, none => some high
  | some high, some other => some (min high other)

def Interval.inter (i j : Interval) : Interval := ⟨max i.low j.low, earlier i.high j.high⟩

theorem forall_earlier_iff {a b : Option Version} :
    (∀ high ∈ earlier a b, v < high) ↔ (∀ high ∈ a, v < high) ∧ ∀ high ∈ b, v < high := by
  cases a <;> cases b <;> simp [earlier]

theorem Interval.contains_inter {i j : Interval} : (i.inter j).Contains v ↔ i.Contains v ∧ j.Contains v := by
  rw [Interval.Contains, Interval.inter, forall_earlier_iff, max_le_iff]
  exact and_and_and_comm

theorem Interval.contains_all (v : Version) : Interval.all.Contains v :=
  ⟨Version.le_iff.mpr (by simp only [Interval.all]; omega), nofun⟩

/-- The interval holds its own low end. -/
def Interval.Inhabited (i : Interval) : Prop := ∀ high ∈ i.high, i.low < high

section Ends

variable {i : Interval}

theorem Interval.contains_low (inhabited : i.Inhabited) : i.Contains i.low := ⟨le_rfl, inhabited⟩

theorem Interval.inhabited_of_contains (contains : i.Contains v) : i.Inhabited :=
  fun high mem => contains.1.trans_lt (contains.2 high mem)

theorem Interval.exists_le_iff (inhabited : i.Inhabited) : (∃ w, i.Contains w ∧ w ≤ v) ↔ i.low ≤ v :=
  ⟨fun ⟨_, contains, le⟩ => contains.1.trans le, fun le => ⟨i.low, i.contains_low inhabited, le⟩⟩

theorem Interval.forall_lt_iff (inhabited : i.Inhabited) : (∀ w, i.Contains w → v < w) ↔ v < i.low :=
  ⟨fun all => all i.low (i.contains_low inhabited), fun lt _ contains => lt.trans_le contains.1⟩

theorem Interval.exists_ge_iff (inhabited : i.Inhabited) :
    (∃ w, i.Contains w ∧ v ≤ w) ↔ ∀ high ∈ i.high, v < high := by
  constructor
  · rintro ⟨w, contains, le⟩ high mem
    exact le.trans_lt (contains.2 high mem)
  · intro below
    rcases le_total i.low v with le | le
    · exact ⟨v, ⟨le, below⟩, le_rfl⟩
    · exact ⟨i.low, i.contains_low inhabited, le⟩

theorem Interval.forall_gt_iff (inhabited : i.Inhabited) :
    (∀ w, i.Contains w → w < v) ↔ ∃ high ∈ i.high, high ≤ v := by
  constructor
  · intro all
    by_contra none
    have below : ∀ high ∈ i.high, v < high := fun high mem => not_le.mp fun le => none ⟨high, mem, le⟩
    obtain ⟨w, contains, le⟩ := (i.exists_ge_iff inhabited).mpr below
    exact absurd (all w contains) (not_lt.mpr le)
  · rintro ⟨high, mem, le⟩ w contains
    exact (contains.2 high mem).trans_le le

end Ends

/-! ## Partial versions -/

/-- A version with wildcards or missing components. -/
structure Partial where
  major : Option ℕ
  minor : Option ℕ
  patch : Option ℕ
  deriving DecidableEq

/-- The versions a partial version stands for; what follows a wildcard says nothing. -/
def Partial.Covers : Partial → Version → Prop
  | ⟨none, _, _⟩, _ => True
  | ⟨some major, none, _⟩, v => v.major = major
  | ⟨some major, some minor, none⟩, v => v.major = major ∧ v.minor = minor
  | ⟨some major, some minor, some patch⟩, v => v = ⟨major, minor, patch⟩

def Partial.interval : Partial → Interval
  | ⟨none, _, _⟩ => .all
  | ⟨some major, none, _⟩ => ⟨⟨major, 0, 0⟩, some ⟨major + 1, 0, 0⟩⟩
  | ⟨some major, some minor, none⟩ => ⟨⟨major, minor, 0⟩, some ⟨major, minor + 1, 0⟩⟩
  | ⟨some major, some minor, some patch⟩ => ⟨⟨major, minor, patch⟩, some ⟨major, minor, patch + 1⟩⟩

theorem Partial.covers_iff (p : Partial) (v : Version) : p.Covers v ↔ p.interval.Contains v := by
  obtain ⟨a, b, c⟩ := v
  rcases p with ⟨_ | major, minor, patch⟩
  · exact iff_of_true trivial (Interval.contains_all _)
  rcases minor with _ | minor <;> [skip; rcases patch with _ | patch]
  all_goals
    simp only [Partial.Covers, Partial.interval, Interval.Contains, Version.le_iff, Option.mem_some_iff, forall_eq',
      Version.lt_iff, Version.mk.injEq]
    omega

theorem Partial.inhabited (p : Partial) : p.interval.Inhabited := by
  rcases p with ⟨_ | major, minor, patch⟩
  · exact nofun
  rcases minor with _ | minor <;> [skip; rcases patch with _ | patch]
  all_goals
    rintro high ⟨⟩
    rw [Version.lt_iff]
    dsimp only [Partial.interval]
    omega

/-! ## Operators -/

inductive Op where
  | exact
  | less
  | atMost
  | greater
  | atLeast
  | tilde
  | caret
  deriving DecidableEq

def Partial.minorLine (p : Partial) : Partial := { p with patch := none }

/-- The components that `^` fixes: those up to the leftmost one that is not zero. -/
def Partial.caretLine : Partial → Partial
  | ⟨some 0, some 0, some patch⟩ => ⟨some 0, some 0, some patch⟩
  | ⟨some 0, some minor, _⟩ => ⟨some 0, some minor, none⟩
  | ⟨major, _, _⟩ => ⟨major, none, none⟩

/-- The versions that an operator accepts. -/
def Op.Holds (p : Partial) (v : Version) : Op → Prop
  | .exact => p.Covers v
  | .less => ∀ w, p.Covers w → v < w
  | .atMost => ∃ w, p.Covers w ∧ v ≤ w
  | .greater => ∀ w, p.Covers w → w < v
  | .atLeast => ∃ w, p.Covers w ∧ w ≤ v
  | .tilde => (∃ w, p.Covers w ∧ w ≤ v) ∧ p.minorLine.Covers v
  | .caret => (∃ w, p.Covers w ∧ w ≤ v) ∧ p.caretLine.Covers v

/-- `low - high` -/
def HyphenHolds (low high : Partial) (v : Version) : Prop := Op.atLeast.Holds low v ∧ Op.atMost.Holds high v

section Holds

variable {p : Partial}

theorem holds_exact : Op.exact.Holds p v ↔ p.interval.Contains v := p.covers_iff v

theorem holds_less : Op.less.Holds p v ↔ v < p.interval.low := by
  simp only [Op.Holds, Partial.covers_iff]
  exact p.interval.forall_lt_iff p.inhabited

theorem holds_atMost : Op.atMost.Holds p v ↔ ∀ high ∈ p.interval.high, v < high := by
  simp only [Op.Holds, Partial.covers_iff]
  exact p.interval.exists_ge_iff p.inhabited

theorem holds_greater : Op.greater.Holds p v ↔ ∃ high ∈ p.interval.high, high ≤ v := by
  simp only [Op.Holds, Partial.covers_iff]
  exact p.interval.forall_gt_iff p.inhabited

theorem holds_atLeast : Op.atLeast.Holds p v ↔ p.interval.low ≤ v := by
  simp only [Op.Holds, Partial.covers_iff]
  exact p.interval.exists_le_iff p.inhabited

theorem holds_tilde : Op.tilde.Holds p v ↔ p.interval.low ≤ v ∧ p.minorLine.interval.Contains v :=
  and_congr holds_atLeast (p.minorLine.covers_iff v)

theorem holds_caret : Op.caret.Holds p v ↔ p.interval.low ≤ v ∧ p.caretLine.interval.Contains v :=
  and_congr holds_atLeast (p.caretLine.covers_iff v)

end Holds

end LocalWebAccess.VersionRanges
