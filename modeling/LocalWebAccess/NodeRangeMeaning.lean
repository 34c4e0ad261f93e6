import LocalWebAccess.NodeRangeTexts

/-!
# The meaning of Node ranges

Where a range is spelled without numbers behind wildcards and without `>` and `<=` of a wildcard, the
source gives it npm's meaning.
-/
namespace LocalWebAccess.NodeRanges

open PythonText VersionRanges

variable {v w : Version} {i : Interval} {p : Partial}

/-! ## Bounds that are versions -/

theorem Bound.lt_of (v w : Version) : (Bound.of v).lt (Bound.of w) = .ok (decide (v < w)) := by
  dsimp only [Bound.lt, Bound.of]
  rw [Except.ok.injEq, Bool.eq_iff_iff]
  simp only [Version.lt_iff, Bool.or_eq_true, Bool.and_eq_true, decide_eq_true_eq]

theorem Bound.max_of (v w : Version) : (Bound.of v).max (Bound.of w) = .ok (Bound.of (Max.max v w)) := by
  rw [Bound.max, Bound.lt_of]
  rcases lt_or_ge v w with lt | ge
  · simp [lt, lt.le, bind, Except.bind, pure, Except.pure]
  · simp [ge, not_lt.mpr ge, bind, Except.bind, pure, Except.pure]

theorem Bound.min_of (v w : Version) : (Bound.of v).min (Bound.of w) = .ok (Bound.of (Min.min v w)) := by
  rw [Bound.min, Bound.lt_of]
  rcases lt_or_ge w v with lt | ge
  · simp [lt, lt.le, bind, Except.bind, pure, Except.pure]
  · simp [ge, not_lt.mpr ge, bind, Except.bind, pure, Except.pure]

theorem intervalContains_of (i : Interval) (v : Version) :
    intervalContains (.of i) v = .ok (decide (i.Contains v)) := by
  obtain ⟨low, high⟩ := i
  rw [intervalContains, Bounds.of, Bound.lt_of]
  rcases lt_or_ge v low with lt | ge
  · simp [lt, Interval.Contains, not_le.mpr lt, bind, Except.bind, pure, Except.pure]
  · cases high with
    | none => simp [not_lt.mpr ge, Interval.Contains, ge, bind, Except.bind, pure, Except.pure]
    | some high => simp [not_lt.mpr ge, Interval.Contains, ge, Bound.lt_of, bind, Except.bind]

/-! ## Clauses that are read right -/

/-- No number other than zero stands behind a wildcard of `>=` or `<`, and none of `>` and `<=` is about a
wildcard. -/
def RegularOp (p : Partial) : Op → Prop
  | .greater => p.major ≠ none
  | .atMost => p.major ≠ none
  | .atLeast => lower p = .of p.interval.low
  | .less => lower p = .of p.interval.low
  | _ => True

def Clause.Regular : Clause → Prop
  | .comparator op p => RegularOp p op
  | .hyphen low high => lower low = .of low.interval.low ∧ low.major ≠ none ∧ high.major ≠ none

theorem upper_of (major : p.major ≠ none) : ∃ high, p.interval.high = some high ∧ upper p = .of high := by
  rcases p with ⟨_ | major, minor, patch⟩
  · exact absurd rfl major
  · rcases minor with _ | minor <;> [skip; rcases patch with _ | patch]
    all_goals exact ⟨_, rfl, rfl⟩

theorem exactBounds (p : Partial) : comparatorBounds .exact p = some (.of p.interval) := by
  rcases p with ⟨_ | major, minor, patch⟩
  · rfl
  · rcases minor with _ | minor <;> [skip; rcases patch with _ | patch]
    all_goals rfl

theorem zero_eq : zero = .of Interval.all.low := rfl

theorem contains_line {low : Version} {line : Interval} (below : line.low ≤ low) :
    (Interval.mk low line.high).Contains v ↔ low ≤ v ∧ line.Contains v :=
  ⟨fun contains => ⟨contains.1, below.trans contains.1, contains.2⟩, fun both => ⟨both.1, both.2.2⟩⟩

theorem contains_from {low : Version} : (Interval.mk low none).Contains v ↔ low ≤ v := by simp [Interval.Contains]

theorem contains_below {high : Version} : (Interval.mk ⟨0, 0, 0⟩ (some high)).Contains v ↔ v < high := by
  have least : (⟨0, 0, 0⟩ : Version) ≤ v := (Interval.contains_all v).1
  simp [Interval.Contains, least]

theorem tildeBounds_of (p : Partial) :
    tildeBounds p = .of ⟨p.interval.low, p.minorLine.interval.high⟩ ∧ p.minorLine.interval.low ≤ p.interval.low := by
  rcases p with ⟨_ | major, minor, patch⟩
  · exact ⟨rfl, le_rfl⟩
  · rcases minor with _ | minor <;> [skip; rcases patch with _ | patch]
    all_goals
      refine ⟨rfl, Version.le_iff.mpr ?_⟩
      dsimp only [Partial.minorLine, Partial.interval]
      omega

theorem caretBounds_of (p : Partial) :
    caretBounds p = .of ⟨p.interval.low, p.caretLine.interval.high⟩ ∧ p.caretLine.interval.low ≤ p.interval.low := by
  rcases p with ⟨_ | _ | major, minor, patch⟩
  · exact ⟨rfl, le_rfl⟩
  · rcases minor with _ | _ | minor <;> [skip; rcases patch with _ | patch; rcases patch with _ | patch]
    all_goals
      refine ⟨rfl, Version.le_iff.mpr ?_⟩
      simp only [Partial.caretLine, Partial.interval, true_and]
      omega
  · rcases minor with _ | minor <;> [skip; rcases patch with _ | patch]
    all_goals
      refine ⟨rfl, Version.le_iff.mpr ?_⟩
      simp only [Partial.caretLine, Partial.interval, true_and]
      omega

/-- The bounds of an operator hold the versions it accepts. -/
theorem opBounds_of {op : Op} (regular : RegularOp p op) :
    ∃ i, opBounds op p = some (.of i) ∧ ∀ v, i.Contains v ↔ op.Holds p v := by
  cases op with
  | exact => exact ⟨_, exactBounds p, fun v => holds_exact.symm⟩
  | less =>
    have low : lower p = .of p.interval.low := regular
    have found : opBounds .less p = some ⟨zero, some (lower p)⟩ := rfl
    exact ⟨⟨⟨0, 0, 0⟩, some p.interval.low⟩, by rw [found, low]; rfl, fun v => contains_below.trans holds_less.symm⟩
  | atMost =>
    obtain ⟨high, same, bound⟩ := upper_of regular
    have found : opBounds .atMost p = some ⟨zero, some (upper p)⟩ := rfl
    refine ⟨⟨⟨0, 0, 0⟩, some high⟩, by rw [found, bound]; rfl, fun v => ?_⟩
    rw [contains_below, holds_atMost, same]
    simp
  | greater =>
    obtain ⟨high, same, bound⟩ := upper_of regular
    have found : opBounds .greater p = some ⟨upper p, none⟩ := rfl
    refine ⟨⟨high, none⟩, by rw [found, bound]; rfl, fun v => ?_⟩
    rw [contains_from, holds_greater, same]
    simp
  | atLeast =>
    have low : lower p = .of p.interval.low := regular
    have found : opBounds .atLeast p = some ⟨lower p, none⟩ := rfl
    exact ⟨⟨p.interval.low, none⟩, by rw [found, low]; rfl, fun v => contains_from.trans holds_atLeast.symm⟩
  | tilde =>
    obtain ⟨found, below⟩ := tildeBounds_of p
    exact ⟨_, congrArg some found, fun v => (contains_line below).trans holds_tilde.symm⟩
  | caret =>
    obtain ⟨found, below⟩ := caretBounds_of p
    exact ⟨_, congrArg some found, fun v => (contains_line below).trans holds_caret.symm⟩

theorem hyphenBounds_of {low high : Partial} (regular : (Clause.hyphen low high).Regular) :
    ∃ i, hyphenBounds low high = some (.of i) ∧ ∀ v, i.Contains v ↔ HyphenHolds low high v := by
  obtain ⟨start, left, right⟩ := regular
  obtain ⟨top, same, bound⟩ := upper_of right
  have found : hyphenBounds low high = some ⟨lower low, some (upper high)⟩ := by
    rcases low with ⟨_ | low, minor, patch⟩
    · exact absurd rfl left
    · rcases high with ⟨_ | high, minor', patch'⟩
      · exact absurd rfl right
      · rcases minor' with _ | minor' <;> [skip; rcases patch' with _ | patch']
        all_goals rfl
  refine ⟨⟨low.interval.low, some top⟩, by rw [found, start, bound]; rfl, fun v => ?_⟩
  rw [HyphenHolds, holds_atLeast, holds_atMost, same, Interval.Contains]

/-- The bounds of a clause hold the versions that satisfy it. -/
theorem Clause.bounds_of {clause : Clause} (regular : clause.Regular) :
    ∃ i, clause.bounds = some (.of i) ∧ ∀ v, i.Contains v ↔ clause.Holds v := by
  cases clause with
  | comparator op p => exact opBounds_of regular
  | hyphen low high => exact hyphenBounds_of regular

/-! ## Branches -/

/-- What the source finds out about a branch whose versions are those of an interval. -/
structure Means (branch : List Atom) (i : Interval) : Prop where
  eval : ∀ v, evalBranch v branch = .ok (some (decide (i.Contains v)))
  bounds : branchBounds branch = .ok (some (.of i))

def Reads (atom : Atom) (i : Interval) : Prop := atomBounds atom = .ok (some (.of i))

theorem evalRangeAtom_of {atom : Atom} (reads : Reads atom i) (v : Version) :
    evalRangeAtom atom v = .ok (some (decide (i.Contains v))) := by
  have found : atomBounds atom = .ok (some (.of i)) := reads
  simp only [evalRangeAtom, found, bind, Except.bind, intervalContains_of]
  rfl

theorem mapM_evalRangeAtom {branch : List Atom} {intervals : List Interval}
    (reads : List.Forall₂ Reads branch intervals) (v : Version) : branch.mapM (evalRangeAtom · v) = .ok (intervals.map fun i => some (decide (i.Contains v))) := by
  induction reads with
  | nil => rfl
  | cons first _ ih =>
    rw [List.mapM_cons, evalRangeAtom_of first, ih]
    rfl

theorem mergeHigh_of (a b : Option Version) :
    mergeHigh (a.map .of) (b.map .of) = .ok ((earlier a b).map .of) := by
  cases a <;> cases b
  · rfl
  · rfl
  · rfl
  · simp only [mergeHigh, Option.map_some, Bound.min_of, earlier]
    rfl

theorem mergeBounds_of {branch : List Atom} {intervals : List Interval} (reads : List.Forall₂ Reads branch intervals)
    (found : Interval) : mergeBounds branch (.of found) = .ok (some (.of (intervals.foldl Interval.inter found))) := by
  induction reads generalizing found with
  | nil => rfl
  | @cons atom i branch intervals first _ ih =>
    have bounds : atomBounds atom = .ok (some (.of i)) := first
    have low : (Bounds.of found).low.max (Bounds.of i).low = .ok (.of (Max.max found.low i.low)) := Bound.max_of _ _
    have high : mergeHigh (Bounds.of found).high (Bounds.of i).high = .ok ((earlier found.high i.high).map .of) :=
      mergeHigh_of _ _
    rw [mergeBounds, bounds]
    simp only [bind, Except.bind, low, high]
    exact ih (found.inter i)

theorem contains_foldl_inter {intervals : List Interval} {found : Interval} :
    (intervals.foldl Interval.inter found).Contains v ↔ found.Contains v ∧ ∀ i ∈ intervals, i.Contains v := by
  induction intervals generalizing found with
  | nil => simp
  | cons i intervals ih =>
    rw [List.foldl_cons, ih, Interval.contains_inter, List.forall_mem_cons, and_assoc]

theorem means_of_reads {branch : List Atom} {intervals : List Interval} (filled : branch ≠ [])
    (reads : List.Forall₂ Reads branch intervals) :
    ∃ i, Means branch i ∧ ∀ v, i.Contains v ↔ ∀ j ∈ intervals, j.Contains v := by
  have all : ∀ v, (intervals.foldl Interval.inter .all).Contains v ↔ ∀ j ∈ intervals, j.Contains v := fun v =>
    contains_foldl_inter.trans (and_iff_right (Interval.contains_all v))
  refine ⟨intervals.foldl Interval.inter .all, ⟨fun v => ?_, ?_⟩, all⟩
  · rw [evalBranch, if_neg filled, mapM_evalRangeAtom reads]
    have sure : none ∉ intervals.map fun i => some (decide (i.Contains v)) := by simp
    have each : (intervals.map fun i => some (decide (i.Contains v))).all (· = some true) =
        decide ((intervals.foldl Interval.inter .all).Contains v) := by
      rw [Bool.eq_iff_iff, decide_eq_true_eq, all]
      simp
    simp only [bind, Except.bind, if_neg sure, each]
    rfl
  · rw [branchBounds, if_neg filled]
    exact mergeBounds_of reads .all

theorem SpellsComparators.clauses_ne_nil {text : List Char} {clauses : List Clause}
    (spells : SpellsComparators text clauses) : clauses ≠ [] := by
  cases spells <;> exact List.cons_ne_nil _ _

theorem atoms_ne_nil {branch : List Char} {clauses : List Clause} (spells : SpellsBranch branch clauses) :
    atoms branch ≠ [] := by
  have each := spells.reads
  have filled : clauses ≠ [] := by
    cases spells with
    | comparators _ comparators => exact comparators.clauses_ne_nil
    | hyphen => exact List.cons_ne_nil _ _
  intro none
  rw [none, List.forall₂_nil_left_iff] at each
  exact filled each

/-- Regular clauses mean together what they say. -/
theorem means_of_readsAs {branch : List Atom} {clauses : List Clause} (filled : branch ≠ [])
    (each : List.Forall₂ ReadsAs branch clauses) (regular : ∀ clause ∈ clauses, clause.Regular) :
    ∃ i, Means branch i ∧ ∀ v, i.Contains v ↔ ∀ clause ∈ clauses, clause.Holds v := by
  have reads : ∃ intervals, List.Forall₂ Reads branch intervals ∧
      ∀ v, (∀ j ∈ intervals, j.Contains v) ↔ ∀ clause ∈ clauses, clause.Holds v := by
    clear filled
    induction each with
    | nil => exact ⟨[], .nil, fun v => by simp⟩
    | cons first _ ih =>
      obtain ⟨here, later⟩ := List.forall_mem_cons.mp regular
      obtain ⟨i, found, means⟩ := Clause.bounds_of here
      obtain ⟨intervals, reads, rest⟩ := ih later
      exact ⟨i :: intervals, .cons (first.bounds.trans (congrArg _ found)) reads, fun v => by
        rw [List.forall_mem_cons, List.forall_mem_cons, means, rest]⟩
  obtain ⟨intervals, reads, same⟩ := reads
  obtain ⟨i, means, all⟩ := means_of_reads filled reads
  exact ⟨i, means, fun v => (all v).trans (same v)⟩

/-! ## The branches together -/

variable {branches : List (List Atom)} {intervals : List Interval}

theorem evalBranches_of (means : List.Forall₂ Means branches intervals) (v : Version) :
    evalBranches v branches = .ok (some (decide (∃ i ∈ intervals, i.Contains v))) := by
  induction means with
  | nil => simp [evalBranches, pure, Except.pure]
  | @cons branch i branches intervals first _ ih =>
    by_cases inside : i.Contains v
    · simp [evalBranches, first.eval, inside, bind, Except.bind, pure, Except.pure]
    · simp [evalBranches, first.eval, inside, bind, Except.bind, ih]

/-- The part of an interval in a line. -/
def clipped (start stop : Version) (i : Interval) : Option Interval :=
  if max i.low start < i.high.elim stop (min · stop) then
    some ⟨max i.low start, if i.high.elim stop (min · stop) < stop then some (i.high.elim stop (min · stop)) else none⟩
  else none

/-- The interval that reaches higher. -/
def reaching (best : Option Interval) (found : Interval) : Interval :=
  match best with
  | none => found
  | some best =>
    match best.high, found.high with
    | none, _ => best
    | some _, none => found
    | some high, some hi => if high < hi then found else best

def intersect (start stop : Version) : Option Interval → List Interval → Option Interval
  | best, [] => best
  | best, i :: intervals =>
    match clipped start stop i with
    | none => intersect start stop best intervals
    | some found => intersect start stop (some (reaching best found)) intervals

theorem clip_of (start stop : Version) (i : Interval) :
    clip (.of start) (.of stop) (.of i) = .ok ((clipped start stop i).map .of) := by
  have low : (Bounds.of i).low.max (.of start) = .ok (.of (max i.low start)) := Bound.max_of _ _
  have high : (Bounds.of i).high.elim (pure (.of stop)) (·.min (.of stop)) =
      (.ok (.of (i.high.elim stop (min · stop))) : Except Raised Bound) := by
    rcases i with ⟨_, _ | high⟩
    · rfl
    · exact Bound.min_of _ _
  simp only [clip, low, high, bind, Except.bind, Bound.lt_of, clipped, decide_eq_true_eq]
  split_ifs <;> rfl

theorem better_of (best : Option Interval) (found : Interval) :
    better (best.map .of) (.of found) = .ok (.of (reaching best found)) := by
  rcases best with _ | ⟨low, _ | high⟩
  · rfl
  · rfl
  · rcases found with ⟨low', _ | hi⟩
    · rfl
    · have compared : (Bound.of high).lt (.of hi) = .ok (decide (high < hi)) := Bound.lt_of high hi
      simp only [better, reaching, Option.map_some, Bounds.of, compared, bind, Except.bind, decide_eq_true_eq]
      split_ifs <;> rfl

theorem intersectBranches_of (means : List.Forall₂ Means branches intervals) (start stop : Version)
    (best : Option Interval) :
    intersectBranches (.of start) (.of stop) (best.map .of) branches =
      .ok ((intersect start stop best intervals).elim .empty fun i => .within (.of i)) := by
  induction means generalizing best with
  | nil => cases best <;> rfl
  | @cons branch i branches intervals first _ ih =>
    have step : intersectBranches (.of start) (.of stop) (best.map .of) (branch :: branches) =
        (match clipped start stop i with
        | none => intersectBranches (.of start) (.of stop) (best.map .of) branches
        | some found => intersectBranches (.of start) (.of stop) (some (.of (reaching best found))) branches) := by
      rw [intersectBranches]
      simp only [first.bounds, bind, Except.bind, clip_of]
      cases clipped start stop i with
      | none => rfl
      | some found => simp only [Option.map_some, better_of]
    rw [step, intersect]
    cases clipped start stop i with
    | none => exact ih best
    | some found => exact ih (some (reaching best found))

/-- An interval of a line that only holds versions in question, and reaches above all of them in the line. -/
structure Chosen (start stop : Version) (sat : Version → Prop) (i : Interval) : Prop where
  low : start ≤ i.low ∧ i.low < stop
  high : ∀ high ∈ i.high, i.low < high ∧ high < stop
  sound : ∀ v, v < stop → i.Contains v → sat v
  reaches : ∀ v, start ≤ v → v < stop → sat v → ∀ high ∈ i.high, v < high

def BestOf (start stop : Version) (sat : Version → Prop) : Option Interval → Prop
  | none => ∀ v, start ≤ v → v < stop → ¬sat v
  | some i => Chosen start stop sat i

section Lines

variable {start stop : Version} {sat sat' : Version → Prop} {found : Interval}

theorem lt_top_iff (high : Option Version) (below : v < stop) :
    v < high.elim stop (min · stop) ↔ ∀ top ∈ high, v < top := by
  cases high with
  | none => simp [below]
  | some top => simp [below]

theorem top_le (high : Option Version) : high.elim stop (min · stop) ≤ stop := by
  cases high with
  | none => exact le_rfl
  | some top => exact min_le_right top stop

theorem chosen_clipped (clips : clipped start stop i = some found) : Chosen start stop i.Contains found := by
  rw [clipped] at clips
  split_ifs at clips with filled inner
  · obtain rfl := Option.some.inj clips
    have low : max i.low start < stop := filled.trans inner
    refine ⟨⟨le_max_right _ _, low⟩, fun high mem => ?_, fun v below contains => ?_, fun v from' below contains => ?_⟩
    · obtain rfl := Option.mem_some_iff.mp mem
      exact ⟨filled, inner⟩
    · refine ⟨(le_max_left _ _).trans contains.1, (lt_top_iff i.high below).mp (contains.2 _ rfl)⟩
    · intro high mem
      obtain rfl := Option.mem_some_iff.mp mem
      exact (lt_top_iff i.high below).mpr contains.2
  · obtain rfl := Option.some.inj clips
    have top : i.high.elim stop (min · stop) = stop := le_antisymm (top_le i.high) (not_lt.mp inner)
    refine ⟨⟨le_max_right _ _, filled.trans_eq top⟩, nofun, fun v below contains => ?_, fun v _ _ _ => nofun⟩
    exact ⟨(le_max_left _ _).trans contains.1, (lt_top_iff i.high below).mp (below.trans_eq top.symm)⟩

theorem not_contains_of_clipped (clips : clipped start stop i = none) :
    ∀ v, start ≤ v → v < stop → ¬i.Contains v := by
  intro v above below contains
  rw [clipped] at clips
  split_ifs at clips with filled
  exact filled ((max_le contains.1 above).trans_lt ((lt_top_iff i.high below).mpr contains.2))

theorem Chosen.or_left (chosen : Chosen start stop sat i)
    (reaches : ∀ v, start ≤ v → v < stop → sat' v → ∀ high ∈ i.high, v < high) :
    Chosen start stop (fun v => sat v ∨ sat' v) i where
  low := chosen.low
  high := chosen.high
  sound v below contains := Or.inl (chosen.sound v below contains)
  reaches v above below either := either.elim (chosen.reaches v above below) (reaches v above below)

theorem Chosen.or_right (chosen : Chosen start stop sat' i)
    (reaches : ∀ v, start ≤ v → v < stop → sat v → ∀ high ∈ i.high, v < high) :
    Chosen start stop (fun v => sat v ∨ sat' v) i where
  low := chosen.low
  high := chosen.high
  sound v below contains := Or.inr (chosen.sound v below contains)
  reaches v above below either := either.elim (reaches v above below) (chosen.reaches v above below)

theorem Chosen.reaching {best : Interval} (chosen : Chosen start stop sat best) (other : Chosen start stop sat' found) :
    Chosen start stop (fun v => sat v ∨ sat' v) (reaching (some best) found) := by
  obtain ⟨low, _ | high⟩ := best
  · exact chosen.or_left fun v _ _ _ => nofun
  · obtain ⟨low', _ | hi⟩ := found
    · exact other.or_right fun v _ _ _ => nofun
    · dsimp only [NodeRanges.reaching]
      split_ifs with lt
      · refine other.or_right fun v above below satisfies top mem => ?_
        obtain rfl := Option.mem_some_iff.mp mem
        exact (chosen.reaches v above below satisfies high rfl).trans lt
      · refine chosen.or_left fun v above below satisfies top mem => ?_
        obtain rfl := Option.mem_some_iff.mp mem
        exact (other.reaches v above below satisfies hi rfl).trans_le (not_lt.mp lt)

theorem bestOf_congr {best : Option Interval} (same : ∀ v, sat v ↔ sat' v) (bestOf : BestOf start stop sat best) :
    BestOf start stop sat' best := by
  have eq : sat = sat' := funext fun v => propext (same v)
  exact eq ▸ bestOf

/-- The loop over the branches keeps the best interval of those it has seen. -/
theorem bestOf_intersect {best : Option Interval} (bestOf : BestOf start stop sat best) :
    BestOf start stop (fun v => sat v ∨ ∃ i ∈ intervals, i.Contains v) (intersect start stop best intervals) := by
  induction intervals generalizing best sat with
  | nil => exact bestOf_congr (by simp) bestOf
  | cons i intervals ih =>
    have split : ∀ v, (sat v ∨ i.Contains v) ∨ (∃ j ∈ intervals, j.Contains v) ↔
        sat v ∨ ∃ j ∈ i :: intervals, j.Contains v := fun v => by
      rw [List.exists_mem_cons_iff, or_assoc]
    rw [intersect]
    cases clips : clipped start stop i with
    | none =>
      have outside := not_contains_of_clipped clips
      have step : BestOf start stop (fun v => sat v ∨ i.Contains v) best := by
        cases best with
        | none => exact fun v above below either => either.elim (bestOf v above below) (outside v above below)
        | some b => exact Chosen.or_left bestOf fun v above below contains => absurd contains (outside v above below)
      exact bestOf_congr split (ih step)
    | some found =>
      have chosen := chosen_clipped clips
      have step : BestOf start stop (fun v => sat v ∨ i.Contains v) (some (reaching best found)) := by
        cases best with
        | none => exact Chosen.or_right chosen fun v above below satisfies => absurd satisfies (bestOf v above below)
        | some b => exact Chosen.reaching bestOf chosen
      exact bestOf_congr split (ih step)

end Lines

end LocalWebAccess.NodeRanges
