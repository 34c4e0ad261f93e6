import LocalWebAccess.NodeRangeMeaning

/-!
# What Node ranges are answered

The membership test and the interval of a major line against npm's meaning of the text. Both give a text
up at the first branch with an atom they cannot read, but the membership test does not come that far
where an earlier branch holds the version.
-/
namespace LocalWebAccess.NodeRanges

open PythonText VersionRanges

variable {text : List Char} {v : Version}

/-- The answer on the versions of a line: none of them satisfies the range, or the chosen interval. -/
def LineMeans (text : List Char) (major : ℕ) : Option Interval → Prop :=
  BestOf ⟨major, 0, 0⟩ ⟨major + 1, 0, 0⟩ (Satisfies text)

def Intersection.of (best : Option Interval) : Intersection := best.elim .empty fun i => .within (.of i)

/-- Both functions read the text as npm does, and tell exactly the texts outside the subset. -/
structure MeansRange (text : List Char) : Prop where
  unknown : ∀ v, nodeVersionInRange text v = .ok none ↔ ∃ branch ∈ branches text, ¬Supported branch
  known : (∀ branch ∈ branches text, Supported branch) →
    ∀ v, ∃ inside, nodeVersionInRange text v = .ok (some inside) ∧ (inside = true ↔ Satisfies text v)
  unknownLine : ∀ major, nodeRangeMajorIntersection text major = .ok .unparsable ↔
    ∃ branch ∈ branches text, ¬Supported branch
  knownLine : (∀ branch ∈ branches text, Supported branch) →
    ∀ major, ∃ best, nodeRangeMajorIntersection text major = .ok (.of best) ∧ LineMeans text major best

/-- A branch in the subset whose clauses are all read right. -/
def RegularBranch (branch : List Char) : Prop :=
  ∃ clauses, SpellsBranch branch clauses ∧ ∀ clause ∈ clauses, clause.Regular

/-- A branch without atoms, or with one that cannot be read. -/
def Rejected (branch : List Char) : Prop :=
  atoms branch = [] ∨ (∃ atom ∈ atoms branch, atomBounds atom = .ok none) ∧
    ∀ atom ∈ atoms branch, atomBounds atom = .ok none ∨ ∃ i, Reads atom i

/-- A branch that is read as clauses which no version satisfies together. -/
def Void (branch : List Char) : Prop :=
  ∃ clauses, atoms branch ≠ [] ∧ List.Forall₂ ReadsAs (atoms branch) clauses ∧
    (∀ clause ∈ clauses, clause.Regular) ∧ ∀ v, ¬∀ clause ∈ clauses, clause.Holds v

/-- All branches are read right, or only void ones stand before the first that cannot be read. -/
inductive Plain (text : List Char) : Prop
  | known : (∀ branch ∈ branches text, RegularBranch branch) → Plain text
  | unknown (before : List (List Char)) (bad : List Char) (after : List (List Char)) :
      branches text = before ++ bad :: after → (∀ branch ∈ before, Void branch) → Rejected bad → Plain text

/-! ## Both functions over the branches -/

theorem nodeVersionInRange_eq (text : List Char) (v : Version) :
    nodeVersionInRange text v = evalBranches v ((branches text).map atoms) := by
  rw [nodeVersionInRange]
  split_ifs with empty
  · rw [branches, empty]
    rfl
  · rfl

theorem nodeRangeMajorIntersection_eq (text : List Char) (major : ℕ) :
    nodeRangeMajorIntersection text major =
      intersectBranches (.of ⟨major, 0, 0⟩) (.of ⟨major + 1, 0, 0⟩) none ((branches text).map atoms) := by
  rw [nodeRangeMajorIntersection]
  split_ifs with empty
  · rw [branches, empty]
    rfl
  · rfl

theorem evalBranches_append {before : List (List Atom)} {intervals : List Interval}
    (means : List.Forall₂ Means before intervals) (v : Version) (after : List (List Atom)) :
    evalBranches v (before ++ after) =
      if ∃ i ∈ intervals, i.Contains v then .ok (some true) else evalBranches v after := by
  induction means with
  | nil => simp
  | @cons branch i before intervals first _ ih =>
    by_cases inside : i.Contains v
    · simp [evalBranches, first.eval, inside, bind, Except.bind, pure, Except.pure]
    · simp [evalBranches, first.eval, inside, bind, Except.bind, ih]

theorem intersectBranches_cons (start stop : Version) (best : Option Interval) (branch : List Atom) {i : Interval}
    (bounds : branchBounds branch = .ok (some (.of i))) (after : List (List Atom)) :
    ∃ best', intersectBranches (.of start) (.of stop) (best.map .of) (branch :: after) =
      intersectBranches (.of start) (.of stop) (Option.map .of best') after := by
  rw [intersectBranches]
  simp only [bounds, bind, Except.bind, clip_of]
  cases clipped start stop i with
  | none => exact ⟨best, rfl⟩
  | some found =>
    refine ⟨some (reaching best found), ?_⟩
    simp only [Option.map_some, better_of]

theorem intersectBranches_append {before : List (List Atom)} {intervals : List Interval}
    (means : List.Forall₂ Means before intervals) (start stop : Version) (best : Option Interval)
    (after : List (List Atom)) :
    ∃ best', intersectBranches (.of start) (.of stop) (best.map .of) (before ++ after) =
      intersectBranches (.of start) (.of stop) (Option.map .of best') after := by
  induction means generalizing best with
  | nil => exact ⟨best, rfl⟩
  | @cons branch i before intervals first _ ih =>
    obtain ⟨best', step⟩ := intersectBranches_cons start stop best branch first.bounds (before ++ after)
    obtain ⟨last, rest⟩ := ih best'
    exact ⟨last, step.trans rest⟩

/-! ## Branches that cannot be read -/

theorem mapM_unknown {branch : List Atom} (v : Version)
    (each : ∀ atom ∈ branch, atomBounds atom = .ok none ∨ ∃ i, Reads atom i) :
    ∃ results, branch.mapM (evalRangeAtom · v) = .ok results ∧
      ((∃ atom ∈ branch, atomBounds atom = .ok none) → none ∈ results) := by
  induction branch with
  | nil =>
    refine ⟨[], rfl, ?_⟩
    rintro ⟨_, mem, _⟩
    exact absurd mem List.not_mem_nil
  | cons atom branch ih =>
    obtain ⟨here, later⟩ := List.forall_mem_cons.mp each
    obtain ⟨results, evaluated, among⟩ := ih later
    rcases here with bad | ⟨i, reads⟩
    · have unknown : evalRangeAtom atom v = .ok none := by
        simp only [evalRangeAtom, bad]
        rfl
      refine ⟨none :: results, ?_, fun _ => List.mem_cons_self⟩
      rw [List.mapM_cons, unknown, evaluated]
      rfl
    · refine ⟨some (decide (i.Contains v)) :: results, ?_, ?_⟩
      · rw [List.mapM_cons, evalRangeAtom_of reads, evaluated]
        rfl
      · rintro ⟨other, mem, bad⟩
        rcases List.mem_cons.mp mem with rfl | mem
        · exact absurd (bad.symm.trans reads) (by simp)
        · exact List.mem_cons_of_mem _ (among ⟨other, mem, bad⟩)

theorem mergeBounds_unknown {branch : List Atom}
    (each : ∀ atom ∈ branch, atomBounds atom = .ok none ∨ ∃ i, Reads atom i)
    (bad : ∃ atom ∈ branch, atomBounds atom = .ok none) (found : Interval) :
    mergeBounds branch (.of found) = .ok none := by
  induction branch generalizing found with
  | nil => exact absurd bad (by simp)
  | cons atom branch ih =>
    obtain ⟨here, later⟩ := List.forall_mem_cons.mp each
    rcases here with unread | ⟨i, reads⟩
    · rw [mergeBounds, unread]
      rfl
    · have bounds : atomBounds atom = .ok (some (.of i)) := reads
      have low : (Bounds.of found).low.max (Bounds.of i).low = .ok (.of (max found.low i.low)) := Bound.max_of _ _
      have high : mergeHigh (Bounds.of found).high (Bounds.of i).high = .ok ((earlier found.high i.high).map .of) :=
        mergeHigh_of _ _
      have rest : ∃ other ∈ branch, atomBounds other = .ok none := by
        obtain ⟨other, mem, unread⟩ := bad
        rcases List.mem_cons.mp mem with rfl | mem
        · exact absurd (unread.symm.trans bounds) (by simp)
        · exact ⟨other, mem, unread⟩
      rw [mergeBounds, bounds]
      simp only [bind, Except.bind, low, high]
      exact ih later rest (found.inter i)

theorem Rejected.eval {bad : List Char} (rejected : Rejected bad) (v : Version) :
    evalBranch v (atoms bad) = .ok none := by
  rw [evalBranch]
  split_ifs with empty
  · rfl
  · obtain ⟨unread, each⟩ := rejected.resolve_left empty
    obtain ⟨results, evaluated, among⟩ := mapM_unknown v each
    simp only [evaluated, bind, Except.bind, if_pos (among unread)]
    rfl

theorem Rejected.bounds {bad : List Char} (rejected : Rejected bad) : branchBounds (atoms bad) = .ok none := by
  rw [branchBounds]
  split_ifs with empty
  · rfl
  · obtain ⟨unread, each⟩ := rejected.resolve_left empty
    exact mergeBounds_unknown each unread .all

theorem SpellsBranch.bounds_ne_none {branch : List Char} {clauses : List Clause}
    (spells : SpellsBranch branch clauses) : ∀ clause ∈ clauses, clause.bounds ≠ none := by
  cases spells with
  | comparators _ comparators =>
    induction comparators with
    | @last text gap clause comparator _ =>
      rw [List.forall_mem_singleton]
      cases comparator with
      | bare => exact opBounds_ne_none .exact _
      | op op => exact opBounds_ne_none op _
    | @cons text gap rest clause clauses comparator _ _ _ ih =>
      rw [List.forall_mem_cons]
      refine ⟨?_, ih⟩
      cases comparator with
      | bare => exact opBounds_ne_none .exact _
      | op op => exact opBounds_ne_none op _
  | @hyphen before low gap gap' high after p q _ _ _ _ _ _ _ _ left right =>
    rw [List.forall_mem_singleton, Clause.bounds, hyphenBounds]
    split
    · exact Option.some_ne_none _
    · rename_i either
      obtain ⟨m, low⟩ := Option.ne_none_iff_exists'.mp left
      obtain ⟨n, high⟩ := Option.ne_none_iff_exists'.mp right
      exact absurd high (either m n low)

theorem Rejected.not_supported {bad : List Char} (rejected : Rejected bad) : ¬Supported bad := by
  rintro ⟨clauses, spells⟩
  obtain ⟨⟨atom, mem, unread⟩, -⟩ := rejected.resolve_left (atoms_ne_nil spells)
  obtain ⟨n, inside, rfl⟩ := List.mem_iff_getElem.mp mem
  have each := List.forall₂_iff_get.mp spells.reads
  have reads := each.2 n inside (each.1 ▸ inside)
  rw [List.get_eq_getElem, List.get_eq_getElem] at reads
  have found := Except.ok.inj (unread.symm.trans reads.bounds)
  exact spells.bounds_ne_none _ (List.getElem_mem _) found.symm

/-! ## Texts that are read right -/

theorem exists_forall₂ {α β : Type} {R : α → β → Prop} {l : List α} (each : ∀ a ∈ l, ∃ b, R a b) :
    ∃ l', List.Forall₂ R l l' := by
  induction l with
  | nil => exact ⟨[], .nil⟩
  | cons a l ih =>
    obtain ⟨⟨b, here⟩, later⟩ := List.forall_mem_cons.mp each
    obtain ⟨l', rest⟩ := ih later
    exact ⟨b :: l', .cons here rest⟩

theorem RegularBranch.means {branch : List Char} (regular : RegularBranch branch) :
    ∃ i, Means (atoms branch) i ∧
      ∀ v, i.Contains v ↔ ∃ clauses, SpellsBranch branch clauses ∧ ∀ clause ∈ clauses, clause.Holds v := by
  obtain ⟨clauses, spells, each⟩ := regular
  obtain ⟨i, means, same⟩ := means_of_readsAs (atoms_ne_nil spells) spells.reads each
  refine ⟨i, means, fun v => (same v).trans ⟨fun holds => ⟨clauses, spells, holds⟩, ?_⟩⟩
  rintro ⟨clauses', spells', holds⟩
  exact spells.unique spells' ▸ holds

theorem Void.means {branch : List Char} (void : Void branch) :
    ∃ i, Means (atoms branch) i ∧ ∀ v, ¬i.Contains v := by
  obtain ⟨clauses, filled, reads, each, none⟩ := void
  obtain ⟨i, means, same⟩ := means_of_readsAs filled reads each
  exact ⟨i, means, fun v contains => none v ((same v).mp contains)⟩

/-- The intervals of regular branches hold together what satisfies one of them. -/
theorem means_of_regular {before : List (List Char)} (regular : ∀ branch ∈ before, RegularBranch branch) :
    ∃ intervals, List.Forall₂ Means (before.map atoms) intervals ∧
      ∀ v, (∃ i ∈ intervals, i.Contains v) ↔
        ∃ branch ∈ before, ∃ clauses, SpellsBranch branch clauses ∧ ∀ clause ∈ clauses, clause.Holds v := by
  induction before with
  | nil => exact ⟨[], .nil, fun v => by simp⟩
  | cons branch before ih =>
    obtain ⟨here, later⟩ := List.forall_mem_cons.mp regular
    obtain ⟨i, means, same⟩ := here.means
    obtain ⟨intervals, rest, all⟩ := ih later
    exact ⟨i :: intervals, .cons means rest, fun v => by
      rw [List.exists_mem_cons_iff, List.exists_mem_cons_iff, same, all]⟩

theorem means_of_void {before : List (List Char)} (void : ∀ branch ∈ before, Void branch) :
    ∃ intervals, List.Forall₂ Means (before.map atoms) intervals ∧ ∀ v, ¬∃ i ∈ intervals, i.Contains v := by
  induction before with
  | nil => exact ⟨[], .nil, fun v => by simp⟩
  | cons branch before ih =>
    obtain ⟨here, later⟩ := List.forall_mem_cons.mp void
    obtain ⟨i, means, none⟩ := here.means
    obtain ⟨intervals, rest, others⟩ := ih later
    refine ⟨i :: intervals, .cons means rest, fun v => ?_⟩
    rw [List.exists_mem_cons_iff]
    exact fun either => either.elim (none v) (others v)

theorem meansRange_of_regular (regular : ∀ branch ∈ branches text, RegularBranch branch) : MeansRange text := by
  have supported : ¬∃ branch ∈ branches text, ¬Supported branch := by
    rintro ⟨branch, mem, not⟩
    obtain ⟨clauses, spells, -⟩ := regular branch mem
    exact not ⟨clauses, spells⟩
  obtain ⟨intervals, means, same⟩ := means_of_regular regular
  have found : ∀ v, nodeVersionInRange text v = .ok (some (decide (∃ i ∈ intervals, i.Contains v))) := fun v => by
    rw [nodeVersionInRange_eq, evalBranches_of means]
  have line : ∀ major, nodeRangeMajorIntersection text major =
      .ok (.of (intersect ⟨major, 0, 0⟩ ⟨major + 1, 0, 0⟩ none intervals)) := fun major => by
    rw [nodeRangeMajorIntersection_eq]
    exact intersectBranches_of means _ _ none
  refine ⟨fun v => ?_, fun _ v => ⟨_, found v, ?_⟩, fun major => ?_, fun _ major => ⟨_, line major, ?_⟩⟩
  · rw [found]
    exact iff_of_false (by simp) supported
  · rw [decide_eq_true_eq, same]
    rfl
  · rw [line]
    refine iff_of_false ?_ supported
    cases intersect ⟨major, 0, 0⟩ ⟨major + 1, 0, 0⟩ none intervals <;> simp [Intersection.of]
  · have first : BestOf ⟨major, 0, 0⟩ ⟨major + 1, 0, 0⟩ (fun _ => False) none := fun v _ _ => id
    refine bestOf_congr (fun v => ?_) (bestOf_intersect first)
    rw [false_or, same]
    rfl

theorem nodeVersionInRange_rejected {before after : List (List Char)} {bad : List Char} {intervals : List Interval}
    (split : branches text = before ++ bad :: after) (means : List.Forall₂ Means (before.map atoms) intervals)
    (rejected : Rejected bad) (v : Version) :
    nodeVersionInRange text v = if ∃ i ∈ intervals, i.Contains v then .ok (some true) else .ok none := by
  rw [nodeVersionInRange_eq, split, List.map_append, evalBranches_append means, List.map_cons, evalBranches,
    rejected.eval v]
  rfl

theorem meansRange_of_rejected {before after : List (List Char)} {bad : List Char}
    (split : branches text = before ++ bad :: after) (void : ∀ branch ∈ before, Void branch) (rejected : Rejected bad) :
    MeansRange text := by
  have outside : ∃ branch ∈ branches text, ¬Supported branch :=
    ⟨bad, by rw [split]; exact List.mem_append_right _ List.mem_cons_self, rejected.not_supported⟩
  have absurdly : ¬∀ branch ∈ branches text, Supported branch := fun all => outside.elim fun b h => h.2 (all b h.1)
  obtain ⟨intervals, means, none⟩ := means_of_void void
  refine ⟨fun v => iff_of_true ?_ outside, fun all => absurd all absurdly, fun major => iff_of_true ?_ outside,
    fun all => absurd all absurdly⟩
  · rw [nodeVersionInRange_rejected split means rejected, if_neg (none v)]
  · obtain ⟨best, rest⟩ := intersectBranches_append means ⟨major, 0, 0⟩ ⟨major + 1, 0, 0⟩ Option.none
      ((bad :: after).map atoms)
    rw [nodeRangeMajorIntersection_eq, split, List.map_append]
    refine Eq.trans rest ?_
    rw [List.map_cons, intersectBranches, rejected.bounds]
    rfl

theorem meansRange_of_plain (plain : Plain text) : MeansRange text := by
  cases plain with
  | known regular => exact meansRange_of_regular regular
  | unknown before bad after split void rejected => exact meansRange_of_rejected split void rejected

/-! ## Texts that are not -/

/-- A text of regular and rejected branches is read right only where no version ends the test early. -/
theorem plain_of_meansRange (each : ∀ branch ∈ branches text, RegularBranch branch ∨ Rejected branch)
    (means : MeansRange text) : Plain text := by
  classical
  cases first : (branches text).find? (Rejected ·) with
  | none =>
    refine .known fun branch mem => (each branch mem).resolve_right ?_
    simpa using List.find?_eq_none.mp first branch mem
  | some bad =>
    obtain ⟨found, before, after, split, none⟩ := List.find?_eq_some_iff_append.mp first
    have rejected : Rejected bad := of_decide_eq_true found
    have among : ∀ branch ∈ before, branch ∈ branches text := fun branch mem =>
      split ▸ List.mem_append_left _ mem
    have regular : ∀ branch ∈ before, RegularBranch branch := fun branch mem =>
      (each branch (among branch mem)).resolve_right (by simpa using none branch mem)
    refine .unknown before bad after split (fun branch mem => ?_) rejected
    obtain ⟨clauses, spells, right⟩ := regular branch mem
    refine ⟨clauses, atoms_ne_nil spells, spells.reads, right, fun v holds => ?_⟩
    obtain ⟨intervals, meaning, same⟩ := means_of_regular regular
    have early : nodeVersionInRange text v = .ok (some true) := by
      rw [nodeVersionInRange_rejected split meaning rejected]
      exact if_pos ((same v).mpr ⟨branch, mem, clauses, spells, holds⟩)
    have outside : ∃ branch ∈ branches text, ¬Supported branch :=
      ⟨bad, by rw [split]; exact List.mem_append_right _ List.mem_cons_self, rejected.not_supported⟩
    exact absurd (early.symm.trans ((means.unknown v).mpr outside)) (by simp)

/-- The versions that a comparator of the source accepts, where it raises nothing. -/
theorem eval_comparator {branch : List Char} {op : Op} {p : Partial} (alone : branches text = [branch])
    (spells : SpellsBranch branch [.comparator op p]) {bounds : Bounds} (found : opBounds op p = some bounds)
    (v : Version) : nodeVersionInRange text v = (some <$> intervalContains bounds v) := by
  have reads := spells.reads
  generalize at_ : atoms branch = read at reads
  cases reads with
  | @cons atom clause rest rest' first none =>
    cases none
    have bound : atomBounds atom = .ok (some bounds) := first.bounds.trans (congrArg _ found)
    rw [nodeVersionInRange_eq, alone, List.map_singleton, at_, evalBranches, evalBranch,
      if_neg (List.cons_ne_nil _ _), List.mapM_cons, List.mapM_nil, evalRangeAtom, bound]
    dsimp only [bind, Except.bind]
    cases intervalContains bounds v with
    | error e => rfl
    | ok inside => cases inside <;> rfl

/-- Where a text of one comparator is read right, the bounds of the comparator hold what it accepts. -/
theorem contains_iff_holds {branch : List Char} {op : Op} {p : Partial} (alone : branches text = [branch])
    (spells : SpellsBranch branch [.comparator op p]) {bounds : Bounds} (found : opBounds op p = some bounds)
    (means : MeansRange text) (v : Version) :
    ∃ inside, intervalContains bounds v = .ok inside ∧ (inside = true ↔ op.Holds p v) := by
  have supported : ∀ branch ∈ branches text, Supported branch := by
    rw [alone, List.forall_mem_singleton]
    exact ⟨_, spells⟩
  have holds : Satisfies text v ↔ op.Holds p v := by
    rw [Satisfies, alone]
    constructor
    · rintro ⟨other, mem, clauses, spells', holds⟩
      obtain rfl := List.mem_singleton.mp mem
      obtain rfl := spells.unique spells'
      exact holds _ (List.mem_singleton_self _)
    · exact fun holds => ⟨branch, List.mem_singleton_self _, _, spells, List.forall_mem_singleton.mpr holds⟩
  obtain ⟨inside, evaluated, same⟩ := means.known supported v
  rw [eval_comparator alone spells found] at evaluated
  refine ⟨inside, ?_, same.trans holds⟩
  cases contains : intervalContains bounds v with
  | error e =>
    rw [contains] at evaluated
    cases evaluated
  | ok there =>
    rw [contains] at evaluated
    exact congrArg Except.ok (Option.some.inj (Except.ok.inj evaluated))

theorem intervalContains_iff {i : Interval} {inside : Bool} (contains : intervalContains (.of i) v = .ok inside) :
    inside = true ↔ i.Contains v := by
  obtain rfl := Except.ok.inj ((intervalContains_of i v).symm.trans contains)
  exact decide_eq_true_iff

/-- An end behind a wildcard is a version of its own, or nothing that a version compares with. -/
theorem upper_wildcard {p : Partial} (major : p.major = none) :
    (∃ w, upper p = .of w) ∨ ∀ v, (Bound.of v).lt (upper p) = .error .typeError := by
  obtain ⟨_, minor, patch⟩ := p
  obtain rfl : _ = none := major
  rcases minor with _ | minor
  · exact Or.inl ⟨⟨1, 0, 0⟩, rfl⟩
  · rcases patch with _ | patch
    · exact Or.inl ⟨⟨0, minor + 1, 0⟩, rfl⟩
    · exact Or.inr fun v => rfl

theorem interval_wildcard {p : Partial} (major : p.major = none) : p.interval = .all := by
  obtain ⟨_, minor, patch⟩ := p
  obtain rfl : _ = none := major
  rfl

/-- A text of one comparator is read right only where the comparator is regular. -/
theorem regularOp_of_meansRange {branch : List Char} {op : Op} {p : Partial} (alone : branches text = [branch])
    (spells : SpellsBranch branch [.comparator op p]) (means : MeansRange text) : RegularOp p op := by
  have lowest : lower p = .of ⟨p.major.getD 0, p.minor.getD 0, p.patch.getD 0⟩ := rfl
  cases op with
  | exact => trivial
  | tilde => trivial
  | caret => trivial
  | less =>
    have found : opBounds .less p = some (.of ⟨⟨0, 0, 0⟩, some ⟨p.major.getD 0, p.minor.getD 0, p.patch.getD 0⟩⟩) := rfl
    have same : ∀ v, v < ⟨p.major.getD 0, p.minor.getD 0, p.patch.getD 0⟩ ↔ v < p.interval.low := fun v => by
      obtain ⟨inside, contains, iff⟩ := contains_iff_holds alone spells found means v
      rw [← holds_less, ← iff, intervalContains_iff contains, contains_below]
    exact lowest.trans (congrArg _ (eq_of_forall_lt_iff same))
  | atLeast =>
    have found : opBounds .atLeast p = some (.of ⟨⟨p.major.getD 0, p.minor.getD 0, p.patch.getD 0⟩, none⟩) := rfl
    have same : ∀ v, ⟨p.major.getD 0, p.minor.getD 0, p.patch.getD 0⟩ ≤ v ↔ p.interval.low ≤ v := fun v => by
      obtain ⟨inside, contains, iff⟩ := contains_iff_holds alone spells found means v
      rw [← holds_atLeast, ← iff, intervalContains_iff contains, contains_from]
    exact lowest.trans (congrArg _ (eq_of_forall_ge_iff same))
  | greater =>
    intro wild
    have found : opBounds .greater p = some ⟨upper p, none⟩ := rfl
    have nowhere : ∀ v, ¬Op.greater.Holds p v := fun v => by
      rw [holds_greater, interval_wildcard wild]
      simp [Interval.all]
    rcases upper_wildcard wild with ⟨w, bound⟩ | raises
    · obtain ⟨inside, contains, iff⟩ := contains_iff_holds alone spells found means w
      rw [bound] at contains
      have within : (Interval.mk w none).Contains w := contains_from.mpr le_rfl
      exact nowhere w (iff.mp ((intervalContains_iff (i := ⟨w, none⟩) contains).mpr within))
    · obtain ⟨inside, contains, -⟩ := contains_iff_holds alone spells found means ⟨0, 0, 0⟩
      rw [intervalContains, raises] at contains
      cases contains
  | atMost =>
    intro wild
    have found : opBounds .atMost p = some ⟨zero, some (upper p)⟩ := rfl
    have everywhere : ∀ v, Op.atMost.Holds p v := fun v => by
      rw [holds_atMost, interval_wildcard wild]
      simp [Interval.all]
    rcases upper_wildcard wild with ⟨w, bound⟩ | raises
    · obtain ⟨inside, contains, iff⟩ := contains_iff_holds alone spells found means w
      rw [bound] at contains
      have within := (intervalContains_iff (i := ⟨⟨0, 0, 0⟩, some w⟩) contains).mp (iff.mpr (everywhere w))
      exact lt_irrefl w (contains_below.mp within)
    · obtain ⟨inside, contains, -⟩ := contains_iff_holds alone spells found means ⟨0, 0, 0⟩
      have low : (Bound.of ⟨0, 0, 0⟩).lt zero = .ok false := rfl
      rw [intervalContains, low] at contains
      dsimp only [bind, Except.bind] at contains
      rw [if_neg Bool.false_ne_true, raises] at contains
      cases contains

/-- Both functions give npm's meaning to the plain texts. Among the texts whose branches are all regular
or rejected, and among those of one comparator, they do so to no others. -/
theorem meansRange_iff (text : List Char) :
    (Plain text → MeansRange text) ∧
      ((∀ branch ∈ branches text, RegularBranch branch ∨ Rejected branch) → MeansRange text → Plain text) ∧
      ∀ branch op p, branches text = [branch] → SpellsBranch branch [.comparator op p] →
        (MeansRange text ↔ RegularOp p op) := by
  refine ⟨meansRange_of_plain, plain_of_meansRange, fun branch op p alone spells => ?_⟩
  refine ⟨regularOp_of_meansRange alone spells, fun regular => meansRange_of_regular ?_⟩
  rw [alone, List.forall_mem_singleton]
  exact ⟨_, spells, List.forall_mem_singleton.mpr regular⟩

theorem meansRange_union : MeansRange "^18.2 || >=20".toList := by
  have caret : SpellsBranch "^18.2 ".toList [.comparator .caret ⟨some 18, some 2, none⟩] := by
    have version : SpellsPartial "18.2".toList ⟨some 18, some 2, none⟩ :=
      ⟨["18".toList, "2".toList], [some 18, some 2], .cons rfl (.cons rfl .nil), by decide, by decide, rfl, rfl⟩
    have blank : Blank [' '] := List.forall_mem_singleton.mpr rfl
    exact @SpellsBranch.comparators [] _ _ blank_nil (.last (@SpellsComparator.op .caret [] _ _ blank_nil version) blank)
  have atLeast : SpellsBranch " >=20".toList [.comparator .atLeast ⟨some 20, none, none⟩] := by
    have version : SpellsPartial "20".toList ⟨some 20, none, none⟩ :=
      ⟨["20".toList], [some 20], .cons rfl .nil, by decide, by decide, rfl, rfl⟩
    have blank : Blank [' '] := List.forall_mem_singleton.mpr rfl
    have last : SpellsComparator ">=20".toList (.comparator .atLeast ⟨some 20, none, none⟩) :=
      @SpellsComparator.op .atLeast [] _ _ blank_nil version
    exact .comparators blank (@SpellsComparators.last _ [] _ last blank_nil)
  refine (meansRange_iff _).1 (.known ?_)
  have split : branches "^18.2 || >=20".toList = ["^18.2 ".toList, " >=20".toList] := by decide
  rw [split, List.forall_mem_cons, List.forall_mem_singleton]
  exact ⟨⟨_, caret, List.forall_mem_singleton.mpr trivial⟩, ⟨_, atLeast, List.forall_mem_singleton.mpr rfl⟩⟩

/-- The test answers before it comes to the branch that it cannot read. -/
theorem not_meansRange_latest : ¬MeansRange ">=18 || latest".toList := by
  intro means
  have unread : nodeVersionInRange ">=18 || latest".toList ⟨16, 0, 0⟩ = .ok none := by decide
  have read : nodeVersionInRange ">=18 || latest".toList ⟨18, 0, 0⟩ = .ok (some true) := by decide
  have again := (means.unknown ⟨18, 0, 0⟩).mpr ((means.unknown ⟨16, 0, 0⟩).mp unread)
  exact absurd (read.symm.trans again) (by simp)

end LocalWebAccess.NodeRanges
