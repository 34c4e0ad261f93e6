import LocalWebAccess.ZipMembers
import Mathlib.Data.List.Infix

/-!
# Which members are stripped

The loop compares single segments at every depth, and what it has put together only from the root. So the table is
followed except for its one rule of two segments.
-/
namespace LocalWebAccess.ZipMembers

variable {name last : List Char} {parts read : List (List Char)}

/-- The rules as segments. -/
def rules : List (List (List Char)) := strippableSegments.map fun rule => rule.toList.splitOn '/'

/-- The segments of a name are those of a path. -/
def IsPath (parts : List (List Char)) : Prop := ∀ part ∈ parts, part ≠ [] ∧ '/' ∉ part

theorem isPath_segments : IsPath (segments name) := by
  intro part among
  obtain ⟨mem, filled⟩ := List.mem_filter.mp among
  exact ⟨of_decide_eq_true filled, PythonText.not_mem_of_mem_splitOn mem⟩

/-- A file that is stripped wherever it is. -/
def IsFile (last : List Char) : Prop := String.ofList last ∈ strippableFiles ∨ "._".toList <+: last

/-- The last segment is stripped as a file. -/
def FileRule (parts : List (List Char)) : Prop := ∃ last ∈ parts.getLast?, IsFile last

/-- Some run of the segments is a rule, or the last one is stripped as a file. -/
def Listed (parts : List (List Char)) : Prop := (∃ rule ∈ rules, rule <:+: parts) ∨ FileRule parts

theorem mem_rules_iff {part : List Char} (plain : '/' ∉ part) :
    [part] ∈ rules ↔ String.ofList part ∈ strippableSegments := by
  unfold rules
  rw [List.mem_map]
  constructor
  · rintro ⟨rule, among, split⟩
    have same : ['/'].intercalate (rule.toList.splitOn '/') = rule.toList := List.intercalate_splitOn '/'
    rw [split, List.intercalate_singleton] at same
    rwa [same, String.ofList_toList]
  · intro among
    exact ⟨_, among, by rw [String.toList_ofList, List.splitOn_eq_singleton plain]⟩

/-- What the loop has put together of the segments that it has read. -/
def joined (read : List (List Char)) : List Char := read.flatMap fun part => part ++ ['/']

theorem intercalate_concat (read : List (List Char)) (last : List Char) :
    ['/'].intercalate (read ++ [last]) = joined read ++ last := by
  induction read with
  | nil => exact List.intercalate_singleton
  | cons part read ih =>
    rw [List.cons_append, List.intercalate_cons_of_ne_nil (by simp), ih]
    simp [joined]

theorem trimmed_joined (path : IsPath (read ++ [last])) :
    (joined (read ++ [last])).rdropWhile (· = '/') = ['/'].intercalate (read ++ [last]) := by
  obtain ⟨filled, plain⟩ := path last (by simp)
  have split : joined (read ++ [last]) = (joined read ++ last) ++ ['/'] := by simp [joined]
  rw [split, intercalate_concat, List.rdropWhile_concat_pos _ _ _ (by simp), List.rdropWhile_eq_self_iff]
  intro nonempty slash
  rw [List.getLast_append_of_ne_nil nonempty filled] at slash
  exact plain (of_decide_eq_true slash ▸ List.getLast_mem filled)

theorem mem_rules_iff_joined (path : IsPath (read ++ [last])) :
    read ++ [last] ∈ rules ↔ String.ofList ((joined (read ++ [last])).rdropWhile (· = '/')) ∈ strippableSegments := by
  rw [trimmed_joined path]
  unfold rules
  rw [List.mem_map]
  constructor
  · rintro ⟨rule, among, split⟩
    rwa [← split, List.intercalate_splitOn, String.ofList_toList]
  · intro among
    refine ⟨_, among, ?_⟩
    rw [String.toList_ofList]
    exact List.splitOn_intercalate '/' (fun part mem => (path part mem).2) (by simp)

/-- The name of a directory is stripped with everything below it. -/
def Directory (found : Option String) : Prop := ∃ rule ∈ strippableSegments, found = some rule

theorem isSome_lastRule (plain : '/' ∉ last) : (lastRule last).isSome ↔ [last] ∈ rules ∨ IsFile last := by
  rw [mem_rules_iff plain]
  unfold lastRule IsFile
  split_ifs <;> simp_all

theorem directory_lastRule (plain : '/' ∉ last) : Directory (lastRule last) ↔ [last] ∈ rules ∨ False := by
  have files : ∀ file ∈ strippableFiles, file ∉ strippableSegments := by decide
  have double : "._*" ∉ strippableSegments := by decide
  rw [mem_rules_iff plain, or_false]
  unfold lastRule Directory
  split_ifs with segment file
  · exact iff_of_true ⟨_, segment, rfl⟩ segment
  · refine iff_of_false ?_ segment
    rintro ⟨rule, among, same⟩
    exact files _ file (Option.some.inj same ▸ among)
  · refine iff_of_false ?_ segment
    rintro ⟨rule, among, same⟩
    exact double (Option.some.inj same ▸ among)
  · refine iff_of_false ?_ segment
    rintro ⟨rule, among, same⟩
    cases same

/-- The proper fronts of a path, from the first segment on. -/
theorem exists_front_cons {P : List (List Char) → Prop} {part next : List Char} {rest : List (List Char)} :
    (∃ front more, part :: next :: rest = front ++ more ∧ front ≠ [] ∧ more ≠ [] ∧ P front) ↔
      P [part] ∨ ∃ front more, next :: rest = front ++ more ∧ front ≠ [] ∧ more ≠ [] ∧ P (part :: front) := by
  constructor
  · rintro ⟨_ | ⟨first, front⟩, more, split, filled, left, holds⟩
    · exact absurd rfl filled
    · obtain ⟨rfl, tail⟩ := List.cons.inj split
      rcases front with _ | ⟨second, front⟩
      · exact Or.inl holds
      · exact Or.inr ⟨_, more, tail, List.cons_ne_nil _ _, left, holds⟩
  · rintro (holds | ⟨front, more, split, _, left, holds⟩)
    · exact ⟨[part], next :: rest, rfl, List.cons_ne_nil _ _, List.cons_ne_nil _ _, holds⟩
    · exact ⟨part :: front, more, by rw [split, List.cons_append], List.cons_ne_nil _ _, left, holds⟩

section

variable {Q : Option String → Prop} {L : List Char → Prop}

theorem stripRuleFrom_cons_iff (directory : ∀ rule ∈ strippableSegments, Q (some rule)) {part next : List Char}
    {rest : List (List Char)} (path : IsPath (read ++ [part])) :
    Q (stripRuleFrom (joined read) (part :: next :: rest)) ↔ [part] ∈ rules ∨ read ++ [part] ∈ rules ∨
      Q (stripRuleFrom (joined (read ++ [part])) (next :: rest)) := by
  have grown : joined (read ++ [part]) = joined read ++ part ++ ['/'] := by simp [joined]
  rw [mem_rules_iff (path part (by simp)).2, mem_rules_iff_joined path, grown, stripRuleFrom]
  · split_ifs <;> simp_all
  · exact nofun

/-- The loop finds the rules of one segment anywhere, and the others only as long as it has read nothing else. -/
theorem stripRuleFrom_iff (missing : ¬Q none) (directory : ∀ rule ∈ strippableSegments, Q (some rule))
    (final : ∀ last, '/' ∉ last → (Q (lastRule last) ↔ [last] ∈ rules ∨ L last)) (path : IsPath (read ++ parts)) :
    Q (stripRuleFrom (joined read) parts) ↔ (∃ part ∈ parts, [part] ∈ rules) ∨
      (∃ front more, parts = front ++ more ∧ front ≠ [] ∧ more ≠ [] ∧ read ++ front ∈ rules) ∨
        ∃ last ∈ parts.getLast?, L last := by
  induction parts generalizing read with
  | nil => simpa [stripRuleFrom] using missing
  | cons part rest ih =>
    cases rest with
    | nil =>
      have whole : ¬∃ front more, [part] = front ++ more ∧ front ≠ [] ∧ more ≠ [] ∧ read ++ front ∈ rules := by
        rintro ⟨_ | ⟨first, front⟩, more, split, filled, left, _⟩
        · exact filled rfl
        · exact left (List.append_eq_nil_iff.mp (List.cons.inj split).2.symm).2
      rw [stripRuleFrom, final part (path part (by simp)).2]
      simp [whole]
    | cons next rest =>
      have path' : IsPath (read ++ [part] ++ (next :: rest)) := by simpa using path
      have sameLast : (∃ last ∈ (part :: next :: rest).getLast?, L last) ↔
          ∃ last ∈ (next :: rest).getLast?, L last := by
        simp
      have anywhere : (∃ p ∈ part :: next :: rest, [p] ∈ rules) ↔ [part] ∈ rules ∨ ∃ p ∈ next :: rest, [p] ∈ rules :=
        List.exists_mem_cons_iff _ _ _
      rw [stripRuleFrom_cons_iff directory fun part mem => path' part (List.mem_append_left _ mem), ih path',
        exists_front_cons, sameLast, anywhere]
      simp only [List.append_assoc, List.singleton_append, or_assoc]
      exact or_congr_right or_left_comm

end

/-! ## The rule of two segments -/

/-- The only rule that is not a single segment. -/
def pair : List (List Char) := ["build".toList, "dependencies".toList]

theorem rules_cases {rule : List (List Char)} (among : rule ∈ rules) : (∃ part, rule = [part]) ∨ rule = pair := by
  have lengths : ∀ rule ∈ rules, rule.length = 1 ∨ rule = pair := by decide +kernel
  rcases lengths rule among with single | two
  · exact Or.inl (List.length_eq_one_iff.mp single)
  · exact Or.inr two

theorem pair_mem_rules : pair ∈ rules := by decide +kernel

/-- A rule of one segment applies. -/
def Single (parts : List (List Char)) : Prop := ∃ part ∈ parts, [part] ∈ rules

/-- The pair is at the root, and not all of the path. -/
def Rooted (parts : List (List Char)) : Prop := ∃ rest, parts = pair ++ rest ∧ rest ≠ []

theorem listed_iff : Listed parts ↔ Single parts ∨ pair <:+: parts ∨ FileRule parts := by
  have runs : (∃ rule ∈ rules, rule <:+: parts) ↔ Single parts ∨ pair <:+: parts := by
    constructor
    · rintro ⟨rule, among, run⟩
      rcases rules_cases among with ⟨part, rfl⟩ | rfl
      · exact Or.inl ⟨part, run.subset (List.mem_singleton_self _), among⟩
      · exact Or.inr run
    · rintro (⟨part, mem, among⟩ | run)
      · exact ⟨[part], among, (List.singleton_infix_iff _ _).mpr mem⟩
      · exact ⟨pair, pair_mem_rules, run⟩
  rw [Listed, runs, or_assoc]

/-- The fronts that are rules. -/
theorem exists_front_iff : Single parts ∨ (∃ front more, parts = front ++ more ∧ front ≠ [] ∧ more ≠ [] ∧
    [] ++ front ∈ rules) ↔ Single parts ∨ Rooted parts := by
  constructor
  · rintro (single | ⟨front, more, split, _, left, among⟩)
    · exact Or.inl single
    · rw [List.nil_append] at among
      rcases rules_cases among with ⟨part, rfl⟩ | rfl
      · exact Or.inl ⟨part, by simp [split], among⟩
      · exact Or.inr ⟨more, split, left⟩
  · rintro (single | ⟨rest, split, left⟩)
    · exact Or.inl single
    · exact Or.inr ⟨pair, rest, split, List.cons_ne_nil _ _, left, pair_mem_rules⟩

theorem isSome_stripRuleFor :
    (stripRuleFor name).isSome ↔ (Single (segments name) ∨ Rooted (segments name)) ∨ FileRule (segments name) := by
  have path : IsPath ([] ++ segments name) := isPath_segments
  rw [← exists_front_iff, or_assoc]
  exact stripRuleFrom_iff (Q := fun found => found.isSome) (by simp) (fun _ _ => rfl) (fun last => isSome_lastRule) path

theorem directory_stripRuleFor :
    Directory (stripRuleFor name) ↔ Single (segments name) ∨ Rooted (segments name) := by
  have path : IsPath ([] ++ segments name) := isPath_segments
  have found := stripRuleFrom_iff (Q := Directory) (by rintro ⟨_, _, same⟩; cases same)
    (fun rule among => ⟨rule, among, rfl⟩) (fun last => directory_lastRule) path
  rw [← exists_front_iff]
  refine found.trans ?_
  simp [Single]

/-! ## Whole zips -/

theorem mem_keepIndices_addAll {modes : List ℕ} {result : ZipSanitizeResult} {idx i : ℕ} {names : List (List Char)} :
    i ∈ (result.addAll modes idx names).keepIndices ↔
      i ∈ result.keepIndices ∨ ∃ j name, names[j]? = some name ∧ i = idx + j ∧ stripRuleFor name = none := by
  induction names generalizing result idx with
  | nil => simp [ZipSanitizeResult.addAll]
  | cons first names ih =>
    have here : i ∈ (result.add idx first modes[idx]?).keepIndices ↔
        i ∈ result.keepIndices ∨ i = idx ∧ stripRuleFor first = none := by
      unfold ZipSanitizeResult.add
      cases stripRuleFor first <;> simp
    rw [ZipSanitizeResult.addAll, ih, here, or_assoc]
    refine or_congr_right ⟨?_, ?_⟩
    · rintro (⟨rfl, kept⟩ | ⟨j, name, there, rfl, kept⟩)
      · exact ⟨0, first, rfl, rfl, kept⟩
      · exact ⟨j + 1, name, there, by omega, kept⟩
    · rintro ⟨_ | j, name, there, rfl, kept⟩
      · exact Or.inl ⟨rfl, Option.some.inj there ▸ kept⟩
      · exact Or.inr ⟨j, name, there, by omega, kept⟩

/-- The member at an index is not extracted. -/
def Stripped (names : List (List Char)) (modes : List ℕ) (i : ℕ) : Prop :=
  i ∉ (sanitizeZipMembers names modes).keepIndices

instance {names : List (List Char)} {modes : List ℕ} {i : ℕ} : Decidable (Stripped names modes i) :=
  inferInstanceAs (Decidable (i ∉ (sanitizeZipMembers names modes).keepIndices))

theorem stripped_iff {names : List (List Char)} {modes : List ℕ} {i : ℕ} (there : names[i]? = some name) :
    Stripped names modes i ↔ (stripRuleFor name).isSome := by
  unfold Stripped sanitizeZipMembers
  rw [mem_keepIndices_addAll, Option.isSome_iff_ne_none, not_iff_not]
  constructor
  · rintro (kept | ⟨j, other, there', rfl, kept⟩)
    · cases kept
    · rw [Nat.zero_add, there'] at there
      exact Option.some.inj there ▸ kept
  · intro kept
    exact Or.inr ⟨i, name, there, (Nat.zero_add i).symm, kept⟩

/-- The name in a directory around all of the zip. -/
def wrapped (wrapper name : List Char) : List Char := wrapper ++ '/' :: name

theorem segments_wrapped (wrapper name : List Char) :
    segments (wrapped wrapper name) = segments wrapper ++ segments name := by
  have split : slashed (wrapped wrapper name) = slashed wrapper ++ '/' :: slashed name := by simp [slashed, wrapped]
  rw [segments, split, List.splitOn_append_cons_self, List.filter_append, segments, segments]

/-- A member is stripped by the table: alone, below a directory that is stripped, and within a directory around all
of the zip that brings no rule of its own. -/
structure Closed (names : List (List Char)) (modes : List ℕ) (i : Fin names.length) : Prop where
  table : Stripped names modes i ↔ Listed (segments (names.get i))
  below : ∀ d, Directory (stripRuleFor d) → segments d <+: segments (names.get i) → Stripped names modes i
  around : ∀ wrapper, (Listed (segments (wrapped wrapper (names.get i))) ↔ Listed (segments (names.get i))) →
    (Stripped (names.map (wrapped wrapper)) modes i ↔ Stripped names modes i)

theorem Single.mono (sub : read ⊆ parts) (single : Single read) : Single parts := by
  obtain ⟨part, mem, among⟩ := single
  exact ⟨part, sub mem, among⟩

theorem Rooted.mono (front : read <+: parts) (rooted : Rooted read) : Rooted parts := by
  obtain ⟨more, rfl⟩ := front
  obtain ⟨rest, rfl, left⟩ := rooted
  exact ⟨rest ++ more, List.append_assoc _ _ _, by simp [left]⟩

theorem FileRule.append (file : FileRule parts) : FileRule (read ++ parts) := by
  obtain ⟨last, there, isFile⟩ := file
  exact ⟨last, List.mem_getLast?_append_of_mem_getLast? there, isFile⟩

theorem Rooted.run (rooted : Rooted parts) : pair <:+: parts := by
  obtain ⟨rest, rfl, _⟩ := rooted
  exact (List.prefix_append _ _).isInfix

/-- Whoever strips a name strips it by the table. -/
theorem listed_of_isSome (stripped : (stripRuleFor name).isSome) : Listed (segments name) := by
  rw [listed_iff]
  rcases isSome_stripRuleFor.mp stripped with (single | rooted) | file
  · exact Or.inl single
  · exact Or.inr (Or.inl rooted.run)
  · exact Or.inr (Or.inr file)

/-- No other rule applies below a new root. -/
theorem not_isSome_wrapped {part : List Char} {wrapper : List Char} (one : segments wrapper = [part])
    (plain : [part] ∉ rules) (other : part ≠ "build".toList) (filled : segments name ≠ [])
    (single : ¬Single (segments name)) (file : ¬FileRule (segments name)) :
    ¬(stripRuleFor (wrapped wrapper name)).isSome := by
  rw [isSome_stripRuleFor, segments_wrapped, one]
  rintro ((⟨p, mem, among⟩ | ⟨rest, split, _⟩) | ⟨last, there, isFile⟩)
  · rcases List.mem_cons.mp mem with rfl | mem
    · exact plain among
    · exact single ⟨p, mem, among⟩
  · exact other (List.cons.inj split).1
  · refine file ⟨last, ?_, isFile⟩
    rwa [List.getLast?_append_of_ne_nil _ filled] at there

/-- The table is followed exactly where no `build/dependencies` needs its rule of two segments. -/
theorem closed_iff (names : List (List Char)) (modes : List ℕ) (i : Fin names.length) : Closed names modes i ↔
    (pair <:+: segments (names.get i) → Single (segments (names.get i)) ∨ FileRule (segments (names.get i))) := by
  have there : names[(i : ℕ)]? = some (names.get i) := List.getElem?_eq_getElem i.2
  have wrap : ∀ wrapper, (names.map (wrapped wrapper))[(i : ℕ)]? = some (wrapped wrapper (names.get i)) := by
    intro wrapper
    rw [List.getElem?_map, there, Option.map_some]
  constructor
  · intro closed run
    by_contra others
    obtain ⟨single, file⟩ := not_or.mp others
    have listed : Listed (segments (names.get i)) := listed_iff.mpr (Or.inr (Or.inl run))
    have filled : segments (names.get i) ≠ [] := by
      intro empty
      rw [empty, List.infix_nil] at run
      cases run
    -- the wrapper takes `build` away from the root
    have around : Listed (segments (wrapped "app".toList (names.get i))) := by
      rw [listed_iff, segments_wrapped]
      exact Or.inr (Or.inl (run.trans (List.suffix_append _ _).isInfix))
    have still := (closed.around "app".toList (iff_of_true around listed)).mpr (closed.table.mpr listed)
    rw [stripped_iff (wrap _)] at still
    have one : segments "app".toList = ["app".toList] := by decide +kernel
    exact not_isSome_wrapped one (by decide +kernel) (by decide +kernel) filled single file still
  · intro others
    have stripped_of : Single (segments (names.get i)) ∨ FileRule (segments (names.get i)) →
        Stripped names modes i := by
      rw [stripped_iff there, isSome_stripRuleFor]
      rintro (single | file)
      · exact Or.inl (Or.inl single)
      · exact Or.inr file
    have table : Stripped names modes i ↔ Listed (segments (names.get i)) := by
      refine ⟨fun stripped => listed_of_isSome ((stripped_iff there).mp stripped), fun listed => ?_⟩
      rcases listed_iff.mp listed with single | run | file
      · exact stripped_of (Or.inl single)
      · exact stripped_of (others run)
      · exact stripped_of (Or.inr file)
    refine ⟨table, fun d directory front => ?_, fun wrapper neutral => ?_⟩
    · rcases directory_stripRuleFor.mp directory with single | rooted
      · exact stripped_of (Or.inl (single.mono front.subset))
      · exact stripped_of (others (rooted.mono front).run)
    · rw [stripped_iff (wrap wrapper)]
      refine ⟨fun found => table.mpr (neutral.mp (listed_of_isSome found)), fun stripped => ?_⟩
      have applies : Single (segments (names.get i)) ∨ FileRule (segments (names.get i)) := by
        rcases isSome_stripRuleFor.mp ((stripped_iff there).mp stripped) with (single | rooted) | file
        · exact Or.inl single
        · exact others rooted.run
        · exact Or.inr file
      rw [isSome_stripRuleFor, segments_wrapped]
      rcases applies with single | file
      · exact Or.inl (Or.inl (single.mono (List.subset_append_right _ _)))
      · exact Or.inr file.append

/-- Below another directory the rule of two segments is not found. -/
theorem nested_dependencies_kept : ¬Closed ["app/build/dependencies/lib.js".toList] [] 0 := by
  intro closed
  have listed : Listed (segments "app/build/dependencies/lib.js".toList) :=
    Or.inl ⟨pair, pair_mem_rules, ["app".toList], ["lib.js".toList], by decide⟩
  exact absurd (closed.table.mpr listed) (by decide +kernel)

end LocalWebAccess.ZipMembers
