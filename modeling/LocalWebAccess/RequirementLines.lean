import LocalWebAccess.PythonText

/-!
# Requirement lines

Three readers take the name of a package from a line of `requirements.txt`: the scanner, the evidence
collector and the Dockerfile template. They cut the line at different characters.
-/
namespace LocalWebAccess.RequirementLines

open PythonText

/-! ## Characters -/

theorem toNat_toLower (c : Char) :
    c.toLower.toNat = if 65 ≤ c.toNat ∧ c.toNat ≤ 90 then c.toNat + 32 else c.toNat := by
  unfold Char.toLower
  split_ifs with upper range range
  · have sum : (c.val + ('a'.val - 'A'.val)).toNat = (c.toNat + 32) % 2 ^ 32 := UInt32.toNat_add _ _
    exact sum.trans (by omega)
  · exact absurd (by simpa [UInt32.le_iff_toNat_le] using upper) range
  · exact absurd (by simpa [UInt32.le_iff_toNat_le] using range) upper
  · rfl

theorem toLower_toLower (c : Char) : c.toLower.toLower = c.toLower := by
  apply Char.toNat_inj.mp
  rw [toNat_toLower c.toLower, if_neg]
  rw [toNat_toLower]
  split_ifs <;> omega

theorem isAlphanum_iff (c : Char) : c.isAlphanum = true ↔
    48 ≤ c.toNat ∧ c.toNat ≤ 57 ∨ 65 ≤ c.toNat ∧ c.toNat ≤ 90 ∨ 97 ≤ c.toNat ∧ c.toNat ≤ 122 := by
  have ranges : c.isAlphanum = (decide (c.val ≥ 'A'.val ∧ c.val ≤ 'Z'.val) ||
      (decide (c.val ≥ 'a'.val) && decide (c.val ≤ 'z'.val)) || decide (c.val ≥ '0'.val) && decide (c.val ≤ '9'.val)) :=
    rfl
  simp only [ranges, Bool.or_eq_true, Bool.and_eq_true, decide_eq_true_eq, ge_iff_le, UInt32.le_iff_toNat_le,
    Char.isValue, Char.reduceVal, UInt32.reduceToNat, Char.toNat_val]
  omega

theorem isSpace_of_isAlphanum {c : Char} (inked : c.isAlphanum = true) : isSpace c = false := by
  rw [isAlphanum_iff] at inked
  simp only [isSpace, List.mem_cons, List.not_mem_nil, or_false, Bool.or_eq_false_iff, decide_eq_false_iff_not,
    Bool.and_eq_false_iff]
  omega

theorem lowerChar_of_lt {c : Char} (ascii : c.toNat < 128) : lowerChar c = [c.toLower] := by
  rw [lowerChar, if_neg (by omega), if_neg (by omega)]

theorem lower_append (a b : List Char) : lower (a ++ b) = lower a ++ lower b := List.flatMap_append

theorem lower_ne_nil {text : List Char} (filled : text ≠ []) : lower text ≠ [] := by
  obtain ⟨c, rest, rfl⟩ := List.exists_cons_of_ne_nil filled
  have first : lowerChar c ≠ [] := by
    unfold lowerChar
    split_ifs <;> exact List.cons_ne_nil _ _
  simp [lower, first]

/-! ## Names -/

/-- The characters that PEP 503 takes for one another. -/
def isJoint (c : Char) : Bool := c ∈ ['-', '_', '.']

/-- The rest of `re.sub(r"[-_.]+", "-", name)`, after a joint or not. -/
def collapseFrom : Bool → List Char → List Char
  | _, [] => []
  | joined, c :: name =>
    if isJoint c then
      if joined then collapseFrom true name else '-' :: collapseFrom true name
    else c :: collapseFrom false name

def collapse (name : List Char) : List Char := collapseFrom false name

/-- The PEP 503 normalization of a name. -/
def canonical (name : List Char) : List Char := collapse (lower name)

theorem collapseFrom_append {a : List Char} (ends : ∀ c ∈ a.getLast?, isJoint c = false) (filled : a ≠ [])
    (joined : Bool) (b : List Char) :
    collapseFrom joined (a ++ b) = collapseFrom joined a ++ collapseFrom false b := by
  induction a generalizing joined with
  | nil => exact absurd rfl filled
  | cons c a ih =>
    rcases List.eq_nil_or_concat a with rfl | ⟨front, last, rfl⟩
    · have plain : isJoint c = false := ends c rfl
      simp [collapseFrom, plain]
    · have later := ih (fun d last => ends d (by simpa [List.getLast?_cons] using last)) (by simp)
      rw [List.cons_append, collapseFrom, collapseFrom]
      split_ifs
      · exact later true
      · rw [later true, List.cons_append]
      · rw [later false, List.cons_append]

theorem collapse_ne_nil {name : List Char} (filled : name ≠ []) : collapse name ≠ [] := by
  obtain ⟨c, rest, rfl⟩ := List.exists_cons_of_ne_nil filled
  rw [collapse, collapseFrom, if_neg Bool.false_ne_true]
  split_ifs <;> exact List.cons_ne_nil _ _

theorem collapseFrom_of_plain {name : List Char} (plain : ∀ c ∈ name, isJoint c = false) (joined : Bool) :
    collapseFrom joined name = name := by
  induction name generalizing joined with
  | nil => rfl
  | cons c name ih =>
    rw [collapseFrom, if_neg (by simp [plain c List.mem_cons_self]),
      ih (fun d mem => plain d (List.mem_cons_of_mem c mem))]

theorem plain_of_collapseFrom {name : List Char} (joined : Bool) (none : '-' ∉ collapseFrom joined name)
    (start : joined = true → ∀ c ∈ name.head?, isJoint c = false) : ∀ c ∈ name, isJoint c = false := by
  induction name generalizing joined with
  | nil => simp
  | cons c name ih =>
    rw [collapseFrom] at none
    cases joint : isJoint c with
    | true =>
      cases joined with
      | true => exact absurd joint (by simp [start rfl c rfl])
      | false => simp [joint] at none
    | false =>
      rw [if_neg (by simp [joint])] at none
      exact List.forall_mem_cons.mpr ⟨joint, ih false (fun mem => none (List.mem_cons_of_mem _ mem)) nofun⟩

/-- A name without joints is its own normal form, and nobody else's. -/
theorem collapse_eq_iff {package : List Char} (plain : ∀ c ∈ package, isJoint c = false) (name : List Char) :
    collapse name = package ↔ name = package := by
  constructor
  · intro same
    have none : '-' ∉ collapse name := fun mem => absurd (plain '-' (same ▸ mem)) (by decide)
    rw [← same]
    exact (collapseFrom_of_plain (plain_of_collapseFrom false none nofun) false).symm
  · rintro rfl
    exact collapseFrom_of_plain plain false

theorem mem_collapseFrom {name : List Char} {joined : Bool} {c : Char} (mem : c ∈ collapseFrom joined name) :
    c = '-' ∨ c ∈ name := by
  induction name generalizing joined with
  | nil => cases mem
  | cons d name ih =>
    rw [collapseFrom] at mem
    split_ifs at mem
    · exact (ih mem).imp_right (List.mem_cons_of_mem d)
    · rcases List.mem_cons.mp mem with rfl | mem
      · exact Or.inl rfl
      · exact (ih mem).imp_right (List.mem_cons_of_mem d)
    · rcases List.mem_cons.mp mem with rfl | mem
      · exact Or.inr List.mem_cons_self
      · exact (ih mem).imp_right (List.mem_cons_of_mem d)

/-! ## The readers -/

/-- Blank lines, comments and options. -/
def isSkipped (line : List Char) : Bool := line = [] || ['#'].isPrefixOf line || ['-'].isPrefixOf line

/-- `re.split(…, line, maxsplit=1)[0].strip().lower()`, for a class of separators. -/
def firstToken (isSeparator : Char → Bool) (line : List Char) : List Char :=
  lower (strip (line.takeWhile fun c => !isSeparator c))

/-- The class `[<>=!\[ ]`. -/
def isVersionSeparator (c : Char) : Bool := c ∈ ['<', '>', '=', '!', '[', ' ']

/-- The class `[\[<>=!~\[\] ]`. -/
def isPackageSeparator (c : Char) : Bool := c ∈ ['[', '<', '>', '=', '!', '~', ']', ' ']

/-- The body of the loop over the lines, for the readers that do not look at markers. -/
def readName (line : List Char) : Option (List Char) :=
  if isSkipped (strip line) then none
  else if firstToken isVersionSeparator (strip line) = [] then none
  else some (firstToken isVersionSeparator (strip line))

/-- `_read_requirements` of the scanner. -/
def readRequirements (text : List Char) : List (List Char) := (splitlines text).filterMap readName

/-- The requirements part of the evidence collector's `_collect_python_deps`. -/
def collectPythonDeps (text : List Char) : List (List Char) := (splitlines text).filterMap readName

/-- `line[:line.find(sep)].strip()`, where there is one. -/
def cutAt (sep : Char) (line : List Char) : List Char :=
  if sep ∈ line then strip (line.takeWhile (· ≠ sep)) else line

def urlStarts : List (List Char) :=
  ["http://".toList, "https://".toList, "git+".toList, "file:".toList]

def packageOf (line : List Char) : Option (List Char) :=
  if line = [] then none
  else
    let pkg := collapse (firstToken isPackageSeparator line)
    if pkg = [] || urlStarts.any (·.isPrefixOf pkg) then none else some pkg

def parsePackage (line : List Char) : Option (List Char) :=
  if isSkipped (strip line) then none else packageOf (cutAt '#' (cutAt ';' (strip line)))

/-- `_parse_requirements_packages` of the Dockerfile template. -/
def parseRequirementsPackages (text : List Char) : List (List Char) := (splitlines text).filterMap parsePackage

/-! ## The lines of a requirements file -/

/-- A name of PEP 508: letters, digits and joints, no joint at an end. -/
structure IsName (name : List Char) : Prop where
  filled : name ≠ []
  chars : ∀ c ∈ name, c.isAlphanum = true ∨ isJoint c = true
  head : ∀ c ∈ name.head?, c.isAlphanum = true
  last : ∀ c ∈ name.getLast?, c.isAlphanum = true

/-- What may follow the name: blanks, and then nothing, extras, a version clause, a URL, a marker, or a
comment that a blank sets off. -/
def Follows (rest : List Char) : Prop :=
  ∃ gap tail, rest = gap ++ tail ∧ (∀ c ∈ gap, c = ' ' ∨ c = '\t') ∧
    ∀ c ∈ tail.head?, c ∈ ['[', '(', '<', '>', '=', '!', '~', '@', ';'] ∨ c = '#' ∧ gap ≠ []

/-- A requirement for `name`. -/
structure Requires (line name rest : List Char) : Prop where
  line : strip line = name ++ rest
  name : IsName name
  rest : Follows rest

/-- A bare URL: a scheme and a colon. -/
def IsUrl (line : List Char) : Prop :=
  ∃ scheme rest, strip line = scheme ++ ':' :: rest ∧ (∀ c ∈ scheme.head?, c.isAlphanum = true) ∧ scheme ≠ [] ∧
    ∀ c ∈ scheme, c.isAlphanum = true ∨ c ∈ ['+', '-', '.']

/-- The lines of a requirements file. -/
def IsRequirementsLine (line : List Char) : Prop :=
  isSkipped (strip line) = true ∨ IsUrl line ∨ ∃ name rest, Requires line name rest

/-! ## What the readers take -/

variable {name rest line : List Char}

theorem IsName.ascii (isName : IsName name) : ∀ c ∈ name, c.toNat < 128 := by
  intro c mem
  rcases isName.chars c mem with inked | joint
  · rw [isAlphanum_iff] at inked
    omega
  · simp only [isJoint, List.mem_cons, List.not_mem_nil, or_false, decide_eq_true_eq] at joint
    rcases joint with rfl | rfl | rfl <;> decide

theorem lower_of_ascii {text : List Char} (ascii : ∀ c ∈ text, c.toNat < 128) :
    lower text = text.map Char.toLower := by
  induction text with
  | nil => rfl
  | cons c text ih =>
    rw [lower, List.flatMap_cons, lowerChar_of_lt (ascii c List.mem_cons_self), List.map_cons]
    exact congrArg (c.toLower :: ·) (ih fun d mem => ascii d (List.mem_cons_of_mem c mem))

theorem lower_lower {text : List Char} (ascii : ∀ c ∈ text, c.toNat < 128) : lower (lower text) = lower text := by
  have lowered : ∀ c ∈ text.map Char.toLower, c.toNat < 128 := by
    intro c mem
    obtain ⟨d, among, rfl⟩ := List.mem_map.mp mem
    have bound := ascii d among
    rw [toNat_toLower]
    split_ifs <;> omega
  rw [lower_of_ascii ascii, lower_of_ascii lowered, List.map_map]
  exact List.map_congr_left fun c _ => toLower_toLower c

theorem isJoint_iff (c : Char) : isJoint c = true ↔ c.toNat = 45 ∨ c.toNat = 95 ∨ c.toNat = 46 := by
  simp only [isJoint, List.mem_cons, List.not_mem_nil, or_false, decide_eq_true_eq, ← Char.toNat_inj]
  exact Iff.rfl

theorem IsName.last_lower (isName : IsName name) : ∀ c ∈ (lower name).getLast?, isJoint c = false := by
  intro c last
  rw [lower_of_ascii isName.ascii, List.getLast?_map] at last
  obtain ⟨d, final, rfl⟩ := Option.map_eq_some_iff.mp last
  have inked := isName.last d final
  rw [isAlphanum_iff] at inked
  rw [Bool.eq_false_iff, Ne, isJoint_iff, toNat_toLower]
  split_ifs <;> omega

/-- Whatever is left behind the name changes it. -/
theorem collapse_append_iff (isName : IsName name) (more : List Char) :
    collapse (lower name ++ more) = canonical name ↔ more = [] := by
  constructor
  · intro same
    by_contra filled
    have split : collapse (lower name ++ more) = canonical name ++ collapse more :=
      collapseFrom_append isName.last_lower (lower_ne_nil isName.filled) false _
    rw [split] at same
    exact collapse_ne_nil filled (List.append_right_eq_self.mp same)
  · rintro rfl
    rw [List.append_nil]
    rfl

theorem canonical_lower_append_iff (isName : IsName name) (more : List Char) :
    canonical (lower (name ++ more)) = canonical name ↔ more = [] := by
  rw [lower_append, canonical, lower_append, lower_lower isName.ascii, collapse_append_iff isName]
  constructor
  · intro none
    by_contra filled
    exact lower_ne_nil (lower_ne_nil filled) none
  · rintro rfl
    rfl

theorem IsName.strip_append (isName : IsName name) (rest : List Char) :
    strip (name ++ rest) = name ++ rstrip rest := by
  obtain ⟨c, tail, rfl⟩ := List.exists_cons_of_ne_nil isName.filled
  have start : strip ((c :: tail) ++ rest) = rstrip ((c :: tail) ++ rest) :=
    strip_cons (isSpace_of_isAlphanum (isName.head c rfl)) _
  rcases List.eq_nil_or_concat (c :: tail) with none | ⟨front, last, split⟩
  · cases none
  · have inked : isSpace last = false := isSpace_of_isAlphanum (isName.last last (by simp [split]))
    rw [start, split, List.concat_eq_append, List.append_assoc, List.singleton_append, rstrip_append inked,
      List.append_assoc, List.singleton_append]

theorem rstrip_eq_nil_iff {text : List Char} : rstrip text = [] ↔ ∀ c ∈ text, isSpace c = true := by
  rw [rstrip, List.rdropWhile_eq_nil_iff]

/-- A class of separators without the characters of a name. -/
def Spares (isSeparator : Char → Bool) : Prop :=
  ∀ c, c.isAlphanum = true ∨ isJoint c = true → isSeparator c = false

theorem firstToken_append {isSeparator : Char → Bool} (spares : Spares isSeparator) (isName : IsName name)
    (rest : List Char) :
    firstToken isSeparator (name ++ rest) = lower (name ++ rstrip (rest.takeWhile fun c => !isSeparator c)) := by
  have whole : ∀ c ∈ name, (!isSeparator c) = true := fun c mem => by simp [spares c (isName.chars c mem)]
  rw [firstToken, List.takeWhile_append_of_pos whole, isName.strip_append]

theorem spares_of_list {separators : List Char}
    (apart : ∀ c ∈ separators, c.isAlphanum = false ∧ isJoint c = false) :
    Spares fun c => decide (c ∈ separators) := by
  intro c named
  rw [decide_eq_false_iff_not]
  intro among
  exact named.elim (by simp [(apart c among).1]) (by simp [(apart c among).2])

theorem spares_isVersionSeparator : Spares isVersionSeparator := spares_of_list (by decide)

theorem spares_isPackageSeparator : Spares isPackageSeparator := spares_of_list (by decide)

theorem isSkipped_append (isName : IsName name) (rest : List Char) : isSkipped (name ++ rest) = false := by
  obtain ⟨c, tail, rfl⟩ := List.exists_cons_of_ne_nil isName.filled
  have inked := isName.head c rfl
  have hash : c ≠ '#' := by
    rintro rfl
    exact absurd inked (by decide)
  have dash : c ≠ '-' := by
    rintro rfl
    exact absurd inked (by decide)
  simp [isSkipped, List.isPrefixOf, hash.symm, dash.symm]

/-- The two readers that share their body take the name and all that comes before the next separator. -/
theorem readName_eq (isName : IsName name) (split : strip line = name ++ rest) :
    readName line = some (lower (name ++ rstrip (rest.takeWhile fun c => !isVersionSeparator c))) := by
  have token := firstToken_append spares_isVersionSeparator isName rest
  have filled : name ++ rstrip (rest.takeWhile fun c => !isVersionSeparator c) ≠ [] :=
    List.append_ne_nil_of_left_ne_nil isName.filled _
  rw [readName, split, isSkipped_append isName, if_neg Bool.false_ne_true, token, if_neg (lower_ne_nil filled)]

/-- What the Dockerfile's reader keeps of a line. -/
theorem cutAt_append (sep : Char) (apart : sep.isAlphanum = false ∧ isJoint sep = false) (isName : IsName name)
    (stripped : rstrip rest = rest) : cutAt sep (name ++ rest) = name ++ rstrip (rest.takeWhile (· ≠ sep)) := by
  have spared : ∀ c ∈ name, c ≠ sep := by
    rintro c mem rfl
    exact (isName.chars c mem).elim (by simp [apart.1]) (by simp [apart.2])
  rw [cutAt, List.takeWhile_append_of_pos (by simpa using spared), isName.strip_append]
  split_ifs with among
  · rfl
  · have whole : rest.takeWhile (· ≠ sep) = rest := by
      rw [List.takeWhile_eq_self_iff]
      intro c mem
      have other : c ≠ sep := by
        rintro rfl
        exact among (List.mem_append_right name mem)
      simpa using other
    rw [whole, stripped]

theorem isInitial_takeWhile {p : Char → Bool} {part text : List Char} (initial : part <+: text)
    (all : ∀ c ∈ part, p c = true) : part <+: text.takeWhile p := by
  obtain ⟨tail, rfl⟩ := initial
  rw [List.takeWhile_append_of_pos all]
  exact List.prefix_append part _

theorem canonical_chars (isName : IsName name) : ':' ∉ canonical name ∧ '+' ∉ canonical name := by
  have each : ∀ c ∈ canonical name, c.toNat ≠ 58 ∧ c.toNat ≠ 43 := by
    intro c mem
    rcases mem_collapseFrom mem with rfl | mem
    · decide
    · rw [lower_of_ascii isName.ascii] at mem
      obtain ⟨d, among, rfl⟩ := List.mem_map.mp mem
      have named := isName.chars d among
      rw [isAlphanum_iff, isJoint_iff] at named
      rw [toNat_toLower]
      split_ifs <;> omega
  exact ⟨fun mem => (each _ mem).1 rfl, fun mem => (each _ mem).2 rfl⟩

theorem no_urlStart (isName : IsName name) : urlStarts.any (·.isPrefixOf (canonical name)) = false := by
  obtain ⟨colon, plus⟩ := canonical_chars isName
  rw [List.any_eq_false]
  intro start among initial
  have whole : start <+: canonical name := List.isPrefixOf_iff_prefix.mp initial
  have marked : ∀ start ∈ urlStarts, ':' ∈ start ∨ '+' ∈ start := by decide
  exact (marked start among).elim (fun mem => colon (whole.subset mem)) fun mem => plus (whole.subset mem)

/-! ## The lines that are read alike -/

/-- Up to the next separator of the scanner nothing but blanks follows a name, and no line is a bare URL. -/
def Separated (line : List Char) : Prop :=
  ¬ IsUrl line ∧ ∀ name rest, Requires line name rest →
    ∀ c ∈ rest.takeWhile fun c => !isVersionSeparator c, isSpace c = true

/-- The readers take the name of a requirement, and nothing from another line. -/
structure ReadRight (line : List Char) : Prop where
  required : ∀ name rest, Requires line name rest →
    (readName line).map canonical = some (canonical name) ∧ parsePackage line = some (canonical name)
  other : (¬ ∃ name rest, Requires line name rest) → readName line = none ∧ parsePackage line = none

theorem Requires.stripped (requires : Requires line name rest) : rstrip rest = rest := by
  have whole : rstrip (strip line) = strip line := rstrip_strip line
  exact rstrip_of_suffix ⟨name, requires.line.symm⟩ whole

theorem isPackageSeparator_of_version {c : Char} (separates : isVersionSeparator c = true) :
    isPackageSeparator c = true := by
  have among : c ∈ ['<', '>', '=', '!', '[', ' '] := of_decide_eq_true separates
  have wider : ['<', '>', '=', '!', '[', ' '] ⊆ ['[', '<', '>', '=', '!', '~', ']', ' '] := by decide
  exact decide_eq_true (wider among)

theorem parsePackage_eq (requires : Requires line name rest)
    (separated : ∀ c ∈ rest.takeWhile fun c => !isVersionSeparator c, isSpace c = true) :
    parsePackage line = some (canonical name) := by
  have isName := requires.name
  have semicolon := cutAt_append ';' (by decide) isName requires.stripped
  have hash := cutAt_append '#' (by decide) isName (rstrip_rstrip (rest.takeWhile (· ≠ ';')))
  have kept : rstrip ((rstrip (rest.takeWhile (· ≠ ';'))).takeWhile (· ≠ '#')) <+: rest :=
    (rstrip_isInitial _).trans ((List.takeWhile_prefix _).trans
      ((rstrip_isInitial _).trans (List.takeWhile_prefix _)))
  generalize rstrip ((rstrip (rest.takeWhile (· ≠ ';'))).takeWhile (· ≠ '#')) = left at hash kept
  have blank : rstrip (left.takeWhile fun c => !isPackageSeparator c) = [] := by
    rw [rstrip_eq_nil_iff]
    have initial : (left.takeWhile fun c => !isPackageSeparator c) <+:
        rest.takeWhile fun c => !isVersionSeparator c := by
      refine isInitial_takeWhile ((List.takeWhile_prefix _).trans kept) fun c mem => ?_
      have other : isPackageSeparator c = false := by simpa using List.mem_takeWhile_imp mem
      cases separates : isVersionSeparator c with
      | false => rfl
      | true => exact absurd (isPackageSeparator_of_version separates) (by simp [other])
    exact fun c mem => separated c (initial.subset mem)
  have token : firstToken isPackageSeparator (name ++ left) = lower name := by
    rw [firstToken_append spares_isPackageSeparator isName, blank, List.append_nil]
  have filled : canonical name ≠ [] := collapse_ne_nil (lower_ne_nil isName.filled)
  rw [parsePackage, requires.line, isSkipped_append isName, if_neg Bool.false_ne_true, semicolon, hash, packageOf,
    if_neg (List.append_ne_nil_of_left_ne_nil isName.filled _), token]
  have start := no_urlStart isName
  simp only [canonical] at filled start
  simp [filled, start, canonical]

/-- The characters that may come right after a name. -/
def followers : List Char := [' ', '\t', '[', '(', '<', '>', '=', '!', '~', '@', ';', '#']

theorem Follows.head (follows : Follows rest) : ∀ c ∈ rest.head?, c ∈ followers := by
  obtain ⟨gap, tail, rfl, blanks, opening⟩ := follows
  intro c first
  rcases gap with _ | ⟨d, gap⟩
  · have opens := opening c (by simpa using first)
    simp only [ne_eq, not_true_eq_false, and_false, or_false] at opens
    exact List.mem_cons_of_mem _ (List.mem_cons_of_mem _ (List.mem_append_left ['#'] opens))
  · obtain rfl : d = c := by simpa using first
    exact (blanks d List.mem_cons_self).elim (by rintro rfl; decide) (by rintro rfl; decide)

/-- A line has one name, the longest text of name characters at its start. -/
theorem Requires.name_eq (requires : Requires line name rest) :
    name = (strip line).takeWhile fun c => c.isAlphanum || isJoint c := by
  have apart : ∀ c ∈ followers, (c.isAlphanum || isJoint c) = false := by decide
  have ends : (rest.takeWhile fun c => c.isAlphanum || isJoint c) = [] := by
    have follows := requires.rest.head
    rcases rest with _ | ⟨c, rest⟩
    · rfl
    · rw [List.takeWhile_cons_of_neg (by simp [apart c (follows c rfl)])]
  rw [requires.line, List.takeWhile_append_of_pos fun c mem => by simpa using requires.name.chars c mem, ends,
    List.append_nil]

theorem isUrl_excludes (isUrl : IsUrl line) : ¬ ∃ name rest, Requires line name rest := by
  rintro ⟨name, rest, requires⟩
  obtain ⟨scheme, tail, split, -, -, chars⟩ := isUrl
  have colon : ':' ∉ name := fun mem => absurd (requires.name.chars ':' mem) (by decide)
  have same : name ++ rest = scheme ++ ':' :: tail := requires.line.symm.trans split
  have next : ∃ c, c ∈ rest.head? ∧ (c = ':' ∨ c.isAlphanum = true ∨ c ∈ ['+', '-', '.']) := by
    rcases List.append_eq_append_iff.mp same with ⟨more, grown, left⟩ | ⟨more, grown, left⟩
    · rcases more with _ | ⟨c, more⟩
      · exact ⟨':', by simp [left], Or.inl rfl⟩
      · exact ⟨c, by simp [left], Or.inr (chars c (by simp [grown]))⟩
    · rcases more with _ | ⟨c, more⟩
      · rw [List.nil_append] at left
        exact ⟨':', by simp [← left], Or.inl rfl⟩
      · obtain ⟨rfl, -⟩ := List.cons.inj left
        exact absurd (by simp [grown]) colon
  obtain ⟨c, first, strange⟩ := next
  have familiar := requires.rest.head c first
  have apart : ∀ d ∈ followers,
      ¬ (d = ':' ∨ d.isAlphanum = true ∨ d ∈ ['+', '-', '.']) := by decide
  exact apart c familiar strange

theorem IsUrl.start (isUrl : IsUrl line) : ∃ c rest, strip line = [c] ++ rest ∧ IsName [c] := by
  obtain ⟨scheme, tail, split, head, filled, -⟩ := isUrl
  obtain ⟨c, scheme, rfl⟩ := List.exists_cons_of_ne_nil filled
  have inked := head c rfl
  exact ⟨c, scheme ++ ':' :: tail, split,
    ⟨List.cons_ne_nil _ _, by simp [inked], by simp [inked], by simp [inked]⟩⟩

/-- A bare URL is a name to the scanner. -/
theorem readName_of_isUrl (isUrl : IsUrl line) : readName line ≠ none := by
  obtain ⟨c, rest, split, isName⟩ := isUrl.start
  rw [readName_eq isName split]
  exact Option.some_ne_none _

theorem isSkipped_of_isUrl (isUrl : IsUrl line) : isSkipped (strip line) = false := by
  obtain ⟨c, rest, split, isName⟩ := isUrl.start
  rw [split, isSkipped_append isName]

/-- A comment or an option is read by nobody. -/
theorem separated_of_isSkipped (skipped : isSkipped (strip line) = true) : Separated line := by
  refine ⟨fun isUrl => ?_, fun name rest requires => ?_⟩
  · rw [isSkipped_of_isUrl isUrl] at skipped
    cases skipped
  · rw [requires.line, isSkipped_append requires.name] at skipped
    cases skipped

theorem readRight_iff (form : IsRequirementsLine line) : ReadRight line ↔ Separated line := by
  constructor
  · intro right
    refine ⟨fun isUrl => readName_of_isUrl isUrl (right.other (isUrl_excludes isUrl)).1,
      fun name rest requires => ?_⟩
    have read := (right.required name rest requires).1
    rw [readName_eq requires.name requires.line, Option.map_some, Option.some.injEq,
      canonical_lower_append_iff requires.name, rstrip_eq_nil_iff] at read
    exact read
  · intro separated
    constructor
    · intro name rest requires
      have blank := separated.2 name rest requires
      refine ⟨?_, parsePackage_eq requires blank⟩
      rw [readName_eq requires.name requires.line, Option.map_some, Option.some.injEq,
        canonical_lower_append_iff requires.name, rstrip_eq_nil_iff]
      exact blank
    · intro none
      rcases form with skipped | isUrl | required
      · simp [readName, parsePackage, skipped]
      · exact absurd isUrl separated.1
      · exact absurd required none

/-! ## The packages of a text -/

/-- A line of the text requires the package. -/
def Depends (text package : List Char) : Prop :=
  ∃ line ∈ splitlines text, ∃ name rest, Requires line name rest ∧ canonical name = package

/-- The readers give the names of the requirements, and answer alike about a package without joints. -/
structure ReadAlike (text : List Char) : Prop where
  lines : ∀ line ∈ splitlines text, ReadRight line
  scanned : ∀ package, (∀ c ∈ package, isJoint c = false) →
    (package ∈ readRequirements text ↔ Depends text package)
  collected : ∀ package, (∀ c ∈ package, isJoint c = false) →
    (package ∈ collectPythonDeps text ↔ Depends text package)
  parsed : ∀ package, package ∈ parseRequirementsPackages text ↔ Depends text package

variable {text : List Char}

theorem mem_names_iff {reader : List Char → Option (List Char)} {package : List Char}
    (required : ∀ line ∈ splitlines text, ∀ name rest, Requires line name rest →
      (reader line = some package ↔ canonical name = package))
    (other : ∀ line ∈ splitlines text, (¬ ∃ name rest, Requires line name rest) → reader line = none) :
    package ∈ (splitlines text).filterMap reader ↔ Depends text package := by
  rw [List.mem_filterMap]
  constructor
  · rintro ⟨line, among, read⟩
    by_cases requires : ∃ name rest, Requires line name rest
    · obtain ⟨name, rest, requires⟩ := requires
      exact ⟨line, among, name, rest, requires, (required line among name rest requires).mp read⟩
    · exact absurd (read.symm.trans (other line among requires)) nofun
  · rintro ⟨line, among, name, rest, requires, same⟩
    exact ⟨line, among, (required line among name rest requires).mpr same⟩

theorem readName_iff {package : List Char} (plain : ∀ c ∈ package, isJoint c = false) (separated : Separated line)
    (requires : Requires line name rest) : readName line = some package ↔ canonical name = package := by
  have blank := rstrip_eq_nil_iff.mpr (separated.2 name rest requires)
  rw [readName_eq requires.name requires.line, blank, List.append_nil, Option.some.injEq, canonical,
    collapse_eq_iff plain]

/-- The three readers read a requirements text alike, and as PEP 508 does, exactly when its lines are separated. -/
theorem readAlike_iff (form : ∀ line ∈ splitlines text, IsRequirementsLine line) :
    ReadAlike text ↔ ∀ line ∈ splitlines text, Separated line := by
  constructor
  · intro alike line among
    exact (readRight_iff (form line among)).mp (alike.lines line among)
  · intro separated
    have right : ∀ line ∈ splitlines text, ReadRight line :=
      fun line among => (readRight_iff (form line among)).mpr (separated line among)
    have named : ∀ package, (∀ c ∈ package, isJoint c = false) →
        (package ∈ (splitlines text).filterMap readName ↔ Depends text package) := fun package plain =>
      mem_names_iff (fun line among name rest requires => readName_iff plain (separated line among) requires)
        fun line among none => ((right line among).other none).1
    refine ⟨right, named, named, fun package => mem_names_iff (fun line among name rest requires => ?_)
      fun line among none => ((right line among).other none).2⟩
    rw [((right line among).required name rest requires).2, Option.some.injEq]

theorem requires_flask {c : Char} {more : List Char}
    (line : strip ("flask".toList ++ c :: more) = "flask".toList ++ c :: more)
    (opens : c ∈ ['[', '(', '<', '>', '=', '!', '~', '@', ';']) :
    Requires ("flask".toList ++ c :: more) "flask".toList (c :: more) :=
  ⟨line, ⟨by decide +kernel, by decide +kernel, by decide +kernel, by decide +kernel⟩, [], c :: more, rfl, nofun,
    fun _ first => Option.some.inj first ▸ Or.inl opens⟩

theorem readAlike_pinned : (∀ line ∈ splitlines "# web\nflask==2.0".toList, IsRequirementsLine line) ∧
    ReadAlike "# web\nflask==2.0".toList := by
  have lines : splitlines "# web\nflask==2.0".toList = ["# web".toList, "flask==2.0".toList] := by decide +kernel
  have requires : Requires "flask==2.0".toList "flask".toList "==2.0".toList := requires_flask (by decide +kernel) (by decide +kernel)
  have form : ∀ line ∈ splitlines "# web\nflask==2.0".toList, IsRequirementsLine line := by
    rw [lines]
    exact List.forall_mem_cons.mpr ⟨Or.inl (by decide +kernel),
      List.forall_mem_singleton.mpr (Or.inr (Or.inr ⟨_, _, requires⟩))⟩
  refine ⟨form, (readAlike_iff form).mpr ?_⟩
  rw [lines]
  refine List.forall_mem_cons.mpr ⟨?_, List.forall_mem_singleton.mpr ?_⟩
  · exact separated_of_isSkipped (by decide +kernel)
  · refine ⟨fun isUrl => isUrl_excludes isUrl ⟨_, _, requires⟩, fun name rest required => ?_⟩
    obtain rfl : "flask".toList = name := requires.name_eq.trans required.name_eq.symm
    obtain rfl := List.append_cancel_left (requires.line.symm.trans required.line)
    decide +kernel

/-- The scanner takes the operator `~` into the name. -/
theorem compatible_release : Requires "flask~=2.0".toList "flask".toList "~=2.0".toList ∧
    readRequirements "flask~=2.0".toList = ["flask~".toList] ∧
    parseRequirementsPackages "flask~=2.0".toList = ["flask".toList] ∧ ¬ ReadAlike "flask~=2.0".toList := by
  have requires : Requires "flask~=2.0".toList "flask".toList "~=2.0".toList := requires_flask (by decide +kernel) (by decide +kernel)
  refine ⟨requires, by decide +kernel, by decide +kernel, fun alike => ?_⟩
  have read := ((alike.lines "flask~=2.0".toList (by decide +kernel)).required _ _ requires).1
  exact absurd read (by decide +kernel)

end LocalWebAccess.RequirementLines
