import LocalWebAccess.NodeRanges
import Mathlib.Data.List.Forall2

/-!
# The texts of Node ranges

npm's grammar of ranges: branches of comparators set off by blanks, or of one hyphen range.
-/
namespace LocalWebAccess.NodeRanges

open PythonText VersionRanges AgentLogs

/-! ## The grammar -/

/-- A wildcard, or a number without leading zeros. -/
def SpellsPart (text : List Char) : Option ℕ → Prop
  | none => isWildcard text = true
  | some n => text = (toString n).toList

/-- Up to three components with points between them. -/
structure SpellsPartial (text : List Char) (p : Partial) : Prop where
  parts : ∃ parts nums, List.Forall₂ SpellsPart parts nums ∧ parts ≠ [] ∧ parts.length ≤ 3 ∧
    text = ['.'].intercalate parts ∧ p = padded nums

def symbol : Op → List Char
  | .exact => ['=']
  | .less => ['<']
  | .atMost => ['<', '=']
  | .greater => ['>']
  | .atLeast => ['>', '=']
  | .tilde => ['~']
  | .caret => ['^']

def Blank (text : List Char) : Prop := ∀ c ∈ text, isSpace c = true

theorem blank_nil : Blank [] := List.forall_mem_nil _

inductive Clause where
  | comparator (op : Op) (p : Partial)
  | hyphen (low high : Partial)

/-- An operator and a version, or a version alone. -/
inductive SpellsComparator : List Char → Clause → Prop
  | bare {text : List Char} {p : Partial} : SpellsPartial text p → SpellsComparator text (.comparator .exact p)
  | op (op : Op) {gap text : List Char} {p : Partial} : Blank gap → SpellsPartial text p →
      SpellsComparator (symbol op ++ gap ++ text) (.comparator op p)

/-- Comparators with blanks between them, and maybe behind them. -/
inductive SpellsComparators : List Char → List Clause → Prop
  | last {text gap : List Char} {clause : Clause} : SpellsComparator text clause → Blank gap →
      SpellsComparators (text ++ gap) [clause]
  | cons {text gap rest : List Char} {clause : Clause} {clauses : List Clause} : SpellsComparator text clause →
      Blank gap → gap ≠ [] → SpellsComparators rest clauses →
      SpellsComparators (text ++ (gap ++ rest)) (clause :: clauses)

inductive SpellsBranch : List Char → List Clause → Prop
  | comparators {before text : List Char} {clauses : List Clause} : Blank before →
      SpellsComparators text clauses → SpellsBranch (before ++ text) clauses
  | hyphen {before low gap gap' high after : List Char} {p q : Partial} : Blank before → SpellsPartial low p →
      Blank gap → gap ≠ [] → Blank gap' → gap' ≠ [] → SpellsPartial high q → Blank after →
      p.major ≠ none → q.major ≠ none →
      SpellsBranch (before ++ (low ++ (gap ++ '-' :: (gap' ++ (high ++ after))))) [.hyphen p q]

def Clause.Holds (v : Version) : Clause → Prop
  | .comparator op p => op.Holds p v
  | .hyphen low high => HyphenHolds low high v

def branches (text : List Char) : List (List Char) := splitBars (strip text)

/-- The branch is in the subset of the grammar: hyphen ranges end in numbers. -/
def Supported (branch : List Char) : Prop := ∃ clauses, SpellsBranch branch clauses

/-- npm's meaning of a range. -/
def Satisfies (text : List Char) (v : Version) : Prop :=
  ∃ branch ∈ branches text, ∃ clauses, SpellsBranch branch clauses ∧ ∀ clause ∈ clauses, clause.Holds v

/-! ## Spelled versions -/

variable {text gap : List Char} {p : Partial}

theorem isDigit_toString (n : ℕ) : ∀ c ∈ (toString n).toList, c.isDigit = true := fun _ mem =>
  isDigit_of_mem_toString mem

theorem toList_toString (n : ℕ) : (toString n).toList = Nat.toDigits 10 n := Nat.toList_repr

theorem wildcard_chars : ∀ part ∈ [['*'], ['x'], ['X']], part ≠ [] ∧ ∀ c ∈ part, isVersionChar c = true ∧ c ≠ '.' := by
  decide

theorem spellsPart_chars {part : List Char} {num : Option ℕ} (spells : SpellsPart part num) :
    part ≠ [] ∧ ∀ c ∈ part, isVersionChar c = true ∧ c ≠ '.' := by
  cases num with
  | none => exact wildcard_chars part (of_decide_eq_true spells)
  | some n =>
    obtain rfl : part = (toString n).toList := spells
    refine ⟨toList_toString n ▸ Nat.toDigits_ne_nil, fun c mem => ?_⟩
    have digit := isDigit_toString n c mem
    refine ⟨by simp [isVersionChar, digit], ?_⟩
    rintro rfl
    exact absurd digit (by decide)

theorem isSpace_of_isVersionChar {c : Char} (version : isVersionChar c = true) : isSpace c = false := by
  rw [isVersionChar, Bool.or_eq_true] at version
  rcases version with digit | other
  · exact not_isSpace_of_isDigit digit
  · have marks : ∀ c ∈ ['.', '*', 'x', 'X'], isSpace c = false := by decide
    exact marks c (of_decide_eq_true other)

theorem not_isWildcard_toString (n : ℕ) : isWildcard (toString n).toList = false := by
  rw [isWildcard, decide_eq_false_iff_not]
  intro among
  have marks : ∀ part ∈ [['*'], ['x'], ['X']], ∃ c ∈ part, c.isDigit = false := by decide
  obtain ⟨c, mem, other⟩ := marks _ among
  exact absurd (isDigit_toString n c mem) (by simp [other])

theorem isDigitText_toString (n : ℕ) : isDigitText (toString n).toList = true := by
  have filled : (toString n).toList ≠ [] := toList_toString n ▸ Nat.toDigits_ne_nil
  have each : ∀ c ∈ (toString n).toList, (decimal c).isSome = true := fun c mem => by
    rw [decimal_of_isDigit (isDigit_toString n c mem)]
    rfl
  simp only [isDigitText, Bool.and_eq_true, decide_eq_true_eq, List.all_eq_true, Bool.or_eq_true]
  exact ⟨filled, fun c mem => Or.inl (each c mem)⟩

theorem parsePart_eq {part : List Char} {num : Option ℕ} (spells : SpellsPart part num) :
    parsePart part = .ok (some num) := by
  cases num with
  | none => exact if_pos spells
  | some n =>
    obtain rfl : part = (toString n).toList := spells
    rw [parsePart, not_isWildcard_toString, if_neg Bool.false_ne_true, isDigitText_toString, if_pos rfl, int_toString]
    rfl

theorem parseParts_eq {parts : List (List Char)} {nums : List (Option ℕ)}
    (spells : List.Forall₂ SpellsPart parts nums) : parseParts parts = .ok (some nums) := by
  induction spells with
  | nil => rfl
  | cons first _ ih =>
    have clean := strip_of_clean fun c mem => isSpace_of_isVersionChar ((spellsPart_chars first).2 c mem).1
    rw [parseParts, clean, parsePart_eq first, ih]

theorem forall_parts {parts : List (List Char)} {nums : List (Option ℕ)} (spells : List.Forall₂ SpellsPart parts nums) :
    ∀ part ∈ parts, part ≠ [] ∧ ∀ c ∈ part, isVersionChar c = true ∧ c ≠ '.' := by
  induction spells with
  | nil => exact nofun
  | cons first _ ih => exact List.forall_mem_cons.mpr ⟨spellsPart_chars first, ih⟩

theorem SpellsPartial.chars (spells : SpellsPartial text p) : text ≠ [] ∧ ∀ c ∈ text, isVersionChar c = true := by
  obtain ⟨parts, nums, each, filled, -, rfl, -⟩ := spells.parts
  have chars := forall_parts each
  constructor
  · obtain ⟨part, rest, rfl⟩ := List.exists_cons_of_ne_nil filled
    obtain ⟨c, part', eq⟩ := List.exists_cons_of_ne_nil (chars part List.mem_cons_self).1
    have among : c ∈ ['.'].intercalate (part :: rest) :=
      mem_intercalate_of_mem List.mem_cons_self (eq ▸ List.mem_cons_self)
    exact List.ne_nil_of_mem among
  · intro c mem
    rcases mem_of_mem_intercalate mem with point | ⟨part, among, mem⟩
    · rw [List.mem_singleton.mp point]
      decide
    · exact ((chars part among).2 c mem).1

theorem SpellsPartial.clean (spells : SpellsPartial text p) : ∀ c ∈ text, isSpace c = false := fun c mem =>
  isSpace_of_isVersionChar (spells.chars.2 c mem)

/-- The source reads a spelled version as it is meant. -/
theorem SpellsPartial.parse (spells : SpellsPartial text p) : parsePartialVersion text = .ok (some p) := by
  have clean := strip_of_clean spells.clean
  obtain ⟨parts, nums, each, filled, short, rfl, rfl⟩ := spells.parts
  have split : (['.'].intercalate parts).splitOn '.' = parts :=
    List.splitOn_intercalate '.' (fun part mem point => ((forall_parts each part mem).2 '.' point).2 rfl) filled
  rw [parsePartialVersion, clean]
  split_ifs with wild
  · have alone : '.' ∉ ['.'].intercalate parts := by
      have marks : ∀ part ∈ [['*'], ['x'], ['X']], '.' ∉ part := by decide
      exact marks _ (of_decide_eq_true wild)
    rw [List.splitOn_eq_singleton alone] at split
    rw [← split] at each
    cases each with
    | cons first none =>
      cases none
      rename_i num
      cases num with
      | none => rfl
      | some n =>
        have number : ['.'].intercalate parts = (toString n).toList := first
        rw [number, not_isWildcard_toString] at wild
        cases wild
  · rw [split]
    dsimp only
    rw [if_neg (not_lt.mpr short), parseParts_eq each]

/-! ## Spelled atoms -/

/-- The bounds of a clause in the source. -/
def Clause.bounds : Clause → Option Bounds
  | .comparator op p => opBounds op p
  | .hyphen low high => hyphenBounds low high

/-- The atom is read as the clause. -/
def ReadsAs : Atom → Clause → Prop
  | .plain text, .comparator op p =>
    ∃ version, matchPlain text = some (op, version) ∧ parsePartialVersion version = .ok (some p)
  | .hyphen left right, .hyphen low high =>
    parsePartialVersion left = .ok (some low) ∧ parsePartialVersion right = .ok (some high)
  | _, _ => False

theorem readsAs_unique : Relator.RightUnique ReadsAs := by
  intro atom clause clause' reads reads'
  cases atom with
  | plain text =>
    cases clause with
    | hyphen => exact reads.elim
    | comparator op p =>
      cases clause' with
      | hyphen => exact reads'.elim
      | comparator op' p' =>
        obtain ⟨version, found, parsed⟩ := reads
        obtain ⟨version', found', parsed'⟩ := reads'
        obtain ⟨rfl, rfl⟩ := Prod.mk.inj (Option.some.inj (found.symm.trans found'))
        obtain rfl := Option.some.inj (Except.ok.inj (parsed.symm.trans parsed'))
        rfl
  | hyphen left right =>
    cases clause with
    | comparator => exact reads.elim
    | hyphen low high =>
      cases clause' with
      | comparator => exact reads'.elim
      | hyphen low' high' =>
        obtain rfl := Option.some.inj (Except.ok.inj (reads.1.symm.trans reads'.1))
        obtain rfl := Option.some.inj (Except.ok.inj (reads.2.symm.trans reads'.2))
        rfl

theorem ReadsAs.bounds {atom : Atom} {clause : Clause} (reads : ReadsAs atom clause) :
    atomBounds atom = .ok clause.bounds := by
  cases atom with
  | plain text =>
    cases clause with
    | hyphen => exact reads.elim
    | comparator op p =>
      obtain ⟨version, found, parsed⟩ := reads
      simp only [atomBounds, found, parsed]
      rfl
  | hyphen left right =>
    cases clause with
    | comparator => exact reads.elim
    | hyphen low high =>
      obtain ⟨parsed, parsed'⟩ := reads
      simp only [atomBounds, parsed, parsed']
      rfl

theorem opBounds_ne_none (op : Op) (p : Partial) : opBounds op p ≠ none := by
  rcases p with ⟨_ | major, _ | minor, _ | patch⟩ <;> cases op <;> simp [opBounds, comparatorBounds]

theorem splitOp_symbol (op : Op) {rest : List Char} (apart : ∀ c ∈ rest.head?, c ≠ '=') :
    splitOp (symbol op ++ rest) = some (op, symbol op, rest) := by
  cases op with
  | less =>
    rcases rest with _ | ⟨c, rest⟩
    · rfl
    · have other := apart c rfl
      simp [splitOp, symbol, other]
  | greater =>
    rcases rest with _ | ⟨c, rest⟩
    · rfl
    · have other := apart c rfl
      simp [splitOp, symbol, other]
  | exact => rfl
  | atMost => rfl
  | atLeast => rfl
  | tilde => rfl
  | caret => rfl

theorem splitOp_version (op : Op) (blank : Blank gap) {c : Char} (version : isVersionChar c = true)
    (rest : List Char) :
    splitOp (symbol op ++ (gap ++ c :: rest)) = some (op, symbol op, gap ++ c :: rest) := by
  refine splitOp_symbol op fun d first => ?_
  rcases gap with _ | ⟨e, gap⟩
  · obtain rfl : c = d := by simpa using first
    rintro rfl
    exact absurd version (by decide)
  · obtain rfl : e = d := by simpa using first
    rintro rfl
    exact absurd (blank '=' List.mem_cons_self) (by decide)

theorem splitOp_of_isVersionChar {c : Char} {rest : List Char} (version : isVersionChar c = true) :
    splitOp (c :: rest) = none := by
  have other : ∀ d ∈ ['^', '~', '>', '<', '='], c ≠ d := by
    intro d among
    have marks : ∀ d ∈ ['^', '~', '>', '<', '='], isVersionChar d = false := by decide
    rintro rfl
    rw [marks c among] at version
    cases version
  simp only [List.forall_mem_cons, List.not_mem_nil, false_implies, implies_true, and_true] at other
  obtain ⟨caret, tilde, greater, less, equal⟩ := other
  unfold splitOp
  split <;> simp_all

theorem takeWhile_blank (blank : Blank gap) {c : Char} (inked : isSpace c = false) (rest : List Char) :
    (gap ++ c :: rest).takeWhile isSpace = gap ∧ (gap ++ c :: rest).dropWhile isSpace = c :: rest := by
  rw [List.takeWhile_append_of_pos blank, List.dropWhile_append_of_pos blank,
    List.takeWhile_cons_of_neg (by simp [inked]), List.dropWhile_cons_of_neg (by simp [inked]), List.append_nil]
  exact ⟨rfl, rfl⟩

/-- What follows an atom: nothing, or a blank. -/
def Ends (rest : List Char) : Prop := ∀ c ∈ rest.head?, isSpace c = true

theorem takeWhile_ends {keep : Char → Bool} {rest : List Char} (all : ∀ c ∈ text, keep c = true) (ends : Ends rest)
    (drops : ∀ c, isSpace c = true → keep c = false) :
    (text ++ rest).takeWhile keep = text ∧ (text ++ rest).dropWhile keep = rest := by
  rw [List.takeWhile_append_of_pos all, List.dropWhile_append_of_pos all]
  rcases rest with _ | ⟨c, rest⟩
  · exact ⟨List.append_nil text, rfl⟩
  · have stop : keep c = false := drops c (ends c rfl)
    rw [List.takeWhile_cons_of_neg (by simp [stop]), List.dropWhile_cons_of_neg (by simp [stop]), List.append_nil]
    exact ⟨rfl, rfl⟩

theorem not_isVersionChar_of_isSpace (c : Char) (space : isSpace c = true) : isVersionChar c = false := by
  cases version : isVersionChar c with
  | false => rfl
  | true => exact absurd (isSpace_of_isVersionChar version) (by simp [space])

theorem not_isInk_of_isSpace (c : Char) (space : isSpace c = true) : isInk c = false := by simp [isInk, space]

theorem isInk_of_isVersionChar {c : Char} (version : isVersionChar c = true) : isInk c = true := by
  simp [isInk, isSpace_of_isVersionChar version]

theorem SpellsPartial.cons (spells : SpellsPartial text p) :
    ∃ c rest, text = c :: rest ∧ isVersionChar c = true := by
  obtain ⟨c, rest, rfl⟩ := List.exists_cons_of_ne_nil spells.chars.1
  exact ⟨c, rest, rfl, spells.chars.2 c List.mem_cons_self⟩

theorem matchPlain_bare (spells : SpellsPartial text p) : matchPlain text = some (.exact, text) := by
  have all : text.all isVersionChar = true := List.all_eq_true.mpr spells.chars.2
  obtain ⟨c, rest, rfl, version⟩ := spells.cons
  have kept : (c :: rest).dropWhile isSpace = c :: rest :=
    List.dropWhile_cons_of_neg (by simp [isSpace_of_isVersionChar version])
  simp [matchPlain, splitOp_of_isVersionChar version, kept, all]

theorem matchPlain_op (op : Op) (blank : Blank gap) (spells : SpellsPartial text p) :
    matchPlain (symbol op ++ gap ++ text) = some (op, text) := by
  have all : text.all isVersionChar = true := List.all_eq_true.mpr spells.chars.2
  obtain ⟨c, rest, rfl, version⟩ := spells.cons
  have kept := (takeWhile_blank blank (isSpace_of_isVersionChar version) rest).2
  have split := splitOp_version op blank version rest
  simp [matchPlain, split, kept, all]

theorem readsAs_plain {op : Op} {version : List Char} (found : matchPlain text = some (op, version))
    (spells : SpellsPartial version p) : ReadsAs (.plain text) (.comparator op p) :=
  ⟨version, found, spells.parse⟩

theorem hyphenAtom_eq_none (plain : '-' ∉ text) : hyphenAtom text = none := by
  unfold hyphenAtom
  split
  · rename_i more eq
    have mem : '-' ∈ (text.dropWhile isInk).dropWhile isSpace := eq ▸ List.mem_cons_self
    exact absurd ((List.dropWhile_suffix _).subset ((List.dropWhile_suffix _).subset mem)) plain
  · rfl

theorem nextAtom_bare {rest : List Char} (spells : SpellsPartial text p) (ends : Ends rest)
    (plain : '-' ∉ text ++ rest) : nextAtom (text ++ rest) = (.plain text, rest) := by
  obtain ⟨take, drop⟩ := takeWhile_ends (fun c mem => isInk_of_isVersionChar (spells.chars.2 c mem)) ends
    not_isInk_of_isSpace
  obtain ⟨c, more, rfl, version⟩ := spells.cons
  have none : comparatorAtom (c :: more ++ rest) = none := by
    rw [comparatorAtom, List.cons_append, splitOp_of_isVersionChar version]
  rw [nextAtom, hyphenAtom_eq_none plain, none, take, drop]
  rfl

theorem nextAtom_op {rest : List Char} (op : Op) (blank : Blank gap) (spells : SpellsPartial text p) (ends : Ends rest)
    (plain : '-' ∉ symbol op ++ gap ++ text ++ rest) :
    nextAtom (symbol op ++ gap ++ text ++ rest) = (.plain (symbol op ++ gap ++ text), rest) := by
  obtain ⟨take, drop⟩ := takeWhile_ends spells.chars.2 ends not_isVersionChar_of_isSpace
  have filled := spells.chars.1
  obtain ⟨c, more, rfl, version⟩ := spells.cons
  obtain ⟨blanks, inked⟩ := takeWhile_blank blank (isSpace_of_isVersionChar version) (more ++ rest)
  have split := splitOp_version op blank version (more ++ rest)
  have found : comparatorAtom (symbol op ++ gap ++ (c :: more) ++ rest) =
      some (.plain (symbol op ++ gap ++ (c :: more)), rest) := by
    simp only [List.append_assoc, List.cons_append] at take drop ⊢
    simp [comparatorAtom, split, blanks, inked, take, drop]
  rw [nextAtom, hyphenAtom_eq_none plain, found]
  rfl

theorem nextAtom_hyphen {low gap' high rest : List Char} {q : Partial} (left : SpellsPartial low p) (blank : Blank gap)
    (apart : gap ≠ []) (blank' : Blank gap') (apart' : gap' ≠ []) (right : SpellsPartial high q) (ends : Ends rest) :
    nextAtom (low ++ (gap ++ '-' :: (gap' ++ (high ++ rest)))) = (.hyphen low high, rest) := by
  have first : Ends (gap ++ '-' :: (gap' ++ (high ++ rest))) := by
    obtain ⟨c, more, rfl⟩ := List.exists_cons_of_ne_nil apart
    exact fun d same => Option.some.inj same ▸ blank c List.mem_cons_self
  obtain ⟨take, drop⟩ := takeWhile_ends (fun c mem => isInk_of_isVersionChar (left.chars.2 c mem)) first
    not_isInk_of_isSpace
  obtain ⟨take', drop'⟩ := takeWhile_ends (fun c mem => isInk_of_isVersionChar (right.chars.2 c mem)) ends
    not_isInk_of_isSpace
  have dash := (takeWhile_blank blank (by decide : isSpace '-' = false) (gap' ++ (high ++ rest))).2
  obtain ⟨c, more, rfl, version⟩ := right.cons
  obtain ⟨blanks, inked⟩ := takeWhile_blank blank' (isSpace_of_isVersionChar version) (more ++ rest)
  have found : hyphenAtom (low ++ (gap ++ '-' :: (gap' ++ (c :: more ++ rest)))) =
      some (.hyphen low (c :: more), rest) := by
    simp only [List.cons_append] at take drop take' drop' dash ⊢
    simp [hyphenAtom, take, drop, dash, blanks, inked, take', drop', apart']
  rw [nextAtom, found]
  rfl

theorem readsAs_hyphen {low high : List Char} {q : Partial} (left : SpellsPartial low p)
    (right : SpellsPartial high q) : ReadsAs (.hyphen low high) (.hyphen p q) :=
  ⟨left.parse, right.parse⟩

/-! ## Spelled branches -/

theorem isVersionChar_ne_dash {c : Char} (version : isVersionChar c = true) : c ≠ '-' := by
  rintro rfl
  exact absurd version (by decide)

theorem blank_ne_dash (blank : Blank gap) : '-' ∉ gap := fun mem => absurd (blank '-' mem) (by decide)

theorem SpellsComparator.plain {clause : Clause} (spells : SpellsComparator text clause) : '-' ∉ text := by
  cases spells with
  | bare version => exact fun mem => isVersionChar_ne_dash (version.chars.2 '-' mem) rfl
  | op op blank version =>
    rw [List.mem_append, List.mem_append, not_or, not_or]
    refine ⟨⟨?_, blank_ne_dash blank⟩, fun mem => isVersionChar_ne_dash (version.chars.2 '-' mem) rfl⟩
    cases op <;> decide

theorem SpellsComparators.plain {clauses : List Clause} (spells : SpellsComparators text clauses) : '-' ∉ text := by
  induction spells with
  | last comparator blank => simp [comparator.plain, blank_ne_dash blank]
  | cons comparator blank _ _ ih => simp [comparator.plain, blank_ne_dash blank, ih]

/-- The scan takes one comparator and stops behind it. -/
theorem SpellsComparator.next {clause : Clause} {rest : List Char} (spells : SpellsComparator text clause)
    (ends : Ends rest) (plain : '-' ∉ rest) :
    ∃ atom, nextAtom (text ++ rest) = (atom, rest) ∧ ReadsAs atom clause := by
  have whole : '-' ∉ text ++ rest := by simp [spells.plain, plain]
  cases spells with
  | bare version =>
    exact ⟨_, nextAtom_bare version ends whole, readsAs_plain (matchPlain_bare version) version⟩
  | op op blank version =>
    exact ⟨_, nextAtom_op op blank version ends whole, readsAs_plain (matchPlain_op op blank version) version⟩

theorem SpellsComparator.cons {clause : Clause} (spells : SpellsComparator text clause) :
    ∃ c rest, text = c :: rest ∧ isSpace c = false := by
  cases spells with
  | bare version =>
    obtain ⟨c, rest, rfl, char⟩ := version.cons
    exact ⟨c, rest, rfl, isSpace_of_isVersionChar char⟩
  | op op blank version => cases op <;> exact ⟨_, _, rfl, by decide⟩

theorem dropWhile_comparator {clause : Clause} {rest : List Char} (spells : SpellsComparator text clause) :
    (text ++ rest).dropWhile isSpace = text ++ rest := by
  obtain ⟨c, more, rfl, inked⟩ := spells.cons
  exact List.dropWhile_cons_of_neg (by simp [inked])

theorem atomsFrom_step {fuel : ℕ} {before text rest : List Char} {atom : Atom} (blank : Blank before)
    (filled : text ≠ []) (start : text.dropWhile isSpace = text) (next : nextAtom text = (atom, rest)) :
    atomsFrom (fuel + 1) (before ++ text) = atom :: atomsFrom fuel rest := by
  have dropped : (before ++ text).dropWhile isSpace = text := by
    rw [List.dropWhile_append_of_pos blank, start]
  obtain ⟨c, more, rfl⟩ := List.exists_cons_of_ne_nil filled
  rw [atomsFrom, dropped]
  simp only [next]

theorem atomsFrom_blank (fuel : ℕ) (blank : Blank gap) : atomsFrom fuel gap = [] := by
  cases fuel with
  | zero => rfl
  | succ fuel =>
    have dropped : gap.dropWhile isSpace = [] := List.dropWhile_eq_nil_iff.mpr blank
    rw [atomsFrom, dropped]

theorem ends_of_blank (blank : Blank gap) : Ends gap := fun c first => blank c (List.mem_of_mem_head? first)

theorem ends_append (blank : Blank gap) (filled : gap ≠ []) (rest : List Char) : Ends (gap ++ rest) := by
  obtain ⟨c, more, rfl⟩ := List.exists_cons_of_ne_nil filled
  exact fun d first => Option.some.inj first ▸ blank c List.mem_cons_self

theorem SpellsComparators.reads {clauses : List Clause} (spells : SpellsComparators text clauses) {fuel : ℕ}
    {before : List Char} (blank : Blank before) (enough : text.length ≤ fuel) :
    List.Forall₂ ReadsAs (atomsFrom fuel (before ++ text)) clauses := by
  induction spells generalizing fuel before with
  | last comparator behind =>
    obtain ⟨c, more, rfl, -⟩ := comparator.cons
    obtain ⟨fuel, rfl⟩ : ∃ n, fuel = n + 1 := ⟨fuel - 1, by simp at enough; omega⟩
    obtain ⟨atom, next, reads⟩ := comparator.next (ends_of_blank behind) (blank_ne_dash behind)
    rw [atomsFrom_step blank (List.append_ne_nil_of_left_ne_nil (List.cons_ne_nil _ _) _)
      (dropWhile_comparator comparator) next, atomsFrom_blank fuel behind]
    exact .cons reads .nil
  | @cons text gap rest clause clauses comparator behind apart spelled ih =>
    have plain : '-' ∉ gap ++ rest := by simp [blank_ne_dash behind, spelled.plain]
    obtain ⟨atom, next, reads⟩ := comparator.next (ends_append behind apart rest) plain
    obtain ⟨c, more, rfl, -⟩ := comparator.cons
    simp only [List.cons_append, List.length_cons, List.length_append] at enough
    obtain ⟨fuel, rfl⟩ : ∃ n, fuel = n + 1 := ⟨fuel - 1, by omega⟩
    rw [atomsFrom_step blank (List.append_ne_nil_of_left_ne_nil (List.cons_ne_nil _ _) _)
      (dropWhile_comparator comparator) next]
    exact .cons reads (ih behind (by omega))

theorem SpellsBranch.reads {branch : List Char} {clauses : List Clause} (spells : SpellsBranch branch clauses) :
    List.Forall₂ ReadsAs (atoms branch) clauses := by
  cases spells with
  | comparators blank comparators =>
    exact comparators.reads blank (by simp)
  | @hyphen before low gap gap' high after p q front left blank apart blank' apart' right behind =>
    have next := nextAtom_hyphen left blank apart blank' apart' right (ends_of_blank behind)
    have reads := readsAs_hyphen left right
    obtain ⟨c, more, rfl, version⟩ := left.cons
    have start : ∀ rest, ((c :: more) ++ rest).dropWhile isSpace = (c :: more) ++ rest := fun rest =>
      List.dropWhile_cons_of_neg (by simp [isSpace_of_isVersionChar version])
    have filled : ∀ rest, (c :: more) ++ rest ≠ [] := fun rest =>
      List.append_ne_nil_of_left_ne_nil (List.cons_ne_nil _ _) rest
    obtain ⟨fuel, same⟩ : ∃ fuel,
        (before ++ (c :: more ++ (gap ++ '-' :: (gap' ++ (high ++ after))))).length = fuel + 1 :=
      ⟨_, by simp [← Nat.add_assoc]; rfl⟩
    rw [atoms, same, atomsFrom_step front (filled _) (start _) next, atomsFrom_blank fuel behind]
    exact .cons reads .nil

theorem SpellsBranch.unique {branch : List Char} {clauses clauses' : List Clause} (spells : SpellsBranch branch clauses)
    (spells' : SpellsBranch branch clauses') : clauses = clauses' :=
  readsAs_unique.forall₂ spells.reads spells'.reads

end LocalWebAccess.NodeRanges
