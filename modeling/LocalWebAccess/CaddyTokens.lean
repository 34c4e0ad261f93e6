import Mathlib.Data.List.Basic
import Mathlib.Data.Nat.Notation

/-!
# Tokens of a Caddyfile

Environment variables are put in before the text is read. A token between backquotes is raw; between double
quotes a backslash only hides a quote. The argument of an import is a pattern of file names.
-/
namespace LocalWebAccess.CaddyTokens

/-! ## The environment -/

/-- The value of `{$name}` or `{$name:default}`. -/
def envValue (env : List Char → Option (List Char)) (name : List Char) : List Char :=
  match env (name.takeWhile (· ≠ ':')) with
  | some value => value
  | none => (name.dropWhile (· ≠ ':')).tail

/-- Puts the variables in, from left to right, where a name has been opened and read so far or not. A name that
is empty or not closed stays. -/
def expand (env : List Char → Option (List Char)) : Option (List Char) → List Char → List Char
  | none, [] => []
  | none, '{' :: '$' :: text => expand env (some []) text
  | none, c :: text => c :: expand env none text
  | some name, [] => '{' :: '$' :: name
  | some name, '}' :: text => (if name = [] then ['{', '$', '}'] else envValue env name) ++ expand env none text
  | some name, c :: text => expand env (some (name ++ [c])) text

variable {env : List Char → Option (List Char)} {text after : List Char} {q : Char}

theorem expand_cons {c : Char} (single : c = '{' → text.head? ≠ some '$') :
    expand env none (c :: text) = c :: expand env none text := by
  rw [expand]
  intro rest brace dollar
  exact single brace (by rw [dollar]; rfl)

theorem expand_unclosed (name : List Char) (open' : '}' ∉ text) :
    expand env (some name) text = '{' :: '$' :: (name ++ text) := by
  induction text generalizing name with
  | nil => simp [expand]
  | cons c text ih =>
    have apart : c ≠ '}' := fun same => open' (same ▸ List.mem_cons_self)
    rw [expand, ih _ (fun mem => open' (List.mem_cons_of_mem _ mem)), List.append_assoc, List.singleton_append]
    exact apart

theorem expand_closed (name rest : List Char) (open' : '}' ∉ text) :
    expand env (some name) (text ++ '}' :: rest) =
      (if name ++ text = [] then ['{', '$', '}'] else envValue env (name ++ text)) ++ expand env none rest := by
  induction text generalizing name with
  | nil => rw [List.nil_append, expand, List.append_nil]
  | cons c text ih =>
    have apart : c ≠ '}' := fun same => open' (same ▸ List.mem_cons_self)
    rw [List.cons_append, expand, ih _ (fun mem => open' (List.mem_cons_of_mem _ mem)), List.append_assoc,
      List.singleton_append]
    exact apart

/-- A variable opens in the text and is closed in it or after it. -/
def Opens (text after : List Char) : Prop :=
  ∃ front back, text = front ++ '{' :: '$' :: back ∧ back.head? ≠ some '}' ∧ '}' ∈ back ++ after

theorem Opens.congr {other : List Char} (opens : Opens text after) (same : '}' ∈ after → '}' ∈ other) :
    Opens text other := by
  obtain ⟨front, back, split, named, closed⟩ := opens
  exact ⟨front, back, split, named, List.mem_append.mpr ((List.mem_append.mp closed).imp_right same)⟩

theorem opens_cons_iff {c : Char} : Opens (c :: text) after ↔
    (∃ back, c = '{' ∧ text = '$' :: back ∧ back.head? ≠ some '}' ∧ '}' ∈ back ++ after) ∨ Opens text after := by
  constructor
  · rintro ⟨front, back, split, named, closed⟩
    cases front with
    | nil =>
      obtain ⟨rfl, rfl⟩ := List.cons.inj split
      exact .inl ⟨back, rfl, rfl, named, closed⟩
    | cons d front =>
      obtain ⟨-, rest⟩ := List.cons.inj split
      exact .inr ⟨front, back, rest, named, closed⟩
  · rintro (⟨back, rfl, rfl, named, closed⟩ | ⟨front, back, rfl, named, closed⟩)
    · exact ⟨[], back, rfl, named, closed⟩
    · exact ⟨c :: front, back, rfl, named, closed⟩

theorem Opens.cons {c : Char} (opens : Opens text after) : Opens (c :: text) after := opens_cons_iff.mpr (.inr opens)

theorem Opens.tail {c : Char} (opens : Opens (c :: text) after) (single : c = '{' → text.head? ≠ some '$') :
    Opens text after := by
  rcases opens_cons_iff.mp opens with ⟨back, brace, rfl, -⟩ | opens
  · exact absurd rfl (single brace)
  · exact opens

theorem Opens.closed (opens : Opens text after) : '}' ∈ text ++ after := by
  obtain ⟨front, back, rfl, -, closed⟩ := opens
  rw [List.append_assoc]
  exact List.mem_append_right _ (List.mem_cons_of_mem _ (List.mem_cons_of_mem _ closed))

/-- A text is read by its first character, or by the two that open a variable. -/
theorem induction_on_openings {P : List Char → Prop} (text : List Char) (nil : P [])
    (opening : ∀ rest, (∀ tail, tail.length ≤ rest.length → P tail) → P ('{' :: '$' :: rest))
    (cons : ∀ c rest, (c = '{' → rest.head? ≠ some '$') → P rest → P (c :: rest)) : P text := by
  induction size : text.length using Nat.strongRecOn generalizing text with | ind size ih =>
  subst size
  cases text with
  | nil => exact nil
  | cons c rest =>
    by_cases opened : c = '{' ∧ rest.head? = some '$'
    · obtain ⟨rfl, head⟩ := opened
      obtain ⟨rest, rfl⟩ := List.head?_eq_some_iff.mp head
      exact opening rest fun tail short => ih tail.length (by simp; omega) tail rfl
    · exact cons c rest (fun brace dollar => opened ⟨brace, dollar⟩) (ih rest.length (by simp) rest rfl)

theorem expand_none (open' : '}' ∉ text) : expand env none text = text := by
  induction text using induction_on_openings with
  | nil => rfl
  | opening rest ih => exact expand_unclosed [] fun mem => open' (by simp [mem])
  | cons c rest single ih => rw [expand_cons single, ih fun mem => open' (List.mem_cons_of_mem _ mem)]

theorem single_append {c : Char} (dollar : q ≠ '$') (single : c = '{' → text.head? ≠ some '$') :
    c = '{' → (text ++ q :: after).head? ≠ some '$' := by
  intro brace
  cases text with
  | nil => simpa using dollar
  | cons d text => exact single brace

/-- A text in which no variable opens stays, up to a character that opens and closes none. -/
theorem expand_append (quiet : ¬Opens text after) (ends : q ≠ '{' ∧ q ≠ '$' ∧ q ≠ '}') :
    expand env none (text ++ q :: after) = text ++ q :: expand env none after := by
  induction text using induction_on_openings with
  | nil => exact expand_cons fun brace => absurd brace ends.1
  | opening rest ih =>
    by_cases named : rest.head? = some '}'
    · obtain ⟨rest, rfl⟩ := List.head?_eq_some_iff.mp named
      have inner := ih rest (by simp) fun opens => quiet opens.cons.cons.cons
      rw [List.cons_append, List.cons_append, List.cons_append, expand, expand, inner]
      rfl
    · have open' : '}' ∉ rest ++ after := fun closed => quiet ⟨[], rest, rfl, named, closed⟩
      rw [List.mem_append, not_or] at open'
      have unclosed : '}' ∉ rest ++ q :: after := by simp [open', ends.2.2.symm]
      rw [List.cons_append, List.cons_append, expand, expand_unclosed [] unclosed, expand_none open'.2]
      rfl
  | cons c rest single ih =>
    rw [List.cons_append, expand_cons (single_append ends.2.1 single), ih fun opens => quiet opens.cons,
      List.cons_append]

/-- Where a variable opens, its value comes after what stands before it. -/
theorem expand_opens {value : List Char} (opens : Opens text after) (ends : q ≠ '{' ∧ q ≠ '$' ∧ q ≠ '}') :
    ∃ front back tail, text = front ++ '{' :: '$' :: back ∧
      expand (fun _ => some value) none (text ++ q :: after) = front ++ (value ++ tail) := by
  induction text using induction_on_openings with
  | nil =>
    obtain ⟨front, back, empty, -⟩ := opens
    simp at empty
  | opening rest ih =>
    by_cases named : rest.head? = some '}'
    · obtain ⟨rest, rfl⟩ := List.head?_eq_some_iff.mp named
      have later : Opens rest after := by
        rcases opens_cons_iff.mp opens with ⟨back, -, same, named, -⟩ | opens
        · obtain rfl := (List.cons.inj same).2
          exact absurd rfl named
        · exact (opens.tail (by simp)).tail (by simp)
      obtain ⟨front, back, tail, rfl, value⟩ := ih rest (by simp) later
      refine ⟨'{' :: '$' :: '}' :: front, back, tail, rfl, ?_⟩
      rw [List.cons_append, List.cons_append, List.cons_append, expand, expand, value]
      rfl
    · have closed : '}' ∈ rest ++ q :: after := by
        have closed := opens.closed
        simp only [List.cons_append, List.mem_cons, List.mem_append] at closed ⊢
        tauto
      obtain ⟨name, tail, split, open'⟩ := List.eq_append_cons_of_mem closed
      have filled : name ≠ [] := by
        rintro rfl
        cases rest with
        | nil => exact ends.2.2 (List.cons.inj split).1
        | cons c rest => exact named (by rw [(List.cons.inj split).1]; rfl)
      refine ⟨[], rest, expand (fun _ => some value) none tail, rfl, ?_⟩
      rw [List.cons_append, List.cons_append, expand, split, expand_closed [] tail open', List.nil_append,
        if_neg filled]
      rfl
  | cons c rest single ih =>
    obtain ⟨front, back, tail, rfl, value⟩ := ih (opens.tail single)
    refine ⟨c :: front, back, tail, rfl, ?_⟩
    rw [List.cons_append, expand_cons (single_append ends.2.1 single), value, List.cons_append]

/-! ## Quotes -/

/-- The token and what follows it, with more characters before them. -/
def push (front : List Char) (read : Option (List Char × List Char)) : Option (List Char × List Char) :=
  read.map fun result => (front ++ result.1, result.2)

/-- A token between backquotes, after the first of them. -/
def readRaw : List Char → Option (List Char × List Char)
  | [] => none
  | '\x60' :: text => some ([], text)
  | c :: text => push [c] (readRaw text)

/-- A token between double quotes, after the first of them. -/
def readQuoted : List Char → Option (List Char × List Char)
  | [] => none
  | '"' :: text => some ([], text)
  | '\\' :: '"' :: text => push ['"'] (readQuoted text)
  | '\\' :: c :: text => push ['\\', c] (readQuoted text)
  | c :: text => push [c] (readQuoted text)

/-- A token in quotes. -/
def readToken : List Char → Option (List Char × List Char)
  | '\x60' :: text => readRaw text
  | '"' :: text => readQuoted text
  | _ => none

theorem push_push (front back : List Char) (read : Option (List Char × List Char)) :
    push front (push back read) = push (front ++ back) read := by
  cases read <;> simp [push]

theorem readRaw_append {front : List Char} (clean : '\x60' ∉ front) (rest : List Char) :
    readRaw (front ++ rest) = push front (readRaw rest) := by
  induction front with
  | nil => cases h : readRaw rest <;> simp [push, h]
  | cons c front ih =>
    rw [List.mem_cons, not_or] at clean
    rw [List.cons_append, readRaw, ih clean.2, push_push, List.singleton_append]
    exact clean.1 ∘ Eq.symm

/-! ## Patterns -/

/-- A character of a class, perhaps after a backslash. -/
def getEsc : List Char → Option (Char × List Char)
  | [] => none
  | '-' :: _ => none
  | ']' :: _ => none
  | ['\\'] => none
  | '\\' :: c :: text => some (c, text)
  | c :: text => some (c, text)

/-- The ranges of a class up to its bracket. -/
def readRanges : ℕ → List Char → Option (List (Char × Char) × List Char)
  | 0, _ => none
  | _ + 1, ']' :: text => some ([], text)
  | fuel + 1, text =>
    (getEsc text).bind fun low =>
      match low.2 with
      | '-' :: more =>
        (getEsc more).bind fun high =>
          (readRanges fuel high.2).map fun read => ((low.1, high.1) :: read.1, read.2)
      | more => (readRanges fuel more).map fun read => ((low.1, low.1) :: read.1, read.2)

/-- A class after its bracket: whether it is negated, its ranges, of which there is one at least, and what follows. -/
def readClass (text : List Char) : Option (Bool × List (Char × Char) × List Char) :=
  let body := if text.head? = some '^' then text.tail else text
  (readRanges (text.length + 1) body).bind fun read =>
    if read.1 = [] then none else some (text.head? = some '^', read.1, read.2)

/-- A pattern of file names matches a path; a malformed one matches none. -/
inductive Matches : List Char → List Char → Prop
  | nil : Matches [] []
  | star {pattern path : List Char} (middle : List Char) (within : '/' ∉ middle) (rest : Matches pattern path) :
    Matches ('*' :: pattern) (middle ++ path)
  | any {pattern path : List Char} (c : Char) (within : c ≠ '/') (rest : Matches pattern path) :
    Matches ('?' :: pattern) (c :: path)
  | group {body pattern path : List Char} {negated : Bool} {ranges : List (Char × Char)} (c : Char) (within : c ≠ '/')
      (read : readClass body = some (negated, ranges, pattern))
      (among : ranges.any (fun range => range.1 ≤ c && c ≤ range.2) ≠ negated) (rest : Matches pattern path) :
    Matches ('[' :: body) (c :: path)
  | hidden {pattern path : List Char} (c : Char) (rest : Matches pattern path) :
    Matches ('\\' :: c :: pattern) (c :: path)
  | plain {pattern path : List Char} (c : Char) (plain : c ∉ ['*', '?', '[', '\\']) (rest : Matches pattern path) :
    Matches (c :: pattern) (c :: path)

/-- The text of a pattern without its hiding backslashes. -/
def spelled : List Char → List Char
  | '\\' :: c :: pattern => c :: spelled pattern
  | c :: pattern => c :: spelled pattern
  | [] => []

/-- No character of the pattern is special, but for backslashes that hide one. -/
def Calm : List Char → Prop
  | '\\' :: _ :: pattern => Calm pattern
  | c :: pattern => c ∉ ['*', '?', '[', '\\'] ∧ Calm pattern
  | [] => True

theorem alone {c : Char} {pattern : List Char} (single : ∀ d rest, c = '\\' → pattern = d :: rest → False)
    (slash : c = '\\') : pattern = [] := by
  cases pattern with
  | nil => rfl
  | cons d rest => exact (single d rest slash rfl).elim

theorem spelled_cons {c : Char} {pattern : List Char} (single : c = '\\' → pattern = []) :
    spelled (c :: pattern) = c :: spelled pattern := by
  rw [spelled]
  exact fun d rest slash same => by simp [single slash] at same

theorem calm_cons {c : Char} {pattern : List Char} (single : c = '\\' → pattern = []) :
    Calm (c :: pattern) ↔ c ∉ ['*', '?', '[', '\\'] ∧ Calm pattern := by
  rw [Calm]
  exact fun d rest slash same => by simp [single slash] at same

theorem Calm.matches_iff {pattern : List Char} (calm : Calm pattern) (path : List Char) :
    Matches pattern path ↔ path = spelled pattern := by
  fun_induction spelled pattern generalizing path with
  | case1 c pattern ih =>
    constructor
    · intro found
      cases found with
      | hidden _ found => rw [(ih calm _).mp found]
      | plain _ plain => simp at plain
    · rintro rfl
      exact .hidden c ((ih calm _).mpr rfl)
  | case2 c pattern single ih =>
    obtain ⟨first, calm⟩ := (calm_cons (alone single)).mp calm
    constructor
    · intro found
      cases found with
      | plain _ _ found => rw [(ih calm _).mp found]
      | star | any | group | hidden => simp at first
    · rintro rfl
      exact .plain c first ((ih calm _).mpr rfl)
  | case3 =>
    constructor
    · rintro ⟨⟩
      rfl
    · rintro rfl
      exact .nil

theorem getEsc_length {text rest : List Char} {c : Char} (read : getEsc text = some (c, rest)) :
    (spelled rest).length < (spelled text).length := by
  unfold getEsc at read
  split at read <;> cases read
  · simp [spelled]
  · rename_i single
    rw [spelled_cons (alone single)]
    simp

theorem readRanges_length {fuel : ℕ} {text rest : List Char} {ranges : List (Char × Char)}
    (read : readRanges fuel text = some (ranges, rest)) : (spelled rest).length < (spelled text).length := by
  induction fuel generalizing text ranges rest with
  | zero => cases read
  | succ fuel ih =>
    unfold readRanges at read
    split at read
    · rename_i impossible
      cases impossible
    · cases read
      rw [spelled_cons (by simp)]
      simp
    · rename_i less equal _
      obtain rfl : fuel = less := Nat.succ.inj equal
      obtain ⟨low, first, read⟩ := Option.bind_eq_some_iff.mp read
      have one := getEsc_length first
      split at read
      · rename_i more dash
        obtain ⟨high, second, read⟩ := Option.bind_eq_some_iff.mp read
        obtain ⟨⟨found, left⟩, last, same⟩ := Option.map_eq_some_iff.mp read
        have two := getEsc_length second
        have three := ih last
        cases same
        rw [dash, spelled_cons (by simp), List.length_cons] at one
        dsimp only
        omega
      · obtain ⟨⟨found, left⟩, last, same⟩ := Option.map_eq_some_iff.mp read
        have two := ih last
        cases same
        dsimp only
        omega

theorem readClass_length {body rest : List Char} {negated : Bool} {ranges : List (Char × Char)}
    (read : readClass body = some (negated, ranges, rest)) : (spelled rest).length < (spelled body).length := by
  unfold readClass at read
  obtain ⟨found, first, read⟩ := Option.bind_eq_some_iff.mp read
  have consumed := readRanges_length first
  have shorter : (spelled (if body.head? = some '^' then body.tail else body)).length ≤ (spelled body).length := by
    split_ifs with caret
    · obtain ⟨tail, rfl⟩ := List.head?_eq_some_iff.mp caret
      rw [spelled_cons (by simp)]
      simp
    · exact Nat.le_refl _
  by_cases empty : found.1 = []
  · rw [if_pos empty] at read
    cases read
  · rw [if_neg empty] at read
    cases read
    omega

/-- A pattern that matches a path matches one that is no longer than its text, and other than its text, unless the
pattern is calm. -/
theorem Matches.short {pattern path : List Char} (found : Matches pattern path) :
    ∃ other, Matches pattern other ∧ other.length ≤ (spelled pattern).length ∧
      (other = spelled pattern → Calm pattern) := by
  induction found with
  | nil => exact ⟨[], .nil, Nat.le_refl _, fun _ => trivial⟩
  | star middle within rest ih =>
    obtain ⟨other, found, short, -⟩ := ih
    rw [spelled_cons (by simp)]
    refine ⟨other, .star [] List.not_mem_nil found, by simp; omega, fun same => ?_⟩
    rw [same, List.length_cons] at short
    omega
  | any c within rest ih =>
    obtain ⟨other, found, short, -⟩ := ih
    rw [spelled_cons (by simp)]
    exact ⟨'a' :: other, .any 'a' (by decide) found, by simpa using short, fun same => by simp at same⟩
  | group c within read among rest ih =>
    obtain ⟨other, found, short, -⟩ := ih
    have consumed := readClass_length read
    rw [spelled_cons (by simp)]
    refine ⟨c :: other, .group c within read among found, by simp; omega, fun same => ?_⟩
    have size := congrArg List.length same
    simp only [List.length_cons] at size
    omega
  | hidden c rest ih =>
    obtain ⟨other, found, short, calm⟩ := ih
    rw [spelled]
    exact ⟨c :: other, .hidden c found, by simpa using short, fun same => calm (List.cons.inj same).2⟩
  | plain c plain rest ih =>
    obtain ⟨other, found, short, calm⟩ := ih
    have apart : c ≠ '\\' := fun slash => by simp [slash] at plain
    rw [spelled_cons (absurd · apart)]
    exact ⟨c :: other, .plain c plain found, by simpa using short, fun same =>
      (calm_cons (absurd · apart)).mpr ⟨plain, calm (List.cons.inj same).2⟩⟩

/-- A pattern stands for its text alone exactly if it is calm. -/
theorem matches_spelled_iff {pattern : List Char} :
    (∀ path, Matches pattern path ↔ path = spelled pattern) ↔ Calm pattern := by
  constructor
  · intro only
    obtain ⟨other, found, -, calm⟩ := ((only _).mpr rfl).short
    exact calm ((only other).mp found)
  · exact Calm.matches_iff

/-- A pattern that is shorter than a text does not stand for it alone. -/
theorem not_matches_only {pattern text : List Char} (short : (spelled pattern).length < text.length) :
    ¬∀ path, Matches pattern path ↔ path = text := by
  intro only
  obtain ⟨other, found, small, -⟩ := ((only text).mpr rfl).short
  rw [(only other).mp found] at small
  omega

theorem spelled_length_le (pattern : List Char) : (spelled pattern).length ≤ pattern.length := by
  fun_induction spelled pattern with
  | case1 c pattern ih => simp only [List.length_cons]; omega
  | case2 c pattern single ih => simpa using ih
  | case3 => exact Nat.le_refl _

theorem spelled_eq_self {text : List Char} (full : text.length ≤ (spelled text).length) : spelled text = text := by
  fun_induction spelled text with
  | case1 c text ih =>
    have small := spelled_length_le text
    simp only [List.length_cons] at full
    omega
  | case2 c text single ih => rw [ih (by simpa using full)]
  | case3 => rfl

theorem calm_of_plain {text : List Char} (plain : ∀ c ∈ text, c ∉ ['*', '?', '[', '\\']) :
    Calm text ∧ spelled text = text := by
  induction text with
  | nil => exact ⟨trivial, rfl⟩
  | cons c text ih =>
    obtain ⟨first, plain⟩ := List.forall_mem_cons.mp plain
    have apart : c ≠ '\\' := fun slash => by simp [slash] at first
    rw [calm_cons (absurd · apart), spelled_cons (absurd · apart), (ih plain).2]
    exact ⟨⟨first, (ih plain).1⟩, rfl⟩

theorem Calm.plain {text : List Char} (calm : Calm text) (full : text.length ≤ (spelled text).length) :
    ∀ c ∈ text, c ∉ ['*', '?', '[', '\\'] := by
  fun_induction spelled text with
  | case1 c text ih =>
    have small := spelled_length_le text
    simp only [List.length_cons] at full
    omega
  | case2 c text single ih =>
    obtain ⟨first, calm⟩ := (calm_cons (alone single)).mp calm
    exact List.forall_mem_cons.mpr ⟨first, ih calm (by simpa using full)⟩
  | case3 => simp

/-- A text stands for itself alone exactly if none of its characters is special. -/
theorem matches_self_iff {text : List Char} :
    (∀ path, Matches text path ↔ path = text) ↔ ∀ c ∈ text, c ∉ ['*', '?', '[', '\\'] := by
  constructor
  · intro only
    obtain ⟨other, found, short, calm⟩ := ((only text).mpr rfl).short
    obtain rfl := (only other).mp found
    exact (calm (spelled_eq_self short).symm).plain short
  · intro plain path
    obtain ⟨calm, same⟩ := calm_of_plain plain
    rw [calm.matches_iff, same]

end LocalWebAccess.CaddyTokens
