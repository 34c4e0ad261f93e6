import Mathlib.Data.Nat.Notation
import Mathlib.Tactic.IntervalCases

/-!
# The text of a JSON value

The text that `json.dumps` writes of a value with its keys sorted. Two values with
one text are equal, also where more text follows.
-/
namespace LocalWebAccess.CanonicalJson

/-- The characters that may stand in a number, `null`, `true` and `false`. -/
def isPlain (c : Char) : Bool := !(c = '"' ∨ c = '[' ∨ c = ']' ∨ c = '{' ∨ c = '}' ∨ c = ',' ∨ c = ':' ∨ c = ' ')

/-- A number, `null`, `true` or `false`, given by its text. -/
structure Scalar where
  text : List Char
  nonempty : text ≠ []
  plain : ∀ c ∈ text, isPlain c

/-- A JSON value. The fields of an object stand in the order of their keys. -/
inductive Json where
  | scalar (value : Scalar)
  | str (value : List Char)
  | arr (items : List Json)
  | obj (fields : List (List Char × Json))

def hexDigit (n : ℕ) : Char := "0123456789abcdef".toList.getD n '0'

/-- The escapes of the characters that need one. -/
def escape (c : Char) : List Char :=
  if c = '"' then ['\\', '"']
  else if c = '\\' then ['\\', '\\']
  else if c = '\n' then ['\\', 'n']
  else if c = '\r' then ['\\', 'r']
  else if c = '\t' then ['\\', 't']
  else if c = Char.ofNat 8 then ['\\', 'b']
  else if c = Char.ofNat 12 then ['\\', 'f']
  else if c.toNat < 32 then ['\\', 'u', '0', '0', hexDigit (c.toNat / 16), hexDigit (c.toNat % 16)]
  else [c]

def quote (s : List Char) : List Char := '"' :: (s.flatMap escape ++ ['"'])

mutual

def dumps : Json → List Char
  | .scalar value => value.text
  | .str value => quote value
  | .arr [] => ['[', ']']
  | .arr (v :: vs) => '[' :: (dumps v ++ dumpsItems vs)
  | .obj [] => ['{', '}']
  | .obj ((k, v) :: fs) => '{' :: (quote k ++ ':' :: ' ' :: (dumps v ++ dumpsFields fs))

/-- The items after the first one, and the bracket. -/
def dumpsItems : List Json → List Char
  | [] => [']']
  | v :: vs => ',' :: ' ' :: (dumps v ++ dumpsItems vs)

def dumpsFields : List (List Char × Json) → List Char
  | [] => ['}']
  | (k, v) :: fs => ',' :: ' ' :: (quote k ++ ':' :: ' ' :: (dumps v ++ dumpsFields fs))

end

/-! ## Strings -/

def hexValue (c : Char) : ℕ := "0123456789abcdef".toList.idxOf c

/-- The first character of an escaped text, and the text after it. -/
def unescape : List Char → Option (Char × List Char)
  | '\\' :: 'u' :: '0' :: '0' :: a :: b :: r => some (Char.ofNat (16 * hexValue a + hexValue b), r)
  | '\\' :: 'n' :: r => some ('\n', r)
  | '\\' :: 'r' :: r => some ('\r', r)
  | '\\' :: 't' :: r => some ('\t', r)
  | '\\' :: 'b' :: r => some (Char.ofNat 8, r)
  | '\\' :: 'f' :: r => some (Char.ofNat 12, r)
  | '\\' :: c :: r => some (c, r)
  | c :: r => some (c, r)
  | [] => none

theorem hex_control {n : ℕ} (h : n < 32) :
    Char.ofNat (16 * hexValue (hexDigit (n / 16)) + hexValue (hexDigit (n % 16))) = Char.ofNat n := by
  interval_cases n <;> rfl

theorem unescape_escape (c : Char) (r : List Char) : unescape (escape c ++ r) = some (c, r) := by
  unfold escape
  split_ifs with h₁ h₂ h₃ h₄ h₅ h₆ h₇ h₈
  · subst h₁
    rfl
  · subst h₂
    rfl
  · subst h₃
    rfl
  · subst h₄
    rfl
  · subst h₅
    rfl
  · subst h₆
    rfl
  · subst h₇
    rfl
  · have code := hex_control h₈
    rw [Char.ofNat_toNat] at code
    change some (Char.ofNat (16 * hexValue (hexDigit (c.toNat / 16)) + hexValue (hexDigit (c.toNat % 16))), r) = _
    rw [code]
  · simp only [List.singleton_append]
    unfold unescape
    split <;> simp_all

theorem escape_head (c : Char) (r : List Char) : (escape c ++ r).head? ≠ some '"' := by
  unfold escape
  split_ifs with h <;> simp_all

theorem escape_inj {c d : Char} {r s : List Char} (h : escape c ++ r = escape d ++ s) : c = d ∧ r = s := by
  have same := unescape_escape c r
  rw [h, unescape_escape] at same
  simpa [eq_comm] using same

/-- The quote ends the text of a string. -/
theorem escaped_inj {s t r u : List Char} (h : s.flatMap escape ++ '"' :: r = t.flatMap escape ++ '"' :: u) :
    s = t ∧ r = u := by
  induction s generalizing t with
  | nil =>
    cases t with
    | nil => exact ⟨rfl, (List.cons.inj h).2⟩
    | cons c t =>
      have clash := escape_head c (t.flatMap escape ++ '"' :: u)
      rw [← List.append_assoc, ← List.flatMap_cons, ← h] at clash
      simp at clash
  | cons c s ih =>
    cases t with
    | nil =>
      have clash := escape_head c (s.flatMap escape ++ '"' :: r)
      rw [← List.append_assoc, ← List.flatMap_cons, h] at clash
      simp at clash
    | cons d t =>
      simp only [List.flatMap_cons, List.append_assoc] at h
      obtain ⟨rfl, tail⟩ := escape_inj h
      obtain ⟨rfl, same⟩ := ih tail
      exact ⟨rfl, same⟩

theorem quote_inj {s t r u : List Char} (h : quote s ++ r = quote t ++ u) : s = t ∧ r = u := by
  simp only [quote, List.cons_append, List.append_assoc, List.cons.injEq, true_and] at h
  exact escaped_inj h

/-! ## Values -/

/-- The text that follows a value in another one. -/
def Ends (r : List Char) : Prop := ∀ c ∈ r.head?, isPlain c = false

theorem plain_inj {t u r s : List Char} (ht : ∀ c ∈ t, isPlain c) (hu : ∀ c ∈ u, isPlain c) (hr : Ends r)
    (hs : Ends s) (h : t ++ r = u ++ s) : t = u ∧ r = s := by
  induction t generalizing u with
  | nil =>
    cases u with
    | nil => exact ⟨rfl, h⟩
    | cons c u =>
      have clash := hr c (by rw [List.nil_append] at h; rw [h]; rfl)
      rw [hu c List.mem_cons_self] at clash
      cases clash
  | cons c t ih =>
    cases u with
    | nil =>
      have clash := hs c (by rw [List.nil_append] at h; rw [← h]; rfl)
      rw [ht c List.mem_cons_self] at clash
      cases clash
    | cons d u =>
      obtain ⟨rfl, tail⟩ := List.cons.inj h
      obtain ⟨rfl, same⟩ := ih (fun c listed => ht c (List.mem_cons_of_mem _ listed))
        (fun c listed => hu c (List.mem_cons_of_mem _ listed)) tail
      exact ⟨rfl, same⟩

/-- What the text of a value begins with. -/
inductive Kind where
  | scalar
  | str
  | arr
  | obj
  deriving DecidableEq

def kindOf (c : Char) : Kind := if c = '"' then .str else if c = '[' then .arr else if c = '{' then .obj else .scalar

def Json.kind : Json → Kind
  | scalar _ => .scalar
  | str _ => .str
  | arr _ => .arr
  | obj _ => .obj

theorem kindOf_plain {c : Char} (h : isPlain c) : kindOf c = .scalar := by
  unfold kindOf
  split_ifs with h₁ h₂ h₃
  · subst h₁
    contradiction
  · subst h₂
    contradiction
  · subst h₃
    contradiction
  · rfl

/-- The first character tells the kind of a value, and is no closing bracket. -/
theorem dumps_head (v : Json) : ∃ c t, dumps v = c :: t ∧ kindOf c = v.kind ∧ c ≠ ']' ∧ c ≠ '}' := by
  cases v with
  | scalar value =>
    obtain ⟨text, nonempty, plain⟩ := value
    cases text with
    | nil => contradiction
    | cons c t =>
      have first := plain c List.mem_cons_self
      refine ⟨c, t, by rw [dumps], kindOf_plain first, ?_, ?_⟩
      · rintro rfl
        contradiction
      · rintro rfl
        contradiction
  | str value => exact ⟨'"', _, by rw [dumps, quote], rfl, by decide, by decide⟩
  | arr items => cases items <;> exact ⟨'[', _, by rw [dumps], rfl, by decide, by decide⟩
  | obj fields => rcases fields with _ | ⟨⟨_, _⟩, _⟩ <;> exact ⟨'{', _, by rw [dumps], rfl, by decide, by decide⟩

theorem kind_eq {v w : Json} {r s : List Char} (h : dumps v ++ r = dumps w ++ s) : v.kind = w.kind := by
  obtain ⟨c, t, hv, hc, -, -⟩ := dumps_head v
  obtain ⟨d, u, hw, hd, -, -⟩ := dumps_head w
  rw [hv, hw] at h
  obtain ⟨rfl, -⟩ := List.cons.inj h
  exact hc.symm.trans hd

theorem ends_items (vs : List Json) (r : List Char) : Ends (dumpsItems vs ++ r) := by
  cases vs <;> simp [dumpsItems, Ends, isPlain]

theorem ends_fields (fs : List (List Char × Json)) (r : List Char) : Ends (dumpsFields fs ++ r) := by
  rcases fs with _ | ⟨⟨k, v⟩, fs⟩ <;> simp [dumpsFields, Ends, isPlain]

mutual

/-- Over the value, its items and its fields: a text has one reading and one end. -/
theorem dumps_inj (v w : Json) {r s : List Char} (hr : Ends r) (hs : Ends s) (h : dumps v ++ r = dumps w ++ s) :
    v = w ∧ r = s := by
  have kind := kind_eq h
  match v, w, kind with
  | .scalar a, .scalar b, _ =>
    obtain ⟨same, rest⟩ := plain_inj a.plain b.plain hr hs (by simpa [dumps] using h)
    obtain ⟨text, _, _⟩ := a
    obtain ⟨text', _, _⟩ := b
    obtain rfl : text = text' := same
    exact ⟨rfl, rest⟩
  | .str a, .str b, _ =>
    obtain ⟨rfl, rest⟩ := quote_inj (by simpa [dumps] using h)
    exact ⟨rfl, rest⟩
  | .arr [], .arr [], _ => exact ⟨rfl, by simpa [dumps] using h⟩
  | .arr [], .arr (w :: ws), _ =>
    obtain ⟨c, t, hw, -, open', -⟩ := dumps_head w
    simp [dumps, hw] at h
    exact absurd h.1.symm open'
  | .arr (v :: vs), .arr [], _ =>
    obtain ⟨c, t, hv, -, open', -⟩ := dumps_head v
    simp [dumps, hv] at h
    exact absurd h.1 open'
  | .arr (v :: vs), .arr (w :: ws), _ =>
    have tail : dumps v ++ (dumpsItems vs ++ r) = dumps w ++ (dumpsItems ws ++ s) := by simpa [dumps] using h
    obtain ⟨rfl, rest⟩ := dumps_inj v w (ends_items vs r) (ends_items ws s) tail
    obtain ⟨rfl, same⟩ := dumpsItems_inj vs ws rest
    exact ⟨rfl, same⟩
  | .obj [], .obj [], _ => exact ⟨rfl, by simpa [dumps] using h⟩
  | .obj [], .obj ((k, w) :: fs), _ => simp [dumps, quote] at h
  | .obj ((k, v) :: fs), .obj [], _ => simp [dumps, quote] at h
  | .obj ((k, v) :: fs), .obj ((k', w) :: fs'), _ =>
    have tail : quote k ++ (':' :: ' ' :: (dumps v ++ (dumpsFields fs ++ r))) =
        quote k' ++ (':' :: ' ' :: (dumps w ++ (dumpsFields fs' ++ s))) := by simpa [dumps] using h
    obtain ⟨rfl, after⟩ := quote_inj tail
    have value := (List.cons.inj (List.cons.inj after).2).2
    obtain ⟨rfl, rest⟩ := dumps_inj v w (ends_fields fs r) (ends_fields fs' s) value
    obtain ⟨rfl, same⟩ := dumpsFields_inj fs fs' rest
    exact ⟨rfl, same⟩

theorem dumpsItems_inj (vs ws : List Json) {r s : List Char} (h : dumpsItems vs ++ r = dumpsItems ws ++ s) :
    vs = ws ∧ r = s := by
  match vs, ws with
  | [], [] => exact ⟨rfl, by simpa [dumpsItems] using h⟩
  | [], w :: ws => simp [dumpsItems] at h
  | v :: vs, [] => simp [dumpsItems] at h
  | v :: vs, w :: ws =>
    have tail : dumps v ++ (dumpsItems vs ++ r) = dumps w ++ (dumpsItems ws ++ s) := by simpa [dumpsItems] using h
    obtain ⟨rfl, rest⟩ := dumps_inj v w (ends_items vs r) (ends_items ws s) tail
    obtain ⟨rfl, same⟩ := dumpsItems_inj vs ws rest
    exact ⟨rfl, same⟩

theorem dumpsFields_inj (fs fs' : List (List Char × Json)) {r s : List Char}
    (h : dumpsFields fs ++ r = dumpsFields fs' ++ s) : fs = fs' ∧ r = s := by
  match fs, fs' with
  | [], [] => exact ⟨rfl, by simpa [dumpsFields] using h⟩
  | [], (k, w) :: fs' => simp [dumpsFields] at h
  | (k, v) :: fs, [] => simp [dumpsFields] at h
  | (k, v) :: fs, (k', w) :: fs' =>
    have tail : quote k ++ (':' :: ' ' :: (dumps v ++ (dumpsFields fs ++ r))) =
        quote k' ++ (':' :: ' ' :: (dumps w ++ (dumpsFields fs' ++ s))) := by simpa [dumpsFields] using h
    obtain ⟨rfl, after⟩ := quote_inj tail
    have value := (List.cons.inj (List.cons.inj after).2).2
    obtain ⟨rfl, rest⟩ := dumps_inj v w (ends_fields fs r) (ends_fields fs' s) value
    obtain ⟨rfl, same⟩ := dumpsFields_inj fs fs' rest
    exact ⟨rfl, same⟩

end

/-- Two values with one text are equal. -/
theorem dumps_injective {v w : Json} (h : dumps v = dumps w) : v = w := by
  have ends : Ends [] := nofun
  exact (dumps_inj v w ends ends (by rw [h])).1

end LocalWebAccess.CanonicalJson
