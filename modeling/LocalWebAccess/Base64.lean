import Mathlib.Data.Nat.Notation

/-!
# Base64

Three bytes are written as four symbols of six bits. The reader takes the symbols one at a time and skips
what is no symbol; padding ends the input once it completes a group.
-/
namespace LocalWebAccess.Base64

/-- Symbols for the numbers below 64. A reader may know more of them than the writer uses. -/
structure Alphabet where
  symbol : ℕ → Char
  value : Char → Option ℕ
  value_symbol : ∀ n < 64, value (symbol n) = some n
  symbol_ne_pad : ∀ n < 64, symbol n ≠ '='

variable {A : Alphabet}

/-- The bits of a group that are no whole byte yet. -/
inductive Quad where
  | start
  | six (bits : ℕ)
  | four (bits : ℕ)
  | two (bits : ℕ)
  deriving DecidableEq, Repr

/-- The symbols of the group that have been read. -/
def Quad.pos : Quad → ℕ
  | .start => 0
  | .six _ => 1
  | .four _ => 2
  | .two _ => 3

/-- Six more bits. -/
def Quad.feed (v : ℕ) : Quad → List UInt8 × Quad
  | .start => ([], .six v)
  | .six bits => ([UInt8.ofNat (bits * 4 + v / 16)], .four (v % 16))
  | .four bits => ([UInt8.ofNat (bits * 16 + v / 4)], .two (v % 4))
  | .two bits => ([UInt8.ofNat (bits * 64 + v)], .start)

/-- `b64encode` -/
def encode (A : Alphabet) : List UInt8 → List Char
  | [] => []
  | [a] => [A.symbol (a.toNat / 4), A.symbol (a.toNat % 4 * 16), '=', '=']
  | [a, b] => [A.symbol (a.toNat / 4), A.symbol (a.toNat % 4 * 16 + b.toNat / 16), A.symbol (b.toNat % 16 * 4), '=']
  | a :: b :: c :: bytes =>
    A.symbol (a.toNat / 4) :: A.symbol (a.toNat % 4 * 16 + b.toNat / 16) ::
      A.symbol (b.toNat % 16 * 4 + c.toNat / 64) :: A.symbol (c.toNat % 64) :: encode A bytes

/-- `a2b_base64`, in a group and after so many pads; `none` where the input ends in a group. -/
def decodeFrom (A : Alphabet) (q : Quad) (pads : ℕ) : List Char → Option (List UInt8)
  | [] => if q = .start then some [] else none
  | c :: text =>
    if c = '=' then
      if q.pos < 2 then decodeFrom A q pads text
      else if 4 ≤ q.pos + (pads + 1) then some []
      else decodeFrom A q (pads + 1) text
    else
      match A.value c with
      | none => decodeFrom A q pads text
      | some v => (decodeFrom A (q.feed v).2 0 text).map ((q.feed v).1 ++ ·)

/-- `b64decode` -/
def decode (A : Alphabet) (text : List Char) : Option (List UInt8) := decodeFrom A .start 0 text

/-! ## Round trip -/

theorem decodeFrom_symbol {n : ℕ} (small : n < 64) (q : Quad) (pads : ℕ) (text : List Char) :
    decodeFrom A q pads (A.symbol n :: text) = (decodeFrom A (q.feed n).2 0 text).map ((q.feed n).1 ++ ·) := by
  rw [decodeFrom, if_neg (A.symbol_ne_pad n small), A.value_symbol n small]

theorem ofNat_eq {a : UInt8} {n : ℕ} (same : n = a.toNat) : UInt8.ofNat n = a := by
  rw [same, UInt8.ofNat_toNat]

/-- What is written is read. -/
theorem decode_encode (A : Alphabet) (bytes : List UInt8) : decode A (encode A bytes) = some bytes := by
  unfold decode
  induction bytes using encode.induct with
  | case1 => rfl
  | case2 a =>
    have small := a.toNat_lt
    have first : UInt8.ofNat (a.toNat / 4 * 4 + a.toNat % 4 * 16 / 16) = a := ofNat_eq (by omega)
    have ends : ∀ bits, decodeFrom A (.four bits) 0 ['=', '='] = some [] := fun _ => rfl
    rw [encode, decodeFrom_symbol (by omega), decodeFrom_symbol (by omega)]
    simp only [Quad.feed, ends, first]
    rfl
  | case3 a b =>
    have small := a.toNat_lt
    have small' := b.toNat_lt
    have first : UInt8.ofNat (a.toNat / 4 * 4 + (a.toNat % 4 * 16 + b.toNat / 16) / 16) = a := ofNat_eq (by omega)
    have second : UInt8.ofNat ((a.toNat % 4 * 16 + b.toNat / 16) % 16 * 16 + b.toNat % 16 * 4 / 4) = b :=
      ofNat_eq (by omega)
    have ends : ∀ bits, decodeFrom A (.two bits) 0 ['='] = some [] := fun _ => rfl
    rw [encode, decodeFrom_symbol (by omega), decodeFrom_symbol (by omega), decodeFrom_symbol (by omega)]
    simp only [Quad.feed, ends, first, second]
    rfl
  | case4 a b c bytes ih =>
    have small := a.toNat_lt
    have small' := b.toNat_lt
    have small'' := c.toNat_lt
    have first : UInt8.ofNat (a.toNat / 4 * 4 + (a.toNat % 4 * 16 + b.toNat / 16) / 16) = a := ofNat_eq (by omega)
    have second : UInt8.ofNat ((a.toNat % 4 * 16 + b.toNat / 16) % 16 * 16 +
        (b.toNat % 16 * 4 + c.toNat / 64) / 4) = b := ofNat_eq (by omega)
    have third : UInt8.ofNat ((b.toNat % 16 * 4 + c.toNat / 64) % 4 * 64 + c.toNat % 64) = c := ofNat_eq (by omega)
    rw [encode, decodeFrom_symbol (by omega), decodeFrom_symbol (by omega), decodeFrom_symbol (by omega),
      decodeFrom_symbol (by omega)]
    simp only [Quad.feed, ih, first, second, third]
    rfl

/-- The text has symbols and pads only. -/
theorem mem_encode {c : Char} {bytes : List UInt8} (among : c ∈ encode A bytes) : c = '=' ∨ ∃ n < 64, A.symbol n = c := by
  induction bytes using encode.induct with
  | case1 => cases among
  | case2 a =>
    have small := a.toNat_lt
    simp only [encode, List.mem_cons, List.not_mem_nil, or_false, or_self] at among
    rcases among with rfl | rfl | rfl
    · exact .inr ⟨_, by omega, rfl⟩
    · exact .inr ⟨_, by omega, rfl⟩
    · exact .inl rfl
  | case3 a b =>
    have small := a.toNat_lt
    have small' := b.toNat_lt
    simp only [encode, List.mem_cons, List.not_mem_nil, or_false] at among
    rcases among with rfl | rfl | rfl | rfl
    · exact .inr ⟨_, by omega, rfl⟩
    · exact .inr ⟨_, by omega, rfl⟩
    · exact .inr ⟨_, by omega, rfl⟩
    · exact .inl rfl
  | case4 a b c bytes ih =>
    have small := a.toNat_lt
    have small' := b.toNat_lt
    have small'' := c.toNat_lt
    simp only [encode, List.mem_cons] at among
    rcases among with rfl | rfl | rfl | rfl | later
    · exact .inr ⟨_, by omega, rfl⟩
    · exact .inr ⟨_, by omega, rfl⟩
    · exact .inr ⟨_, by omega, rfl⟩
    · exact .inr ⟨_, by omega, rfl⟩
    · exact ih later

/-! ## The URL-safe alphabet -/

/-- `-` and `_` are written for the last two numbers. -/
def urlsafeSymbol (n : ℕ) : Char :=
  if n < 26 then Char.ofNat (65 + n)
  else if n < 52 then Char.ofNat (71 + n)
  else if n < 62 then Char.ofNat (n - 4)
  else if n = 62 then '-'
  else '_'

/-- `+` and `/` are read too. -/
def urlsafeValue (c : Char) : Option ℕ :=
  if c.isUpper then some (c.toNat - 65)
  else if c.isLower then some (c.toNat - 71)
  else if c.isDigit then some (c.toNat + 4)
  else if c = '-' ∨ c = '+' then some 62
  else if c = '_' ∨ c = '/' then some 63
  else none

/-- `urlsafe_b64encode` and `urlsafe_b64decode` -/
def urlsafe : Alphabet where
  symbol := urlsafeSymbol
  value := urlsafeValue
  value_symbol := by decide
  symbol_ne_pad := by decide

theorem all_encode_urlsafe (bytes : List UInt8) : (encode urlsafe bytes).all (·.toNat < 128) = true := by
  have symbols : ∀ n < 64, (urlsafeSymbol n).toNat < 128 := by decide
  rw [List.all_eq_true]
  intro c among
  rcases mem_encode among with rfl | ⟨n, small, rfl⟩
  · rfl
  · exact decide_eq_true (symbols n small)

end LocalWebAccess.Base64
