import LocalWebAccess.PythonText
import Mathlib.Data.Nat.Notation

/-!
# Decoding of lines in UTF-8

ByteString are decoded with a replacement character for every maximal part of a sequence that is none of
UTF-8. A newline is never part of another sequence, so the bytes before and after it are decoded on
their own. The lines of the decoded text are the records of the bytes where these have no line
boundary of their own.
-/
namespace LocalWebAccess.Utf8Replacement

open PythonText

abbrev ByteString := List UInt8

def newline : UInt8 := 0x0a

/-- U+FFFD -/
def replacement : Char := Char.ofNat 0xfffd

/-- A sequence that has begun: its value so far, the number of bytes that are missing, and the range of
the next one. -/
structure Pending where
  value : ℕ
  missing : ℕ
  low : ℕ
  high : ℕ

/-- What a byte means at the start of a sequence. -/
def lead (b : ℕ) : List Char × Option Pending :=
  if b < 0x80 then ([Char.ofNat b], none)
  else if b < 0xc2 then ([replacement], none)
  else if b < 0xe0 then ([], some ⟨b - 0xc0, 1, 0x80, 0xbf⟩)
  else if b = 0xe0 then ([], some ⟨0, 2, 0xa0, 0xbf⟩)
  else if b = 0xed then ([], some ⟨0xd, 2, 0x80, 0x9f⟩)
  else if b < 0xf0 then ([], some ⟨b - 0xe0, 2, 0x80, 0xbf⟩)
  else if b = 0xf0 then ([], some ⟨0, 3, 0x90, 0xbf⟩)
  else if b < 0xf4 then ([], some ⟨b - 0xf0, 3, 0x80, 0xbf⟩)
  else if b = 0xf4 then ([], some ⟨4, 3, 0x80, 0x8f⟩)
  else ([replacement], none)

/-- The characters that a byte completes, and the sequence that it begins or goes on with. -/
def next : Option Pending → ℕ → List Char × Option Pending
  | none, b => lead b
  | some p, b =>
    if p.low ≤ b ∧ b ≤ p.high then
      let value := p.value * 64 + (b - 0x80)
      if p.missing = 1 then ([Char.ofNat value], none)
      else ([], some ⟨value, p.missing - 1, 0x80, 0xbf⟩)
    else (replacement :: (lead b).1, (lead b).2)

/-- What is left of a sequence that breaks off. -/
def flush : Option Pending → List Char
  | none => []
  | some _ => [replacement]

def decodeFrom (p : Option Pending) : ByteString → List Char
  | [] => flush p
  | b :: rest => (next p b.toNat).1 ++ decodeFrom (next p b.toNat).2 rest

/-- `bytes.decode("utf-8", "replace")` -/
def decode (bytes : ByteString) : List Char := decodeFrom none bytes

/-! ## Newlines -/

/-- The bytes of a sequence after its first are no ASCII characters, and neither is its value. -/
def Pending.Beyond (p : Pending) : Prop :=
  0x80 ≤ p.low ∧ if p.missing = 1 then 2 ≤ p.value else 2 ≤ p.value * 64 + (p.low - 0x80)

/-- So it is for a sequence that has begun. -/
def Beyond : Option Pending → Prop
  | none => True
  | some p => p.Beyond

theorem beyond_lead (b : ℕ) : Beyond (lead b).2 := by
  unfold lead
  split_ifs <;> simp only [Beyond, Pending.Beyond]
  all_goals split_ifs <;> omega

theorem beyond_next {p : Option Pending} (h : Beyond p) (b : ℕ) : Beyond (next p b).2 := by
  cases p with
  | none => exact beyond_lead b
  | some p =>
    obtain ⟨low, value⟩ := h
    simp only [next]
    split_ifs with fits last
    · trivial
    · rw [if_neg last] at value
      simp only [Beyond, Pending.Beyond]
      split_ifs <;> omega
    · exact beyond_lead b

/-- A newline ends the sequence before it. -/
theorem next_newline {p : Option Pending} (h : Beyond p) : next p newline.toNat = (flush p ++ ['\n'], none) := by
  cases p with
  | none => rfl
  | some p =>
    have below : ¬(p.low ≤ newline.toNat ∧ newline.toNat ≤ p.high) := by
      have low := h.1
      have value : newline.toNat = 10 := rfl
      omega
    simp only [next, if_neg below]
    rfl

theorem decodeFrom_append {p : Option Pending} (beyond : Beyond p) (front rest : ByteString) :
    decodeFrom p (front ++ newline :: rest) = decodeFrom p front ++ '\n' :: decode rest := by
  induction front generalizing p with
  | nil => simp [decodeFrom, next_newline beyond, decode]
  | cons b front ih => simp [decodeFrom, ih (beyond_next beyond b.toNat)]

/-- The bytes before and after a newline are decoded on their own. -/
theorem decode_append (front rest : ByteString) :
    decode (front ++ newline :: rest) = decode front ++ '\n' :: decode rest :=
  decodeFrom_append (p := none) trivial front rest

/-! ## Records -/

/-- Records with the newlines that end them. -/
def unlines (records : List ByteString) : ByteString := records.flatMap (· ++ [newline])

/-- The records of some bytes, after the bytes that have been read of the first one in reverse. -/
def recordsFrom (read : ByteString) : ByteString → List ByteString
  | [] => []
  | b :: rest => if b = newline then read.reverse :: recordsFrom [] rest else recordsFrom (b :: read) rest

/-- The maximal segments that newlines end. What follows the last newline is none of them. -/
def records (bytes : ByteString) : List ByteString := recordsFrom [] bytes

/-- A record has no newline in it. -/
def IsRecord (record : ByteString) : Prop := newline ∉ record

instance (record : ByteString) : Decidable (IsRecord record) := inferInstanceAs (Decidable (newline ∉ record))

theorem unlines_append (left right : List ByteString) : unlines (left ++ right) = unlines left ++ unlines right :=
  List.flatMap_append ..

theorem recordsFrom_append {record : ByteString} (isRecord : IsRecord record) (read rest : ByteString) :
    recordsFrom read (record ++ newline :: rest) = (read.reverse ++ record) :: records rest := by
  induction record generalizing read with
  | nil => simp [recordsFrom, records]
  | cons b record ih =>
    obtain ⟨first, later⟩ := List.forall_mem_cons.mp (fun c among => ne_of_mem_of_not_mem among isRecord)
    rw [List.cons_append, recordsFrom, if_neg first, ih (fun among => later newline among rfl)]
    simp

theorem recordsFrom_unfinished {rest : ByteString} (unfinished : IsRecord rest) (read : ByteString) :
    recordsFrom read rest = [] := by
  induction rest generalizing read with
  | nil => rfl
  | cons b rest ih =>
    obtain ⟨first, later⟩ := List.forall_mem_cons.mp (fun c among => ne_of_mem_of_not_mem among unfinished)
    rw [recordsFrom, if_neg first, ih (fun among => later newline among rfl)]

/-- The records that are written are read. -/
theorem records_unlines {written : List ByteString} (all : ∀ r ∈ written, IsRecord r) {rest : ByteString}
    (unfinished : IsRecord rest) :
    records (unlines written ++ rest) = written := by
  induction written with
  | nil => exact recordsFrom_unfinished unfinished []
  | cons r written ih =>
    have later := ih fun r' among => all r' (List.mem_cons_of_mem r among)
    have split : unlines (r :: written) ++ rest = r ++ newline :: (unlines written ++ rest) := by simp [unlines]
    rw [records, split, recordsFrom_append (all r List.mem_cons_self), later]
    rfl

/-- All bytes are records and the beginning of another one. -/
theorem exists_unlines (bytes : ByteString) :
    ∃ written rest, bytes = unlines written ++ rest ∧ (∀ r ∈ written, IsRecord r) ∧ IsRecord rest := by
  induction bytes with
  | nil => exact ⟨[], [], by simp [unlines], by simp, by simp [IsRecord]⟩
  | cons b bytes ih =>
    obtain ⟨written, rest, rfl, all, unfinished⟩ := ih
    by_cases ends : b = newline
    · refine ⟨[] :: written, rest, by simp [unlines, ends], ?_, unfinished⟩
      exact List.forall_mem_cons.mpr ⟨by simp [IsRecord], all⟩
    · cases written with
      | nil => exact ⟨[], b :: rest, by simp [unlines], by simp, by simpa [IsRecord] using ⟨Ne.symm ends, unfinished⟩⟩
      | cons r written =>
        obtain ⟨first, later⟩ := List.forall_mem_cons.mp all
        refine ⟨(b :: r) :: written, rest, by simp [unlines], ?_, unfinished⟩
        exact List.forall_mem_cons.mpr ⟨by simpa [IsRecord] using ⟨Ne.symm ends, first⟩, later⟩

/-- What precedes the last newline, with it. -/
theorem rdropWhile_unlines (written : List ByteString) {rest : ByteString} (unfinished : IsRecord rest) :
    (unlines written ++ rest).rdropWhile (· != newline) = unlines written := by
  have dropped : ∀ b ∈ rest.reverse, (b != newline) = true := by
    intro b among
    simpa using ne_of_mem_of_not_mem (List.mem_reverse.mp among) unfinished
  have kept : (unlines written).rdropWhile (· != newline) = unlines written := by
    cases written using List.reverseRecOn with
    | nil => rfl
    | append_singleton written r =>
      have ends : unlines (written ++ [r]) = (unlines written ++ r) ++ [newline] := by simp [unlines]
      rw [ends, List.rdropWhile_concat_neg _ _ _ (by simp)]
  rw [List.rdropWhile, List.reverse_append, List.dropWhile_append_of_pos dropped]
  exact kept

/-! ## Lines -/

theorem splitlines_newline (front rest : ByteString) :
    splitlines (decode (front ++ newline :: rest)) =
      splitlines (decode front ++ ['\n']) ++ splitlines (decode rest) := by
  rw [decode_append]
  exact splitlinesFrom_append [] (decode front) (decode rest)

theorem splitlines_unlines (written : List ByteString) :
    splitlines (decode (unlines written)) = written.flatMap fun r => splitlines (decode r ++ ['\n']) := by
  induction written with
  | nil => rfl
  | cons r written ih =>
    have split : unlines (r :: written) = r ++ newline :: unlines written := by simp [unlines]
    rw [split, splitlines_newline, ih, List.flatMap_cons]

theorem splitlines_unlines_append (left right : List ByteString) :
    splitlines (decode (unlines (left ++ right))) =
      splitlines (decode (unlines left)) ++ splitlines (decode (unlines right)) := by
  simp only [splitlines_unlines, List.flatMap_append]

/-- The lines of the decoded text are the records where no record has a line boundary of its own. -/
theorem splitlines_unlines_eq_iff (written : List ByteString) :
    splitlines (decode (unlines written)) = written.map decode ↔ ∀ r ∈ written, IsLine (decode r) := by
  constructor
  · intro same r among
    have line : decode r ∈ splitlines (decode (unlines written)) := same ▸ List.mem_map_of_mem among
    exact isLine_of_mem_splitlines line
  · intro lines
    rw [splitlines_unlines]
    induction written with
    | nil => rfl
    | cons r written ih =>
      have first : splitlines (decode r ++ ['\n']) = [decode r] :=
        splitlinesFrom_line [] (lines r List.mem_cons_self)
      rw [List.flatMap_cons, first, ih fun r' among => lines r' (List.mem_cons_of_mem r among)]
      rfl

end LocalWebAccess.Utf8Replacement
