import LocalWebAccess.PageviewStore
import LocalWebAccess.Utf8Replacement

/-!
# The tail of a log

`_read_new_lines` reads the lines that a log has got since the cursor was written. What has been
rotated away in the meantime is read from the archives: their fingerprints in the cursor say which of
them have been read, and sizes and first bytes tell which of them the offset belongs to.
-/
namespace LocalWebAccess.Pageviews

open PythonText Utf8Replacement

/-- A rotated log file. The roller writes a time into the name, so there is no comma in it. -/
structure Archive where
  name : String
  mtimeNs : ℤ
  size : ℕ
  plain : ',' ∉ name.toList
deriving DecidableEq

/-- What there is on the disk of a log. -/
structure LogFiles where
  current : Option ByteString
  /-- The archives `<stem>-*-size<suffix>.gz`, in the order of the directory. -/
  candidates : List Archive
  /-- The archive `<name>.1`. -/
  legacy : Option Archive
  /-- `_archive_uncompressed` -/
  uncompressed : Archive → Option ByteString

structure TailBatch where
  lines : List (List Char)
  nextOffset : ℕ
  cursorMeta : Option String
deriving DecidableEq

/-! ## Fingerprints -/

/-- `_ROTARCH_PREFIX` -/
def rotarchText : List Char := "rotarch:".toList

/-- `_ROTARCHS_PREFIX` -/
def rotarchsText : List Char := "rotarchs:".toList

/-- `_archive_fingerprint` -/
def archiveFingerprint (a : Archive) : List Char :=
  rotarchText ++ a.name.toList ++ ':' :: (toString a.mtimeNs).toList ++ ':' :: (toString a.size).toList

/-- `_parse_consumed_archives`, with a list for the set. -/
def parseConsumedArchives : Option String → List (List Char)
  | none => []
  | some text =>
    if rotarchsText <+: text.toList then
      ((text.toList.drop rotarchsText.length).splitOn ',').filter fun part => part ≠ []
    else if rotarchText <+: text.toList then [text.toList]
    else []

/-- `_format_consumed_archives` -/
def formatConsumedArchives (fps : List (List Char)) : Option String :=
  if fps = [] then none
  else some (String.ofList (rotarchsText ++ [','].intercalate (fps.dedup.insertionSort (· ≤ ·))))

/-- `_is_rotarch_meta` -/
def isRotarchMeta : Option String → Bool
  | none => false
  | some text => rotarchsText <+: text.toList || rotarchText <+: text.toList

/-! ## Archives -/

/-- `_list_rotated_archives` -/
def listRotatedArchives (files : LogFiles) : List Archive :=
  if files.candidates = [] then files.legacy.toList
  else files.candidates.insertionSort fun a b => a.mtimeNs ≤ b.mtimeNs

/-- `_decode_archive_chunk` -/
def decodeArchiveChunk (raw : ByteString) : List (List Char) :=
  if raw.getLast? = some newline then splitlines (decode raw)
  else splitlines ((decode raw).rdropWhile (· != '\n')).dropLast

/-- The archives of an upgraded installation: without fingerprints in the cursor, those before its last
update count as read. -/
def historical (offset size : ℕ) (cursorMeta : Option String) (updatedNs : Option ℤ) (unconsumed : List Archive) :
    List Archive :=
  match updatedNs with
  | some ns =>
    if 0 < offset ∧ offset ≤ size ∧ isRotarchMeta cursorMeta = false then unconsumed.filter (·.mtimeNs < ns) else []
  | none => []

/-- The oldest archive that can be read and is long enough for the offset. -/
def pivot (uncompressed : Archive → Option ByteString) (offset : ℕ) (recent : List Archive) : Option Archive :=
  if 0 < offset then
    recent.find? fun a =>
      match uncompressed a with
      | some raw => offset ≤ raw.length
      | none => false
  else none

/-- The lines of the archives; the pivot has been read up to the offset. -/
def archivedLines (uncompressed : Archive → Option ByteString) (offset : ℕ) (pivot : Option Archive)
    (recent : List Archive) : List (List Char) :=
  recent.flatMap fun a =>
    match uncompressed a with
    | none => []
    | some raw => decodeArchiveChunk (if pivot = some a then raw.drop offset else raw)

/-- The archives have to be read before the current file. -/
def needArchiveCatchup (files : LogFiles) (current : ByteString) (offset : ℕ) (pivot : Option Archive)
    (recent : List Archive) : Bool :=
  if recent ≠ [] ∧ (offset = 0 ∨ current.length < offset) then true
  else match pivot.bind files.uncompressed with
    | some raw =>
      let n := min (min 64 offset) (min current.length raw.length)
      raw.take n ≠ current.take n
    | none => false

/-! ## Lines -/

/-- The lines of the current file after the offset, without one that is still being written. -/
def readCurrent (archived : List (List Char)) (tail : ByteString) (offset : ℕ) (cursorMeta : Option String) : TailBatch :=
  let newBytes := (tail.drop offset).rdropWhile (· != newline)
  ⟨archived ++ splitlines (decode newBytes), offset + newBytes.length, cursorMeta⟩

/-- The rest of `_read_new_lines`, once the archives that are to be read are known. -/
def readRound (files : LogFiles) (current tail : ByteString) (offset : ℕ) (cursorMeta newMeta : Option String)
    (recent : List Archive) : TailBatch :=
  let consumed := parseConsumedArchives newMeta
  let pivot := pivot files.uncompressed offset recent
  let readable := recent.filter fun a => (files.uncompressed a).isSome
  let processed := (readable.map archiveFingerprint).dedup
  if needArchiveCatchup files current offset pivot recent then
    -- an archive that cannot be read defers the whole round
    if processed.length = recent.length then
      readCurrent (archivedLines files.uncompressed offset pivot recent) tail 0
        (formatConsumedArchives (consumed ++ processed))
    else ⟨[], offset, cursorMeta⟩
  else if current.length < offset then readCurrent [] tail 0 newMeta
  else if recent ≠ [] ∧ pivot = none then
    -- archives that are all too short for the offset are older than the current file
    if readable.length < recent.length then ⟨[], offset, cursorMeta⟩
    else readCurrent [] tail offset (formatConsumedArchives (consumed ++ processed))
  else readCurrent [] tail offset newMeta

/-- The archives that the cursor does not name. -/
def unconsumedArchives (files : LogFiles) (cursorMeta : Option String) : List Archive :=
  (listRotatedArchives files).filter fun a => archiveFingerprint a ∉ parseConsumedArchives cursorMeta

/-- `_read_new_lines`, where the file has the bytes of `tail` when it is read at last. -/
def readNewLines {D : Type} (lib : Libraries D) (files : LogFiles) (tail : ByteString) (row : Option CursorRow) :
    Except Exn TailBatch :=
  match files.current with
  | none => pure ⟨[], 0, none⟩
  | some current => do
    let offset := row.elim 0 (·.offsetBytes)
    let cursorMeta := row.bind (·.lastTs)
    let updatedNs ← cursorUpdatedAtNs lib (row.bind (·.updatedAt))
    let unconsumed := unconsumedArchives files cursorMeta
    let old := historical offset current.length cursorMeta updatedNs unconsumed
    let newMeta :=
      if old = [] then cursorMeta
      else formatConsumedArchives (parseConsumedArchives cursorMeta ++ old.map archiveFingerprint)
    pure (readRound files current tail offset cursorMeta newMeta (unconsumed.filter (· ∉ old)))

/-! ## One round -/

/-- The archives that are long enough for the offset differ from the current file at their beginning. -/
def HeadsDiffer (files : LogFiles) (current : ByteString) (offset : ℕ) (recent : List Archive) : Prop :=
  ∀ a ∈ recent, ∀ raw, files.uncompressed a = some raw → 0 < offset → offset ≤ current.length →
    offset ≤ raw.length → raw.take (min 64 offset) ≠ current.take (min 64 offset)

variable {files : LogFiles} {current tail : ByteString} {offset : ℕ} {cursorMeta newMeta : Option String}
  {recent : List Archive}

theorem pivot_eq_some {uncompressed : Archive → Option ByteString} {a : Archive}
    (found : pivot uncompressed offset recent = some a) :
    0 < offset ∧ a ∈ recent ∧ ∃ raw, uncompressed a = some raw ∧ offset ≤ raw.length := by
  unfold pivot at found
  split_ifs at found with positive
  have long := List.find?_some found
  refine ⟨positive, List.mem_of_find?_eq_some found, ?_⟩
  split at long
  · rename_i raw read
    exact ⟨raw, read, by simpa using long⟩
  · cases long

/-- A pivot makes the round read the archives. -/
theorem needArchiveCatchup_of_pivot {a : Archive} (differ : HeadsDiffer files current offset recent)
    (found : pivot files.uncompressed offset recent = some a) :
    needArchiveCatchup files current offset (some a) recent = true := by
  obtain ⟨positive, among, raw, read, long⟩ := pivot_eq_some found
  unfold needArchiveCatchup
  split_ifs with missing
  · rfl
  · have inside : offset ≤ current.length := by
      by_contra short
      exact missing ⟨List.ne_nil_of_mem among, .inr (by omega)⟩
    have apart := differ a among raw read positive inside long
    have shortest : min (min 64 offset) (min current.length raw.length) = min 64 offset := by omega
    simpa [read, shortest] using apart

theorem readable_length_lt {uncompressed : Archive → Option ByteString} {a : Archive} (among : a ∈ recent)
    (unread : uncompressed a = none) :
    (recent.filter fun a => (uncompressed a).isSome).length < recent.length := by
  refine lt_of_le_of_ne (List.length_filter_le _ _) fun same => ?_
  have all := List.length_filter_eq_length_iff.mp same a among
  simp [unread] at all

/-- A round with an archive that cannot be read is deferred. -/
theorem readRound_deferred (differ : HeadsDiffer files current offset recent) {a : Archive} (among : a ∈ recent)
    (unread : files.uncompressed a = none) :
    readRound files current tail offset cursorMeta newMeta recent = ⟨[], offset, cursorMeta⟩ := by
  have fewer := readable_length_lt among unread
  have incomplete : ((recent.filter fun a => (files.uncompressed a).isSome).map archiveFingerprint).dedup.length ≠
      recent.length := by
    have shorter := (List.dedup_sublist ((recent.filter fun a => (files.uncompressed a).isSome).map
      archiveFingerprint)).length_le
    rw [List.length_map] at shorter
    omega
  unfold readRound
  cases found : pivot files.uncompressed offset recent with
  | some b => simp only [needArchiveCatchup_of_pivot differ found, if_true, if_neg incomplete]
  | none =>
    simp only [if_neg incomplete, if_pos fewer]
    split_ifs with needed short unmatched
    · rfl
    · exact absurd (by simp [needArchiveCatchup, List.ne_nil_of_mem among, short]) needed
    · rfl
    · exact absurd ⟨List.ne_nil_of_mem among, trivial⟩ unmatched

/-- A round that reads all archives starts from the beginning of the current file. -/
theorem readRound_caughtUp (differ : HeadsDiffer files current offset recent)
    (all : ∀ a ∈ recent, (files.uncompressed a).isSome) (distinct : (recent.map archiveFingerprint).Nodup)
    {a : Archive} {raw : ByteString} (first : recent.head? = some a) (read : files.uncompressed a = some raw)
    (long : offset ≤ raw.length) :
    readRound files current tail offset cursorMeta newMeta recent =
      readCurrent (archivedLines files.uncompressed offset (if 0 < offset then some a else none) recent) tail 0
        (formatConsumedArchives (parseConsumedArchives newMeta ++ recent.map archiveFingerprint)) := by
  have filled : recent ≠ [] := by
    rintro rfl
    cases first
  have whole : recent.filter (fun a => (files.uncompressed a).isSome) = recent := List.filter_eq_self.mpr all
  have found : pivot files.uncompressed offset recent = if 0 < offset then some a else none := by
    obtain ⟨others, rfl⟩ := List.head?_eq_some_iff.mp first
    simp [pivot, read, long]
  have needed : needArchiveCatchup files current offset (if 0 < offset then some a else none) recent = true := by
    split_ifs at found ⊢ with positive
    · exact needArchiveCatchup_of_pivot differ found
    · have cold : offset = 0 := by omega
      simp [needArchiveCatchup, filled, cold]
  unfold readRound
  simp only [found, whole, distinct.dedup, needed, List.length_map, if_true]

/-- Without archives the current file is read from the offset. -/
theorem readRound_nil (inside : offset ≤ current.length) :
    readRound files current tail offset cursorMeta newMeta [] = readCurrent [] tail offset newMeta := by
  have unneeded : needArchiveCatchup files current offset (pivot files.uncompressed offset []) [] = false := by
    simp [needArchiveCatchup, pivot]
  simp [readRound, unneeded, Nat.not_lt.mpr inside]

/-! ## Fingerprints in the cursor -/

theorem comma_not_mem_digits (n : ℕ) : ',' ∉ (toString n).toList := by
  intro among
  rw [show (toString n).toList = Nat.toDigits 10 n from Nat.toList_repr] at among
  have digit := Nat.isDigit_of_mem_toDigits (by decide) (by decide) among
  cases digit

theorem comma_not_mem_int (z : ℤ) : ',' ∉ (toString z).toList := by
  cases z with
  | ofNat n => exact comma_not_mem_digits n
  | negSucc n =>
    have signed : (toString (Int.negSucc n)).toList = '-' :: (toString (n + 1)).toList := by
      rw [show toString (Int.negSucc n) = "-" ++ toString (n + 1) from rfl, String.toList_append]
      rfl
    rw [signed, List.mem_cons, not_or]
    exact ⟨by decide, comma_not_mem_digits (n + 1)⟩

theorem comma_not_mem_archiveFingerprint (a : Archive) : ',' ∉ archiveFingerprint a := by
  simp only [archiveFingerprint, List.mem_append, List.mem_cons, not_or]
  exact ⟨⟨⟨by decide, a.plain⟩, by decide, comma_not_mem_int a.mtimeNs⟩, by decide, comma_not_mem_digits a.size⟩

theorem archiveFingerprint_ne_nil (a : Archive) : archiveFingerprint a ≠ [] :=
  List.append_ne_nil_of_right_ne_nil _ (List.cons_ne_nil _ _)

/-- The fingerprints that are written are read. -/
theorem mem_parse_format {fps : List (List Char)} (plain : ∀ fp ∈ fps, fp ≠ [] ∧ ',' ∉ fp) (fp : List Char) :
    fp ∈ parseConsumedArchives (formatConsumedArchives fps) ↔ fp ∈ fps := by
  unfold formatConsumedArchives
  split_ifs with empty
  · simp [parseConsumedArchives, empty]
  · have filled : fps.dedup.insertionSort (· ≤ ·) ≠ [] := by
      intro none
      have length := congrArg List.length none
      rw [List.length_insertionSort, List.length_nil, List.length_eq_zero_iff, List.dedup_eq_nil] at length
      exact empty length
    have apart : ∀ l ∈ fps.dedup.insertionSort (· ≤ ·), ',' ∉ l := by
      intro l among
      exact (plain l (List.mem_dedup.mp ((List.mem_insertionSort _).mp among))).2
    simp only [parseConsumedArchives, String.toList_ofList, List.prefix_append, if_true, List.drop_left]
    rw [List.splitOn_intercalate ',' apart filled, List.mem_filter, List.mem_insertionSort, List.mem_dedup]
    constructor
    · exact fun both => both.1
    · exact fun among => ⟨among, decide_eq_true (plain fp among).1⟩

end LocalWebAccess.Pageviews
