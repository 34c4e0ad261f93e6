import LocalWebAccess.GuardedRuns
import LocalWebAccess.LogTail
import LocalWebAccess.PageviewCalls

/-!
# Tailing a log that is only appended to

An ingest looks at the cursor and the log, reads what the file has after the offset, and commits the
hits of the lines together with the next cursor. The writer may append any bytes in between, and an
ingest may fail at any point. The lines of the committed batches are the complete records of the
file, but for the line boundaries that only the text has.
-/
namespace LocalWebAccess.Pageviews

open GuardedRuns PythonText Utf8Replacement

/-- A log with its cursor, and how its lines are parsed and attributed to instances. -/
structure LogSource (D : Type) where
  lib : Libraries D
  cursorKey : String
  source : String
  hitsOf : Clock D → List (List Char) → Except Exn (List (String × List (Access D)))

/-- The moment and the course of one commit. -/
structure Moment (D : Type) where
  clock : Clock D
  /-- `now_iso()` -/
  now : String
  outlook : List (Option (SqlConnections.Failure Exn))

variable {D : Type}

/-- What `_ingest_builtin` and `_ingest_caddy_shared` do with a batch. -/
def commitBatch (log : LogSource D) (t : Tables) (batch : TailBatch) (m : Moment D) : Except Exn ℕ × Tables :=
  match log.hitsOf m.clock batch.lines with
  | .error e => (.error e, t)
  | .ok perInstance =>
    let ended := Request.result log.lib t
      ⟨.recordFileBatch perInstance log.source log.cursorKey ⟨batch.nextOffset, batch.cursorMeta, some m.now⟩,
        m.outlook⟩
    (ended.1, ended.2.committed)

/-- A batch that is committed has its cursor written. -/
theorem commitBatch_ok {log : LogSource D} {t u : Tables} {batch : TailBatch} {m : Moment D} {n : ℕ}
    (committed : commitBatch log t batch m = (.ok n, u)) :
    u.cursors.lookup log.cursorKey = some ⟨batch.nextOffset, batch.cursorMeta, some m.now⟩ := by
  unfold commitBatch at committed
  split at committed
  · cases committed
  · rename_i perInstance attributed
    obtain ⟨returned, tables⟩ := Prod.mk.inj committed
    have written := (Request.result_of_ok log.lib (Prod.ext returned rfl)).1
    rw [← tables, written, Call.written, batchRecorded, upsertCursor, KeyedTables.Table.lookup_upsert, if_pos rfl]
    cases AList.lookup log.cursorKey _ <;> rfl

/-- A batch that is not committed has changed nothing. -/
theorem commitBatch_error {log : LogSource D} {t u : Tables} {batch : TailBatch} {m : Moment D} {e : Exn}
    (failed : commitBatch log t batch m = (.error e, u)) : u = t := by
  unfold commitBatch at failed
  split at failed
  · cases failed
    rfl
  · obtain ⟨raised, tables⟩ := Prod.mk.inj failed
    exact tables.symm.trans (Request.result_of_error log.lib (Prod.ext raised rfl)).1

/-! ## The system -/

/-- Where the ingest of the log stands. -/
inductive Reader where
  | idle
  /-- The cursor has been read, and the file has been seen. -/
  | opened (row : Option CursorRow) (current : Option ByteString)
  /-- The batch has been read, when there were these bytes. -/
  | read (batch : TailBatch) (present : ByteString)

structure TailState where
  file : Option ByteString
  tables : Tables
  reader : Reader
  /-- The lines of the batches that have been committed. -/
  delivered : List (List Char)
  /-- The bytes that the last of these batches was read from. -/
  ingested : ByteString

inductive TailAction (D : Type) where
  | append (bytes : ByteString)
  | look
  | readTail
  | commit (m : Moment D)
  | fail

/-- The files of a log that is never rotated. -/
def unrotated (current : Option ByteString) : LogFiles := ⟨current, [], none, fun _ => none⟩

/-- What is read from a file that has been seen before. A file that was missing is not read. -/
def presentBytes (seen file : Option ByteString) : ByteString :=
  match seen with
  | none => []
  | some _ => file.getD []

def tailStep (log : LogSource D) (s : TailState) : TailAction D → Option TailState
  | .append bytes => some { s with file := some (s.file.getD [] ++ bytes) }
  | .look =>
    match s.reader with
    | .idle => some { s with reader := .opened (s.tables.cursors.lookup log.cursorKey) s.file }
    | _ => none
  | .readTail =>
    match s.reader with
    | .opened row seen =>
      match readNewLines log.lib (unrotated seen) (s.file.getD []) row with
      | .ok batch => some { s with reader := .read batch (presentBytes seen s.file) }
      | .error _ => some { s with reader := .idle }
    | _ => none
  | .commit m =>
    match s.reader with
    | .read batch present =>
      match commitBatch log s.tables batch m with
      | (.ok _, t) =>
        some { s with
          tables := t
          reader := .idle
          delivered := s.delivered ++ batch.lines
          ingested := present }
      | (.error _, t) => some { s with tables := t, reader := .idle }
    | _ => none
  | .fail =>
    match s.reader with
    | .idle => none
    | _ => some { s with reader := .idle }

/-- Nothing has been logged, and the store is new. -/
def tailStart : TailState := ⟨none, .empty, .idle, [], []⟩

/-! ## One reading -/

/-- Without archives the lines after the offset are read. -/
theorem readNewLines_unrotated {lib : Libraries D} {current tail : ByteString} {row : Option CursorRow} {batch : TailBatch}
    (inside : row.elim 0 (·.offsetBytes) ≤ current.length)
    (read : readNewLines lib (unrotated (some current)) tail row = .ok batch) :
    batch = readCurrent [] tail (row.elim 0 (·.offsetBytes)) (row.bind (·.lastTs)) := by
  unfold readNewLines at read
  obtain ⟨updatedNs, -, read⟩ := except_bind_eq_ok.mp read
  have unarchived (cursorMeta : Option String) : unconsumedArchives (unrotated (some current)) cursorMeta = [] := rfl
  have old : historical (row.elim 0 (·.offsetBytes)) current.length (row.bind (·.lastTs)) updatedNs [] = [] := by
    unfold historical
    split
    · simp
    · rfl
  simp only [unarchived, old, List.filter_nil, if_true, readRound_nil inside] at read
  exact (Except.ok.inj read).symm

/-- After complete records, the bytes up to the last newline are complete records as well. -/
theorem rdropWhile_drop (before after : List ByteString) {rest : ByteString} (unfinished : IsRecord rest) :
    ((unlines (before ++ after) ++ rest).drop (unlines before).length).rdropWhile (· != newline) = unlines after := by
  rw [unlines_append, List.append_assoc, List.drop_left, rdropWhile_unlines after unfinished]

/-- The records of some bytes are the first ones of longer ones. -/
theorem records_append (front rest : ByteString) : records front <+: records (front ++ rest) := by
  obtain ⟨written, unread, rfl, all, unfinished⟩ := exists_unlines front
  rw [records_unlines all unfinished]
  obtain ⟨later, unread', split, all', unfinished'⟩ := exists_unlines (unread ++ rest)
  have longer : unlines written ++ unread ++ rest = unlines (written ++ later) ++ unread' := by
    rw [unlines_append, List.append_assoc, split, List.append_assoc]
  have both : ∀ r ∈ written ++ later, IsRecord r := fun r among =>
    (List.mem_append.mp among).elim (all r) (all' r)
  rw [longer, records_unlines both unfinished']
  exact List.prefix_append written later

/-- What a reading finds after the records before its offset. -/
theorem readCurrent_records {front tail : ByteString} (archived : List (List Char)) (cursorMeta : Option String)
    (grown : front <+: tail) :
    ∃ later, records tail = records front ++ later ∧
      readCurrent archived tail (unlines (records front)).length cursorMeta =
        ⟨archived ++ splitlines (decode (unlines later)), (unlines (records tail)).length, cursorMeta⟩ := by
  obtain ⟨rest, rfl⟩ := grown
  obtain ⟨later, split⟩ := records_append front rest
  obtain ⟨written, unread, bytes, all, unfinished⟩ := exists_unlines (front ++ rest)
  have same : records (front ++ rest) = written := by rw [bytes, records_unlines all unfinished]
  refine ⟨later, split.symm, ?_⟩
  have found : ((front ++ rest).drop (unlines (records front)).length).rdropWhile (· != newline) = unlines later := by
    rw [bytes, ← same, ← split]
    exact rdropWhile_drop _ _ unfinished
  rw [readCurrent, found, ← split, unlines_append, List.length_append]

theorem length_unlines_records (bytes : ByteString) : (unlines (records bytes)).length ≤ bytes.length := by
  obtain ⟨written, unread, rfl, all, unfinished⟩ := exists_unlines bytes
  rw [records_unlines all unfinished, List.length_append]
  omega

/-! ## The invariant -/

/-- The cursor of the log stands after some records. -/
def CursorAt (log : LogSource D) (t : Tables) (rs : List ByteString) : Prop :=
  (t.cursors.lookup log.cursorKey).elim 0 (·.offsetBytes) = (unlines rs).length

/-- What the ingest has in hands fits what it has delivered before. -/
def Reader.Fits (log : LogSource D) (s : TailState) : Reader → Prop
  | .idle => True
  | .opened row seen => row = s.tables.cursors.lookup log.cursorKey ∧ s.ingested <+: seen.getD [] ∧
      seen.getD [] <+: s.file.getD []
  | .read batch present => present <+: s.file.getD [] ∧
      ∃ later, records present = records s.ingested ++ later ∧
        batch.lines = splitlines (decode (unlines later)) ∧ batch.nextOffset = (unlines (records present)).length

/-- The lines that have been delivered are those of the records that have been ingested. -/
structure Tailed (log : LogSource D) (s : TailState) : Prop where
  delivered : s.delivered = splitlines (decode (unlines (records s.ingested)))
  cursor : CursorAt log s.tables (records s.ingested)
  grown : s.ingested <+: s.file.getD []
  reader : s.reader.Fits log s

theorem tailed_start (log : LogSource D) : Tailed log tailStart := by
  constructor
  · rfl
  · rfl
  · exact List.nil_prefix
  · trivial

/-- What the ingest reads are the records after those that have been ingested. -/
theorem Tailed.read {log : LogSource D} {s : TailState} (h : Tailed log s) {row : Option CursorRow}
    {seen : Option ByteString} {batch : TailBatch} (row_eq : row = s.tables.cursors.lookup log.cursorKey)
    (ingested : s.ingested <+: seen.getD []) (seen_le : seen.getD [] <+: s.file.getD [])
    (read : readNewLines log.lib (unrotated seen) (s.file.getD []) row = .ok batch) :
    Reader.Fits log s (.read batch (presentBytes seen s.file)) := by
  cases seen with
  | none =>
    cases read
    have nothing : s.ingested = [] := List.prefix_nil.mp ingested
    exact ⟨List.nil_prefix, [], by rw [nothing]; rfl, rfl, rfl⟩
  | some current =>
    have offset : row.elim 0 (·.offsetBytes) = (unlines (records s.ingested)).length := row_eq ▸ h.cursor
    have inside : row.elim 0 (·.offsetBytes) ≤ current.length :=
      offset ▸ (length_unlines_records s.ingested).trans ingested.length_le
    obtain ⟨later, split, lines⟩ := readCurrent_records [] (row.bind (·.lastTs)) h.grown
    have found := readNewLines_unrotated inside read
    rw [offset, lines] at found
    subst found
    exact ⟨List.prefix_refl _, later, split, rfl, rfl⟩

theorem Tailed.onward {log : LogSource D} {s t : TailState} {a : TailAction D} (h : Tailed log s)
    (h' : tailStep log s a = some t) : Tailed log t := by
  cases a with
  | append bytes =>
    cases h'
    have longer : s.file.getD [] <+: (some (s.file.getD [] ++ bytes)).getD [] := List.prefix_append _ _
    refine ⟨h.delivered, h.cursor, h.grown.trans longer, ?_⟩
    have fits := h.reader
    cases reader : s.reader with
    | idle => trivial
    | opened row seen =>
      rw [reader] at fits
      exact ⟨fits.1, fits.2.1, fits.2.2.trans longer⟩
    | read batch present =>
      rw [reader] at fits
      exact ⟨fits.1.trans longer, fits.2⟩
  | look =>
    simp only [tailStep] at h'
    split at h'
    · cases h'
      exact ⟨h.delivered, h.cursor, h.grown, rfl, h.grown, List.prefix_refl _⟩
    · cases h'
  | readTail =>
    simp only [tailStep] at h'
    split at h'
    · rename_i row seen reader
      have fits := h.reader
      rw [reader] at fits
      obtain ⟨row_eq, ingested, seen_le⟩ := fits
      split at h'
      · rename_i batch read
        cases h'
        exact ⟨h.delivered, h.cursor, h.grown, h.read row_eq ingested seen_le read⟩
      · cases h'
        exact ⟨h.delivered, h.cursor, h.grown, trivial⟩
    · cases h'
  | commit m =>
    simp only [tailStep] at h'
    split at h'
    · rename_i batch present reader
      have fits := h.reader
      rw [reader] at fits
      obtain ⟨present_le, later, split, lines, next⟩ := fits
      split at h'
      · rename_i n u committed
        cases h'
        refine ⟨?_, ?_, present_le, trivial⟩
        · rw [h.delivered, lines, split, splitlines_unlines_append]
        · rw [CursorAt, commitBatch_ok committed]
          exact next
      · rename_i e u failed
        cases h'
        obtain rfl := commitBatch_error failed
        exact ⟨h.delivered, h.cursor, h.grown, trivial⟩
    · cases h'
  | fail =>
    simp only [tailStep] at h'
    split at h'
    · cases h'
    · cases h'
      exact ⟨h.delivered, h.cursor, h.grown, trivial⟩

theorem tailed_of_run {log : LogSource D} {as : List (TailAction D)} {s : TailState}
    (run : Run (tailStep log) anyStep tailStart as s) : Tailed log s :=
  run.invariant (P := Tailed log) (tailed_start log) fun _ _ _ h _ enabled => h.onward enabled

/-- The lines of the committed batches are the complete records of the file at the last of these
ingests, each once and in order, if and only if no record has a line boundary other than its newline. -/
theorem delivered_eq_records_iff {log : LogSource D} {as : List (TailAction D)} {s : TailState}
    (run : Run (tailStep log) anyStep tailStart as s) :
    s.delivered = (records s.ingested).map decode ↔ ∀ r ∈ records s.ingested, IsLine (decode r) := by
  rw [(tailed_of_run run).delivered]
  exact splitlines_unlines_eq_iff (records s.ingested)

/-- A log each of whose lines is a page view of one instance. -/
def gatewayLog : LogSource ℕ where
  lib := hourly
  cursorKey := builtinCursorKey "a"
  source := "builtin"
  hitsOf clock lines := .ok [("a", lines.map fun _ => (⟨"12", "GET", "/", 200, "x"⟩, clock))]

def noon : Moment ℕ := ⟨⟨12, 12⟩, "12", []⟩

/-- A commit that fails as the database is locked. -/
def locked : Moment ℕ := ⟨⟨12, 12⟩, "12", [some ⟨.sqliteError "database is locked", false⟩]⟩

/-- The first commit fails, and a record is completed before the second reading. -/
theorem delivered_eq_records_iff_retried : ∃ as s, Run (tailStep gatewayLog) anyStep tailStart as s ∧
    s.delivered = (records [0x61, 0x0a, 0x62, 0x63, 0x0a]).map decode := by
  have ends : (exec (tailStep gatewayLog) tailStart
      [.append [0x61, 0x0a, 0x62], .look, .readTail, .commit locked, .append [0x63, 0x0a], .look, .readTail,
        .commit noon]).map TailState.ingested = some [0x61, 0x0a, 0x62, 0x63, 0x0a] := by decide +kernel
  obtain ⟨s, ran, ingested⟩ := Option.map_eq_some_iff.mp ends
  have run := Run.of_exec ran
  have clean : ∀ r ∈ records s.ingested, IsLine (decode r) := by
    rw [ingested]
    decide
  exact ⟨_, s, run, ingested ▸ (delivered_eq_records_iff run).mpr clean⟩

/-- A form feed within a record: it is delivered in two lines. -/
theorem form_feed_splits_record : ∃ as s, Run (tailStep gatewayLog) anyStep tailStart as s ∧
    records s.ingested = [[0x61, 0x0c, 0x62]] ∧ s.delivered = [['a'], ['b']] ∧
    s.delivered ≠ (records s.ingested).map decode := by
  have ends : (exec (tailStep gatewayLog) tailStart
      [.append [0x61, 0x0c, 0x62, 0x0a], .look, .readTail, .commit noon]).map
      (fun s => (records s.ingested, s.delivered)) = some ([[0x61, 0x0c, 0x62]], [['a'], ['b']]) := by decide +kernel
  obtain ⟨s, ran, both⟩ := Option.map_eq_some_iff.mp ends
  obtain ⟨ingested, delivered⟩ := Prod.mk.inj both
  refine ⟨_, s, Run.of_exec ran, ingested, delivered, ?_⟩
  rw [ingested, delivered]
  decide

end LocalWebAccess.Pageviews
