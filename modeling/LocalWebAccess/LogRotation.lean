import LocalWebAccess.LogTailing

/-!
# Rotations of a log

The roller turns the file of a log into an archive and starts an empty one. Any number of rotations
lie between two ingests, and an archive may be unreadable at some of them. What has been read of the
generations is a front part of all lines: the archives that the cursor names, and in the next
generation the lines before the offset.
-/
namespace LocalWebAccess.Pageviews

open GuardedRuns PythonText Utf8Replacement

/-- A rotated file with what has been written in it. -/
structure Generation where
  archive : Archive
  lines : List ByteString
deriving DecidableEq

structure RotationState where
  /-- The rotated files, the oldest first. -/
  closed : List Generation
  /-- The archives that have been removed. -/
  pruned : List Archive
  file : Option (List ByteString)
  tables : Tables
  /-- The lines of the batches that have been committed. -/
  delivered : List (List Char)
  /-- All lines that have ever been written. -/
  appended : List ByteString

inductive RotationAction (D : Type) where
  | append (line : ByteString)
  | rotate (archive : Archive)
  | prune (archive : Archive)
  /-- An ingest finds the archives in this order, and these of them can be read. -/
  | ingest (listing : List Archive) (readable : Archive → Bool) (m : Moment D)

/-- The first bytes of a generation. -/
def headOf (lines : List ByteString) : ByteString := (unlines lines).take 64

variable {D : Type}

namespace RotationState

/-- What is written in the current file. -/
def current (s : RotationState) : List ByteString := s.file.getD []

def onDisk (s : RotationState) : List Archive := (s.closed.map (·.archive)).filter (· ∉ s.pruned)

def contentOf (s : RotationState) (a : Archive) : Option ByteString :=
  (s.closed.find? (·.archive = a)).map fun g => unlines g.lines

def files (s : RotationState) (listing : List Archive) (readable : Archive → Bool) : LogFiles where
  current := s.file.map unlines
  candidates := listing
  legacy := none
  uncompressed a := if readable a then s.contentOf a else none

def cursor (s : RotationState) (log : LogSource D) : Option CursorRow := s.tables.cursors.lookup log.cursorKey

def cursorMeta (s : RotationState) (log : LogSource D) : Option String := (s.cursor log).bind (·.lastTs)

end RotationState

/-- One ingest of the log. -/
def ingest (log : LogSource D) (s : RotationState) (listing : List Archive) (readable : Archive → Bool)
    (m : Moment D) : Except Exn Unit × RotationState :=
  match readNewLines log.lib (s.files listing readable) (unlines s.current) (s.cursor log) with
  | .error e => (.error e, s)
  | .ok batch =>
    match commitBatch log s.tables batch m with
    | (.error e, t) => (.error e, { s with tables := t })
    | (.ok _, t) => (.ok (), { s with tables := t, delivered := s.delivered ++ batch.lines })

def rotationStep (log : LogSource D) (s : RotationState) : RotationAction D → Option RotationState
  | .append line =>
    if IsRecord line ∧ 64 ≤ line.length + 1 ∧ ∀ g ∈ s.closed, headOf (s.current ++ [line]) ≠ headOf g.lines then
      some { s with file := some (s.current ++ [line]), appended := s.appended ++ [line] }
    else none
  | .rotate archive =>
    if s.current ≠ [] ∧ ∀ g ∈ s.closed, g.archive.mtimeNs < archive.mtimeNs ∧
        archiveFingerprint g.archive ≠ archiveFingerprint archive then
      some { s with closed := s.closed ++ [⟨archive, s.current⟩], file := some [] }
    else none
  | .prune archive =>
    -- an archive is not removed before it has been read
    if archive ∈ s.onDisk ∧ archiveFingerprint archive ∈ parseConsumedArchives (s.cursorMeta log) then
      some { s with pruned := archive :: s.pruned }
    else none
  | .ingest listing readable m =>
    if listing.Perm s.onDisk then some (ingest log s listing readable m).2 else none

/-- Nothing has been logged, and the store is new. -/
def rotationStart : RotationState := ⟨[], [], none, .empty, [], []⟩

/-- The archives that an ingest would count as read though the cursor does not name them. -/
def overlooked (log : LogSource D) (s : RotationState) (listing : List Archive) (readable : Archive → Bool) :
    List Archive :=
  match cursorUpdatedAtNs log.lib ((s.cursor log).bind (·.updatedAt)) with
  | .error _ => []
  | .ok updatedNs =>
    historical ((s.cursor log).elim 0 (·.offsetBytes)) (unlines s.current).length (s.cursorMeta log) updatedNs
      (unconsumedArchives (s.files listing readable) (s.cursorMeta log))

/-- A line has no line boundary but its newline, and an ingest overlooks no archive, unless it defers. -/
def Kept (log : LogSource D) (s : RotationState) : RotationAction D → Prop
  | .append line => IsLine (decode line)
  | .ingest listing readable _ =>
    overlooked log s listing readable = [] ∨
      ∃ a ∈ s.onDisk, archiveFingerprint a ∉ parseConsumedArchives (s.cursorMeta log) ∧
        a ∉ overlooked log s listing readable ∧ readable a = false
  | _ => True

/-! ## The files -/

/-- What is known of the lines and archives in every state. -/
structure WellLogged (s : RotationState) : Prop where
  appended : s.appended = s.closed.flatMap (·.lines) ++ s.current
  lines : ∀ line ∈ s.appended, IsRecord line ∧ 64 ≤ line.length + 1
  filled : ∀ g ∈ s.closed, g.lines ≠ []
  later : s.closed.Pairwise fun g g' => g.archive.mtimeNs < g'.archive.mtimeNs ∧
    archiveFingerprint g.archive ≠ archiveFingerprint g'.archive
  heads : s.current ≠ [] → ∀ g ∈ s.closed, headOf s.current ≠ headOf g.lines
  missing : s.file = none → s.closed = []
  pruned : ∀ a ∈ s.pruned, ∃ g ∈ s.closed, g.archive = a

theorem wellLogged_start : WellLogged rotationStart := by
  constructor <;> simp [rotationStart, RotationState.current]

variable {log : LogSource D} {s : RotationState} {listing : List Archive} {readable : Archive → Bool}

theorem WellLogged.lines_of_mem (h : WellLogged s) {g : Generation} (among : g ∈ s.closed) {line : ByteString}
    (written : line ∈ g.lines) : line ∈ s.appended := by
  rw [h.appended]
  exact List.mem_append_left _ (List.mem_flatMap.mpr ⟨g, among, written⟩)

/-- A generation is known by its time. -/
theorem WellLogged.eq_of_mtimeNs (h : WellLogged s) {g g' : Generation} (among : g ∈ s.closed) (among' : g' ∈ s.closed)
    (same : g.archive.mtimeNs = g'.archive.mtimeNs) : g = g' := by
  have distinct : (s.closed.map (·.archive.mtimeNs)).Nodup :=
    List.pairwise_map.mpr (h.later.imp fun both => both.1.ne)
  exact List.inj_on_of_nodup_map distinct among among' same

theorem exists_of_mem_onDisk {a : Archive} (among : a ∈ s.onDisk) : ∃ g ∈ s.closed, g.archive = a :=
  List.mem_map.mp (List.mem_filter.mp among).1

/-- The directory lists the archives in any order, and they are read in that of the generations. -/
theorem WellLogged.listRotatedArchives_eq (h : WellLogged s) (found : listing.Perm s.onDisk) :
    listRotatedArchives (s.files listing readable) = s.onDisk := by
  have newer : s.onDisk.Pairwise fun a b => a.mtimeNs < b.mtimeNs :=
    (List.pairwise_map.mpr (h.later.imp fun both => both.1)).filter _
  have : Std.Total fun a b : Archive => a.mtimeNs ≤ b.mtimeNs := ⟨fun a b => Int.le_total _ _⟩
  have : IsTrans Archive fun a b => a.mtimeNs ≤ b.mtimeNs := ⟨fun a b c => Int.le_trans⟩
  have perm := (List.perm_insertionSort (fun a b : Archive => a.mtimeNs ≤ b.mtimeNs) listing).trans found
  have sorted : listing.insertionSort (fun a b => a.mtimeNs ≤ b.mtimeNs) = s.onDisk := by
    refine List.Perm.eq_of_pairwise ?_ (List.pairwise_insertionSort _ _) (newer.imp Int.le_of_lt) perm
    intro a b among among' below above
    obtain ⟨g, closed, rfl⟩ := exists_of_mem_onDisk (perm.mem_iff.mp among)
    obtain ⟨g', closed', rfl⟩ := exists_of_mem_onDisk among'
    rw [h.eq_of_mtimeNs closed closed' (Int.le_antisymm below above)]
  unfold listRotatedArchives
  split_ifs with empty
  · rw [← sorted, show listing = [] from empty]
    rfl
  · exact sorted

theorem WellLogged.contentOf_eq (h : WellLogged s) {g : Generation} (among : g ∈ s.closed) :
    s.contentOf g.archive = some (unlines g.lines) := by
  have there : (s.closed.find? (·.archive = g.archive)).isSome :=
    List.find?_isSome.mpr ⟨g, among, decide_eq_true rfl⟩
  obtain ⟨g', first⟩ := Option.isSome_iff_exists.mp there
  have same : g'.archive = g.archive := by simpa using List.find?_some first
  obtain rfl := h.eq_of_mtimeNs (List.mem_of_find?_eq_some first) among (congrArg _ same)
  rw [RotationState.contentOf, first, Option.map_some]

/-! ## Reading whole lines -/

theorem decodeArchiveChunk_unlines (lines : List ByteString) :
    decodeArchiveChunk (unlines lines) = splitlines (decode (unlines lines)) := by
  unfold decodeArchiveChunk
  split_ifs with ended
  · rfl
  · have none : lines = [] := by
      rcases List.eq_nil_or_concat lines with empty | ⟨before, last, rfl⟩
      · exact empty
      · refine absurd ?_ ended
        rw [List.concat_eq_append, unlines_append]
        simp [unlines]
    rw [none]
    rfl

/-- The lines after the offset, where the file ends with a newline. -/
theorem readCurrent_unlines (archived : List (List Char)) (cursorMeta : Option String) (before after : List ByteString) :
    readCurrent archived (unlines (before ++ after)) (unlines before).length cursorMeta =
      ⟨archived ++ splitlines (decode (unlines after)), (unlines (before ++ after)).length, cursorMeta⟩ := by
  have ended : IsRecord [] := List.not_mem_nil
  have found := rdropWhile_drop before after ended
  rw [List.append_nil] at found
  rw [readCurrent, found, unlines_append, List.length_append]

/-- A generation with a line has at least so many bytes. -/
theorem sixty_four_le_length {lines : List ByteString} (long : ∀ line ∈ lines, 64 ≤ line.length + 1) (filled : lines ≠ []) :
    64 ≤ (unlines lines).length := by
  cases lines with
  | nil => exact absurd rfl filled
  | cons line lines =>
    have first := long line List.mem_cons_self
    rw [show unlines (line :: lines) = line ++ [newline] ++ unlines lines from rfl]
    simp only [List.length_append, List.length_singleton]
    omega

/-- Further lines leave the beginning of a generation as it is. -/
theorem headOf_append {lines : List ByteString} (long : ∀ line ∈ lines, 64 ≤ line.length + 1) (filled : lines ≠ [])
    (more : List ByteString) : headOf (lines ++ more) = headOf lines := by
  rw [headOf, headOf, unlines_append]
  exact List.take_append_of_le_length (sixty_four_le_length long filled)

/-- Whole generations after the rest of the one that the offset belongs to. -/
theorem archivedLines_unlines {uncompressed : Archive → Option ByteString} {g : Generation} {others : List Generation}
    {front rest : List ByteString} (first : g.lines = front ++ rest)
    (read : ∀ g' ∈ g :: others, uncompressed g'.archive = some (unlines g'.lines))
    (apart : ∀ g' ∈ others, g.archive ≠ g'.archive) :
    archivedLines uncompressed (unlines front).length (if 0 < (unlines front).length then some g.archive else none)
      ((g :: others).map (·.archive)) = splitlines (decode (unlines (rest ++ others.flatMap (·.lines)))) := by
  have begun : (if (if 0 < (unlines front).length then some g.archive else none) = some g.archive then
      (unlines g.lines).drop (unlines front).length else unlines g.lines) = unlines rest := by
    by_cases positive : 0 < (unlines front).length
    · rw [if_pos positive, if_pos rfl, first, unlines_append, List.drop_left]
    · have nothing : unlines front = [] := List.eq_nil_of_length_eq_zero (Nat.eq_zero_of_not_pos positive)
      rw [if_neg positive, if_neg (Option.some_ne_none _).symm, first, unlines_append, nothing, List.nil_append]
  have whole (others' : List Generation) (among : ∀ g' ∈ others', g' ∈ others) :
      archivedLines uncompressed (unlines front).length (if 0 < (unlines front).length then some g.archive else none)
        (others'.map (·.archive)) = splitlines (decode (unlines (others'.flatMap (·.lines)))) := by
    induction others' with
    | nil => rfl
    | cons g' others' ih =>
      have mem := among g' List.mem_cons_self
      have unpivoted : (if 0 < (unlines front).length then some g.archive else none) ≠ some g'.archive := by
        split_ifs
        · exact fun same => apart g' mem (Option.some.inj same)
        · exact (Option.some_ne_none _).symm
      have step := ih fun g'' later => among g'' (List.mem_cons_of_mem _ later)
      rw [archivedLines] at step ⊢
      rw [List.map_cons, List.flatMap_cons, step, List.flatMap_cons, splitlines_unlines_append,
        read g' (List.mem_cons_of_mem _ mem)]
      simp only [if_neg unpivoted, decodeArchiveChunk_unlines]
  have after := whole others fun _ among => among
  rw [archivedLines] at after ⊢
  rw [List.map_cons, List.flatMap_cons, after, splitlines_unlines_append, read g List.mem_cons_self]
  simp only [begun, decodeArchiveChunk_unlines]

/-! ## What has been read -/

/-- Where the cursor stands: the generations that have been read, those that have not, and the lines
before and after the offset in the first of these or in the current file. -/
structure Position (log : LogSource D) (s : RotationState) where
  read : List Generation
  unread : List Generation
  front : List ByteString
  rest : List ByteString
  later : List (List ByteString)
  closed : s.closed = read ++ unread
  ahead : unread.map (·.lines) ++ [s.current] = (front ++ rest) :: later
  cursor : CursorAt log s.tables front
  named : ∀ fp, fp ∈ parseConsumedArchives (s.cursorMeta log) ↔ fp ∈ read.map fun g => archiveFingerprint g.archive
  present : ∀ g ∈ unread, g.archive ∉ s.pruned
  delivered : s.delivered = (read.flatMap (·.lines) ++ front).map decode

namespace Position

/-- The lines that have not been delivered yet. -/
def remaining (p : Position log s) : List ByteString := p.rest ++ p.later.flatten

theorem appended_eq (p : Position log s) (h : WellLogged s) :
    s.appended = p.read.flatMap (·.lines) ++ p.front ++ p.remaining := by
  have flat := congrArg List.flatten p.ahead
  rw [List.flatten_append, List.flatten_singleton, List.flatten_cons, ← List.flatMap_def] at flat
  rw [h.appended, p.closed, List.flatMap_append, List.append_assoc, flat, remaining]
  simp only [List.append_assoc]

theorem delivered_remaining (p : Position log s) (h : WellLogged s) :
    s.delivered ++ p.remaining.map decode = s.appended.map decode := by
  rw [p.delivered, ← List.map_append, ← p.appended_eq h]

theorem mem_closed (p : Position log s) {g : Generation} (among : g ∈ p.unread) : g ∈ s.closed :=
  p.closed ▸ List.mem_append_right _ among

/-- The archives that the cursor does not name are those of the generations that have not been read. -/
theorem unconsumedArchives_eq (p : Position log s) (h : WellLogged s) (found : listing.Perm s.onDisk) :
    unconsumedArchives (s.files listing readable) (s.cursorMeta log) = p.unread.map (·.archive) := by
  have later := h.later
  rw [p.closed, List.pairwise_append] at later
  have gone : (p.read.map (·.archive)).filter
      (fun a => archiveFingerprint a ∉ parseConsumedArchives (s.cursorMeta log)) = [] := by
    refine List.filter_eq_nil_iff.mpr fun a among => ?_
    obtain ⟨g, read, rfl⟩ := List.mem_map.mp among
    simpa only [decide_eq_true_eq, not_not] using (p.named _).mpr (List.mem_map_of_mem read)
  have there : (p.unread.map (·.archive)).filter (· ∉ s.pruned) = p.unread.map (·.archive) := by
    refine List.filter_eq_self.mpr fun a among => ?_
    obtain ⟨g, unread, rfl⟩ := List.mem_map.mp among
    exact decide_eq_true (p.present g unread)
  have unnamed : (p.unread.map (·.archive)).filter
      (fun a => archiveFingerprint a ∉ parseConsumedArchives (s.cursorMeta log)) = p.unread.map (·.archive) := by
    refine List.filter_eq_self.mpr fun a among => ?_
    obtain ⟨g, unread, rfl⟩ := List.mem_map.mp among
    refine decide_eq_true fun named => ?_
    obtain ⟨g', read, same⟩ := List.mem_map.mp ((p.named _).mp named)
    exact (later.2.2 g' read g unread).2 same
  rw [unconsumedArchives, h.listRotatedArchives_eq found, RotationState.onDisk, p.closed, List.map_append,
    List.filter_append, List.filter_append, there, unnamed, List.filter_comm, gone]
  rfl

theorem uncompressed_eq (p : Position log s) (h : WellLogged s) {g : Generation} (among : g ∈ p.unread) {raw : ByteString}
    (read : (s.files listing readable).uncompressed g.archive = some raw) : raw = unlines g.lines := by
  simp only [RotationState.files, h.contentOf_eq (p.mem_closed among)] at read
  split_ifs at read
  exact (Option.some.inj read).symm

theorem long_front (p : Position log s) (h : WellLogged s) : ∀ line ∈ p.front, 64 ≤ line.length + 1 := by
  intro line among
  refine (h.lines line ?_).2
  rw [p.appended_eq h]
  exact List.mem_append_left _ (List.mem_append_right _ among)

theorem long_current (h : WellLogged s) : ∀ line ∈ s.current, 64 ≤ line.length + 1 := by
  intro line among
  refine (h.lines line ?_).2
  rw [h.appended]
  exact List.mem_append_right _ among

/-- The first bytes of an archive are not those of the current file. -/
theorem headsDiffer (p : Position log s) (h : WellLogged s) {recent : List Archive}
    (among : ∀ a ∈ recent, a ∈ p.unread.map (·.archive)) :
    HeadsDiffer (s.files listing readable) (unlines s.current) (unlines p.front).length recent := by
  intro a mem raw read positive inside long same
  obtain ⟨g, unread, rfl⟩ := List.mem_map.mp (among a mem)
  obtain rfl := p.uncompressed_eq h unread read
  have read' : p.front ≠ [] := by
    intro empty
    rw [empty] at positive
    cases positive
  have sixty_four := sixty_four_le_length (p.long_front h) read'
  have written : s.current ≠ [] := by
    intro empty
    rw [empty] at inside
    exact absurd (Nat.le_trans sixty_four inside) (by decide)
  rw [Nat.min_eq_left sixty_four] at same
  exact h.heads written g (p.mem_closed unread) same.symm

/-- The round in which the ingest reads. -/
theorem exists_readRound (p : Position log s) (h : WellLogged s) (found : listing.Perm s.onDisk) {batch : TailBatch}
    (there : s.file ≠ none)
    (read : readNewLines log.lib (s.files listing readable) (unlines s.current) (s.cursor log) = .ok batch) :
    ∃ newMeta, (overlooked log s listing readable = [] → newMeta = s.cursorMeta log) ∧
      batch = readRound (s.files listing readable) (unlines s.current) (unlines s.current) (unlines p.front).length
        (s.cursorMeta log) newMeta
        ((p.unread.map (·.archive)).filter (· ∉ overlooked log s listing readable)) := by
  have offset : (s.cursor log).elim 0 (·.offsetBytes) = (unlines p.front).length := p.cursor
  have meta_eq : (s.cursor log).bind (·.lastTs) = s.cursorMeta log := rfl
  obtain ⟨lines, file⟩ := Option.ne_none_iff_exists'.mp there
  have current : (s.files listing readable).current = some (unlines s.current) := by
    simp [RotationState.files, RotationState.current, file]
  unfold readNewLines at read
  rw [current] at read
  obtain ⟨updatedNs, updated, read⟩ := except_bind_eq_ok.mp read
  have old : historical (unlines p.front).length (unlines s.current).length (s.cursorMeta log) updatedNs
      (p.unread.map (·.archive)) = overlooked log s listing readable := by
    rw [overlooked, updated, p.unconsumedArchives_eq h found, offset]
  simp only [offset, meta_eq, p.unconsumedArchives_eq h found, old] at read
  exact ⟨_, fun empty => if_pos empty, (Except.ok.inj read).symm⟩

theorem splitlines_remaining (p : Position log s) (h : WellLogged s)
    (clean : ∀ line ∈ s.appended, IsLine (decode line)) :
    splitlines (decode (unlines p.remaining)) = p.remaining.map decode := by
  refine (splitlines_unlines_eq_iff p.remaining).mpr fun line among => clean line ?_
  rw [p.appended_eq h]
  exact List.mem_append_right _ among

/-- The round of an ingest that finds no archives to read. -/
theorem readRound_current (p : Position log s) (h : WellLogged s) (clean : ∀ line ∈ s.appended, IsLine (decode line))
    (empty : p.unread = []) (newMeta : Option String) :
    readRound (s.files listing readable) (unlines s.current) (unlines s.current) (unlines p.front).length
        (s.cursorMeta log) newMeta [] =
      ⟨p.remaining.map decode, (unlines s.current).length, newMeta⟩ := by
  have ahead := p.ahead
  rw [empty] at ahead
  obtain ⟨current, later⟩ := List.cons.inj ahead
  have rest : p.remaining = p.rest := by rw [remaining, ← later, List.flatten_nil, List.append_nil]
  have inside : (unlines p.front).length ≤ (unlines s.current).length := by
    rw [current, unlines_append, List.length_append]
    omega
  rw [readRound_nil inside, ← p.splitlines_remaining h clean, rest, current, readCurrent_unlines]
  rfl

/-- The round of an ingest that reads all archives the cursor does not name. -/
theorem readRound_archives (p : Position log s) (h : WellLogged s) (clean : ∀ line ∈ s.appended, IsLine (decode line))
    (filled : p.unread ≠ []) (all : ∀ g ∈ p.unread, readable g.archive = true) (newMeta : Option String) :
    readRound (s.files listing readable) (unlines s.current) (unlines s.current) (unlines p.front).length
        (s.cursorMeta log) newMeta (p.unread.map (·.archive)) =
      ⟨p.remaining.map decode, (unlines s.current).length, formatConsumedArchives
        (parseConsumedArchives newMeta ++ (p.unread.map (·.archive)).map archiveFingerprint)⟩ := by
  obtain ⟨g, others, unread⟩ := List.exists_cons_of_ne_nil filled
  have ahead := p.ahead
  rw [unread] at ahead
  obtain ⟨(first : g.lines = p.front ++ p.rest), later⟩ := List.cons.inj ahead
  have content : ∀ g' ∈ g :: others, (s.files listing readable).uncompressed g'.archive = some (unlines g'.lines) := by
    intro g' among
    have mem : g' ∈ p.unread := unread ▸ among
    simp only [RotationState.files, all g' mem, if_true, h.contentOf_eq (p.mem_closed mem)]
  have newer := h.later
  rw [p.closed, unread] at newer
  have apart := (List.pairwise_append.mp newer).2.1
  have distinct : (((g :: others).map (·.archive)).map archiveFingerprint).Nodup := by
    rw [List.map_map]
    exact List.pairwise_map.mpr (apart.imp fun both => both.2)
  have long : (unlines p.front).length ≤ (unlines g.lines).length := by
    rw [first, unlines_append, List.length_append]
    omega
  have differ : HeadsDiffer (s.files listing readable) (unlines s.current) (unlines p.front).length
      (p.unread.map (·.archive)) := p.headsDiffer h fun _ among => among
  rw [unread] at differ ⊢
  have isSome : ∀ a ∈ (g :: others).map (·.archive), ((s.files listing readable).uncompressed a).isSome := by
    intro a among
    obtain ⟨g', mem, rfl⟩ := List.mem_map.mp among
    rw [content g' mem]
    rfl
  have archived := archivedLines_unlines first content fun g' mem same =>
    (List.pairwise_cons.mp apart).1 g' mem |>.1.ne (congrArg _ same)
  have start := readCurrent_unlines (splitlines (decode (unlines (p.rest ++ others.flatMap (·.lines)))))
    (formatConsumedArchives (parseConsumedArchives newMeta ++ ((g :: others).map (·.archive)).map archiveFingerprint))
    [] s.current
  rw [readRound_caughtUp differ isSome distinct rfl (content g List.mem_cons_self) long, archived]
  rw [List.nil_append] at start
  refine start.trans ?_
  have lines : p.remaining = p.rest ++ others.flatMap (·.lines) ++ s.current := by
    rw [remaining, ← later, List.flatMap_def, List.append_eq, List.flatten_append, List.flatten_singleton,
      List.append_assoc]
  rw [← splitlines_unlines_append, ← lines, p.splitlines_remaining h clean]

/-- The fingerprints that are written after all archives have been read. -/
theorem mem_parse_all (p : Position log s) (fp : List Char) :
    fp ∈ parseConsumedArchives (formatConsumedArchives
        (parseConsumedArchives (s.cursorMeta log) ++ (p.unread.map (·.archive)).map archiveFingerprint)) ↔
      fp ∈ s.closed.map fun g => archiveFingerprint g.archive := by
  have same (fp' : List Char) : fp' ∈ parseConsumedArchives (s.cursorMeta log) ++
      (p.unread.map (·.archive)).map archiveFingerprint ↔ fp' ∈ s.closed.map fun g => archiveFingerprint g.archive := by
    rw [List.mem_append, p.named fp', p.closed, List.map_append, List.mem_append, List.map_map]
    rfl
  rw [mem_parse_format ?_ fp, same fp]
  intro fp' among
  obtain ⟨g, -, rfl⟩ := List.mem_map.mp ((same fp').mp among)
  exact ⟨archiveFingerprint_ne_nil g.archive, comma_not_mem_archiveFingerprint g.archive⟩

/-- What an ingest has read: nothing if it is deferred, and else all lines that have not been delivered. -/
def Read (p : Position log s) (readable : Archive → Bool) (batch : TailBatch) : Prop :=
  (batch = ⟨[], (unlines p.front).length, s.cursorMeta log⟩ ∧ ∃ a ∈ s.onDisk, readable a = false) ∨
    (batch.lines = p.remaining.map decode ∧ batch.nextOffset = (unlines s.current).length ∧
      ∀ fp, fp ∈ parseConsumedArchives batch.cursorMeta ↔ fp ∈ s.closed.map fun g => archiveFingerprint g.archive)

theorem read_missing (p : Position log s) (h : WellLogged s) (missing : s.file = none) :
    p.Read readable ⟨[], 0, none⟩ := by
  have current : s.current = [] := by rw [RotationState.current, missing, Option.getD_none]
  have nothing : s.appended = [] := by rw [h.appended, h.missing missing, current, List.flatMap_nil, List.nil_append]
  have split := p.appended_eq h
  rw [nothing] at split
  obtain ⟨-, remaining⟩ := List.append_eq_nil_iff.mp split.symm
  refine .inr ⟨by rw [remaining]; rfl, by rw [current]; rfl, ?_⟩
  rw [h.missing missing]
  exact fun fp => Iff.rfl

theorem read_of_readNewLines (p : Position log s) (h : WellLogged s)
    (clean : ∀ line ∈ s.appended, IsLine (decode line)) (found : listing.Perm s.onDisk) {m : Moment D}
    (kept : Kept log s (.ingest listing readable m)) {batch : TailBatch}
    (read : readNewLines log.lib (s.files listing readable) (unlines s.current) (s.cursor log) = .ok batch) :
    p.Read readable batch := by
  by_cases missing : s.file = none
  · simp only [readNewLines, RotationState.files, missing, Option.map_none] at read
    exact Except.ok.inj read ▸ p.read_missing h missing
  obtain ⟨newMeta, unchanged, rfl⟩ := p.exists_readRound h found missing read
  have among : ∀ a ∈ (p.unread.map (·.archive)).filter (· ∉ overlooked log s listing readable),
      a ∈ p.unread.map (·.archive) := fun a mem => (List.mem_filter.mp mem).1
  by_cases deferred : ∃ a ∈ (p.unread.map (·.archive)).filter (· ∉ overlooked log s listing readable),
      readable a = false
  · obtain ⟨a, recent, unreadable⟩ := deferred
    have unread : (s.files listing readable).uncompressed a = none := by simp [RotationState.files, unreadable]
    obtain ⟨g, mem, rfl⟩ := List.mem_map.mp (among a recent)
    refine .inl ⟨readRound_deferred (p.headsDiffer h among) recent unread, g.archive, ?_, unreadable⟩
    exact List.mem_filter.mpr ⟨List.mem_map_of_mem (p.mem_closed mem), decide_eq_true (p.present g mem)⟩
  · have seen : overlooked log s listing readable = [] := by
      refine kept.resolve_right fun ⟨a, present, unnamed, noticed, unreadable⟩ => deferred ⟨a, ?_, unreadable⟩
      have unconsumed : unconsumedArchives (s.files listing readable) (s.cursorMeta log) =
        p.unread.map (·.archive) := p.unconsumedArchives_eq h found
      rw [← unconsumed, unconsumedArchives, h.listRotatedArchives_eq found]
      exact List.mem_filter.mpr ⟨List.mem_filter.mpr ⟨present, decide_eq_true unnamed⟩, decide_eq_true noticed⟩
    have all : ∀ g ∈ p.unread, readable g.archive = true := by
      intro g mem
      by_contra unreadable
      refine deferred ⟨g.archive, ?_, Bool.eq_false_iff.mpr unreadable⟩
      rw [seen]
      exact List.mem_filter.mpr ⟨List.mem_map_of_mem mem, decide_eq_true List.not_mem_nil⟩
    have recent : (p.unread.map (·.archive)).filter (· ∉ overlooked log s listing readable) =
        p.unread.map (·.archive) := by
      rw [seen]
      exact List.filter_eq_self.mpr fun a _ => decide_eq_true List.not_mem_nil
    rw [recent, unchanged seen]
    by_cases empty : p.unread = []
    · rw [empty, List.map_nil, p.readRound_current h clean empty]
      refine .inr ⟨rfl, rfl, fun fp => (p.named fp).trans ?_⟩
      rw [p.closed, empty, List.append_nil]
    · rw [p.readRound_archives h clean empty all]
      exact .inr ⟨rfl, rfl, p.mem_parse_all⟩

/-! ## Steps -/

/-- A line is written at the end of what is ahead of the cursor. -/
theorem append (p : Position log s) (line : ByteString) :
    Nonempty (Position log { s with file := some (s.current ++ [line]), appended := s.appended ++ [line] }) := by
  have ahead := p.ahead
  cases unread : p.unread with
  | nil =>
    rw [unread] at ahead
    obtain ⟨current, later⟩ := List.cons.inj ahead
    refine ⟨⟨p.read, [], p.front, p.rest ++ [line], [], unread ▸ p.closed, ?_, p.cursor, p.named, by simp, p.delivered⟩⟩
    simp only [RotationState.current, List.map_nil, List.nil_append, Option.getD_some]
    rw [← List.append_assoc, ← current, RotationState.current]
  | cons g others =>
    rw [unread] at ahead
    obtain ⟨first, later⟩ := List.cons.inj ahead
    exact ⟨⟨p.read, g :: others, p.front, p.rest, others.map (·.lines) ++ [s.current ++ [line]],
      unread ▸ p.closed, congrArg₂ List.cons first rfl, p.cursor, p.named, unread ▸ p.present, p.delivered⟩⟩

/-- A new archive is the last of those that have not been read. -/
def rotate (p : Position log s) (a : Archive) (present : a ∉ s.pruned) :
    Position log { s with closed := s.closed ++ [⟨a, s.current⟩], file := some [] } where
  read := p.read
  unread := p.unread ++ [⟨a, s.current⟩]
  front := p.front
  rest := p.rest
  later := p.later ++ [[]]
  closed := by rw [p.closed, List.append_assoc]
  ahead := by
    rw [List.map_append, List.map_singleton, p.ahead, List.cons_append]
    rfl
  cursor := p.cursor
  named := p.named
  present g among := (List.mem_append.mp among).elim (p.present g) fun last =>
    (List.mem_singleton.mp last).symm ▸ present
  delivered := p.delivered

/-- Only archives that have been read are removed. -/
def prune (p : Position log s) (h : WellLogged s) (a : Archive)
    (named : archiveFingerprint a ∈ parseConsumedArchives (s.cursorMeta log)) :
    Position log { s with pruned := a :: s.pruned } where
  read := p.read
  unread := p.unread
  front := p.front
  rest := p.rest
  later := p.later
  closed := p.closed
  ahead := p.ahead
  cursor := p.cursor
  named := p.named
  present g among := by
    have newer := h.later
    rw [p.closed] at newer
    refine List.not_mem_cons_of_ne_of_not_mem (fun same => ?_) (p.present g among)
    obtain ⟨g', read, same'⟩ := List.mem_map.mp ((p.named _).mp named)
    exact ((List.pairwise_append.mp newer).2.2 g' read g among).2 (same ▸ same')
  delivered := p.delivered

/-- After a round that is not deferred the cursor stands at the end of the current file. -/
def commit (p : Position log s) (h : WellLogged s) {batch : TailBatch} {t : Tables} {now : String}
    (lines : batch.lines = p.remaining.map decode) (next : batch.nextOffset = (unlines s.current).length)
    (named : ∀ fp, fp ∈ parseConsumedArchives batch.cursorMeta ↔
      fp ∈ s.closed.map fun g => archiveFingerprint g.archive)
    (written : t.cursors.lookup log.cursorKey = some ⟨batch.nextOffset, batch.cursorMeta, some now⟩) :
    Position log { s with tables := t, delivered := s.delivered ++ batch.lines } where
  read := s.closed
  unread := []
  front := s.current
  rest := []
  later := []
  closed := (List.append_nil _).symm
  ahead := by
    rw [List.append_nil]
    rfl
  cursor := by
    rw [CursorAt, written]
    exact next
  named fp := by
    rw [RotationState.cursorMeta, RotationState.cursor, written]
    exact named fp
  present := by simp
  delivered := by
    rw [lines, p.delivered_remaining h, h.appended]

/-- A deferred round leaves the cursor where it is. -/
def defer (p : Position log s) {t : Tables} {now : String}
    (written : t.cursors.lookup log.cursorKey =
      some ⟨(unlines p.front).length, s.cursorMeta log, some now⟩) :
    Position log { s with tables := t, delivered := s.delivered ++ [] } where
  read := p.read
  unread := p.unread
  front := p.front
  rest := p.rest
  later := p.later
  closed := p.closed
  ahead := p.ahead
  cursor := by
    rw [CursorAt, written]
    rfl
  named fp := by
    rw [RotationState.cursorMeta, RotationState.cursor, written]
    exact p.named fp
  present := p.present
  delivered := by rw [List.append_nil, p.delivered]

end Position

/-- The invariant: the lines are clean, and what has been delivered is a front part of them. -/
structure Rotated (log : LogSource D) (s : RotationState) : Prop where
  wellLogged : WellLogged s
  clean : ∀ line ∈ s.appended, IsLine (decode line)
  position : Nonempty (Position log s)

theorem rotated_start (log : LogSource D) : Rotated log rotationStart := by
  refine ⟨wellLogged_start, by simp [rotationStart], ⟨⟨[], [], [], [], [], rfl, rfl, rfl, ?_, by simp, rfl⟩⟩⟩
  exact fun fp => Iff.rfl

theorem WellLogged.append (h : WellLogged s) {line : ByteString} (record : IsRecord line) (long : 64 ≤ line.length + 1)
    (apart : ∀ g ∈ s.closed, headOf (s.current ++ [line]) ≠ headOf g.lines) :
    WellLogged { s with file := some (s.current ++ [line]), appended := s.appended ++ [line] } where
  appended := by
    rw [h.appended, List.append_assoc]
    rfl
  lines line' among := (List.mem_append.mp among).elim (h.lines line') fun last =>
    List.mem_singleton.mp last ▸ ⟨record, long⟩
  filled := h.filled
  later := h.later
  heads _ := apart
  missing none := nomatch none
  pruned := h.pruned

theorem WellLogged.rotate (h : WellLogged s) {a : Archive} (filled : s.current ≠ [])
    (fresh : ∀ g ∈ s.closed, g.archive.mtimeNs < a.mtimeNs ∧ archiveFingerprint g.archive ≠ archiveFingerprint a) :
    WellLogged { s with closed := s.closed ++ [⟨a, s.current⟩], file := some [] } where
  appended := by
    rw [h.appended, List.flatMap_append, List.flatMap_singleton]
    exact (List.append_nil _).symm
  lines := h.lines
  filled g among := (List.mem_append.mp among).elim (h.filled g) fun last =>
    List.mem_singleton.mp last ▸ filled
  later := List.pairwise_append.mpr ⟨h.later, List.pairwise_singleton _ _, fun g among g' last =>
    List.mem_singleton.mp last ▸ fresh g among⟩
  heads filled := absurd rfl filled
  missing none := nomatch none
  pruned b among := (h.pruned b among).imp fun g both => ⟨List.mem_append_left _ both.1, both.2⟩

theorem WellLogged.prune (h : WellLogged s) {a : Archive} (present : a ∈ s.onDisk) :
    WellLogged { s with pruned := a :: s.pruned } where
  appended := h.appended
  lines := h.lines
  filled := h.filled
  later := h.later
  heads := h.heads
  missing := h.missing
  pruned b among := by
    rcases List.mem_cons.mp among with same | before
    · exact exists_of_mem_onDisk (s := s) (same.symm ▸ present)
    · exact h.pruned b before

/-- What the store holds and what has been delivered does not matter to the files. -/
theorem WellLogged.ingested (h : WellLogged s) (t : Tables) (lines : List (List Char)) :
    WellLogged { s with tables := t, delivered := lines } where
  appended := h.appended
  lines := h.lines
  filled := h.filled
  later := h.later
  heads := h.heads
  missing := h.missing
  pruned := h.pruned

/-- A fresh archive has not been removed before. -/
theorem WellLogged.not_mem_pruned (h : WellLogged s) {a : Archive}
    (fresh : ∀ g ∈ s.closed, g.archive.mtimeNs < a.mtimeNs) : a ∉ s.pruned := by
  intro removed
  obtain ⟨g, closed, rfl⟩ := h.pruned a removed
  exact Int.lt_irrefl _ (fresh g closed)

/-- What an ingest delivers. A deferred one delivers nothing, and any other one that is committed all
lines that are left. -/
theorem Rotated.ingest (h : Rotated log s) (found : listing.Perm s.onDisk) {m : Moment D}
    (kept : Kept log s (.ingest listing readable m)) {result : Except Exn Unit} {t : RotationState}
    (ran : Pageviews.ingest log s listing readable m = (result, t)) :
    Rotated log t ∧ t.appended = s.appended ∧ (result = .ok () → (∀ a ∈ s.onDisk, readable a = true) →
      t.delivered = t.appended.map decode) := by
  obtain ⟨wellLogged, clean, ⟨p⟩⟩ := h
  unfold Pageviews.ingest at ran
  split at ran
  · obtain ⟨rfl, rfl⟩ := Prod.mk.inj ran
    exact ⟨⟨wellLogged, clean, ⟨p⟩⟩, rfl, fun ok => nomatch ok⟩
  · rename_i batch read
    have batched := p.read_of_readNewLines wellLogged clean found kept read
    split at ran
    · rename_i e u failed
      obtain ⟨rfl, rfl⟩ := Prod.mk.inj ran
      obtain rfl := commitBatch_error failed
      exact ⟨⟨wellLogged, clean, ⟨p⟩⟩, rfl, fun ok => nomatch ok⟩
    · rename_i n u committed
      obtain ⟨rfl, rfl⟩ := Prod.mk.inj ran
      have written := commitBatch_ok committed
      rcases batched with ⟨rfl, a, present, unreadable⟩ | ⟨lines, next, named⟩
      · refine ⟨⟨wellLogged.ingested u _, clean, ⟨p.defer written⟩⟩, rfl, fun _ all => ?_⟩
        exact absurd (all a present) (unreadable ▸ Bool.false_ne_true)
      · refine ⟨⟨wellLogged.ingested u _, clean, ⟨p.commit wellLogged lines next named written⟩⟩, rfl, fun _ _ => ?_⟩
        rw [lines]
        exact p.delivered_remaining wellLogged

theorem Rotated.onward {t : RotationState} {a : RotationAction D} (h : Rotated log s) (kept : Kept log s a)
    (h' : rotationStep log s a = some t) : Rotated log t := by
  obtain ⟨wellLogged, clean, ⟨p⟩⟩ := h
  cases a with
  | append line =>
    simp only [rotationStep] at h'
    split_ifs at h' with enabled
    cases h'
    refine ⟨wellLogged.append enabled.1 enabled.2.1 enabled.2.2, fun line' among => ?_, p.append line⟩
    exact (List.mem_append.mp among).elim (clean line') fun last => List.mem_singleton.mp last ▸ kept
  | rotate archive =>
    simp only [rotationStep] at h'
    split_ifs at h' with enabled
    cases h'
    have unremoved := wellLogged.not_mem_pruned fun g among => (enabled.2 g among).1
    exact ⟨wellLogged.rotate enabled.1 enabled.2, clean, ⟨p.rotate archive unremoved⟩⟩
  | prune archive =>
    simp only [rotationStep] at h'
    split_ifs at h' with enabled
    cases h'
    exact ⟨wellLogged.prune enabled.1, clean, ⟨p.prune wellLogged archive enabled.2⟩⟩
  | ingest listing readable m =>
    simp only [rotationStep] at h'
    split_ifs at h' with found
    cases h'
    exact (Rotated.ingest ⟨wellLogged, clean, ⟨p⟩⟩ found kept rfl).1

theorem rotated_of_run {as : List (RotationAction D)} (run : Run (rotationStep log) (Kept log) rotationStart as s) :
    Rotated log s :=
  run.invariant (P := Rotated log) (rotated_start log) fun _ _ _ h kept enabled => h.onward kept enabled

/-- Whatever is rotated between the ingests, no line is delivered that has not been written, and none
twice. After an ingest that can read all archives every line has been delivered. -/
theorem delivered_of_rotations {as : List (RotationAction D)}
    (run : Run (rotationStep log) (Kept log) rotationStart as s) :
    s.delivered.Subperm (s.appended.map decode) ∧
      ∀ listing readable m t, listing.Perm s.onDisk → (∀ a ∈ listing, readable a = true) →
        Kept log s (.ingest listing readable m) → ingest log s listing readable m = (.ok (), t) →
          t.delivered.Perm (t.appended.map decode) := by
  have rotated := rotated_of_run run
  constructor
  · obtain ⟨p⟩ := rotated.position
    rw [← p.delivered_remaining rotated.wellLogged]
    exact (List.sublist_append_left _ _).subperm
  · intro listing readable m t found all kept ran
    have readable' : ∀ a ∈ s.onDisk, readable a = true := fun a present => all a (found.mem_iff.mpr present)
    exact .of_eq ((rotated.ingest found kept ran).2.2 rfl readable')

instance (log : LogSource D) (s : RotationState) : (a : RotationAction D) → Decidable (Kept log s a)
  | .append line => inferInstanceAs (Decidable (IsLine (decode line)))
  | .rotate _ => instDecidableTrue
  | .prune _ => instDecidableTrue
  | .ingest listing readable _ => inferInstanceAs (Decidable (overlooked log s listing readable = [] ∨
      ∃ a ∈ s.onDisk, archiveFingerprint a ∉ parseConsumedArchives (s.cursorMeta log) ∧
        a ∉ overlooked log s listing readable ∧ readable a = false))

/-- A line of one character. -/
def lineOf (b : UInt8) : ByteString := List.replicate 63 b

/-- An archive that was rotated at the given hour. -/
def rotatedAt (name : String) (hour : ℤ) (plain : ',' ∉ name.toList) : Archive :=
  ⟨name, hour * 3600000000000, 40, plain⟩

def firstArchive : Archive := rotatedAt "gateway-1.log.gz" 13 (by decide)

def secondArchive : Archive := rotatedAt "gateway-2.log.gz" 14 (by decide)

/-- A commit at the given hour. -/
def committedAt (hour : ℕ) : Moment ℕ := ⟨⟨hour, hour⟩, if hour = 12 then "12" else "15", []⟩

/-- Two rotations between two ingests. -/
theorem delivered_of_rotations_twice : ∃ as s t, Run (rotationStep gatewayLog) (Kept gatewayLog) rotationStart as s ∧
    ingest gatewayLog s [secondArchive, firstArchive] (fun _ => true) (committedAt 15) = (.ok (), t) ∧
    t.delivered.Perm (t.appended.map decode) := by
  have ends : (exec (Run.guarded (rotationStep gatewayLog) (Kept gatewayLog)) rotationStart
      [.append (lineOf 0x61), .ingest [] (fun _ => true) (committedAt 12), .append (lineOf 0x61), .rotate firstArchive,
        .append (lineOf 0x62), .rotate secondArchive, .append (lineOf 0x63)]).map
      (fun s => (s.onDisk,
        decide (Kept gatewayLog s (.ingest [secondArchive, firstArchive] (fun _ => true) (committedAt 15))),
        (ingest gatewayLog s [secondArchive, firstArchive] (fun _ => true) (committedAt 15)).1.isOk)) =
      some ([firstArchive, secondArchive], true, true) := by decide +kernel
  obtain ⟨s, ran, facts⟩ := Option.map_eq_some_iff.mp ends
  obtain ⟨onDisk, facts⟩ := Prod.mk.inj facts
  obtain ⟨kept, committed⟩ := Prod.mk.inj facts
  have run := Run.of_guarded ran
  cases last : ingest gatewayLog s [secondArchive, firstArchive] (fun _ => true) (committedAt 15) with
  | mk result t =>
    rw [last] at committed
    cases result with
    | error e => cases committed
    | ok =>
      have found : [secondArchive, firstArchive].Perm s.onDisk := onDisk ▸ List.Perm.swap _ _ _
      have all := (delivered_of_rotations run).2 _ _ _ t found (fun _ _ => rfl) (of_decide_eq_true kept) last
      exact ⟨_, s, t, run, last, all⟩

/-- An archive that cannot be read at one ingest: the next one skips it, and the line that has been
written in the meantime is lost. -/
theorem deferred_archive_lost : ∃ as s t, Run (rotationStep gatewayLog) anyStep rotationStart as s ∧
    [firstArchive].Perm s.onDisk ∧
    ingest gatewayLog s [firstArchive] (fun _ => true) (committedAt 15) = (.ok (), t) ∧
    ¬t.delivered.Perm (t.appended.map decode) := by
  have ends : (exec (rotationStep gatewayLog) rotationStart
      [.append (lineOf 0x61), .ingest [] (fun _ => true) (committedAt 12), .rotate firstArchive,
        .append (lineOf 0x62), .ingest [firstArchive] (fun _ => false) (committedAt 15)]).map
      (fun s => (s.onDisk,
        (ingest gatewayLog s [firstArchive] (fun _ => true) (committedAt 15)).1.isOk,
        (ingest gatewayLog s [firstArchive] (fun _ => true) (committedAt 15)).2.delivered.length,
        (ingest gatewayLog s [firstArchive] (fun _ => true) (committedAt 15)).2.appended.length)) =
      some ([firstArchive], true, 1, 2) := by decide +kernel
  obtain ⟨s, ran, facts⟩ := Option.map_eq_some_iff.mp ends
  obtain ⟨onDisk, facts⟩ := Prod.mk.inj facts
  obtain ⟨committed, facts⟩ := Prod.mk.inj facts
  obtain ⟨delivered, appended⟩ := Prod.mk.inj facts
  cases last : ingest gatewayLog s [firstArchive] (fun _ => true) (committedAt 15) with
  | mk result t =>
    rw [last] at committed delivered appended
    cases result with
    | error e => cases committed
    | ok =>
      refine ⟨_, s, t, Run.of_exec ran, .of_eq onDisk.symm, last, fun all => ?_⟩
      have same := all.length_eq
      rw [delivered, List.length_map, appended] at same
      cases same

end LocalWebAccess.Pageviews
