import LocalWebAccess.AgentLogs

/-!
# Following the pages of a log

The end of a file that has been read backwards has the last lines of the whole file. They are joined and
split again on the way, which takes an empty line at the end away, and a cursor beyond the beginning
counts from the wrong end.
-/
namespace LocalWebAccess.AgentLogs
open PythonText Utf8Replacement

/-! ## Reading backwards -/

theorem readBack_suffix (content : ByteString) (n pos : ℕ) (within : pos ≤ content.length) :
    ∃ start, readBack content n pos (content.drop pos) ((content.drop pos).count newline) = content.drop start ∧
      (start = 0 ∨ n < (content.drop start).count newline) := by
  induction pos using Nat.strong_induction_on with
  | _ pos ih =>
    rw [readBack]
    split_ifs with more
    · have shorter : pos - min tailChunk pos < pos := by
        unfold tailChunk
        omega
      have joined : (content.drop (pos - min tailChunk pos)).take (min tailChunk pos) ++ content.drop pos =
          content.drop (pos - min tailChunk pos) := by
        conv_rhs => rw [← List.take_append_drop (min tailChunk pos) (content.drop (pos - min tailChunk pos))]
        rw [List.drop_drop, Nat.sub_add_cancel (Nat.min_le_right ..)]
      dsimp only
      rw [joined, Nat.add_comm, ← List.count_append, joined]
      exact ih _ shorter (Nat.le_of_lt shorter |>.trans within)
    · refine ⟨pos, rfl, ?_⟩
      omega

theorem splitlinesFrom_eq_nil_iff (line text : List Char) : splitlinesFrom line text = [] ↔ line = [] ∧ text = [] := by
  fun_induction splitlinesFrom line text with
  | case1 => simp
  | case2 line filled => simp [filled]
  | case3 line text ih => simp
  | case4 line c text different breaks ih => simp
  | case5 line c text different plain ih => simp [ih]

/-- Each newline ends a line at least. -/
theorem count_newline_le (bytes : ByteString) : bytes.count newline ≤ (splitlines (decode bytes)).length := by
  obtain ⟨written, rest, rfl, all, unfinished⟩ := exists_unlines bytes
  induction written with
  | nil =>
    have none : rest.count newline = 0 := List.count_eq_zero_of_not_mem unfinished
    simp [unlines, none]
  | cons r written ih =>
    obtain ⟨first, later⟩ := List.forall_mem_cons.mp all
    have split : unlines (r :: written) ++ rest = r ++ newline :: (unlines written ++ rest) := by simp [unlines]
    have line : 0 < (splitlines (decode r ++ ['\n'])).length := by
      refine List.length_pos_of_ne_nil fun none => ?_
      have empty := ((splitlinesFrom_eq_nil_iff _ _).mp none).2
      exact absurd empty (by simp)
    rw [split, splitlines_newline, List.count_append, List.count_cons_self, List.length_append,
      List.count_eq_zero_of_not_mem first]
    have := ih later
    omega

theorem rtake_append {α : Type} {front rest : List α} {n : ℕ} (enough : n ≤ rest.length) :
    (front ++ rest).rtake n = rest.rtake n := by
  have behind : (front ++ rest).length - n = front.length + (rest.length - n) := by
    rw [List.length_append]
    omega
  rw [List.rtake, List.rtake, behind, ← List.drop_drop, List.drop_left]

/-- The last lines of a file are those of what has been read of it. -/
theorem rtake_readBack (content : ByteString) (n : ℕ) :
    (splitlines (decode (readBack content n content.length [] 0))).rtake n = (splitlines (decode content)).rtake n := by
  obtain ⟨start, read, whole | many⟩ := readBack_suffix content n content.length (Nat.le_refl _)
  · rw [List.drop_length, List.count_nil] at read
    rw [read, whole, List.drop_zero]
  · rw [List.drop_length, List.count_nil] at read
    have inside : newline ∈ content.drop start := List.count_pos_iff.mp (by omega)
    obtain ⟨fragment, rest, split, first⟩ := List.eq_append_cons_of_mem inside
    have enough : n ≤ (splitlines (decode rest)).length := by
      refine Nat.le_trans ?_ (count_newline_le rest)
      rw [split, List.count_append, List.count_eq_zero_of_not_mem first, List.count_cons_self] at many
      omega
    have whole : content = (content.take start ++ fragment) ++ newline :: rest := by
      rw [List.append_assoc, ← split, List.take_append_drop]
    rw [read, split, splitlines_newline, rtake_append enough]
    conv_rhs => rw [whole, splitlines_newline, rtake_append enough]

/-- The end of a log read backwards is the end of the whole log, cut after it has been decoded. -/
theorem tailTextFile_eq_rtake (content : ByteString) {n : ℕ} (positive : 1 ≤ n) :
    tailTextFile content n = ['\n'].intercalate ((splitlines (decode content)).rtake n) := by
  have filled : n ≠ 0 := Nat.one_le_iff_ne_zero.mp positive
  rw [tailTextFile, if_neg filled, rtake_readBack]

/-- A carriage return and a sequence that a newline breaks off. -/
theorem tailTextFile_eq_rtake_broken : 1 ≤ 2 ∧ tailTextFile [0x61, 0x0d, 0xe4, 0x0a, 0x62] 2 =
    ['\n'].intercalate ((splitlines (decode [0x61, 0x0d, 0xe4, 0x0a, 0x62])).rtake 2) :=
  ⟨by decide, tailTextFile_eq_rtake _ (by decide)⟩

/-! ## Joining and splitting -/

/-- An empty line at the end is none of its own. -/
def shown (lines : List (List Char)) : List (List Char) := if lines.getLast? = some [] then lines.dropLast else lines

theorem splitlines_line {line : List Char} (isLine : IsLine line) :
    splitlines line = if line = [] then [] else [line] := by
  have read : ∀ start, splitlinesFrom start line = if start = [] ∧ line = [] then [] else [start.reverse ++ line] := by
    induction line with
    | nil => simp [splitlinesFrom]
    | cons c line ih =>
      intro start
      have first := isLine c List.mem_cons_self
      have ret : c ≠ '\r' := by
        rintro rfl
        exact absurd first (by decide)
      rw [splitlinesFrom_cons (fun _ eq => absurd eq ret), if_neg (by simp [first]),
        ih fun d mem => isLine d (List.mem_cons_of_mem c mem)]
      simp
  exact (read []).trans (by simp)

theorem splitlines_join {lines : List (List Char)} (all : ∀ line ∈ lines, IsLine line) :
    splitlines (['\n'].intercalate lines) = shown lines := by
  induction lines with
  | nil => rfl
  | cons line lines ih =>
    obtain ⟨first, later⟩ := List.forall_mem_cons.mp all
    rcases lines with _ | ⟨second, rest⟩
    · rw [List.intercalate_singleton, splitlines_line first]
      unfold shown
      split_ifs <;> simp_all
    · rw [List.intercalate_cons_cons, List.append_assoc, List.singleton_append, splitlines, splitlinesFrom_append,
        splitlinesFrom_line [] first, ih later]
      unfold shown
      rw [List.getLast?_cons_cons]
      split_ifs <;> rfl

theorem splitlines_tailTextFile (content : ByteString) {n : ℕ} (positive : n ≠ 0) :
    splitlines (tailTextFile content n) = shown ((splitlines (decode content)).rtake n) := by
  have suffix : (splitlines (decode content)).rtake n <:+ splitlines (decode content) := List.drop_suffix ..
  rw [tailTextFile, if_neg positive, rtake_readBack,
    splitlines_join fun line among => isLine_of_mem_splitlines (suffix.subset among)]

/-! ## Pages -/

variable {α : Type} {lines : List α} {skip limit : ℕ}

/-- The lines that a page is to have. -/
def pageOf (lines : List α) (skip limit : ℕ) : List α :=
  (lines.take (lines.length - skip)).drop (lines.length - skip - limit)

/-- The lines that are cut out of the end of a file. -/
def window (lines : List α) (skip : ℕ) : List α := if skip = 0 then lines else sliceTo lines (lines.length - skip)

theorem window_of_le (inside : skip ≤ lines.length) : window lines skip = lines.take (lines.length - skip) := by
  unfold window
  split_ifs with none
  · simp [none]
  · unfold sliceTo
    congr 1
    rw [if_neg (by omega)]
    omega

theorem window_of_lt (beyond : lines.length < skip) : window lines skip = lines.take (2 * lines.length - skip) := by
  unfold window
  rw [if_neg (by omega)]
  unfold sliceTo
  congr 1
  rw [if_pos (by omega)]
  omega

/-- Up to the beginning a page is cut out right, however little of the file has been read. -/
theorem window_rtake (inside : skip ≤ lines.length) :
    (window (lines.rtake (skip + limit + 1)) skip).rtake limit = pageOf lines skip limit := by
  have length : (lines.rtake (skip + limit + 1)).length = min (skip + limit + 1) lines.length := by
    rw [List.rtake, List.length_drop]
    omega
  rw [window_of_le (by omega), length, pageOf, List.rtake, List.rtake, List.take_drop, List.drop_drop, List.length_drop,
    List.length_take]
  congr 1
  · omega
  · congr 1
    omega

theorem length_pageOf (lines : List α) (skip limit : ℕ) :
    (pageOf lines skip limit).length = min (lines.length - skip) limit := by
  rw [pageOf, List.length_drop, List.length_take]
  omega

/-! ## One page -/

variable {content : ByteString}

theorem shown_rtake {lines : List (List Char)} {n : ℕ} (inked : lines.getLast? ≠ some []) :
    shown (lines.rtake n) = lines.rtake n := by
  refine if_neg ?_
  rw [List.rtake, List.getLast?_drop]
  split_ifs
  · simp
  · exact inked

theorem shown_rtake_blank (front : List (List Char)) (n : ℕ) :
    shown ((front ++ [[]]).rtake (n + 1)) = front.rtake n := by
  rw [List.rtake_concat_succ, shown, if_pos (by simp), List.dropLast_concat]

/-- The page of a log whose last line is not empty. -/
theorem lines_logsPage (limit : ℕ) (inked : (splitlines (decode content)).getLast? ≠ some [])
    (inside : skip ≤ (splitlines (decode content)).length) :
    (logsPage content skip limit).lines = (pageOf (splitlines (decode content)) skip limit).map redactLogLine := by
  rw [← window_rtake inside, ← shown_rtake inked, ← splitlines_tailTextFile content (Nat.succ_ne_zero _)]
  rfl

theorem nextCursor_logsPage (skip limit : ℕ) (inked : (splitlines (decode content)).getLast? ≠ some []) :
    (logsPage content skip limit).nextCursor =
      if skip + limit < (splitlines (decode content)).length then some (encodeLogCursor (skip + limit)) else none := by
  have read := splitlines_tailTextFile content (Nat.succ_ne_zero (skip + limit))
  rw [shown_rtake inked] at read
  have more : (skip + limit < (splitlines (tailTextFile content (skip + limit + 1))).length) ↔
      skip + limit < (splitlines (decode content)).length := by
    rw [read, List.rtake, List.length_drop]
    omega
  simp only [logsPage, more]

/-- With an empty line at the end nothing follows a page. -/
theorem nextCursor_of_blank {front : List (List Char)} (skip limit : ℕ)
    (blank : splitlines (decode content) = front ++ [[]]) :
    (logsPage content skip limit).nextCursor = none := by
  have read := splitlines_tailTextFile content (Nat.succ_ne_zero (skip + limit))
  rw [blank, shown_rtake_blank] at read
  have last : ¬skip + limit < (splitlines (tailTextFile content (skip + limit + 1))).length := by
    rw [read, List.rtake, List.length_drop]
    omega
  simp only [logsPage, last]
  rfl

/-- Beyond the beginning the lines of the file come again. -/
theorem length_logsPage_of_lt (limit : ℕ) (inked : (splitlines (decode content)).getLast? ≠ some [])
    (beyond : (splitlines (decode content)).length < skip) :
    (logsPage content skip limit).lines.length = min (2 * (splitlines (decode content)).length - skip) limit := by
  have read := splitlines_tailTextFile content (Nat.succ_ne_zero (skip + limit))
  have whole : (splitlines (decode content)).rtake (skip + limit + 1) = splitlines (decode content) := by
    rw [List.rtake, Nat.sub_eq_zero_of_le (by omega), List.drop_zero]
  rw [shown_rtake inked, whole] at read
  have cut : (logsPage content skip limit).lines =
      ((window (splitlines (decode content)) skip).rtake limit).map redactLogLine := by
    rw [← read]
    rfl
  rw [cut, List.length_map, List.rtake, List.length_drop, window_of_lt beyond, List.length_take]
  omega

theorem length_logsPage_of_blank {front : List (List Char)} (skip limit : ℕ)
    (blank : splitlines (decode content) = front ++ [[]]) :
    (logsPage content skip limit).lines.length =
      if skip ≤ front.length then min (front.length - skip) limit else min (2 * front.length - skip) limit := by
  have read := splitlines_tailTextFile content (Nat.succ_ne_zero (skip + limit))
  rw [blank, shown_rtake_blank] at read
  have cut : (logsPage content skip limit).lines =
      ((window (front.rtake (skip + limit)) skip).rtake limit).map redactLogLine := by
    rw [← read]
    rfl
  have length : (front.rtake (skip + limit)).length = min (skip + limit) front.length := by
    rw [List.rtake, List.length_drop]
    omega
  rw [cut, List.length_map, List.rtake, List.length_drop]
  split_ifs with inside
  · rw [window_of_le (by omega), List.length_take, length]
    omega
  · rw [window_of_lt (by omega), List.length_take, length]
    omega

theorem logsPage_nil (skip limit : ℕ) : logsPage [] skip limit = ⟨[], none, false⟩ := by
  have read := splitlines_tailTextFile [] (Nat.succ_ne_zero (skip + limit))
  have none : splitlines (tailTextFile [] (skip + limit + 1)) = [] := by
    have empty : splitlines (decode []) = [] := rfl
    rw [read, empty]
    simp [shown, List.rtake]
  simp only [logsPage, none]
  have empty : window ([] : List (List Char)) skip = [] := by
    unfold window sliceTo
    split_ifs <;> simp
  unfold window at empty
  rw [empty]
  simp

/-! ## Cursors -/

theorem isDigit_of_mem_toString {c : Char} {n : ℕ} (among : c ∈ (toString n).toList) : c.isDigit := by
  rw [show (toString n).toList = Nat.toDigits 10 n from Nat.toList_repr] at among
  exact Nat.isDigit_of_mem_toDigits (by decide) (by decide) among

theorem decimal_of_isDigit {c : Char} (digit : c.isDigit) : decimal c = some (c.toNat - 48) := by
  have bounds : 48 ≤ c.toNat ∧ c.toNat ≤ 57 := Char.isDigit_iff_toNat.mp digit
  unfold decimal zeros
  rw [List.find?_cons_of_pos (by simpa using ⟨bounds.1, by omega⟩)]
  rfl

theorem mapM_decimal {text : List Char} (all : ∀ c ∈ text, c.isDigit) :
    text.mapM decimal = some (text.map (·.toNat - 48)) := by
  induction text with
  | nil => rfl
  | cons c text ih =>
    obtain ⟨first, later⟩ := List.forall_mem_cons.mp all
    rw [List.mapM_cons, decimal_of_isDigit first, ih later]
    rfl

theorem digits_toString (n : ℕ) : digits (toString n).toList = some n := by
  have text : (toString n).toList = Nat.toDigits 10 n := Nat.toList_repr
  have plain : '_' ∉ (toString n).toList := fun among => absurd (isDigit_of_mem_toString among) (by decide)
  have value := Nat.ofDigitChars_ten_toDigits (n := n)
  rw [Nat.ofDigitChars_eq_foldl, ← text] at value
  unfold digits
  simp only [List.splitOn_eq_singleton plain]
  rw [if_neg (by simp)]
  simp only [List.flatten_singleton, mapM_decimal fun c => isDigit_of_mem_toString, Option.map_some, List.foldl_map]
  exact congrArg some value

theorem not_isSpace_of_isDigit {c : Char} (digit : c.isDigit) : isSpace c = false := by
  have bounds : 48 ≤ c.toNat ∧ c.toNat ≤ 57 := Char.isDigit_iff_toNat.mp digit
  simp only [isSpace, Bool.or_eq_false_iff, decide_eq_false_iff_not, List.mem_cons, List.not_mem_nil, or_false,
    Bool.and_eq_false_iff]
  omega

theorem strip_of_clean {text : List Char} (clean : ∀ c ∈ text, isSpace c = false) : strip text = text := by
  have kept : ∀ {text : List Char}, (∀ c ∈ text, isSpace c = false) → text.dropWhile isSpace = text := by
    intro text clean
    cases text with
    | nil => rfl
    | cons c text => exact List.dropWhile_cons_of_neg (by simp [clean c List.mem_cons_self])
  rw [strip, kept clean, kept fun c among => clean c (List.mem_reverse.mp among), List.reverse_reverse]

theorem int_toString (n : ℕ) : int (toString n).toList = some (n : ℤ) := by
  have clean := strip_of_clean fun c among => not_isSpace_of_isDigit (isDigit_of_mem_toString (n := n) among)
  have value := digits_toString n
  have unsigned : ∀ c ∈ (toString n).toList, c ≠ '-' ∧ c ≠ '+' := by
    intro c among
    have digit := isDigit_of_mem_toString among
    constructor
    · rintro rfl
      exact absurd digit (by decide)
    · rintro rfl
      exact absurd digit (by decide)
  unfold int
  rw [clean]
  split
  case h_1 rest eq => exact absurd rfl (unsigned '-' (eq ▸ List.mem_cons_self)).1
  case h_2 rest eq => exact absurd rfl (unsigned '+' (eq ▸ List.mem_cons_self)).2
  case h_3 => rw [value]; rfl

theorem decodeCursor_encode (n : ℕ) : decodeCursor (encodeLogCursor n) = .ok ("skip:" ++ toString n) := by
  have filled : "skip:" ++ toString n ≠ "" := by
    intro empty
    have text := congrArg String.toList empty
    rw [String.toList_append] at text
    exact absurd (List.append_eq_nil_iff.mp text).1 (by decide)
  have ascii : (encodeLogCursor n).toList.all (·.toNat < 128) = true := by
    rw [encodeLogCursor, String.toList_ofList]
    exact Base64.all_encode_urlsafe _
  unfold decodeCursor
  rw [if_pos ascii, encodeLogCursor, String.toList_ofList, Base64.decode_encode, Option.bind_some, Array.toArray_toList,
    fromUTF8?_eq_some_iff.mpr rfl]
  simp only [filled, if_false]

theorem decodeLogCursor_encode (n : ℕ) : decodeLogCursor (encodeLogCursor n) = .ok n := by
  have text : ("skip:" ++ toString n).toList = skipText ++ (toString n).toList := String.toList_append ..
  unfold decodeLogCursor
  rw [decodeCursor_encode]
  simp only [text, List.prefix_append, if_true, List.drop_left, int_toString]
  rw [if_neg (by omega)]
  rfl

theorem cursorSkip_encode (n : ℕ) : cursorSkip (some (encodeLogCursor n)) = .ok n := by
  have read := decodeLogCursor_encode n
  have filled : encodeLogCursor n ≠ "" := by
    intro empty
    rw [empty] at read
    cases read
  have there : given (some (encodeLogCursor n)) = some (encodeLogCursor n) :=
    Option.filter_eq_some_iff.mpr ⟨rfl, decide_eq_true filled⟩
  rw [cursorSkip, there]
  exact read

/-! ## All pages -/

variable (repr : String → String) (agent : AgentView)

/-- The request reads a log with these bytes, or there is none and there are no bytes. -/
def ReadsLog (request : GetLogsInput) (content : ByteString) : Prop :=
  ∃ id chosen, logInstance agent request = .ok id ∧ chosenLog repr agent request id = .ok chosen ∧
    (chosen.map LogInfo.content).getD [] = content

/-- The pages that come one after another when each cursor is sent back, the last one without a cursor. -/
inductive Pages : GetLogsInput → List (List (List Char)) → Prop
  | last {request : GetLogsInput} {page : LogsPage} (read : getLogs repr agent request = .ok page)
    (ends : page.nextCursor = none) : Pages request [page.lines]
  | next {request : GetLogsInput} {page : LogsPage} {cursor : String} {pages : List (List (List Char))}
    (read : getLogs repr agent request = .ok page) (more : page.nextCursor = some cursor)
    (rest : Pages { request with cursor := some cursor } pages) : Pages request (page.lines :: pages)

/-- From a number of lines that are skipped the pages have all lines before these, once and in order, and the page
has those before these that it has room for. -/
structure Paged (request : GetLogsInput) (content : ByteString) (skip : ℕ) : Prop where
  pages : ∃ pages, Pages repr agent request pages ∧ pages.reverse.flatten =
    ((splitlines (decode content)).take ((splitlines (decode content)).length - skip)).map redactLogLine
  page : ∃ page, getLogs repr agent request = .ok page ∧
    page.lines = (pageOf (splitlines (decode content)) skip request.limit).map redactLogLine

/-- The last line is not empty and the cursor does not reach beyond the beginning, or it reaches far beyond it. -/
def Pageable (lines : List (List Char)) (skip : ℕ) : Prop :=
  if lines.getLast? = some [] then lines.length ≤ skip ∧ 2 * (lines.length - 1) ≤ skip
  else skip ≤ lines.length ∨ 2 * lines.length ≤ skip

instance (lines : List (List Char)) (skip : ℕ) : Decidable (Pageable lines skip) :=
  inferInstanceAs (Decidable (if lines.getLast? = some [] then lines.length ≤ skip ∧ 2 * (lines.length - 1) ≤ skip
    else skip ≤ lines.length ∨ 2 * lines.length ≤ skip))

variable {repr agent} {request : GetLogsInput}

theorem getLogs_of_reads (reads : ReadsLog repr agent request content) (start : cursorSkip request.cursor = .ok skip) :
    getLogs repr agent request = .ok (logsPage content skip request.limit) := by
  obtain ⟨id, chosen, target, log, bytes⟩ := reads
  unfold getLogs
  simp only [target, start, log]
  cases chosen with
  | none =>
    obtain rfl : [] = content := bytes
    rw [logsPage_nil]
  | some info =>
    obtain rfl : info.content = content := bytes
    rfl

/-- Each page goes before the lines that the pages so far have. -/
theorem pages_of_inked (inked : (splitlines (decode content)).getLast? ≠ some [])
    (reads : ReadsLog repr agent request content) (start : cursorSkip request.cursor = .ok skip)
    (inside : skip ≤ (splitlines (decode content)).length) :
    ∃ pages, Pages repr agent request pages ∧ pages.reverse.flatten =
      ((splitlines (decode content)).take ((splitlines (decode content)).length - skip)).map redactLogLine := by
  induction left : (splitlines (decode content)).length - skip using Nat.strong_induction_on
    generalizing request skip with
  | _ room ih =>
    have positive := request.positive
    have read := getLogs_of_reads reads start
    have page := lines_logsPage request.limit inked inside
    have next := nextCursor_logsPage skip request.limit inked
    rw [pageOf, left] at page
    split_ifs at next with more
    · have again :
          ReadsLog repr agent { request with cursor := some (encodeLogCursor (skip + request.limit)) } content := reads
      obtain ⟨pages, rest, all⟩ := ih _ (by omega) again (cursorSkip_encode _) (Nat.le_of_lt more) rfl
      have fewer : (splitlines (decode content)).length - (skip + request.limit) = room - request.limit := by omega
      refine ⟨_, .next read next rest, ?_⟩
      rw [List.reverse_cons, List.flatten_append, all, List.flatten_singleton, page, ← List.map_append, fewer]
      congr 1
      conv_rhs => rw [← List.take_append_drop (room - request.limit) ((splitlines (decode content)).take room)]
      rw [List.take_take, Nat.min_eq_left (Nat.sub_le ..)]
    · refine ⟨_, .last read next, ?_⟩
      have whole : room - request.limit = 0 := by omega
      rw [List.reverse_singleton, List.flatten_singleton, page, whole, List.drop_zero]

theorem pages_eq_of_last {pages : List (List (List Char))} {page : LogsPage} (follow : Pages repr agent request pages)
    (read : getLogs repr agent request = .ok page) (ends : page.nextCursor = none) : pages = [page.lines] := by
  cases follow with
  | last read' _ =>
    obtain rfl := Except.ok.inj (read.symm.trans read')
    rfl
  | next read' more _ =>
    obtain rfl := Except.ok.inj (read.symm.trans read')
    rw [ends] at more
    cases more

/-- An empty page with nothing before it is right beyond the beginning. -/
theorem paged_of_empty {page : LogsPage} (read : getLogs repr agent request = .ok page) (ends : page.nextCursor = none)
    (empty : page.lines.length = 0) (beyond : (splitlines (decode content)).length ≤ skip) :
    Paged repr agent request content skip := by
  have none := List.length_eq_zero_iff.mp empty
  refine ⟨⟨_, .last read ends, ?_⟩, page, read, ?_⟩
  · rw [none, Nat.sub_eq_zero_of_le beyond]
    rfl
  · rw [none, pageOf, Nat.sub_eq_zero_of_le beyond, List.take_zero, List.drop_nil]
    rfl

/-- Following the cursors gives each line of a log once and a page is what its cursor says, exactly if the last line
is not empty and the cursor does not reach beyond the beginning, or only far beyond it. -/
theorem paged_iff (reads : ReadsLog repr agent request content) (start : cursorSkip request.cursor = .ok skip) :
    Paged repr agent request content skip ↔ Pageable (splitlines (decode content)) skip := by
  have positive := request.positive
  have read := getLogs_of_reads reads start
  unfold Pageable
  split_ifs with blank
  · obtain ⟨front, lines⟩ : ∃ front, splitlines (decode content) = front ++ [[]] := List.getLast?_eq_some_iff.mp blank
    have ends := nextCursor_of_blank skip request.limit lines
    have length := length_logsPage_of_blank skip request.limit lines
    have total : (splitlines (decode content)).length = front.length + 1 := by simp [lines]
    constructor
    · intro h
      obtain ⟨pages, follow, all⟩ := h.pages
      rw [pages_eq_of_last follow read ends, List.reverse_singleton, List.flatten_singleton] at all
      have same := congrArg List.length all
      rw [length, List.length_map, List.length_take, total] at same
      rw [total]
      split_ifs at same <;> omega
    · rintro ⟨beyond, far⟩
      refine paged_of_empty read ends ?_ beyond
      rw [length, if_neg (by omega)]
      omega
  · have next := nextCursor_logsPage skip request.limit blank
    by_cases inside : skip ≤ (splitlines (decode content)).length
    · refine iff_of_true ?_ (.inl inside)
      exact ⟨pages_of_inked blank reads start inside, _, read, lines_logsPage _ blank inside⟩
    · have length := length_logsPage_of_lt request.limit blank (Nat.lt_of_not_le inside)
      rw [if_neg (by omega)] at next
      constructor
      · intro h
        obtain ⟨page, read', right⟩ := h.page
        obtain rfl := Except.ok.inj (read.symm.trans read')
        rw [right, List.length_map, length_pageOf] at length
        omega
      · intro far
        refine paged_of_empty read next ?_ (by omega)
        omega

/-! ## A short log -/

/-- An agent that may read the logs of a site. -/
def reader (content : ByteString) : AgentView where
  scopes := ["logs:read"]
  principalId := "owner"
  operations _ := none
  instances := ["site"]
  logs _ := [⟨"run", 1, content⟩]

/-- A request for one line of the logs of a site. -/
def oneLine (cursor : Option String) : GetLogsInput where
  instanceId := some "site"
  operationId := none
  category := none
  cursor := cursor
  limit := 1
  positive := Nat.le_refl 1
  exactlyOne := by decide

/-- A log that ends with an empty line has no page before the last one. -/
theorem pages_lost : ¬∀ (repr : String → String) (agent : AgentView) (request : GetLogsInput) (content : ByteString)
    (skip : ℕ), ReadsLog repr agent request content → cursorSkip request.cursor = .ok skip →
    Paged repr agent request content skip := by
  intro all
  have reads : ReadsLog id (reader [0x61, newline, newline]) (oneLine none) [0x61, newline, newline] :=
    ⟨"site", some ⟨"run", 1, [0x61, newline, newline]⟩, by decide, by decide, rfl⟩
  have start : cursorSkip (oneLine none).cursor = .ok 0 := rfl
  obtain ⟨pages, follow, whole⟩ := (all id _ _ _ 0 reads start).pages
  have lines : splitlines (decode [0x61, newline, newline]) = [['a']] ++ [[]] := by decide
  have only := pages_eq_of_last follow (getLogs_of_reads reads start) (nextCursor_of_blank 0 1 lines)
  have one := length_logsPage_of_blank 0 1 lines
  have two := congrArg List.length whole
  rw [only, List.reverse_singleton, List.flatten_singleton, lines] at two
  exact absurd (one.symm.trans two) (by decide)

/-- Two lines are read one after another. -/
theorem paged_iff_two :
    Paged id (reader [0x61, newline, 0x62, newline]) (oneLine none) [0x61, newline, 0x62, newline] 0 := by
  have reads : ReadsLog id (reader [0x61, newline, 0x62, newline]) (oneLine none) [0x61, newline, 0x62, newline] :=
    ⟨"site", some ⟨"run", 1, [0x61, newline, 0x62, newline]⟩, by decide, by decide, rfl⟩
  exact (paged_iff reads rfl).mpr (by decide +kernel)

end LocalWebAccess.AgentLogs
