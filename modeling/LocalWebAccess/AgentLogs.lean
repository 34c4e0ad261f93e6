import LocalWebAccess.AgentContracts
import LocalWebAccess.Base64
import LocalWebAccess.Utf8Replacement
import Mathlib.Data.List.DropRight
import Mathlib.Data.List.MinMax
import Mathlib.Data.Int.Order.Basic

/-!
# Logs for agents

`get_logs` returns a page of a log, counted from its end, and a cursor for the page before it. The cursor
is the number of lines to skip, and the file is read backwards only as far as the page needs.
-/
namespace LocalWebAccess.AgentLogs
open PythonText Utf8Replacement
open AgentOperations (AgentErrorCode AgentServiceError serviceError)

/-! ## Integers in texts -/

/-- The zeros of the decimal digits of Unicode. -/
def zeros : List ℕ :=
  [0x30, 0x660, 0x6f0, 0x7c0, 0x966, 0x9e6, 0xa66, 0xae6, 0xb66, 0xbe6, 0xc66, 0xce6, 0xd66, 0xde6, 0xe50, 0xed0, 0xf20,
    0x1040, 0x1090, 0x17e0, 0x1810, 0x1946, 0x19d0, 0x1a80, 0x1a90, 0x1b50, 0x1bb0, 0x1c40, 0x1c50, 0xa620, 0xa8d0,
    0xa900, 0xa9d0, 0xa9f0, 0xaa50, 0xabf0, 0xff10, 0x104a0, 0x10d30, 0x11066, 0x110f0, 0x11136, 0x111d0, 0x112f0,
    0x11450, 0x114d0, 0x11650, 0x116c0, 0x11730, 0x118e0, 0x11950, 0x11c50, 0x11d50, 0x11da0, 0x11f50, 0x16a60, 0x16ac0,
    0x16b50, 0x1d7ce, 0x1d7d8, 0x1d7e2, 0x1d7ec, 0x1d7f6, 0x1e140, 0x1e2f0, 0x1e4f0, 0x1e950, 0x1fbf0]

/-- `unicodedata.decimal` -/
def decimal (c : Char) : Option ℕ :=
  (zeros.find? fun first => first ≤ c.toNat ∧ c.toNat < first + 10).map (c.toNat - ·)

/-- Digits, with single underscores between them. -/
def digits (text : List Char) : Option ℕ :=
  let parts := text.splitOn '_'
  if [] ∈ parts then none
  else (parts.flatten.mapM decimal).map fun values => values.foldl (fun n v => 10 * n + v) 0

/-- `int` of a text, `none` where it raises. -/
def int (text : List Char) : Option ℤ :=
  match strip text with
  | '-' :: rest => (digits rest).map fun n => -(n : ℤ)
  | '+' :: rest => (digits rest).map fun n => (n : ℤ)
  | rest => (digits rest).map fun n => (n : ℤ)

/-! ## Cursors -/

def invalidCursor : AgentServiceError := serviceError .needsInput "分页 cursor 无效" []

/-- `_decode_cursor` -/
def decodeCursor (cursor : String) : Except AgentServiceError String :=
  if cursor.toList.all (·.toNat < 128) then
    match (Base64.decode Base64.urlsafe cursor.toList).bind fun bytes => String.fromUTF8? ⟨bytes.toArray⟩ with
    | some text => if text = "" then .error invalidCursor else .ok text
    | none => .error invalidCursor
  else .error invalidCursor

def skipText : List Char := "skip:".toList

/-- `_encode_log_cursor` -/
def encodeLogCursor (skip : ℕ) : String :=
  String.ofList (Base64.encode Base64.urlsafe ("skip:" ++ toString skip).toByteArray.data.toList)

/-- `_decode_log_cursor` -/
def decodeLogCursor (cursor : String) : Except AgentServiceError ℕ :=
  match decodeCursor cursor with
  | .error e => .error e
  | .ok text =>
    if skipText <+: text.toList then
      match int (text.toList.drop skipText.length) with
      | some value => if value < 0 then .error invalidCursor else .ok value.toNat
      | none => .error invalidCursor
    else .error invalidCursor

/-! ## Redaction -/

/-- A pattern for a word in any case, blanks where it wants them, and a secret of so many characters. -/
structure Secret where
  word : List Char
  blanks : Bool
  inside : Char → Bool
  least : ℕ

/-- A letter in any case; the Kelvin sign is a capital K. -/
def sameLetter (letter c : Char) : Bool := c = letter || lowerChar c = [letter]

/-- The length of the word with its blanks, and of the secret, where the pattern matches. -/
def Secret.found (p : Secret) (text : List Char) : Option (ℕ × ℕ) :=
  let rest := text.drop p.word.length
  let blanks := if p.blanks then rest.takeWhile isSpace else []
  let secret := (rest.drop blanks.length).takeWhile p.inside
  if p.word.length ≤ text.length ∧ (p.word.zip text).all (fun pair => sameLetter pair.1 pair.2) ∧
      (p.blanks → blanks ≠ []) ∧ p.least ≤ secret.length then
    some (p.word.length + blanks.length, secret.length)
  else none

/-- `re.sub`, so many characters before the end of a match. -/
def Secret.sub (p : Secret) : ℕ → List Char → List Char
  | _, [] => []
  | n + 1, _ :: text => p.sub n text
  | 0, c :: text =>
    match p.found (c :: text) with
    | some (kept, secret) => (c :: text).take kept ++ "***".toList ++ p.sub (kept + secret - 1) text
    | none => c :: p.sub 0 text

/-- `[A-Za-z0-9._~+/=-]` in any case, with the letters beyond ASCII that have a case in it. -/
def tokenChar (c : Char) : Bool :=
  c.isAlphanum || c ∈ ['.', '_', '~', '+', '/', '=', '-'] || c.toNat ∈ [0x130, 0x131, 0x17f, 0x212a]

/-- `_BEARER_RE` -/
def bearer : Secret := ⟨"bearer".toList, true, tokenChar, 8⟩

def tokenParameter : Secret := ⟨"token=".toList, false, fun c => c ≠ '&' && !isSpace c, 1⟩

/-- `_redact_log_line` -/
def redactLogLine (line : List Char) : List Char := tokenParameter.sub 0 (bearer.sub 0 line)

/-! ## The end of a file -/

/-- `_TAIL_CHUNK` -/
def tailChunk : ℕ := 8192

/-- The loop of `tail_text_file`. -/
def readBack (content : ByteString) (n pos : ℕ) (data : ByteString) (newlines : ℕ) : ByteString :=
  if 0 < pos ∧ newlines ≤ n then
    let step := min tailChunk pos
    let block := (content.drop (pos - step)).take step
    readBack content n (pos - step) (block ++ data) (newlines + block.count newline)
  else data
termination_by pos
decreasing_by
  unfold tailChunk
  omega

/-- `tail_text_file` -/
def tailTextFile (content : ByteString) (n : ℕ) : List Char :=
  if n = 0 then universalNewlines (decode content)
  else ['\n'].intercalate ((splitlines (decode (readBack content n content.length [] 0))).rtake n)

/-! ## Pages -/

/-- A log with its category, which is the name of the file. -/
structure LogInfo where
  category : String
  mtime : ℤ
  content : ByteString
  deriving DecidableEq

/-- `LogsPage` -/
structure LogsPage where
  lines : List (List Char)
  nextCursor : Option String
  truncated : Bool
  deriving DecidableEq

/-- A text that is neither missing nor empty. -/
def given (value : Option String) : Option String := value.filter (· ≠ "")

/-- `GetLogsInput`. A limit of more than 200 is not sent, and nothing depends on that. -/
structure GetLogsInput where
  instanceId : Option String
  operationId : Option String
  category : Option String
  cursor : Option String
  limit : ℕ
  positive : 1 ≤ limit
  exactlyOne : (given instanceId).isSome ≠ (given operationId).isSome

/-- The principal of a call, and what the registry and the directories of logs have. -/
structure AgentView where
  scopes : List String
  principalId : String
  /-- The principal and the target of an operation. -/
  operations : String → Option (String × Option String)
  instances : List String
  /-- `list_logs`, in the order of the names. -/
  logs : String → List LogInfo

/-- `_LOG_CATEGORIES`, in order. -/
def logCategories : List String := ["build", "gateway", "import", "run", "scan"]

/-- `lines[:stop]` -/
def sliceTo {α : Type} (lines : List α) (stop : ℤ) : List α :=
  lines.take (if stop < 0 then stop + lines.length else stop).toNat

variable (repr : String → String) (agent : AgentView) (request : GetLogsInput)

/-- The instance of an operation of the principal. -/
def operationInstance (operationId : String) : Except AgentServiceError String :=
  let missing := serviceError .needsInput ("操作 " ++ operationId ++ " 不存在") [("operationId", operationId)]
  match agent.operations operationId with
  | none => .error missing
  | some (principal, target) =>
    if principal ≠ agent.principalId then .error missing
    else
      match given target with
      | some id => .ok id
      | none =>
        .error (serviceError .needsInput ("操作 " ++ operationId ++ " 尚未关联实例") [("operationId", operationId)])

/-- The instance that a request names, itself or by an operation. -/
def namedInstance : Except AgentServiceError String :=
  match given request.instanceId with
  | some id => .ok id
  | none => operationInstance agent (request.operationId.getD "")

/-- The instance whose logs are read. -/
def logInstance : Except AgentServiceError String :=
  if "logs:read" ∉ agent.scopes then .error (serviceError .permissionDenied "主体无权执行该操作" [])
  else
    match namedInstance agent request with
    | .error e => .error e
    | .ok id =>
      if id ∈ agent.instances then .ok id
      else .error (serviceError .needsInput ("实例 " ++ id ++ " 不存在") [("instanceId", id)])

/-- The lines that the cursor skips. -/
def cursorSkip (cursor : Option String) : Except AgentServiceError ℕ :=
  match given cursor with
  | some cursor => decodeLogCursor cursor
  | none => .ok 0

/-- The category of a request, without blanks. -/
def requestedCategory : Option String := given (some (String.ofList (strip (request.category.getD "").toList)))

/-- The log that is read, if there is one. -/
def chosenLog (id : String) : Except AgentServiceError (Option LogInfo) :=
  let infos := (agent.logs id).filter (0 < ·.content.length)
  if infos = [] then .ok none
  else
    match requestedCategory request with
    | some category =>
      if category ∉ logCategories then
        .error (serviceError .needsInput
          ("未知日志类别 " ++ repr category ++ "（可选：" ++ "/".intercalate logCategories ++ "）") [("instanceId", id)])
      else .ok (infos.find? (·.category = category))
    | none => .ok (@List.argmax LogInfo ℤ Int.instLinearOrder.toPreorder _ LogInfo.mtime infos)

/-- The page that ends so many lines before the end of a log. -/
def logsPage (content : ByteString) (skip limit : ℕ) : LogsPage :=
  let lines := splitlines (tailTextFile content (skip + limit + 1))
  let hasMore := skip + limit < lines.length
  let window := if skip = 0 then lines else sliceTo lines (lines.length - skip)
  { lines := (window.rtake limit).map redactLogLine
    nextCursor := if hasMore then some (encodeLogCursor (skip + limit)) else none
    truncated := hasMore }

/-- `get_logs`. How a text is quoted in a message is a parameter. -/
def getLogs : Except AgentServiceError LogsPage :=
  match logInstance agent request with
  | .error e => .error e
  | .ok id =>
    match cursorSkip request.cursor with
    | .error e => .error e
    | .ok skip =>
      match chosenLog repr agent request id with
      | .error e => .error e
      | .ok none => .ok ⟨[], none, false⟩
      | .ok (some info) => .ok (logsPage info.content skip request.limit)

end LocalWebAccess.AgentLogs
