import LocalWebAccess.PythonText

/-!
# SQLite URLs

How a value of `DATABASE_URL` is read: `parse_sqlite_url` after `_strip_env_quotes` on the side of
the program, and the rules for quotes and comments in dotenv files on the side of the container.
-/
namespace LocalWebAccess.SqliteUrls
open PythonText

/-! ## The values of dotenv files -/

def isQuote (c : Char) : Bool := c.toNat = 0x22 || c.toNat = 0x27

def stripEnvQuotes (value : List Char) : List Char :=
  match strip value with
  | [] => []
  | c :: rest => if isQuote c = true ∧ rest.getLast? = some c then strip rest.dropLast else c :: rest

/-- A value without quotes, up to a comment: a `#` that follows a blank. -/
def uncommented : List Char → List Char
  | [] => []
  | c :: rest => if isSpace c = true ∧ rest.head? = some '#' then [] else c :: uncommented rest

/-- The value that the container is given: what stands between the quotes, or what stands
before a comment. -/
def dotenvValue (value : List Char) : List Char :=
  match strip value with
  | [] => []
  | c :: rest => if isQuote c = true ∧ c ∈ rest then rest.takeWhile (· ≠ c) else rstrip (uncommented (c :: rest))

/-! ## URLs -/

structure Url where
  scheme : List Char
  netloc : List Char
  path : List Char
  query : List Char
  deriving DecidableEq

def isSchemeChar (c : Char) : Bool := c.isAlphanum || c ∈ ['+', '-', '.']

/-- `urlsplit` of `urllib.parse`. A network location that it refuses is kept: it is not empty. -/
def urlsplit (text : List Char) : Url :=
  let url := (text.dropWhile fun c => c.toNat ≤ 0x20).filter fun c => c ∉ ['\t', '\r', '\n']
  let before := url.takeWhile (· ≠ ':')
  let hasScheme := decide (':' ∈ url) && (before.head?.any Char.isAlpha && before.all isSchemeChar)
  let rest := if hasScheme then (url.dropWhile (· ≠ ':')).tail else url
  let hasNetloc := ['/', '/'].isPrefixOf rest
  let netloc := if hasNetloc then (rest.drop 2).takeWhile (· ∉ ['/', '?', '#']) else []
  let located := (if hasNetloc then (rest.drop 2).dropWhile (· ∉ ['/', '?', '#']) else rest).takeWhile (· ≠ '#')
  { scheme := if hasScheme then before.map Char.toLower else []
    netloc := netloc
    path := located.takeWhile (· ≠ '?')
    query := (located.dropWhile (· ≠ '?')).tail }

def sqliteScheme : List Char := ['s', 'q', 'l', 'i', 't', 'e']

def sqliteUrlDir : List Char := ['/', 'a', 'p', 'p', '/', 'd', 'a', 't', 'a']

structure SqliteFile where
  dir : List Char
  name : List Char
  query : List Char
  deriving DecidableEq

/-- `parse_sqlite_url`, after the quotes are dropped. -/
def sqliteFile (url : List Char) : Option SqliteFile :=
  let parsed := urlsplit url
  if parsed.scheme ≠ sqliteScheme ∨ parsed.netloc ≠ [] then none
  else match parsed.path with
    | '/' :: fsPath =>
      let name := fsPath.rtakeWhile (· ≠ '/')
      if fsPath = [] ∨ fsPath.head? = some ':' ∨ name = [] then none
      else some ⟨(fsPath.rdropWhile (· ≠ '/')).dropLast, name, parsed.query⟩
    | _ => none

def parseSqliteUrl (value : List Char) : Option SqliteFile := sqliteFile (stripEnvQuotes value)

/-- The file and the query of a URL into the data directory of the container. -/
def managedFile (file : Option SqliteFile) : Option (List Char × List Char) :=
  match file with
  | some ⟨dir, name, query⟩ => if dir = sqliteUrlDir then some (name, query) else none
  | none => none

/-- The file that the program takes a value for. -/
def codeReading (value : List Char) : Option (List Char × List Char) := managedFile (parseSqliteUrl value)

/-- The file that a value means to the container. -/
def dotenvReading (value : List Char) : Option (List Char × List Char) := managedFile (sqliteFile (dotenvValue value))

/-! ## The URLs that are written -/

/-- A character that stands for itself in the path of a URL on a line of an env file. -/
def isPlain (c : Char) : Bool := !isLineBreak c && c ∉ ['\t', '#', '?', '/']

/-- A file name that can be written into a URL as it is. -/
structure PlainName (name : List Char) : Prop where
  nonempty : name ≠ []
  plain : ∀ c ∈ name, isPlain c = true
  stripped : rstrip name = name

/-- A query that a URL on a line of an env file can have. -/
def PlainQuery (query : List Char) : Prop := ∀ c ∈ query, isLineBreak c = false ∧ c ≠ '\t' ∧ c ≠ '#'

theorem PlainName.ne {name : List Char} (plain : PlainName name) {c d : Char} (mem : c ∈ name)
    (marks : isPlain d = false) : c ≠ d := by
  rintro rfl
  rw [plain.plain c mem] at marks
  cases marks

theorem PlainQuery.stripped {query : List Char} (plain : PlainQuery query) : PlainQuery (rstrip query) :=
  fun c mem => plain c ((rstrip_isInitial query).subset mem)

end LocalWebAccess.SqliteUrls
