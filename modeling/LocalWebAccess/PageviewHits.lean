import LocalWebAccess.PythonText
import Mathlib.Data.Int.Notation

/-!
# Page views among the hits of an access log

A hit counts as a page view by its method, its status and its path. Its time is normalized to UTC,
and its day is the local one. What `urllib.parse` and `datetime` return is left to the environment.
-/
namespace LocalWebAccess.Pageviews

/-- The exceptions that the store has to do with. -/
inductive Exn where
  | valueError
  | overflowError
  | osError
  | sqliteError (message : String)
deriving DecidableEq

structure AccessHit where
  ts : String
  method : String
  path : String
  status : ℤ
  remote : String
deriving DecidableEq

/-- The library functions on URLs and on the times `D` of `datetime`. -/
structure Libraries (D : Type) where
  /-- `urlsplit`, as far as its path and its query. -/
  urlsplit : String → Except Exn (String × String)
  unquote : String → String
  fromisoformat : String → Except Exn D
  /-- The time has a `tzinfo`. -/
  aware : D → Bool
  /-- `astimezone()` -/
  astimezone : D → Except Exn D
  /-- `astimezone(timezone.utc)` -/
  utc : D → Except Exn D
  isoformat : D → String
  /-- `int(timestamp() * 1_000_000_000)` -/
  timestampNs : D → ℤ
  /-- `date().isoformat()` -/
  date : D → String

/-- What `datetime.now(timezone.utc)` and `datetime.now().astimezone()` return at some moment. -/
structure Clock (D : Type) where
  utcNow : D
  localNow : D

variable {D : Type} (lib : Libraries D)

/-! ## Times -/

/-- `_parse_iso_ts` -/
def parseIsoTs (isoTs : String) : Except Exn D := do
  let text := (PythonText.strip isoTs.toList).flatMap fun c => if c = 'Z' then "+00:00".toList else [c]
  let dt ← lib.fromisoformat (String.ofList text)
  if lib.aware dt then pure dt else lib.astimezone dt

/-- `_normalize_ts` -/
def normalizeTs (clock : Clock D) (isoTs : String) : Except Exn String :=
  match parseIsoTs lib isoTs >>= lib.utc with
  | .ok dt => .ok (lib.isoformat dt)
  | .error .valueError => .ok (lib.isoformat clock.utcNow)
  | .error e => .error e

/-- `_day_of` -/
def dayOf (clock : Clock D) (isoTs : String) : Except Exn String :=
  match parseIsoTs lib isoTs >>= lib.astimezone with
  | .ok dt => .ok (lib.date dt)
  | .error .valueError => .ok (lib.date clock.localNow)
  | .error e => .error e

/-- `_cursor_updated_at_ns` -/
def cursorUpdatedAtNs : Option String → Except Exn (Option ℤ)
  | none => pure none
  | some updatedAt =>
    if updatedAt = "" then pure none
    else match parseIsoTs lib updatedAt with
      | .ok dt => pure (some (lib.timestampNs dt))
      | .error .valueError => pure none
      | .error e => .error e

/-! ## Page views -/

/-- `_ASSET_EXT` -/
def assetExt : List String :=
  [".js", ".mjs", ".css", ".map", ".png", ".jpg", ".jpeg", ".gif", ".webp", ".avif", ".svg", ".ico",
    ".bmp", ".woff", ".woff2", ".ttf", ".eot", ".otf", ".mp4", ".webm", ".mov", ".mp3", ".ogg", ".wav",
    ".wasm", ".json", ".xml", ".txt", ".pdf", ".zip", ".gz", ".webmanifest"]

/-- `_NON_PAGE_PATHS` -/
def nonPagePaths : List String := ["/api", "/graphql", "/health", "/healthz", "/metrics"]

/-- `_has_probe_marker` -/
def hasProbeMarker (query : String) : Bool :=
  (query.toList.splitOn '&').any fun pair => pair.takeWhile (· != '=') == "__lwa_probe".toList

/-- The last segment of a path without slashes at its end. -/
def lastSegment (segPath : List Char) : List Char :=
  (segPath.rdropWhile (· == '/')).rtakeWhile (· != '/')

/-- The last segment ends with the extension of an asset. -/
def isAsset (lastSeg : List Char) : Bool :=
  '.' ∈ lastSeg && String.ofList (PythonText.lower ('.' :: lastSeg.rtakeWhile (· != '.'))) ∈ assetExt

/-- `_is_page_view`. Of the letters only ASCII ones have upper cases in `GET`. -/
def isPageView (method path : String) (status : ℤ) : Except Exn Bool :=
  if method.toList.map Char.toUpper ≠ "GET".toList then pure false
  else if status ≠ 304 ∧ (status < 200 ∨ status > 299 ∨ status = 204 ∨ status = 206) then pure false
  else do
    let (path, query) ← lib.urlsplit path
    if hasProbeMarker query then pure false
    else
      let unquoted := lib.unquote path
      let segPath := if unquoted = "" then "/" else unquoted
      if segPath ∈ nonPagePaths ∨ "/api/".toList <+: segPath.toList then pure false
      else pure !isAsset (lastSegment segPath.toList)

end LocalWebAccess.Pageviews
