import LocalWebAccess.KeyedTables
import LocalWebAccess.PageviewHits
import LocalWebAccess.SqlConnections
import Mathlib.Data.Finset.Filter
import Mathlib.Data.Finset.Insert
import Mathlib.Data.Finset.Prod
import Mathlib.Data.List.Sort
import Mathlib.Data.String.Basic

/-!
# The pageview store

`record_hits` adds a batch of hits to the aggregates of an instance, `record_file_batch` does so for
several instances and moves the cursor of their log, and `clear_instance` removes an instance. Each
is one transaction; `record_hits` joins the one that is open already. The schema is in place and
the connection is open.
-/
namespace LocalWebAccess.Pageviews

open KeyedTables RaisingPrograms RaisingPrograms.Prog SqlConnections

/-! ## The tables -/

/-- A row of `pageviews`, under its instance and day. -/
structure DayRow where
  hits : ℕ
  uniqueIps : ℕ
  lastSeen : String
  source : String
deriving DecidableEq

/-- A row of `pageview_ip_stats`, under its instance and remote. -/
structure IpRow where
  hits : ℕ
  lastSeen : String
deriving DecidableEq

/-- A row of `pageview_detail`. -/
structure DetailRow where
  rowid : ℕ
  instanceId : String
  ts : String
  method : String
  path : String
  status : ℤ
  remote : String
deriving DecidableEq

/-- A row of `container_seen`. -/
structure SeenRow where
  rowid : ℕ
  instanceId : String
  lineHash : String
deriving DecidableEq

/-- A row of `ingest_cursor`, under its source key. -/
structure CursorRow where
  offsetBytes : ℕ
  lastTs : Option String
  updatedAt : Option String
deriving DecidableEq

structure Tables where
  pageviews : Table (String × String) DayRow
  /-- `pageview_ips`: the remotes of an instance on a day. -/
  ips : Finset (String × String × String)
  ipStats : Table (String × String) IpRow
  /-- `pageview_detail` in the order of its rowids. -/
  detail : List DetailRow
  /-- `container_seen` in the order of its rowids. -/
  containerSeen : List SeenRow
  cursors : Table String CursorRow

/-- The tables as they are created. -/
def Tables.empty : Tables := ⟨∅, ∅, ∅, [], [], ∅⟩

abbrev Conn := Connection Exn Tables

/-- The error of sqlite about a `BEGIN`, `COMMIT` or `ROLLBACK` out of place. -/
def misuse : Exn := .sqliteError "no such transaction"

/-! ## Batches -/

/-- A page hit with its normalized time and its day. -/
structure PageHit where
  ts : String
  day : String
  hit : AccessHit
deriving DecidableEq

namespace PageHit

def remote (h : PageHit) : String := h.hit.remote

end PageHit

/-- A hit, and what the clock shows while it is recorded. -/
abbrev Access (D : Type) := AccessHit × Clock D

section batches

variable {D : Type} (lib : Libraries D)

/-- The hits of a batch that are page views. -/
def pageHits : List (Access D) → Except Exn (List (Access D))
  | [] => pure []
  | h :: rest => do
    let page ← isPageView lib h.1.method h.1.path h.1.status
    let later ← pageHits rest
    pure (if page then h :: later else later)

def stamp (h : Access D) : Except Exn PageHit := do
  let ts ← normalizeTs lib h.2 h.1.ts
  let day ← dayOf lib h.2 ts
  pure ⟨ts, day, h.1⟩

/-- What a batch has of one day. -/
structure DayBucket where
  hits : ℕ
  ips : List String
  last : String

/-- What a batch has of one remote. -/
structure RemoteBucket where
  hits : ℕ
  last : String

def DayBucket.add (h : PageHit) (b : DayBucket) : DayBucket where
  hits := b.hits + 1
  ips := if h.remote = "" then b.ips else b.ips.insert h.remote
  last := if b.last < h.ts then h.ts else b.last

def RemoteBucket.add (h : PageHit) (b : RemoteBucket) : RemoteBucket where
  hits := b.hits + 1
  last := if b.last < h.ts then h.ts else b.last

def perDay (seen : List PageHit) : Table String DayBucket :=
  seen.foldl (fun buckets h => buckets.upsert h.day (DayBucket.add h ⟨0, [], ""⟩) (DayBucket.add h)) ∅

def perRemote (seen : List PageHit) : Table String RemoteBucket :=
  seen.foldl (fun buckets h =>
    if h.remote = "" then buckets
    else buckets.upsert h.remote (RemoteBucket.add h ⟨0, ""⟩) (RemoteBucket.add h)) ∅

end batches

/-! ## The statements -/

def upsertDay (instanceId source day : String) (b : DayBucket) (t : Tables) : Tables :=
  { t with
    pageviews := t.pageviews.upsert (instanceId, day) ⟨b.hits, 0, b.last, source⟩ fun row =>
      { row with hits := row.hits + b.hits, lastSeen := max row.lastSeen b.last, source } }

def insertIp (instanceId day ip : String) (t : Tables) : Tables :=
  { t with ips := insert (instanceId, day, ip) t.ips }

def countIps (instanceId day : String) (t : Tables) : ℕ :=
  (t.ips.filter fun row => row.1 = instanceId ∧ row.2.1 = day).card

def setUniqueIps (instanceId day : String) (count : ℕ) (t : Tables) : Tables :=
  { t with pageviews := t.pageviews.update (instanceId, day) fun row => { row with uniqueIps := count } }

def upsertIpStats (instanceId remote : String) (st : RemoteBucket) (t : Tables) : Tables :=
  { t with
    ipStats := t.ipStats.upsert (instanceId, remote) ⟨st.hits, st.last⟩ fun row =>
      ⟨row.hits + st.hits, max row.lastSeen st.last⟩ }

/-- The rowid of the next row is above all others. -/
def nextRowid (detail : List DetailRow) : ℕ := (detail.map (·.rowid)).foldr max 0 + 1

def insertDetail (instanceId : String) (h : PageHit) (t : Tables) : Tables :=
  { t with
    detail := t.detail ++
      [⟨nextRowid t.detail, instanceId, h.ts, h.hit.method, h.hit.path, h.hit.status, h.hit.remote⟩] }

/-- `_DETAIL_RETAIN` -/
def detailRetain : ℕ := 500

/-- `SELECT rowid … ORDER BY rowid DESC LIMIT ?` -/
def newestRowids (instanceId : String) (limit : ℕ) (detail : List DetailRow) : List ℕ :=
  (((detail.filter (·.instanceId = instanceId)).map (·.rowid)).insertionSort (· ≥ ·)).take limit

/-- `_truncate_detail` -/
def truncateDetail (instanceId : String) (t : Tables) : Tables :=
  { t with
    detail := t.detail.filter fun row =>
      ¬(row.instanceId = instanceId ∧ row.rowid ∉ newestRowids instanceId detailRetain t.detail) }

def upsertCursor (key : String) (row : CursorRow) (t : Tables) : Tables :=
  { t with cursors := t.cursors.upsert key row fun _ => row }

def deleteCursor (key : String) (t : Tables) : Tables :=
  { t with cursors := t.cursors.deleteWhere (· = key) }

/-! ## The operations -/

section operations

variable {D : Type} (lib : Libraries D)

/-- The statements of `record_hits` about one day of its batch. -/
def recordDay (instanceId source : String) (entry : Sigma fun _ : String => DayBucket) :
    Prog Exn Conn Unit := do
  execute (upsertDay instanceId source entry.1 entry.2)
  forEach (fun ip => execute (insertIp instanceId entry.1 ip)) entry.2.ips
  let count ← select (countIps instanceId entry.1)
  execute (setUniqueIps instanceId entry.1 count)

/-- The statements of `record_hits`. -/
def recordSeen (instanceId source : String) (seen : List PageHit) : Prog Exn Conn Unit := do
  forEach (recordDay instanceId source) (perDay seen).entries
  forEach (fun entry => execute (upsertIpStats instanceId entry.1 entry.2)) (perRemote seen).entries
  forEach (fun h => execute (insertDetail instanceId h)) seen
  execute (truncateDetail instanceId)

/-- `record_hits` -/
def recordHits (instanceId source : String) (hits : List (Access D)) : Prog Exn Conn ℕ := do
  let pages ← ofExcept (pageHits lib hits)
  if pages.isEmpty then pure 0
  else
    let seen ← ofExcept (pages.mapM (stamp lib))
    let ownsTransaction := !(← inTransaction)
    if ownsTransaction then beginImmediate misuse
    handle
      (do
        recordSeen instanceId source seen
        if ownsTransaction then commit misuse)
      (fun e => do
        if ownsTransaction then
          if ← inTransaction then rollback misuse
        raise e)
    pure pages.length

/-- What `record_file_batch` does for one of the instances; the total is returned. -/
def recordEach (source : String) : ℕ → List (String × List (Access D)) → Prog Exn Conn ℕ
  | total, [] => pure total
  | total, (instanceId, hits) :: rest => do
    let count ← recordHits lib instanceId source hits
    recordEach source (total + count) rest

/-- `record_file_batch`, with the cursor as it is to be written. -/
def recordFileBatch (perInstance : List (String × List (Access D))) (source cursorKey : String)
    (next : CursorRow) : Prog Exn Conn ℕ := do
  beginImmediate misuse
  handle
    (do
      let total ← recordEach lib source 0 perInstance
      execute (upsertCursor cursorKey next)
      commit misuse
      pure total)
    (fun e => do
      if ← inTransaction then rollback misuse
      raise e)

/-- `builtin_cursor_key` -/
def builtinCursorKey (instanceId : String) : String := "builtin:" ++ instanceId ++ ":gateway"

/-- `_delete_instance_rows` -/
def deleteInstanceRows (instanceId : String) : Prog Exn Conn Unit := do
  execute fun t => { t with pageviews := t.pageviews.deleteWhere (·.1 = instanceId) }
  execute fun t => { t with detail := t.detail.filter (·.instanceId ≠ instanceId) }
  execute fun t => { t with ips := t.ips.filter (·.1 ≠ instanceId) }
  execute fun t => { t with ipStats := t.ipStats.deleteWhere (·.1 = instanceId) }
  execute fun t => { t with containerSeen := t.containerSeen.filter (·.instanceId ≠ instanceId) }
  let keys ← select (·.cursors.keys)
  forEach
    (fun key =>
      if ("builtin:" ++ instanceId ++ ":").toList <+: key.toList then execute (deleteCursor key)
      else pure ())
    keys
  execute fun t =>
    { t with
      cursors := t.cursors.deleteWhere fun key =>
        key = "container:" ++ instanceId ∨ key = builtinCursorKey instanceId }

/-- `clear_instance` -/
def clearInstance (instanceId : String) : Prog Exn Conn Unit := do
  beginImmediate misuse
  handle
    (do
      deleteInstanceRows instanceId
      commit misuse)
    (fun e => do
      rollback misuse
      raise e)

end operations

end LocalWebAccess.Pageviews
