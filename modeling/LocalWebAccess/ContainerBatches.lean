import LocalWebAccess.PageviewCalls

/-!
# Batches of container logs

`record_container_batch` records the lines of a window that its table of hashes does not have yet, and
keeps the newest hashes of the instance. All of it is one transaction.
-/
namespace LocalWebAccess.Pageviews

open KeyedTables RaisingPrograms RaisingPrograms.Prog SqlConnections

/-- `_CONTAINER_SEEN_RETAIN` -/
def containerSeenRetain : ℕ := 3000

/-- The rowid of the next row is above all others. -/
def nextSeenRowid (seen : List SeenRow) : ℕ := (seen.map (·.rowid)).foldr max 0 + 1

def isSeen (instanceId lineHash : String) (seen : List SeenRow) : Bool :=
  seen.any fun row => row.instanceId = instanceId ∧ row.lineHash = lineHash

/-- `INSERT OR IGNORE INTO container_seen` -/
def insertOrIgnore (instanceId lineHash : String) (seen : List SeenRow) : List SeenRow :=
  if isSeen instanceId lineHash seen then seen else seen ++ [⟨nextSeenRowid seen, instanceId, lineHash⟩]

/-- `SELECT rowid … ORDER BY rowid DESC LIMIT ?` -/
def newestSeen (instanceId : String) (limit : ℕ) (seen : List SeenRow) : List ℕ :=
  (((seen.filter (·.instanceId = instanceId)).map (·.rowid)).insertionSort (· ≥ ·)).take limit

/-- The hashes of the instance that are kept. -/
def truncateSeen (instanceId : String) (seen : List SeenRow) : List SeenRow :=
  seen.filter fun row => ¬(row.instanceId = instanceId ∧ row.rowid ∉ newestSeen instanceId containerSeenRetain seen)

/-- Rows that another source has written. -/
def otherSource (instanceId : String) (t : Tables) : Bool :=
  t.pageviews.entries.any fun row => row.1.1 = instanceId ∧ row.2.source ≠ "container"

/-- `max` of texts, of which there is one. -/
def latest : List String → String
  | [] => ""
  | ts :: rest => rest.foldl max ts

section operations

variable {D α : Type} (lib : Libraries D)

/-- The loop over the lines: those that are new. -/
def insertSeen (instanceId : String) : List (String × α) → Prog Exn Conn (List α)
  | [] => pure []
  | (lineHash, hit) :: pairs => do
    let inserted ← executeReporting (fun t => !isSeen instanceId lineHash t.containerSeen) fun t =>
      { t with containerSeen := insertOrIgnore instanceId lineHash t.containerSeen }
    let newHits ← insertSeen instanceId pairs
    pure (if inserted then hit :: newHits else newHits)

/-- The normalized times of a batch. -/
def normalizedTimes (hits : List (Access D)) : Except Exn (List String) :=
  hits.mapM fun h => normalizeTs lib h.2 h.1.ts

/-- The counts of another source give way to those of the container. -/
def switchSource (instanceId : String) : Prog Exn Conn Unit := do
  let changed ← select (otherSource instanceId)
  if changed then deleteInstanceRows instanceId else pure ()

def advanceCursor (cursorKey now : String) (newHits : List (Access D)) : Prog Exn Conn Unit :=
  if newHits = [] then pure ()
  else do
    let times ← ofExcept (normalizedTimes lib newHits)
    execute (upsertCursor cursorKey ⟨0, some (latest times), some now⟩)

/-- The statements of `record_container_batch`. -/
def recordNew (instanceId : String) (pairs : List (String × Access D)) (cursorKey now : String) :
    Prog Exn Conn ℕ := do
  switchSource instanceId
  let newHits ← insertSeen instanceId pairs
  execute fun t => { t with containerSeen := truncateSeen instanceId t.containerSeen }
  let total ← recordHits lib instanceId "container" newHits
  advanceCursor lib cursorKey now newHits
  pure total

/-- `record_container_batch` -/
def recordContainerBatch (instanceId : String) (pairs : List (String × Access D)) (cursorKey now : String) :
    Prog Exn Conn ℕ :=
  if pairs.isEmpty then pure 0
  else do
    beginImmediate misuse
    handle
      (do
        let total ← recordNew lib instanceId pairs cursorKey now
        commit misuse
        pure total)
      (fun e => do
        if ← inTransaction then rollback misuse
        raise e)

end operations

/-! ## What a batch makes of the tables -/

/-- The hashes after the loop. -/
def seenAfter {α : Type} (instanceId : String) (pairs : List (String × α)) (seen : List SeenRow) : List SeenRow :=
  pairs.foldl (fun seen pair => insertOrIgnore instanceId pair.1 seen) seen

/-- The lines that the loop finds new. -/
def newOf {α : Type} (instanceId : String) : List (String × α) → List SeenRow → List α
  | [], _ => []
  | (lineHash, hit) :: pairs, seen =>
    let later := newOf instanceId pairs (insertOrIgnore instanceId lineHash seen)
    if isSeen instanceId lineHash seen then later else hit :: later

section operations

variable {D α : Type} (lib : Libraries D)

theorem writes_insertSeen (i : String) (pairs : List (String × α)) (t : Tables) :
    Writes (insertSeen i pairs) t (newOf i pairs t.containerSeen)
      { t with containerSeen := seenAfter i pairs t.containerSeen } := by
  induction pairs generalizing t with
  | nil => exact writes_pure [] t
  | cons pair pairs ih =>
    obtain ⟨lineHash, hit⟩ := pair
    refine (writes_executeReporting _ _ t).bind ((ih _).bind ?_)
    have same : (if (!isSeen i lineHash t.containerSeen) = true then
        hit :: newOf i pairs (insertOrIgnore i lineHash t.containerSeen)
        else newOf i pairs (insertOrIgnore i lineHash t.containerSeen)) =
        newOf i ((lineHash, hit) :: pairs) t.containerSeen := by
      rw [newOf]
      cases isSeen i lineHash t.containerSeen <;> rfl
    rw [← same]
    exact writes_pure _ _

/-- The tables of an instance whose rows another source has written are cleared first. -/
def switched (i : String) (t : Tables) : Tables := if otherSource i t then instanceCleared i t else t

/-- The hits of a batch that are recorded. -/
def newHits (i : String) (pairs : List (String × α)) (t : Tables) : List α := newOf i pairs (switched i t).containerSeen

def seenTruncated (i : String) (pairs : List (String × α)) (t : Tables) : Tables :=
  { switched i t with containerSeen := truncateSeen i (seenAfter i pairs (switched i t).containerSeen) }

def cursorAdvanced (cursorKey now : String) (hits : List (Access D)) (t : Tables) : Tables :=
  if hits = [] then t else upsertCursor cursorKey ⟨0, (normalizedTimes lib hits).toOption.map latest, some now⟩ t

/-- The tables after a batch. -/
def containerRecorded (i : String) (pairs : List (String × Access D)) (cursorKey now : String) (t : Tables) : Tables :=
  if pairs = [] then t
  else cursorAdvanced lib cursorKey now (newHits i pairs t)
    (hitsRecorded lib i "container" (newHits i pairs t) (seenTruncated i pairs t))

theorem writes_switchSource (i : String) (t : Tables) : Writes (switchSource i) t () (switched i t) := by
  refine (writes_select _ t).bind ?_
  unfold switched
  split_ifs
  · exact writes_deleteInstanceRows i t
  · exact writes_pure () t

theorem writes_advanceCursor (cursorKey now : String) (hits : List (Access D)) (t : Tables) :
    Writes (advanceCursor lib cursorKey now hits) t () (cursorAdvanced lib cursorKey now hits t) := by
  unfold advanceCursor cursorAdvanced
  split_ifs
  · exact writes_pure () t
  · refine writes_ofExcept fun times found => ?_
    rw [found]
    exact writes_execute _ t

/-- A batch is recorded as a whole, or changes nothing. -/
theorem recordContainerBatch_spec (i : String) (pairs : List (String × Access D)) (cursorKey now : String)
    (t : Tables) :
    Triple (Idle t) (recordContainerBatch lib i pairs cursorKey now)
      (fun _ => Idle (containerRecorded lib i pairs cursorKey now t)) (fun _ => Idle t) := by
  unfold recordContainerBatch containerRecorded
  cases pairs with
  | nil => exact triple_pure fun _ closed => closed
  | cons pair pairs =>
    have body : Writes (recordNew lib i (pair :: pairs) cursorKey now) t _ _ :=
      (writes_switchSource i t).bind ((writes_insertSeen i (pair :: pairs) _).bind ((writes_execute _ _).bind
        ((writes_recordHits lib i "container" _ _).bind ((writes_advanceCursor lib cursorKey now _ _).bind
          (writes_pure _ _)))))
    have whole := transaction misuse body fun e => rollback_inTransaction misuse e
    exact whole.consequence (fun _ h => h) (fun _ _ h => h.2) (fun _ _ h => h)

end operations

end LocalWebAccess.Pageviews
