import LocalWebAccess.ContainerBatches
import LocalWebAccess.RecentKeys

/-!
# Windows of a container log

Every call reads the last lines of a log that grows, as far back as its tail reaches. No line is counted
by two calls, although only the newest hashes are kept.
-/
namespace LocalWebAccess.Pageviews

open KeyedTables RaisingPrograms SqlConnections RecentKeys

variable {i j : String} {t : Tables} {seen : List SeenRow}

/-! ## The hashes of an instance -/

def hashesOf (i : String) (seen : List SeenRow) : List String := (seen.filter (·.instanceId = i)).map (·.lineHash)

/-- The rows ascend, and the hashes of an instance are a primary key. -/
structure SeenKeyed (seen : List SeenRow) : Prop where
  ordered : (seen.map (·.rowid)).Pairwise (· < ·)
  distinct : ∀ i, (hashesOf i seen).Nodup

theorem hashesOf_append (i : String) (seen more : List SeenRow) :
    hashesOf i (seen ++ more) = hashesOf i seen ++ hashesOf i more := by
  rw [hashesOf, List.filter_append, List.map_append]
  rfl

theorem isSeen_iff {lineHash : String} : isSeen i lineHash seen = true ↔ lineHash ∈ hashesOf i seen := by
  simp [isSeen, hashesOf, and_assoc]

theorem hashesOf_insertOrIgnore (i lineHash : String) (seen : List SeenRow) :
    hashesOf i (insertOrIgnore i lineHash seen) = note lineHash (hashesOf i seen) := by
  unfold insertOrIgnore
  split_ifs with known
  · rw [note_of_mem (isSeen_iff.mp known)]
  · rw [note_of_not_mem (fun mem => known (isSeen_iff.mpr mem)), hashesOf_append]
    simp [hashesOf]

theorem hashesOf_insertOrIgnore_of_ne (other : j ≠ i) (lineHash : String) (seen : List SeenRow) :
    hashesOf j (insertOrIgnore i lineHash seen) = hashesOf j seen := by
  unfold insertOrIgnore
  split_ifs
  · rfl
  · rw [hashesOf_append]
    simp [hashesOf, Ne.symm other]

theorem ordered_insertOrIgnore (i lineHash : String) (ordered : (seen.map (·.rowid)).Pairwise (· < ·)) :
    ((insertOrIgnore i lineHash seen).map (·.rowid)).Pairwise (· < ·) := by
  unfold insertOrIgnore
  split_ifs
  · exact ordered
  · rw [List.map_append, List.pairwise_append]
    refine ⟨ordered, List.pairwise_singleton _ _, fun rowid among last final => ?_⟩
    rw [List.mem_singleton.mp final]
    exact lt_foldr_max_succ among

theorem hashesOf_seenAfter {α : Type} (i : String) (pairs : List (String × α)) (seen : List SeenRow) :
    hashesOf i (seenAfter i pairs seen) = noteAll pairs (hashesOf i seen) := by
  induction pairs generalizing seen with
  | nil => rfl
  | cons pair pairs ih =>
    rw [seenAfter, List.foldl_cons, noteAll, List.foldl_cons, ← hashesOf_insertOrIgnore]
    exact ih _

theorem hashesOf_seenAfter_of_ne {α : Type} (other : j ≠ i) (pairs : List (String × α)) (seen : List SeenRow) :
    hashesOf j (seenAfter i pairs seen) = hashesOf j seen := by
  induction pairs generalizing seen with
  | nil => rfl
  | cons pair pairs ih =>
    rw [seenAfter, List.foldl_cons]
    exact (ih _).trans (hashesOf_insertOrIgnore_of_ne other pair.1 seen)

theorem ordered_seenAfter {α : Type} (i : String) (pairs : List (String × α))
    (ordered : (seen.map (·.rowid)).Pairwise (· < ·)) :
    ((seenAfter i pairs seen).map (·.rowid)).Pairwise (· < ·) := by
  induction pairs generalizing seen with
  | nil => exact ordered
  | cons pair pairs ih =>
    rw [seenAfter, List.foldl_cons]
    exact ih (ordered_insertOrIgnore i pair.1 ordered)

theorem newOf_eq_fresh {α : Type} (i : String) (pairs : List (String × α)) (seen : List SeenRow) :
    newOf i pairs seen = fresh pairs (hashesOf i seen) := by
  induction pairs generalizing seen with
  | nil => rfl
  | cons pair pairs ih =>
    obtain ⟨lineHash, hit⟩ := pair
    rw [newOf, fresh, ih, hashesOf_insertOrIgnore]
    simp only [isSeen_iff]

/-- The newest hashes are kept. -/
theorem hashesOf_truncateSeen (i : String) (ordered : (seen.map (·.rowid)).Pairwise (· < ·)) :
    hashesOf i (truncateSeen i seen) = (hashesOf i seen).rtake containerSeenRetain := by
  have own : (truncateSeen i seen).filter (·.instanceId = i) = (seen.filter (·.instanceId = i)).filter fun row =>
      row.rowid ∈ newestSeen i containerSeenRetain seen := by
    rw [truncateSeen, List.filter_filter, List.filter_filter]
    apply List.filter_congr
    intro row _
    by_cases mine : row.instanceId = i <;> simp [mine]
  have ascends : ((seen.filter (·.instanceId = i)).map (·.rowid)).Pairwise (· < ·) :=
    ordered.sublist (List.Sublist.map _ List.filter_sublist)
  rw [hashesOf, own, newestSeen, filter_rowid_mem ascends]
  simp only [hashesOf, List.rtake_eq_reverse_take_reverse, List.map_reverse, List.map_take]

theorem hashesOf_truncateSeen_of_ne (other : j ≠ i) (seen : List SeenRow) :
    hashesOf j (truncateSeen i seen) = hashesOf j seen := by
  rw [hashesOf, truncateSeen, List.filter_filter, hashesOf]
  congr 1
  apply List.filter_congr
  intro row _
  by_cases mine : row.instanceId = j
  · simp [mine, other]
  · simp [mine]

/-! ## The tables after a batch -/

theorem instanceCleared_frame (i : String) (t : Tables) :
    (instanceCleared i t).containerSeen = t.containerSeen.filter (·.instanceId ≠ i) ∧
      (instanceCleared i t).pageviews = t.pageviews.deleteWhere (·.1 = i) := by
  unfold instanceCleared
  obtain ⟨cursors, same⟩ := deleteCursor_frame (fun key => ("builtin:" ++ i ++ ":").toList <+: key.toList)
    t.cursors.keys
    { pageviews := t.pageviews.deleteWhere (·.1 = i)
      ips := t.ips.filter (·.1 ≠ i)
      ipStats := t.ipStats.deleteWhere (·.1 = i)
      detail := t.detail.filter (·.instanceId ≠ i)
      containerSeen := t.containerSeen.filter (·.instanceId ≠ i)
      cursors := t.cursors }
  constructor <;> simp only [same]

theorem seenRecorded_containerSeen (i source : String) (hits : List PageHit) (t : Tables) :
    (seenRecorded i source hits t).containerSeen = t.containerSeen := by
  obtain ⟨pageviews, ips, first⟩ := dayRecorded_frame i source (perDay hits).entries t
  obtain ⟨ipStats, second⟩ := statRecorded_frame i (perRemote hits).entries { t with pageviews, ips }
  obtain ⟨detail, third⟩ := detailRecorded_frame i hits { t with pageviews, ips, ipStats }
  unfold seenRecorded
  simp only [first, second, third]
  rfl

theorem seenRecorded_pageviews (i source : String) (hits : List PageHit) (t : Tables) :
    (seenRecorded i source hits t).pageviews =
      ((perDay hits).entries.foldl (dayRecorded i source) t).pageviews := by
  unfold seenRecorded
  obtain ⟨ipStats, second⟩ := statRecorded_frame i (perRemote hits).entries
    ((perDay hits).entries.foldl (dayRecorded i source) t)
  obtain ⟨detail, third⟩ := detailRecorded_frame i hits
    { (perDay hits).entries.foldl (dayRecorded i source) t with ipStats }
  simp only [second, third]
  rfl

/-- All rows of an instance have been written for its container. -/
def AllContainer (i : String) (t : Tables) : Prop :=
  ∀ day row, t.pageviews.lookup (i, day) = some row → row.source = "container"

theorem otherSource_eq_false_iff : otherSource i t = false ↔ AllContainer i t := by
  have member : ∀ key row, t.pageviews.lookup key = some row ↔ ⟨key, row⟩ ∈ t.pageviews.entries := by
    intro key row
    rw [← Option.mem_def, AList.mem_lookup_iff]
  unfold otherSource AllContainer
  rw [List.any_eq_false]
  constructor
  · intro none day row found
    have clean := none _ ((member _ _).mp found)
    simpa using clean
  · rintro all ⟨⟨i', day⟩, row⟩ among
    simp only [decide_eq_true_eq, not_and, not_not]
    rintro rfl
    exact all day row ((member _ _).mpr among)

theorem lookup_dayRecorded (i source : String) (t : Tables) (entry : Sigma fun _ : String => DayBucket)
    (key : String × String) :
    (dayRecorded i source t entry).pageviews.lookup key = t.pageviews.lookup key ∨
      key.1 = i ∧ ∃ row, (dayRecorded i source t entry).pageviews.lookup key = some row ∧ row.source = source := by
  unfold dayRecorded
  simp only [foldl_insertIp, setUniqueIps, upsertDay, Table.lookup_update, Table.lookup_upsert]
  by_cases here : key = (i, entry.1)
  · right
    subst here
    refine ⟨rfl, _, by rw [if_pos rfl, Option.map_some, if_pos rfl], ?_⟩
    cases t.pageviews.lookup (i, entry.1) <;> rfl
  · left
    rw [if_neg here]
    cases t.pageviews.lookup key <;> simp [here]

theorem lookup_daysRecorded (i source : String) (entries : List (Sigma fun _ : String => DayBucket)) (t : Tables)
    (key : String × String) :
    (entries.foldl (dayRecorded i source) t).pageviews.lookup key = t.pageviews.lookup key ∨
      key.1 = i ∧ ∃ row, (entries.foldl (dayRecorded i source) t).pageviews.lookup key = some row ∧
        row.source = source := by
  induction entries generalizing t with
  | nil => exact .inl rfl
  | cons entry entries ih =>
    rw [List.foldl_cons]
    rcases ih (dayRecorded i source t entry) with same | written
    · rw [same]
      exact lookup_dayRecorded i source t entry key
    · exact .inr written

section operations

variable {D : Type} (lib : Libraries D)

theorem hitsRecorded_containerSeen (i source : String) (hits : List (Access D)) (t : Tables) :
    (hitsRecorded lib i source hits t).containerSeen = t.containerSeen := by
  unfold hitsRecorded
  dsimp only
  split_ifs
  · rfl
  · exact seenRecorded_containerSeen i source _ t

/-- The rows of a batch are written for their source, and those of other instances stay. -/
theorem lookup_hitsRecorded (i source : String) (hits : List (Access D)) (t : Tables) (key : String × String) :
    (hitsRecorded lib i source hits t).pageviews.lookup key = t.pageviews.lookup key ∨
      key.1 = i ∧ ∃ row, (hitsRecorded lib i source hits t).pageviews.lookup key = some row ∧ row.source = source := by
  unfold hitsRecorded
  dsimp only
  split_ifs
  · exact .inl rfl
  · rw [seenRecorded_pageviews]
    exact lookup_daysRecorded i source _ t key

theorem switched_of_same (same : otherSource i t = false) : switched i t = t := by
  rw [switched, same]
  rfl

theorem allContainer_switched (i : String) (t : Tables) : AllContainer i (switched i t) := by
  unfold switched
  split_ifs with changed
  · intro day row found
    rw [(instanceCleared_frame i t).2, Table.lookup_deleteWhere, if_pos (decide_eq_true rfl)] at found
    exact absurd found (by simp)
  · exact otherSource_eq_false_iff.mp (Bool.eq_false_iff.mpr changed)

theorem lookup_switched (other : j ≠ i) (t : Tables) (day : String) :
    (switched i t).pageviews.lookup (j, day) = t.pageviews.lookup (j, day) := by
  unfold switched
  split_ifs
  · rw [(instanceCleared_frame i t).2, Table.lookup_deleteWhere, if_neg (by simpa using other)]
  · rfl

theorem SeenKeyed.switched (keyed : SeenKeyed t.containerSeen) (i : String) :
    SeenKeyed (switched i t).containerSeen := by
  unfold Pageviews.switched
  split_ifs
  · rw [(instanceCleared_frame i t).1]
    refine ⟨keyed.ordered.sublist (List.Sublist.map _ List.filter_sublist), fun j => ?_⟩
    have rows : List.Sublist _ _ := List.Sublist.filter (fun row : SeenRow => row.instanceId = j)
      (List.filter_sublist (p := fun row : SeenRow => row.instanceId ≠ i) (l := t.containerSeen))
    exact (keyed.distinct j).sublist (rows.map _)
  · exact keyed

theorem hashesOf_switched_of_ne (other : j ≠ i) (t : Tables) :
    hashesOf j (switched i t).containerSeen = hashesOf j t.containerSeen := by
  unfold switched
  split_ifs
  · rw [(instanceCleared_frame i t).1, hashesOf, List.filter_filter, hashesOf]
    congr 1
    apply List.filter_congr
    intro row _
    by_cases mine : row.instanceId = j <;> simp [mine, other]
  · rfl

variable {pairs : List (String × Access D)} {cursorKey now : String}

theorem containerRecorded_containerSeen (filled : pairs ≠ []) :
    (containerRecorded lib i pairs cursorKey now t).containerSeen =
      truncateSeen i (seenAfter i pairs (switched i t).containerSeen) := by
  rw [containerRecorded, if_neg filled, cursorAdvanced]
  split_ifs
  · exact hitsRecorded_containerSeen lib i "container" _ _
  · exact hitsRecorded_containerSeen lib i "container" _ _

theorem lookup_containerRecorded (filled : pairs ≠ []) (key : String × String) :
    (containerRecorded lib i pairs cursorKey now t).pageviews.lookup key = (switched i t).pageviews.lookup key ∨
      key.1 = i ∧ ∃ row, (containerRecorded lib i pairs cursorKey now t).pageviews.lookup key = some row ∧
        row.source = "container" := by
  rw [containerRecorded, if_neg filled, cursorAdvanced]
  split_ifs
  · exact lookup_hitsRecorded lib i "container" _ (seenTruncated i pairs t) key
  · exact lookup_hitsRecorded lib i "container" _ (seenTruncated i pairs t) key

theorem allContainer_containerRecorded (filled : pairs ≠ []) :
    AllContainer i (containerRecorded lib i pairs cursorKey now t) := by
  intro day row found
  rcases lookup_containerRecorded lib filled (i, day) with same | ⟨-, row', here, source⟩
  · rw [same] at found
    exact allContainer_switched i t day row found
  · rw [here, Option.some.injEq] at found
    rwa [← found]

theorem AllContainer.containerRecorded (other : j ≠ i) (all : AllContainer j t) :
    AllContainer j (containerRecorded lib i pairs cursorKey now t) := by
  by_cases filled : pairs = []
  · rwa [Pageviews.containerRecorded, if_pos filled]
  · intro day row found
    rcases lookup_containerRecorded lib filled (j, day) with same | ⟨mine, -⟩
    · rw [same, lookup_switched other] at found
      exact all day row found
    · exact absurd mine other

/-- What the instances have of earlier sources: nothing once their container has taken over. -/
def taken (i : String) (t : Tables) (P : Recorded) : Recorded := fun j =>
  if j = i ∧ otherSource i t = true then [] else P j

theorem Holds.containerRecorded {P : Recorded} (h : Holds t P) (filled : pairs ≠ []) :
    Holds (containerRecorded lib i pairs cursorKey now t)
      (addTo i ((newHits i pairs t).filterMap (pageHit? lib)) (taken i t P)) := by
  have start : Holds (Pageviews.switched i t) (taken i t P) := by
    unfold Pageviews.switched taken
    split_ifs with changed
    · simpa [changed] using h.clear i
    · simpa [changed] using h
  have truncated : Holds (seenTruncated i pairs t) (taken i t P) :=
    ⟨⟨start.days.counts, start.days.ips, start.days.unique⟩, start.stats, start.details.ordered, start.details.rows⟩
  have recorded := truncated.hitsRecorded lib i "container" (newHits i pairs t)
  rw [Pageviews.containerRecorded, if_neg filled, cursorAdvanced]
  split_ifs
  · exact recorded
  · exact ⟨⟨recorded.days.counts, recorded.days.ips, recorded.days.unique⟩, recorded.stats,
      recorded.details.ordered, recorded.details.rows⟩

end operations

/-! ## Runs -/

/-- `_DOCKER_LOG_TAIL` -/
def dockerLogTail : ℕ := 400

abbrev Line := List Char

/-- A call over the last lines of the log of a container: how many it reads, what it makes of a line, and
how its statements go. -/
structure Ingest (D : Type) where
  instanceId : String
  size : ℕ
  bound : size ≤ dockerLogTail
  parse : Line → Option (Access D)
  cursorKey : String
  now : String
  outlook : List (Option (SqlConnections.Failure Exn))

/-- A store at the start of a run, and what it has recorded. -/
structure Store where
  tables : Tables
  recorded : Recorded
  holds : Holds tables recorded
  keyed : SeenKeyed tables.containerSeen

/-- The store with its tables as they are created. -/
def Store.created : Store where
  tables := .empty
  recorded _ := []
  holds := holds_empty
  keyed := ⟨List.Pairwise.nil, fun _ => List.nodup_nil⟩

/-- The logs of the containers, the tables, and the lines whose hits have been recorded, by their positions. -/
structure Counting (D : Type) where
  logs : String → List Line
  tables : Tables
  counted : String → List (ℕ × Access D)

inductive Action (D : Type) where
  | append (instanceId : String) (lines : List Line)
  | ingest (call : Ingest D)

section runs

variable {D : Type} (lib : Libraries D) (lineHash : Line → String)

/-- The lines of the window that parse, with their hashes and positions. -/
def Ingest.pairs (call : Ingest D) (log : List Line) : List (String × (ℕ × Access D)) :=
  ((log.drop (log.length - call.size)).zipIdx (log.length - call.size)).filterMap fun line =>
    (call.parse line.1).map fun hit => (lineHash line.1, (line.2, hit))

def Ingest.result (call : Ingest D) (log : List Line) (t : Tables) : Except Exn ℕ × Conn :=
  recordContainerBatch lib call.instanceId ((call.pairs lineHash log).map fun pair => (pair.1, pair.2.2))
    call.cursorKey call.now (.idle t call.outlook)

def step (s : Counting D) : Action D → Counting D
  | .append i lines => { s with logs := Function.update s.logs i (s.logs i ++ lines) }
  | .ingest call =>
    match call.result lib lineHash (s.logs call.instanceId) s.tables with
    | (.ok _, c) =>
      { s with
        tables := c.committed
        counted := Function.update s.counted call.instanceId (s.counted call.instanceId ++
          newHits call.instanceId (call.pairs lineHash (s.logs call.instanceId)) s.tables) }
    | (.error _, c) => { s with tables := c.committed }

def start (store : Store) : Counting D := ⟨fun _ => [], store.tables, fun _ => []⟩

def run (store : Store) (actions : List (Action D)) : Counting D :=
  actions.foldl (step lib lineHash) (start store)

variable {lib lineHash}

theorem Ingest.window {call : Ingest D} {log : List Line} {pair : String × (ℕ × Access D)}
    (mem : pair ∈ call.pairs lineHash log) :
    (log.map lineHash)[pair.2.1]? = some pair.1 ∧ log.length ≤ pair.2.1 + dockerLogTail := by
  obtain ⟨⟨line, p⟩, inside, parsed⟩ := List.mem_filterMap.mp mem
  obtain ⟨hit, -, rfl⟩ := Option.map_eq_some_iff.mp parsed
  obtain ⟨behind, found⟩ := List.mk_mem_zipIdx_iff_le_and_getElem?_sub.mp inside
  have bound := call.bound
  refine ⟨?_, by dsimp only; omega⟩
  rw [List.getElem?_drop] at found
  have place : log.length - call.size + (p - (log.length - call.size)) = p := by omega
  rw [place] at found
  rw [List.getElem?_map, found]
  rfl

theorem Ingest.committed {call : Ingest D} {log : List Line} {t : Tables} {n : ℕ} {c : Conn}
    (returned : call.result lib lineHash log t = (.ok n, c)) :
    c.committed = containerRecorded lib call.instanceId
      ((call.pairs lineHash log).map fun pair => (pair.1, pair.2.2)) call.cursorKey call.now t := by
  have ended := recordContainerBatch_spec lib call.instanceId
    ((call.pairs lineHash log).map fun pair => (pair.1, pair.2.2)) call.cursorKey call.now t (.idle t call.outlook)
    (idle_idle t call.outlook)
  rw [show recordContainerBatch _ _ _ _ _ _ = (.ok n, c) from returned] at ended
  exact ended.1

/-- A call that raises changes nothing. -/
theorem Ingest.unchanged {call : Ingest D} {log : List Line} {t : Tables} {e : Exn} {c : Conn}
    (raised : call.result lib lineHash log t = (.error e, c)) : c.committed = t := by
  have ended := recordContainerBatch_spec lib call.instanceId
    ((call.pairs lineHash log).map fun pair => (pair.1, pair.2.2)) call.cursorKey call.now t (.idle t call.outlook)
    (idle_idle t call.outlook)
  rw [show recordContainerBatch _ _ _ _ _ _ = (.error e, c) from raised] at ended
  exact ended.1

/-- What holds of every state of a run. -/
structure Consistent (lib : Libraries D) (lineHash : Line → String) (P : Recorded) (s : Counting D) : Prop where
  keyed : SeenKeyed s.tables.containerSeen
  remembers : ∀ i, Remembers dockerLogTail ((s.logs i).map lineHash) (hashesOf i s.tables.containerSeen)
    ((s.counted i).map Prod.fst)
  container : ∀ i, s.counted i ≠ [] → AllContainer i s.tables
  recorded : ∃ base : Recorded, (∀ i, base i = P i ∨ base i = []) ∧
    Holds s.tables fun i => base i ++ (s.counted i).filterMap fun line => pageHit? lib line.2

variable {P : Recorded} {s : Counting D}

theorem consistent_start (store : Store) : Consistent lib lineHash store.recorded (start store) where
  keyed := store.keyed
  remembers i := remembers_nothing (store.keyed.distinct i)
  container i counts := absurd rfl counts
  recorded := ⟨store.recorded, fun _ => .inl rfl, by simpa [start] using store.holds⟩

theorem Consistent.append (h : Consistent lib lineHash P s) (i : String) (lines : List Line) :
    Consistent lib lineHash P (step lib lineHash s (.append i lines)) := by
  refine ⟨h.keyed, fun j => ?_, h.container, h.recorded⟩
  dsimp only [step]
  by_cases here : j = i
  · subst here
    rw [Function.update_self, List.map_append]
    exact (h.remembers j).append _
  · rw [Function.update_of_ne here]
    exact h.remembers j

/-- The hashes that are left once the rows of another source are gone still cover the lines that count. -/
theorem Consistent.switched (h : Consistent lib lineHash P s) (i : String) :
    Remembers dockerLogTail ((s.logs i).map lineHash) (hashesOf i (Pageviews.switched i s.tables).containerSeen)
      ((s.counted i).map Prod.fst) := by
  by_cases counts : s.counted i = []
  · rw [counts]
    exact remembers_nothing ((h.keyed.switched i).distinct i)
  · rw [switched_of_same (otherSource_eq_false_iff.mpr (h.container i counts))]
    exact h.remembers i

theorem newHits_map {α β : Type} (f : α → β) (i : String) (pairs : List (String × α)) (t : Tables) :
    newHits i (pairs.map fun pair => (pair.1, f pair.2)) t = (newHits i pairs t).map f := by
  rw [newHits, newHits, newOf_eq_fresh, newOf_eq_fresh, fresh_map]

/-- The numbered lines of a window that are new: those that the call records. -/
def Ingest.numbered (call : Ingest D) (lineHash : Line → String) (s : Counting D) : List (ℕ × Access D) :=
  newHits call.instanceId (call.pairs lineHash (s.logs call.instanceId)) s.tables

/-- The pairs as the call is given them. -/
def Ingest.given (call : Ingest D) (lineHash : Line → String) (s : Counting D) : List (String × Access D) :=
  (call.pairs lineHash (s.logs call.instanceId)).map fun pair => (pair.1, pair.2.2)

def Ingest.recorded (call : Ingest D) (lib : Libraries D) (lineHash : Line → String) (s : Counting D) : Tables :=
  containerRecorded lib call.instanceId (call.given lineHash s) call.cursorKey call.now s.tables

theorem Consistent.remembers_ingest (h : Consistent lib lineHash P s) (call : Ingest D)
    (filled : call.given lineHash s ≠ []) :
    Remembers dockerLogTail ((s.logs call.instanceId).map lineHash)
      (hashesOf call.instanceId (call.recorded lib lineHash s).containerSeen)
      ((s.counted call.instanceId ++ call.numbered lineHash s).map Prod.fst) := by
  have inWindow : ∀ pair ∈ (call.pairs lineHash (s.logs call.instanceId)).map fun pair => (pair.1, pair.2.1),
      ((s.logs call.instanceId).map lineHash)[pair.2]? = some pair.1 ∧
        ((s.logs call.instanceId).map lineHash).length ≤ pair.2 + dockerLogTail := by
    intro pair mem
    obtain ⟨numbered, among, rfl⟩ := List.mem_map.mp mem
    rw [List.length_map]
    exact Ingest.window among
  have window := (h.switched call.instanceId).noteAll inWindow
  have positions : fresh ((call.pairs lineHash (s.logs call.instanceId)).map fun pair => (pair.1, pair.2.1))
      (hashesOf call.instanceId (Pageviews.switched call.instanceId s.tables).containerSeen) =
      (call.numbered lineHash s).map Prod.fst := by
    rw [fresh_map, Ingest.numbered, newHits, newOf_eq_fresh]
  rw [noteAll_map, positions, ← List.map_append] at window
  rw [Ingest.recorded, containerRecorded_containerSeen lib filled, hashesOf_truncateSeen, hashesOf_seenAfter,
    Ingest.given, noteAll_map]
  · exact window.rtake (by decide)
  · exact ordered_seenAfter _ _ (h.keyed.switched _).ordered

theorem hashesOf_recorded_of_ne {call : Ingest D} (filled : call.given lineHash s ≠ []) (other : j ≠ call.instanceId) :
    hashesOf j (call.recorded lib lineHash s).containerSeen = hashesOf j s.tables.containerSeen := by
  rw [Ingest.recorded, containerRecorded_containerSeen lib filled, hashesOf_truncateSeen_of_ne other,
    hashesOf_seenAfter_of_ne other, hashesOf_switched_of_ne other]

theorem Consistent.keyed_ingest (h : Consistent lib lineHash P s) (call : Ingest D)
    (filled : call.given lineHash s ≠ []) : SeenKeyed (call.recorded lib lineHash s).containerSeen := by
  constructor
  · rw [Ingest.recorded, containerRecorded_containerSeen lib filled]
    exact (ordered_seenAfter _ _ (h.keyed.switched _).ordered).sublist (List.Sublist.map _ List.filter_sublist)
  · intro j
    by_cases here : j = call.instanceId
    · subst here
      exact (h.remembers_ingest call filled).distinct
    · rw [hashesOf_recorded_of_ne filled here]
      exact h.keyed.distinct j

/-- The rows of another source go only where no line has been counted. -/
theorem Consistent.recorded_ingest (h : Consistent lib lineHash P s) (call : Ingest D)
    (filled : call.given lineHash s ≠ []) :
    ∃ base : Recorded, (∀ i, base i = P i ∨ base i = []) ∧
      Holds (call.recorded lib lineHash s) fun i => base i ++
        (Function.update s.counted call.instanceId
          (s.counted call.instanceId ++ call.numbered lineHash s) i).filterMap fun line => pageHit? lib line.2 := by
  obtain ⟨base, origin, holds⟩ := h.recorded
  refine ⟨taken call.instanceId s.tables base, fun i => ?_, ?_⟩
  · unfold taken
    split_ifs
    · exact .inr rfl
    · exact origin i
  · have after : Holds (call.recorded lib lineHash s) _ := Holds.containerRecorded lib holds filled
    rw [Ingest.given, newHits_map, List.filterMap_map] at after
    convert after using 1
    funext j
    by_cases here : j = call.instanceId
    · subst here
      rw [Function.update_self, addTo, if_pos rfl, List.filterMap_append, ← List.append_assoc]
      congr 1
      by_cases changed : otherSource call.instanceId s.tables = true
      · have none : s.counted call.instanceId = [] := by
          by_contra counts
          rw [otherSource_eq_false_iff.mpr (h.container _ counts)] at changed
          exact absurd changed (by simp)
        simp [taken, changed, none]
      · simp [taken, changed]
    · rw [Function.update_of_ne here]
      simp [addTo, taken, here]

theorem Consistent.container_ingest (h : Consistent lib lineHash P s) (call : Ingest D)
    (filled : call.given lineHash s ≠ []) (i : String)
    (counts : Function.update s.counted call.instanceId
      (s.counted call.instanceId ++ call.numbered lineHash s) i ≠ []) :
    AllContainer i (call.recorded lib lineHash s) := by
  by_cases here : i = call.instanceId
  · subst here
    exact allContainer_containerRecorded lib filled
  · rw [Function.update_of_ne here] at counts
    exact (h.container i counts).containerRecorded lib here

theorem Consistent.ingest (h : Consistent lib lineHash P s) (call : Ingest D) :
    Consistent lib lineHash P (step lib lineHash s (.ingest call)) := by
  rw [step]
  split
  · rename_i n c returned
    rw [Ingest.committed returned]
    change Consistent lib lineHash P
      { s with
        tables := call.recorded lib lineHash s
        counted := Function.update s.counted call.instanceId
          (s.counted call.instanceId ++ call.numbered lineHash s) }
    by_cases filled : call.given lineHash s = []
    · have empty : call.pairs lineHash (s.logs call.instanceId) = [] := List.map_eq_nil_iff.mp filled
      have same : call.recorded lib lineHash s = s.tables := by
        rw [Ingest.recorded, containerRecorded, if_pos filled]
      have none : call.numbered lineHash s = [] := by
        rw [Ingest.numbered, empty]
        rfl
      rwa [same, none, List.append_nil, Function.update_eq_self]
    · refine ⟨h.keyed_ingest call filled, fun j => ?_, h.container_ingest call filled, h.recorded_ingest call filled⟩
      dsimp only
      by_cases here : j = call.instanceId
      · subst here
        rw [Function.update_self]
        exact h.remembers_ingest call filled
      · rw [Function.update_of_ne here, hashesOf_recorded_of_ne filled here]
        exact h.remembers j
  · rename_i e c raised
    rw [Ingest.unchanged raised]
    exact h

theorem consistent_run (store : Store) (actions : List (Action D)) :
    Consistent lib lineHash store.recorded (run lib lineHash store actions) := by
  induction actions using List.reverseRecOn with
  | nil => exact consistent_start store
  | append_singleton actions action ih =>
    rw [run, List.foldl_append]
    cases action with
    | append i lines => exact ih.append i lines
    | ingest call => exact ih.ingest call

end runs

/-- No line of a log is counted by two calls: the page hits of an instance are those of its counted lines,
behind the ones from before. A call that does not return changes nothing. -/
theorem lines_counted_once {D : Type} (lib : Libraries D) (lineHash : Line → String) (store : Store)
    (actions : List (Action D)) :
    (∀ i, (((run lib lineHash store actions).counted i).map Prod.fst).Nodup ∧
      ∃ earlier, (earlier = store.recorded i ∨ earlier = []) ∧
        Aggregates (run lib lineHash store actions).tables i
          (earlier ++ ((run lib lineHash store actions).counted i).filterMap fun line => pageHit? lib line.2)) ∧
    ∀ call : Ingest D,
      (call.result lib lineHash ((run lib lineHash store actions).logs call.instanceId)
          (run lib lineHash store actions).tables).1.isOk = true ∨
        (call.result lib lineHash ((run lib lineHash store actions).logs call.instanceId)
          (run lib lineHash store actions).tables).2.committed = (run lib lineHash store actions).tables := by
  have consistent : Consistent lib lineHash store.recorded _ := consistent_run store actions
  constructor
  · intro i
    obtain ⟨base, origin, holds⟩ := consistent.recorded
    exact ⟨(consistent.remembers i).once, base i, origin i, holds.aggregates i⟩
  · intro call
    generalize ended : call.result lib lineHash _ _ = result
    obtain ⟨e | n, c⟩ := result
    · exact .inr (Ingest.unchanged ended)
    · exact .inl rfl

/-- A call over the last lines of the log of one container, each of which is a page view. -/
def lastLines (size : ℕ) (bound : size ≤ dockerLogTail) : Ingest ℕ where
  instanceId := "a"
  size
  bound
  parse _ := some (pageView "12" "x")
  cursorKey := "container:a"
  now := "15"
  outlook := []

/-- The second window has the lines of the first one again. -/
example : ((run hourly String.ofList .created
    [.append "a" [['p'], ['q']], .ingest (lastLines 400 (by decide)), .append "a" [['r']],
      .ingest (lastLines 400 (by decide))]).counted "a").map Prod.fst = [0, 1, 2] := by
  decide +kernel

end LocalWebAccess.Pageviews
