import LocalWebAccess.PageviewStore
import Mathlib.Data.List.DropRight
import Mathlib.Order.Bounds.Basic

/-!
# Aggregates and batches

The store keeps for every instance what has been recorded of it since it was last cleared: a row
for each of its days and of its remotes, and its latest hits. Which batches the hits came in, and in
which order, makes no difference to the rows. A call that raises has no effect.
-/
namespace LocalWebAccess.Pageviews

open KeyedTables RaisingPrograms RaisingPrograms.Prog SqlConnections

/-! ## Groups of page hits -/

def onDay (day : String) (P : List PageHit) : List PageHit := P.filter (·.day = day)

/-- The page hits of a remote; the empty one is none. -/
def fromRemote (remote : String) (P : List PageHit) : List PageHit :=
  if remote = "" then [] else P.filter (·.remote = remote)

/-- The distinct remotes of some page hits, but not the empty one. -/
def remotes (P : List PageHit) : Finset String := (P.map PageHit.remote).toFinset.erase ""

/-- The number and the latest time of a group of page hits. -/
structure Counts (hits : ℕ) (last : String) (group : List PageHit) : Prop where
  hits : hits = group.length
  last : IsGreatest {ts | ∃ h ∈ group, h.ts = ts} last

theorem onDay_append (day : String) (P Q : List PageHit) : onDay day (P ++ Q) = onDay day P ++ onDay day Q :=
  List.filter_append ..

theorem fromRemote_append (remote : String) (P Q : List PageHit) :
    fromRemote remote (P ++ Q) = fromRemote remote P ++ fromRemote remote Q := by
  unfold fromRemote
  split_ifs
  · rfl
  · exact List.filter_append ..

@[simp] theorem mem_remotes {remote : String} {P : List PageHit} :
    remote ∈ remotes P ↔ remote ≠ "" ∧ ∃ h ∈ P, h.remote = remote := by
  simp [remotes]

theorem mem_remotes_append {remote : String} {P Q : List PageHit} :
    remote ∈ remotes (P ++ Q) ↔ remote ∈ remotes P ∨ remote ∈ remotes Q := by
  simp only [mem_remotes, List.mem_append, or_and_right, exists_or, and_or_left]

theorem counts_single (h : PageHit) : Counts 1 h.ts [h] :=
  ⟨rfl, by simp [IsGreatest, upperBounds]⟩

theorem Counts.append {m n : ℕ} {x y : String} {P Q : List PageHit} (left : Counts m x P) (right : Counts n y Q) :
    Counts (m + n) (max x y) (P ++ Q) := by
  refine ⟨by rw [left.hits, right.hits, List.length_append], ?_⟩
  have both : {ts | ∃ h ∈ P ++ Q, h.ts = ts} = {ts | ∃ h ∈ P, h.ts = ts} ∪ {ts | ∃ h ∈ Q, h.ts = ts} := by
    ext ts
    simp only [Set.mem_ofPred_eq, Set.mem_union, List.mem_append, or_and_right, exists_or]
  rw [both]
  exact left.last.union right.last

/-- Only the hits that a group consists of count. -/
theorem Counts.perm {n : ℕ} {last : String} {P Q : List PageHit} (h : Counts n last P) (same : P.Perm Q) :
    Counts n last Q := by
  refine ⟨h.hits.trans same.length_eq, ?_⟩
  have equal : {ts | ∃ h ∈ P, h.ts = ts} = {ts | ∃ h ∈ Q, h.ts = ts} := by
    ext ts
    simp only [Set.mem_ofPred_eq, same.mem_iff]
  exact equal ▸ h.last

/-- The later one of a time and that of the next hit. -/
theorem latest_eq (last ts : String) : (if last < ts then ts else last) = max last ts := (max_def_lt last ts).symm

theorem latest_first (ts : String) : (if "" < ts then ts else "") = ts := by
  rw [latest_eq]
  refine max_eq_right (not_lt.mp fun less => ?_)
  exact List.not_lt_nil _ (String.lt_iff_toList_lt.mp less)

/-! ## The buckets of a batch -/

/-- The bucket of a group of page hits on one day. -/
def DayBucket.Of (b : DayBucket) (group : List PageHit) : Prop :=
  Counts b.hits b.last group ∧ ∀ ip, ip ∈ b.ips ↔ ip ∈ remotes group

def RemoteBucket.Of (b : RemoteBucket) (group : List PageHit) : Prop := Counts b.hits b.last group

theorem mem_remotes_single {remote : String} {h : PageHit} :
    remote ∈ remotes [h] ↔ h.remote ≠ "" ∧ remote = h.remote := by
  rw [mem_remotes]
  constructor
  · rintro ⟨somebody, g, among, rfl⟩
    obtain rfl := List.mem_singleton.mp among
    exact ⟨somebody, rfl⟩
  · rintro ⟨somebody, rfl⟩
    exact ⟨somebody, h, List.mem_singleton_self h, rfl⟩

theorem DayBucket.Of.add {b : DayBucket} {h : PageHit} {group : List PageHit} (counts : Counts (b.hits + 1)
    (if b.last < h.ts then h.ts else b.last) (group ++ [h])) (ips : ∀ ip, ip ∈ b.ips ↔ ip ∈ remotes group) :
    (DayBucket.add h b).Of (group ++ [h]) := by
  refine ⟨counts, fun ip => ?_⟩
  rw [mem_remotes_append, mem_remotes_single, ← ips, DayBucket.add]
  by_cases nobody : h.remote = ""
  · simp [nobody]
  · simp [nobody, or_comm]

theorem DayBucket.of_first (h : PageHit) : (DayBucket.add h ⟨0, [], ""⟩).Of ([] ++ [h]) := by
  refine DayBucket.Of.add ?_ (by simp)
  rw [latest_first]
  exact counts_single h

theorem DayBucket.Of.next {b : DayBucket} {group : List PageHit} (of : b.Of group) (h : PageHit) :
    (DayBucket.add h b).Of (group ++ [h]) :=
  DayBucket.Of.add (by simpa only [latest_eq] using of.1.append (counts_single h)) of.2

theorem RemoteBucket.of_first (h : PageHit) : (RemoteBucket.add h ⟨0, ""⟩).Of [h] := by
  simpa only [RemoteBucket.Of, RemoteBucket.add, latest_first] using counts_single h

theorem RemoteBucket.Of.next {b : RemoteBucket} {group : List PageHit} (of : b.Of group) (h : PageHit) :
    (RemoteBucket.add h b).Of (group ++ [h]) := by
  simpa only [RemoteBucket.Of, RemoteBucket.add, latest_eq] using Counts.append of (counts_single h)

theorem onDay_snoc (day : String) (seen : List PageHit) (h : PageHit) :
    onDay day (seen ++ [h]) = if day = h.day then onDay day seen ++ [h] else onDay day seen := by
  rw [onDay_append]
  split_ifs with here
  · simp [onDay, here]
  · simp [onDay, Ne.symm here]

theorem fromRemote_snoc (remote : String) (seen : List PageHit) {h : PageHit} (somebody : h.remote ≠ "") :
    fromRemote remote (seen ++ [h]) =
      if remote = h.remote then fromRemote remote seen ++ [h] else fromRemote remote seen := by
  rw [fromRemote_append]
  split_ifs with here
  · simp [fromRemote, here, somebody]
  · simp [fromRemote, Ne.symm here]

theorem perDay_summarizes (seen : List PageHit) :
    Table.Summarizes DayBucket.Of (perDay seen) fun day => onDay day seen := by
  induction seen using List.reverseRecOn with
  | nil => exact Table.summarizes_empty
  | append_singleton seen h ih =>
    unfold perDay
    rw [List.foldl_append]
    have next := ih.upsert h.day _ _ (DayBucket.of_first h) fun _ _ of => of.next h
    exact next.congr fun day => (onDay_snoc day seen h).symm

theorem perRemote_summarizes (seen : List PageHit) :
    Table.Summarizes RemoteBucket.Of (perRemote seen) fun remote => fromRemote remote seen := by
  induction seen using List.reverseRecOn with
  | nil => exact Table.summarizes_empty.congr fun remote => by simp [fromRemote]
  | append_singleton seen h ih =>
    have step : perRemote (seen ++ [h]) =
        if h.remote = "" then perRemote seen
        else (perRemote seen).upsert h.remote (RemoteBucket.add h ⟨0, ""⟩) (RemoteBucket.add h) := by
      unfold perRemote
      rw [List.foldl_append]
      rfl
    rw [step]
    split_ifs with nobody
    · refine ih.congr fun remote => ?_
      rw [fromRemote_append]
      by_cases empty : remote = ""
      · simp [fromRemote, empty]
      · simp [fromRemote, nobody, Ne.symm empty]
    · have next := ih.upsert h.remote _ _ (RemoteBucket.of_first h) fun _ _ of => RemoteBucket.Of.next of h
      exact next.congr fun remote => (fromRemote_snoc remote seen nobody).symm

/-! ## What the statements write -/

/-- The tables after the statements about one day of a batch. -/
def dayRecorded (instanceId source : String) (t : Tables) (entry : Sigma fun _ : String => DayBucket) : Tables :=
  let u := entry.2.ips.foldl (fun t ip => insertIp instanceId entry.1 ip t)
    (upsertDay instanceId source entry.1 entry.2 t)
  setUniqueIps instanceId entry.1 (countIps instanceId entry.1 u) u

def statRecorded (instanceId : String) (t : Tables) (entry : Sigma fun _ : String => RemoteBucket) : Tables :=
  upsertIpStats instanceId entry.1 entry.2 t

def detailRecorded (instanceId : String) (t : Tables) (h : PageHit) : Tables := insertDetail instanceId h t

def seenRecorded (instanceId source : String) (seen : List PageHit) (t : Tables) : Tables :=
  let days := (perDay seen).entries.foldl (dayRecorded instanceId source) t
  let stats := (perRemote seen).entries.foldl (statRecorded instanceId) days
  truncateDetail instanceId (seen.foldl (detailRecorded instanceId) stats)

theorem writes_recordSeen (instanceId source : String) (seen : List PageHit) (t : Tables) :
    Writes (recordSeen instanceId source seen) t () (seenRecorded instanceId source seen t) := by
  unfold recordSeen seenRecorded
  refine (writes_forEach ?_ _ _).bind ((writes_forEach ?_ _ _).bind ((writes_forEach ?_ _ _).bind
    (writes_execute _ _)))
  · intro entry u
    unfold recordDay dayRecorded
    exact (writes_execute _ _).bind ((writes_forEach (fun ip v => writes_execute _ v) _ _).bind
      ((writes_select _ _).bind (writes_execute _ _)))
  · exact fun entry u => writes_execute _ u
  · exact fun h u => writes_execute _ u

/-! ## Days -/

/-- The tables have the rows of the days of each instance, and the remotes of each day. -/
structure Days (t : Tables) (groups : String × String → List PageHit) : Prop where
  counts : Table.Summarizes (fun row => Counts row.hits row.lastSeen) t.pageviews groups
  ips : ∀ i day remote, (i, day, remote) ∈ t.ips ↔ remote ∈ remotes (groups (i, day))
  unique : ∀ k row, t.pageviews.lookup k = some row → row.uniqueIps = (remotes (groups k)).card

theorem Days.congr {t : Tables} {groups groups' : String × String → List PageHit} (h : Days t groups)
    (same : ∀ k, groups k = groups' k) : Days t groups' := by
  obtain rfl : groups = groups' := funext same
  exact h

theorem foldl_insertIp (i day : String) (ips : List String) (t : Tables) :
    ips.foldl (fun t ip => insertIp i day ip t) t =
      { t with ips := t.ips ∪ (ips.map fun ip => (i, day, ip)).toFinset } := by
  induction ips generalizing t with
  | nil => simp
  | cons ip ips ih =>
    rw [List.foldl_cons, ih]
    simp [insertIp]

/-- The rows of a day are as many as its remotes. -/
theorem countIps_eq {t : Tables} {i day : String} {P : List PageHit}
    (ips : ∀ remote, (i, day, remote) ∈ t.ips ↔ remote ∈ remotes P) : countIps i day t = (remotes P).card := by
  have rows : (t.ips.filter fun row => row.1 = i ∧ row.2.1 = day) = (remotes P).map
      ⟨fun remote => (i, day, remote), fun _ _ same => by simpa using same⟩ := by
    ext ⟨j, day', remote⟩
    rw [Finset.mem_filter, Finset.mem_map]
    constructor
    · rintro ⟨among, rfl, rfl⟩
      exact ⟨remote, (ips remote).mp among, rfl⟩
    · rintro ⟨remote, among, same⟩
      cases same
      exact ⟨(ips remote).mpr among, rfl, rfl⟩
  unfold countIps
  rw [rows, Finset.card_map]

theorem mem_dayRecorded_ips {t : Tables} {i source day : String} {b : DayBucket} {row : String × String × String} :
    row ∈ (dayRecorded i source t ⟨day, b⟩).ips ↔ row ∈ t.ips ∨ row.1 = i ∧ row.2.1 = day ∧ row.2.2 ∈ b.ips := by
  obtain ⟨j, d, remote⟩ := row
  simp only [dayRecorded, foldl_insertIp, upsertDay, setUniqueIps, Finset.mem_union, List.mem_toFinset, List.mem_map,
    Prod.mk.injEq]
  constructor
  · rintro (among | ⟨ip, among, rfl, rfl, rfl⟩)
    · exact .inl among
    · exact .inr ⟨rfl, rfl, among⟩
  · rintro (among | ⟨rfl, rfl, among⟩)
    · exact .inl among
    · exact .inr ⟨remote, among, rfl, rfl, rfl⟩

/-- The bucket of a day brings the row of that day and its remotes up to date. -/
theorem Days.record {t : Tables} {groups : String × String → List PageHit} (h : Days t groups)
    (i source day : String) {b : DayBucket} {group : List PageHit} (of : b.Of group) :
    Days (dayRecorded i source t ⟨day, b⟩) fun k => if k = (i, day) then groups k ++ group else groups k := by
  have ips (j d remote : String) : (j, d, remote) ∈ (dayRecorded i source t ⟨day, b⟩).ips ↔
      remote ∈ remotes (if (j, d) = (i, day) then groups (j, d) ++ group else groups (j, d)) := by
    rw [mem_dayRecorded_ips, h.ips]
    split_ifs with here
    · obtain ⟨rfl, rfl⟩ := Prod.mk.inj here
      rw [mem_remotes_append, ← of.2]
      simp
    · have other : ¬(j = i ∧ d = day ∧ remote ∈ b.ips) := fun ⟨e, e', _⟩ => here (by rw [e, e'])
      simp only [other, or_false]
  have pageviews : (dayRecorded i source t ⟨day, b⟩).pageviews = (upsertDay i source day b t).pageviews.update (i, day)
      fun row => { row with uniqueIps := countIps i day (dayRecorded i source t ⟨day, b⟩) } := by
    simp [dayRecorded, foldl_insertIp, setUniqueIps, countIps]
  have counts := h.counts.upsert (i, day) ⟨b.hits, 0, b.last, source⟩
    (fun row => { row with hits := row.hits + b.hits, lastSeen := max row.lastSeen b.last, source }) of.1
    fun row rows counts => counts.append of.1
  refine ⟨?_, ips, fun k row found => ?_⟩
  · rw [pageviews]
    exact counts.update _ fun _ _ same => same
  · rw [pageviews, Table.lookup_update] at found
    obtain ⟨row', before, rfl⟩ := Option.map_eq_some_iff.mp found
    split_ifs with here
    · subst here
      simpa using countIps_eq (ips i day)
    · rw [upsertDay, Table.lookup_upsert, if_neg here] at before
      exact h.unique k row' before

/-- The buckets of a batch, one after the other. -/
theorem Days.recordAll {t : Tables} {P : String → List PageHit} (h : Days t fun k => onDay k.2 (P k.1))
    (i source : String) (seen : List PageHit) :
    Days ((perDay seen).entries.foldl (dayRecorded i source) t) fun k =>
      onDay k.2 (if k.1 = i then P k.1 ++ seen else P k.1) := by
  have loop := (perDay_summarizes seen).foldl_entries
    (fun u account => Days u fun k => if k.1 = i then account k.2 else onDay k.2 (P k.1))
    (fun u account day b of current => (current.record i source day of).congr fun k => by
      by_cases here : k.1 = i
      · by_cases today : k.2 = day <;> simp [here, today, Prod.ext_iff]
      · simp [here, Prod.ext_iff])
    (fun day => onDay day (P i)) (h.congr fun k => by split_ifs with here <;> simp [here])
  refine loop.congr fun k => ?_
  split_ifs with here
  · rw [here, onDay_append]
  · rfl

/-! ## Remotes -/

/-- The tables have the rows of the remotes of each instance. -/
def Stats (t : Tables) (groups : String × String → List PageHit) : Prop :=
  Table.Summarizes (fun row => Counts row.hits row.lastSeen) t.ipStats groups

theorem Stats.record {t : Tables} {groups : String × String → List PageHit} (h : Stats t groups)
    (i remote : String) {b : RemoteBucket} {group : List PageHit} (of : b.Of group) :
    Stats (statRecorded i t ⟨remote, b⟩) fun k => if k = (i, remote) then groups k ++ group else groups k :=
  Table.Summarizes.upsert h (i, remote) ⟨b.hits, b.last⟩ (fun row => ⟨row.hits + b.hits, max row.lastSeen b.last⟩) of
    fun _ _ counts => counts.append of

theorem Stats.recordAll {t : Tables} {P : String → List PageHit} (h : Stats t fun k => fromRemote k.2 (P k.1))
    (i : String) (seen : List PageHit) :
    Stats ((perRemote seen).entries.foldl (statRecorded i) t) fun k =>
      fromRemote k.2 (if k.1 = i then P k.1 ++ seen else P k.1) := by
  have loop := (perRemote_summarizes seen).foldl_entries
    (fun u account => Stats u fun k => if k.1 = i then account k.2 else fromRemote k.2 (P k.1))
    (fun u account remote b of current => (current.record i remote of).congr fun k => by
      by_cases here : k.1 = i
      · by_cases same : k.2 = remote <;> simp [here, same, Prod.ext_iff]
      · simp [here, Prod.ext_iff])
    (fun remote => fromRemote remote (P i)) (h.congr fun k => by split_ifs with here <;> simp [here])
  refine loop.congr fun k => ?_
  split_ifs with here
  · rw [here, fromRemote_append]
  · rfl

/-! ## Details -/

/-- What a row of `pageview_detail` has of its hit. -/
def DetailRow.columns (row : DetailRow) : String × String × String × ℤ × String :=
  (row.ts, row.method, row.path, row.status, row.remote)

def PageHit.columns (h : PageHit) : String × String × String × ℤ × String :=
  (h.ts, h.hit.method, h.hit.path, h.hit.status, h.hit.remote)

def detailOf (i : String) (t : Tables) : List DetailRow := t.detail.filter (·.instanceId = i)

/-- The details of each instance are those of some page hits, in their order. -/
structure Details (t : Tables) (kept : String → List PageHit) : Prop where
  ordered : (t.detail.map (·.rowid)).Pairwise (· < ·)
  rows : ∀ i, (detailOf i t).map DetailRow.columns = (kept i).map PageHit.columns

theorem lt_foldr_max_succ {rowids : List ℕ} {n : ℕ} (among : n ∈ rowids) : n < rowids.foldr max 0 + 1 := by
  induction rowids with
  | nil => cases among
  | cons first rowids ih =>
    rw [List.foldr_cons]
    rcases List.mem_cons.mp among with rfl | later
    · omega
    · have := ih later
      omega

theorem rowid_lt_next {detail : List DetailRow} {row : DetailRow} (among : row ∈ detail) :
    row.rowid < nextRowid detail := lt_foldr_max_succ (List.mem_map_of_mem among)

theorem Details.record {t : Tables} {kept : String → List PageHit} (h : Details t kept) (i : String) (hit : PageHit) :
    Details (detailRecorded i t hit) fun j => if j = i then kept j ++ [hit] else kept j := by
  constructor
  · simp only [detailRecorded, insertDetail, List.map_append, List.pairwise_append]
    refine ⟨h.ordered, by simp, ?_⟩
    simp only [List.mem_map]
    rintro _ ⟨row, among, rfl⟩ _ ⟨last, final, rfl⟩
    rw [List.mem_singleton.mp final]
    exact rowid_lt_next among
  · intro j
    have rows := h.rows j
    simp only [detailOf, detailRecorded, insertDetail, List.filter_append, List.map_append] at rows ⊢
    rw [rows]
    by_cases here : j = i
    · simp [here, DetailRow.columns, PageHit.columns]
    · simp [here, Ne.symm here]

theorem Details.recordAll {t : Tables} {kept : String → List PageHit} (h : Details t kept) (i : String)
    (seen : List PageHit) :
    Details (seen.foldl (detailRecorded i) t) fun j => if j = i then kept j ++ seen else kept j := by
  induction seen generalizing t kept with
  | nil => simpa using h
  | cons hit seen ih =>
    have later := ih (h.record i hit)
    have same : (fun j => if j = i then kept j ++ hit :: seen else kept j) = fun j =>
        if j = i then (if j = i then kept j ++ [hit] else kept j) ++ seen
        else if j = i then kept j ++ [hit] else kept j := by
      funext j
      split_ifs <;> simp
    rw [same]
    exact later

/-- The latest rowids in a list that ascends are at its end. -/
theorem insertionSort_ge {rowids : List ℕ} (ascends : rowids.Pairwise (· < ·)) :
    rowids.insertionSort (· ≥ ·) = rowids.reverse := by
  have same : (rowids.insertionSort (· ≥ ·)).Perm rowids.reverse :=
    (List.perm_insertionSort _ _).trans rowids.reverse_perm.symm
  apply same.eq_of_pairwise (fun a b _ _ => ge_antisymm)
  · exact List.pairwise_insertionSort _ _
  · exact List.pairwise_reverse.mpr (ascends.imp le_of_lt)

/-- To keep the rows with the latest rowids is to keep the last rows. -/
theorem filter_rowid_mem {ρ : Type} {rowid : ρ → ℕ} {rows : List ρ} (ascends : (rows.map rowid).Pairwise (· < ·))
    (limit : ℕ) :
    rows.filter (fun row => rowid row ∈ ((rows.map rowid).insertionSort (· ≥ ·)).take limit) = rows.rtake limit := by
  obtain ⟨older, split⟩ : ∃ older, rows = older ++ rows.rtake limit := ⟨rows.take _, (List.take_append_drop ..).symm⟩
  have newest (row : ρ) : rowid row ∈ ((rows.map rowid).insertionSort (· ≥ ·)).take limit ↔
      ∃ late ∈ rows.rtake limit, rowid late = rowid row := by
    rw [insertionSort_ge ascends, ← List.map_reverse, ← List.map_take, List.mem_map,
      List.rtake_eq_reverse_take_reverse]
    simp only [List.mem_reverse]
  simp only [newest]
  generalize rows.rtake limit = last at split ⊢
  subst split
  rw [List.map_append, List.pairwise_append] at ascends
  rw [List.filter_append, List.filter_eq_nil_iff.mpr, List.filter_eq_self.mpr, List.nil_append]
  · exact fun row among => decide_eq_true ⟨row, among, rfl⟩
  · rintro row early here
    obtain ⟨late, among, same⟩ := of_decide_eq_true here
    have apart := ascends.2.2 (rowid row) (List.mem_map_of_mem early) (rowid late) (List.mem_map_of_mem among)
    omega

theorem rtake_rtake_append (n : ℕ) (P Q : List PageHit) : (P.rtake n ++ Q).rtake n = (P ++ Q).rtake n := by
  simp only [List.rtake_eq_reverse_take_reverse, List.reverse_append, List.reverse_reverse, List.take_append,
    List.take_take]
  rw [min_eq_left (Nat.sub_le n _)]

theorem Details.truncate {t : Tables} {kept : String → List PageHit} (h : Details t kept) (i : String) :
    Details (truncateDetail i t) fun j => if j = i then (kept j).rtake detailRetain else kept j := by
  constructor
  · exact h.ordered.sublist (List.Sublist.map _ List.filter_sublist)
  · intro j
    unfold detailOf truncateDetail
    rw [List.filter_filter]
    split_ifs with here
    · subst here
      have own : (t.detail.filter fun row => decide (row.instanceId = j) &&
          decide ¬(row.instanceId = j ∧ row.rowid ∉ newestRowids j detailRetain t.detail)) =
          (detailOf j t).filter fun row => row.rowid ∈ newestRowids j detailRetain t.detail := by
        rw [detailOf, List.filter_filter]
        apply List.filter_congr
        intro row _
        by_cases mine : row.instanceId = j <;> simp [mine]
      have ascends : ((detailOf j t).map (·.rowid)).Pairwise (· < ·) :=
        h.ordered.sublist (List.Sublist.map _ List.filter_sublist)
      have last := filter_rowid_mem ascends detailRetain
      rw [own, newestRowids, ← detailOf, last]
      have rows := h.rows j
      simp only [List.rtake_eq_reverse_take_reverse, List.map_reverse, List.map_take, rows]
    · rw [← h.rows j, detailOf]
      congr 1
      apply List.filter_congr
      intro row _
      by_cases mine : row.instanceId = i
      · simp [mine, Ne.symm here]
      · simp [mine]

/-! ## The aggregates of a store -/

/-- The page hits of each instance in the order in which they were recorded. -/
abbrev Recorded := String → List PageHit

def addTo (i : String) (seen : List PageHit) (P : Recorded) : Recorded := fun j => if j = i then P j ++ seen else P j

/-- The tables have what has been recorded. -/
structure Holds (t : Tables) (P : Recorded) : Prop where
  days : Days t fun k => onDay k.2 (P k.1)
  stats : Stats t fun k => fromRemote k.2 (P k.1)
  details : Details t fun i => (P i).rtake detailRetain

theorem dayRecorded_frame (i source : String) (entries : List (Sigma fun _ : String => DayBucket)) (t : Tables) :
    ∃ pageviews ips, entries.foldl (dayRecorded i source) t = { t with pageviews, ips } := by
  induction entries generalizing t with
  | nil => exact ⟨_, _, rfl⟩
  | cons entry entries ih =>
    obtain ⟨pageviews, ips, same⟩ := ih (dayRecorded i source t entry)
    rw [List.foldl_cons, same]
    simp only [dayRecorded, foldl_insertIp, upsertDay, setUniqueIps]
    exact ⟨_, _, rfl⟩

theorem statRecorded_frame (i : String) (entries : List (Sigma fun _ : String => RemoteBucket)) (t : Tables) :
    ∃ ipStats, entries.foldl (statRecorded i) t = { t with ipStats } := by
  induction entries generalizing t with
  | nil => exact ⟨_, rfl⟩
  | cons entry entries ih =>
    obtain ⟨ipStats, same⟩ := ih (statRecorded i t entry)
    rw [List.foldl_cons, same]
    exact ⟨_, rfl⟩

theorem detailRecorded_frame (i : String) (seen : List PageHit) (t : Tables) :
    ∃ detail, seen.foldl (detailRecorded i) t = { t with detail } := by
  induction seen generalizing t with
  | nil => exact ⟨_, rfl⟩
  | cons h seen ih =>
    obtain ⟨detail, same⟩ := ih (detailRecorded i t h)
    rw [List.foldl_cons, same]
    exact ⟨_, rfl⟩

theorem Holds.record {t : Tables} {P : Recorded} (h : Holds t P) (i source : String) (seen : List PageHit) :
    Holds (seenRecorded i source seen t) (addTo i seen P) := by
  have days := h.days.recordAll i source seen
  obtain ⟨pageviews, ips, first⟩ := dayRecorded_frame i source (perDay seen).entries t
  rw [first] at days
  have stats := Stats.recordAll (t := { t with pageviews, ips }) h.stats i seen
  obtain ⟨ipStats, second⟩ := statRecorded_frame i (perRemote seen).entries { t with pageviews, ips }
  rw [second] at stats
  have details := Details.recordAll (t := { t with pageviews, ips, ipStats }) ⟨h.details.ordered, h.details.rows⟩ i seen
  obtain ⟨detail, third⟩ := detailRecorded_frame i seen { t with pageviews, ips, ipStats }
  rw [third] at details
  unfold seenRecorded
  simp only [first, second, third]
  refine ⟨⟨days.counts, days.ips, days.unique⟩, stats, ?_⟩
  have kept := details.truncate i
  refine ⟨kept.ordered, fun j => (kept.rows j).trans ?_⟩
  by_cases here : j = i
  · simp only [here, addTo, if_pos, rtake_rtake_append]
  · simp only [here, addTo, if_neg, not_false_iff]

/-- The tables without an instance. -/
def instanceCleared (i : String) (t : Tables) : Tables :=
  let rows : Tables :=
    { pageviews := t.pageviews.deleteWhere (·.1 = i)
      ips := t.ips.filter (·.1 ≠ i)
      ipStats := t.ipStats.deleteWhere (·.1 = i)
      detail := t.detail.filter (·.instanceId ≠ i)
      containerSeen := t.containerSeen.filter (·.instanceId ≠ i)
      cursors := t.cursors }
  let cleared := rows.cursors.keys.foldl
    (fun t key => if ("builtin:" ++ i ++ ":").toList <+: key.toList then deleteCursor key t else t) rows
  { cleared with
    cursors := cleared.cursors.deleteWhere fun key => key = "container:" ++ i ∨ key = builtinCursorKey i }

theorem deleteCursor_frame (doomed : String → Prop) [DecidablePred doomed] (keys : List String) (t : Tables) :
    ∃ cursors, keys.foldl (fun t key => if doomed key then deleteCursor key t else t) t = { t with cursors } := by
  induction keys generalizing t with
  | nil => exact ⟨_, rfl⟩
  | cons key keys ih =>
    rw [List.foldl_cons]
    split_ifs
    · obtain ⟨cursors, same⟩ := ih (deleteCursor key t)
      rw [same]
      exact ⟨_, rfl⟩
    · exact ih t

theorem Days.clear {t : Tables} {P : Recorded} (h : Days t fun k => onDay k.2 (P k.1)) (i : String) :
    Days { t with pageviews := t.pageviews.deleteWhere (·.1 = i), ips := t.ips.filter (·.1 ≠ i) } fun k =>
      onDay k.2 (if k.1 = i then [] else P k.1) := by
  have groups (k : String × String) : (if decide (k.1 = i) = true then [] else onDay k.2 (P k.1)) =
      onDay k.2 (if k.1 = i then [] else P k.1) := by
    by_cases here : k.1 = i <;> simp [here, onDay]
  refine ⟨(h.counts.deleteWhere _).congr groups, fun j day remote => ?_, fun k row found => ?_⟩
  · rw [← groups, Finset.mem_filter, h.ips]
    by_cases here : j = i <;> simp [here]
  · rw [Table.lookup_deleteWhere] at found
    rw [← groups]
    split_ifs at found ⊢
    exact h.unique k row found

theorem Stats.clear {t : Tables} {P : Recorded} (h : Stats t fun k => fromRemote k.2 (P k.1)) (i : String) :
    Table.Summarizes (fun row => Counts row.hits row.lastSeen) (t.ipStats.deleteWhere (·.1 = i)) fun k =>
      fromRemote k.2 (if k.1 = i then [] else P k.1) := by
  refine (Table.Summarizes.deleteWhere h _).congr fun k => ?_
  by_cases here : k.1 = i <;> simp [here, fromRemote]

theorem Holds.clear {t : Tables} {P : Recorded} (h : Holds t P) (i : String) :
    Holds (instanceCleared i t) fun j => if j = i then [] else P j := by
  unfold instanceCleared
  obtain ⟨cursors, same⟩ := deleteCursor_frame (fun key => ("builtin:" ++ i ++ ":").toList <+: key.toList)
    t.cursors.keys
    { pageviews := t.pageviews.deleteWhere (·.1 = i)
      ips := t.ips.filter (·.1 ≠ i)
      ipStats := t.ipStats.deleteWhere (·.1 = i)
      detail := t.detail.filter (·.instanceId ≠ i)
      containerSeen := t.containerSeen.filter (·.instanceId ≠ i)
      cursors := t.cursors }
  simp only [same]
  have days := h.days.clear i
  refine ⟨⟨days.counts, days.ips, days.unique⟩, h.stats.clear i, ?_, fun j => ?_⟩
  · exact h.details.ordered.sublist (List.Sublist.map _ List.filter_sublist)
  · simp only [detailOf, List.filter_filter]
    split_ifs with here
    · subst here
      simp
    · rw [← h.details.rows j, detailOf]
      congr 1
      apply List.filter_congr
      intro row _
      by_cases mine : row.instanceId = i
      · simp [mine, Ne.symm here]
      · simp [mine]

theorem holds_empty : Holds Tables.empty fun _ => [] := by
  constructor
  · exact ⟨Table.summarizes_empty, by simp [Tables.empty, onDay], by simp [Tables.empty]⟩
  · exact Table.summarizes_empty.congr fun k => by simp [fromRemote]
  · exact ⟨List.Pairwise.nil, fun i => by simp [detailOf, Tables.empty]⟩

end LocalWebAccess.Pageviews
