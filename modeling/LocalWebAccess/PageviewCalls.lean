import LocalWebAccess.PageviewAggregates

/-!
# Calls of the store

Each call returns with all of its batch committed, or raises and changes nothing. After any calls the
store therefore has what the calls that returned have recorded since the last clear of each instance,
whatever batches it came in.
-/
namespace LocalWebAccess.Pageviews

open KeyedTables RaisingPrograms RaisingPrograms.Prog SqlConnections

/-- The page hits of a batch. -/
def pageHit? {D : Type} (lib : Libraries D) (h : Access D) : Option PageHit :=
  match isPageView lib h.1.method h.1.path h.1.status with
  | .ok true => (stamp lib h).toOption
  | _ => none

section operations

variable {D : Type} (lib : Libraries D)

theorem except_bind_eq_ok {α β : Type} {x : Except Exn α} {f : α → Except Exn β} {b : β} :
    (x >>= f) = .ok b ↔ ∃ a, x = .ok a ∧ f a = .ok b := by
  cases x <;> simp [Bind.bind, Except.bind]

/-- The hits that are recorded are the page hits of the batch. -/
theorem pageHits_stamped {hits pages : List (Access D)} {seen : List PageHit} (found : pageHits lib hits = .ok pages)
    (stamped : pages.mapM (stamp lib) = .ok seen) :
    hits.filterMap (pageHit? lib) = seen ∧ pages.length = seen.length := by
  induction hits generalizing pages seen with
  | nil =>
    cases found
    cases stamped
    exact ⟨rfl, rfl⟩
  | cons h hits ih =>
    obtain ⟨page, isPage, found⟩ := except_bind_eq_ok.mp found
    obtain ⟨later, foundLater, found⟩ := except_bind_eq_ok.mp found
    cases found
    cases page with
    | false => simpa [pageHit?, isPage] using ih foundLater stamped
    | true =>
      rw [if_pos rfl, List.mapM_cons] at stamped
      obtain ⟨first, stampedFirst, stamped⟩ := except_bind_eq_ok.mp stamped
      obtain ⟨rest, stampedRest, stamped⟩ := except_bind_eq_ok.mp stamped
      cases stamped
      obtain ⟨same, length⟩ := ih foundLater stampedRest
      constructor
      · have head : pageHit? lib h = some first := by simp [pageHit?, isPage, stampedFirst, Except.toOption]
        rw [List.filterMap_cons_some head, same]
      · simp [length]

/-- The tables after a batch. -/
def hitsRecorded (instanceId source : String) (hits : List (Access D)) (t : Tables) : Tables :=
  let seen := hits.filterMap (pageHit? lib)
  if seen = [] then t else seenRecorded instanceId source seen t

/-- In a transaction that is open already, a batch is recorded, or nothing is committed. -/
theorem writes_recordHits (i source : String) (hits : List (Access D)) (t : Tables) :
    Writes (recordHits lib i source hits) t (hits.filterMap (pageHit? lib)).length
      (hitsRecorded lib i source hits t) := by
  unfold recordHits
  refine writes_ofExcept fun pages found => ?_
  cases pages with
  | nil =>
    obtain ⟨none, -⟩ := pageHits_stamped lib found rfl
    simp only [hitsRecorded, none]
    exact writes_pure 0 t
  | cons page pages =>
    simp only [List.isEmpty_cons, Bool.false_eq_true, if_false]
    refine writes_ofExcept fun seen stamped => ?_
    obtain ⟨same, length⟩ := pageHits_stamped lib found stamped
    have filled : seen ≠ [] := by
      rintro rfl
      simp at length
    rw [hitsRecorded, same, if_neg filled]
    refine (writes_inTransaction t).bind ?_
    simp only [Bool.not_true, Bool.false_eq_true, if_false]
    refine (((writes_recordSeen i source seen t).bind (writes_pure () _)).handle_raise).bind ?_
    rw [length]
    exact writes_pure _ _

/-- A call on its own returns with the batch recorded and committed, or raises and changes nothing. -/
theorem recordHits_spec (i source : String) (hits : List (Access D)) (t : Tables) :
    Triple (Idle t) (recordHits lib i source hits)
      (fun n c => n = (hits.filterMap (pageHit? lib)).length ∧ Idle (hitsRecorded lib i source hits t) c)
      (fun _ => Idle t) := by
  unfold recordHits
  refine triple_ofExcept_bind (fun pages found => ?_) (fun _ _ closed => closed)
  cases pages with
  | nil =>
    obtain ⟨none, -⟩ := pageHits_stamped lib found rfl
    simp only [hitsRecorded, none]
    exact triple_pure fun _ closed => ⟨rfl, closed⟩
  | cons page pages =>
    simp only [List.isEmpty_cons, Bool.false_eq_true, if_false]
    refine triple_ofExcept_bind (fun seen stamped => ?_) (fun _ _ closed => closed)
    obtain ⟨same, length⟩ := pageHits_stamped lib found stamped
    have filled : seen ≠ [] := by
      rintro rfl
      simp at length
    rw [hitsRecorded, same, if_neg filled]
    refine inTransaction_idle.bind fun opened => ?_
    rintro c ⟨rfl, closed⟩
    simp only [Bool.not_false, if_true]
    have whole := transaction_unit misuse (writes_recordSeen i source seen t) fun e =>
      rollback_inTransaction misuse e
    have counted : Triple (Idle (seenRecorded i source seen t)) (pure (page :: pages).length : Prog Exn Conn ℕ)
        (fun n c => n = seen.length ∧ Idle (seenRecorded i source seen t) c) (fun _ => Idle t) :=
      triple_pure fun _ closed => ⟨length, closed⟩
    have returned := whole.bind fun _ => counted
    simp only [bind_assoc] at returned
    exact returned c closed

/-- So does a call for several instances, with the cursor. -/
theorem writes_recordEach (source : String) (perInstance : List (String × List (Access D))) (total : ℕ) (t : Tables) :
    Writes (recordEach lib source total perInstance) t
      (perInstance.foldl (fun total entry => total + (entry.2.filterMap (pageHit? lib)).length) total)
      (perInstance.foldl (fun t entry => hitsRecorded lib entry.1 source entry.2 t) t) := by
  induction perInstance generalizing total t with
  | nil => exact writes_pure total t
  | cons entry rest ih => exact (writes_recordHits lib entry.1 source entry.2 t).bind (ih _ _)

/-- The tables after a batch for several instances. -/
def batchRecorded (perInstance : List (String × List (Access D))) (source cursorKey : String) (next : CursorRow)
    (t : Tables) : Tables :=
  upsertCursor cursorKey next (perInstance.foldl (fun t entry => hitsRecorded lib entry.1 source entry.2 t) t)

theorem recordFileBatch_spec (perInstance : List (String × List (Access D))) (source cursorKey : String)
    (next : CursorRow) (t : Tables) :
    Triple (Idle t) (recordFileBatch lib perInstance source cursorKey next)
      (fun n c => n = perInstance.foldl (fun total entry => total + (entry.2.filterMap (pageHit? lib)).length) 0 ∧
        Idle (batchRecorded lib perInstance source cursorKey next t) c)
      (fun _ => Idle t) := by
  have body : Writes (do
      let total ← recordEach lib source 0 perInstance
      execute (upsertCursor cursorKey next)
      pure total) t _ _ :=
    (writes_recordEach lib source perInstance 0 t).bind ((writes_execute _ _).bind (writes_pure _ _))
  have whole := transaction misuse body (fun e => rollback_inTransaction misuse e)
  simp only [bind_assoc, pure_bind] at whole
  exact whole

end operations

theorem writes_deleteInstanceRows (i : String) (t : Tables) :
    Writes (deleteInstanceRows i) t () (instanceCleared i t) := by
  unfold deleteInstanceRows
  refine (writes_execute _ _).bind ((writes_execute _ _).bind ((writes_execute _ _).bind ((writes_execute _ _).bind
    ((writes_execute _ _).bind ((writes_select _ _).bind ((writes_forEach (fun key u => ?_) _ _).bind
      (writes_execute _ _)))))))
  split_ifs
  · exact writes_execute _ _
  · exact writes_pure _ _

theorem clearInstance_spec (i : String) (t : Tables) :
    Triple (Idle t) (clearInstance i) (fun _ => Idle (instanceCleared i t)) (fun _ => Idle t) :=
  transaction_unit misuse (writes_deleteInstanceRows i t) fun e => rollback_raise misuse e

/-! ## Calls -/

inductive Call (D : Type) where
  | recordHits (instanceId source : String) (hits : List (Access D))
  | recordFileBatch (perInstance : List (String × List (Access D))) (source cursorKey : String) (next : CursorRow)
  | clearInstance (instanceId : String)

/-- A call, and how its statements go. -/
structure Request (D : Type) where
  call : Call D
  outlook : List (Option (SqlConnections.Failure Exn))

section calls

variable {D : Type} (lib : Libraries D)

def Call.run : Call D → Prog Exn Conn ℕ
  | recordHits i source hits => Pageviews.recordHits lib i source hits
  | recordFileBatch perInstance source cursorKey next =>
    Pageviews.recordFileBatch lib perInstance source cursorKey next
  | clearInstance i => do
    Pageviews.clearInstance i
    pure 0

/-- The hits that a call is to record for an instance. -/
def Call.hitsOf (i : String) : Call D → List (Access D)
  | recordHits j _ hits => if j = i then hits else []
  | recordFileBatch perInstance _ _ _ => perInstance.flatMap fun entry => if entry.1 = i then entry.2 else []
  | clearInstance _ => []

/-- What has been recorded after a call that returns. -/
def Call.recorded (call : Call D) (P : Recorded) : Recorded := fun i =>
  match call with
  | clearInstance j => if i = j then [] else P i
  | call => P i ++ (call.hitsOf i).filterMap (pageHit? lib)

def Request.result (t : Tables) (r : Request D) : Except Exn ℕ × Conn := r.call.run lib (.idle t r.outlook)

/-- A call leaves the tables that it has committed, and records its hits if it returns. -/
def Request.perform (s : Tables × Recorded) (r : Request D) : Tables × Recorded :=
  match r.result lib s.1 with
  | (.ok _, c) => (c.committed, r.call.recorded lib s.2)
  | (.error _, c) => (c.committed, s.2)

/-- The tables after some calls, and what has been recorded since the last clear of each instance. -/
def history (requests : List (Request D)) : Tables × Recorded :=
  requests.foldl (Request.perform lib) (.empty, fun _ => [])

/-- Calls that all return. -/
inductive Returned : Tables → List (Request D) → Tables → Prop where
  | nil (t) : Returned t [] t
  | cons {t r n c rest u} (returned : Request.result lib t r = (.ok n, c)) (later : Returned c.committed rest u) :
    Returned t (r :: rest) u

variable {t : Tables} {P : Recorded}

theorem Holds.hitsRecorded (h : Holds t P) (i source : String) (hits : List (Access D)) :
    Holds (hitsRecorded lib i source hits t) (addTo i (hits.filterMap (pageHit? lib)) P) := by
  unfold Pageviews.hitsRecorded
  simp only
  split_ifs with nothing
  · have same : addTo i [] P = P := by
      funext j
      simp [addTo]
    rwa [nothing, same]
  · exact h.record i source _

theorem Holds.eachRecorded (h : Holds t P) (source : String) (perInstance : List (String × List (Access D))) :
    Holds (perInstance.foldl (fun t entry => Pageviews.hitsRecorded lib entry.1 source entry.2 t) t) fun i =>
      P i ++ (perInstance.flatMap fun entry => if entry.1 = i then entry.2 else []).filterMap (pageHit? lib) := by
  induction perInstance generalizing t P with
  | nil => simpa using h
  | cons entry rest ih =>
    have later := ih (h.hitsRecorded lib entry.1 source entry.2)
    have same : (fun i => P i ++ ((entry :: rest).flatMap fun entry => if entry.1 = i then entry.2 else []).filterMap
        (pageHit? lib)) = fun i => addTo entry.1 (entry.2.filterMap (pageHit? lib)) P i ++
          (rest.flatMap fun entry => if entry.1 = i then entry.2 else []).filterMap (pageHit? lib) := by
      funext i
      by_cases here : i = entry.1
      · simp [addTo, here]
      · simp [addTo, here, Ne.symm here]
    rw [same]
    exact later

/-- The tables after a call that returns. -/
def Call.written (t : Tables) : Call D → Tables
  | recordHits i source hits => Pageviews.hitsRecorded lib i source hits t
  | recordFileBatch perInstance source cursorKey next => batchRecorded lib perInstance source cursorKey next t
  | clearInstance i => instanceCleared i t

/-- A call that returns has committed all of its writes, and one that raises none. -/
theorem Call.run_spec (call : Call D) (t : Tables) :
    Triple (Idle t) (call.run lib) (fun _ => Idle (call.written lib t)) (fun _ => Idle t) := by
  cases call with
  | recordHits i source hits =>
    exact (recordHits_spec lib i source hits t).consequence (fun _ h => h) (fun _ _ h => h.2) (fun _ _ h => h)
  | recordFileBatch perInstance source cursorKey next =>
    exact (recordFileBatch_spec lib perInstance source cursorKey next t).consequence (fun _ h => h) (fun _ _ h => h.2)
      (fun _ _ h => h)
  | clearInstance i => exact (clearInstance_spec i t).bind fun _ => triple_pure fun c closed => closed

/-- The writes of a call are those of what it records. -/
theorem Holds.written (h : Holds t P) (call : Call D) : Holds (call.written lib t) (call.recorded lib P) := by
  cases call with
  | recordHits i source hits =>
    have same : (Call.recordHits i source hits).recorded lib P = addTo i (hits.filterMap (pageHit? lib)) P := by
      funext j
      by_cases here : j = i
      · simp [Call.recorded, Call.hitsOf, addTo, here]
      · simp [Call.recorded, Call.hitsOf, addTo, here, Ne.symm here]
    rw [same]
    exact h.hitsRecorded lib i source hits
  | recordFileBatch perInstance source cursorKey next =>
    have each := h.eachRecorded lib source perInstance
    refine ⟨?_, each.stats, each.details.ordered, each.details.rows⟩
    exact ⟨each.days.counts, each.days.ips, each.days.unique⟩
  | clearInstance i => exact h.clear i

theorem Request.result_of_ok {r : Request D} {n : ℕ} {c : Conn} (returned : r.result lib t = (.ok n, c)) :
    Idle (r.call.written lib t) c := by
  have ended := r.call.run_spec lib t (.idle t r.outlook) (idle_idle t r.outlook)
  rw [show r.call.run lib (.idle t r.outlook) = (.ok n, c) from returned] at ended
  exact ended

theorem Request.result_of_error {r : Request D} {e : Exn} {c : Conn} (raised : r.result lib t = (.error e, c)) :
    Idle t c := by
  have ended := r.call.run_spec lib t (.idle t r.outlook) (idle_idle t r.outlook)
  rw [show r.call.run lib (.idle t r.outlook) = (.error e, c) from raised] at ended
  exact ended

theorem Holds.perform {s : Tables × Recorded} (h : Holds s.1 s.2) (r : Request D) :
    Holds (r.perform lib s).1 (r.perform lib s).2 := by
  unfold Request.perform
  split
  · rename_i n c returned
    have committed : c.committed = r.call.written lib s.1 := (Request.result_of_ok lib returned).1
    rw [committed]
    exact h.written lib r.call
  · rename_i e c raised
    have committed : c.committed = s.1 := (Request.result_of_error lib raised).1
    rw [committed]
    exact h

theorem holds_history (requests : List (Request D)) : Holds (history lib requests).1 (history lib requests).2 := by
  induction requests using List.reverseRecOn with
  | nil => exact holds_empty
  | append_singleton requests r ih =>
    unfold history
    rw [List.foldl_append]
    exact ih.perform lib r

/-- Calls that all return, and do not clear an instance, have recorded the page hits of all their batches. -/
theorem Returned.holds {requests : List (Request D)} {t u : Tables} {P : Recorded}
    (returned : Returned lib t requests u) (h : Holds t P) :
    ∃ Q, Holds u Q ∧ ∀ i, (∀ r ∈ requests, r.call ≠ .clearInstance i) →
      Q i = P i ++ (requests.flatMap fun r => r.call.hitsOf i).filterMap (pageHit? lib) := by
  induction returned generalizing P with
  | nil t => exact ⟨P, h, fun i _ => by simp⟩
  | @cons t r n c rest u returned later ih =>
    have committed : c.committed = r.call.written lib t := (Request.result_of_ok lib returned).1
    rw [committed] at ih
    obtain ⟨Q, holds, all⟩ := ih (h.written lib r.call)
    refine ⟨Q, holds, fun i kept => ?_⟩
    rw [all i fun other among => kept other (List.mem_cons_of_mem r among), List.flatMap_cons, List.filterMap_append,
      ← List.append_assoc]
    congr 1
    have uncleared := kept r List.mem_cons_self
    unfold Call.recorded
    split
    · rename_i j isClear
      have other : i ≠ j := by
        rintro rfl
        exact uncleared isClear
      simp [other, isClear, Call.hitsOf]
    · rfl

/-! ## Batches -/

/-- What the tables have of an instance with page hits `P`, in whatever order these came. -/
structure Aggregates (t : Tables) (i : String) (P : List PageHit) : Prop where
  pageviews : ∀ day, Table.Summary
    (fun row group => Counts row.hits row.lastSeen group ∧ row.uniqueIps = (remotes group).card)
    (t.pageviews.lookup (i, day)) (onDay day P)
  ips : ∀ day remote, (i, day, remote) ∈ t.ips ↔ remote ∈ remotes (onDay day P)
  rows : ∀ remote, (i, remote) ∈ t.ipStats ↔ remote ∈ remotes P
  ipStats : ∀ remote, Table.Summary (fun row => Counts row.hits row.lastSeen) (t.ipStats.lookup (i, remote))
    (fromRemote remote P)

/-- The details of an instance are the last of its page hits, in the order of their recording. -/
def LatestDetails (t : Tables) (i : String) (P : List PageHit) : Prop :=
  (detailOf i t).map DetailRow.columns = (P.rtake detailRetain).map PageHit.columns

theorem Counts.ne_nil {n : ℕ} {last : String} {group : List PageHit} (h : Counts n last group) : group ≠ [] := by
  rintro rfl
  obtain ⟨⟨hit, among, -⟩, -⟩ := h.last
  cases among

theorem fromRemote_eq_nil {remote : String} {P : List PageHit} : fromRemote remote P = [] ↔ remote ∉ remotes P := by
  unfold fromRemote
  split_ifs with nobody
  · simp [nobody]
  · simp [nobody, List.filter_eq_nil_iff]

theorem Holds.aggregates (h : Holds t P) (i : String) : Aggregates t i (P i) := by
  refine ⟨fun day => ?_, fun day remote => h.days.ips i day remote, fun remote => ?_, fun remote => h.stats (i, remote)⟩
  · have counts := h.days.counts (i, day)
    cases found : t.pageviews.lookup (i, day) with
    | none =>
      rw [found] at counts
      exact counts
    | some row =>
      rw [found] at counts
      exact ⟨counts, h.days.unique (i, day) row found⟩
  · have stats := h.stats (i, remote)
    rw [← AList.lookup_isSome]
    cases found : t.ipStats.lookup (i, remote) with
    | none =>
      rw [found] at stats
      simpa using fromRemote_eq_nil.mp stats
    | some row =>
      rw [found] at stats
      have filled := Counts.ne_nil stats
      rw [Ne, fromRemote_eq_nil, not_not] at filled
      simpa using filled

theorem Summary.perm {ν : Type} {R : ν → List PageHit → Prop} (stable : ∀ row P Q, R row P → P.Perm Q → R row Q)
    {row? : Option ν} {P Q : List PageHit} (h : Table.Summary R row? P) (same : P.Perm Q) : Table.Summary R row? Q := by
  cases row? with
  | none =>
    obtain rfl : P = [] := h
    exact same.nil_eq.symm
  | some row => exact stable row P Q h same

theorem remotes_perm {P Q : List PageHit} (same : P.Perm Q) : remotes P = remotes Q := by
  ext remote
  simp only [mem_remotes, same.mem_iff]

/-- The order of the page hits makes no difference to the rows. -/
theorem Aggregates.perm {i : String} {P Q : List PageHit} (h : Aggregates t i P) (same : P.Perm Q) :
    Aggregates t i Q := by
  have days (day : String) : (onDay day P).Perm (onDay day Q) := same.filter _
  have each (remote : String) : (fromRemote remote P).Perm (fromRemote remote Q) := by
    unfold fromRemote
    split_ifs
    · exact .refl _
    · exact same.filter _
  refine ⟨fun day => ?_, fun day remote => ?_, fun remote => ?_, fun remote => ?_⟩
  · refine Summary.perm (fun row P Q holds equal => ?_) (h.pageviews day) (days day)
    exact ⟨holds.1.perm equal, by rw [← remotes_perm equal, holds.2]⟩
  · rw [h.ips, remotes_perm (days day)]
  · rw [h.rows, remotes_perm same]
  · exact Summary.perm (fun row P Q holds equal => holds.perm equal) (h.ipStats remote) (each remote)

/-- From an empty store, an instance has the aggregates of the page hits of its batches: whatever batches its
hits are split into, whatever order they come in, and whatever else the batches are for. After any calls
it has those of what has been recorded since it was last cleared. A call that raises leaves all tables
as they were before, and every call leaves no transaction open. -/
theorem aggregates_of_batches (lib : Libraries D) :
    (∀ (i : String) (hits : List (Access D)) (requests : List (Request D)) (t : Tables),
      Returned lib .empty requests t → (∀ r ∈ requests, r.call ≠ .clearInstance i) →
        (requests.flatMap fun r => r.call.hitsOf i).Perm hits →
          Aggregates t i (hits.filterMap (pageHit? lib)) ∧
            LatestDetails t i ((requests.flatMap fun r => r.call.hitsOf i).filterMap (pageHit? lib))) ∧
    (∀ (requests : List (Request D)) (i : String),
      Aggregates (history lib requests).1 i ((history lib requests).2 i) ∧
        LatestDetails (history lib requests).1 i ((history lib requests).2 i)) ∧
    (∀ (r : Request D) (t : Tables), (r.result lib t).2.working = none ∧
      ∀ e c, r.result lib t = (.error e, c) → c.committed = t) := by
  refine ⟨?_, ?_, ?_⟩
  · intro i hits requests t returned kept split
    obtain ⟨Q, holds, all⟩ := returned.holds lib holds_empty
    have recorded := all i kept
    rw [List.nil_append] at recorded
    constructor
    · have same := split.filterMap (pageHit? lib)
      rw [← recorded] at same
      exact (holds.aggregates i).perm same
    · rw [← recorded]
      exact holds.details.rows i
  · intro requests i
    have holds := holds_history lib requests
    exact ⟨holds.aggregates i, holds.details.rows i⟩
  · intro r t
    refine ⟨?_, fun e c raised => (Request.result_of_error lib raised).1⟩
    rcases run : r.result lib t with ⟨e | n, c⟩
    · exact (Request.result_of_error lib run).2
    · exact (Request.result_of_ok lib run).2

end calls

/-- A library in which a time is an hour of the first of January. -/
def hourly : Libraries ℕ where
  urlsplit path := .ok (path, "")
  unquote path := path
  fromisoformat text := if text = "12" then .ok 12 else if text = "15" then .ok 15 else .error .valueError
  aware _ := true
  astimezone dt := .ok dt
  utc dt := .ok dt
  isoformat dt := if dt = 12 then "12" else "15"
  timestampNs dt := dt * 3600000000000
  date _ := "2026-01-01"

/-- A page view at the given hour. -/
def pageView (ts remote : String) : Access ℕ := (⟨ts, "GET", "/", 200, remote⟩, ⟨15, 15⟩)

/-- One hit on its own, and two more in another batch that is for two instances. -/
theorem aggregates_of_batches_two : ∃ t : Tables,
    t.pageviews.lookup ("a", "2026-01-01") = some ⟨3, 1, "15", "builtin"⟩ ∧
    Aggregates t "a" ([pageView "12" "x", pageView "15" "x", pageView "12" ""].filterMap (pageHit? hourly)) := by
  have returned : Returned hourly .empty
      [⟨.recordHits "a" "builtin" [pageView "15" "x"], []⟩,
        ⟨.recordFileBatch [("a", [pageView "12" "x", pageView "12" ""]), ("b", [pageView "15" "y"])] "builtin"
          (builtinCursorKey "a") ⟨100, none, none⟩, [none, none]⟩] _ :=
    .cons rfl (.cons rfl (.nil _))
  refine ⟨_, ?_, ((aggregates_of_batches hourly).1 "a" _ _ _ returned ?_ ?_).1⟩
  · rfl
  · intro r among
    rcases List.mem_cons.mp among with rfl | among
    · simp
    · simp [List.mem_singleton.mp among]
  · exact .swap ..

end LocalWebAccess.Pageviews
