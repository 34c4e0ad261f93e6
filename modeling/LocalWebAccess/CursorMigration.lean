import LocalWebAccess.PageviewStore

/-!
# Cursors under stable keys

The cursors of the access logs were kept under the paths of the files. A migration moves them to keys that do
not depend on paths, and where several cursors come to the same key the furthest one stays.
-/
namespace LocalWebAccess.Pageviews
open KeyedTables

/-! ## Keys -/

/-- `_CURSOR_KEY_CADDY_SHARED` -/
def caddySharedCursorKey : String := "caddy-shared:static-access"

/-- `_stable_cursor_key_from_legacy` -/
def stableCursorKeyFromLegacy (sourceKey : String) : Option String :=
  if sourceKey = caddySharedCursorKey then none
  else if "caddy-shared:".toList <+: sourceKey.toList then some caddySharedCursorKey
  else if "builtin:".toList <+: sourceKey.toList then
    let tail := sourceKey.toList.drop 8
    let instanceId := tail.takeWhile (· ≠ ':')
    let rest := tail.drop instanceId.length
    if rest = [] ∨ rest = ":gateway".toList then none else some (builtinCursorKey (String.ofList instanceId))
  else none

/-- The key of an instance is stable. -/
theorem stable_builtinCursorKey {instanceId : List Char} (plain : ∀ c ∈ instanceId, c ≠ ':') :
    stableCursorKeyFromLegacy (builtinCursorKey (String.ofList instanceId)) = none := by
  have text : (builtinCursorKey (String.ofList instanceId)).toList =
      "builtin:".toList ++ (instanceId ++ ":gateway".toList) := by
    have middle : (String.ofList instanceId).toList = instanceId := String.toList_ofList ..
    rw [builtinCursorKey, String.toList_append, String.toList_append, middle, List.append_assoc]
  have other : builtinCursorKey (String.ofList instanceId) ≠ caddySharedCursorKey := by
    intro same
    have texts := congrArg String.toList same
    rw [text] at texts
    exact absurd (congrArg List.head? texts) (by simp [caddySharedCursorKey])
  have caddy : ¬"caddy-shared:".toList <+: "builtin:".toList ++ (instanceId ++ ":gateway".toList) := by
    rintro ⟨rest, same⟩
    exact absurd (congrArg List.head? same) (by simp)
  have tail : ("builtin:".toList ++ (instanceId ++ ":gateway".toList)).drop 8 = instanceId ++ ":gateway".toList :=
    List.drop_left' rfl
  have first : (instanceId ++ ":gateway".toList).takeWhile (· ≠ ':') = instanceId := by
    rw [List.takeWhile_append_of_pos fun c among => decide_eq_true (plain c among)]
    exact List.append_nil _
  unfold stableCursorKeyFromLegacy
  rw [if_neg other, text, if_neg caddy, if_pos (List.prefix_append ..)]
  dsimp only
  rw [tail, first, List.drop_left, if_pos (.inr rfl)]

/-- A key that a legacy key is moved to is stable. -/
theorem stable_of_legacy {key stable : String} (legacy : stableCursorKeyFromLegacy key = some stable) :
    stableCursorKeyFromLegacy stable = none := by
  unfold stableCursorKeyFromLegacy at legacy
  dsimp only at legacy
  split_ifs at legacy
  · cases legacy
    rfl
  · cases legacy
    refine stable_builtinCursorKey fun c among => ?_
    have plain := List.mem_takeWhile_imp among
    simpa using plain

/-! ## The migration -/

/-- One turn of the loop of `_migrate_ingest_cursor_keys_to_stable`. -/
def migrateCursorRow (t : Table String CursorRow) (row : String × CursorRow) : Table String CursorRow :=
  match stableCursorKeyFromLegacy row.1 with
  | none => t
  | some newKey =>
    match t.lookup newKey with
    | none => t.rename row.1 newKey
    | some existing =>
      let keep := if row.2.offsetBytes < existing.offsetBytes then existing else row.2
      (t.update newKey fun _ => keep).deleteWhere (· = row.1)

/-- `_migrate_ingest_cursor_keys_to_stable`, with the rows in the order in which they are read. -/
def migrateIngestCursorKeysToStable (t : Table String CursorRow) (rows : List (String × CursorRow)) :
    Table String CursorRow := rows.foldl migrateCursorRow t

/-- The rows of a table in some order. -/
def Reads (t : Table String CursorRow) (rows : List (String × CursorRow)) : Prop :=
  rows.Perm (t.entries.map fun entry => (entry.1, entry.2))

/-! ## The furthest cursor -/

/-- A cursor of the group that is as far as any of it. -/
def Furthest (row : CursorRow) (group : List CursorRow) : Prop :=
  row ∈ group ∧ ∀ other ∈ group, other.offsetBytes ≤ row.offsetBytes

theorem Furthest.append {row other : CursorRow} {group : List CursorRow} (h : Furthest row group) :
    Furthest (if other.offsetBytes < row.offsetBytes then row else other) (group ++ [other]) := by
  obtain ⟨inside, far⟩ := h
  unfold Furthest
  simp only [List.mem_append, List.mem_singleton]
  split_ifs with further
  · refine ⟨.inl inside, fun third among => ?_⟩
    rcases among with among | rfl
    · exact far third among
    · exact Nat.le_of_lt further
  · refine ⟨.inr rfl, fun third among => ?_⟩
    rcases among with among | rfl
    · exact (far third among).trans (Nat.le_of_not_lt further)
    · exact Nat.le_refl _

variable {t : Table String CursorRow} {groups : String → List CursorRow} {key stable : String} {row : CursorRow}

/-- A turn moves the cursor of its key to the group of the stable key. -/
theorem summarizes_migrateCursorRow (h : Table.Summarizes Furthest t groups) (alone : groups key = [row])
    (legacy : stableCursorKeyFromLegacy key = some stable) :
    Table.Summarizes Furthest (migrateCursorRow t (key, row)) fun k =>
      if k = stable then groups stable ++ [row] else if k = key then [] else groups k := by
  have moved : key ≠ stable := by
    rintro rfl
    rw [stable_of_legacy legacy] at legacy
    cases legacy
  have there : t.lookup key = some row := by
    have holds := h key
    rw [alone] at holds
    cases found : t.lookup key with
    | none =>
      rw [found] at holds
      cases holds
    | some row' =>
      rw [found] at holds
      rw [List.mem_singleton.mp holds.1]
  intro k
  have holds := h stable
  have others := h k
  unfold migrateCursorRow
  rw [legacy]
  dsimp only
  cases found : t.lookup stable with
  | none =>
    rw [found] at holds
    have empty : groups stable = [] := holds
    dsimp only
    rw [Table.lookup_rename found moved]
    split_ifs with here gone
    · rw [there, empty]
      exact ⟨by simp, by simp⟩
    · rfl
    · exact others
  | some existing =>
    rw [found] at holds
    dsimp only
    rw [Table.lookup_deleteWhere, Table.lookup_update]
    by_cases here : k = stable
    · subst here
      rw [if_neg (by simpa using moved.symm), found, if_pos rfl]
      simp only [Option.map_some, if_true]
      exact Furthest.append holds
    · by_cases gone : k = key
      · subst gone
        simp [here, Table.Summary]
      · rw [if_neg (by simpa using gone), if_neg here, if_neg gone]
        cases kept : t.lookup k with
        | none =>
          rw [kept] at others
          exact others
        | some other =>
          rw [kept] at others
          simpa [here] using others

/-! ## The whole migration -/

/-- The cursors that come to a key: those that are read under it, and of the others those that have been moved. -/
def cursorsAt (t : Table String CursorRow) (done left : List (String × CursorRow)) (key : String) : List CursorRow :=
  if (stableCursorKeyFromLegacy key).isSome then (left.filter fun row => row.1 = key).map Prod.snd
  else (t.lookup key).toList ++ (done.filter fun row => stableCursorKeyFromLegacy row.1 = some key).map Prod.snd

theorem cursorsAt_of_stable {done left : List (String × CursorRow)} {row : String × CursorRow}
    (unmoved : stableCursorKeyFromLegacy row.1 = none) :
    cursorsAt t (done ++ [row]) left = cursorsAt t done (row :: left) := by
  funext k
  unfold cursorsAt
  split_ifs with legacy
  · have other : row.1 ≠ k := by
      rintro rfl
      rw [unmoved] at legacy
      cases legacy
    rw [List.filter_cons_of_neg (by simpa using other)]
  · rw [List.filter_append, List.filter_cons_of_neg (by simp [unmoved])]
    simp

theorem cursorsAt_of_legacy {done left : List (String × CursorRow)} {row : String × CursorRow}
    (legacy : stableCursorKeyFromLegacy row.1 = some stable) (fresh : ∀ other ∈ left, row.1 ≠ other.1) (k : String) :
    cursorsAt t (done ++ [row]) left k =
      if k = stable then cursorsAt t done (row :: left) stable ++ [row.2]
      else if k = row.1 then [] else cursorsAt t done (row :: left) k := by
  have settled := stable_of_legacy legacy
  by_cases here : k = stable
  · subst here
    simp [cursorsAt, settled, legacy]
  · rw [if_neg here]
    by_cases gone : k = row.1
    · subst gone
      have none : left.filter (fun other => other.1 = row.1) = [] :=
        List.filter_eq_nil_iff.mpr fun other among => by simpa using (fresh other among).symm
      simp [cursorsAt, legacy, none]
    · simp [cursorsAt, legacy, Ne.symm here, gone, List.filter_cons_of_neg, Ne.symm gone]

/-- What is left to be read is moved row by row. -/
theorem summarizes_foldl {done left : List (String × CursorRow)} {now : Table String CursorRow}
    (distinct : left.Pairwise fun a b => a.1 ≠ b.1) (h : Table.Summarizes Furthest now (cursorsAt t done left)) :
    Table.Summarizes Furthest (left.foldl migrateCursorRow now) (cursorsAt t (done ++ left) []) := by
  induction left generalizing done now with
  | nil => simpa using h
  | cons row left ih =>
    obtain ⟨fresh, distinct⟩ := List.pairwise_cons.mp distinct
    rw [List.foldl_cons, List.append_cons]
    refine ih distinct ?_
    cases moved : stableCursorKeyFromLegacy row.1 with
    | none =>
      have same : migrateCursorRow now row = now := by simp only [migrateCursorRow, moved]
      rw [same, cursorsAt_of_stable moved]
      exact h
    | some stable =>
      have none : left.filter (fun other => other.1 = row.1) = [] :=
        List.filter_eq_nil_iff.mpr fun other among => by simpa using (fresh other among).symm
      have alone : cursorsAt t done (row :: left) row.1 = [row.2] := by
        simp [cursorsAt, moved, none]
      exact (summarizes_migrateCursorRow h alone moved).congr fun k => (cursorsAt_of_legacy moved fresh k).symm

variable {rows : List (String × CursorRow)}

theorem mem_of_reads (reads : Reads t rows) : (key, row) ∈ rows ↔ t.lookup key = some row := by
  rw [← Option.mem_def, AList.mem_lookup_iff]
  refine reads.mem_iff.trans (List.mem_map.trans ?_)
  constructor
  · rintro ⟨entry, inside, same⟩
    cases same
    exact inside
  · exact fun inside => ⟨_, inside, rfl⟩

theorem distinct_of_reads (reads : Reads t rows) : rows.Pairwise fun a b => a.1 ≠ b.1 := by
  have keys : rows.map Prod.fst |>.Perm t.entries.keys := by
    have mapped := reads.map Prod.fst
    rwa [List.map_map] at mapped
  exact List.pairwise_map.mp (keys.nodup_iff.mpr t.nodupKeys)

theorem summarizes_start (reads : Reads t rows) : Table.Summarizes Furthest t (cursorsAt t [] rows) := by
  intro k
  have found : ∀ row, row ∈ (rows.filter fun row => row.1 = k).map Prod.snd ↔ t.lookup k = some row := by
    intro row
    rw [← mem_of_reads reads, List.mem_map]
    constructor
    · rintro ⟨⟨key, row⟩, among, rfl⟩
      obtain ⟨inside, same⟩ := List.mem_filter.mp among
      rwa [← of_decide_eq_true same]
    · exact fun inside => ⟨_, List.mem_filter.mpr ⟨inside, decide_eq_true rfl⟩, rfl⟩
  unfold cursorsAt
  split_ifs with legacy
  · cases there : t.lookup k with
    | none =>
      refine List.eq_nil_iff_forall_not_mem.mpr fun row among => ?_
      rw [found, there] at among
      cases among
    | some row =>
      refine ⟨(found row).mpr there, fun other among => ?_⟩
      rw [found, there] at among
      rw [Option.some.inj among]
  · cases there : t.lookup k with
    | none => rfl
    | some row => exact ⟨by simp, by simp⟩

/-- The key that a migration leaves the cursor of a key under. -/
def targetKey (key : String) : String := (stableCursorKeyFromLegacy key).getD key

/-- The cursors of a table are under their stable keys, each as far as the furthest one that has come to its key. -/
structure Migrated (t t' : Table String CursorRow) : Prop where
  furthest : ∀ key, (∃ key' row, t.lookup key' = some row ∧ targetKey key' = key) →
    ∃ row, t'.lookup key = some row ∧ (∃ key', t.lookup key' = some row ∧ targetKey key' = key) ∧
      ∀ key' other, t.lookup key' = some other → targetKey key' = key → other.offsetBytes ≤ row.offsetBytes
  unrelated : ∀ key, stableCursorKeyFromLegacy key = none → (∀ key' ∈ t, stableCursorKeyFromLegacy key' ≠ some key) →
    t'.lookup key = t.lookup key
  stable : ∀ key ∈ t', stableCursorKeyFromLegacy key = none
  again : ∀ rows, Reads t' rows → migrateIngestCursorKeysToStable t' rows = t'

theorem stable_targetKey (key : String) : stableCursorKeyFromLegacy (targetKey key) = none := by
  unfold targetKey
  cases legacy : stableCursorKeyFromLegacy key with
  | none => exact legacy
  | some stable => exact stable_of_legacy legacy

/-- The cursors that come to a stable key are those whose keys are moved to it. -/
theorem mem_cursorsAt (reads : Reads t rows) (settled : stableCursorKeyFromLegacy key = none) :
    row ∈ cursorsAt t rows [] key ↔ ∃ key', t.lookup key' = some row ∧ targetKey key' = key := by
  unfold cursorsAt
  rw [settled, if_neg (by simp), List.mem_append, Option.mem_toList, List.mem_map]
  constructor
  · rintro (here | ⟨⟨key', row⟩, among, rfl⟩)
    · exact ⟨key, here, by simp [targetKey, settled]⟩
    · obtain ⟨inside, moved⟩ := List.mem_filter.mp among
      exact ⟨key', (mem_of_reads reads).mp inside, by simp [targetKey, of_decide_eq_true moved]⟩
  · rintro ⟨key', found, same⟩
    unfold targetKey at same
    cases legacy : stableCursorKeyFromLegacy key' with
    | none =>
      rw [legacy] at same
      exact .inl (same ▸ found)
    | some stable =>
      rw [legacy] at same
      obtain rfl : stable = key := same
      exact .inr ⟨(key', row), List.mem_filter.mpr ⟨(mem_of_reads reads).mpr found, decide_eq_true legacy⟩, rfl⟩

theorem foldl_of_stable (settled : ∀ row ∈ rows, stableCursorKeyFromLegacy row.1 = none) :
    rows.foldl migrateCursorRow t = t := by
  induction rows with
  | nil => rfl
  | cons row rows ih =>
    obtain ⟨first, later⟩ := List.forall_mem_cons.mp settled
    have same : migrateCursorRow t row = t := by simp only [migrateCursorRow, first]
    rw [List.foldl_cons, same, ih later]

/-- A migration keeps the furthest cursor under each stable key, in whichever order it reads the rows. -/
theorem migrated (t : Table String CursorRow) (rows : List (String × CursorRow)) (reads : Reads t rows) :
    Migrated t (migrateIngestCursorKeysToStable t rows) := by
  have summary := summarizes_foldl (distinct_of_reads reads) (summarizes_start reads)
  rw [List.nil_append] at summary
  have settled : ∀ key ∈ migrateIngestCursorKeysToStable t rows, stableCursorKeyFromLegacy key = none := by
    intro key inside
    by_contra legacy
    obtain ⟨row, found⟩ := Option.isSome_iff_exists.mp (AList.lookup_isSome.mpr inside)
    have there := summary.row found
    rw [cursorsAt, if_pos (Option.isSome_iff_ne_none.mpr legacy)] at there
    cases there.1
  refine ⟨?_, ?_, settled, ?_⟩
  · rintro key ⟨key', row, found, rfl⟩
    have group : ∀ row, row ∈ cursorsAt t rows [] (targetKey key') ↔
        ∃ key'', t.lookup key'' = some row ∧ targetKey key'' = targetKey key' :=
      fun row => mem_cursorsAt reads (stable_targetKey key')
    have holds := summary (targetKey key')
    cases there : (rows.foldl migrateCursorRow t).lookup (targetKey key') with
    | none =>
      rw [there] at holds
      have among := (group row).mpr ⟨key', found, rfl⟩
      rw [holds] at among
      cases among
    | some furthest =>
      rw [there] at holds
      exact ⟨furthest, there, (group furthest).mp holds.1,
        fun key'' other among same => holds.2 other ((group other).mpr ⟨key'', among, same⟩)⟩
  · intro key unmoved alone
    have none : rows.filter (fun row => stableCursorKeyFromLegacy row.1 = some key) = [] := by
      refine List.filter_eq_nil_iff.mpr fun row among moved => ?_
      have known := Option.isSome_iff_exists.mpr ⟨row.2, (mem_of_reads reads).mp among⟩
      exact alone row.1 (AList.lookup_isSome.mp known) (of_decide_eq_true moved)
    have own : cursorsAt t rows [] key = (t.lookup key).toList := by
      rw [cursorsAt, if_neg (by simp [unmoved]), none, List.map_nil, List.append_nil]
    have holds := summary key
    rw [own] at holds
    unfold migrateIngestCursorKeysToStable
    cases there : (rows.foldl migrateCursorRow t).lookup key with
    | none =>
      rw [there] at holds
      exact (Option.toList_eq_nil_iff.mp holds).symm
    | some row =>
      rw [there] at holds
      exact (Option.mem_toList.mp holds.1).symm
  · intro rows' reads'
    refine foldl_of_stable fun row among => settled row.1 ?_
    exact AList.lookup_isSome.mp (Option.isSome_iff_exists.mpr ⟨row.2, (mem_of_reads reads').mp among⟩)

/-! ## Two old files of a site -/

/-- Two cursors of a site under paths, and one of another site that is stable already. -/
def oldCursors : Table String CursorRow where
  entries :=
    [⟨"builtin:site:/old/gateway.log", ⟨7, some "1", none⟩⟩, ⟨"builtin:site:/new/gateway.log", ⟨9, none, some "2"⟩⟩,
      ⟨"builtin:other:gateway", ⟨3, none, none⟩⟩]
  nodupKeys := by simp

/-- The further cursor stays. -/
theorem migrated_oldCursors :
    Migrated oldCursors
        (migrateIngestCursorKeysToStable oldCursors (oldCursors.entries.map fun entry => (entry.1, entry.2))) ∧
      (migrateIngestCursorKeysToStable oldCursors (oldCursors.entries.map fun entry => (entry.1, entry.2))).lookup
        "builtin:site:gateway" = some ⟨9, none, some "2"⟩ :=
  ⟨migrated oldCursors _ (List.Perm.refl _), by decide +kernel⟩

end LocalWebAccess.Pageviews
