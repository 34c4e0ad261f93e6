import LocalWebAccess.ImageRetention
import Mathlib.Data.List.Perm.Basic
import Mathlib.Data.List.Perm.Subperm

/-!
# Counting the versions that are kept

A collection counts what it keeps from the newest build on, and what is protected stays wherever it stands.
A protected build within the retention takes the place of another one, and one beyond it comes on top. The
second collection finds the kept builds nearer to the newest end than the first one did.
-/
namespace LocalWebAccess.BuildArtifacts
open PythonText

variable {env : Conditions} {s : Store} {inUse : Option String} {b : Build} {r : ℕ} {rows : List Build}

/-! ## What is to be kept -/

/-- The builds with an image, the newest first. -/
def registered (s : Store) : List Build := s.builds.rows.filter fun row => (given row.imageRef).isSome

/-- A build of the image in use. -/
def OfImage (inUse : Option String) (row : Build) : Prop :=
  isRollbackCandidate row ∧ normalizeImageId row.imageId = inUse

/-- A build of another image. -/
def OfOther (inUse : Option String) (row : Build) : Prop :=
  isRollbackCandidate row ∧ normalizeImageId row.imageId ≠ inUse ∧ (normalizeImageId row.imageId).isSome

instance : DecidablePred (OfImage inUse) := fun row =>
  inferInstanceAs (Decidable (isRollbackCandidate row ∧ normalizeImageId row.imageId = inUse))

instance : DecidablePred (OfOther inUse) := fun row =>
  inferInstanceAs (Decidable
    (isRollbackCandidate row ∧ normalizeImageId row.imageId ≠ inUse ∧ (normalizeImageId row.imageId).isSome))

theorem decide_ofImage (inUse : Option String) (row : Build) :
    decide (OfImage inUse row) = (isRollbackCandidate row && decide (normalizeImageId row.imageId = inUse)) := by
  rw [Bool.eq_iff_iff, decide_eq_true_iff]
  simp [OfImage]

theorem decide_ofOther (inUse : Option String) (row : Build) : decide (OfOther inUse row) = (isRollbackCandidate row &&
    (decide (normalizeImageId row.imageId ≠ inUse) && (normalizeImageId row.imageId).isSome)) := by
  rw [Bool.eq_iff_iff, decide_eq_true_iff]
  simp [OfOther]

/-- The newest of the rows with a property. -/
def Newest (p : Build → Prop) (rows : List Build) (b : Build) : Prop :=
  b ∈ rows ∧ p b ∧ ∀ row ∈ rows, p row → row.id ≤ b.id

instance (p : Build → Prop) [DecidablePred p] : DecidablePred (Newest p rows) := fun b =>
  inferInstanceAs (Decidable (b ∈ rows ∧ p b ∧ ∀ row ∈ rows, p row → row.id ≤ b.id))

/-- The build in use, or the newest one of another image. -/
def Protected (inUse : Option String) (rows : List Build) (b : Build) : Prop :=
  Newest (OfImage inUse) rows b ∨ Newest (OfOther inUse) rows b

instance : DecidablePred (Protected inUse rows) := fun b =>
  inferInstanceAs (Decidable (Newest (OfImage inUse) rows b ∨ Newest (OfOther inUse) rows b))

def protectedRows (inUse : Option String) (rows : List Build) : List Build := rows.filter (Protected inUse rows ·)

/-- A collection divides the builds with an image into what it keeps and what it removes, keeps the build in
use and the newest one of another image, counts them towards the retention and keeps the same builds when it
is repeated. -/
structure Collected (imageRetention : ℕ) (containerImageId inUseImageId : Option String) (s after : Store)
    (kept removed : List ℕ) : Prop where
  divides : (kept ++ removed).Perm ((registered s).map Build.id)
  once : (kept ++ removed).Nodup
  keptInOrder : kept.Sublist ((registered s).map Build.id)
  removedInOrder : removed.Sublist ((registered s).map Build.id)
  inUse : ∀ b, Newest (OfImage (inUseImage inUseImageId containerImageId)) (registered s) b → b.id ∈ kept
  other : ∀ b, Newest (OfOther (inUseImage inUseImageId containerImageId)) (registered s) b → b.id ∈ kept
  counts : kept.length ≤ max (retention imageRetention)
    (protectedRows (inUseImage inUseImageId containerImageId) (registered s)).length
  repeats : ∀ env', ∀ id ∈ kept, id ∉ (gcBuildArtifacts env' imageRetention containerImageId inUseImageId after).2.2

/-! ## The loop -/

/-- The loop keeps what is within the retention and what is protected. -/
def retained (r : ℕ) (guarded : List ℕ) (rows : List Build) : List Build :=
  rows.take r ++ (rows.drop r).filter fun row => row.id ∈ guarded

theorem gcRows_lists (r : ℕ) (guarded : List ℕ) (rows : List Build) (kept removed : List ℕ) (s : Store) :
    (gcRows env r guarded rows kept removed s).2 =
      (kept ++ (retained (r - kept.length) guarded rows).map Build.id,
        removed ++ (dropped (r - kept.length) guarded rows).map Build.id) := by
  induction rows generalizing kept removed s with
  | nil => simp [gcRows, retained, dropped]
  | cons row rows ih =>
    unfold gcRows
    split_ifs with stays
    · rw [ih, List.length_append, List.length_singleton]
      rcases Nat.lt_or_ge kept.length r with room | full
      · have rest : r - kept.length = (r - (kept.length + 1)) + 1 := by omega
        rw [rest]
        simp [retained, dropped]
      · have guarded' := stays.resolve_left (Nat.not_lt.mpr full)
        rw [Nat.sub_eq_zero_of_le full, Nat.sub_eq_zero_of_le (by omega)]
        simp [retained, dropped, guarded']
    · obtain ⟨full, unguarded⟩ := not_or.mp stays
      rw [ih, Nat.sub_eq_zero_of_le (Nat.not_lt.mp full)]
      simp [retained, dropped, unguarded]

theorem retained_append_dropped (r : ℕ) (guarded : List ℕ) (rows : List Build) :
    (retained r guarded rows ++ dropped r guarded rows).Perm rows := by
  have halves : ((rows.drop r).filter (fun row => row.id ∈ guarded) ++
      (rows.drop r).filter fun row => row.id ∉ guarded).Perm (rows.drop r) := by
    simpa using List.filter_append_perm (fun row : Build => decide (row.id ∈ guarded)) (rows.drop r)
  unfold retained dropped
  rw [List.append_assoc]
  have whole := halves.append_left (rows.take r)
  rwa [List.take_append_drop] at whole

theorem retained_sublist (r : ℕ) (guarded : List ℕ) (rows : List Build) : (retained r guarded rows).Sublist rows := by
  have later : ((rows.drop r).filter fun row => row.id ∈ guarded).Sublist (rows.drop r) := List.filter_sublist
  have joined := (List.Sublist.refl (rows.take r)).append later
  rwa [List.take_append_drop] at joined

theorem dropped_sublist (r : ℕ) (guarded : List ℕ) (rows : List Build) : (dropped r guarded rows).Sublist rows :=
  List.filter_sublist.trans (List.drop_sublist _ _)

/-! ## What is protected -/

theorem Newest.unique {p : Build → Prop} {a b : Build} (descending : Descending rows) (newest : Newest p rows a)
    (newest' : Newest p rows b) : a = b := by
  obtain ⟨inside, mine, first⟩ := newest
  obtain ⟨inside', mine', first'⟩ := newest'
  exact descending.eq_of_id inside inside' (Nat.le_antisymm (first' a inside mine) (first b inside' mine'))

theorem find_eq_some_newest {p : Build → Prop} [DecidablePred p] (descending : Descending rows) :
    rows.find? (p ·) = some b ↔ Newest p rows b := by
  have found : ∀ a, rows.find? (p ·) = some a → Newest p rows a := by
    intro a found
    obtain ⟨mine, older, newer, rfl, none⟩ := List.find?_eq_some_iff_append.mp found
    refine ⟨by simp, by simpa using mine, fun row inside mine' => ?_⟩
    rw [List.mem_append, List.mem_cons] at inside
    rcases inside with before | rfl | after
    · exact absurd mine' (by simpa using none row before)
    · exact Nat.le_refl _
    · have later := List.rel_of_pairwise_cons (List.pairwise_append.mp descending).2.1 after
      exact Nat.le_of_lt later
  constructor
  · exact found b
  · intro newest
    obtain ⟨a, there⟩ : ∃ a, rows.find? (p ·) = some a :=
      Option.isSome_iff_exists.mp (List.find?_isSome.mpr ⟨b, newest.1, by simpa using newest.2.1⟩)
    rw [there, (found a there).unique descending newest]

theorem Descending.id_mem_find {p : Build → Prop} [DecidablePred p] (descending : Descending rows) (inside : b ∈ rows) :
    b.id ∈ ((rows.find? (p ·)).map Build.id).toList ↔ Newest p rows b := by
  rw [← find_eq_some_newest descending, Option.mem_toList, Option.map_eq_some_iff]
  constructor
  · rintro ⟨row, found, same⟩
    rwa [← descending.eq_of_id (List.mem_of_find?_eq_some found) inside same]
  · exact fun found => ⟨b, found, rfl⟩

theorem Protected.mem (h : Protected inUse rows b) : b ∈ rows := by
  rcases h with newest | newest
  · exact newest.1
  · exact newest.1

/-- At most two builds are protected. -/
theorem protectedRows_length (inUse : Option String) (descending : Descending rows) :
    (protectedRows inUse rows).length ≤ 2 := by
  have apart : rows.Nodup :=
    descending.imp fun {a b} (less : b.id < a.id) same => absurd (same ▸ less) (Nat.lt_irrefl _)
  have distinct : (protectedRows inUse rows).Nodup := apart.sublist List.filter_sublist
  have within : protectedRows inUse rows ⊆
      (rows.find? (OfImage inUse ·)).toList ++ (rows.find? (OfOther inUse ·)).toList := by
    intro b inside
    obtain ⟨-, guarded⟩ := List.mem_filter.mp inside
    rcases of_decide_eq_true guarded with newest | newest
    · simp [(find_eq_some_newest descending).mpr newest]
    · simp [(find_eq_some_newest descending).mpr newest]
  have bound := (List.subperm_of_subset distinct within).length_le
  rw [List.length_append] at bound
  have one : ∀ o : Option Build, o.toList.length ≤ 1 := by
    intro o
    cases o <;> simp
  have first := one (rows.find? (OfImage inUse ·))
  have second := one (rows.find? (OfOther inUse ·))
  omega

/-- The newest with a property stays the newest where there are fewer rows. -/
theorem Newest.of_subset {p : Build → Prop} {rows' : List Build} (newest : Newest p rows b) (fewer : rows' ⊆ rows)
    (stays : b ∈ rows') : Newest p rows' b :=
  ⟨stays, newest.2.1, fun row inside => newest.2.2 row (fewer inside)⟩

theorem Protected.of_subset {rows' : List Build} (h : Protected inUse rows b) (fewer : rows' ⊆ rows)
    (stays : b ∈ rows') : Protected inUse rows' b := h.imp (·.of_subset fewer stays) (·.of_subset fewer stays)

theorem Descending.nodup_ids (descending : Descending rows) : (rows.map Build.id).Nodup :=
  List.pairwise_map.mpr (descending.imp fun less => (Nat.ne_of_lt less).symm)

theorem divided (r : ℕ) (guarded : List ℕ) (rows : List Build) :
    ((retained r guarded rows).map Build.id ++ (dropped r guarded rows).map Build.id).Perm (rows.map Build.id) := by
  rw [← List.map_append]
  exact (retained_append_dropped r guarded rows).map _

/-- No build is kept and removed. -/
theorem Descending.apart {a b : Build} {guarded : List ℕ} (descending : Descending rows)
    (kept : a ∈ retained r guarded rows) (removed : b ∈ dropped r guarded rows) : a.id ≠ b.id :=
  (List.nodup_append.mp ((divided r guarded rows).nodup_iff.mpr descending.nodup_ids)).2.2 _
    (List.mem_map_of_mem kept) _ (List.mem_map_of_mem removed)

/-! ## The counting -/

theorem retained_length (r : ℕ) {guarded : List ℕ}
    (protects : ∀ row ∈ rows, row.id ∈ guarded ↔ Protected inUse rows row) :
    (retained r guarded rows).length = min r rows.length + ((rows.drop r).filter (Protected inUse rows ·)).length := by
  have same : (rows.drop r).filter (fun row => row.id ∈ guarded) = (rows.drop r).filter (Protected inUse rows ·) :=
    List.filter_congr fun row inside => by
      rw [decide_eq_decide]
      exact protects row (List.mem_of_mem_drop inside)
  rw [retained, List.length_append, List.length_take, same]

theorem protectedRows_split (r : ℕ) : (protectedRows inUse rows).length =
    ((rows.take r).filter (Protected inUse rows ·)).length +
      ((rows.drop r).filter (Protected inUse rows ·)).length := by
  rw [← List.length_append, ← List.filter_append, List.take_append_drop]
  rfl

/-- The protected builds are among the newest, or there is one place only and the newest build is protected. -/
def Within (r : ℕ) (inUse : Option String) (rows : List Build) : Prop :=
  (∀ row ∈ rows, Protected inUse rows row → row ∈ rows.take r) ∨ (r = 1 ∧ ∃ row ∈ rows.head?, Protected inUse rows row)

theorem counts_iff (positive : 1 ≤ r) {guarded : List ℕ} (descending : Descending rows)
    (protects : ∀ row ∈ rows, row.id ∈ guarded ↔ Protected inUse rows row) :
    (retained r guarded rows).length ≤ max r (protectedRows inUse rows).length ↔ Within r inUse rows := by
  have atMost := protectedRows_length inUse descending
  rw [protectedRows_split r] at atMost
  rw [retained_length r protects, protectedRows_split r]
  by_cases inside : ∀ row ∈ rows, Protected inUse rows row → row ∈ rows.take r
  · refine iff_of_true ?_ (.inl inside)
    have none : (rows.drop r).filter (Protected inUse rows ·) = [] := by
      refine List.filter_eq_nil_iff.mpr fun row beyond guarded => ?_
      have newer := inside row (List.mem_of_mem_drop beyond) (of_decide_eq_true guarded)
      have apart := List.pairwise_append.mp ((List.take_append_drop r rows).symm ▸ descending)
      exact Nat.lt_irrefl _ (apart.2.2 row newer row beyond)
    rw [none, List.length_nil]
    omega
  · have beyond : ∃ row ∈ rows.drop r, Protected inUse rows row := by
      obtain ⟨row, among, guarded, outside⟩ : ∃ row ∈ rows, Protected inUse rows row ∧ row ∉ rows.take r := by
        simpa using inside
      refine ⟨row, ?_, guarded⟩
      rw [← List.take_append_drop r rows, List.mem_append] at among
      exact among.resolve_left outside
    obtain ⟨row, later, guarded⟩ := beyond
    have some : 0 < ((rows.drop r).filter (Protected inUse rows ·)).length :=
      List.length_pos_of_mem (List.mem_filter.mpr ⟨later, decide_eq_true guarded⟩)
    have longer : r < rows.length := by
      have := List.length_pos_of_mem later
      rw [List.length_drop] at this
      omega
    have first : r = 1 → (((rows.take r).filter (Protected inUse rows ·)).length = 1 ↔
        ∃ row ∈ rows.head?, Protected inUse rows row) := by
      rintro rfl
      cases rows with
      | nil => simp at longer
      | cons row rows => by_cases mine : Protected inUse (row :: rows) row <;> simp [mine]
    have fits : ((rows.take r).filter (Protected inUse rows ·)).length ≤ r :=
      (List.length_filter_le _ _).trans (List.length_take_le r rows)
    unfold Within
    rw [or_iff_right inside, Nat.min_eq_left (Nat.le_of_lt longer)]
    constructor
    · intro bound
      have one : r = 1 := by omega
      exact ⟨one, (first one).mp (by omega)⟩
    · rintro ⟨one, newest⟩
      have := (first one).mpr newest
      omega

/-! ## Two collections -/

theorem archivedRows_eq (few : s.builds.rows.length ≤ 500) : archivedRows s = registered s := by
  rw [archivedRows, Builds.listBuilds, List.take_of_length_le few]
  rfl

theorem descending_registered (s : Store) : Descending (registered s) := s.builds.descending.sublist List.filter_sublist

theorem mem_protectedIds (inUse : Option String) (few : s.builds.rows.length ≤ 500)
    (numbered : ∀ row ∈ s.builds.rows, 0 < row.id) :
    ∀ row ∈ registered s, row.id ∈ protectedIds s inUse ↔ Protected inUse (registered s) row := by
  intro row inside
  have descending := descending_registered s
  have nonzero : row.id ≠ 0 := (numbered row (List.mem_of_mem_filter inside)).ne'
  have current : inUseBuildId s inUse = ((registered s).find? (OfImage inUse ·)).map Build.id := by
    rw [inUseBuildId, successRows, archivedRows_eq few, List.find?_filter]
    congr 2
    funext row
    simp [decide_ofImage]
  have previous : prevGoodBuildId s inUse = ((registered s).find? (OfOther inUse ·)).map Build.id := by
    rw [prevGoodBuildId, successRows, archivedRows_eq few, List.find?_filter]
    congr 2
    funext row
    simp [decide_ofOther]
  rw [protectedIds, List.mem_filter, List.mem_append, current, previous, descending.id_mem_find inside,
    descending.id_mem_find inside]
  exact and_iff_left (by simpa using nonzero)

theorem registered_clearBuildArtifacts (rows : List Build) (id : ℕ) :
    (rows.map fun row => if row.id = id then row.cleared else row).filter (fun row => (given row.imageRef).isSome) =
      (rows.filter fun row => (given row.imageRef).isSome).filter fun row => row.id ≠ id := by
  induction rows with
  | nil => rfl
  | cons row rows ih =>
    rw [List.map_cons, List.filter_cons, List.filter_cons, ih]
    by_cases mine : row.id = id
    · have cleared : (given row.cleared.imageRef).isSome = false := rfl
      split_ifs <;> simp_all
    · split_ifs <;> simp_all

/-- A collection takes some of the removed builds out of the table. -/
theorem registered_foldl (env : Conditions) (rows : List Build) (s : Store) :
    ∃ cleared : List ℕ, cleared ⊆ rows.map Build.id ∧
      registered (rows.foldl (removeBuild env) s) = (registered s).filter fun row => row.id ∉ cleared := by
  induction rows generalizing s with
  | nil => exact ⟨[], by simp, by simp⟩
  | cons row rows ih =>
    obtain ⟨cleared, within, rest⟩ := ih (removeBuild env s row)
    rw [List.foldl_cons, rest]
    by_cases taken : env.answers row.ref ∧ row.ref ∉ imageRm env s.images row.ref ∧ env.writes row.id
    · refine ⟨row.id :: cleared, List.cons_subset_cons _ within, ?_⟩
      have first : registered (removeBuild env s row) = (registered s).filter fun other => other.id ≠ row.id := by
        unfold registered removeBuild
        dsimp only
        rw [if_pos taken]
        exact registered_clearBuildArtifacts s.builds.rows row.id
      rw [first, List.filter_filter]
      simp [Bool.and_comm]
    · refine ⟨cleared, fun id inside => List.mem_cons_of_mem _ (within inside), ?_⟩
      have first : registered (removeBuild env s row) = registered s := by
        unfold registered removeBuild
        dsimp only
        rw [if_neg taken]
      rw [first]

/-- No row is added and no id changes. -/
theorem ids_foldl (env : Conditions) (rows : List Build) (s : Store) :
    (rows.foldl (removeBuild env) s).builds.rows.map Build.id = s.builds.rows.map Build.id := by
  induction rows generalizing s with
  | nil => rfl
  | cons row rows ih =>
    rw [List.foldl_cons, ih]
    unfold removeBuild
    dsimp only
    split_ifs
    · unfold Builds.clearBuildArtifacts
      rw [List.map_map]
      refine List.map_congr_left fun other _ => ?_
      dsimp only [Function.comp]
      split_ifs <;> rfl
    · rfl

/-- What was kept is kept again where only removed rows are missing. -/
theorem retained_filter {guarded guarded' cleared : List ℕ} (within : cleared ⊆ (dropped r guarded rows).map Build.id)
    (descending : Descending rows) (protects : ∀ row ∈ rows, row.id ∈ guarded ↔ Protected inUse rows row)
    (protects' : ∀ row ∈ rows.filter (fun row => row.id ∉ cleared),
      row.id ∈ guarded' ↔ Protected inUse (rows.filter fun row => row.id ∉ cleared) row)
    (kept : b ∈ retained r guarded rows) : b ∈ retained r guarded' (rows.filter fun row => row.id ∉ cleared) := by
  have stays : ∀ row ∈ retained r guarded rows, row.id ∉ cleared := by
    intro row inside gone
    obtain ⟨other, away, same⟩ := List.mem_map.mp (within gone)
    exact descending.apart inside away same.symm
  have inside := (retained_sublist r guarded rows).subset kept
  have inside' : b ∈ rows.filter fun row => row.id ∉ cleared :=
    List.mem_filter.mpr ⟨inside, decide_eq_true (stays b kept)⟩
  rcases List.mem_append.mp kept with newer | guardedRow
  · -- the newest rows are all kept, so the same ones are in front again
    have front : (rows.take r).filter (fun row => row.id ∉ cleared) = rows.take r :=
      List.filter_eq_self.mpr fun row among => decide_eq_true (stays row (List.mem_append_left _ among))
    have split : rows.filter (fun row => row.id ∉ cleared) =
        rows.take r ++ (rows.drop r).filter fun row => row.id ∉ cleared := by
      conv_lhs => rw [← List.take_append_drop r rows, List.filter_append, front]
    refine List.mem_append_left _ ?_
    rw [split, List.take_append]
    refine List.mem_append_left _ ?_
    rwa [List.take_take, Nat.min_self]
  · have safe : Protected inUse rows b := (protects b inside).mp (of_decide_eq_true (List.mem_filter.mp guardedRow).2)
    have safe' := (protects' b inside').mpr (safe.of_subset List.filter_sublist.subset inside')
    unfold retained
    rw [← List.take_append_drop r (rows.filter fun row => row.id ∉ cleared), List.mem_append] at inside'
    refine List.mem_append.mpr (inside'.imp_right fun later => List.mem_filter.mpr ⟨later, decide_eq_true safe'⟩)

theorem gcBuildArtifacts_lists (env : Conditions) (few : s.builds.rows.length ≤ 500) (imageRetention : ℕ)
    (containerImageId inUseImageId : Option String) :
    (gcBuildArtifacts env imageRetention containerImageId inUseImageId s).2.1 =
        (retained (retention imageRetention) (protectedIds s (inUseImage inUseImageId containerImageId))
          (registered s)).map Build.id ∧
      (gcBuildArtifacts env imageRetention containerImageId inUseImageId s).2.2 =
        (dropped (retention imageRetention) (protectedIds s (inUseImage inUseImageId containerImageId))
          (registered s)).map Build.id := by
  rw [gcBuildArtifacts, gcRows_lists, archivedRows_eq few]
  exact ⟨rfl, rfl⟩

theorem kept_again {env' : Conditions} {imageRetention : ℕ} {containerImageId inUseImageId : Option String} {id : ℕ}
    (few : s.builds.rows.length ≤ 500) (numbered : ∀ row ∈ s.builds.rows, 0 < row.id)
    (kept : id ∈ (gcBuildArtifacts env imageRetention containerImageId inUseImageId s).2.1) :
    id ∉ (gcBuildArtifacts env' imageRetention containerImageId inUseImageId
      (gcBuildArtifacts env imageRetention containerImageId inUseImageId s).1).2.2 := by
  intro again
  have descending := descending_registered s
  have ids := ids_foldl env (removedRows imageRetention (inUseImage inUseImageId containerImageId) s) s
  rw [← gcBuildArtifacts_eq] at ids
  have few' := few
  rw [← List.length_map (f := Build.id), ← ids, List.length_map] at few'
  have numbered' : ∀ row ∈ (gcBuildArtifacts env imageRetention containerImageId inUseImageId s).1.builds.rows,
      0 < row.id := by
    intro row among
    have known := List.mem_map_of_mem (f := Build.id) among
    rw [ids] at known
    obtain ⟨before, listed, same⟩ := List.mem_map.mp known
    exact same ▸ numbered before listed
  obtain ⟨cleared, gone, left⟩ := registered_foldl env
    (removedRows imageRetention (inUseImage inUseImageId containerImageId) s) s
  rw [← gcBuildArtifacts_eq] at left
  rw [removedRows, archivedRows_eq few] at gone
  have protects' := mem_protectedIds (inUseImage inUseImageId containerImageId) few' numbered'
  rw [(gcBuildArtifacts_lists _ few _ _ _).1] at kept
  rw [(gcBuildArtifacts_lists _ few' _ _ _).2] at again
  obtain ⟨b, inside, rfl⟩ := List.mem_map.mp kept
  obtain ⟨other, removed, same⟩ := List.mem_map.mp again
  rw [left] at protects' removed
  have stays := retained_filter gone descending (mem_protectedIds _ few numbered) protects' inside
  exact Descending.apart (descending.sublist List.filter_sublist) stays removed same.symm

/-- A collection of the builds counts the protected ones towards the retention exactly if they are among the newest
builds, or there is one place only and the newest build is protected. -/
theorem collected_iff (env : Conditions) (imageRetention : ℕ) (containerImageId inUseImageId : Option String)
    (s : Store) (few : s.builds.rows.length ≤ 500) (numbered : ∀ row ∈ s.builds.rows, 0 < row.id) :
    Collected imageRetention containerImageId inUseImageId s
        (gcBuildArtifacts env imageRetention containerImageId inUseImageId s).1
        (gcBuildArtifacts env imageRetention containerImageId inUseImageId s).2.1
        (gcBuildArtifacts env imageRetention containerImageId inUseImageId s).2.2 ↔
      Within (retention imageRetention) (inUseImage inUseImageId containerImageId) (registered s) := by
  have descending := descending_registered s
  have protects := mem_protectedIds (inUseImage inUseImageId containerImageId) few numbered
  have counting := counts_iff (r := retention imageRetention) (Nat.le_max_left _ _) descending protects
  obtain ⟨kept, removed⟩ := gcBuildArtifacts_lists env few imageRetention containerImageId inUseImageId
  have keeps : ∀ b, Protected (inUseImage inUseImageId containerImageId) (registered s) b →
      b.id ∈ (gcBuildArtifacts env imageRetention containerImageId inUseImageId s).2.1 := by
    intro b safe
    rw [kept]
    refine List.mem_map_of_mem ?_
    have inside := safe.mem
    rw [← List.take_append_drop (retention imageRetention) (registered s), List.mem_append] at inside
    refine List.mem_append.mpr (inside.imp_right fun later => List.mem_filter.mpr ⟨later, ?_⟩)
    exact decide_eq_true ((protects b safe.mem).mpr safe)
  have counted : (gcBuildArtifacts env imageRetention containerImageId inUseImageId s).2.1.length =
      (retained (retention imageRetention) (protectedIds s (inUseImage inUseImageId containerImageId))
        (registered s)).length := by
    rw [kept, List.length_map]
  rw [← counting, ← counted]
  constructor
  · exact Collected.counts
  · intro bound
    have divides := divided (retention imageRetention) (protectedIds s (inUseImage inUseImageId containerImageId))
      (registered s)
    have keptInOrder := (retained_sublist (retention imageRetention)
      (protectedIds s (inUseImage inUseImageId containerImageId)) (registered s)).map Build.id
    have removedInOrder := (dropped_sublist (retention imageRetention)
      (protectedIds s (inUseImage inUseImageId containerImageId)) (registered s)).map Build.id
    rw [← kept] at divides keptInOrder
    rw [← removed] at divides removedInOrder
    exact ⟨divides, divides.nodup_iff.mpr descending.nodup_ids, keptInOrder, removedInOrder,
      fun b newest => keeps b (.inl newest), fun b newest => keeps b (.inr newest), bound,
      fun env' id inside => kept_again few numbered inside⟩

/-! ## A rollback to an old build -/

/-- The image of the oldest build is in use. -/
def rolledBack : Store := threeBuilds [3, 2, 1]

/-- Two builds are to be kept, and three are. -/
theorem protected_on_top : ¬∀ (env : Conditions) (imageRetention : ℕ) (containerImageId inUseImageId : Option String)
    (s : Store), s.builds.rows.length ≤ 500 → (∀ row ∈ s.builds.rows, 0 < row.id) →
    Collected imageRetention containerImageId inUseImageId s
      (gcBuildArtifacts env imageRetention containerImageId inUseImageId s).1
      (gcBuildArtifacts env imageRetention containerImageId inUseImageId s).2.1
      (gcBuildArtifacts env imageRetention containerImageId inUseImageId s).2.2 := by
  intro all
  have counts := (all willing 2 none (some "sha256:a") rolledBack (by decide) (by decide)).counts
  have three : (gcBuildArtifacts willing 2 none (some "sha256:a") rolledBack).2.1 = [3, 2, 1] := by decide +kernel
  have two : (protectedRows (inUseImage (some "sha256:a") none) (registered rolledBack)).length = 2 := by decide +kernel
  rw [three, two] at counts
  exact absurd counts (by decide)

/-- While the newest image is in use the retention is kept. -/
theorem collected_iff_newest : Within 2 (some "c") (registered rolledBack) ∧
    Collected 2 none (some "sha256:c") rolledBack (gcBuildArtifacts willing 2 none (some "sha256:c") rolledBack).1
      (gcBuildArtifacts willing 2 none (some "sha256:c") rolledBack).2.1
      (gcBuildArtifacts willing 2 none (some "sha256:c") rolledBack).2.2 := by
  have within : Within 2 (some "c") (registered rolledBack) := .inl (by decide +kernel)
  have known : inUseImage (some "sha256:c") none = some "c" := by decide +kernel
  refine ⟨within, (collected_iff willing 2 none (some "sha256:c") rolledBack (by decide) (by decide)).mpr ?_⟩
  rw [known]
  exact within

end LocalWebAccess.BuildArtifacts
