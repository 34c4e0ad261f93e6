import LocalWebAccess.BuildArtifacts
import Mathlib.Data.List.Nodup
import Mathlib.Data.List.Pairwise

/-!
# Rolling back after a collection

A collection protects its builds by their rows alone, and a rollback also needs the snapshot and the tag.
What the one leaves to the other is worked out build by build: a removal changes nothing about other
builds, and the removed one is lost unless the environment kept its files and its tag.
-/
namespace LocalWebAccess.BuildArtifacts
open PythonText

variable {env : Conditions} {s : Store} {row b : Build} {n : ℕ}

/-! ## The rows of a collection -/

/-- The loop removes what comes after the retention and is not protected. -/
def dropped (retention : ℕ) (guarded : List ℕ) (rows : List Build) : List Build :=
  (rows.drop retention).filter fun row => row.id ∉ guarded

theorem gcRows_eq (retention : ℕ) (guarded : List ℕ) (rows : List Build) (kept removed : List ℕ) (s : Store) :
    (gcRows env retention guarded rows kept removed s).1 =
      (dropped (retention - kept.length) guarded rows).foldl (removeBuild env) s := by
  induction rows generalizing kept removed s with
  | nil => simp [gcRows, dropped]
  | cons row rows ih =>
    unfold gcRows
    split_ifs with stays
    · rw [ih]
      rcases Nat.lt_or_ge kept.length retention with room | full
      · obtain ⟨m, rest⟩ : ∃ m, retention - kept.length = m + 1 := ⟨retention - kept.length - 1, by omega⟩
        have fewer : retention - (kept ++ [row.id]).length = m := by
          rw [List.length_append, List.length_singleton]
          omega
        rw [fewer, rest]
        rfl
      · have guarded' := stays.resolve_left (Nat.not_lt.mpr full)
        rw [Nat.sub_eq_zero_of_le full, Nat.sub_eq_zero_of_le (by simp; omega)]
        simp [dropped, guarded']
    · rw [ih]
      obtain ⟨full, unguarded⟩ := not_or.mp stays
      rw [Nat.sub_eq_zero_of_le (Nat.not_lt.mp full)]
      simp [dropped, unguarded]

/-! ## One removal -/

/-- The rows have different ids, the newest first. -/
abbrev Descending (rows : List Build) : Prop := rows.Pairwise fun a b => b.id < a.id

theorem Descending.eq_of_id {rows : List Build} {a b : Build} (descending : Descending rows) (inside : a ∈ rows)
    (inside' : b ∈ rows) (same : a.id = b.id) : a = b := by
  have distinct : rows.Pairwise fun a b => a.id ≠ b.id := descending.imp fun less => (Nat.ne_of_lt less).symm
  exact List.inj_on_of_nodup_map (List.pairwise_map.mpr distinct) inside inside' same

theorem Builds.eq_of_id {builds : Builds} {a b : Build} (inside : a ∈ builds.rows) (inside' : b ∈ builds.rows)
    (same : a.id = b.id) : a = b := Descending.eq_of_id builds.descending inside inside' same

theorem given_of_isSome (registered : (given row.imageRef).isSome) : given row.imageRef = some row.ref := by
  obtain ⟨ref, tagged⟩ := Option.isSome_iff_exists.mp registered
  have stored := (Option.filter_eq_some_iff.mp tagged).1
  have same : row.ref = ref := by simp [Build.ref, stored]
  rw [same, tagged]

theorem Builds.eq_of_ref {builds : Builds} {a b : Build} (inside : a ∈ builds.rows) (inside' : b ∈ builds.rows)
    (registered : (given a.imageRef).isSome) (registered' : (given b.imageRef).isSome) (same : a.ref = b.ref) :
    a = b := by
  by_contra other
  have differ : Apart a b := builds.tags.forall inside inside' other
  exact differ registered ((given_of_isSome registered).trans (same ▸ (given_of_isSome registered').symm))

/-- The build is among the newest `n` and its tag is registered and there. -/
structure Tagged (n : ℕ) (s : Store) (b : Build) : Prop where
  listed : b ∈ s.builds.listBuilds n
  registered : (given b.imageRef).isSome
  present : b.ref ∈ s.images

theorem Tagged.mem (h : Tagged n s b) : b ∈ s.builds.rows := List.mem_of_mem_take h.listed

theorem mem_clearBuildArtifacts (builds : Builds) (id : ℕ) (registered : (given b.imageRef).isSome) :
    b ∈ (builds.clearBuildArtifacts id).listBuilds n ↔ b ∈ builds.listBuilds n ∧ b.id ≠ id := by
  unfold Builds.listBuilds Builds.clearBuildArtifacts
  rw [← List.map_take, List.mem_map]
  constructor
  · rintro ⟨row, listed, rfl⟩
    split_ifs at registered ⊢ with cleared
    · cases registered
    · exact ⟨listed, cleared⟩
  · rintro ⟨listed, other⟩
    exact ⟨b, listed, if_neg other⟩

theorem mem_imageRm {images : List String} {ref other : String} :
    other ∈ imageRm env images ref ↔ other ∈ images ∧ (env.removes ref = true → other ≠ ref) := by
  unfold imageRm
  split_ifs with removed
  · simp [removed]
  · simp [removed]

/-- A row whose tag is there is not cleared. -/
theorem listed_removeBuild (present : b.ref ∈ imageRm env s.images row.ref) (registered : (given b.imageRef).isSome)
    (same : b.id = row.id → b.ref = row.ref) :
    b ∈ (removeBuild env s row).builds.listBuilds n ↔ b ∈ s.builds.listBuilds n := by
  unfold removeBuild
  dsimp only
  split_ifs with cleared
  · rw [mem_clearBuildArtifacts _ _ registered]
    exact and_iff_left fun mine => cleared.2.1 (same mine ▸ present)
  · rfl

theorem listed_of_removeBuild (registered : (given b.imageRef).isSome)
    (listed : b ∈ (removeBuild env s row).builds.listBuilds n) : b ∈ s.builds.listBuilds n := by
  unfold removeBuild at listed
  dsimp only at listed
  split_ifs at listed with cleared
  · exact ((mem_clearBuildArtifacts _ _ registered).mp listed).1
  · exact listed

theorem tagged_removeBuild (among : row ∈ s.builds.rows) (archived : (given row.imageRef).isSome) :
    Tagged n (removeBuild env s row) b ↔ Tagged n s b ∧ (b = row → env.removes row.ref = false) := by
  constructor
  · intro h
    obtain ⟨present, kept⟩ := mem_imageRm.mp h.present
    refine ⟨⟨listed_of_removeBuild h.registered h.listed, h.registered, present⟩, ?_⟩
    rintro rfl
    by_contra removed
    exact kept (by simpa using removed) rfl
  · rintro ⟨h, stays⟩
    have apart : b ≠ row → b.ref ≠ row.ref := fun other same =>
      other (Builds.eq_of_ref h.mem among h.registered archived same)
    have present : b.ref ∈ imageRm env s.images row.ref := by
      refine mem_imageRm.mpr ⟨h.present, fun removed => ?_⟩
      by_cases mine : b = row
      · rw [stays mine] at removed
        cases removed
      · exact apart mine
    refine ⟨(listed_removeBuild present h.registered fun mine => ?_).mpr h.listed, h.registered, present⟩
    rw [Builds.eq_of_id h.mem among mine]

/-- The rows of other builds stay. -/
theorem mem_removeBuild (other : b.id ≠ row.id) (inside : b ∈ s.builds.rows) : b ∈ (removeBuild env s row).builds.rows := by
  unfold removeBuild
  dsimp only
  split_ifs
  · exact List.mem_map.mpr ⟨b, inside, if_neg other⟩
  · exact inside

theorem snapshots_removeBuild (inside : b ∈ s.builds.rows) (among : row ∈ s.builds.rows) :
    (removeBuild env s row).snapshots b.id =
      if b = row then rmtree (env.stuck row.id) (s.snapshots row.id) else s.snapshots b.id := by
  split_ifs with mine
  · rw [mine]
    exact Function.update_self ..
  · exact Function.update_of_ne (fun same => mine (Builds.eq_of_id inside among same)) ..

/-! ## A collection -/

/-- The rows to be removed are different archived rows. -/
structure Removable (s : Store) (rows : List Build) : Prop where
  distinct : rows.Nodup
  listed : ∀ row ∈ rows, row ∈ s.builds.rows
  archived : ∀ row ∈ rows, (given row.imageRef).isSome

theorem Removable.step {rows : List Build} (h : Removable s (row :: rows)) : Removable (removeBuild env s row) rows := by
  obtain ⟨fresh, distinct⟩ := List.nodup_cons.mp h.distinct
  refine ⟨distinct, fun other inside => ?_, fun other inside => h.archived other (List.mem_cons_of_mem _ inside)⟩
  have listed := h.listed other (List.mem_cons_of_mem _ inside)
  refine mem_removeBuild (fun same => fresh ?_) listed
  rwa [← Builds.eq_of_id listed (h.listed row List.mem_cons_self) same]

theorem tagged_foldl {rows : List Build} (h : Removable s rows) :
    Tagged n (rows.foldl (removeBuild env) s) b ↔ Tagged n s b ∧ (b ∈ rows → env.removes b.ref = false) := by
  induction rows generalizing s with
  | nil => simp
  | cons row rows ih =>
    rw [List.foldl_cons, ih h.step,
      tagged_removeBuild (h.listed row List.mem_cons_self) (h.archived row List.mem_cons_self), and_assoc]
    refine and_congr_right fun _ => ?_
    rw [List.mem_cons]
    constructor
    · rintro ⟨first, others⟩ (rfl | inside)
      · exact first rfl
      · exact others inside
    · intro all
      exact ⟨fun mine => mine ▸ all (.inl mine), fun inside => all (.inr inside)⟩

theorem snapshots_foldl_of_other {rows : List Build} {id : ℕ} (other : ∀ row ∈ rows, row.id ≠ id) (s : Store) :
    (rows.foldl (removeBuild env) s).snapshots id = s.snapshots id := by
  induction rows generalizing s with
  | nil => rfl
  | cons row rows ih =>
    rw [List.foldl_cons, ih fun row inside => other row (List.mem_cons_of_mem _ inside)]
    exact Function.update_of_ne (other row List.mem_cons_self).symm ..

theorem snapshots_foldl {rows : List Build} (h : Removable s rows) (inside : b ∈ s.builds.rows) :
    (rows.foldl (removeBuild env) s).snapshots b.id =
      if b ∈ rows then rmtree (env.stuck b.id) (s.snapshots b.id) else s.snapshots b.id := by
  split_ifs with removed
  · induction rows generalizing s with
    | nil => cases removed
    | cons row rows ih =>
      have among := h.listed row List.mem_cons_self
      have first : (removeBuild env s row).snapshots b.id =
          if b = row then rmtree (env.stuck row.id) (s.snapshots row.id) else s.snapshots b.id :=
        snapshots_removeBuild inside among
      rw [List.foldl_cons]
      by_cases mine : b = row
      · have others : ∀ other ∈ rows, other.id ≠ b.id := by
          intro other among' same
          have equal := Builds.eq_of_id (h.listed other (List.mem_cons_of_mem _ among')) inside same
          exact (List.nodup_cons.mp h.distinct).1 (mine ▸ equal ▸ among')
        rw [snapshots_foldl_of_other others, first, if_pos mine, mine]
      · have kept : b ∈ (removeBuild env s row).builds.rows :=
          mem_removeBuild (fun same => mine (Builds.eq_of_id inside among same)) inside
        rw [ih h.step kept ((List.mem_cons.mp removed).resolve_left mine), first, if_neg mine]
  · refine snapshots_foldl_of_other (fun row among same => removed ?_) s
    rwa [← Builds.eq_of_id (h.listed row among) inside same]

/-! ## What is left of a snapshot -/

theorem lookup_filter_name (stuck : List String) (files : Snapshot) (name : String) :
    (files.filter fun file => file.1 ∈ stuck).lookup name = if name ∈ stuck then files.lookup name else none := by
  induction files with
  | nil => simp
  | cons file files ih =>
    obtain ⟨name', text⟩ := file
    by_cases same : name = name'
    · subst same
      by_cases kept : name ∈ stuck
      · simp [kept]
      · simpa [kept] using ih
    · have differs : (name == name') = false := by simpa using same
      by_cases kept : name' ∈ stuck
      · simpa [kept, List.lookup_cons, differs] using ih
      · simpa [kept, List.lookup_cons, differs] using ih

theorem snapshotComplete_iff {files : Snapshot} : snapshotComplete (some files) = true ↔
    (∀ name ∈ generatedFiles, files.isFile name = true) ∧ ∃ dockerfile, files.lookup "Dockerfile" = some (some dockerfile) ∧
      ∀ name ∈ optionalGeneratedFiles, occursIn name.toList dockerfile = true → files.isFile name = true := by
  simp only [snapshotComplete, Bool.and_eq_true, List.all_eq_true]
  refine and_congr_right fun _ => ?_
  split
  case h_1 dockerfile found =>
    rw [List.all_eq_true]
    constructor
    · intro optional
      refine ⟨dockerfile, found, fun name listed mentioned => ?_⟩
      simpa [mentioned] using optional name listed
    · rintro ⟨dockerfile', found', optional⟩ name listed
      obtain rfl := Option.some.inj (Option.some.inj (found.symm.trans found'))
      cases mentioned : occursIn name.toList dockerfile with
      | false => rfl
      | true => simpa using optional name listed mentioned
  case h_2 absent =>
    constructor
    · intro never
      cases never
    · rintro ⟨dockerfile, found, -⟩
      exact absurd found (absent dockerfile)

/-- A complete snapshot has all that it needs, however many other files there are. -/
theorem snapshotComplete_mono {files files' : Snapshot}
    (within : ∀ name text, files.lookup name = some text → files'.lookup name = some text)
    (complete : snapshotComplete (some files) = true) : snapshotComplete (some files') = true := by
  have isFile : ∀ name, files.isFile name = true → files'.isFile name = true := by
    intro name there
    obtain ⟨text, found⟩ := Option.isSome_iff_exists.mp there
    exact Option.isSome_iff_exists.mpr ⟨text, within name text found⟩
  obtain ⟨generated, dockerfile, found, optional⟩ := snapshotComplete_iff.mp complete
  exact snapshotComplete_iff.mpr ⟨fun name listed => isFile name (generated name listed), dockerfile, within _ _ found,
    fun name listed mentioned => isFile name (optional name listed mentioned)⟩

theorem complete_of_rmtree {stuck : List String} {snapshot : Option Snapshot}
    (complete : snapshotComplete (rmtree stuck snapshot) = true) : snapshotComplete snapshot = true := by
  cases snapshot with
  | none => exact complete
  | some files =>
    cases left : rmtree stuck (some files) with
    | none =>
      rw [left] at complete
      cases complete
    | some rest =>
      rw [left] at complete
      obtain ⟨same, -⟩ := Option.filter_eq_some_iff.mp left
      obtain rfl := Option.some.inj same
      refine snapshotComplete_mono (fun name text found => ?_) complete
      rw [lookup_filter_name] at found
      split_ifs at found
      exact found

/-! ## Selection after a collection -/

variable {inUse : Option String}

/-- The checks of a selection, with the tag registered and there. -/
theorem selectable_iff : b ∈ s.builds.listBuilds 100 ∧ selectable s none inUse b = true ↔
    Tagged 100 s b ∧ ¬(inUse.isSome ∧ normalizeImageId b.imageId = inUse) ∧ b.status = "success" ∧
      snapshotComplete (s.snapshots b.id) = true := by
  simp only [selectable, isRollbackCandidate, imageExists, Bool.and_eq_true, Bool.not_eq_true', decide_eq_true_eq,
    decide_eq_false_iff_not, reduceCtorEq, not_false_eq_true, true_and]
  constructor
  · rintro ⟨listed, ⟨⟨other, success, registered⟩, complete⟩, present⟩
    exact ⟨⟨listed, registered, present⟩, by simpa using other, success, complete⟩
  · rintro ⟨⟨listed, registered, present⟩, other, success, complete⟩
    exact ⟨listed, ⟨⟨by simpa using other, success, registered⟩, complete⟩, present⟩

/-- A removal that leaves the tag and what a rollback needs of the snapshot. -/
structure Spared (env : Conditions) (s : Store) (b : Build) : Prop where
  tag : env.removes b.ref = false
  snapshot : snapshotComplete (rmtree (env.stuck b.id) (s.snapshots b.id)) = true

/-- A rollback may return to the build. -/
def Returnable (s : Store) (inUse : Option String) (b : Build) : Prop :=
  b ∈ s.builds.listBuilds 100 ∧ selectable s none inUse b = true

theorem returnable_foldl {rows : List Build} (h : Removable s rows) :
    Returnable (rows.foldl (removeBuild env) s) inUse b ↔ Returnable s inUse b ∧ (b ∈ rows → Spared env s b) := by
  unfold Returnable
  rw [selectable_iff, selectable_iff, tagged_foldl h]
  constructor
  · rintro ⟨⟨tagged, stays⟩, other, success, complete⟩
    rw [snapshots_foldl h tagged.mem] at complete
    split_ifs at complete with removed
    · exact ⟨⟨tagged, other, success, complete_of_rmtree complete⟩, fun _ => ⟨stays removed, complete⟩⟩
    · exact ⟨⟨tagged, other, success, complete⟩, fun among => absurd among removed⟩
  · rintro ⟨⟨tagged, other, success, complete⟩, spared⟩
    refine ⟨⟨tagged, fun removed => (spared removed).tag⟩, other, success, ?_⟩
    rw [snapshots_foldl h tagged.mem]
    split_ifs with removed
    · exact (spared removed).snapshot
    · exact complete

theorem selectRollbackTarget_isSome {exclude : Option String} :
    (selectRollbackTarget s none exclude).isSome ↔ ∃ b, Returnable s (normalizeImageId exclude) b :=
  List.find?_isSome

/-- The rows that a collection removes. -/
def removedRows (imageRetention : ℕ) (inUse : Option String) (s : Store) : List Build :=
  dropped (retention imageRetention) (protectedIds s inUse) (archivedRows s)

theorem removable_removedRows (imageRetention : ℕ) (inUse : Option String) (s : Store) :
    Removable s (removedRows imageRetention inUse s) := by
  have archived : ∀ row ∈ removedRows imageRetention inUse s, row ∈ archivedRows s := fun row among =>
    List.mem_of_mem_drop (List.mem_of_mem_filter among)
  have within : (removedRows imageRetention inUse s).Sublist s.builds.rows :=
    List.filter_sublist.trans ((List.drop_sublist _ _).trans (List.filter_sublist.trans (List.take_sublist _ _)))
  refine ⟨(s.builds.descending.sublist within).imp fun less same => ?_, fun row among => within.subset among,
    fun row among => (List.mem_filter.mp (archived row among)).2⟩
  rw [same] at less
  exact Nat.lt_irrefl _ less

theorem gcBuildArtifacts_eq (imageRetention : ℕ) (containerImageId inUseImageId : Option String) (s : Store) :
    (gcBuildArtifacts env imageRetention containerImageId inUseImageId s).1 =
      (removedRows imageRetention (inUseImage inUseImageId containerImageId) s).foldl (removeBuild env) s :=
  gcRows_eq _ _ _ [] [] s

/-- The tag of a build of the image is registered and there. -/
def TaggedImage (s : Store) (image : String) (b : Build) : Prop :=
  (∃ n, Tagged n s b) ∧ normalizeImageId b.imageId = some image

/-- A collection leaves a rollback that was possible and a tag of the image in use. -/
structure KeepsRollback (s after : Store) (exclude : Option String) (image : String) : Prop where
  target : (selectRollbackTarget s none exclude).isSome → (selectRollbackTarget after none exclude).isSome
  tag : (∃ b, TaggedImage s image b) → ∃ b, TaggedImage after image b

/-- The row is older than the retention and not protected. -/
def Expired (imageRetention : ℕ) (inUse : Option String) (s : Store) (b : Build) : Prop :=
  b ∈ (archivedRows s).drop (retention imageRetention) ∧ b.id ∉ protectedIds s inUse

theorem mem_removedRows {imageRetention : ℕ} : b ∈ removedRows imageRetention inUse s ↔ Expired imageRetention inUse s b := by
  simp [removedRows, dropped, Expired]

/-- A collection keeps the rollback exactly if one of the builds that a rollback may return to, and one of
the builds with a tag of the image in use, is within the retention, protected or spared. -/
theorem keeps_rollback_iff {containerImageId inUseImageId exclude : Option String} {image : String}
    (env : Conditions) (imageRetention : ℕ) (s : Store)
    (known : inUseImage inUseImageId containerImageId = some image) (same : normalizeImageId exclude = some image) :
    KeepsRollback s (gcBuildArtifacts env imageRetention containerImageId inUseImageId s).1 exclude image ↔
      ((∃ b, Returnable s (some image) b) →
          ∃ b, Returnable s (some image) b ∧ (Expired imageRetention (some image) s b → Spared env s b)) ∧
        ((∃ b, TaggedImage s image b) →
          ∃ b, TaggedImage s image b ∧ (Expired imageRetention (some image) s b → env.removes b.ref = false)) := by
  have removable := removable_removedRows imageRetention (some image) s
  have tagged : ∀ b, TaggedImage ((removedRows imageRetention (some image) s).foldl (removeBuild env) s) image b ↔
      TaggedImage s image b ∧ (b ∈ removedRows imageRetention (some image) s → env.removes b.ref = false) := by
    intro b
    simp only [TaggedImage, tagged_foldl removable]
    constructor
    · rintro ⟨⟨n, tagged, stays⟩, mine⟩
      exact ⟨⟨⟨n, tagged⟩, mine⟩, stays⟩
    · rintro ⟨⟨⟨n, tagged⟩, mine⟩, stays⟩
      exact ⟨⟨n, tagged, stays⟩, mine⟩
  rw [gcBuildArtifacts_eq, known]
  simp only [← mem_removedRows]
  constructor
  · rintro ⟨target, tag⟩
    rw [selectRollbackTarget_isSome, selectRollbackTarget_isSome, same] at target
    simp only [returnable_foldl removable] at target
    simp only [tagged] at tag
    exact ⟨target, tag⟩
  · rintro ⟨target, tag⟩
    refine ⟨?_, by simpa only [tagged] using tag⟩
    rw [selectRollbackTarget_isSome, selectRollbackTarget_isSome, same]
    simpa only [returnable_foldl removable] using target

/-! ## Two collections -/

/-- Docker and the file system do what they are asked for. -/
def willing : Conditions := ⟨fun _ => true, fun _ => true, fun _ => [], fun _ => true⟩

def archived (id : ℕ) (image : String) : Build where
  id := id
  status := "success"
  imageRef := some ("lwa-site-app:b" ++ toString id)
  imageId := some image

def generated : Snapshot :=
  [("compose.yaml", some "services:".toList), ("Dockerfile", some "FROM python".toList), (".env", some "PORT=8000".toList)]

/-- The newest build is in use, and the snapshots of the listed ones are there. -/
def threeBuilds (ids : List ℕ) : Store where
  builds := ⟨[archived 3 "c", archived 2 "b", archived 1 "a"], by decide, by decide⟩
  images := ["lwa-site-app:b1", "lwa-site-app:b2", "lwa-site-app:b3"]
  snapshots id := if id ∈ ids then some generated else none

/-- The snapshot of the build that is protected for a rollback is missing, and the one of the build that
is removed was there. -/
theorem rollback_lost : ¬∀ (env : Conditions) (imageRetention : ℕ) (s : Store)
    (containerImageId inUseImageId exclude : Option String) (image : String),
    inUseImage inUseImageId containerImageId = some image → normalizeImageId exclude = some image →
    KeepsRollback s (gcBuildArtifacts env imageRetention containerImageId inUseImageId s).1 exclude image := by
  intro all
  have keeps := all willing 1 (threeBuilds [3, 1]) none (some "sha256:c") (some "sha256:c") "c" (by decide +kernel)
    (by decide +kernel)
  have before : (selectRollbackTarget (threeBuilds [3, 1]) none (some "sha256:c")).map Build.id = some 1 := by
    decide +kernel
  have after : (selectRollbackTarget (gcBuildArtifacts willing 1 none (some "sha256:c") (threeBuilds [3, 1])).1 none
      (some "sha256:c")).map Build.id = none := by decide +kernel
  have target := keeps.target (by rw [← Option.isSome_map (f := Build.id), before]; rfl)
  rw [← Option.isSome_map (f := Build.id), after] at target
  cases target

/-- With all snapshots there the protected build is enough. -/
theorem keeps_rollback_iff_complete :
    (gcBuildArtifacts willing 1 none (some "sha256:c") (threeBuilds [3, 2, 1])).2 = ([3, 2], [1]) ∧
      KeepsRollback (threeBuilds [3, 2, 1])
        (gcBuildArtifacts willing 1 none (some "sha256:c") (threeBuilds [3, 2, 1])).1 (some "sha256:c") "c" := by
  refine ⟨by decide +kernel, (keeps_rollback_iff willing 1 (threeBuilds [3, 2, 1]) (by decide +kernel)
    (by decide +kernel)).mpr ⟨fun _ => ⟨archived 2 "b", ⟨?_, ?_⟩, ?_⟩, fun _ => ⟨archived 3 "c", ⟨⟨3, ?_, ?_, ?_⟩, ?_⟩, ?_⟩⟩⟩
  · decide +kernel
  · decide +kernel
  · exact fun expired => absurd expired.2 (by decide +kernel)
  · decide +kernel
  · decide +kernel
  · decide +kernel
  · decide +kernel
  · exact fun expired => absurd expired.2 (by decide +kernel)

end LocalWebAccess.BuildArtifacts
