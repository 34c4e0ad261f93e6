import LocalWebAccess.PathRebinding

/-!
# What the manifests and the registry agree on

A manifest follows the start of a path. The registry gives the same path where the root does not
come again in what follows it, nor in the new root before what follows.
-/
namespace LocalWebAccess.PathRebinding
open ComposeObservation PathTexts PythonText TextReplacement

variable {old new repl v w : Text}

/-- Under a root the registry finds the new path where nothing else is replaced. -/
def Clean (old new rest : Text) : Prop :=
  occursIn (old ++ ['/']) rest = false ∧ occursIn (old ++ ['\\']) (new ++ '/' :: rest) = false ∧
    ¬ Occurs old ended (new ++ '/' :: rest)

instance (old new rest : Text) : Decidable (Clean old new rest) := inferInstanceAs (Decidable (_ ∧ _ ∧ _))

theorem replacePaths_under {rest : Text} (clean : Clean old new rest) :
    replacePaths old new repl (old ++ '/' :: rest) = new ++ '/' :: rest := by
  obtain ⟨slash, backslash, whole⟩ := clean
  rw [replacePaths_eq, replaceSeparated_under, replaceSeparated_eq_self slash, replaceSeparated_eq_self backslash,
    replace_eq_self whole]

theorem clean_of_replacePaths (filled : old ≠ []) (differ : old ≠ new) {rest : Text}
    (agrees : replacePaths old new new (old ++ '/' :: rest) = new ++ '/' :: rest) : Clean old new rest := by
  obtain ⟨R, order, moves⟩ := exists_contextual differ
  rw [replacePaths_eq, replaceSeparated_under] at agrees
  have first : new ++ '/' :: replaceSeparated old new '/' rest = new ++ '/' :: rest ∨
      R (new ++ '/' :: rest) (new ++ '/' :: replaceSeparated old new '/' rest) := by
    rcases replaceSeparated_toward order moves '/' rest with same | moved
    · exact .inl (by rw [same])
    · right
      have inside := order.context (new ++ ['/']) [] _ _ moved
      simpa using inside
  have start := eq_of_toward order first (later_toward order moves filled _) agrees
  rw [start] at agrees
  have slash : occursIn (old ++ ['/']) rest = false := by
    by_contra found
    rw [Bool.not_eq_false] at found
    have moved := replaceSeparated_moves order moves found
    rw [(List.cons.inj (List.append_cancel_left start)).2] at moved
    exact order.irrefl _ moved
  exact ⟨slash, later_eq_self order moves filled agrees⟩

/-! ## One value -/

def Under (root v : Text) : Prop := v = root ∨ ∃ rest, v = root ++ '/' :: rest

/-- The path `v` rebound from one root to another. -/
structure Rebinds (old new v w : Text) : Prop where
  root : v = old → w = new
  below : ∀ rest, v = old ++ '/' :: rest → w = new ++ '/' :: rest
  other : ¬ Under old v → w = v

theorem append_singleton_isPrefix {c : Char} : old ++ [c] <+: v ↔ ∃ rest, v = old ++ c :: rest := by
  constructor
  · rintro ⟨rest, rfl⟩
    exact ⟨rest, by simp⟩
  · rintro ⟨rest, rfl⟩
    exact ⟨rest, by simp⟩

theorem take_eq_iff {c : Char} : v.take (old.length + 1) = old ++ [c] ↔ ∃ rest, v = old ++ c :: rest := by
  rw [← append_singleton_isPrefix, List.prefix_iff_eq_take, List.length_append, List.length_singleton, eq_comm]

theorem selected_iff : selected old v ↔ Under old v ∨ ∃ rest, v = old ++ '\\' :: rest := by
  rw [selected, take_eq_iff, take_eq_iff, Under, or_assoc]

/-- A manifest follows the start of the path. -/
theorem rebinds_rewriteStr (old new v : Text) : Rebinds old new v (rewriteStr v old new) := by
  have under : (v = old ∨ old ++ [sep] <+: v ∨ old ++ ['/'] <+: v) ↔ Under old v := by
    rw [sep, append_singleton_isPrefix, or_self, Under]
  constructor
  · rintro rfl
    rw [rewriteStr, if_pos (.inl rfl), List.drop_length, List.append_nil]
  · rintro rest rfl
    rw [rewriteStr, if_pos (under.mpr (.inr ⟨rest, rfl⟩)), List.drop_left]
  · intro outside
    rw [rewriteStr, if_neg (fun inside => outside (under.mp inside))]

theorem not_under_backslash (old rest : Text) : ¬ Under old (old ++ '\\' :: rest) := by
  rintro (same | ⟨rest', same⟩)
  · simp at same
  · have := List.append_cancel_left same
    simp at this

theorem Rebinds.eq_rewriteStr (rebinds : Rebinds old new v w) : w = rewriteStr v old new := by
  by_cases under : Under old v
  · rcases under with rfl | ⟨rest, rfl⟩
    · rw [rebinds.root rfl, (rebinds_rewriteStr v new v).root rfl]
    · rw [rebinds.below rest rfl, (rebinds_rewriteStr old new _).below rest rfl]
  · rw [rebinds.other under, (rebinds_rewriteStr old new v).other under]

/-- The value of a row is rewritten as the one of a manifest. -/
structure Rewritable (old new repl v : Text) : Prop where
  root : v = old → repl = new
  below : ∀ rest, v = old ++ '/' :: rest → Clean old new rest
  slashed : ∀ rest, v ≠ old ++ '\\' :: rest

theorem rowPath_eq (filled : old ≠ []) (fine : Rewritable old new repl v) :
    rowPath old new repl v = rewriteStr v old new := by
  have target := rebinds_rewriteStr old new v
  by_cases under : Under old v
  · rw [rowPath, if_pos (selected_iff.mpr (.inl under))]
    rcases under with rfl | ⟨rest, rfl⟩
    · rw [replacePaths_root filled, target.root rfl, fine.root rfl]
    · rw [replacePaths_under (fine.below rest rfl), target.below rest rfl]
  · have outside : ¬ selected old v := by
      rw [selected_iff]
      rintro (inside | ⟨rest, slashed⟩)
      · exact under inside
      · exact fine.slashed rest slashed
    rw [rowPath, if_neg outside, target.other under]

theorem rewritable_of_rowPath (filled : old ≠ []) (differ : old ≠ new)
    (agrees : rowPath old new new v = rewriteStr v old new) : Rewritable old new new v := by
  have target := rebinds_rewriteStr old new v
  refine ⟨fun _ => rfl, ?_, ?_⟩
  · rintro rest rfl
    rw [target.below rest rfl, rowPath, if_pos (selected_iff.mpr (.inl (.inr ⟨rest, rfl⟩)))] at agrees
    exact clean_of_replacePaths filled differ agrees
  · rintro rest rfl
    rw [target.other (not_under_backslash old rest), rowPath,
      if_pos (selected_iff.mpr (.inr ⟨rest, rfl⟩))] at agrees
    exact replacePaths_backslash filled differ rest agrees

/-! ## Both stores, and back -/

/-- What remains to be asked where the way back starts from a path that has been rebound. -/
structure Restorable (old new repl v : Text) : Prop where
  root : v = old → repl = old
  below : ∀ rest, v = old ++ '/' :: rest → Clean new old rest
  slashed : ¬ Under old v → ∀ rest, v ≠ new ++ '\\' :: rest

theorem rewritable_back_iff (rebinds : Rebinds old new v w) (outside : ¬ Under new v) :
    Rewritable new old repl w ↔ Restorable old new repl v := by
  by_cases under : Under old v
  · rcases under with same | ⟨rest, eq⟩
    · have start := rebinds.root same
      constructor
      · intro fine
        exact ⟨fun _ => fine.root start, fun rest eq => by simp [same] at eq, fun far => absurd (.inl same) far⟩
      · intro fine
        exact ⟨fun _ => fine.root same, fun rest eq => by simp [start] at eq, fun rest eq => by simp [start] at eq⟩
    · have inside := rebinds.below rest eq
      have apart : v ≠ old := by simp [eq]
      constructor
      · intro fine
        refine ⟨fun same => absurd same apart, fun rest' eq' => ?_, fun far => absurd (.inr ⟨rest, eq⟩) far⟩
        have rests : rest' = rest := by simpa [eq] using eq'.symm
        exact rests ▸ fine.below rest inside
      · intro fine
        refine ⟨fun same => by simp [inside] at same, fun rest' eq' => ?_, fun rest' eq' => by simp [inside] at eq'⟩
        have rests : rest' = rest := by simpa [inside] using eq'.symm
        exact rests ▸ fine.below rest eq
  · rw [rebinds.other under]
    constructor
    · intro fine
      exact ⟨fun same => absurd (.inl same) under, fun rest eq => absurd (.inr ⟨rest, eq⟩) under,
        fun _ => fine.slashed⟩
    · intro fine
      exact ⟨fun same => absurd (.inl same) outside, fun rest eq => absurd (.inr ⟨rest, eq⟩) outside,
        fine.slashed under⟩

theorem Rebinds.rewriteStr_back (rebinds : Rebinds old new v w) (outside : ¬ Under new v) :
    rewriteStr w new old = v := by
  have home := rebinds_rewriteStr new old w
  by_cases under : Under old v
  · rcases under with same | ⟨rest, eq⟩
    · rw [home.root (rebinds.root same), same]
    · rw [home.below rest (rebinds.below rest eq), eq]
  · have same := rebinds.other under
    rw [home.other (by rwa [same]), same]

/-- Both stores map `v` to the rebound path, and rebinding back restores it there if it was not
below the new root. -/
def Agrees (old new v : Text) : Prop :=
  ∀ (workspace : Workspace) (key : PathKey) (file row : ℕ), workspace.manifestPath file key = some v →
    workspace.registryPath key.column row = some v →
      ∃ changed after w, rebindWorkspacePaths workspace old new = (some changed, after) ∧ Rebinds old new v w ∧
        after.manifestPath file key = some w ∧ after.registryPath key.column row = some w ∧
          (¬ Under new v → ∃ changed back, rebindWorkspacePaths after new old = (some changed, back) ∧
            back.manifestPath file key = some v ∧ back.registryPath key.column row = some v)

/-- The root does not come again, in either direction. -/
structure Agreeable (old new v : Text) : Prop where
  forth : ∃ repl, expandTemplate old new = some repl ∧ Rewritable old new repl v
  back : ¬ Under new v → ∃ repl, expandTemplate new old = some repl ∧ Restorable old new repl v

theorem agrees_of_agreeable {old new : Root} (distinct : old.path ≠ new.path)
    (fine : Agreeable old.path new.path v) : Agrees old.path new.path v := by
  intro workspace key file row filed stored
  obtain ⟨repl, expands, forth⟩ := fine.forth
  obtain ⟨changed, after, rebound, files, rows⟩ :=
    rebindWorkspacePaths_paths old.filled distinct expands workspace
  have target := rebinds_rewriteStr old.path new.path v
  have file' := files file key
  have row' := rows key.column row
  rw [filed, Option.map_some] at file'
  rw [stored, Option.map_some, rowPath_eq old.filled forth] at row'
  refine ⟨changed, after, _, rebound, target, file', row', fun outside => ?_⟩
  obtain ⟨repl', expands', back⟩ := fine.back outside
  obtain ⟨changed', restored, rebound', files', rows'⟩ :=
    rebindWorkspacePaths_paths new.filled distinct.symm expands' after
  have fine' := (rewritable_back_iff target outside).mpr back
  have home := target.rewriteStr_back outside
  refine ⟨changed', restored, rebound', ?_, ?_⟩
  · rw [files', file', Option.map_some, home]
  · rw [rows', row', Option.map_some, rowPath_eq new.filled fine', home]

/-- A workspace that holds one path. -/
def single (v : Text) : Workspace :=
  ⟨[([], ⟨[("appPath", .str (String.ofList v))], by simp [Item.get]⟩)], some ⟨fun _ => [some v], []⟩, []⟩

theorem manifestPath_single (v : Text) : (single v).manifestPath 0 .appPath = some v := by
  simp [single, Workspace.manifestPath, Manifest.path, Manifest.entries, PathKey.owner, PathKey.name, Item.get, text?]

theorem agreeable_of_agrees {old new : Root} (distinct : old.path ≠ new.path) (plain : Literal old.path)
    (plain' : Literal new.path) (agrees : Agrees old.path new.path v) : Agreeable old.path new.path v := by
  obtain ⟨_, after, w, rebound, rebinds, -, stored, restores⟩ :=
    agrees (single v) .appPath 0 0 (manifestPath_single v) rfl
  have row : rowPath old.path new.path new.path v = w := by
    obtain ⟨_, after', rebound', -, rows⟩ :=
      rebindWorkspacePaths_paths old.filled distinct (plain' old.path) (single v)
    have moved := rows PathKey.appPath.column 0
    rw [← (Prod.mk.inj (rebound.symm.trans rebound')).2, stored] at moved
    exact (Option.some.inj moved).symm
  have forth := rewritable_of_rowPath old.filled distinct (row.trans rebinds.eq_rewriteStr)
  refine ⟨⟨_, plain' _, forth⟩, fun outside => ⟨_, plain _, (rewritable_back_iff rebinds outside).mp ?_⟩⟩
  obtain ⟨_, back, rebound', -, stored'⟩ := restores outside
  have row' : rowPath new.path old.path old.path w = v := by
    obtain ⟨_, back', rebound'', -, rows⟩ :=
      rebindWorkspacePaths_paths new.filled distinct.symm (plain new.path) after
    have moved := rows PathKey.appPath.column 0
    rw [← (Prod.mk.inj (rebound'.symm.trans rebound'')).2, stored', stored] at moved
    exact (Option.some.inj moved).symm
  exact rewritable_of_rowPath new.filled distinct.symm (row'.trans (rebinds.rewriteStr_back outside).symm)

/-- The stores agree on a path, and find back, where neither root comes again in it. A root that is no
template of itself may also lead back by chance. -/
theorem rebinding_agrees (old new : Root) (distinct : old.path ≠ new.path) (v : Text) :
    (Agreeable old.path new.path v → Agrees old.path new.path v) ∧
      (Literal old.path → Literal new.path → Agrees old.path new.path v → Agreeable old.path new.path v) :=
  ⟨agrees_of_agreeable distinct, agreeable_of_agrees distinct⟩

def srv : Root := ⟨"/srv".toList, rfl⟩

def data : Root := ⟨"/data".toList, rfl⟩

theorem rebinding_agrees_app : Agrees srv.path data.path "/srv/apps/shop/current".toList := by
  have under : ∀ {rest : Text}, "/srv/apps/shop/current".toList = srv.path ++ '/' :: rest →
      rest = "apps/shop/current".toList := by
    intro rest eq
    have tail : "/apps/shop/current".toList = '/' :: rest := @List.append_cancel_left _ srv.path _ _ eq
    exact (List.cons.inj tail).2.symm
  refine (rebinding_agrees srv data (by decide +kernel) _).1
    ⟨⟨data.path, by decide +kernel, ?_⟩, fun _ => ⟨srv.path, by decide +kernel, ?_⟩⟩
  · refine ⟨fun _ => rfl, fun rest eq => ?_, fun rest eq => ?_⟩
    · rw [under eq]
      decide +kernel
    · simp [srv] at eq
  · refine ⟨fun _ => rfl, fun rest eq => ?_, fun _ rest eq => ?_⟩
    · rw [under eq]
      decide +kernel
    · simp [data] at eq

/-- An app with the name of the workspace's directory: the registry renames both. -/
theorem app_named_as_root :
    ¬ ∀ old new : Root, old.path ≠ new.path → ∀ v : Text, Agrees old.path new.path v := by
  intro agrees
  obtain ⟨changed, after, w, rebound, rebinds, -, stored, -⟩ :=
    agrees srv data (by decide +kernel) "/srv/apps/srv/current".toList (single "/srv/apps/srv/current".toList) .appPath 0 0
      (manifestPath_single _) rfl
  have row : (rebindWorkspacePaths (single "/srv/apps/srv/current".toList) srv.path data.path).2.registryPath
      .appPath 0 = some "/data/apps/data/current".toList := by decide +kernel
  have path := rebinds.below "apps/srv/current".toList rfl
  rw [rebound, show Column.appPath = PathKey.appPath.column from rfl, stored, path] at row
  exact absurd row (by decide +kernel)

end LocalWebAccess.PathRebinding
