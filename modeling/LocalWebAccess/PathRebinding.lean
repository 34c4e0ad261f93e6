import LocalWebAccess.ComposeObservation
import LocalWebAccess.PathTexts
import Mathlib.Logic.Function.Basic

/-!
# Rebinding the paths of a moved workspace

After a workspace has moved, its stored paths are rewritten. The manifests are rewritten field by
field, by the start of the path. The registry selects its values by their start and then replaces
the old root wherever it stands in them, as the configuration of the gateway is rewritten.
-/
namespace LocalWebAccess.PathRebinding
open ComposeObservation PathTexts

/-! ## Manifests -/

/-- `os.sep`. -/
def sep : Char := '/'

def rewriteStr (value old new : Text) : Text :=
  if value = old ∨ old ++ [sep] <+: value ∨ old ++ ['/'] <+: value then new ++ value.drop old.length else value

def MANIFEST_PATH_KEYS : List String :=
  ["composePath", "dockerfilePath", "sourceZipPath", "appPath", "gatewayConfigPath"]

mutual

def rewriteObj (old new : Text) : Json → Json
  | .dict entries => .dict (rewriteEntries old new entries)
  | .list items => .list (rewriteItems old new items)
  | obj => obj

def rewriteEntries (old new : Text) : List (String × Json) → List (String × Json)
  | [] => []
  | (k, .str v) :: entries =>
    (k, .str (if k ∈ MANIFEST_PATH_KEYS then String.ofList (rewriteStr v.toList old new) else v)) ::
      rewriteEntries old new entries
  | (k, v) :: entries => (k, rewriteObj old new v) :: rewriteEntries old new entries

def rewriteItems (old new : Text) : List Json → List Json
  | [] => []
  | x :: items => rewriteObj old new x :: rewriteItems old new items

end

/-- `data[key] = value`. -/
def put (data : Item) (key : String) (value : Json) : Item :=
  if data.any (fun entry => entry.1 = key) then
    data.map fun entry => if entry.1 = key then (key, value) else entry
  else data ++ [(key, value)]

/-- The identity of a container does not outlive the move. -/
def clearContainer (rewritten : Item) : Item :=
  match rewritten.get "container" with
  | some (.dict container) =>
    if (Item.get container "containerId").any Json.truthy then
      put rewritten "container" (.dict (put (put container "containerId" .null) "imageId" .null))
    else rewritten
  | _ => rewritten

mutual

/-- `==` of values whose keys stand in the same order. -/
def same : Json → Json → Bool
  | .null, .null => true
  | .bool a, .bool b => a = b
  | .number a, .number b => a = b
  | .str a, .str b => a = b
  | .list a, .list b => sameItems a b
  | .dict a, .dict b => sameEntries a b
  | _, _ => false

def sameItems : List Json → List Json → Bool
  | [], [] => true
  | a :: as, b :: bs => same a b && sameItems as bs
  | _, _ => false

def sameEntries : List (String × Json) → List (String × Json) → Bool
  | [], [] => true
  | (k, a) :: as, (l, b) :: bs => k = l && same a b && sameEntries as bs
  | _, _ => false

end

/-- `local-web.json`: the container is an object where there is one. -/
structure Manifest where
  data : Item
  container : ∀ value, data.get "container" = some value → value.truthy → value.item?.isSome

/-- `(data.get("container") or {}).get("containerId")`. -/
def containerId (data : Item) : Option Json :=
  (data.get "container").bind fun container => container.item?.bind fun entries => Item.get entries "containerId"

/-- What becomes of the value of a key. -/
def rewriteValue (old new : Text) (k : String) : Json → Json
  | .str v => .str (if k ∈ MANIFEST_PATH_KEYS then String.ofList (rewriteStr v.toList old new) else v)
  | v => rewriteObj old new v

theorem rewriteEntries_eq (old new : Text) (entries : List (String × Json)) :
    rewriteEntries old new entries = entries.map fun entry => (entry.1, rewriteValue old new entry.1 entry.2) := by
  induction entries with
  | nil => rw [rewriteEntries, List.map_nil]
  | cons entry entries ih =>
    obtain ⟨k, v⟩ := entry
    cases v <;> simp [rewriteEntries, rewriteValue, ih]

theorem get_rewriteEntries (old new : Text) (entries : Item) (k : String) :
    Item.get (rewriteEntries old new entries) k = (Item.get entries k).map (rewriteValue old new k) := by
  rw [rewriteEntries_eq, Item.get, Item.get, List.find?_map, Option.map_map, Option.map_map]
  apply Option.map_congr
  intro entry found
  have key : entry.1 = k := by simpa using List.find?_some found
  simp [key]

theorem get_put (data : Item) (key : String) (value : Json) (k : String) :
    Item.get (put data key value) k = if k = key then some value else Item.get data k := by
  unfold put
  by_cases known : data.any (fun entry => entry.1 = key)
  · have keys : ∀ entry : String × Json, (if entry.1 = key then (key, value) else entry).1 = entry.1 := by
      intro entry
      by_cases here : entry.1 = key
      · rw [if_pos here, here]
      · rw [if_neg here]
    rw [if_pos known, Item.get, Item.get, List.find?_map]
    simp only [Function.comp_def, keys]
    cases found : data.find? (fun entry => entry.1 = k) with
    | none =>
      have absent : k ≠ key := by
        rintro rfl
        simp only [List.find?_eq_none, List.any_eq_true] at found known
        obtain ⟨entry, mem, here⟩ := known
        exact found entry mem here
      simp [absent]
    | some entry =>
      have here : entry.1 = k := by simpa using List.find?_some found
      by_cases same : k = key <;> simp [here, same]
  · rw [if_neg known, Item.get, List.find?_append, Item.get]
    have absent : data.find? (fun entry => entry.1 = key) = none := by
      rw [List.find?_eq_none]
      intro entry mem here
      exact known (List.any_eq_true.mpr ⟨entry, mem, here⟩)
    by_cases same : k = key
    · rw [same, absent]
      simp
    · simp [Ne.symm same, same]

theorem rewriteValue_truthy {old new : Text} {k : String} (other : k ∉ MANIFEST_PATH_KEYS) (value : Json) :
    (rewriteValue old new k value).truthy = value.truthy := by
  cases value with
  | list items => cases items <;> simp [rewriteValue, rewriteObj, rewriteItems, Json.truthy]
  | dict entries => simp [rewriteValue, rewriteObj, rewriteEntries_eq, Json.truthy]
  | _ => simp [rewriteValue, rewriteObj, other]

theorem rewriteValue_item? (old new : Text) (k : String) (value : Json) :
    (rewriteValue old new k value).item? = value.item?.map (rewriteEntries old new) := by
  cases value <;> simp [rewriteValue, rewriteObj, Json.item?]

/-- The keys of the top level stay, and of the container so does all that is no identity. -/
theorem get_clearContainer (rewritten : Item) (k : String) :
    Item.get (clearContainer rewritten) k = Item.get rewritten k ∨
      k = "container" ∧ ∃ container, Item.get rewritten k = some (.dict container) ∧
        Item.get (clearContainer rewritten) k =
          some (.dict (put (put container "containerId" .null) "imageId" .null)) := by
  fun_cases clearContainer rewritten with
  | case1 container found identified =>
    rw [get_put]
    by_cases here : k = "container"
    · right
      rw [if_pos here, here]
      exact ⟨rfl, container, found, rfl⟩
    · left
      rw [if_neg here]
  | case2 container found anonymous => exact .inl rfl
  | case3 other => exact .inl rfl

theorem container_kept (m : Manifest) (old new : Text) (value : Json)
    (found : Item.get (clearContainer (rewriteEntries old new m.data)) "container" = some value)
    (truthy : value.truthy) : value.item?.isSome := by
  rcases get_clearContainer (rewriteEntries old new m.data) "container" with kept | ⟨-, container, -, cleared⟩
  · rw [kept, get_rewriteEntries, Option.map_eq_some_iff] at found
    obtain ⟨before, known, rfl⟩ := found
    rw [rewriteValue_truthy (by decide)] at truthy
    rw [rewriteValue_item?, Option.isSome_map]
    exact m.container before known truthy
  · rw [cleared, Option.some.injEq] at found
    rw [← found]
    rfl

def rewriteManifestPaths (m : Manifest) (old new : Text) : Bool × Manifest :=
  let rewritten : Manifest := ⟨clearContainer (rewriteEntries old new m.data), container_kept m old new⟩
  let changed := !sameEntries rewritten.data m.data || (containerId m.data).any fun value => !same value .null
  (changed, if changed then rewritten else m)

mutual

theorem eq_of_same : ∀ {a b : Json}, same a b = true → a = b
  | .null, .null, _ => rfl
  | .bool _, .bool _, eq => by rw [of_decide_eq_true eq]
  | .number _, .number _, eq => by rw [of_decide_eq_true eq]
  | .str _, .str _, eq => by rw [of_decide_eq_true eq]
  | .list _, .list _, eq => congrArg Json.list (eq_of_sameItems eq)
  | .dict _, .dict _, eq => congrArg Json.dict (eq_of_sameEntries eq)

theorem eq_of_sameItems : ∀ {as bs : List Json}, sameItems as bs = true → as = bs
  | [], [], _ => rfl
  | _ :: _, _ :: _, eq => by
    rw [sameItems, Bool.and_eq_true] at eq
    rw [eq_of_same eq.1, eq_of_sameItems eq.2]

theorem eq_of_sameEntries : ∀ {as bs : List (String × Json)}, sameEntries as bs = true → as = bs
  | [], [], _ => rfl
  | (_, _) :: _, (_, _) :: _, eq => by
    rw [sameEntries, Bool.and_eq_true, Bool.and_eq_true, decide_eq_true_iff] at eq
    rw [eq.1.1, eq_of_same eq.1.2, eq_of_sameEntries eq.2]

end

/-- The file is written where something has changed. -/
theorem rewriteManifestPaths_data (m : Manifest) (old new : Text) :
    (rewriteManifestPaths m old new).2.data = clearContainer (rewriteEntries old new m.data) := by
  unfold rewriteManifestPaths
  dsimp only
  split_ifs with changed
  · rfl
  · rw [Bool.or_eq_true, not_or, Bool.not_eq_true', Bool.not_eq_false] at changed
    exact (eq_of_sameEntries changed.1).symm

/-- The fields of a manifest that hold a path of the workspace. -/
inductive PathKey where
  | appPath
  | sourceZipPath
  | composePath
  | dockerfilePath
  | gatewayConfigPath
  deriving DecidableEq, Repr

def PathKey.name : PathKey → String
  | appPath => "appPath"
  | sourceZipPath => "sourceZipPath"
  | composePath => "composePath"
  | dockerfilePath => "dockerfilePath"
  | gatewayConfigPath => "gatewayConfigPath"

/-- The object that holds the field, if it is not the manifest. -/
def PathKey.owner : PathKey → Option String
  | appPath | sourceZipPath => none
  | composePath | dockerfilePath => some "container"
  | gatewayConfigPath => some "static"

theorem PathKey.name_mem (key : PathKey) : key.name ∈ MANIFEST_PATH_KEYS := by
  cases key <;> decide

def text? : Json → Option Text
  | .str v => some v.toList
  | _ => none

/-- The entries among which the field stands. -/
def Manifest.entries (m : Manifest) (key : PathKey) : Option Item :=
  match key.owner with
  | none => some m.data
  | some owner => (m.data.get owner).bind Json.item?

def Manifest.path (m : Manifest) (key : PathKey) : Option Text :=
  ((m.entries key).bind fun entries => Item.get entries key.name).bind text?

theorem text?_rewriteValue (old new : Text) (key : PathKey) (value : Json) :
    text? (rewriteValue old new key.name value) = (text? value).map fun v => rewriteStr v old new := by
  cases value <;> simp [rewriteValue, rewriteObj, text?, key.name_mem]

/-- Within an object the rewriting is the one of its fields. -/
theorem field_rewriteEntries (old new : Text) (data : Item) (owner name : String) :
    (((Item.get (rewriteEntries old new data) owner).bind Json.item?).bind fun entries => Item.get entries name) =
      (((data.get owner).bind Json.item?).bind fun entries => Item.get entries name).map
        (rewriteValue old new name) := by
  rw [get_rewriteEntries]
  cases data.get owner with
  | none => rfl
  | some value =>
    rw [Option.map_some, Option.bind_some, Option.bind_some, rewriteValue_item?]
    cases value.item? with
    | none => rfl
    | some entries => exact get_rewriteEntries old new entries name

theorem field_clearContainer (rewritten : Item) (owner : String) {name : String} (id : name ≠ "containerId")
    (image : name ≠ "imageId") :
    (((Item.get (clearContainer rewritten) owner).bind Json.item?).bind fun entries => Item.get entries name) =
      ((Item.get rewritten owner).bind Json.item?).bind fun entries => Item.get entries name := by
  rcases get_clearContainer rewritten owner with kept | ⟨-, container, found, cleared⟩
  · rw [kept]
  · rw [found, cleared]
    simp only [Option.bind_some, Json.item?, get_put, if_neg id, if_neg image]

/-- A path of a manifest is rewritten by itself. -/
theorem rewriteManifestPaths_path (m : Manifest) (old new : Text) (key : PathKey) :
    (rewriteManifestPaths m old new).2.path key = (m.path key).map fun v => rewriteStr v old new := by
  have field : ((rewriteManifestPaths m old new).2.entries key).bind (fun entries => Item.get entries key.name) =
      ((m.entries key).bind fun entries => Item.get entries key.name).map (rewriteValue old new key.name) := by
    unfold Manifest.entries
    rw [rewriteManifestPaths_data]
    cases owned : key.owner with
    | none =>
      have apart : key.name ≠ "container" := by cases key <;> decide
      have kept := (get_clearContainer (rewriteEntries old new m.data) key.name).resolve_right (fun h => apart h.1)
      exact kept.trans (get_rewriteEntries old new m.data key.name)
    | some owner =>
      have id : key.name ≠ "containerId" := by cases key <;> decide
      have image : key.name ≠ "imageId" := by cases key <;> decide
      exact (field_clearContainer _ owner id image).trans (field_rewriteEntries old new m.data owner key.name)
  unfold Manifest.path
  rw [field]
  cases (m.entries key).bind (fun entries => Item.get entries key.name) with
  | none => rfl
  | some value => exact text?_rewriteValue old new key value

/-! ## The registry -/

inductive Column where
  | appPath
  | sourceZipPath
  | composePath
  | dockerfilePath
  | gatewayConfigPath
  | logPath
  | configSnapshot
  deriving DecidableEq, Repr

/-- The paths of the rows, column by column, and the identities of the containers. -/
structure Registry where
  columns : Column → List (Option Text)
  containers : List (Option Text × Option Text)

def updates : List Column :=
  [.appPath, .sourceZipPath, .composePath, .dockerfilePath, .gatewayConfigPath, .logPath, .configSnapshot]

/-- The condition of the query; `substr` counts from one. -/
def selected (old value : Text) : Prop :=
  value = old ∨ value.take (old.length + 1) = old ++ ['/'] ∨ value.take (old.length + 1) = old ++ ['\\']

instance (old value : Text) : Decidable (selected old value) := inferInstanceAs (Decidable (_ ∨ _ ∨ _))

def rewriteRow (old new : Text) : Option Text → Option (Option Text)
  | none => some none
  | some value =>
    if selected old value ∧ value ≠ [] then (rewriteTextPaths value old new).map some else some (some value)

def rewriteColumns (old new : Text) : List Column → (Column → List (Option Text)) →
    Option (Column → List (Option Text))
  | [], columns => some columns
  | col :: cols, columns => do
    let rows ← (columns col).mapM (rewriteRow old new)
    rewriteColumns old new cols (Function.update columns col rows)

/-- An exception rolls the transaction back. -/
def rewriteRegistryPaths (db : Registry) (old new : Text) : Option Registry :=
  if old = [] ∨ old = new then some db
  else (rewriteColumns old new updates db.columns).map fun columns =>
    ⟨columns, db.containers.map fun _ => (none, none)⟩

/-! ## The workspace -/

/-- The files by their relative paths. -/
structure Workspace where
  manifests : List (Text × Manifest)
  registry : Option Registry
  fragments : List (Text × Text)

/-- The texts of the gateway one after the other, up to an exception. -/
def rewriteGatewayFragmentPaths (old new : Text) : List (Text × Text) → Option (List Text) × List (Text × Text)
  | [] => (some [], [])
  | (path, text) :: fragments =>
    match rewriteTextPaths text old new with
    | none => (none, (path, text) :: fragments)
    | some rewritten =>
      let (changed, rest) := rewriteGatewayFragmentPaths old new fragments
      (changed.map fun paths => if rewritten ≠ text then path :: paths else paths, (path, rewritten) :: rest)

/-- The paths that have been rebound, or an exception, and the workspace that is left. -/
def rebindWorkspacePaths (workspace : Workspace) (old new : Text) : Option (List Text) × Workspace :=
  let manifests := workspace.manifests.map fun file => (file.1, (rewriteManifestPaths file.2 old new).2)
  let bound := workspace.manifests.map Prod.fst
  let (fragmented, fragments) := rewriteGatewayFragmentPaths old new workspace.fragments
  match workspace.registry with
  | none => (fragmented.map (bound ++ ·), ⟨manifests, none, fragments⟩)
  | some db =>
    match rewriteRegistryPaths db old new with
    | none => (none, ⟨manifests, some db, workspace.fragments⟩)
    | some db => (fragmented.map (bound ++ "registry/local-web.db".toList :: ·), ⟨manifests, some db, fragments⟩)

def PathKey.column : PathKey → Column
  | appPath => .appPath
  | sourceZipPath => .sourceZipPath
  | composePath => .composePath
  | dockerfilePath => .dockerfilePath
  | gatewayConfigPath => .gatewayConfigPath

variable {old new repl : Text}

def Registry.path (db : Registry) (col : Column) (row : ℕ) : Option Text := (db.columns col)[row]?.join

/-- What a row holds once no template can raise. -/
def rowPath (old new repl v : Text) : Text := if selected old v then replacePaths old new repl v else v

theorem rewriteRow_eq (filled : old ≠ []) (differ : old ≠ new) (expands : expandTemplate old new = some repl)
    (value : Option Text) : rewriteRow old new value = some (value.map (rowPath old new repl)) := by
  cases value with
  | none => rfl
  | some v =>
    have raw : rewriteTextPaths v old new = some (replacePaths old new repl v) := by
      rw [rewriteTextPaths, if_neg (not_or.mpr ⟨differ, filled⟩), expands, Option.map_some]
    have inked : selected old v → v ≠ [] := by
      rintro (rfl | cut | cut) rfl
      · exact filled rfl
      all_goals simp at cut
    rw [rewriteRow, raw, Option.map_some, Option.map_some, rowPath]
    by_cases picked : selected old v
    · rw [if_pos ⟨picked, inked picked⟩, if_pos picked]
    · rw [if_neg (fun both => picked both.1), if_neg picked]

theorem rewriteRows_eq (filled : old ≠ []) (differ : old ≠ new) (expands : expandTemplate old new = some repl)
    (rows : List (Option Text)) :
    rows.mapM (rewriteRow old new) = some (rows.map (Option.map (rowPath old new repl))) := by
  rw [funext (rewriteRow_eq filled differ expands)]
  exact List.mapM_pure

theorem rewriteColumns_eq (filled : old ≠ []) (differ : old ≠ new) (expands : expandTemplate old new = some repl)
    {cols : List Column} (once : cols.Nodup) (columns : Column → List (Option Text)) :
    rewriteColumns old new cols columns = some fun col =>
      if col ∈ cols then (columns col).map (Option.map (rowPath old new repl)) else columns col := by
  induction cols generalizing columns with
  | nil => simp [rewriteColumns]
  | cons first cols ih =>
    obtain ⟨fresh, once⟩ := List.nodup_cons.mp once
    simp only [rewriteColumns, rewriteRows_eq filled differ expands, Option.bind_eq_bind, Option.bind_some, ih once]
    congr 1
    funext col
    by_cases here : col = first
    · subst here
      simp [fresh]
    · simp [here]

/-- Where no template raises, every path of the registry is rewritten by itself. -/
theorem rewriteRegistryPaths_path (filled : old ≠ []) (differ : old ≠ new)
    (expands : expandTemplate old new = some repl) (db : Registry) :
    ∃ db', rewriteRegistryPaths db old new = some db' ∧
      ∀ col row, db'.path col row = (db.path col row).map (rowPath old new repl) := by
  rw [rewriteRegistryPaths, if_neg (not_or.mpr ⟨filled, differ⟩),
    rewriteColumns_eq filled differ expands (by decide), Option.map_some]
  refine ⟨_, rfl, fun col row => ?_⟩
  have updated : col ∈ updates := by cases col <;> decide
  simp only [Registry.path, if_pos updated, List.getElem?_map]
  cases (db.columns col)[row]? with
  | none => rfl
  | some value => cases value <;> rfl

def Workspace.manifestPath (workspace : Workspace) (file : ℕ) (key : PathKey) : Option Text :=
  workspace.manifests[file]?.bind fun file => file.2.path key

def Workspace.registryPath (workspace : Workspace) (col : Column) (row : ℕ) : Option Text :=
  workspace.registry.bind fun db => db.path col row

theorem rewriteGatewayFragmentPaths_returns (filled : old ≠ []) (differ : old ≠ new)
    (expands : expandTemplate old new = some repl) (fragments : List (Text × Text)) :
    ∃ changed, (rewriteGatewayFragmentPaths old new fragments).1 = some changed := by
  induction fragments with
  | nil => exact ⟨[], rfl⟩
  | cons fragment fragments ih =>
    obtain ⟨path, text⟩ := fragment
    obtain ⟨changed, later⟩ := ih
    rw [rewriteGatewayFragmentPaths, rewriteTextPaths, if_neg (not_or.mpr ⟨differ, filled⟩), expands]
    simp only [Option.map_some, later]
    exact ⟨_, rfl⟩

/-- The rebinding returns where no template raises, and has rewritten every path by itself. -/
theorem rebindWorkspacePaths_paths (filled : old ≠ []) (differ : old ≠ new)
    (expands : expandTemplate old new = some repl) (workspace : Workspace) :
    ∃ changed after, rebindWorkspacePaths workspace old new = (some changed, after) ∧
      (∀ file key, after.manifestPath file key =
        (workspace.manifestPath file key).map fun v => rewriteStr v old new) ∧
      ∀ col row, after.registryPath col row = (workspace.registryPath col row).map (rowPath old new repl) := by
  obtain ⟨changed, fragmented⟩ := rewriteGatewayFragmentPaths_returns filled differ expands workspace.fragments
  have files : ∀ file key, (workspace.manifests.map fun file => (file.1, (rewriteManifestPaths file.2 old new).2))[
      file]?.bind (fun file => file.2.path key) =
        (workspace.manifestPath file key).map fun v => rewriteStr v old new := by
    intro file key
    rw [Workspace.manifestPath, List.getElem?_map]
    cases workspace.manifests[file]? with
    | none => rfl
    | some file => exact rewriteManifestPaths_path file.2 old new key
  rw [rebindWorkspacePaths]
  simp only [fragmented]
  cases stored : workspace.registry with
  | none =>
    refine ⟨_, _, rfl, files, fun col row => ?_⟩
    rw [Workspace.registryPath, Workspace.registryPath, stored]
    rfl
  | some db =>
    obtain ⟨db', rewritten, paths⟩ := rewriteRegistryPaths_path filled differ expands db
    simp only [rewritten]
    refine ⟨_, _, rfl, files, fun col row => ?_⟩
    rw [Workspace.registryPath, Workspace.registryPath, stored]
    exact paths col row

end LocalWebAccess.PathRebinding
