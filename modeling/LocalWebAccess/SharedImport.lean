import LocalWebAccess.ImportPipelines
import Mathlib.Data.List.Perm.Subperm

/-!
# The shared routine of the imports

`_import_zip_locked` returns with the instance, or undoes what it has done of it: the workspace is as
before. Only a directory that is made and not yet covered by a handler may stay.
-/
namespace LocalWebAccess.ImportPipelines
open FailingEffects KeyedTables

variable {Json : Type} {env : Conditions Json} {s t w : Workspace Json} {i : InstanceId}

/-! ## Without an instance -/

namespace Registry

variable {r : Registry} {row : ChildRow} {replaced : ChildRow → Bool}

theorem deleteInstance_of_not_mem (unknown : i ∉ r.instances) : r.deleteInstance i = r := by
  ext1
  · exact List.filter_eq_self.mpr fun j mem => decide_eq_true fun same => unknown (same ▸ mem)
  · exact List.filter_eq_self.mpr fun row mem => decide_eq_true fun mine => unknown (r.referenced row mem i mine)

theorem deleteInstance_register (r : Registry) (i : InstanceId) :
    (r.register i).deleteInstance i = r.deleteInstance i := by
  ext1
  · unfold deleteInstance register
    dsimp only
    split_ifs
    · rfl
    · simp
  · rfl

/-- A row of an instance, in the place of rows of its own. -/
theorem deleteInstance_put (mine : row.instanceId = some i)
    (own : ∀ other, replaced other = true → other.instanceId = some i) :
    (r.put replaced row).deleteInstance i = r.deleteInstance i := by
  ext1
  · rfl
  · unfold deleteInstance put
    dsimp only
    split_ifs
    · rw [List.filter_append, List.filter_filter, List.filter_cons_of_neg (by simp [mine]), List.filter_nil,
        List.append_nil]
      apply List.filter_congr
      intro other _
      cases gone : replaced other with
      | false => simp
      | true => simp [own other gone]
    · rfl

theorem instanceId_of_isRouteOf {other : ChildRow} (route : other.isRouteOf i = true) :
    other.instanceId = some i := by
  cases other with
  | container j mode host => exact congrArg some (of_decide_eq_true route)
  | staticSite j mode host => exact congrArg some (of_decide_eq_true route)
  | _ => cases route

theorem instanceId_of_isResourcesOf {other : ChildRow} (resources : other.isResourcesOf i = true) :
    other.instanceId = some i := by
  cases other with
  | resources j source data => exact congrArg some (of_decide_eq_true resources)
  | _ => cases resources

theorem mem_register (r : Registry) (i : InstanceId) : i ∈ (r.register i).instances := by
  unfold register
  dsimp only
  split_ifs with known
  · exact known
  · exact List.mem_append_right _ (List.mem_singleton_self i)

theorem deleteInstance_upsertFromManifest (m : InstanceManifest Json) (r : Registry) :
    (r.upsertFromManifest m).deleteInstance m.id = r.deleteInstance m.id := by
  unfold upsertFromManifest
  split
  · rw [deleteInstance_put rfl fun _ => instanceId_of_isRouteOf, deleteInstance_register]
  · rw [deleteInstance_put rfl fun _ => instanceId_of_isRouteOf, deleteInstance_register]
  · exact deleteInstance_register r m.id

theorem mem_upsertFromManifest (m : InstanceManifest Json) (r : Registry) :
    m.id ∈ (r.upsertFromManifest m).instances := by
  unfold upsertFromManifest
  split <;> exact mem_register r m.id

theorem accepts_of_mem (mine : row.instanceId = some i) (known : i ∈ r.instances) : r.accepts row = true := by
  rw [accepts, mine]
  exact decide_eq_true known

theorem listRouteHosts_of_not_mem {host : String} (unknown : i ∉ r.instances) : (host, i) ∉ r.listRouteHosts := by
  intro mem
  obtain ⟨row, -, made⟩ := List.mem_filterMap.mp mem
  split at made
  · split_ifs at made with known
    cases made
    exact unknown (of_decide_eq_true known)
  · cases made

end Registry

namespace Workspace

/-- The workspace with nothing of an instance. -/
def without (w : Workspace Json) (i : InstanceId) : Workspace Json := (w.removeDir i).record (Registry.deleteInstance i)

theorem erase_insert {ν : Type} (table : Table InstanceId ν) (i : InstanceId) (v : ν) :
    (table.insert i v).erase i = table.erase i := by
  apply AList.ext
  show List.kerase i (⟨i, v⟩ :: List.kerase i table.entries) = List.kerase i table.entries
  exact List.kerase_cons_eq (s := (⟨i, v⟩ : Sigma fun _ => ν)) rfl

theorem erase_erase_self {ν : Type} (table : Table InstanceId ν) (i : InstanceId) :
    (table.erase i).erase i = table.erase i := by
  apply AList.ext
  exact List.kerase_of_notMem_keys (List.notMem_keys_kerase i table.nodupKeys)

theorem without_makeDir (w : Workspace Json) (i : InstanceId) : (w.makeDir i).without i = w.without i :=
  Workspace.ext (erase_insert w.apps i none) rfl

theorem without_save (w : Workspace Json) (i : InstanceId) (m : InstanceManifest Json) :
    (w.save i m).without i = w.without i :=
  Workspace.ext (erase_insert w.apps i (some m)) rfl

theorem without_record {change : Registry → Registry}
    (same : (change w.registry).deleteInstance i = w.registry.deleteInstance i) :
    (w.record change).without i = w.without i := Workspace.ext rfl same

theorem without_of_free (free : w.idTaken i = false) : w.without i = w := by
  obtain ⟨unregistered, unmade⟩ := Bool.or_eq_false_iff.mp free
  have absent : i ∉ w.apps := of_decide_eq_false unmade
  apply Workspace.ext
  · exact AList.ext (List.kerase_of_notMem_keys absent)
  · exact Registry.deleteInstance_of_not_mem (of_decide_eq_false unregistered)

end Workspace

/-! ## The search for an id -/

theorem numbered_inj {baseSlug : InstanceId} {m n : ℕ}
    (same : baseSlug ++ "-" ++ toString m = baseSlug ++ "-" ++ toString n) : m = n := by
  have digits : Nat.toDigits 10 m = Nat.toDigits 10 n := by
    have texts := (String.append_right_inj _).mp same
    rwa [Nat.toString_eq_ofList_toDigits, Nat.toString_eq_ofList_toDigits, String.ofList_inj] at texts
  calc
    m = Nat.ofDigitChars 10 (Nat.toDigits 10 m) 0 := Nat.ofDigitChars_ten_toDigits.symm
    _ = Nat.ofDigitChars 10 (Nat.toDigits 10 n) 0 := by rw [digits]
    _ = n := Nat.ofDigitChars_ten_toDigits

theorem numbered_ne (baseSlug : InstanceId) (n : ℕ) : baseSlug ++ "-" ++ toString n ≠ baseSlug := by
  intro same
  have lengths := congrArg String.length same
  simp only [String.length_append] at lengths
  have dash : "-".length = 1 := rfl
  omega

theorem uniqueId_rename {raises : Step → Option Raised} (quiet : ∀ j, raises (.looking j) = none)
    (baseSlug candidate : InstanceId) (fuel n : ℕ) :
    uniqueId raises w baseSlug .rename (fuel + 1) candidate n =
      if w.idTaken candidate then uniqueId raises w baseSlug .rename fuel (baseSlug ++ "-" ++ toString n) (n + 1)
      else .ok candidate := by
  rw [uniqueId, quiet]
  rfl

/-- A search that ends without an id has found all of its candidates taken. -/
theorem taken_of_uniqueId {raises : Step → Option Raised} (quiet : ∀ j, raises (.looking j) = none)
    {baseSlug candidate : InstanceId} {fuel n : ℕ} {e : Raised}
    (ended : uniqueId raises w baseSlug .rename (fuel + 1) candidate n = .error e) :
    w.idTaken candidate = true ∧ ∀ k < fuel, w.idTaken (baseSlug ++ "-" ++ toString (n + k)) = true := by
  induction fuel generalizing candidate n with
  | zero =>
    rw [uniqueId_rename quiet] at ended
    split_ifs at ended with taken
    exact ⟨taken, by simp⟩
  | succ fuel ih =>
    rw [uniqueId_rename quiet] at ended
    split_ifs at ended with taken
    obtain ⟨next, later⟩ := ih ended
    refine ⟨taken, fun k below => ?_⟩
    cases k with
    | zero => exact next
    | succ k =>
      rw [Nat.add_succ, ← Nat.succ_add]
      exact later k (by omega)

/-- An import that renames finds an id. -/
theorem freeId_rename {raises : Step → Option Raised} (quiet : ∀ j, raises (.looking j) = none)
    (w : Workspace Json) (baseSlug : InstanceId) : ∃ i, freeId raises w baseSlug .rename = .ok i := by
  cases search : freeId raises w baseSlug .rename with
  | ok i => exact ⟨i, rfl⟩
  | error e =>
    obtain ⟨first, later⟩ := taken_of_uniqueId quiet search
    have distinct : (baseSlug :: (List.range (w.registry.instances.length + w.apps.keys.length)).map fun k =>
        baseSlug ++ "-" ++ toString (2 + k)).Nodup := by
      refine List.nodup_cons.mpr ⟨fun among => ?_, ?_⟩
      · obtain ⟨k, -, same⟩ := List.mem_map.mp among
        exact numbered_ne baseSlug _ same
      · exact List.nodup_range.map fun m n same => Nat.add_left_cancel (numbered_inj same)
    have known {c : InstanceId} (taken : w.idTaken c = true) : c ∈ w.registry.instances ++ w.apps.keys := by
      rcases (Bool.or_eq_true _ _).mp taken with registered | made
      · exact List.mem_append_left _ (of_decide_eq_true registered)
      · have there : c ∈ w.apps := of_decide_eq_true made
        exact List.mem_append_right _ (AList.mem_keys.mp there)
    have among : (baseSlug :: (List.range (w.registry.instances.length + w.apps.keys.length)).map fun k =>
        baseSlug ++ "-" ++ toString (2 + k)) ⊆ w.registry.instances ++ w.apps.keys := by
      intro c mem
      rcases List.mem_cons.mp mem with rfl | mem
      · exact known first
      · obtain ⟨k, below, rfl⟩ := List.mem_map.mp mem
        exact known (later k (List.mem_range.mp below))
    have bound := (distinct.subperm among).length_le
    simp only [List.length_cons, List.length_map, List.length_range, List.length_append] at bound
    omega
/-! ## Steps -/

variable {α : Type} {step : Step} {post : Except Raised α → Workspace Json → Prop}

theorem ends_run {rest : Effect Json α} (ok : env.raises step = none → Ends rest s post)
    (failed : ∀ e, env.raises step = some e → post (.error e) s) : Ends (run env step >>= fun _ => rest) s post :=
  ends_bind.mpr (ends_attempt.mpr ⟨ok, failed⟩)

theorem ends_write {change : Workspace Json → Workspace Json} {rest : Effect Json α}
    (ok : env.raises step = none → Ends rest (change s) post)
    (failed : ∀ e, env.raises step = some e → post (.error e) (if env.done step then change s else s)) :
    Ends (write env step change >>= fun _ => rest) s post := by
  simp only [write, ends_bind, ends_modify, onValue_ok, run, ends_attempt, onValue_error]
  constructor
  · intro quiet
    rw [if_pos (.inl quiet)]
    exact ok quiet
  · intro e raised
    have same : (env.raises step = none ∨ env.done step = true) = (env.done step = true) := by simp [raised]
    simp only [same]
    exact failed e raised

/-- A row of a registered instance is accepted. -/
theorem ends_insertRow {replaced : ChildRow → Bool} {row : ChildRow} {rest : Effect Json α}
    (mine : row.instanceId = some i) (known : i ∈ s.registry.instances)
    (ok : env.raises step = none → Ends rest (s.record (Registry.put replaced row)) post)
    (failed : ∀ e, env.raises step = some e →
      post (.error e) (if env.done step then s.record (Registry.put replaced row) else s)) :
    Ends (insertRow env step replaced row >>= fun _ => rest) s post := by
  have inserts : Ends (write env step (·.record (Registry.put replaced row)) >>= fun _ => rest) s post :=
    ends_write ok failed
  rw [ends_bind] at inserts ⊢
  rw [insertRow, ends_bind, ends_get, onValue_ok, if_pos (Registry.accepts_of_mem mine known)]
  exact inserts

/-- What the deletions of the handlers meet. -/
structure Conditions.Deletes (env : Conditions Json) : Prop where
  claimed : env.raises .removingClaimed = none
  dir : env.raises .removingDir = none
  row : env.raises .deletingRow = none

/-- The cleanup leaves nothing of its instance. -/
theorem ends_cleanupFailed (deletes : env.Deletes) {rest : Effect Json α} (ends : Ends rest (s.without i) post) :
    Ends (cleanupFailed env i >>= fun _ => rest) s post := by
  have dir {post : Except Raised PUnit → Workspace Json → Prop} (removed : post (.ok ⟨⟩) (s.removeDir i)) :
      Ends (removeAppDir env i) s post := by
    rw [removeAppDir, ends_bind, ends_get, onValue_ok]
    split_ifs with known
    · rw [rmtree, deletes.dir]
      exact removed
    · have same : s.removeDir i = s := Workspace.ext (AList.ext (List.kerase_of_notMem_keys known)) rfl
      rwa [same] at removed
  have row : (if (s.removeDir i).registry.instanceExists i then (s.removeDir i).record (Registry.deleteInstance i)
      else s.removeDir i) = s.without i := by
    split_ifs with known
    · rfl
    · exact Workspace.ext rfl (Registry.deleteInstance_of_not_mem fun mem => known (decide_eq_true mem)).symm
  rw [ends_bind, cleanupFailed, ends_bind]
  refine dir ?_
  rw [onValue_ok, removeRow, ends_tryCatch, run, deletes.row, attempt]
  simp only [ends_bind, ends_pure, ends_modify, onValue_ok, row]
  exact ends

/-! ## The body of the import -/

/-- The steps do not raise. -/
def Conditions.Quiet (env : Conditions Json) (steps : List Step) : Prop := ∀ step ∈ steps, env.raises step = none

/-- The title is found, or its text cannot be read. -/
def Conditions.Titles (env : Conditions Json) (name : Option String) : Prop :=
  name.filter (· ≠ "") = none →
    env.raises .locating = none ∧ (env.raises .titling = none ∨ env.raises .titling = some .osError)

/-- The display name of an import that gets to it. -/
def Conditions.display (env : Conditions Json) (name : Option String) (slug : String) : String × String :=
  match name.filter (· ≠ "") with
  | some name => (name, "user")
  | none => env.titled (if env.raises .titling = none then env.pageTitle else none) slug

/-- The manifest of an import that gets to it. -/
def Conditions.built (env : Conditions Json) (request : ZipRequest) (slug : String) (i : InstanceId) :
    Option (InstanceManifest Json) :=
  env.importer.buildManifestFromDetection i (env.display request.name slug).1 env.settled
    (some (env.text env.zipHash)) request.pathAlias (some (env.display request.name slug).2)

/-- The findings of an import that gets to them. -/
def Conditions.found (env : Conditions Json) : List Finding := if env.raises .checking = none then env.findings else []

/-- The body of the `try` meets nothing that raises. -/
structure Conditions.Completes (env : Conditions Json) (request : ZipRequest) (slug : String) (i : InstanceId) :
    Prop where
  quiet : env.Quiet [.copying, .extracting, .scanning, .building, .saving, .upserting, .sizing, .recordingResources,
    .finishing]
  titles : env.Titles request.name
  runtime : request.pathAlias.isSome = true → env.detection.runtime ≠ none
  built : (env.built request slug i).isSome = true
  guarding : env.guarded request.pathAlias = true → env.raises .guarding = none
  checking : env.raises .checking ≠ some .interrupt
  events : ∀ n < (importEvents env request.pathAlias env.found).length, env.raises (.event n) = none

theorem ends_displayName {name : Option String} {slug : String} {rest : String × String → Effect Json α}
    (ok : env.Titles name → Ends (rest (env.display name slug)) s post)
    (failed : ∀ e, ¬env.Titles name → post (.error e) s) : Ends (displayName env name slug >>= rest) s post := by
  rw [ends_bind, displayName]
  unfold Conditions.Titles Conditions.display at *
  cases given : name.filter (· ≠ "") with
  | some name =>
    rw [given] at ok
    exact ok (by simp)
  | none =>
    rw [given] at ok failed
    rw [pageTitle]
    refine ends_bind.mpr (ends_run (fun located => ?_) fun e raised => ?_)
    · simp only [ends_tryCatch, ends_bind, run, ends_attempt, ends_pure, onValue_ok, onValue_error]
      constructor
      · intro read
        rw [if_pos read] at ok
        exact ok fun _ => ⟨located, .inl read⟩
      · intro e raised
        split_ifs with unreadable
        · rw [if_neg (by simp [raised])] at ok
          exact ok fun _ => ⟨located, .inr (unreadable ▸ raised)⟩
        · refine failed e fun titles => ?_
          rcases (titles rfl).2 with read | other
          · rw [read] at raised
            cases raised
          · rw [other, Option.some.injEq] at raised
            exact unreadable raised.symm
    · refine failed e fun titles => ?_
      rw [(titles rfl).1] at raised
      cases raised

theorem ends_checkRuntime {pathAlias : Option String} {rest : Effect Json α}
    (ok : (pathAlias.isSome = true → env.detection.runtime ≠ none) → Ends rest s post)
    (failed : ∀ e, ¬(pathAlias.isSome = true → env.detection.runtime ≠ none) → post (.error e) s) :
    Ends (checkRuntime env pathAlias >>= fun _ => rest) s post := by
  rw [ends_bind, checkRuntime]
  split_ifs with without
  · exact failed _ fun has => has without.1 without.2
  · exact ok fun given missing => without ⟨given, missing⟩

theorem ends_checkCompatibility {rest : List Finding → Effect Json α}
    (ok : env.raises .checking ≠ some .interrupt → Ends (rest env.found) s post)
    (failed : ∀ e, env.raises .checking = some .interrupt → post (.error e) s) :
    Ends (checkCompatibility env >>= rest) s post := by
  simp only [checkCompatibility, ends_bind, ends_tryCatch, run, ends_attempt, ends_pure, onValue_ok, onValue_error]
  unfold Conditions.found at ok
  constructor
  · intro checked
    rw [if_pos checked] at ok
    exact ok (by simp [checked])
  · intro e raised
    rw [if_neg (by simp [raised])] at ok
    split_ifs with interrupted
    · exact failed e (interrupted ▸ raised)
    · exact ok fun same => interrupted (Option.some.inj (raised.symm.trans same))

theorem ends_guardImportPathAlias {pathAlias : Option String} {m : InstanceManifest Json}
    {rest : InstanceManifest Json → Effect Json α}
    (ok : (env.guarded pathAlias = true → env.raises .guarding = none) →
      ∀ follows, Ends (rest { m with buildBaseFromAlias := follows }) s post)
    (failed : ∀ e, ¬(env.guarded pathAlias = true → env.raises .guarding = none) → post (.error e) s) :
    Ends (guardImportPathAlias env pathAlias m >>= rest) s post := by
  rw [ends_bind, guardImportPathAlias]
  split_ifs with guarded
  · refine ends_run (fun quiet => ?_) fun e raised => ?_
    · exact ok (fun _ => quiet) _
    · refine failed e fun quiet => ?_
      rw [quiet guarded] at raised
      cases raised
  · exact ok (fun yes => absurd yes guarded) m.buildBaseFromAlias

/-- Between the two workspaces there are only rows of the instance. -/
structure Adds (i : InstanceId) (s t : Workspace Json) : Prop where
  rest : t.without i = s.without i
  apps : t.apps = s.apps
  instances : t.registry.instances = s.registry.instances

theorem adds_put (s : Workspace Json) {replaced : ChildRow → Bool} {row : ChildRow} (mine : row.instanceId = some i)
    (own : ∀ other, replaced other = true → other.instanceId = some i) :
    Adds i s (s.record (Registry.put replaced row)) :=
  ⟨Workspace.without_record (Registry.deleteInstance_put mine own), rfl, rfl⟩

theorem Adds.refl (i : InstanceId) (s : Workspace Json) : Adds i s s := ⟨rfl, rfl, rfl⟩

theorem Adds.trans {u : Workspace Json} (first : Adds i s t) (second : Adds i t u) : Adds i s u :=
  ⟨second.rest.trans first.rest, second.apps.trans first.apps, second.instances.trans first.instances⟩

theorem adds_done {done : Bool} (adds : Adds i s t) : Adds i s (if done then t else s) := by
  split_ifs
  · exact adds
  · exact .refl i s

/-- The events, of which each is accepted. -/
theorem ends_recordEvents {events : List (String × String)} {n : ℕ} {rest : Effect Json α}
    (known : i ∈ s.registry.instances)
    (ok : (∀ k < events.length, env.raises (.event (n + k)) = none) → ∀ t, Adds i s t → Ends rest t post)
    (failed : ∀ e t, ¬(∀ k < events.length, env.raises (.event (n + k)) = none) → Adds i s t → post (.error e) t) :
    Ends (recordEvents env i n events >>= fun _ => rest) s post := by
  induction events generalizing n s with
  | nil => exact ok (by simp) s (.refl i s)
  | cons event events ih =>
    have added : Adds i s (s.record (Registry.put (fun _ => false) (.event (some i) event.1 event.2))) :=
      adds_put s rfl (by simp)
    have later : (∀ k < (event :: events).length, env.raises (.event (n + k)) = none) ↔
        env.raises (.event n) = none ∧ ∀ k < events.length, env.raises (.event (n + 1 + k)) = none := by
      constructor
      · intro all
        refine ⟨all 0 (by simp), fun k below => ?_⟩
        have quiet := all (k + 1) (by simpa using below)
        rwa [← Nat.add_assoc, Nat.add_right_comm] at quiet
      · rintro ⟨first, all⟩ k below
        cases k with
        | zero => exact first
        | succ k =>
          have quiet := all k (by simpa using below)
          rwa [Nat.add_right_comm] at quiet
    rw [recordEvents, bind_assoc]
    refine ends_insertRow rfl known (fun quiet => ih (by rwa [added.instances]) ?_ ?_) fun e raised => ?_
    · exact fun all t adds => ok (later.mpr ⟨quiet, all⟩) t (added.trans adds)
    · exact fun e t some adds => failed e t (fun all => some (later.mp all).2) (added.trans adds)
    · refine failed e _ (fun all => ?_) (adds_done added)
      rw [(later.mp all).1] at raised
      cases raised

theorem Conditions.Quiet.not_raised {steps : List Step} {e : Raised} (quiet : env.Quiet steps) (among : step ∈ steps)
    (raised : env.raises step = some e) : False := by
  rw [quiet step among] at raised
  cases raised

/-- The instance is there, and it is the only change. -/
structure Imported (i : InstanceId) (s t : Workspace Json) : Prop where
  rest : t.without i = s.without i
  saved : ∃ m, t.apps.lookup i = some (some m) ∧ m.sourceKind = "zip"
  row : i ∈ t.registry.instances

theorem without_done {done : Bool} (same : t.without i = s.without i) :
    (if done then t else s).without i = s.without i := by
  split_ifs
  · exact same
  · rfl

/-- What has been written of the instance may be in part only. -/
theorem ends_register {m : InstanceManifest Json} (mine : m.id = i) {pathAlias : Option String}
    {findings : List Finding} {rest : Effect Json α}
    (ok : env.Quiet [.saving, .upserting, .sizing, .recordingResources] →
      (∀ n < (importEvents env pathAlias findings).length, env.raises (.event n) = none) →
        ∀ t, t.without i = s.without i → t.apps.lookup i = some (some m) → i ∈ t.registry.instances →
          Ends rest t post)
    (failed : ∀ e t, ¬(env.Quiet [.saving, .upserting, .sizing, .recordingResources] ∧
      ∀ n < (importEvents env pathAlias findings).length, env.raises (.event n) = none) →
        t.without i = s.without i → post (.error e) t) :
    Ends (register env i pathAlias m findings >>= fun _ => rest) s post := by
  subst mine
  have saved : (s.save m.id m).without m.id = s.without m.id := Workspace.without_save s m.id m
  have upserted : ((s.save m.id m).record (Registry.upsertFromManifest m)).without m.id = s.without m.id :=
    (Workspace.without_record (Registry.deleteInstance_upsertFromManifest m _)).trans saved
  have known : m.id ∈ ((s.save m.id m).record (Registry.upsertFromManifest m)).registry.instances :=
    Registry.mem_upsertFromManifest m _
  have measured : Adds m.id ((s.save m.id m).record (Registry.upsertFromManifest m))
      (((s.save m.id m).record (Registry.upsertFromManifest m)).record
        (Registry.put (·.isResourcesOf m.id) (.resources m.id env.sourceSize env.dataSize))) :=
    adds_put _ rfl fun _ => Registry.instanceId_of_isResourcesOf
  unfold register
  simp only [bind_assoc]
  refine ends_write (fun saving => ?_) fun e raised => ?_
  · refine ends_write (fun upserting => ?_) fun e raised => ?_
    · refine ends_run (fun sizing => ?_) fun e raised => ?_
      · refine ends_insertRow rfl known (fun resources => ?_) fun e raised => ?_
        · have quiet : env.Quiet [.saving, .upserting, .sizing, .recordingResources] := by
            simp [Conditions.Quiet, saving, upserting, sizing, resources]
          refine ends_recordEvents (by rwa [measured.instances]) ?_ ?_
          · intro all t adds
            simp only [Nat.zero_add] at all
            refine ok quiet all t (adds.rest.trans (measured.rest.trans upserted)) ?_ ?_
            · rw [adds.apps, measured.apps]
              exact AList.lookup_insert _
            · rwa [adds.instances, measured.instances]
          · intro e t some adds
            simp only [Nat.zero_add] at some
            exact failed e t (fun c => some c.2) (adds.rest.trans (measured.rest.trans upserted))
        · exact failed e _ (fun c => c.1.not_raised (by simp) raised) ((adds_done measured).rest.trans upserted)
      · exact failed e _ (fun c => c.1.not_raised (by simp) raised) upserted
    · exact failed e _ (fun c => c.1.not_raised (by simp) raised)
        ((without_done (upserted.trans saved.symm)).trans saved)
  · exact failed e _ (fun c => c.1.not_raised (by simp) raised) (without_done saved)

theorem built_spec {request : ZipRequest} {slug : String} {m : InstanceManifest Json}
    (built : env.built request slug i = some m) : m.id = i ∧ m.sourceKind = "zip" := by
  unfold Conditions.built Importer.buildManifestFromDetection at built
  split at built
  · cases built
  · split_ifs at built
    cases built
    exact ⟨rfl, rfl⟩

theorem withFindings_spec (env : Conditions Json) (m : InstanceManifest Json) (findings : List Finding) :
    (withFindings env m findings).id = m.id ∧ (withFindings env m findings).sourceKind = m.sourceKind := by
  unfold withFindings
  split_ifs <;> exact ⟨rfl, rfl⟩

theorem ends_buildManifest {request : ZipRequest} {slug : String} {rest : InstanceManifest Json → Effect Json α}
    (ok : env.raises .building = none → ∀ m, env.built request slug i = some m → Ends (rest m) s post)
    (failed : ∀ e, ¬(env.raises .building = none ∧ (env.built request slug i).isSome = true) → post (.error e) s) :
    Ends (buildManifest env i (env.display request.name slug) request.pathAlias >>= rest) s post := by
  rw [ends_bind, buildManifest]
  refine ends_run (fun quiet => ?_) fun e raised => ?_
  · rw [← Conditions.built]
    cases built : env.built request slug i with
    | none => exact failed _ fun c => by simp [built] at c
    | some m => exact ok quiet m built
  · refine failed e fun c => ?_
    rw [c.1] at raised
    cases raised

/-- The body of the `try` returns with the instance, or has changed nothing else. -/
theorem ends_importInto {request : ZipRequest} {slug : String}
    {post : Except Raised (ImportResult Json) → Workspace Json → Prop}
    (returned : env.Completes request slug i → ∀ result t, result.instanceId = i → Imported i s t →
      post (.ok result) t)
    (failed : ∀ e t, ¬env.Completes request slug i → t.without i = s.without i → post (.error e) t) :
    Ends (importInto env request slug i) s post := by
  unfold importInto
  refine ends_run (fun copying => ?_) fun e raised => failed e s (fun c => c.quiet.not_raised (by simp) raised) rfl
  refine ends_run (fun extracting => ?_) fun e raised => failed e s (fun c => c.quiet.not_raised (by simp) raised) rfl
  refine ends_run (fun scanning => ?_) fun e raised => failed e s (fun c => c.quiet.not_raised (by simp) raised) rfl
  refine ends_displayName (fun titles => ?_) fun e untitled => failed e s (fun c => untitled c.titles) rfl
  refine ends_checkRuntime (fun runtime => ?_) fun e unknown => failed e s (fun c => unknown c.runtime) rfl
  refine ends_buildManifest (fun building m built => ?_) fun e unbuilt =>
    failed e s (fun c => unbuilt ⟨c.quiet _ (by simp), c.built⟩) rfl
  refine ends_guardImportPathAlias (fun guarding follows => ?_) fun e refused =>
    failed e s (fun c => refused c.guarding) rfl
  refine ends_checkCompatibility (fun checking => ?_) fun e interrupted =>
    failed e s (fun c => c.checking interrupted) rfl
  obtain ⟨mine, zip⟩ := built_spec built
  obtain ⟨sameId, sameKind⟩ := withFindings_spec env { m with buildBaseFromAlias := follows } env.found
  refine ends_register (sameId.trans mine) ?_ ?_
  · intro quiet events t rest saved row
    refine ends_run (fun finishing => ?_) fun e raised => failed e t (fun c => c.quiet.not_raised (by simp) raised) rest
    refine returned ⟨?_, titles, runtime, by rw [built]; rfl, guarding, checking, events⟩ _ t rfl
      ⟨rest, ⟨_, saved, sameKind.trans zip⟩, row⟩
    simp only [Conditions.Quiet, List.mem_cons, List.not_mem_nil, or_false, forall_eq_or_imp, forall_eq] at quiet ⊢
    simp [copying, extracting, scanning, building, quiet, finishing]
  · intro e t some rest
    refine failed e t (fun c => some ⟨fun step among => ?_, c.events⟩) rest
    exact c.quiet step (by simp only [List.mem_cons, List.not_mem_nil, or_false] at among ⊢; tauto)

/-! ## The shared routine -/

/-- The alias, if there is one, passes the checks. -/
def Conditions.Allows (env : Conditions Json) (w : Workspace Json) (pathAlias : Option String) : Prop :=
  ∀ slug, pathAlias = some slug → env.Quiet [.listingHosts, .validatingAlias, .detectingBackend] ∧
    (env.aliasAllowed slug = true ∧ slug ∉ w.registry.listRouteHosts.map Prod.fst) ∧ env.caddy = true

theorem ends_checkAlias {pathAlias : Option String} {rest : Effect Json α}
    (ok : env.Allows s pathAlias → Ends rest s post) (failed : ∀ e, ¬env.Allows s pathAlias → post (.error e) s) :
    Ends (checkAlias env pathAlias >>= fun _ => rest) s post := by
  rw [ends_bind]
  cases pathAlias with
  | none => exact ok (by simp [Conditions.Allows])
  | some slug =>
    rw [checkAlias]
    refine ends_run (fun listing => ?_) fun e raised =>
      failed e fun allows => (allows slug rfl).1.not_raised (by simp) raised
    rw [ends_bind, ends_get, onValue_ok]
    refine ends_run (fun validating => ?_) fun e raised =>
      failed e fun allows => (allows slug rfl).1.not_raised (by simp) raised
    have detected : ∀ e, env.raises .detectingBackend = some e → ¬env.Allows s (some slug) := fun e raised allows =>
      (allows slug rfl).1.not_raised (by simp) raised
    split_ifs with valid caddy
    · refine ends_run (fun detecting => ok ?_) fun e raised => failed e (detected e raised)
      intro slug' same
      cases same
      exact ⟨by simp [Conditions.Quiet, listing, validating, detecting], valid, caddy⟩
    · exact ends_run (fun _ => failed _ fun allows => caddy (allows slug rfl).2.2) fun e raised =>
        failed e (detected e raised)
    · exact failed _ fun allows => valid (allows slug rfl).2.1

/-- The directory is made, and the import raises before a handler covers it. -/
def Conditions.Strands (env : Conditions Json) : Prop :=
  env.raises .making ≠ none ∧ env.done .making = true ∨
    env.raises .making = none ∧ (env.raises .ensuring = some .interrupt ∨
      env.raises .ensuring = none ∧ env.raises .starting ≠ none)

theorem idTaken_of_uniqueId {raises : Step → Option Raised} {baseSlug candidate : InstanceId} {mode : OnConflict}
    {fuel n : ℕ} (unique : uniqueId raises w baseSlug mode fuel candidate n = .ok i) : w.idTaken i = false := by
  induction fuel generalizing candidate n with
  | zero => cases unique
  | succ fuel ih =>
    rw [uniqueId] at unique
    split at unique
    · cases unique
    · split_ifs at unique with taken conflict
      · exact ih unique
      · cases unique
        exact Bool.eq_false_iff.mpr taken

theorem idTaken_of_freeId {raises : Step → Option Raised} {baseSlug : InstanceId} {mode : OnConflict}
    (unique : freeId raises w baseSlug mode = .ok i) : w.idTaken i = false := idTaken_of_uniqueId unique

theorem removeDir_makeDir (free : w.idTaken i = false) : (w.makeDir i).removeDir i = w := by
  have absent : i ∉ w.apps := of_decide_eq_false (Bool.or_eq_false_iff.mp free).2
  exact Workspace.ext ((Workspace.erase_insert w.apps i none).trans
    (AList.ext (List.kerase_of_notMem_keys absent))) rfl

/-- The claim makes a directory, or changes nothing. -/
theorem ends_claimUniqueId (deletes : env.Deletes) {baseSlug : InstanceId} {mode : OnConflict}
    {rest : InstanceId → Effect Json α}
    (ok : ∀ i, freeId env.raises s baseSlug mode = .ok i → env.raises .making = none → env.raises .ensuring = none →
      Ends (rest i) (s.makeDir i) post)
    (stranded : ∀ i e, freeId env.raises s baseSlug mode = .ok i → env.Strands → post (.error e) (s.makeDir i))
    (failed : ∀ e, (∀ i, freeId env.raises s baseSlug mode = .ok i → ¬env.Strands ∧ ¬env.Quiet [.making, .ensuring]) →
      post (.error e) s) :
    Ends (claimUniqueId env baseSlug mode >>= rest) s post := by
  unfold claimUniqueId
  simp only [bind_assoc]
  rw [ends_bind, ends_get, onValue_ok, ends_bind, ends_ofResult]
  cases unique : freeId env.raises s baseSlug mode with
  | error e =>
    refine failed e fun i free => ?_
    rw [unique] at free
    cases free
  | ok i =>
    have same : ∀ {j}, freeId env.raises s baseSlug mode = .ok j → j = i := fun free =>
      (Except.ok.inj (unique.symm.trans free)).symm
    refine ends_write (fun making => ?_) fun e raised => ?_
    · simp only [ends_bind, ends_tryCatch, run, ends_attempt, onValue_ok, onValue_error, pure_bind]
      refine ⟨fun ensuring => ok i unique making ensuring, fun e raised => ?_⟩
      split_ifs with interrupted
      · exact stranded i e unique (.inr ⟨making, .inl (interrupted ▸ raised)⟩)
      · rw [rmtree, deletes.claimed, ends_bind, ends_modify, onValue_ok, ends_throw, onValue_error,
          removeDir_makeDir (idTaken_of_freeId unique)]
        refine failed e fun j free => ⟨?_, fun quiet => quiet.not_raised (by simp) raised⟩
        rintro (⟨raised', -⟩ | ⟨-, raised' | ⟨quiet, -⟩⟩)
        · exact raised' making
        · exact interrupted (Option.some.inj (raised.symm.trans raised'))
        · rw [quiet] at raised
          cases raised
    · split_ifs with done
      · exact stranded i e unique (.inl ⟨by simp [raised], done⟩)
      · refine failed e fun j free => ⟨?_, fun quiet => quiet.not_raised (by simp) raised⟩
        rintro (⟨-, made⟩ | ⟨making, -⟩)
        · exact done made
        · rw [making] at raised
          cases raised

/-- The import gets to the directory of its instance. -/
structure Conditions.Claims (env : Conditions Json) (request : ZipRequest) (w : Workspace Json) (i : InstanceId) :
    Prop where
  quiet : env.Quiet [.validatingZip, .hashing]
  allows : env.Allows w request.pathAlias
  free : freeId env.raises w (env.slug request.name request.basis) request.onConflict = .ok i

/-- The shared routine returns once it has the id. -/
structure Conditions.Returns (env : Conditions Json) (request : ZipRequest) (i : InstanceId) : Prop where
  claimed : env.Quiet [.making, .ensuring, .starting]
  body : env.Completes request (env.slug request.name request.basis) i

/-- The shared routine returns with the instance, strands its directory, or leaves the workspace as before. -/
theorem ends_importZipLocked (deletes : env.Deletes) {request : ZipRequest}
    {post : Except Raised (ImportResult Json) → Workspace Json → Prop}
    (returned : ∀ i, env.Claims request w i → env.Returns request i → ∀ result t, result.instanceId = i →
      Imported i w t → post (.ok result) t)
    (stranded : ∀ i e, env.Claims request w i → env.Strands → post (.error e) (w.makeDir i))
    (failed : ∀ e, (∀ i, env.Claims request w i → ¬env.Strands ∧ ¬env.Returns request i) → post (.error e) w) :
    Ends (importZipLocked env request) w post := by
  unfold importZipLocked
  refine ends_run (fun validating => ?_) fun e raised =>
    failed e fun i claims => (claims.quiet.not_raised (by simp) raised).elim
  refine ends_run (fun hashing => ?_) fun e raised =>
    failed e fun i claims => (claims.quiet.not_raised (by simp) raised).elim
  refine ends_checkAlias (fun allows => ?_) fun e refused => failed e fun i claims => (refused claims.allows).elim
  have claims (i : InstanceId) (free : freeId env.raises w _ request.onConflict = .ok i) : env.Claims request w i :=
    ⟨by simp [Conditions.Quiet, validating, hashing], allows, free⟩
  refine ends_claimUniqueId deletes (fun i free making ensuring => ?_)
    (fun i e free strands => stranded i e (claims i free) strands) fun e unclaimed => ?_
  · refine ends_run (fun starting => ?_) fun e raised => ?_
    · rw [ends_tryCatch]
      refine ends_importInto (fun body result t mine imported => ?_) fun e t incomplete rest => ?_
      · have claimed : env.Quiet [.making, .ensuring, .starting] := by
          simp [Conditions.Quiet, making, ensuring, starting]
        exact returned i (claims i free) ⟨claimed, body⟩ result t mine
          ⟨imported.rest.trans (Workspace.without_makeDir w i), imported.saved, imported.row⟩
      · refine ends_cleanupFailed deletes ?_
        rw [rest, Workspace.without_makeDir, Workspace.without_of_free (idTaken_of_freeId free), ends_throw]
        refine failed _ fun j claims => ⟨?_, fun returns => ?_⟩
        · rintro (⟨raised, -⟩ | ⟨-, raised | ⟨-, raised⟩⟩)
          · exact raised making
          · rw [ensuring] at raised
            cases raised
          · exact raised starting
        · obtain rfl := Except.ok.inj (claims.free.symm.trans free)
          exact incomplete returns.body
    · exact stranded i e (claims i free) (.inr ⟨making, .inr ⟨ensuring, by simp [raised]⟩⟩)
  · refine failed e fun i claims => ⟨(unclaimed i claims.free).1, fun returns => (unclaimed i claims.free).2 ?_⟩
    exact fun step among => returns.claimed step (by simp at among ⊢; tauto)

end LocalWebAccess.ImportPipelines
