import LocalWebAccess.SharedImport

/-!
# What a failed import leaves

What the imports do after the shared routine has returned is undone in part only. An import that raises leaves
nothing behind exactly where none of the other steps raises.
-/
namespace LocalWebAccess.ImportPipelines
open FailingEffects KeyedTables

variable {Json : Type} {env : Conditions Json} {s t w : Workspace Json} {i : InstanceId}
variable {α : Type} {step : Step} {post : Except Raised α → Workspace Json → Prop}

/-! ## The sources -/

/-- An import of some kind. -/
inductive Source where
  | zip (request : ZipRequest)
  | folder (request : FolderRequest)
  | git (request : GitRequest)

namespace Source

/-- `import_zip`, `import_from_dir` or `import_from_git` -/
def run (env : Conditions Json) : Source → Effect Json (ImportResult Json)
  | zip request => importZip env request
  | folder request => importFromDir env request
  | git request => importFromGit env request

/-- The source identity of a manifest is the one of the import. -/
def Identifies (m : InstanceManifest Json) : Source → Prop
  | zip _ => m.sourceKind = "zip"
  | folder request => m.sourceKind = "folder" ∧ m.sourceDirPath = some request.sourceDir ∧
    m.sourceSyncHash = some request.syncHash
  | git request => m.sourceKind = "git" ∧ m.sourceDirPath = none ∧ m.sourceGitUrl = some request.url ∧
    m.sourceGitRef = some request.ref ∧ m.sourceGitRefKind = some request.refKind ∧
    m.sourceGitCommit = some request.commit ∧ m.sourceGitSubdir = request.subdir

end Source

/-- Nothing of an instance is there, and its id can be claimed. -/
structure NothingLeft (t : Workspace Json) (i : InstanceId) : Prop where
  directory : i ∉ t.apps
  row : i ∉ t.registry.instances
  children : ∀ row ∈ t.registry.children, row.instanceId ≠ some i
  routes : ∀ host, (host, i) ∉ t.registry.listRouteHosts
  claimable : freeId (fun _ => none) t i .error = .ok i

theorem nothingLeft_iff : NothingLeft t i ↔ t.idTaken i = false := by
  constructor
  · intro nothing
    exact Bool.or_eq_false_iff.mpr ⟨decide_eq_false nothing.row, decide_eq_false nothing.directory⟩
  · intro free
    obtain ⟨unregistered, unmade⟩ := Bool.or_eq_false_iff.mp free
    have unknown : i ∉ t.registry.instances := of_decide_eq_false unregistered
    refine ⟨of_decide_eq_false unmade, unknown, ?_, fun host => Registry.listRouteHosts_of_not_mem unknown, ?_⟩
    · exact fun row among mine => unknown (t.registry.referenced row among i mine)
    · rw [freeId, uniqueId]
      simp [free]

/-- An import that raises leaves nothing of an instance that was not there; one that returns has a manifest of its
source. -/
def Lawful (env : Conditions Json) (source : Source) (w : Workspace Json) : Prop :=
  Ends (source.run env) w (onValue
    (fun result t => ∃ m, t.apps.lookup result.instanceId = some (some m) ∧ source.Identifies m)
    fun _ t => ∀ i, w.idTaken i = false → NothingLeft t i)

/-- The archive in the temporary directory is removed, or cannot be. -/
def Conditions.Unlinks (env : Conditions Json) : Prop :=
  env.raises .unlinkingTemp = none ∨ env.raises .unlinkingTemp = some .osError

/-- The directory of an instance is made and stays, although the import raises. -/
def Conditions.LeavesBehind (env : Conditions Json) (request : ZipRequest) (w : Workspace Json) (later : Prop) : Prop :=
  ∃ i, env.Claims request w i ∧ (env.Strands ∨ env.Returns request i ∧ later)

/-- A step raises that no handler covers, with the instance already there. -/
def Conditions.Exposed (env : Conditions Json) (w : Workspace Json) : Source → Prop
  | .zip request => env.raises .locking = none ∧ env.LeavesBehind request w (env.raises .releasing ≠ none)
  | .folder request =>
    env.Quiet [.locking, .validatingSource, .hashingSource, .openingTemp, .packing] ∧
      env.LeavesBehind request.zip w (¬(env.Unlinks ∧
        env.Quiet [.loadingIdentity, .savingIdentity, .recordingIdentity, .closing, .releasing]))
  | .git request =>
    env.Quiet [.locking, .parsingUrl, .validatingSubdir, .openingTemp, .cloning, .resolvingRoot, .packing] ∧
      env.LeavesBehind request.zip w (env.Quiet [.loadingIdentity, .savingIdentity] ∧
        ¬(env.Unlinks ∧ env.Quiet [.leavingClone, .recordingIdentity, .closing, .releasing]))

/-- A last step that changes nothing, and raises unless the condition holds. -/
def Passes (last : Effect Json PUnit) (passed : Prop) : Prop :=
  ∀ t (post : Except Raised PUnit → Workspace Json → Prop),
    (passed → post (.ok ⟨⟩) t) → (¬passed → ∀ e, post (.error e) t) → Ends last t post

theorem passes_run (step : Step) : Passes (run env step) (env.raises step = none) := by
  intro t post ok failed
  exact ends_attempt.mpr ⟨ok, fun e raised => failed (by simp [raised]) e⟩

theorem passes_unlinkTemp : Passes (unlinkTemp env) env.Unlinks := by
  intro t post ok failed
  rw [unlinkTemp, ends_tryCatch, run, ends_attempt]
  refine ⟨fun quiet => ok (.inl quiet), fun e raised => ?_⟩
  rw [onValue_error]
  split_ifs with missing
  · exact ok (.inr (missing ▸ raised))
  · refine failed (fun unlinks => ?_) e
    rcases unlinks with quiet | other
    · rw [quiet] at raised
      cases raised
    · exact missing (Option.some.inj (raised.symm.trans other))

theorem ends_finalize_passes {last : Effect Json PUnit} {passed : Prop} {x : Effect Json α}
    (passes : Passes last passed)
    (ends : Ends x s (onValue (fun a t => (passed → post (.ok a) t) ∧ (¬passed → ∀ e, post (.error e) t))
      fun _ t => ∀ e, post (.error e) t)) :
    Ends (finalize x last) s post := by
  refine ends_finalize.mpr (ends.imp fun r t holds => ?_)
  cases r with
  | ok a => exact passes t _ holds.1 holds.2
  | error e => exact passes t _ (fun _ => holds e) fun _ => holds

theorem ends_withLock {body : Effect Json α}
    (ends : env.raises .locking = none → Ends body s (onValue
      (fun a t => (env.raises .releasing = none → post (.ok a) t) ∧
        (env.raises .releasing ≠ none → ∀ e, post (.error e) t))
      fun _ t => ∀ e, post (.error e) t))
    (failed : ∀ e, env.raises .locking = some e → post (.error e) s) : Ends (withLock env body) s post :=
  ends_run (fun locking => ends_finalize_passes (passes_run .releasing) (ends locking)) failed

theorem ends_loadManifest {m : InstanceManifest Json} {rest : InstanceManifest Json → Effect Json α}
    (saved : s.apps.lookup i = some (some m)) (ok : env.raises .loadingIdentity = none → Ends (rest m) s post)
    (failed : ∀ e, env.raises .loadingIdentity = some e → post (.error e) s) :
    Ends (loadManifest env i >>= rest) s post := by
  rw [ends_bind, loadManifest]
  refine ends_run (fun quiet => ?_) failed
  rw [ends_bind, ends_get, onValue_ok, saved]
  exact ok quiet

/-! ## Exposure -/

theorem Conditions.Returns.not_strands {request : ZipRequest} (returns : env.Returns request i) : ¬env.Strands := by
  rintro (⟨raised, -⟩ | ⟨-, raised | ⟨-, raised⟩⟩)
  · exact raised (returns.claimed _ (by simp))
  · exact returns.claimed.not_raised (by simp) raised
  · exact raised (returns.claimed _ (by simp))

theorem leavesBehind_iff {request : ZipRequest} {later : Prop} (claims : env.Claims request w i)
    (returns : env.Returns request i) : env.LeavesBehind request w later ↔ later := by
  constructor
  · rintro ⟨j, -, strands | ⟨-, holds⟩⟩
    · exact absurd strands returns.not_strands
    · exact holds
  · exact fun holds => ⟨i, claims, .inr ⟨returns, holds⟩⟩

theorem leavesBehind_of_strands {request : ZipRequest} {later : Prop} (claims : env.Claims request w i)
    (strands : env.Strands) : env.LeavesBehind request w later := ⟨i, claims, .inl strands⟩

theorem not_leavesBehind {request : ZipRequest} {later : Prop}
    (none : ∀ i, env.Claims request w i → ¬env.Strands ∧ ¬env.Returns request i) :
    ¬env.LeavesBehind request w later := by
  rintro ⟨i, claims, strands | ⟨returns, -⟩⟩
  · exact (none i claims).1 strands
  · exact (none i claims).2 returns

/-- The end of a run is as it should be exactly where the import is not exposed. -/
def Judged (env : Conditions Json) (source : Source) (w : Workspace Json) (r : Except Raised (ImportResult Json))
    (t : Workspace Json) : Prop :=
  onValue (fun result t => ∃ m, t.apps.lookup result.instanceId = some (some m) ∧ source.Identifies m)
    (fun _ t => ∀ i, w.idTaken i = false → NothingLeft t i) r t ↔ ¬env.Exposed w source

variable {source : Source}

theorem judged_unchanged (safe : ¬env.Exposed w source) (e : Raised) : Judged env source w (.error e) w :=
  iff_of_true (fun _ free => nothingLeft_iff.mpr free) safe

theorem judged_left (exposed : env.Exposed w source) (free : w.idTaken i = false) (there : i ∈ t.apps) (e : Raised) :
    Judged env source w (.error e) t :=
  iff_of_false (fun nothing => (nothing i free).directory there) fun safe => safe exposed

theorem judged_returned {result : ImportResult Json} {m : InstanceManifest Json} (safe : ¬env.Exposed w source)
    (saved : t.apps.lookup result.instanceId = some (some m)) (identifies : source.Identifies m) :
    Judged env source w (.ok result) t := iff_of_true ⟨m, saved, identifies⟩ safe

theorem Conditions.Claims.idTaken {request : ZipRequest} (claims : env.Claims request w i) : w.idTaken i = false :=
  idTaken_of_freeId claims.free

theorem Imported.mem (imported : Imported i s t) : i ∈ t.apps := by
  obtain ⟨m, saved, -⟩ := imported.saved
  exact AList.lookup_isSome.mp (by rw [saved]; rfl)

theorem mem_makeDir (w : Workspace Json) (i : InstanceId) : i ∈ (w.makeDir i).apps :=
  (AList.mem_insert w.apps).mpr (.inl rfl)

theorem judged_zip (deletes : env.Deletes) (request : ZipRequest) :
    Ends (importZip env request) w (Judged env (.zip request) w) := by
  refine ends_withLock (fun locking => ?_) fun e raised => judged_unchanged (fun exposed => ?_) e
  · have exposed : env.Exposed w (.zip request) ↔ env.LeavesBehind request w (env.raises .releasing ≠ none) :=
      and_iff_right locking
    refine ends_importZipLocked deletes (fun i claims returns result t mine imported => ?_)
      (fun i e claims strands e' => ?_) fun e unclaimed e' => ?_
    · have judged := exposed.trans (leavesBehind_iff claims returns)
      refine ⟨fun released => ?_, fun raised => judged_left (judged.mpr raised) claims.idTaken imported.mem⟩
      obtain ⟨m, saved, zip⟩ := imported.saved
      exact judged_returned (fun holds => judged.mp holds released) (mine ▸ saved) zip
    · exact judged_left (exposed.mpr (leavesBehind_of_strands claims strands)) claims.idTaken (mem_makeDir w i) e'
    · exact judged_unchanged (fun holds => not_leavesBehind unclaimed (exposed.mp holds)) e'
  · rw [exposed.1] at raised
    cases raised

/-- The save of an identity. -/
theorem mem_save (w : Workspace Json) (i : InstanceId) (m : InstanceManifest Json) : i ∈ (w.save i m).apps :=
  (AList.mem_insert w.apps).mpr (.inl rfl)

theorem judged_folder (deletes : env.Deletes) (request : FolderRequest) :
    Ends (importFromDir env request) w (Judged env (.folder request) w) := by
  have unchanged {step : Step} {e : Raised} (raised : env.raises step = some e)
      (among : step ∈ [Step.locking, .validatingSource, .hashingSource, .openingTemp, .packing]) (e' : Raised) :
      Judged env (.folder request) w (.error e') w :=
    judged_unchanged (fun exposed : env.Exposed w (.folder request) => exposed.1.not_raised among raised) e'
  refine ends_withLock (fun locking => ?_) fun e raised => unchanged raised (by simp) e
  unfold importFromDirLocked
  refine ends_run (fun validating => ?_) fun e raised e' => unchanged raised (by simp) e'
  refine ends_run (fun hashing => ?_) fun e raised e' => unchanged raised (by simp) e'
  refine ends_run (fun opening => ?_) fun e raised e' => unchanged raised (by simp) e'
  rw [ends_bind]
  refine ends_finalize_passes passes_unlinkTemp
    (ends_run (fun packing => ?_) fun e raised _ e' => unchanged raised (by simp) e')
  have exposed : env.Exposed w (.folder request) ↔ env.LeavesBehind request.zip w (¬(env.Unlinks ∧
      env.Quiet [.loadingIdentity, .savingIdentity, .recordingIdentity, .closing, .releasing])) :=
    and_iff_right (by simp [Conditions.Quiet, locking, validating, hashing, opening, packing])
  refine ends_importZipLocked deletes (fun i claims returns result t mine imported => ?_)
    (fun i e claims strands _ e' => ?_) fun e unclaimed _ e' => ?_
  · have judged := exposed.trans (leavesBehind_iff claims returns)
    have left {step : Step} {e : Raised} (raised : env.raises step = some e)
        (among : step ∈ [Step.loadingIdentity, .savingIdentity, .recordingIdentity, .closing, .releasing])
        {u : Workspace Json} (there : i ∈ u.apps) (e' : Raised) : Judged env (.folder request) w (.error e') u :=
      judged_left (judged.mpr fun passed => passed.2.not_raised among raised) claims.idTaken there e'
    obtain ⟨m, saved, -⟩ := imported.saved
    refine ⟨fun unlinks => ?_, fun fails e e' =>
      judged_left (judged.mpr fun passed => fails passed.1) claims.idTaken imported.mem e'⟩
    rw [onValue_ok, mine]
    have there (change : Registry → Registry) : i ∈ ((t.save i (request.identity env.now m)).record change).apps :=
      mem_save t i _
    refine ends_loadManifest saved (fun loading => ?_) fun e raised e' => left raised (by simp) imported.mem e'
    refine ends_write (fun saving => ?_) fun e raised e' => left raised (by simp) ?_ e'
    · refine ends_insertRow rfl imported.row (fun recording => ?_) fun e raised e' => left raised (by simp) ?_ e'
      · refine ends_run (fun closing => ends_pure.mpr ⟨fun releasing => ?_, fun raised e => ?_⟩) fun e raised e' =>
          left raised (by simp) (there _) e'
        · have named : (t.save i (request.identity env.now m)).apps.lookup result.instanceId =
              some (some (request.identity env.now m)) := by
            rw [mine]
            exact AList.lookup_insert _
          refine judged_returned (fun holds => judged.mp holds ⟨unlinks, ?_⟩) named ⟨rfl, rfl, rfl⟩
          simp [Conditions.Quiet, loading, saving, recording, closing, releasing]
        · exact judged_left (judged.mpr fun passed => raised (passed.2 _ (by simp))) claims.idTaken (there _) e
      · split_ifs
        · exact there _
        · exact there id
    · split_ifs
      · exact there id
      · exact imported.mem
  · exact judged_left (exposed.mpr (leavesBehind_of_strands claims strands)) claims.idTaken (mem_makeDir w i) e'
  · exact judged_unchanged (fun holds => not_leavesBehind unclaimed (exposed.mp holds)) e'

/-- The identity is written, or the import is undone. -/
theorem ends_writeGitIdentity (deletes : env.Deletes) {request : GitRequest} {result : ImportResult Json}
    {post : Except Raised (ImportResult Json) → Workspace Json → Prop} (imported : Imported result.instanceId s t)
    (free : s.idTaken result.instanceId = false)
    (ok : env.Quiet [.loadingIdentity, .savingIdentity] → ∀ result' u, result'.instanceId = result.instanceId →
      result.instanceId ∈ u.registry.instances →
        (∃ m, u.apps.lookup result.instanceId = some (some m) ∧ (Source.git request).Identifies m) →
          post (.ok result') u)
    (failed : ∀ e, ¬env.Quiet [.loadingIdentity, .savingIdentity] → post (.error e) s) :
    Ends (writeGitIdentity env request result) t post := by
  obtain ⟨m, saved, -⟩ := imported.saved
  have undone {u : Workspace Json} (rest : u.without result.instanceId = t.without result.instanceId) (e : Raised)
      (loud : ¬env.Quiet [.loadingIdentity, .savingIdentity]) :
      Ends (do
        cleanupFailed env result.instanceId
        throw (if e = .interrupt then e else .zipImport) : Effect Json (ImportResult Json)) u post := by
    refine ends_cleanupFailed deletes ?_
    rw [rest, imported.rest, Workspace.without_of_free free, ends_throw]
    exact failed _ loud
  rw [writeGitIdentity, ends_tryCatch]
  refine ends_loadManifest saved (fun loading => ?_) fun e raised =>
    undone rfl e fun quiet => quiet.not_raised (by simp) raised
  refine ends_write (fun saving => ?_) fun e raised =>
    undone (without_done (Workspace.without_save t _ _)) e fun quiet => quiet.not_raised (by simp) raised
  refine ends_pure.mpr (ok (by simp [Conditions.Quiet, loading, saving]) _ _ rfl imported.row ?_)
  exact ⟨_, AList.lookup_insert _, rfl, rfl, rfl, rfl, rfl, rfl, rfl⟩

theorem judged_git (deletes : env.Deletes) (request : GitRequest) :
    Ends (importFromGit env request) w (Judged env (.git request) w) := by
  have unchanged {step : Step} {e : Raised} (raised : env.raises step = some e)
      (among : step ∈ [Step.locking, .parsingUrl, .validatingSubdir, .openingTemp, .cloning, .resolvingRoot, .packing])
      (e' : Raised) : Judged env (.git request) w (.error e') w :=
    judged_unchanged (fun exposed : env.Exposed w (.git request) => exposed.1.not_raised among raised) e'
  refine ends_withLock (fun locking => ?_) fun e raised => unchanged raised (by simp) e
  unfold importFromGitLocked
  refine ends_run (fun parsing => ?_) fun e raised e' => unchanged raised (by simp) e'
  refine ends_run (fun validating => ?_) fun e raised e' => unchanged raised (by simp) e'
  refine ends_run (fun opening => ?_) fun e raised e' => unchanged raised (by simp) e'
  rw [ends_bind]
  refine ends_finalize_passes passes_unlinkTemp
    (ends_run (fun cloning => ?_) fun e raised _ e' => unchanged raised (by simp) e')
  refine ends_finalize_passes (passes_run .leavingClone)
    (ends_run (fun resolving => ?_) fun e raised _ _ e' => unchanged raised (by simp) e')
  refine ends_run (fun packing => ?_) fun e raised _ _ e' => unchanged raised (by simp) e'
  have exposed : env.Exposed w (.git request) ↔ env.LeavesBehind request.zip w
      (env.Quiet [.loadingIdentity, .savingIdentity] ∧
        ¬(env.Unlinks ∧ env.Quiet [.leavingClone, .recordingIdentity, .closing, .releasing])) :=
    and_iff_right (by simp [Conditions.Quiet, locking, parsing, validating, opening, cloning, resolving, packing])
  rw [ends_bind]
  refine ends_importZipLocked deletes (fun i claims returns result t mine imported => ?_)
    (fun i e claims strands _ _ e' => ?_) fun e unclaimed _ _ e' => ?_
  · subst mine
    have judged := exposed.trans (leavesBehind_iff claims returns)
    rw [onValue_ok]
    refine ends_writeGitIdentity deletes imported claims.idTaken (fun quiet result' u mine row identity => ?_) ?_
    case refine_2 => exact fun e loud _ _ e' => judged_unchanged (fun holds => loud (judged.mp holds).1) e'
    obtain ⟨m, saved, identifies⟩ := identity
    have left (change : Registry → Registry) (e : Raised)
        (fails : ¬(env.Unlinks ∧ env.Quiet [.leavingClone, .recordingIdentity, .closing, .releasing])) :
        Judged env (.git request) w (.error e) (u.record change) :=
      judged_left (judged.mpr ⟨quiet, fails⟩) claims.idTaken (AList.lookup_isSome.mp (by
        rw [show (u.record change).apps.lookup result.instanceId = _ from saved]
        rfl)) e
    refine ⟨fun leaving => ⟨fun unlinks => ?_, fun fails e e' => left id e' fun passed => fails passed.1⟩,
      fun raised _ _ e => left id e fun passed => raised (passed.2 _ (by simp))⟩
    rw [onValue_ok, mine]
    refine ends_insertRow rfl row (fun recording => ?_) fun e raised e' => ?_
    · refine ends_run (fun closing => ends_pure.mpr ⟨fun releasing => ?_, fun raised e => ?_⟩) fun e raised e' =>
        left _ e' fun passed => passed.2.not_raised (by simp) raised
      · refine judged_returned (fun holds => (judged.mp holds).2 ⟨unlinks, ?_⟩) (by rwa [mine]) identifies
        simp [Conditions.Quiet, leaving, recording, closing, releasing]
      · exact left _ e fun passed => raised (passed.2 _ (by simp))
    · split_ifs
      · exact left _ e' fun passed => passed.2.not_raised (by simp) raised
      · exact left id e' fun passed => passed.2.not_raised (by simp) raised
  · exact judged_left (exposed.mpr (leavesBehind_of_strands claims strands)) claims.idTaken (mem_makeDir w i) e'
  · exact judged_unchanged (fun holds => not_leavesBehind unclaimed (exposed.mp holds)) e'

/-- An import that fails leaves nothing behind, and one that returns has the identity of its source: exactly where no
step raises that its handlers do not cover. -/
theorem import_lawful_iff (env : Conditions Json) (deletes : env.Deletes) (source : Source) (w : Workspace Json) :
    Lawful env source w ↔ ¬env.Exposed w source := by
  cases source with
  | zip request => exact judged_zip deletes request
  | folder request => exact judged_folder deletes request
  | git request => exact judged_git deletes request

/-! ## A folder -/

/-- A static page, on which no step raises. -/
def page : Conditions Unit where
  raises _ := none
  done _ := false
  importer :=
    { truthy := fun _ => true
      generatePlans := fun _ => .ok []
      dumpPlan := fun _ => ()
      dumpContract := fun _ => ()
      appOriginalZip := id
      appCurrent := id
      appComposePath := id
      appDockerfilePath := id
      nowIso := "2026-01-01" }
  slug _ stem := stem
  titleize slug := slug
  zipHash := "3f2a"
  text _ := ()
  aliasAllowed _ := true
  caddy := true
  detection := { kind := some .static, runtime := some .sharedStatic, servingMode := some .sharedStatic }
  form _ := "static"
  pageTitle := some "Docs"
  aliasExempt := none
  findings := []
  dumpFinding _ := ()
  sourceSize := 120
  dataSize := 0
  envExample := false
  envFiles := []
  sanitized := none
  now := "2026-01-01"

def docs : FolderRequest where
  sourceDir := "/srv/docs"
  dirName := "docs"
  syncHash := "9c41"
  tempStem := "lwa-folder-import"
  name := none
  pathAlias := none
  onConflict := .rename

def created : Workspace Unit := ⟨∅, ⟨[], [], by simp⟩⟩

/-- The page, where one step raises. -/
def failing (step : Step) (raised : Raised) : Conditions Unit :=
  { page with raises := fun other => if other = step then some raised else none }

/-- An interrupt of the upsert is undone. -/
theorem import_lawful_interrupted : Lawful (failing .upserting .interrupt) (.folder docs) created := by
  have deletes : (failing .upserting .interrupt).Deletes := ⟨by decide, by decide, by decide⟩
  refine (import_lawful_iff (failing .upserting .interrupt) deletes (.folder docs) created).mpr ?_
  rintro ⟨-, i, -, strands | ⟨returns, -⟩⟩
  · rcases strands with ⟨raised, -⟩ | ⟨-, raised | ⟨-, raised⟩⟩
    · exact raised (by decide)
    · exact absurd raised (by decide)
    · exact raised (by decide)
  · exact absurd (returns.body.quiet .upserting (by simp)) (by decide)

/-- The identity of the folder cannot be saved, and the instance stays as one of an archive. -/
theorem identity_not_saved : ¬Lawful (failing .savingIdentity .osError) (.folder docs) created := by
  intro lawful
  have nothing : NothingLeft _ "docs" := lawful "docs" (by decide)
  exact nothing.directory (by decide +kernel)

end LocalWebAccess.ImportPipelines
