import LocalWebAccess.DeploymentAttempts

/-!
# What the rollback of a failed attempt restores

The rollback writes back the texts of the files, releases ports and assigns the
fields that are truthy in the snapshot. A file comes back as it was where it is a
text without carriage returns that could be read, a field where it had a value or
the plan has not set it, and the ports where the attempt has lost none of them.
-/
namespace LocalWebAccess.DeploymentAttempts
open RaisingPrograms Prog PythonText

variable {Json Rest Columns : Type} {env : Env Json Rest Columns} {plan : PlanDict Json}
  {s t u : State Json Rest Columns}

/-- The fields that a candidate may change have the same values. -/
structure SameFields (m n : Manifest Json Rest) : Prop where
  kind : n.kind = m.kind
  runtime : n.runtime = m.runtime
  servingMode : n.servingMode = m.servingMode
  entry : n.entry = m.entry
  sourceSubdir : n.sourceSubdir = m.sourceSubdir
  container : n.container = m.container
  network : n.network = m.network
  selectedPlanId : n.selectedPlanId = m.selectedPlanId
  selectedPlanHash : n.selectedPlanHash = m.selectedPlanHash
  capabilityContract : n.capabilityContract = m.capabilityContract

/-- The state of an instance is the one from before the attempt. -/
structure Restored (before after : State Json Rest Columns) : Prop where
  files : after.files = before.files
  manifest : SameFields before.manifest after.manifest
  saved : SameFields before.manifest after.saved
  rows : after.rows = before.rows

/-- A rollback of a failed attempt that reports no residual items has restored the prepared state. -/
def RestoresExactly (env : Env Json Rest Columns) (plan : PlanDict Json) (s : State Json Rest Columns) : Prop :=
  ∀ exc t, applyPlanAndHost env plan s = (.error exc, t) →
    ∀ attemptId report u, rollbackAttempt env attemptId (snapshotAttempt env s) t = (.ok report, u) →
      report.rollbackSucceeded → report.residualItems = [] → Restored s u

/-! ## How far an attempt gets -/

/-- The plan sets the selected plan of the manifest. -/
def PlanDict.named (plan : PlanDict Json) : Bool := plan.components.isSome && present plan.planId

namespace Env

variable (env : Env Json Rest Columns) (plan : PlanDict Json)

/-- The attempt gets to the contract of the plan. -/
def reachesContract : Bool := plan.components.isSome && (!present plan.planId || (env.fault .addPlanEvent).isNone)

/-- The attempt gets to the subdirectory of the candidate. -/
def reachesSubdir : Bool :=
  (plan.components.isNone || env.reachesContract plan) &&
    (plan.candidate.entry.isNone || (env.fault .entryConfig).isNone)

def reachesHost : Bool := env.reachesSubdir plan && (env.fault .saveCandidate).isNone

def fails : Bool := !env.reachesHost plan || env.hostRun.raises.isSome

def filesLeft (s : State Json Rest Columns) : Files := if env.reachesHost plan then env.hostRun.files else s.files

def rowsLeft (s : State Json Rest Columns) : List (PortRow Columns) :=
  if env.reachesHost plan then env.hostRun.rows else s.rows

end Env

/-- What an attempt leaves, as far as the rollback does not overwrite it anyway. -/
structure Left (env : Env Json Rest Columns) (plan : PlanDict Json) (s t : State Json Rest Columns) : Prop where
  files : t.files = env.filesLeft plan s
  rows : t.rows = env.rowsLeft plan s
  containerStarted : t.containerStarted = if env.reachesHost plan then env.hostRun.startsContainer else s.containerStarted
  container : t.manifest.container = s.manifest.container
  sourceSubdir : t.manifest.sourceSubdir =
    if env.reachesSubdir plan then plan.candidate.sourceSubdir.getD s.manifest.sourceSubdir else s.manifest.sourceSubdir
  selectedPlanId : t.manifest.selectedPlanId = if plan.named then plan.planId else s.manifest.selectedPlanId
  selectedPlanHash : t.manifest.selectedPlanHash =
    if plan.named then some (env.planFingerprint plan) else s.manifest.selectedPlanHash
  capabilityContract : t.manifest.capabilityContract =
    if env.reachesContract plan && plan.contract.truthy then some plan.contract else s.manifest.capabilityContract

theorem setShape_frame (manifest : Manifest Json Rest) (candidate : PlanDict Json) :
    ∃ kind runtime servingMode, manifest.setShape candidate =
      { manifest with kind := kind, runtime := runtime, servingMode := servingMode } := by
  unfold Manifest.setShape
  cases Runtime.ofValue (replaceChar '_' '-' (replaceChar '-' '_' (candidate.runtime.getD ""))) with
  | none => exact ⟨_, _, _, rfl⟩
  | some runtime => exact ⟨_, _, _, rfl⟩

/-- The entry, the subdirectory and the save of a candidate. -/
theorem applyCandidate_apply (env : Env Json Rest Columns) (candidate : PlanDict Json) (s : State Json Rest Columns) :
    ∃ kind runtime servingMode entry updatedAt saved,
      (applyCandidate env candidate s).2 = { s with
        manifest := { s.manifest with
          kind := kind, runtime := runtime, servingMode := servingMode, entry := entry, updatedAt := updatedAt
          sourceSubdir := if candidate.entry.isNone || (env.fault .entryConfig).isNone then
            candidate.sourceSubdir.getD s.manifest.sourceSubdir else s.manifest.sourceSubdir }
        saved := saved } ∧
      (applyCandidate env candidate s).1.isOk =
        ((candidate.entry.isNone || (env.fault .entryConfig).isNone) && (env.fault .saveCandidate).isNone) := by
  obtain ⟨kind, runtime, servingMode, shape⟩ := setShape_frame s.manifest candidate
  unfold applyCandidate
  simp only [bind_apply, modify_apply, shape]
  cases candidate.entry with
  | none =>
    cases env.fault .saveCandidate with
    | none => exact ⟨kind, runtime, servingMode, _, _, _, rfl, rfl⟩
    | some exc => exact ⟨kind, runtime, servingMode, _, _, _, rfl, rfl⟩
  | some entry =>
    cases env.fault .entryConfig with
    | some exc => exact ⟨kind, runtime, servingMode, _, _, _, rfl, rfl⟩
    | none =>
      cases env.fault .saveCandidate with
      | none => exact ⟨kind, runtime, servingMode, _, _, _, rfl, rfl⟩
      | some exc => exact ⟨kind, runtime, servingMode, _, _, _, rfl, rfl⟩

/-- The selection of a plan, which a flat candidate skips. -/
theorem select_apply (env : Env Json Rest Columns) (plan : PlanDict Json) (s : State Json Rest Columns) :
    ((if plan.components.isSome then selectPlan env plan else pure ()) s).2 =
      { s with manifest := { s.manifest with
        selectedPlanId := if plan.named then plan.planId else s.manifest.selectedPlanId
        selectedPlanHash := if plan.named then some (env.planFingerprint plan) else s.manifest.selectedPlanHash
        capabilityContract := if env.reachesContract plan && plan.contract.truthy then some plan.contract
          else s.manifest.capabilityContract } } ∧
      ((if plan.components.isSome then selectPlan env plan else pure ()) s).1.isOk =
        (plan.components.isNone || env.reachesContract plan) := by
  unfold selectPlan PlanDict.named Env.reachesContract
  cases plan.components with
  | none => exact ⟨rfl, rfl⟩
  | some components =>
    cases present plan.planId with
    | false => exact ⟨rfl, rfl⟩
    | true =>
      cases env.fault .addPlanEvent with
      | none => exact ⟨rfl, rfl⟩
      | some exc => exact ⟨rfl, rfl⟩

theorem host_apply (env : Env Json Rest Columns) (s : State Json Rest Columns) :
    (host env s).2 = { s with
      saved := env.hostRun.saved
      files := env.hostRun.files
      rows := env.hostRun.rows
      containerStarted := env.hostRun.startsContainer } ∧
      (host env s).1.isOk = env.hostRun.raises.isNone := by
  unfold host
  cases env.hostRun.raises with
  | none => simp [bind_apply, Except.isOk, Except.toBool]
  | some exc => simp [bind_apply, Except.isOk, Except.toBool]

/-- The state that an attempt leaves, and whether it fails. -/
theorem applyPlanAndHost_apply (env : Env Json Rest Columns) (plan : PlanDict Json) (s : State Json Rest Columns) :
    Left env plan s (applyPlanAndHost env plan s).2 ∧ (applyPlanAndHost env plan s).1.isOk = !env.fails plan := by
  unfold applyPlanAndHost applyCandidateAndHost
  obtain ⟨selected, selects⟩ := select_apply env plan s
  rcases run : (if plan.components.isSome then selectPlan env plan else pure ()) s with ⟨exc | _, t⟩
  · rw [run] at selected selects
    subst selected
    have stops : (plan.components.isNone || env.reachesContract plan) = false := selects.symm
    have early : env.reachesSubdir plan = false := by rw [Env.reachesSubdir, stops, Bool.false_and]
    have unhosted : env.reachesHost plan = false := by rw [Env.reachesHost, early, Bool.false_and]
    rw [bind_of_error run]
    refine ⟨⟨?_, ?_, ?_, rfl, ?_, rfl, rfl, rfl⟩, ?_⟩
    · rw [Env.filesLeft, unhosted]; rfl
    · rw [Env.rowsLeft, unhosted]; rfl
    · rw [unhosted]; rfl
    · rw [early]; rfl
    · rw [Env.fails, unhosted]; rfl
  · rw [run] at selected selects
    have goes : (plan.components.isNone || env.reachesContract plan) = true := selects.symm
    rw [bind_of_ok run]
    obtain ⟨kind, runtime, servingMode, entry, updatedAt, saved, applied, applies⟩ :=
      applyCandidate_apply env plan.candidate t
    have subdir : env.reachesSubdir plan = (plan.candidate.entry.isNone || (env.fault .entryConfig).isNone) := by
      rw [Env.reachesSubdir, goes, Bool.true_and]
    rw [← subdir] at applied applies
    subst selected
    rcases run' : applyCandidate env plan.candidate _ with ⟨exc | _, u⟩
    · rw [run'] at applied applies
      subst applied
      have unhosted : env.reachesHost plan = false := applies.symm
      rw [bind_of_error run']
      refine ⟨⟨?_, ?_, ?_, rfl, rfl, rfl, rfl, rfl⟩, ?_⟩
      · rw [Env.filesLeft, unhosted]; rfl
      · rw [Env.rowsLeft, unhosted]; rfl
      · rw [unhosted]; rfl
      · rw [Env.fails, unhosted]; rfl
    · rw [run'] at applied applies
      have hosted : env.reachesHost plan = true := applies.symm
      subst applied
      rw [bind_of_ok run']
      obtain ⟨left, returns⟩ := host_apply env _
      rw [left, returns]
      refine ⟨⟨?_, ?_, ?_, rfl, rfl, rfl, rfl, rfl⟩, ?_⟩
      · rw [Env.filesLeft, hosted]; rfl
      · rw [Env.rowsLeft, hosted]; rfl
      · rw [hosted]; rfl
      · rw [Env.fails, hosted]
        cases env.hostRun.raises <;> rfl

/-! ## What a rollback leaves -/

namespace Env

variable (env : Env Json Rest Columns) (texts : SnapshotFile → Option String)

/-- What the rollback makes of a file. -/
def leaves (files : Files) (file : SnapshotFile) : Option ByteArray :=
  match texts file with
  | some text => if (env.fault (.restoreFile file)).isNone then some (writeText text) else env.torn file
  | none => if (env.fault (.removeFile file)).isNone then none else files file

/-- The rollback of a file fails. -/
def stuck (files : Files) (file : SnapshotFile) : Bool :=
  match texts file with
  | some _ => (env.fault (.restoreFile file)).isSome
  | none => (files file).isSome && (env.fault (.removeFile file)).isSome

/-- The ports that the rollback releases, out of those it finds. -/
def released (known ports : List ℕ) : List ℕ :=
  (ports.filter (· ∉ known)).takeWhile fun port => (env.fault (.release port)).isNone

end Env

theorem restoreFile_apply (env : Env Json Rest Columns) (snapshot : Snapshot Json) (file : SnapshotFile)
    (s : State Json Rest Columns) :
    ∃ items, restoreFile env snapshot file s =
        (.ok items, { s with files := Function.update s.files file (env.leaves snapshot.files s.files file) }) ∧
      (items.residuals = [] ↔ env.stuck snapshot.files s.files file = false) := by
  unfold restoreFile Env.leaves Env.stuck
  cases snapshot.files file with
  | some text =>
    cases env.fault (.restoreFile file) with
    | none => exact ⟨_, rfl, by simp⟩
    | some exc => exact ⟨_, rfl, by simp⟩
  | none =>
    cases found : s.files file with
    | none =>
      have same : (if (env.fault (.removeFile file)).isNone then none else none : Option ByteArray) = s.files file := by
        rw [found, ite_self]
      exact ⟨{}, by simp only [same, Function.update_eq_self]; rfl, by simp⟩
    | some content =>
      cases env.fault (.removeFile file) with
      | none => exact ⟨_, rfl, by simp⟩
      | some exc =>
        have same : Function.update s.files file (some content) = s.files := by
          rw [← found, Function.update_eq_self]
        exact ⟨_, by simp [same]; rfl, by simp⟩

theorem restoreFiles_apply (env : Env Json Rest Columns) (snapshot : Snapshot Json) (files : List SnapshotFile)
    (distinct : files.Nodup) (s : State Json Rest Columns) :
    ∃ items, restoreFiles env snapshot files s = (.ok items, { s with
        files := fun file => if file ∈ files then env.leaves snapshot.files s.files file else s.files file }) ∧
      (items.residuals = [] ↔ ∀ file ∈ files, env.stuck snapshot.files s.files file = false) := by
  induction files generalizing s with
  | nil => exact ⟨{}, by simp [restoreFiles], by simp⟩
  | cons file rest ih =>
    obtain ⟨new, distinct⟩ := List.nodup_cons.mp distinct
    obtain ⟨items, run, clean⟩ := restoreFile_apply env snapshot file s
    obtain ⟨more, run', clean'⟩ := ih distinct
      { s with files := Function.update s.files file (env.leaves snapshot.files s.files file) }
    have other : ∀ file' ∈ rest, file' ≠ file := fun file' listed same => new (same ▸ listed)
    refine ⟨items.append more, ?_, ?_⟩
    · unfold restoreFiles
      rw [bind_of_ok run, bind_of_ok run', pure_apply]
      congr 2
      funext file'
      by_cases same : file' = file
      · subst same
        simp [new]
      · simp [same, Env.leaves]
    · change items.residuals ++ more.residuals = [] ↔ _
      rw [List.append_eq_nil_iff, clean, clean', List.forall_mem_cons]
      refine and_congr_right fun _ => forall₂_congr fun file' listed => ?_
      simp [Env.stuck, other file' listed]

theorem releasePorts_apply (env : Env Json Rest Columns) (known ports : List ℕ) (s : State Json Rest Columns) :
    ∃ items, releasePorts env known ports s =
        (.ok items, { s with rows := s.rows.filter (·.1 ∉ env.released known ports) }) ∧
      items.residuals = [] := by
  induction ports generalizing s with
  | nil => exact ⟨{}, by simp [releasePorts, Env.released], rfl⟩
  | cons port ports ih =>
    unfold releasePorts
    by_cases kept : port ∈ known
    · obtain ⟨items, run, none⟩ := ih s
      have same : env.released known (port :: ports) = env.released known ports := by
        simp [Env.released, kept]
      exact ⟨items, by simp [kept, run, same], none⟩
    · cases fault : env.fault (.release port) with
      | some exc =>
        have none : env.released known (port :: ports) = [] := by
          simp [Env.released, kept, fault]
        exact ⟨{}, by simp [kept, none], rfl⟩
      | none =>
        obtain ⟨items, run, none⟩ := ih { s with rows := s.rows.filter (·.1 ≠ port) }
        have first : env.released known (port :: ports) = port :: env.released known ports := by
          simp [Env.released, kept, fault]
        refine ⟨Items.append { restored := ["port"] } items, ?_, none⟩
        simp only [kept, if_false, Option.isSome_none, Bool.false_eq_true, bind_apply, modify_apply, run, pure_apply,
          first, List.filter_filter, List.mem_cons, not_or]
        congr 3
        funext row
        simp [Bool.and_comm]

/-! ## The whole rollback -/

/-- What the rollback leaves. -/
def Env.rolledBack (env : Env Json Rest Columns) (snapshot : Snapshot Json) (t : State Json Rest Columns) :
    State Json Rest Columns :=
  let manifest := { restoreFields snapshot.manifestFields t.manifest with updatedAt := env.restoredAt }
  { t with
    manifest := manifest
    saved := if (env.fault .saveRestored).isNone then manifest else t.saved
    files := env.leaves snapshot.files t.files
    rows := t.rows.filter (·.1 ∉ env.released snapshot.ports (instancePortsSafe (env.fault .portsAfter) t.rows)) }

/-- No step of the rollback that is needed fails. -/
structure Clean (env : Env Json Rest Columns) (texts : SnapshotFile → Option String) (files : Files) : Prop where
  container : env.isRunning = .ok true → env.fault .down = none
  files : ∀ file, env.stuck texts files file = false
  saved : env.fault .saveRestored = none

theorem rollbackContainer_clean (env : Env Json Rest Columns) :
    (rollbackContainer env).residuals = [] ↔ (env.isRunning = .ok true → env.fault .down = none) := by
  unfold rollbackContainer
  cases env.isRunning with
  | error exc => simp
  | ok running =>
    cases running with
    | false => simp
    | true => cases env.fault .down <;> simp

theorem restoreManifest_apply (env : Env Json Rest Columns) (snapshot : Snapshot Json) (s : State Json Rest Columns) :
    ∃ items, restoreManifest env snapshot s = (.ok items, { s with
        manifest := { restoreFields snapshot.manifestFields s.manifest with updatedAt := env.restoredAt }
        saved := if (env.fault .saveRestored).isNone then
          { restoreFields snapshot.manifestFields s.manifest with updatedAt := env.restoredAt } else s.saved }) ∧
      (items.residuals = [] ↔ env.fault .saveRestored = none) ∧ (items.residuals = [] → items.restored ≠ []) := by
  unfold restoreManifest
  cases env.fault .saveRestored with
  | none => exact ⟨_, rfl, by simp, by simp⟩
  | some exc => exact ⟨_, rfl, by simp, by simp⟩

/-- What a rollback reports, and what it leaves. -/
theorem rollbackAttempt_apply (env : Env Json Rest Columns) (attemptId : String) (snapshot : Snapshot Json)
    (t : State Json Rest Columns) :
    ∃ report, rollbackAttempt env attemptId snapshot t = (.ok report, env.rolledBack snapshot t) ∧
      (report.residualItems = [] ↔ Clean env snapshot.files t.files) ∧
      (report.rollbackSucceeded ↔ Clean env snapshot.files t.files) ∧
      report.automaticFallbackSafe = (report.rollbackSucceeded &&
        (!containerWasRunning env ||
          !((env.rolledBack snapshot t).manifest.capabilityContract.bind (·.requiresMigrations)).getD false) &&
        env.autoRecoverable) := by
  obtain ⟨ports, released, portsClean⟩ := releasePorts_apply env snapshot.ports
    (instancePortsSafe (env.fault .portsAfter) t.rows) t
  change _ = (_, { t with rows := (env.rolledBack snapshot t).rows }) at released
  obtain ⟨files, written, filesClean⟩ := restoreFiles_apply env snapshot
    [.dockerfile, .composeYaml, .env, .staticWsgi, .aliasConf] (by decide)
    { t with rows := (env.rolledBack snapshot t).rows }
  have every : ∀ file, file ∈ [SnapshotFile.dockerfile, .composeYaml, .env, .staticWsgi, .aliasConf] := by
    intro file
    cases file <;> decide
  simp only [every, if_true] at written
  simp only [every, forall_const] at filesClean
  obtain ⟨manifest, restored, manifestClean, listed⟩ := restoreManifest_apply env snapshot
    { t with files := env.leaves snapshot.files t.files, rows := (env.rolledBack snapshot t).rows }
  have residuals : ((((rollbackContainer env).append ports).append (files.append manifest)).residuals = []) ↔
      Clean env snapshot.files t.files := by
    simp only [Items.append, portsClean, List.append_nil, List.append_eq_nil_iff, rollbackContainer_clean, filesClean,
      manifestClean]
    exact ⟨fun ⟨container, files, saved⟩ => ⟨container, files, saved⟩,
      fun clean => ⟨clean.container, clean.files, clean.saved⟩⟩
  have run : ∃ report, rollbackAttempt env attemptId snapshot t = (.ok report, env.rolledBack snapshot t) ∧
      report.residualItems = (((rollbackContainer env).append ports).append (files.append manifest)).residuals ∧
      report.rollbackSucceeded =
        ((!(((rollbackContainer env).append ports).append (files.append manifest)).restored.isEmpty ||
          !env.hasActiveResources) && report.residualItems.isEmpty) ∧
      report.automaticFallbackSafe = (report.rollbackSucceeded &&
        (!containerWasRunning env ||
          !((env.rolledBack snapshot t).manifest.capabilityContract.bind (·.requiresMigrations)).getD false) &&
        env.autoRecoverable) := by
    unfold rollbackAttempt restoreFromSnapshot
    simp only [bind_apply, get_apply, released, written, restored, pure_apply]
    exact ⟨_, rfl, rfl, rfl, rfl⟩
  obtain ⟨report, run, items, succeeded, safe⟩ := run
  rw [← items] at residuals
  refine ⟨report, run, residuals, ?_, safe⟩
  rw [succeeded, Bool.and_eq_true, List.isEmpty_iff, residuals, and_iff_right_iff_imp]
  intro clean
  have last := listed (manifestClean.mpr clean.saved)
  simp [Items.append, last]

/-! ## When it restores the prepared state -/

/-- Every generated file could be read, and is a valid text without carriage returns. -/
def FilesKept (env : Env Json Rest Columns) (s : State Json Rest Columns) : Prop :=
  ∀ file content, s.files file = some content →
    env.fault (.readText file) = none ∧ ∃ text : String, text.toByteArray = content ∧ '\r' ∉ text.toList

/-- The attempt gives no value to a field that had none, and does not change the hash of the plan. -/
structure FieldsKept (env : Env Json Rest Columns) (plan : PlanDict Json) (manifest : Manifest Json Rest) : Prop where
  selectedPlanId : plan.named → present manifest.selectedPlanId
  selectedPlanHash : plan.named → manifest.selectedPlanHash = some (env.planFingerprint plan)
  capabilityContract : env.reachesContract plan → plan.contract.truthy →
    manifest.capabilityContract.any ContractDict.truthy
  sourceSubdir : env.reachesSubdir plan → plan.candidate.sourceSubdir.join.isSome → manifest.sourceSubdir.isSome

/-- Without the rows that the rollback releases, those that the attempt leaves are the rows before. -/
def RowsKept (env : Env Json Rest Columns) (plan : PlanDict Json) (s : State Json Rest Columns) : Prop :=
  let rows := env.rowsLeft plan s
  rows.filter (·.1 ∉ env.released (instancePortsSafe (env.fault .portsBefore) s.rows)
    (instancePortsSafe (env.fault .portsAfter) rows)) = s.rows

/-- Where the registry answers, the rows are kept that the attempt has left to the ports from before. -/
theorem rowsKept_iff (answers : env.fault .portsBefore = none ∧ env.fault .portsAfter = none)
    (releases : ∀ port, env.fault (.release port) = none) :
    RowsKept env plan s ↔ (env.rowsLeft plan s).filter (·.1 ∈ s.rows.map Prod.fst) = s.rows := by
  have whole : ∀ known ports, env.released known ports = ports.filter (· ∉ known) := by
    intro known ports
    have free : ∀ port ∈ ports.filter (· ∉ known), (env.fault (.release port)).isNone := by
      intro port _
      rw [releases port]
      rfl
    simpa [Env.released] using @List.takeWhile_append_of_pos _ _ _ [] free
  simp only [RowsKept, instancePortsSafe, answers.1, answers.2, Option.isSome_none, Bool.false_eq_true, if_false, whole]
  refine iff_of_eq (congrArg (· = s.rows) (List.filter_congr fun row listed => ?_))
  have found := List.mem_map_of_mem (f := Prod.fst) listed
  rw [decide_eq_decide, List.mem_filter, decide_eq_true_eq]
  tauto

/-- A file of the snapshot is written again; any other one is gone. -/
theorem leaves_of_clean {texts : SnapshotFile → Option String} {files : Files} (clean : Clean env texts files)
    (file : SnapshotFile) : env.leaves texts files file = (texts file).map writeText := by
  have moves := clean.files file
  unfold Env.stuck at moves
  unfold Env.leaves
  cases read : texts file with
  | some text =>
    simp only [read, Option.isSome_eq_false_iff] at moves
    simp [moves]
  | none =>
    simp only [read, Bool.and_eq_false_iff, Option.isSome_eq_false_iff] at moves
    rcases moves with absent | removable
    · simp [Option.isNone_iff_eq_none.mp absent]
    · simp [removable]

theorem files_restored_iff {files : Files} (clean : Clean env (env.texts s.files) files) :
    env.leaves (env.texts s.files) files = s.files ↔ FilesKept env s := by
  rw [funext_iff]
  refine forall_congr' fun file => ?_
  rw [leaves_of_clean clean]
  unfold Env.texts
  cases s.files file with
  | none => simp
  | some content =>
    simp only [Option.bind_some, Option.some.injEq, forall_eq', ← rewritten_iff]
    cases env.fault (.readText file) <;> simp

theorem fields_restored_iff (left : Left env plan s t) :
    SameFields s.manifest (env.rolledBack (snapshotAttempt env s) t).manifest ↔ FieldsKept env plan s.manifest := by
  constructor
  · rintro ⟨-, -, -, -, subdir, -, -, planId, planHash, contract⟩
    refine ⟨fun named => ?_, fun named => ?_, fun reaches truthy => ?_, fun reaches some => ?_⟩
    · by_contra empty
      have changed : t.manifest.selectedPlanId = s.manifest.selectedPlanId := by
        simpa [Env.rolledBack, restoreFields, snapshotAttempt, empty] using planId
      rw [left.selectedPlanId, if_pos named] at changed
      rw [← changed] at empty
      exact empty (Bool.and_eq_true_iff.mp named).2
    · change t.manifest.selectedPlanHash = _ at planHash
      rw [left.selectedPlanHash, if_pos named] at planHash
      exact planHash.symm
    · by_contra empty
      have changed : t.manifest.capabilityContract = s.manifest.capabilityContract := by
        simpa [Env.rolledBack, restoreFields, snapshotAttempt, empty] using contract
      rw [left.capabilityContract, reaches, truthy] at changed
      rw [← changed] at empty
      exact empty truthy
    · by_contra none
      rw [Option.not_isSome_iff_eq_none] at none
      have changed : t.manifest.sourceSubdir = Option.none := by
        simpa [Env.rolledBack, restoreFields, snapshotAttempt, none] using subdir
      rw [left.sourceSubdir, if_pos reaches, none] at changed
      cases given : plan.candidate.sourceSubdir with
      | none => simp [given] at some
      | some value => simp_all
  · rintro ⟨planId, planHash, contract, subdir⟩
    refine ⟨rfl, rfl, rfl, rfl, ?_, ?_, rfl, ?_, ?_, ?_⟩
    · change (s.manifest.sourceSubdir <|> t.manifest.sourceSubdir) = s.manifest.sourceSubdir
      cases own : s.manifest.sourceSubdir with
      | some value => rfl
      | none =>
        change t.manifest.sourceSubdir = none
        rw [left.sourceSubdir, own]
        split_ifs with reaches
        · cases given : plan.candidate.sourceSubdir with
          | none => rfl
          | some value =>
            by_contra chosen
            have := subdir reaches (by simpa [given] using Option.isSome_iff_ne_none.mpr chosen)
            simp [own] at this
        · rfl
    · change (s.manifest.container <|> t.manifest.container) = s.manifest.container
      rw [left.container]
      cases s.manifest.container <;> rfl
    · change (if present s.manifest.selectedPlanId then s.manifest.selectedPlanId else t.manifest.selectedPlanId) = _
      split_ifs with chosen
      · rfl
      · rw [left.selectedPlanId, if_neg fun named => chosen (planId named)]
    · change t.manifest.selectedPlanHash = s.manifest.selectedPlanHash
      rw [left.selectedPlanHash]
      split_ifs with named
      · exact (planHash named).symm
      · rfl
    · change (if s.manifest.capabilityContract.any ContractDict.truthy then s.manifest.capabilityContract
        else t.manifest.capabilityContract) = _
      split_ifs with chosen
      · rfl
      · rw [left.capabilityContract, if_neg]
        rw [Bool.and_eq_true]
        exact fun ⟨reaches, truthy⟩ => chosen (contract reaches truthy)

/-- The rollback restores the prepared state exactly where no file, field or row is lost, or where
one of its steps fails. -/
theorem restoresExactly_iff (env : Env Json Rest Columns) (plan : PlanDict Json) (s : State Json Rest Columns) :
    RestoresExactly env plan s ↔
      (env.fails plan → Clean env (env.texts s.files) (env.filesLeft plan s) →
        FilesKept env s ∧ FieldsKept env plan s.manifest ∧ RowsKept env plan s) := by
  obtain ⟨left, returns⟩ := applyPlanAndHost_apply env plan s
  constructor
  · intro restores fails clean
    rw [fails] at returns
    rcases run : applyPlanAndHost env plan s with ⟨exc | _, t⟩
    · rw [run] at left
      obtain ⟨report, rolledBack, residuals, succeeded, -⟩ := rollbackAttempt_apply env "" (snapshotAttempt env s) t
      rw [← left.files] at clean
      have restored := restores exc t run _ report _ rolledBack (succeeded.mpr clean) (residuals.mpr clean)
      refine ⟨(files_restored_iff clean).mp restored.files, (fields_restored_iff left).mp restored.manifest, ?_⟩
      have rows := restored.rows
      unfold RowsKept
      rw [← left.rows]
      exact rows
    · rw [run] at returns
      cases returns
  · intro kept exc t run attemptId report u rolledBack succeeds residual
    rw [run] at left returns
    obtain ⟨report', rolledBack', residuals, -, -⟩ := rollbackAttempt_apply env attemptId (snapshotAttempt env s) t
    obtain ⟨rfl, rfl⟩ : report' = report ∧ env.rolledBack (snapshotAttempt env s) t = u := by
      simpa [rolledBack'] using rolledBack
    have clean := residuals.mp residual
    have fails : env.fails plan = true := by simpa [Except.isOk, Except.toBool] using returns.symm
    obtain ⟨files, fields, rows⟩ := kept fails (left.files ▸ clean)
    have same := (fields_restored_iff left).mpr fields
    refine ⟨(files_restored_iff clean).mpr files, same, ?_, ?_⟩
    · have saved : (env.rolledBack (snapshotAttempt env s) t).saved =
          (env.rolledBack (snapshotAttempt env s) t).manifest := by
        simp [Env.rolledBack, clean.saved]
      rw [saved]
      exact same
    · unfold RowsKept at rows
      rw [← left.rows] at rows
      exact rows

/-- An instance of which nothing is deployed, a plan of it, and the attempt at the plan. -/
def prepared : State Unit Unit Unit :=
  let manifest := { kind := .python, runtime := .dockerCompose, servingMode := .container, updatedAt := "", rest := () }
  { manifest := manifest, saved := manifest, files := fun _ => none, rows := [] }

def backendPlan : PlanDict Unit where
  components := some [{ componentId := "python-container", role := some "runtime" }]
  planId := some "plan-backend"
  confidenceTier := some "fallback"

def brokenBuild : Env Unit Unit Unit where
  fault _ := none
  hostRun := {
    raises := some (.docker "build")
    saved := prepared.saved
    files := fun _ => none
    rows := []
    startsContainer := false }
  torn _ := none
  isRunning := .ok false
  hasActiveResources := false
  autoRecoverable := true
  planFingerprint _ := "d2a1"
  appliedAt := "1"
  restoredAt := "2"

/-- The rollback is reported as complete, but the plan that has failed stays selected. -/
theorem failed_plan_selected : ¬ RestoresExactly brokenBuild backendPlan prepared := by
  intro restores
  have restored := restores (.docker "build") _ rfl "attempt-1" _ _ rfl rfl rfl
  have left := (applyPlanAndHost_apply brokenBuild backendPlan prepared).1
  have kept := ((fields_restored_iff left).mp restored.manifest).selectedPlanId
  cases kept (by decide)

end LocalWebAccess.DeploymentAttempts
