import LocalWebAccess.AttemptRollback
import LocalWebAccess.FallbackChain

/-!
# When the chain of fallbacks is safe

The checks before the first fallback look at the rollback of the first plan; the
loop over the fallbacks looks at nothing but the class of the exception. So a
chain is safe where every attempt that another one follows was rolled back, has
not started a container of a plan with migrations and was not cancelled.
-/
namespace LocalWebAccess.DeploymentAttempts
open RaisingPrograms Prog

variable {Json Rest Columns : Type} {env : CallEnv Json Rest Columns} {s : State Json Rest Columns}

/-- An attempt after which another one may start. -/
structure AttemptRecord.Harmless (record : AttemptRecord Json) : Prop where
  rolledBack : ∃ report, record.rollback = some report ∧ report.rollbackSucceeded
  migrations : ¬(record.containerStarted ∧ record.contract.migrates)
  cancelled : ¬record.cancelled

/-- An attempt at a fallback plan that the call may start. -/
structure Admissible (env : CallEnv Json Rest Columns) (manifest : Manifest Json Rest) (record : AttemptRecord Json) :
    Prop where
  policy : env.policy = .autoEquivalent
  fresh : ¬isDeployedContainer manifest
  equivalent : ∃ plan i, record.candidate = some (plan, i) ∧ (getFallbackPlans manifest)[i]? = some plan ∧
    equivalentToPrimary manifest plan

/-- Every fallback attempt of a call is safe. The first attempt is the one at the first plan. -/
structure SafeChain (env : CallEnv Json Rest Columns) (s : State Json Rest Columns) : Prop where
  few : (env.attemptsOf s).length ≤ 1 + maxFallbackCandidates
  once : (((env.attemptsOf s).tail.filterMap (·.candidate)).map Prod.snd).Nodup
  admissible : ∀ record ∈ (env.attemptsOf s).tail, Admissible env s.manifest record
  /-- The attempts that another one follows. -/
  harmless : ∀ record ∈ (env.attemptsOf s).dropLast, record.Harmless

/-! ## How an attempt ends -/

/-- What a call of the builder does: the exception that it raises, and whether it gets to the host. -/
structure Calls (env : Env Json Rest Columns) (call : Prog Exn (State Json Rest Columns) Unit) (raises : Option Exn)
    (reaches : Bool) : Prop where
  result : Raises raises call
  files : ∀ s, (call s).2.files = if reaches then env.hostRun.files else s.files
  containerStarted : ∀ s, (call s).2.containerStarted =
    if reaches then env.hostRun.startsContainer else s.containerStarted

theorem host_calls (env : Env Json Rest Columns) : Calls env (host env) env.hostRun.raises true := by
  refine ⟨(raises_modify _).bind (raises_check _), fun s => ?_, fun s => ?_⟩
  · rw [(host_apply env s).1]
    rfl
  · rw [(host_apply env s).1]
    rfl

/-- The first exception of an attempt at a plan. -/
def Env.planFailure (env : Env Json Rest Columns) (plan : PlanDict Json) : Option Exn :=
  (if plan.named then env.fault .addPlanEvent else none).or
    ((if plan.candidate.entry.isSome then env.fault .entryConfig else none).or
      ((env.fault .saveCandidate).or env.hostRun.raises))

theorem applyPlanAndHost_raises (env : Env Json Rest Columns) (plan : PlanDict Json) :
    Raises (env.planFailure plan) (applyPlanAndHost env plan : Prog Exn (State Json Rest Columns) Unit) := by
  have selects : Raises _ (selectPlan env plan : Prog Exn (State Json Rest Columns) Unit) :=
    (Raises.ite (present plan.planId) ((raises_modify _).bind (raises_check (env.fault .addPlanEvent)))
      raises_pure).bind (raises_modify _)
  have applies : Raises _ (applyCandidate env plan.candidate : Prog Exn (State Json Rest Columns) Unit) :=
    (raises_modify _).bind ((raises_check _).bind ((raises_modify _).bind ((raises_check _).bind (raises_modify _))))
  have hosts : Raises _ (host env) := (raises_modify _).bind (raises_check _)
  have raised : Raises _ (applyPlanAndHost env plan : Prog Exn (State Json Rest Columns) Unit) :=
    (selects.ite plan.components.isSome raises_pure).bind (applies.bind hosts)
  simpa [Env.planFailure, PlanDict.named, ite_and, Option.or_assoc] using raised

theorem plan_calls (env : Env Json Rest Columns) (plan : PlanDict Json) :
    Calls env (applyPlanAndHost env plan) (env.planFailure plan) (env.reachesHost plan) := by
  refine ⟨applyPlanAndHost_raises env plan, fun s => ?_, fun s => ?_⟩
  · exact (applyPlanAndHost_apply env plan s).1.files
  · exact (applyPlanAndHost_apply env plan s).1.containerStarted

theorem Calls.check {env : Env Json Rest Columns} {call : Prog Exn (State Json Rest Columns) Unit}
    {raises : Option Exn} {reaches : Bool} (calls : Calls env call raises reaches) (fault : Option Exn) :
    Calls env (Prog.check fault >>= fun _ => call) (fault.or raises) (fault.isNone && reaches) := by
  refine ⟨(raises_check fault).bind calls.result, fun s => ?_, fun s => ?_⟩
  · cases fault with
    | none => exact calls.files s
    | some exc => rfl
  · cases fault with
    | none => exact calls.containerStarted s
    | some exc => rfl

theorem builder_calls {env : Env Json Rest Columns} {call : Prog Exn (State Json Rest Columns) Unit}
    {raises : Option Exn} {reaches : Bool} (calls : Calls env call raises reaches) :
    Calls env (builder env call) ((env.fault .markBuildOwner).or ((env.fault .clearBuildOwner).or raises))
      ((env.fault .markBuildOwner).isNone && reaches) := by
  refine Calls.check ⟨fun s => ?_, fun s => ?_, fun s => ?_⟩ (env.fault .markBuildOwner)
  · cases env.fault .clearBuildOwner with
    | none => exact calls.result s
    | some exc => rfl
  · cases env.fault .clearBuildOwner with
    | none => exact calls.files s
    | some exc => exact calls.files s
  · cases env.fault .clearBuildOwner with
    | none => exact calls.containerStarted s
    | some exc => exact calls.containerStarted s

namespace AttemptEnv

variable (own : AttemptEnv Json Rest Columns)

/-- The exception with which the build queue ends, where the call of the host raises the given one. -/
def failure (instanceId : String) (raises : Option Exn) : Option Exn :=
  match own.refused.or ((own.fault .markBuildOwner).or ((own.fault .clearBuildOwner).or raises)) with
  | none => if own.cancelled then some (buildCancelledError instanceId) else none
  | some exc => some (if exc.cancels ∨ own.statusCancelled then buildCancelledError instanceId else exc)

/-- The builder is called, and gets to the host. -/
def hosts (reaches : Bool) : Bool := own.refused.isNone && ((own.fault .markBuildOwner).isNone && reaches)

/-- The attempt starts a container. -/
def starts (reaches : Bool) : Bool := own.hosts reaches && own.hostRun.startsContainer

/-- The files that the attempt leaves. -/
def left (reaches : Bool) (files : Files) : Files := if own.hosts reaches then own.hostRun.files else files

/-- No step of the rollback fails. -/
def Undone (reaches : Bool) (files : Files) : Prop := Clean own.toEnv (own.texts files) (own.left reaches files)

end AttemptEnv

theorem queueRun_state (instanceId : String) (own : AttemptEnv Json Rest Columns)
    (call : Prog Exn (State Json Rest Columns) Unit) (s : State Json Rest Columns) :
    (queueRun instanceId own call s).2 = ((Prog.check own.refused >>= fun _ => builder own.toEnv call) s).2 := by
  unfold queueRun
  rcases (Prog.check own.refused >>= fun _ => builder own.toEnv call) s with ⟨exc | u, t⟩
  · rfl
  · cases own.cancelled <;> rfl

theorem queueRun_calls {own : AttemptEnv Json Rest Columns} {call : Prog Exn (State Json Rest Columns) Unit}
    {raises : Option Exn} {reaches : Bool} (calls : Calls own.toEnv call raises reaches) (instanceId : String) :
    Calls own.toEnv (queueRun instanceId own call) (own.failure instanceId raises) (own.hosts reaches) := by
  have inner := (builder_calls calls).check own.refused
  refine ⟨fun s => ?_, fun s => ?_, fun s => ?_⟩
  · have result := inner.result s
    unfold queueRun AttemptEnv.failure
    rcases run : (Prog.check own.refused >>= fun _ => builder own.toEnv call) s with ⟨exc | u, t⟩
    · rw [run] at result
      cases raised : own.refused.or ((own.fault .markBuildOwner).or ((own.fault .clearBuildOwner).or raises)) with
      | none => rw [raised] at result; cases result
      | some first => rw [raised] at result; cases result; rfl
    · rw [run] at result
      cases raised : own.refused.or ((own.fault .markBuildOwner).or ((own.fault .clearBuildOwner).or raises)) with
      | none => cases own.cancelled <;> rfl
      | some first => rw [raised] at result; cases result
  · rw [queueRun_state]
    exact inner.files s
  · rw [queueRun_state]
    exact inner.containerStarted s

/-! ## One attempt -/

section attempt

variable {own : AttemptEnv Json Rest Columns} {call : Prog Exn (State Json Rest Columns) Unit} {raises : Option Exn}
  {reaches : Bool}

/-- The record of an attempt. -/
def AttemptEnv.record (own : AttemptEnv Json Rest Columns) (reaches : Bool) (candidate : Option (PlanDict Json × ℕ))
    (contract : ContractDict Json) (rollback : Option (RollbackResult Json)) : AttemptRecord Json :=
  { candidate := candidate
    contract := contract
    containerStarted := own.starts reaches
    cancelled := own.cancelled
    rollback := rollback }

/-- What an attempt leaves before its rollback. -/
def AttemptEnv.tried (own : AttemptEnv Json Rest Columns) (instanceId : String)
    (call : Prog Exn (State Json Rest Columns) Unit) (s : State Json Rest Columns) : State Json Rest Columns :=
  (queueRun instanceId own call { s with containerStarted := false }).2

theorem queueRun_apply (calls : Calls own.toEnv call raises reaches) (instanceId : String)
    (s : State Json Rest Columns) :
    queueRun instanceId own call { s with containerStarted := false } =
        ((own.failure instanceId raises).elim (.ok ()) .error, own.tried instanceId call s) ∧
      (own.tried instanceId call s).files = own.left reaches s.files ∧
      (own.tried instanceId call s).containerStarted = own.starts reaches := by
  have queued := queueRun_calls calls instanceId
  refine ⟨Prod.ext (queued.result _) rfl, queued.files _, ?_⟩
  refine (queued.containerStarted _).trans ?_
  unfold AttemptEnv.starts
  cases own.hosts reaches <;> rfl

theorem rolledBack_files (calls : Calls own.toEnv call raises reaches) (instanceId : String)
    (s : State Json Rest Columns) :
    (own.rolledBack (snapshotAttempt own.toEnv s) (own.tried instanceId call s)).files =
      own.leaves (own.texts s.files) (own.left reaches s.files) := by
  rw [← (queueRun_apply calls instanceId s).2.1]
  rfl

theorem attempt_of_return (calls : Calls own.toEnv call raises reaches) {instanceId : String} (number : ℕ)
    (candidate : Option (PlanDict Json × ℕ)) (contract : ContractDict Json) (handled : Exn → Bool)
    (c : Call Json Rest Columns) (returns : own.failure instanceId raises = none) :
    attempt instanceId own number candidate contract handled call c = (.ok none, {
      state := own.tried instanceId call c.state
      attempts := c.attempts ++ [own.record reaches candidate contract none] }) := by
  obtain ⟨run, -, started⟩ := queueRun_apply calls instanceId c.state
  rw [returns] at run
  unfold attempt
  simp only [run, Option.elim, started]
  rfl

theorem attempt_of_unhandled (calls : Calls own.toEnv call raises reaches) {instanceId : String} (number : ℕ)
    (candidate : Option (PlanDict Json × ℕ)) (contract : ContractDict Json) (handled : Exn → Bool)
    (c : Call Json Rest Columns) {exc : Exn} (fails : own.failure instanceId raises = some exc)
    (passes : handled exc = false) :
    attempt instanceId own number candidate contract handled call c = (.error exc, {
      state := own.tried instanceId call c.state
      attempts := c.attempts ++ [own.record reaches candidate contract none] }) := by
  obtain ⟨run, -, started⟩ := queueRun_apply calls instanceId c.state
  rw [fails] at run
  unfold attempt
  simp only [run, Option.elim, started, passes]
  rfl

/-- An attempt whose exception is handled is rolled back. -/
theorem attempt_of_handled (calls : Calls own.toEnv call raises reaches) {instanceId : String} (number : ℕ)
    (candidate : Option (PlanDict Json × ℕ)) (contract : ContractDict Json) (handled : Exn → Bool)
    (c : Call Json Rest Columns) {exc : Exn} (fails : own.failure instanceId raises = some exc)
    (handles : handled exc = true) :
    ∃ report, attempt instanceId own number candidate contract handled call c = (.ok (some (exc, report)), {
        state := own.rolledBack (snapshotAttempt own.toEnv c.state) (own.tried instanceId call c.state)
        attempts := c.attempts ++ [own.record reaches candidate contract (some report)] }) ∧
      (report.rollbackSucceeded ↔ own.Undone reaches c.state.files) ∧
      report.automaticFallbackSafe = (report.rollbackSucceeded &&
        (!containerWasRunning own.toEnv || !((own.rolledBack (snapshotAttempt own.toEnv c.state)
          (own.tried instanceId call c.state)).manifest.capabilityContract.bind (·.requiresMigrations)).getD false) &&
        own.autoRecoverable) := by
  obtain ⟨run, files, started⟩ := queueRun_apply calls instanceId c.state
  rw [fails] at run
  obtain ⟨report, rolledBack, -, succeeded, safe⟩ := rollbackAttempt_apply own.toEnv
    s!"attempt-{instanceId}-{number}" (snapshotAttempt own.toEnv c.state) (own.tried instanceId call c.state)
  rw [files] at succeeded
  refine ⟨report, ?_, succeeded, safe⟩
  unfold attempt
  simp only [run, Option.elim, started, handles, rolledBack]
  rfl

/-- The record of an attempt that is rolled back. -/
theorem harmless_iff {candidate : Option (PlanDict Json × ℕ)} {contract : ContractDict Json}
    {report : RollbackResult Json} {files : Files} (succeeded : report.rollbackSucceeded ↔ own.Undone reaches files) :
    (own.record reaches candidate contract (some report)).Harmless ↔
      own.Undone reaches files ∧ ¬(own.starts reaches ∧ contract.migrates) ∧ ¬own.cancelled := by
  constructor
  · rintro ⟨⟨other, same, clean⟩, migrations, cancelled⟩
    obtain rfl : report = other := Option.some.inj same
    exact ⟨succeeded.mp clean, migrations, cancelled⟩
  · rintro ⟨undone, migrations, cancelled⟩
    exact ⟨⟨report, rfl, succeeded.mpr undone⟩, migrations, cancelled⟩

end attempt

/-! ## The loop over the candidates -/

/-- The attempt at a plan ends with an exception after which the next candidate is tried. -/
def AttemptEnv.failsOver (own : AttemptEnv Json Rest Columns) (instanceId : String) (plan : PlanDict Json) : Bool :=
  (own.failure instanceId (own.planFailure plan)).any fun exc => !exc.isLifecycle

/-- Every attempt that the loop starts and that another one follows is undone, has not started a
container of a plan with migrations, and was not cancelled. -/
def ChainHarmless (env : CallEnv Json Rest Columns) : ℕ → List (PlanDict Json × ℕ) → Files → Prop
  | _, [], _ => True
  | _, [_], _ => True
  | number, (plan, _) :: next :: rest, files =>
    let own := env.attempts number
    let reaches := own.reachesHost plan
    own.failsOver env.instanceId plan → (env.attempts (number + 1)).announce = none →
      (own.Undone reaches files ∧ ¬(own.starts reaches ∧ plan.contract.migrates) ∧ ¬own.cancelled) ∧
        ChainHarmless env (number + 1) (next :: rest) (own.leaves (own.texts files) (own.left reaches files))

theorem fallbackLoop_attempts (env : CallEnv Json Rest Columns) (candidates : List (PlanDict Json × ℕ)) (number : ℕ)
    (c : Call Json Rest Columns) :
    ∃ news, (fallbackLoop env number candidates c).2.attempts = c.attempts ++ news ∧
      news.map (·.candidate) <+: candidates.map some ∧
      (news = [] ↔ candidates = [] ∨ (env.attempts number).announce ≠ none) ∧
      ((env.attempts number).announce = none →
        ((∀ record ∈ news.dropLast, record.Harmless) ↔ ChainHarmless env number candidates c.state.files)) := by
  induction candidates generalizing number c with
  | nil => exact ⟨[], by simp [fallbackLoop], by simp, by simp, by simp [ChainHarmless]⟩
  | cons candidate rest ih =>
    obtain ⟨plan, i⟩ := candidate
    unfold fallbackLoop
    cases announced : (env.attempts number).announce with
    | some exc => exact ⟨[], by simp [bind_apply, announced], by simp, by simp, nofun⟩
    | none =>
      have calls := plan_calls (env.attempts number).toEnv plan
      cases fails : (env.attempts number).failure env.instanceId ((env.attempts number).planFailure plan) with
      | none =>
        have run := attempt_of_return calls number (some (plan, i)) plan.contract (fun exc => !exc.isLifecycle) c fails
        refine ⟨_, by simp only [bind_apply, announced, check_none, run]; rfl, by simp [AttemptEnv.record], by simp, ?_⟩
        intro _
        cases rest with
        | nil => simp [ChainHarmless]
        | cons next rest => simp [ChainHarmless, AttemptEnv.failsOver, fails]
      | some exc =>
        cases lifecycle : exc.isLifecycle with
        | true =>
          have run := attempt_of_unhandled calls number (some (plan, i)) plan.contract (fun exc => !exc.isLifecycle) c
            fails (by simp [lifecycle])
          refine ⟨_, by simp only [bind_apply, announced, check_none, run]; rfl, by simp [AttemptEnv.record], by simp,
            ?_⟩
          intro _
          cases rest with
          | nil => simp [ChainHarmless]
          | cons next rest => simp [ChainHarmless, AttemptEnv.failsOver, fails, lifecycle]
        | false =>
          obtain ⟨report, run, succeeded, -⟩ := attempt_of_handled calls number (some (plan, i)) plan.contract
            (fun exc => !exc.isLifecycle) c fails (by simp [lifecycle])
          obtain ⟨news, attempts, names, none, harmless⟩ :=
            ih (number + 1) (attempt env.instanceId (env.attempts number)
            number (some (plan, i)) plan.contract (fun exc => !exc.isLifecycle)
            (applyPlanAndHost (env.attempts number).toEnv plan) c).2
          rw [run] at attempts harmless
          refine ⟨(env.attempts number).record ((env.attempts number).reachesHost plan) (some (plan, i)) plan.contract
            (some report) :: news, ?_, ?_, by simp, fun _ => ?_⟩
          · simp only [bind_apply, announced, check_none, run, Option.isSome_some, if_true, attempts]
            rw [List.append_assoc]
            rfl
          · exact List.cons_prefix_cons.mpr ⟨rfl, names⟩
          · cases rest with
            | nil =>
              rw [none.mpr (.inl rfl)]
              simp [ChainHarmless]
            | cons next rest =>
              cases following : (env.attempts (number + 1)).announce with
              | some exc =>
                rw [none.mpr (.inr (by simp [following]))]
                simp [ChainHarmless, following]
              | none =>
                have some : news ≠ [] := fun empty => by simpa [following] using none.mp empty
                rw [List.dropLast_cons_of_ne_nil some, List.forall_mem_cons, harmless_iff succeeded, harmless following]
                have falls : (env.attempts number).failsOver env.instanceId plan = true := by
                  simp [AttemptEnv.failsOver, fails, lifecycle]
                simp only [ChainHarmless, falls, following, forall_const, rolledBack_files calls env.instanceId c.state]

/-! ## The whole call -/

/-- The host works on a manifest object of its own. -/
theorem host_keeps_manifest (instanceId : String) (own : AttemptEnv Json Rest Columns) (s : State Json Rest Columns) :
    (own.tried instanceId (host own.toEnv) s).manifest = s.manifest := by
  unfold AttemptEnv.tried
  rw [queueRun_state]
  have kept : ∀ t, (host own.toEnv t).2.manifest = t.manifest := fun t => by rw [(host_apply own.toEnv t).1]
  cases own.refused with
  | some exc => rfl
  | none =>
    change (builder own.toEnv (host own.toEnv) { s with containerStarted := false }).2.manifest = s.manifest
    unfold builder
    cases own.fault .markBuildOwner with
    | some exc => rfl
    | none =>
      cases own.fault .clearBuildOwner with
      | none => exact kept _
      | some exc => exact kept _

theorem restoreFields_self (env : Env Json Rest Columns) (s : State Json Rest Columns) :
    restoreFields (snapshotAttempt env s).manifestFields s.manifest = s.manifest := by
  have same : ∀ {α : Type} (value : Option α), (value <|> value) = value := by
    intro α value
    cases value <;> rfl
  unfold restoreFields snapshotAttempt
  dsimp only
  rw [same, same, ite_self, ite_self]

/-- The rollback of the first plan leaves the manifest as it was. -/
theorem rolledBack_manifest (instanceId : String) (own : AttemptEnv Json Rest Columns) (s : State Json Rest Columns) :
    (own.rolledBack (snapshotAttempt own.toEnv s) (own.tried instanceId (host own.toEnv) s)).manifest =
      { s.manifest with updatedAt := own.restoredAt } := by
  change { restoreFields _ (own.tried instanceId (host own.toEnv) s).manifest with updatedAt := own.restoredAt } = _
  rw [host_keeps_manifest, restoreFields_self]

/-- What the code asks for before the first fallback, apart from the report of the rollback. -/
structure Offered (env : CallEnv Json Rest Columns) (manifest : Manifest Json Rest) : Prop where
  policy : env.policy = .autoEquivalent
  container : manifest.runtime ≠ .sharedStatic
  skipped : (equivalentFallbacks manifest).length < (getFallbackPlans manifest).length → env.skippedEvent = none
  equivalent : equivalentFallbacks manifest ≠ []

theorem giveUp_keeps (env : CallEnv Json Rest Columns) (exc : Exn) (c : Call Json Rest Columns) :
    (giveUp env exc c).2 = c := by
  unfold giveUp
  cases env.writeDiagnosis <;> rfl

/-- What follows the rollback of the first plan: either it is the loop, or nothing is tried. -/
theorem fallBack_attempts (env : CallEnv Json Rest Columns) (exc : Exn) (rollback : RollbackResult Json)
    (c : Call Json Rest Columns) :
    (Offered env c.state.manifest ∧ rollback.rollbackSucceeded ∧ rollback.automaticFallbackSafe ∧
      (fallBack env exc rollback c).2.attempts =
        (fallbackLoop env 1 ((equivalentFallbacks c.state.manifest).take maxFallbackCandidates) c).2.attempts) ∨
    (¬(Offered env c.state.manifest ∧ rollback.rollbackSucceeded ∧ rollback.automaticFallbackSafe) ∧
      (fallBack env exc rollback c).2.attempts = c.attempts) := by
  unfold fallBack
  simp only [bind_apply, get_apply, ite_run]
  by_cases empty : (getFallbackPlans c.state.manifest).isEmpty
  · have none : equivalentFallbacks c.state.manifest = [] := by
      simp [equivalentFallbacks, List.isEmpty_iff.mp empty]
    exact .inr ⟨fun asked => asked.1.equivalent none, by rw [if_pos empty, giveUp_keeps]⟩
  rw [if_neg empty]
  by_cases disabled : env.policy = .disabled
  · refine .inr ⟨fun asked => ?_, by rw [if_pos disabled, giveUp_keeps]⟩
    have policy := asked.1.policy
    rw [disabled] at policy
    cases policy
  rw [if_neg disabled]
  by_cases static : c.state.manifest.runtime = .sharedStatic
  · exact .inr ⟨fun asked => asked.1.container static, by rw [if_pos static]; rfl⟩
  rw [if_neg static]
  cases skipped : (if (equivalentFallbacks c.state.manifest).length < (getFallbackPlans c.state.manifest).length then
      env.skippedEvent else none) with
  | some raised =>
    refine .inr ⟨fun asked => ?_, rfl⟩
    split_ifs at skipped with some
    rw [asked.1.skipped some] at skipped
    cases skipped
  | none =>
    have skips : (equivalentFallbacks c.state.manifest).length < (getFallbackPlans c.state.manifest).length →
        env.skippedEvent = none := fun some => by rwa [if_pos some] at skipped
    simp only [check_none]
    by_cases none : (equivalentFallbacks c.state.manifest).isEmpty
    · refine .inr ⟨fun asked => asked.1.equivalent (List.isEmpty_iff.mp none), ?_⟩
      rw [if_pos none, giveUp_keeps]
    rw [if_neg none]
    cases failed : rollback.rollbackSucceeded with
    | false => exact .inr ⟨nofun, by simp [giveUp_keeps]⟩
    | true =>
      by_cases confirm : env.policy = .confirm
      · refine .inr ⟨fun asked => ?_, by simp [confirm]⟩
        have policy := asked.1.policy
        rw [confirm] at policy
        cases policy
      cases risk : rollback.automaticFallbackSafe with
      | false => exact .inr ⟨nofun, by simp [confirm, giveUp_keeps]⟩
      | true =>
        have offered : Offered env c.state.manifest := by
          refine ⟨?_, static, skips, fun empty => none (List.isEmpty_iff.mpr empty)⟩
          cases policy : env.policy with
          | confirm => exact absurd policy confirm
          | autoEquivalent => rfl
          | disabled => exact absurd policy disabled
        refine .inl ⟨offered, rfl, rfl, ?_⟩
        simp only [confirm, Bool.not_true, Bool.false_eq_true, if_false]
        rcases fallbackLoop env 1 ((equivalentFallbacks c.state.manifest).take maxFallbackCandidates) c with
          ⟨raised | hosted, t⟩
        · rfl
        · cases hosted with
          | true => rfl
          | false => exact congrArg Call.attempts (giveUp_keeps env _ t)

/-- The call goes on to a fallback plan after the first one. -/
structure Opens (env : CallEnv Json Rest Columns) (s : State Json Rest Columns) : Prop where
  fresh : ¬isDeployedContainer s.manifest
  fails : ((env.attempts 0).failure env.instanceId (env.attempts 0).hostRun.raises).any Exn.failsDeployment
  offered : Offered env s.manifest
  undone : (env.attempts 0).Undone true s.files
  migrations : containerWasRunning (env.attempts 0).toEnv →
    ¬(s.manifest.capabilityContract.bind (·.requiresMigrations)).getD false
  recoverable : (env.attempts 0).autoRecoverable
  announced : (env.attempts 1).announce = none

/-- The candidates that a call may try. -/
def candidates (manifest : Manifest Json Rest) : List (PlanDict Json × ℕ) :=
  (equivalentFallbacks manifest).take maxFallbackCandidates

/-- The files that the rollback of the first plan leaves. -/
def CallEnv.filesAfterFirst (env : CallEnv Json Rest Columns) (files : Files) : Files :=
  (env.attempts 0).leaves ((env.attempts 0).texts files) ((env.attempts 0).left true files)

/-- The call after the rollback of the first plan. -/
def CallEnv.afterFirst (env : CallEnv Json Rest Columns) (s : State Json Rest Columns) (report : RollbackResult Json) :
    Call Json Rest Columns :=
  let own := env.attempts 0
  { state := own.rolledBack (snapshotAttempt own.toEnv s) (own.tried env.instanceId (host own.toEnv) s)
    attempts := [own.record true none (manifestCapabilityContract s.manifest) (some report)] }

/-- The first plan fails, and what it has left is rolled back. -/
theorem attemptsOf_of_failed {exc : Exn} (fresh : ¬isDeployedContainer s.manifest)
    (fails : (env.attempts 0).failure env.instanceId (env.attempts 0).hostRun.raises = some exc)
    (deployment : exc.failsDeployment) :
    ∃ report : RollbackResult Json,
      env.attemptsOf s = (fallBack env exc report (env.afterFirst s report)).2.attempts ∧
      (report.rollbackSucceeded ↔ (env.attempts 0).Undone true s.files) ∧
      (report.automaticFallbackSafe ↔ report.rollbackSucceeded ∧
        (containerWasRunning (env.attempts 0).toEnv →
          ¬(s.manifest.capabilityContract.bind (·.requiresMigrations)).getD false) ∧
        (env.attempts 0).autoRecoverable) := by
  obtain ⟨report, run, succeeded, safe⟩ := attempt_of_handled (host_calls (env.attempts 0).toEnv) 0 none
    (manifestCapabilityContract s.manifest) (fun exc => exc.failsDeployment && !isDeployedContainer s.manifest)
    (.start s) fails (by simp [deployment, fresh])
  refine ⟨report, ?_, succeeded, ?_⟩
  · unfold CallEnv.attemptsOf tryHostWithFallback
    have ready : (if isDeployedContainer s.manifest then env.envRollbackReady else none) = none := by simp [fresh]
    simp only [bind_apply, get_apply, Call.start] at run ⊢
    rw [ready, check_none]
    simp only [run]
    rfl
  · have kept := congrArg Manifest.capabilityContract (rolledBack_manifest env.instanceId (env.attempts 0) s)
    simp only [Call.start, kept] at safe
    rw [safe, Bool.and_eq_true, Bool.and_eq_true, and_assoc]
    refine and_congr_right fun _ => and_congr_left fun _ => ?_
    cases containerWasRunning (env.attempts 0).toEnv <;> simp

theorem offered_iff (env : CallEnv Json Rest Columns) (s : State Json Rest Columns) (report : RollbackResult Json) :
    Offered env (env.afterFirst s report).state.manifest ↔ Offered env s.manifest := by
  rw [show (env.afterFirst s report).state.manifest = _ from rolledBack_manifest env.instanceId (env.attempts 0) s]
  exact ⟨fun h => ⟨h.policy, h.container, h.skipped, h.equivalent⟩,
    fun h => ⟨h.policy, h.container, h.skipped, h.equivalent⟩⟩

theorem attemptsOf_of_opens (opens : Opens env s) :
    ∃ report news,
      env.attemptsOf s = (env.attempts 0).record true none (manifestCapabilityContract s.manifest)
        (some report) :: news ∧
      (report.rollbackSucceeded ↔ (env.attempts 0).Undone true s.files) ∧ news ≠ [] ∧
      news.map (·.candidate) <+: (candidates s.manifest).map some ∧
      ((∀ record ∈ news.dropLast, record.Harmless) ↔
        ChainHarmless env 1 (candidates s.manifest) (env.filesAfterFirst s.files)) := by
  obtain ⟨exc, fails, deployment⟩ := (Option.any_eq_true ..).mp opens.fails
  obtain ⟨report, attempts, succeeded, safe⟩ := attemptsOf_of_failed opens.fresh fails deployment
  have clean := succeeded.mpr opens.undone
  have asked : Offered env (env.afterFirst s report).state.manifest ∧ report.rollbackSucceeded ∧
      report.automaticFallbackSafe :=
    ⟨(offered_iff env s report).mpr opens.offered, clean, safe.mpr ⟨clean, opens.migrations, opens.recoverable⟩⟩
  rcases fallBack_attempts env exc report (env.afterFirst s report) with ⟨-, -, -, loop⟩ | ⟨refused, -⟩
  · have listed : equivalentFallbacks (env.afterFirst s report).state.manifest = equivalentFallbacks s.manifest := by
      rw [show (env.afterFirst s report).state.manifest = _ from rolledBack_manifest env.instanceId (env.attempts 0) s]
      rfl
    obtain ⟨news, run, names, none, harmless⟩ := fallbackLoop_attempts env (candidates s.manifest) 1
      (env.afterFirst s report)
    rw [attempts, loop, listed]
    refine ⟨report, news, run, succeeded, fun empty => ?_, names, ?_⟩
    · rcases none.mp empty with few | silent
      · exact opens.offered.equivalent (by simpa [candidates, maxFallbackCandidates] using few)
      · exact silent opens.announced
    · rw [harmless opens.announced, CallEnv.filesAfterFirst,
        ← rolledBack_files (host_calls (env.attempts 0).toEnv) env.instanceId s]
      rfl
  · exact absurd asked refused

/-- Where the first plan is not rolled back, it is the only one. -/
theorem attemptsOf_of_kept (kept : ∀ exc, (env.attempts 0).failure env.instanceId (env.attempts 0).hostRun.raises =
    some exc →
    (exc.failsDeployment && !isDeployedContainer s.manifest) = false) : (env.attemptsOf s).length ≤ 1 := by
  have calls := host_calls (env.attempts 0).toEnv
  unfold CallEnv.attemptsOf tryHostWithFallback
  simp only [bind_apply, get_apply, Call.start]
  cases (if isDeployedContainer s.manifest then env.envRollbackReady else none) with
  | some exc => exact Nat.zero_le 1
  | none =>
    simp only [check_none]
    cases fails : (env.attempts 0).failure env.instanceId (env.attempts 0).hostRun.raises with
    | none =>
      have run := attempt_of_return calls 0 none (manifestCapabilityContract s.manifest)
        (fun exc => exc.failsDeployment && !isDeployedContainer s.manifest) (.start s) fails
      simp only [Call.start] at run
      rw [run]
      exact Nat.le_refl 1
    | some exc =>
      have run := attempt_of_unhandled calls 0 none (manifestCapabilityContract s.manifest)
        (fun exc => exc.failsDeployment && !isDeployedContainer s.manifest) (.start s) fails (kept exc fails)
      simp only [Call.start] at run
      rw [run]
      exact Nat.le_refl 1

/-- Where the call does not go on, it has made one attempt at most. -/
theorem attemptsOf_of_not_opens (closed : ¬Opens env s) : (env.attemptsOf s).length ≤ 1 := by
  by_cases handled : ∃ exc, (env.attempts 0).failure env.instanceId (env.attempts 0).hostRun.raises = some exc ∧
      (exc.failsDeployment && !isDeployedContainer s.manifest) = true
  · obtain ⟨exc, fails, handled⟩ := handled
    obtain ⟨deployment, fresh⟩ := Bool.and_eq_true_iff.mp handled
    have fresh : ¬isDeployedContainer s.manifest := by simpa using fresh
    obtain ⟨report, attempts, succeeded, safe⟩ := attemptsOf_of_failed fresh fails deployment
    rw [attempts]
    rcases fallBack_attempts env exc report (env.afterFirst s report) with ⟨offered, clean, safely, loop⟩ | ⟨-, same⟩
    · obtain ⟨-, migrations, recoverable⟩ := safe.mp safely
      have silent : (env.attempts 1).announce ≠ none := fun announced => closed
        ⟨fresh, by simp [fails, deployment], (offered_iff env s report).mp offered, succeeded.mp clean, migrations,
          recoverable, announced⟩
      obtain ⟨news, run, -, none, -⟩ := fallbackLoop_attempts env
        ((equivalentFallbacks (env.afterFirst s report).state.manifest).take maxFallbackCandidates) 1
        (env.afterFirst s report)
      rw [loop, run, none.mpr (.inr silent), List.append_nil]
      exact Nat.le_refl 1
    · rw [same]
      exact Nat.le_refl 1
  · refine attemptsOf_of_kept fun exc fails => ?_
    by_contra handles
    exact handled ⟨exc, fails, by simpa using handles⟩

/-! ## When the chain is safe -/

theorem candidates_nodup (manifest : Manifest Json Rest) : ((candidates manifest).map Prod.snd).Nodup := by
  have positions : ((getFallbackPlans manifest).zipIdx.map Prod.snd).Nodup := by
    rw [List.zipIdx_map_snd]
    exact List.nodup_range'
  exact positions.sublist (((List.take_sublist ..).trans List.filter_sublist).map Prod.snd)

theorem mem_candidates {manifest : Manifest Json Rest} {plan : PlanDict Json} {i : ℕ}
    (listed : (plan, i) ∈ candidates manifest) :
    (getFallbackPlans manifest)[i]? = some plan ∧ equivalentToPrimary manifest plan := by
  obtain ⟨found, equivalent⟩ := List.mem_filter.mp (List.mem_of_mem_take listed)
  exact ⟨List.mk_mem_zipIdx_iff_getElem?.mp found, equivalent⟩

/-- Every call keeps to the policy, the equivalent plans and their number; it is safe where the first
attempt and those in the loop, up to the last one, are harmless. -/
theorem safeChain_iff (env : CallEnv Json Rest Columns) (s : State Json Rest Columns) :
    SafeChain env s ↔ (Opens env s →
      (¬((env.attempts 0).starts true ∧ (manifestCapabilityContract s.manifest).migrates) ∧
      ¬(env.attempts 0).cancelled) ∧
        ChainHarmless env 1 (candidates s.manifest) (env.filesAfterFirst s.files)) := by
  constructor
  · intro safe opens
    obtain ⟨report, news, attempts, succeeded, some, -, harmless⟩ := attemptsOf_of_opens opens
    have followed := safe.harmless
    rw [attempts, List.dropLast_cons_of_ne_nil some, List.forall_mem_cons, harmless, harmless_iff succeeded] at followed
    exact ⟨followed.1.2, followed.2⟩
  · intro condition
    by_cases opens : Opens env s
    · obtain ⟨first, chain⟩ := condition opens
      obtain ⟨report, news, attempts, succeeded, some, names, harmless⟩ := attemptsOf_of_opens opens
      refine ⟨?_, ?_, fun record listed => ?_, ?_⟩
      · have few := names.length_le
        rw [List.length_map, List.length_map] at few
        have short : (candidates s.manifest).length ≤ maxFallbackCandidates := List.length_take_le ..
        rw [attempts, List.length_cons]
        omega
      · rw [attempts, List.tail_cons]
        have tried : news.filterMap (·.candidate) <+: candidates s.manifest := by
          simpa [List.filterMap_map, Function.comp_def] using names.filterMap id
        exact (candidates_nodup s.manifest).sublist (tried.sublist.map Prod.snd)
      · rw [attempts, List.tail_cons] at listed
        have member := names.subset (List.mem_map_of_mem listed)
        obtain ⟨⟨plan, i⟩, listed, same⟩ := List.mem_map.mp member
        obtain ⟨found, equivalent⟩ := mem_candidates listed
        exact ⟨opens.offered.policy, opens.fresh, plan, i, same.symm, found, equivalent⟩
      · rw [attempts, List.dropLast_cons_of_ne_nil some, List.forall_mem_cons, harmless, harmless_iff succeeded]
        exact ⟨⟨opens.undone, first⟩, chain⟩
    · have short := attemptsOf_of_not_opens opens
      rcases attempts : env.attemptsOf s with - | ⟨record, - | ⟨next, rest⟩⟩
      · exact ⟨by simp [attempts], by simp [attempts], by simp [attempts], by simp [attempts]⟩
      · exact ⟨by simp [attempts], by simp [attempts], by simp [attempts], by simp [attempts]⟩
      · rw [attempts] at short
        simp at short

/-- A plan of a backend with one component. -/
def pythonPlan (tier planId : String) : PlanDict Unit where
  components := some [{ componentId := "python-container", role := some "runtime" }]
  planId := some planId
  confidenceTier := some tier
  capabilityContract := some { servesApi := some true }

/-- An instance with two fallback plans, of which nothing is deployed. -/
def planned : State Unit Unit Unit :=
  let manifest := {
    kind := .python
    runtime := .dockerCompose
    servingMode := .container
    deploymentPlans := [pythonPlan "primary" "plan-a", pythonPlan "fallback" "plan-b", pythonPlan "fallback" "plan-c"]
    updatedAt := ""
    rest := () }
  { manifest := manifest, saved := manifest, files := fun _ => none, rows := [] }

/-- The first build fails. The container of the first fallback starts, its health check fails, and
it cannot be taken down. -/
def stuckContainer : CallEnv Unit Unit Unit where
  instanceId := "demo"
  policy := .autoEquivalent
  envRollbackReady := none
  attempts number := {
    fault := fun point => if number = 1 ∧ point = .down then some (.docker "compose down") else none
    hostRun := {
      raises := some (if number = 1 then .hosting "health" else .docker "build")
      saved := planned.saved
      files := fun _ => none
      rows := []
      startsContainer := number = 1 }
    torn := fun _ => none
    isRunning := .ok (number = 1)
    hasActiveResources := false
    autoRecoverable := true
    planFingerprint := fun _ => "d2a1"
    appliedAt := "1"
    restoredAt := "2"
    announce := none
    refused := none
    cancelled := false
    statusCancelled := false }
  skippedEvent := none
  writeDiagnosis := none

/-- The second fallback starts beside the container that the first one has left. -/
theorem residual_container_passed_over : ¬SafeChain stuckContainer planned := by
  intro safe
  have listed : candidates planned.manifest =
      [(pythonPlan "fallback" "plan-b", 0), (pythonPlan "fallback" "plan-c", 1)] := rfl
  have opens : Opens stuckContainer planned := by
    refine ⟨by decide, rfl, ⟨rfl, by decide, fun _ => rfl, ?_⟩, ⟨nofun, fun file => ?_, rfl⟩, nofun, rfl, rfl⟩
    · intro none
      simp [candidates, none] at listed
    · cases file <;> rfl
  obtain ⟨report, news, attempts, succeeded, some, -, harmless⟩ := attemptsOf_of_opens opens
  have followed := safe.harmless
  rw [attempts, List.dropLast_cons_of_ne_nil some, List.forall_mem_cons, harmless] at followed
  have chain := followed.2
  rw [listed] at chain
  have undone := (chain rfl rfl).1.1
  cases undone.container rfl

end LocalWebAccess.DeploymentAttempts
