import LocalWebAccess.DeploymentAttempts

/-!
# The fallback plans of a deployment

`_try_host_with_fallback` hosts an instance with its first plan and, where that
fails, with equivalent ones. The environment of a call gives what each attempt
does in the build queue, in its host and in its rollback. Every attempt leaves a
record, which no code reads.
-/
namespace LocalWebAccess

/-- The exceptions after which a first deployment is rolled back. -/
def Exn.failsDeployment : Exn → Bool
  | .hosting _ => true
  | .docker _ => true
  | _ => false

def Exn.isLifecycle : Exn → Bool
  | .lifecycle _ => true
  | _ => false

namespace DeploymentAttempts
open RaisingPrograms Prog PythonText

variable {Json Rest Columns : Type}

/-! ## Equivalent plans -/

/-- `_get_fallback_plans`. -/
def getFallbackPlans (manifest : Manifest Json Rest) : List (PlanDict Json) :=
  if manifest.deploymentPlans ≠ [] then
    manifest.deploymentPlans.filter fun plan =>
      plan.confidenceTier = some "alternate" ∨ plan.confidenceTier = some "fallback"
  else manifest.deploymentCandidates

/-- `_manifest_capability_contract`. -/
def manifestCapabilityContract (manifest : Manifest Json Rest) : ContractDict Json :=
  if manifest.capabilityContract.any ContractDict.truthy then manifest.capabilityContract.getD {}
  else (manifest.deploymentPlans.head?.map PlanDict.contract).getD {}

def ContractDict.migrates (contract : ContractDict Json) : Bool := contract.requiresMigrations.getD false

/-- `_contracts_equivalent`. -/
def contractsEquivalent (a b : ContractDict Json) : Bool :=
  a.truthy && b.truthy &&
    a.servesApi.getD false = b.servesApi.getD false &&
    a.requiresDatabase.getD false = b.requiresDatabase.getD false &&
    a.requiresMigrations.getD false = b.requiresMigrations.getD false &&
    a.servesUi.getD false = b.servesUi.getD false

inductive CapabilityFamily where
  | backend
  | frontend
  | static
  deriving DecidableEq, Repr

/-- `_candidate_capability_family`. -/
def candidateCapabilityFamily (manifest : Manifest Json Rest) : CapabilityFamily :=
  let kind := manifest.kind.value
  let servingMode := manifest.servingMode.value
  if servingMode = "container" ∧ kind ∈ ["python", "node"] then .backend
  else if kind = "node" ∧ servingMode = "shared_static" then .frontend
  else .static

/-- `_dict_capability_family`. -/
def dictCapabilityFamily (candidate : PlanDict Json) : CapabilityFamily :=
  let lowered (text : Option String) : String := String.ofList (lower (text.getD "").toList)
  let kind := lowered candidate.kind
  let form := lowered candidate.form
  let servingMode := lowered candidate.servingMode
  if kind ∈ ["python", "node"] ∧ form ∈ ["backend-container", "fullstack-sqlite"] then .backend
  else if form = "frontend-static" then .frontend
  else if servingMode = "container" ∧ kind ∈ ["python", "node"] then .backend
  else if kind = "node" ∧ servingMode = "shared_static" then .frontend
  else .static

/-- `_capabilities_equivalent`. -/
def capabilitiesEquivalent (primary candidate : CapabilityFamily) : Bool :=
  if primary = .backend then candidate = .backend else candidate ∈ [CapabilityFamily.static, .frontend]

/-- A plan is compared by its contract, or by its family where the primary plan has no contract. -/
def equivalentToPrimary (manifest : Manifest Json Rest) (plan : PlanDict Json) : Bool :=
  let primary := manifestCapabilityContract manifest
  if primary.truthy then contractsEquivalent primary plan.contract
  else capabilitiesEquivalent (candidateCapabilityFamily manifest) (dictCapabilityFamily plan.candidate)

/-- The equivalent plans with their positions among the fallback plans. -/
def equivalentFallbacks (manifest : Manifest Json Rest) : List (PlanDict Json × ℕ) :=
  (getFallbackPlans manifest).zipIdx.filter fun candidate => equivalentToPrimary manifest candidate.1

/-- `_MAX_FALLBACK_CANDIDATES`. -/
def maxFallbackCandidates : ℕ := 3

inductive FallbackPolicy where
  | confirm
  | autoEquivalent
  | disabled
  deriving DecidableEq, Repr

/-- `_is_deployed_container`. -/
def isDeployedContainer (manifest : Manifest Json Rest) : Bool :=
  manifest.runtime = .dockerCompose && manifest.container.any fun container => present container.containerId

/-! ## Attempts -/

/-- The outcomes of the calls of one attempt in the build queue. -/
structure AttemptEnv (Json Rest Columns : Type) extends Env Json Rest Columns where
  /-- The event of a fallback. -/
  announce : Option Exn
  /-- What `queue.run` raises before it calls the builder. -/
  refused : Option Exn
  /-- The build is cancelled while it is in the queue. -/
  cancelled : Bool
  /-- The task object of this process has the status of a cancelled build when the builder raises. -/
  statusCancelled : Bool

/-- What has become of an attempt at a candidate, or at the first plan. -/
structure AttemptRecord (Json : Type) where
  candidate : Option (PlanDict Json × ℕ)
  contract : ContractDict Json
  containerStarted : Bool
  cancelled : Bool
  rollback : Option (RollbackResult Json)

structure Call (Json Rest Columns : Type) where
  state : State Json Rest Columns
  attempts : List (AttemptRecord Json)

/-- The outcomes of the calls of `_try_host_with_fallback`. Attempt 0 is the one at the first plan. -/
structure CallEnv (Json Rest Columns : Type) where
  instanceId : String
  policy : FallbackPolicy
  envRollbackReady : Option Exn
  attempts : ℕ → AttemptEnv Json Rest Columns
  skippedEvent : Option Exn
  writeDiagnosis : Option Exn

/-- `_make_builder`. What clearing the owner raises replaces what the host has raised. -/
def builder (env : Env Json Rest Columns) (call : Prog Exn (State Json Rest Columns) Unit) :
    Prog Exn (State Json Rest Columns) Unit := do
  check (env.fault .markBuildOwner)
  fun s =>
    match env.fault .clearBuildOwner with
    | none => call s
    | some exc => (.error exc, (call s).2)

def buildCancelledError (instanceId : String) : Exn := .lifecycle s!"实例 {instanceId} 构建已取消"

/-- `BuildQueue.run`, as far as its caller can tell. -/
def queueRun (instanceId : String) (env : AttemptEnv Json Rest Columns)
    (call : Prog Exn (State Json Rest Columns) Unit) : Prog Exn (State Json Rest Columns) Unit := fun s =>
  match (check env.refused >>= fun _ => builder env.toEnv call) s with
  | (.ok (), t) => check (if env.cancelled then some (buildCancelledError instanceId) else none) t
  | (.error exc, t) => (.error (if exc.cancels ∨ env.statusCancelled then buildCancelledError instanceId else exc), t)

/-- One attempt. Where it raises an exception that is handled, it is rolled back to the state
before it, and the exception is returned with the report. -/
def attempt (instanceId : String) (env : AttemptEnv Json Rest Columns) (number : ℕ)
    (candidate : Option (PlanDict Json × ℕ)) (contract : ContractDict Json) (handled : Exn → Bool)
    (call : Prog Exn (State Json Rest Columns) Unit) :
    Prog Exn (Call Json Rest Columns) (Option (Exn × RollbackResult Json)) := fun c =>
  let snapshot := snapshotAttempt env.toEnv c.state
  let record (t : State Json Rest Columns) (rollback : Option (RollbackResult Json)) : AttemptRecord Json :=
    { candidate := candidate
      contract := contract
      containerStarted := t.containerStarted
      cancelled := env.cancelled
      rollback := rollback }
  match queueRun instanceId env call { c.state with containerStarted := false } with
  | (.ok (), t) => (.ok none, { state := t, attempts := c.attempts ++ [record t none] })
  | (.error exc, t) =>
    if handled exc then
      match rollbackAttempt env.toEnv s!"attempt-{instanceId}-{number}" snapshot t with
      | (.ok report, u) => (.ok (some (exc, report)),
          { state := u, attempts := c.attempts ++ [record t (some report)] })
      | (.error raised, u) => (.error raised, { state := u, attempts := c.attempts ++ [record t none] })
    else (.error exc, { state := t, attempts := c.attempts ++ [record t none] })

/-- The loop over the candidates: whether one of them has been hosted. -/
def fallbackLoop (env : CallEnv Json Rest Columns) :
    ℕ → List (PlanDict Json × ℕ) → Prog Exn (Call Json Rest Columns) Bool
  | _, [] => pure false
  | number, candidate :: rest => do
    let own := env.attempts number
    check own.announce
    let failure ← attempt env.instanceId own number (some candidate) candidate.1.contract
      (fun exc => !exc.isLifecycle) (applyPlanAndHost own.toEnv candidate.1)
    (if failure.isSome then fallbackLoop env (number + 1) rest else pure true)

/-- The end of a call that starts no further attempt. -/
def giveUp (env : CallEnv Json Rest Columns) (exc : Exn) : Prog Exn (Call Json Rest Columns) Unit := do
  check env.writeDiagnosis
  raise exc

/-- What follows the rollback of the first plan. The text of what asks for a confirmation is left out. -/
def fallBack (env : CallEnv Json Rest Columns) (exc : Exn) (rollback : RollbackResult Json) :
    Prog Exn (Call Json Rest Columns) Unit := do
  let manifest := (← get).state.manifest
  let fallbacks := getFallbackPlans manifest
  let equivalent := equivalentFallbacks manifest
  if fallbacks.isEmpty then giveUp env exc
  else if env.policy = .disabled then giveUp env exc
  else if manifest.runtime = .sharedStatic then raise exc
  else do
    check (if equivalent.length < fallbacks.length then env.skippedEvent else none)
    (if equivalent.isEmpty then giveUp env exc
    else if !rollback.rollbackSucceeded then giveUp env exc
    else if env.policy = .confirm then raise (.other "FallbackConfirmationRequired")
    else if !rollback.automaticFallbackSafe then giveUp env exc
    else do
      let hosted ← fallbackLoop env 1 (equivalent.take maxFallbackCandidates)
      let tried := (← get).attempts.length
      (if hosted then pure ()
      else giveUp env (.hosting
        s!"实例 {env.instanceId} 所有候选均部署失败（{tried} 个尝试）；诊断报告已写入 lastError")))

/-- `_try_host_with_fallback`. -/
def tryHostWithFallback (env : CallEnv Json Rest Columns) : Prog Exn (Call Json Rest Columns) Unit := do
  let manifest := (← get).state.manifest
  let existing := isDeployedContainer manifest
  check (if existing then env.envRollbackReady else none)
  let failure ← attempt env.instanceId (env.attempts 0) 0 none (manifestCapabilityContract manifest)
    (fun exc => exc.failsDeployment && !existing) (host (env.attempts 0).toEnv)
  (match failure with
    | none => pure ()
    | some (exc, rollback) => fallBack env exc rollback)

/-- A call starts from the state of the instance, without attempts. -/
def Call.start (s : State Json Rest Columns) : Call Json Rest Columns := { state := s, attempts := [] }

/-- The attempts of a call. -/
def CallEnv.attemptsOf (env : CallEnv Json Rest Columns) (s : State Json Rest Columns) : List (AttemptRecord Json) :=
  (tryHostWithFallback env (.start s)).2.attempts

end DeploymentAttempts

end LocalWebAccess
