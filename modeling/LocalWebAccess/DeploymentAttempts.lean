import LocalWebAccess.InstanceManifest
import LocalWebAccess.RaisingPrograms

/-!
# One attempt to deploy an instance and its rollback

`_apply_plan_and_host` writes a fallback plan into the manifest and hosts the
instance. `_snapshot_attempt` and `_rollback_attempt` bracket it: the generated
files, some fields of the manifest and the ports of the instance. What `host_fn`
does is given by the environment; it works on a manifest of its own, which it
loads from `local-web.json`.
-/
namespace LocalWebAccess

namespace Kind

def value : Kind → String
  | static => "static"
  | node => "node"
  | python => "python"

def ofValue (value : String) : Option Kind := [static, node, python].find? (fun kind => kind.value = value)

end Kind

def ServingMode.value : ServingMode → String
  | sharedStatic => "shared-static"
  | container => "container"

namespace DeploymentAttempts
open RaisingPrograms Prog PythonText

/-! ## Plans -/

structure CommandSpec where
  argv : List String := []
  shell : Option String := none

structure DeploymentComponent where
  componentId : String := ""
  role : Option String := none
  sourceSubdir : Option String := none
  buildCommand : Option CommandSpec := none
  startCommand : Option CommandSpec := none
  buildOutputDir : Option String := none
  internalPort : Option ℤ := none

/-- A capability contract as a dictionary, whose keys may be missing. -/
structure ContractDict (Json : Type) where
  servesUi : Option Bool := none
  servesApi : Option Bool := none
  requiresDatabase : Option Bool := none
  requiresMigrations : Option Bool := none
  rest : List (String × Json) := []

/-- Whether the dictionary has a key. -/
def ContractDict.truthy {Json : Type} (contract : ContractDict Json) : Bool :=
  contract.servesUi.isSome || contract.servesApi.isSome || contract.requiresDatabase.isSome ||
    contract.requiresMigrations.isSome || !contract.rest.isEmpty

/-- The dictionary of a plan, or of a flat candidate where it has no components. A field whose
key is missing is `none`; `entry` is `none` for an empty dictionary too. -/
structure PlanDict (Json : Type) where
  components : Option (List DeploymentComponent) := none
  planId : Option String := none
  confidenceTier : Option String := none
  capabilityContract : Option (ContractDict Json) := none
  kind : Option String := none
  runtime : Option String := none
  servingMode : Option String := none
  form : Option String := none
  entry : Option (EntryConfig Json) := none
  sourceSubdir : Option (Option String) := none
  internalPort : Option ℤ := none
  rest : List (String × Json) := []

namespace PlanDict

variable {Json : Type}

/-- `_plan_capability_contract`. -/
def contract (plan : PlanDict Json) : ContractDict Json := plan.capabilityContract.getD {}

/-- The text of a command in an entry, where there is one. -/
def commandText (command : Option CommandSpec) : Option String :=
  let command := command.getD {}
  if present command.shell then command.shell
  else if command.argv ≠ [] then some (" ".intercalate command.argv)
  else none

/-- `_plan_to_candidate_dict`. -/
def toCandidateDict (plan : PlanDict Json) : PlanDict Json :=
  let components := plan.components.getD []
  let isRuntime (component : DeploymentComponent) : Bool :=
    component.role = some "runtime" ∨ component.role = some "build-and-runtime"
  let component := (components.find? isRuntime).getD (components.head?.getD {})
  let kind := if component.componentId.startsWith "python" then "python"
    else if component.componentId.startsWith "node" then "node"
    else if component.componentId.startsWith "static" then "static"
    else "python"
  let entry : EntryField → Option String
    | .install => none
    | .start => commandText component.startCommand
    | .build => commandText component.buildCommand
    | .buildOutputDir => if present component.buildOutputDir then component.buildOutputDir else none
  { kind := some kind
    runtime := some (if kind = "static" then "shared-static" else "docker-compose")
    servingMode := some (if kind = "static" then "shared-static" else "container")
    entry := if (entry .start).isSome ∨ (entry .build).isSome ∨ (entry .buildOutputDir).isSome then
      some { value := entry } else none
    sourceSubdir := some component.sourceSubdir
    internalPort := component.internalPort
    confidenceTier := some (plan.confidenceTier.getD "fallback")
    form := some ((plan.planId.getD "").replace "plan-" "") }

/-- The candidate that an attempt applies. A plan without components is one itself. -/
def candidate (plan : PlanDict Json) : PlanDict Json :=
  if plan.components.isNone then plan else plan.toCandidateDict

end PlanDict

/-! ## The state of an instance -/

/-- The fields of the manifest that attempts read or write. `rest` is what they leave alone. -/
structure Manifest (Json Rest : Type) where
  kind : Kind
  runtime : Runtime
  servingMode : ServingMode
  entry : EntryConfig Json := {}
  sourceSubdir : Option String := none
  container : Option (ContainerConfig Json) := none
  network : NetworkConfig Json := {}
  selectedPlanId : Option String := none
  selectedPlanHash : Option String := none
  capabilityContract : Option (ContractDict Json) := none
  deploymentPlans : List (PlanDict Json) := []
  deploymentCandidates : List (PlanDict Json) := []
  updatedAt : String
  rest : Rest

/-- The files that a snapshot holds. -/
inductive SnapshotFile where
  | composeYaml
  | dockerfile
  | env
  | staticWsgi
  | aliasConf
  deriving DecidableEq, Repr

def SnapshotFile.name : SnapshotFile → String
  | composeYaml => "compose.yaml"
  | dockerfile => "Dockerfile"
  | env => ".env"
  | staticWsgi => "lwa_static_wsgi.py"
  | aliasConf => "alias.conf"

abbrev Files := SnapshotFile → Option ByteArray

/-- A row of `ports` that belongs to the instance: its port, and its other columns. The rows are
in the order of their ports. -/
abbrev PortRow (Columns : Type) := ℕ × Columns

/-- The manifest object of the caller, and what it shares with the other processes. -/
structure State (Json Rest Columns : Type) where
  manifest : Manifest Json Rest
  saved : Manifest Json Rest
  files : Files
  rows : List (PortRow Columns)
  /-- The attempt has started a container. No code reads this. -/
  containerStarted : Bool := false

/-- The calls that may raise. -/
inductive Point where
  | markBuildOwner
  | addPlanEvent
  | entryConfig
  | saveCandidate
  | clearBuildOwner
  | readText (file : SnapshotFile)
  | portsBefore
  | down
  | portsAfter
  | release (port : ℕ)
  | restoreFile (file : SnapshotFile)
  | removeFile (file : SnapshotFile)
  | saveRestored
  deriving DecidableEq, Repr

/-- What `host_fn` leaves, and what it raises. The manifest object of the caller is not its own. -/
structure HostRun (Json Rest Columns : Type) where
  raises : Option Exn
  saved : Manifest Json Rest
  files : Files
  rows : List (PortRow Columns)
  startsContainer : Bool

/-- The outcomes of the calls of one attempt and of its rollback. -/
structure Env (Json Rest Columns : Type) where
  fault : Point → Option Exn
  hostRun : HostRun Json Rest Columns
  /-- The content that a failed `write_text` leaves. -/
  torn : SnapshotFile → Option ByteArray
  isRunning : Except Exn Bool
  hasActiveResources : Bool
  /-- `side_effects_auto_recoverable` of the context of the exception. -/
  autoRecoverable : Bool
  planFingerprint : PlanDict Json → String
  appliedAt : String
  restoredAt : String

variable {Json Rest Columns : Type} (env : Env Json Rest Columns)

/-! ## Applying a plan -/

/-- The kind and the runtime of a candidate, where their texts are valid. -/
def Manifest.setShape (manifest : Manifest Json Rest) (candidate : PlanDict Json) : Manifest Json Rest :=
  let kind := Kind.ofValue (candidate.kind.getD "")
  match Runtime.ofValue (replaceChar '_' '-' (replaceChar '-' '_' (candidate.runtime.getD ""))) with
  | none => { manifest with kind := kind.getD manifest.kind }
  | some runtime => { manifest with
      kind := kind.getD manifest.kind
      runtime := runtime
      servingMode := if runtime = .sharedStatic then .sharedStatic else .container }

/-- `_apply_candidate_and_host` up to the host. -/
def applyCandidate (candidate : PlanDict Json) : Prog Exn (State Json Rest Columns) Unit := do
  modify fun s => { s with manifest := s.manifest.setShape candidate }
  check (if candidate.entry.isSome then env.fault .entryConfig else none)
  modify fun s => { s with manifest := { s.manifest with
    entry := candidate.entry.getD s.manifest.entry
    sourceSubdir := candidate.sourceSubdir.getD s.manifest.sourceSubdir
    updatedAt := env.appliedAt } }
  check (env.fault .saveCandidate)
  modify fun s => { s with saved := s.manifest }

/-- `host_fn`. -/
def host : Prog Exn (State Json Rest Columns) Unit := do
  modify fun s => { s with
    saved := env.hostRun.saved
    files := env.hostRun.files
    rows := env.hostRun.rows
    containerStarted := env.hostRun.startsContainer }
  check env.hostRun.raises

/-- `_apply_candidate_and_host`. -/
def applyCandidateAndHost (candidate : PlanDict Json) : Prog Exn (State Json Rest Columns) Unit := do
  applyCandidate env candidate
  host env

/-- The selected plan and its contract, which a flat candidate does not set. -/
def selectPlan (plan : PlanDict Json) : Prog Exn (State Json Rest Columns) Unit := do
  (if present plan.planId then do
    modify fun s => { s with manifest := { s.manifest with
      selectedPlanId := plan.planId
      selectedPlanHash := some (env.planFingerprint plan) } }
    check (env.fault .addPlanEvent)
  else pure ())
  modify fun s => { s with manifest := { s.manifest with
    capabilityContract := if plan.contract.truthy then some plan.contract else s.manifest.capabilityContract } }

/-- `_apply_plan_and_host`. -/
def applyPlanAndHost (plan : PlanDict Json) : Prog Exn (State Json Rest Columns) Unit := do
  (if plan.components.isSome then selectPlan env plan else pure ())
  applyCandidateAndHost env plan.candidate

/-! ## Snapshots -/

/-- The fields of the manifest in a snapshot. -/
structure ManifestFields (Json : Type) where
  selectedPlanId : Option String
  kind : Kind
  runtime : Runtime
  servingMode : ServingMode
  entry : EntryConfig Json
  sourceSubdir : Option String
  container : Option (ContainerConfig Json)
  network : NetworkConfig Json
  capabilityContract : Option (ContractDict Json)

structure Snapshot (Json : Type) where
  manifestFields : ManifestFields Json
  /-- The texts of the files that could be read. -/
  files : SnapshotFile → Option String
  ports : List ℕ

/-- `_instance_ports_safe`. -/
def instancePortsSafe (fault : Option Exn) (rows : List (PortRow Columns)) : List ℕ :=
  if fault.isSome then [] else rows.map Prod.fst

/-- The texts of the files that can be read. -/
def Env.texts (files : Files) (file : SnapshotFile) : Option String :=
  if (env.fault (.readText file)).isSome then none else (files file).bind readText

/-- `_snapshot_attempt`. -/
def snapshotAttempt (s : State Json Rest Columns) : Snapshot Json where
  manifestFields := {
    selectedPlanId := s.manifest.selectedPlanId
    kind := s.manifest.kind
    runtime := s.manifest.runtime
    servingMode := s.manifest.servingMode
    entry := s.manifest.entry
    sourceSubdir := s.manifest.sourceSubdir
    container := s.manifest.container
    network := s.manifest.network
    capabilityContract := s.manifest.capabilityContract }
  files := env.texts s.files
  ports := instancePortsSafe (env.fault .portsBefore) s.rows

/-- What the restored fields of the manifest are: a value that is falsy in the snapshot is not
restored. The dictionaries of an entry, a container and a network are never empty. -/
def restoreFields (fields : ManifestFields Json) (manifest : Manifest Json Rest) : Manifest Json Rest :=
  { manifest with
    selectedPlanId := if present fields.selectedPlanId then fields.selectedPlanId else manifest.selectedPlanId
    kind := fields.kind
    runtime := fields.runtime
    servingMode := fields.servingMode
    entry := fields.entry
    sourceSubdir := fields.sourceSubdir <|> manifest.sourceSubdir
    container := fields.container <|> manifest.container
    network := fields.network
    capabilityContract := if fields.capabilityContract.any ContractDict.truthy then fields.capabilityContract
      else manifest.capabilityContract }

/-! ## Rollback -/

/-- The items that a step has restored, and those that it could not. -/
structure Items where
  restored : List String := []
  residuals : List String := []

def Items.append (first second : Items) : Items where
  restored := first.restored ++ second.restored
  residuals := first.residuals ++ second.residuals

/-- One file of `_restore_from_snapshot`. -/
def restoreFile (snapshot : Snapshot Json) (file : SnapshotFile) : Prog Exn (State Json Rest Columns) Items :=
  fun s =>
  match snapshot.files file with
  | some text =>
    match env.fault (.restoreFile file) with
    | none => (.ok { restored := [s!"file:{file.name}"] },
        { s with files := Function.update s.files file (some (writeText text)) })
    | some exc => (.ok { residuals := [s!"file:{file.name}（恢复失败：{exc.str}）"] },
        { s with files := Function.update s.files file (env.torn file) })
  | none =>
    if (s.files file).isNone then (.ok {}, s)
    else
      match env.fault (.removeFile file) with
      | none => (.ok { restored := [s!"file:{file.name}:removed"] },
          { s with files := Function.update s.files file none })
      | some exc => (.ok { residuals := [s!"file:{file.name}（删除失败：{exc.str}）"] }, s)

def restoreFiles (snapshot : Snapshot Json) : List SnapshotFile → Prog Exn (State Json Rest Columns) Items
  | [] => pure {}
  | file :: rest => do
    let items ← restoreFile env snapshot file
    let more ← restoreFiles snapshot rest
    pure (items.append more)

/-- The manifest is restored in memory even where it cannot be saved. -/
def restoreManifest (snapshot : Snapshot Json) : Prog Exn (State Json Rest Columns) Items := fun s =>
  let manifest := { restoreFields snapshot.manifestFields s.manifest with updatedAt := env.restoredAt }
  match env.fault .saveRestored with
  | none => (.ok { restored := ["manifest"] }, { s with manifest := manifest, saved := manifest })
  | some exc => (.ok { residuals := [s!"manifest（恢复失败：{exc.str}）"] }, { s with manifest := manifest })

/-- `_restore_from_snapshot`. -/
def restoreFromSnapshot (snapshot : Snapshot Json) : Prog Exn (State Json Rest Columns) Items := do
  let files ← restoreFiles env snapshot [.dockerfile, .composeYaml, .env, .staticWsgi, .aliasConf]
  let manifest ← restoreManifest env snapshot
  pure (files.append manifest)

/-- The container is taken down where it is known to run. -/
def rollbackContainer : Items :=
  match env.isRunning with
  | .ok true =>
    match env.fault .down with
    | none => { restored := ["container"] }
    | some exc => { residuals := [s!"container（down 失败：{exc.str}）"] }
  | _ => {}

/-- The new ports are released up to the first failure. -/
def releasePorts (known : List ℕ) : List ℕ → Prog Exn (State Json Rest Columns) Items
  | [] => pure {}
  | port :: ports =>
    if port ∈ known then releasePorts known ports
    else if (env.fault (.release port)).isSome then pure {}
    else do
      modify fun s => { s with rows := s.rows.filter (·.1 ≠ port) }
      let more ← releasePorts known ports
      pure (Items.append { restored := ["port"] } more)

structure RollbackResult (Json : Type) where
  attemptId : String
  rollbackSucceeded : Bool
  rolledBackItems : List String
  automaticFallbackSafe : Bool
  residualItems : List String
  snapshotData : Snapshot Json

def containerWasRunning : Bool :=
  match env.isRunning with
  | .ok running => running
  | .error _ => false

/-- `_rollback_attempt`. -/
def rollbackAttempt (attemptId : String) (snapshot : Snapshot Json) :
    Prog Exn (State Json Rest Columns) (RollbackResult Json) := do
  let container := rollbackContainer env
  let s ← get
  let ports ← releasePorts env snapshot.ports (instancePortsSafe (env.fault .portsAfter) s.rows)
  let restored ← restoreFromSnapshot env snapshot
  let items := (container.append ports).append restored
  let ok := (!items.restored.isEmpty || !env.hasActiveResources) && items.residuals.isEmpty
  let s ← get
  let requiresMigrations := (s.manifest.capabilityContract.bind (·.requiresMigrations)).getD false
  pure {
    attemptId := attemptId
    rollbackSucceeded := ok
    rolledBackItems := items.restored
    automaticFallbackSafe := ok && (!containerWasRunning env || !requiresMigrations) && env.autoRecoverable
    residualItems := items.residuals
    snapshotData := snapshot }

end DeploymentAttempts

end LocalWebAccess
