import LocalWebAccess.Models
import LocalWebAccess.PythonText
import Mathlib.Data.Int.Notation

/-!
# The manifest of an instance and a new scan of its source

The sections of `local-web.json` with their defaults, the manifest that the
importer builds from a detection, and the one that a scan of an existing instance
saves. The values of JSON objects are of any type; so are the texts of paths.
-/
namespace LocalWebAccess

inductive Kind where
  | static
  | node
  | python
  deriving DecidableEq, Repr

inductive ServingMode where
  | sharedStatic
  | container
  deriving DecidableEq, Repr

inductive ResourceProfile where
  | tiny
  | small
  | medium
  | heavy
  deriving DecidableEq, Repr

inductive RebuildStrategy where
  | buildFirst
  | stopFirst
  deriving DecidableEq, Repr

/-- The fields that `extra="allow"` takes over from a document. -/
abbrev Extra (Json : Type) := String → Option Json

def Extra.none {Json : Type} : Extra Json := fun _ => Option.none

structure ResourceLimits where
  memory : String := "512m"
  cpus : String := "0.75"
  deriving DecidableEq, Repr

@[ext]
structure StaticConfig (Json : Type) where
  root : String := "public"
  gateway : String := "caddy"
  routeMode : String := "port"
  routeHost : Option String := none
  gatewayConfigPath : Option String := none
  hostPort : Option ℤ := none
  enabled : Bool := true
  extra : Extra Json := Extra.none

@[ext]
structure ContainerConfig (Json : Type) where
  projectName : String
  serviceName : String := "app"
  image : Option String := none
  imageId : Option String := none
  containerId : Option String := none
  internalPort : ℤ
  hostPort : Option ℤ := none
  composePath : String
  dockerfilePath : String
  resourceLimits : ResourceLimits := {}
  routeMode : String := "port"
  routeHost : Option String := none
  extraVolumes : List String := []
  rebuildStrategy : Option RebuildStrategy := none
  runAsNonRoot : Option Bool := none
  extra : Extra Json := Extra.none

@[ext]
structure NetworkConfig (Json : Type) where
  host : String := "0.0.0.0"
  internalPort : Option ℤ := none
  hostPort : Option ℤ := none
  routeMode : String := "port"
  routeHost : Option String := none
  routeUrl : Option String := none
  lanUrl : Option String := none
  healthUrl : Option String := none
  externalLanObservation : Option Json := none
  extra : Extra Json := Extra.none

/-- `_ENTRY_USER_FIELDS`. -/
inductive EntryField where
  | install
  | build
  | start
  | buildOutputDir
  deriving DecidableEq, Repr

/-- The commands, and what the last detection had for them. -/
@[ext]
structure EntryConfig (Json : Type) where
  value : EntryField → Option String := fun _ => none
  detected : Option (EntryField → Option String) := none
  extra : Extra Json := Extra.none

structure InstanceManifest (Json : Type) where
  schemaVersion : ℤ := 1
  id : String
  name : String
  nameSource : Option String := none
  version : String
  kind : Kind
  stack : List String := []
  runtime : Runtime
  servingMode : ServingMode
  resourceProfile : ResourceProfile := .small
  hasDatabase : Bool := false
  database : Option Json := none
  desiredState : DesiredState := .stopped
  status : Status := .pending
  static : Option (StaticConfig Json) := none
  container : Option (ContainerConfig Json) := none
  network : NetworkConfig Json := {}
  entry : EntryConfig Json := {}
  buildHooks : List String := []
  preStart : Option String := none
  hostBuild : Option String := none
  preSync : Option String := none
  hostBuildPending : Bool := false
  systemDeps : List String := []
  desiredAlias : Option String := none
  consecutiveReconcileFailures : ℤ := 0
  reconcileNextRetryAt : Option String := none
  reconcileCircuitManual : Bool := false
  buildEnv : Option (List (String × String)) := none
  buildBaseFromAlias : Bool := false
  redundancyAcknowledged : Bool := false
  sourceKind : String := "zip"
  sourceDirPath : Option String := none
  sourceSyncHash : Option String := none
  sourceGitUrl : Option String := none
  sourceGitRef : Option String := none
  sourceGitRefKind : Option String := none
  sourceGitCommit : Option String := none
  sourceGitSubdir : Option String := none
  sourceZipPath : Option String := none
  appPath : Option String := none
  createdAt : String
  updatedAt : String
  lastStartedAt : Option String := none
  lastHealthCheckAt : Option String := none
  lastError : Option String := none
  lastOperation : Option Json := none
  deploymentCandidates : List Json := []
  preflightSummary : Option String := none
  sourceSubdir : Option String := none
  deploymentPlans : List Json := []
  selectedPlanId : Option String := none
  selectedPlanHash : Option String := none
  verificationSummary : Option Json := none
  capabilityContract : Option Json := none
  verificationOverrides : Option Json := none
  deploymentFingerprints : Option Json := none
  compatibilityFindings : List Json := []
  compatibilityScanMeta : Option Json := none
  databaseConfig : Option Json := none
  aliasLiveVerifiedAt : Option String := none
  aliasLiveVerifiedFor : Option String := none
  aliasGuardCheckedAt : Option String := none
  aliasGuardResult : Option String := none
  aliasGuardError : Option String := none
  aliasProbeCoverage : Option Json := none
  /-- `sourceZipHash` among others. -/
  extra : Extra Json := Extra.none

/-- `profile_to_limits`. -/
def profileToLimits : ResourceProfile → ResourceLimits
  | .tiny => ⟨"128m", "0.25"⟩
  | .small => ⟨"256m", "0.5"⟩
  | .medium => ⟨"1g", "1.5"⟩
  | .heavy => ⟨"2g", "3"⟩

structure CapabilityContract (Json : Type) where
  servesUi : Bool := false
  servesApi : Bool := false
  requiresDatabase : Bool := false
  requiresMigrations : Bool := false
  requiredProbes : List Json := []

structure DeploymentPlan (Json : Type) where
  planId : String
  capabilityContract : CapabilityContract Json
  /-- The components and the reasons. -/
  rest : Json

/-- The facts about a source tree. The plans are made of all of them. -/
structure ProjectEvidence (Json : Type) where
  databaseConfig : Option Json := none
  rest : Json

structure DetectionResult (Json : Type) where
  kind : Option Kind := none
  runtime : Option Runtime := none
  servingMode : Option ServingMode := none
  resourceProfile : ResourceProfile := .small
  stack : List String := []
  hasDatabase : Bool := false
  database : Option Json := none
  entry : EntryConfig Json := {}
  internalPort : Option ℤ := none
  internalPortGuessed : Bool := false
  pending : Bool := false
  notes : List String := []
  sourceSubdir : Option String := none
  evidence : Option (ProjectEvidence Json) := none
  candidates : List Json := []

/-- What the importer calls: the truth value of a JSON value, `generate_plans` with the text of
what it raises, `model_dump` of a plan and a contract, the paths of the workspace, and the clock. -/
structure Importer (Json : Type) where
  truthy : Json → Bool
  generatePlans : ProjectEvidence Json → Except String (List (DeploymentPlan Json))
  dumpPlan : DeploymentPlan Json → Json
  dumpContract : CapabilityContract Json → Json
  appOriginalZip : String → String
  appCurrent : String → String
  appComposePath : String → String
  appDockerfilePath : String → String
  nowIso : String

/-- A text that is neither absent nor empty. -/
def present (text : Option String) : Bool := text.any (· ≠ "")

namespace EntryConfig

variable {Json : Type}

/-- `_LEGACY_DB_URL_START_RE.search`, of `export\s+DATABASE_URL\s*=`. -/
def legacyDbUrlStart (text : String) : Bool :=
  text.toList.tails.any fun rest =>
    let name := (rest.drop 6).dropWhile PythonText.isSpace
    "export".toList.isPrefixOf rest && (rest.drop 6).head?.any PythonText.isSpace &&
      "DATABASE_URL".toList.isPrefixOf name &&
      ((name.drop 12).dropWhile PythonText.isSpace).head? = some '='

/-- `start_command_wraps_migration`. -/
def startCommandWrapsMigration (start : Option String) : Bool :=
  ["alembic upgrade", "manage.py migrate", "init-db"].any fun marker =>
    PythonText.occursIn marker.toList (PythonText.lower (start.getD "").toList)

/-- A value that a user has set, as far as the last detection tells. -/
def overridden (entry : EntryConfig Json) (field : EntryField) : Bool :=
  present (entry.value field) &&
    !(field = .start && legacyDbUrlStart ((entry.value field).getD "")) &&
    entry.detected.all (fun snapshot => snapshot field ≠ entry.value field)

/-- `_preserve_user_entry_fields`. -/
def preserveUser (old new : EntryConfig Json) : EntryConfig Json :=
  { new with value := fun field =>
      if old.value field ≠ new.value field ∧ old.overridden field then old.value field else new.value field }

end EntryConfig

namespace Importer

variable {Json : Type} (importer : Importer Json)

/-- The plans, or the text of what their generation has raised. -/
def planned (detection : DetectionResult Json) : Except String (List (DeploymentPlan Json)) :=
  match detection.evidence with
  | none => .ok []
  | some evidence => importer.generatePlans evidence

def plans (detection : DetectionResult Json) : List (DeploymentPlan Json) :=
  (importer.planned detection).toOption.getD []

/-- A container without plans is not deployed; the detection object itself becomes pending. -/
def failClosed (detection : DetectionResult Json) : DetectionResult Json :=
  if !detection.pending ∧ detection.kind.isSome ∧ detection.runtime = some .dockerCompose ∧
      detection.evidence.isSome ∧ (importer.plans detection).isEmpty then
    { detection with
      pending := true
      notes := detection.notes ++ [match importer.planned detection with
        | .error message => s!"部署计划生成失败，标记 pending：{message}"
        | .ok _ => "部署计划为空（候选层与识别结果不一致），标记 pending"] }
  else detection

end Importer

namespace DetectionResult

variable {Json : Type} (detection : DetectionResult Json)

def unsettled : Bool := detection.pending || detection.kind.isNone

/-- The kind, runtime and serving mode of the manifest, where the validation takes them. -/
def shape : Option (Kind × Runtime × ServingMode) :=
  if detection.unsettled then some (.static, .sharedStatic, .sharedStatic)
  else
    match detection.kind, detection.runtime, detection.servingMode with
    | some kind, some .sharedStatic, some .sharedStatic => some (kind, .sharedStatic, .sharedStatic)
    | some kind, some .dockerCompose, some .container => some (kind, .dockerCompose, .container)
    | _, _, _ => none

def profile : ResourceProfile := if detection.unsettled then .tiny else detection.resourceProfile

def lastError : Option String :=
  if detection.unsettled then
    some (if detection.notes.isEmpty then "未识别项目类型" else "; ".intercalate detection.notes)
  else none

def preflightNotes : List String :=
  detection.notes.filter (fun note => note.startsWith "[预检修正]" || note.startsWith "[预检警告]")

end DetectionResult

namespace Importer

variable {Json : Type} (importer : Importer Json)

def newStatic (pathAlias : Option String) : StaticConfig Json :=
  match pathAlias with
  | none => {}
  | some host => { routeMode := "name", routeHost := some host }

def newContainer (instanceId : String) (detection : DetectionResult Json) (pathAlias : Option String) :
    ContainerConfig Json where
  projectName := s!"lwa-{instanceId}"
  internalPort := detection.internalPort.getD 8000
  composePath := importer.appComposePath instanceId
  dockerfilePath := importer.appDockerfilePath instanceId
  resourceLimits := profileToLimits detection.profile
  runAsNonRoot := some true
  routeMode := if pathAlias.isSome then "name" else "port"
  routeHost := pathAlias

/-- `_entry_detection_snapshot` of the entry within it. -/
def snapshotEntry (entry : EntryConfig Json) : EntryConfig Json := { entry with detected := some entry.value }

/-- The contract of the first plan, with the migrations that its start command wraps. -/
def contract (detection : DetectionResult Json) (plan : DeploymentPlan Json) : CapabilityContract Json :=
  if EntryConfig.startCommandWrapsMigration (detection.entry.value .start) then
    { plan.capabilityContract with requiresMigrations := true }
  else plan.capabilityContract

/-- What `InstanceManifest` refuses: an empty name, and a database without its description. -/
def refused (instanceId displayName : String) (detection : DetectionResult Json) : Bool :=
  instanceId = "" || displayName = "" || detection.hasDatabase ≠ detection.database.isSome

/-- The manifest of a detection with the shape that it is given. -/
def newManifest (instanceId displayName : String) (detection : DetectionResult Json)
    (zipHash : Option Json) (pathAlias nameSource : Option String) (kind : Kind) (runtime : Runtime)
    (servingMode : ServingMode) : InstanceManifest Json where
  id := instanceId
  name := displayName
  nameSource := nameSource
  version := "1"
  kind := kind
  runtime := runtime
  servingMode := servingMode
  resourceProfile := detection.profile
  stack := detection.stack
  hasDatabase := detection.hasDatabase
  database := detection.database
  desiredState := .stopped
  status := if detection.unsettled then .pending else .stopped
  entry := snapshotEntry detection.entry
  sourceZipPath := some (importer.appOriginalZip instanceId)
  appPath := some (importer.appCurrent instanceId)
  lastError := detection.lastError
  static := if runtime = .sharedStatic then some (newStatic pathAlias) else none
  container :=
    if runtime = .dockerCompose then some (importer.newContainer instanceId detection pathAlias) else none
  desiredAlias := pathAlias
  extra := fun key => if key = "sourceZipHash" then zipHash.filter importer.truthy else none
  network := { internalPort := detection.internalPort }
  sourceSubdir := if present detection.sourceSubdir then detection.sourceSubdir else none
  deploymentCandidates := detection.candidates.drop 1
  preflightSummary :=
    if detection.preflightNotes.isEmpty then none else some ("; ".intercalate detection.preflightNotes)
  deploymentPlans := (importer.plans detection).map importer.dumpPlan
  selectedPlanId := (importer.plans detection).head?.map (·.planId)
  capabilityContract :=
    (importer.plans detection).head?.map (fun plan => importer.dumpContract (contract detection plan))
  databaseConfig := detection.evidence.bind (·.databaseConfig)
  createdAt := importer.nowIso
  updatedAt := importer.nowIso

/-- `build_manifest_from_detection`, of a detection that has been looked at by `failClosed`. -/
def buildManifestFromDetection (instanceId displayName : String) (detection : DetectionResult Json)
    (zipHash : Option Json) (pathAlias nameSource : Option String) : Option (InstanceManifest Json) :=
  match detection.shape with
  | none => none
  | some (kind, runtime, servingMode) =>
    if refused instanceId displayName detection then none
    else some (importer.newManifest instanceId displayName detection zipHash pathAlias nameSource
      kind runtime servingMode)

/-- `detection_shape_differs`. -/
def detectionShapeDiffers (manifest : InstanceManifest Json) (detection : DetectionResult Json) : Bool :=
  detection.unsettled || detection.kind ≠ some manifest.kind ||
    detection.runtime.any (· ≠ manifest.runtime)

/-- A path alias is taken over into the same section of the new manifest. -/
def mergeStatic (old : Option (StaticConfig Json)) (new : StaticConfig Json) : StaticConfig Json :=
  match old with
  | none => new
  | some old =>
    if old.routeMode = "name" ∧ present old.routeHost then
      { new with routeMode := "name", routeHost := old.routeHost }
    else new

def mergeContainer (old : Option (ContainerConfig Json)) (detection : DetectionResult Json)
    (new : ContainerConfig Json) : ContainerConfig Json :=
  match old with
  | none => new
  | some old =>
    { new with
      routeMode := if old.routeMode = "name" ∧ present old.routeHost then "name" else new.routeMode
      routeHost := if old.routeMode = "name" ∧ present old.routeHost then old.routeHost else new.routeHost
      runAsNonRoot := old.runAsNonRoot
      containerId := old.containerId
      imageId := old.imageId
      image := old.image
      hostPort := old.hostPort
      projectName := old.projectName
      serviceName := old.serviceName
      extraVolumes := old.extraVolumes
      rebuildStrategy := old.rebuildStrategy
      internalPort :=
        if detection.internalPortGuessed ∧ old.internalPort ≠ 0 then old.internalPort else new.internalPort }

/-- The fields of the old manifest that are set in the one that the detection gives. -/
def merge (manifest : InstanceManifest Json) (detection : DetectionResult Json) (keepConfirmedShape : Bool)
    (fresh : InstanceManifest Json) : InstanceManifest Json :=
  { fresh with
    version := manifest.version
    sourceZipPath := manifest.sourceZipPath
    appPath := manifest.appPath
    createdAt := manifest.createdAt
    status :=
      if detection.unsettled then .pending
      else if manifest.status = .pending then .stopped else manifest.status
    desiredState :=
      if detection.unsettled then .stopped
      else if manifest.status = .pending then .stopped else manifest.desiredState
    lastStartedAt := manifest.lastStartedAt
    lastHealthCheckAt := manifest.lastHealthCheckAt
    sourceKind := if manifest.sourceKind = "" then "zip" else manifest.sourceKind
    sourceDirPath := manifest.sourceDirPath
    sourceSyncHash := manifest.sourceSyncHash
    sourceGitUrl := manifest.sourceGitUrl
    sourceGitRef := manifest.sourceGitRef
    sourceGitRefKind := manifest.sourceGitRefKind
    sourceGitCommit := manifest.sourceGitCommit
    sourceGitSubdir := manifest.sourceGitSubdir
    verificationOverrides := manifest.verificationOverrides
    static := fresh.static.map (mergeStatic manifest.static)
    container := fresh.container.map (mergeContainer manifest.container detection)
    lastOperation := manifest.lastOperation
    deploymentFingerprints := manifest.deploymentFingerprints
    buildHooks := manifest.buildHooks
    preStart := manifest.preStart
    hostBuild := if fresh.runtime = .dockerCompose then manifest.hostBuild else fresh.hostBuild
    preSync := if fresh.runtime = .dockerCompose then manifest.preSync else fresh.preSync
    hostBuildPending :=
      if fresh.runtime = .dockerCompose then manifest.hostBuildPending else fresh.hostBuildPending
    systemDeps := manifest.systemDeps
    desiredAlias := manifest.desiredAlias
    aliasLiveVerifiedAt := manifest.aliasLiveVerifiedAt
    aliasLiveVerifiedFor := manifest.aliasLiveVerifiedFor
    aliasGuardCheckedAt := manifest.aliasGuardCheckedAt
    aliasGuardResult := manifest.aliasGuardResult
    aliasGuardError := manifest.aliasGuardError
    aliasProbeCoverage := manifest.aliasProbeCoverage
    consecutiveReconcileFailures := manifest.consecutiveReconcileFailures
    reconcileNextRetryAt := manifest.reconcileNextRetryAt
    reconcileCircuitManual := manifest.reconcileCircuitManual
    buildEnv := manifest.buildEnv
    buildBaseFromAlias := manifest.buildBaseFromAlias
    network := { fresh.network with externalLanObservation := manifest.network.externalLanObservation }
    redundancyAcknowledged := manifest.redundancyAcknowledged
    -- the commands of another shape are not taken over into an adopted one
    entry :=
      if !keepConfirmedShape ∧ detectionShapeDiffers manifest detection then fresh.entry
      else manifest.entry.preserveUser fresh.entry }

/-- `apply_detection_to_manifest`. -/
def applyDetectionToManifest (manifest : InstanceManifest Json) (detection : DetectionResult Json)
    (keepConfirmedShape : Bool) : Option (InstanceManifest Json) :=
  let detection := importer.failClosed detection
  match importer.buildManifestFromDetection manifest.id manifest.name detection
      (manifest.extra "sourceZipHash") none manifest.nameSource with
  | none => none
  | some fresh =>
    if keepConfirmedShape ∧ manifest.status ≠ .pending ∧ detectionShapeDiffers manifest detection then
      some manifest
    else some (merge manifest detection keepConfirmedShape fresh)

end Importer

end LocalWebAccess
