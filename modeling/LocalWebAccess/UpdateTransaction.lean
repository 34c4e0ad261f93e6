import LocalWebAccess.GeneratedFiles
import LocalWebAccess.InstanceManifest
import LocalWebAccess.RaisingPrograms

/-!
# Updating an instance from a zip

The second locked section of `_update_zip_locked`: the directories of the source,
`local-web.json`, `original.zip` and its backup, `docker/.env`, `data/`, the rows
of the registry and the service. Every call is given by its outcome in the
environment of the run; one that raises may leave its effect half done. What
follows the swap of `current/` is undone by `_rollback_swapped_current`, unless a
`ZipImportError` is raised.
-/
namespace LocalWebAccess.UpdateTransaction
open RaisingPrograms Prog

/-- The exceptions that some handler tells apart. `lwa` is any other `LwaError`. -/
inductive Exn where
  | zipImport
  | lwa
  | os
  | other
  deriving DecidableEq, Repr

def Exn.isLwa : Exn → Bool
  | .zipImport => true
  | .lwa => true
  | _ => false

/-! ## The registry -/

/-- The columns of `instances` that `upsert_from_manifest` writes. -/
structure InstanceColumns (Json : Type) where
  name : String
  version : String
  kind : Kind
  runtime : Runtime
  servingMode : ServingMode
  resourceProfile : ResourceProfile
  stack : List String
  hasDatabase : Bool
  database : Option Json
  desiredState : DesiredState
  status : Status
  appPath : String
  sourceZipPath : String
  createdAt : String
  updatedAt : String
  lastStartedAt : Option String
  lastHealthCheckAt : Option String
  lastError : Option String
  lastOperation : Option Json

/-- The columns that an upsert keeps: the revision, and what has been observed. -/
structure KeptColumns (Json : Type) where
  revision : ℤ := 1
  observed : Option Json := none

structure InstanceRow (Json : Type) where
  columns : InstanceColumns Json
  kept : KeptColumns Json

structure StaticRow where
  rootPath : String
  gateway : String
  routeMode : String
  hostPort : Option ℤ
  routeHost : Option String
  gatewayConfigPath : Option String
  enabled : Bool

structure ContainerRow where
  composeProject : String
  serviceName : String
  image : Option String
  imageId : Option String
  containerId : Option String
  internalPort : Option ℤ
  hostPort : Option ℤ
  routeMode : String
  routeHost : Option String
  composePath : Option String
  dockerfilePath : Option String
  memoryLimit : Option String
  cpuLimit : Option String

@[ext]
structure ResourcesRow (Json : Type) where
  sourceSize : Option ℤ
  publicSize : Option ℤ
  dataSize : Option ℤ
  imageSize : Option ℤ
  lastMemory : Option ℤ
  lastCpu : Option Json
  updatedAt : String

@[ext]
structure Rows (Json : Type) where
  instances : Option (InstanceRow Json)
  static : Option StaticRow
  container : Option ContainerRow
  resources : Option (ResourcesRow Json)

variable {Json Tree : Type}

def staticRow (config : StaticConfig Json) : StaticRow where
  rootPath := config.root
  gateway := config.gateway
  routeMode := config.routeMode
  hostPort := config.hostPort
  routeHost := config.routeHost
  gatewayConfigPath := config.gatewayConfigPath
  enabled := config.enabled

def containerRow (config : ContainerConfig Json) : ContainerRow where
  composeProject := config.projectName
  serviceName := config.serviceName
  image := config.image
  imageId := config.imageId
  containerId := config.containerId
  internalPort := some config.internalPort
  hostPort := config.hostPort
  routeMode := config.routeMode
  routeHost := config.routeHost
  composePath := some config.composePath
  dockerfilePath := some config.dockerfilePath
  memoryLimit := some config.resourceLimits.memory
  cpuLimit := some config.resourceLimits.cpus

/-- The row of a manifest, with the paths of the instance that it is about. -/
def instanceColumns (importer : Importer Json) (manifest : InstanceManifest Json) : InstanceColumns Json where
  name := manifest.name
  version := manifest.version
  kind := manifest.kind
  runtime := manifest.runtime
  servingMode := manifest.servingMode
  resourceProfile := manifest.resourceProfile
  stack := manifest.stack
  hasDatabase := manifest.hasDatabase
  database := manifest.database
  desiredState := manifest.desiredState
  status := manifest.status
  appPath := importer.appCurrent manifest.id
  sourceZipPath := importer.appOriginalZip manifest.id
  createdAt := manifest.createdAt
  updatedAt := manifest.updatedAt
  lastStartedAt := manifest.lastStartedAt
  lastHealthCheckAt := manifest.lastHealthCheckAt
  lastError := manifest.lastError
  lastOperation := manifest.lastOperation.filter importer.truthy

def upsertInstance (importer : Importer Json) (manifest : InstanceManifest Json)
    (row : Option (InstanceRow Json)) : InstanceRow Json where
  columns := instanceColumns importer manifest
  kept := (row.map (·.kept)).getD {}

/-- `upsert_from_manifest`: one transaction over three tables. -/
def Rows.upsertFromManifest (importer : Importer Json) (manifest : InstanceManifest Json)
    (rows : Rows Json) : Rows Json :=
  { rows with
    instances := some (upsertInstance importer manifest rows.instances)
    static :=
      match manifest.container, manifest.static with
      | some _, _ => none
      | none, some config => some (staticRow config)
      | none, none => rows.static
    container :=
      match manifest.container, manifest.static with
      | some config, _ => some (containerRow config)
      | none, some _ => none
      | none, none => rows.container }

/-- `upsert_resources`, where a column without a value keeps the one it has. -/
def upsertResources (new : ResourcesRow Json) : Option (ResourcesRow Json) → ResourcesRow Json
  | none => new
  | some row => {
      sourceSize := new.sourceSize <|> row.sourceSize
      publicSize := new.publicSize <|> row.publicSize
      dataSize := new.dataSize <|> row.dataSize
      imageSize := new.imageSize <|> row.imageSize
      lastMemory := new.lastMemory <|> row.lastMemory
      lastCpu := new.lastCpu <|> row.lastCpu
      updatedAt := new.updatedAt }

/-- The row of the table, where it has a port. -/
def Rows.portedStatic (rows : Rows Json) : Option StaticRow := rows.static.filter (·.hostPort.isSome)

def Rows.portedContainer (rows : Rows Json) : Option ContainerRow :=
  rows.container.filter (·.hostPort.isSome)

/-- The first port that is neither absent nor zero. -/
def firstPort (ports : List (Option ℤ)) : Option ℤ := (ports.filterMap id).find? (· ≠ 0)

/-! ## The state of an update -/

/-- What an update may change. -/
@[ext]
structure World (Json Tree : Type) where
  current : Option Tree
  manifest : Bytes
  originalZip : Option Bytes
  env : Option (List Char)
  data : Option Tree
  rows : Rows Json
  serving : Bool

/-- The directory of the instance with what earlier updates may have left there. -/
structure Disk (Json Tree : Type) extends World Json Tree where
  staging : Option Tree
  old : Option Tree
  bak : Option Bytes

structure State (Json Tree : Type) extends Disk Json Tree where
  currentSwapped : Bool
  /-- A restoring step has failed, which is logged. -/
  restoreFailed : Bool

def Disk.start (disk : Disk Json Tree) : State Json Tree :=
  { disk with currentSwapped := false, restoreFailed := false }

/-- What `stop_instance` has left of the manifest, the registry and the service. -/
structure Stopped (Json : Type) where
  manifest : Bytes
  instances : Option (InstanceRow Json)
  static : Option StaticRow
  container : Option ContainerRow
  serving : Bool

/-- The calls before the swap that may raise. -/
inductive Step where
  | read
  | extract
  | detect
  | aliasGuard
  | fingerprints
  | stop
  | backupZip
  | swapOut
  | swapIn
  | undoSwap
  deriving DecidableEq, Repr

/-- The calls after the swap, in their order. -/
inductive Stage where
  | displayName
  | hostPort
  | save
  | migrate
  | copyZip
  | upsert
  | purge
  | sizes
  | event
  | security
  deriving DecidableEq, Repr

/-- The calls of the rollback. -/
inductive Restore where
  | current
  | manifest
  | originalZip
  | upsert
  | static
  | container
  | resources
  deriving DecidableEq, Repr

/-- The removals that ignore errors. -/
inductive Removal where
  | staleStaging
  | staleOld
  | data
  | rollbackCurrent
  | finalStaging
  | finalOld
  deriving DecidableEq, Repr

/-- The arguments of an update and the outcomes of all that it calls. -/
structure Env (Json Tree : Type) where
  importer : Importer Json
  /-- The document of the first locked section. -/
  oldManifest : InstanceManifest Json
  keepData : Bool
  forceKindChange : Bool
  expectedRevision : Option ℤ
  zip : Bytes
  newHash : Json
  fault : Step → Option Exn
  stageFault : Stage → Option Exn
  restoreFault : Restore → Bool
  remains : Removal → Option Tree
  extracted : Tree
  extractedPartly : Option Tree
  detection : DetectionResult Json
  fingerprints : Json
  stopped : Stopped Json
  bakPartly : Option Bytes
  zipPartly : Option Bytes
  manifestPartly : Bytes
  /-- The old name is made of the id. -/
  autoTitled : Bool
  refreshedName : String
  /-- Members of the zip have been left out. -/
  stripped : Bool
  text : InstanceManifest Json → Bytes
  emptyTree : Tree
  sourceSize : ℤ
  dataSize : ℤ

abbrev Run (Json Tree : Type) := Prog Exn (State Json Tree)

/-- `shutil.rmtree(path, ignore_errors=True)`, with what it leaves of the directory. -/
def removed (dir left : Option Tree) : Option Tree := dir.bind (fun _ => left)

section environment

variable (env : Env Json Tree)

/-! ### What is done before the swap -/

/-- `_kind_changed`. -/
def kindChanged : Bool :=
  if env.detection.unsettled then env.oldManifest.runtime = .dockerCompose
  else env.detection.kind ≠ some env.oldManifest.kind ||
    env.detection.runtime.any (· ≠ env.oldManifest.runtime)

/-- `_shape_disagreement` and `_keep_confirmed_shape`. -/
def keepConfirmedShape : Bool :=
  env.oldManifest.status ≠ .pending && Importer.detectionShapeDiffers env.oldManifest env.detection &&
    (!env.forceKindChange || env.detection.unsettled)

def adoptsKind : Bool := kindChanged env && !keepConfirmedShape env

/-- The alias that the new content is checked for. -/
def existingAlias : Option String :=
  let old := env.oldManifest
  match old.static.filter (·.routeMode = "name") with
  | some config => config.routeHost
  | none => (old.container.filter (·.routeMode = "name")).bind (·.routeHost)

/-- The manifest that is built of the staged source. -/
def preparedManifest : Option (InstanceManifest Json) :=
  env.importer.applyDetectionToManifest env.oldManifest env.detection (keepConfirmedShape env)

/-- A container that has been deployed before there were fingerprints gets a baseline. -/
def needsBaseline (manifest : InstanceManifest Json) : Bool :=
  manifest.container.any (fun config => present config.containerId) &&
    !manifest.deploymentFingerprints.any env.importer.truthy

def withBaseline (manifest : InstanceManifest Json) : InstanceManifest Json :=
  if needsBaseline env manifest then { manifest with deploymentFingerprints := some env.fingerprints }
  else manifest

def attempt (step : Step) : Run Json Tree Unit := check (env.fault step)

/-- No revision is expected, or the instance has it. -/
def revisionExpected (rows : Rows Json) : Bool :=
  env.expectedRevision.all (fun expected => rows.instances.map (·.kept.revision) = some expected)

def checkRevision : Run Json Tree Unit := do
  let s ← get
  (if revisionExpected env s.rows then pure () else raise .zipImport)

def clearStale : Run Json Tree Unit :=
  modify (fun s => { s with
    staging := removed s.staging (env.remains .staleStaging)
    old := removed s.old (env.remains .staleOld) })

def extract : Run Json Tree Unit :=
  match env.fault .extract with
  | none => modify (fun s => { s with staging := some env.extracted })
  | some exc => do
    modify (fun s => { s with staging := env.extractedPartly })
    raise exc

/-- A pending instance takes over another kind only by force. -/
def guardKind : Run Json Tree Unit :=
  (if !env.forceKindChange ∧ adoptsKind env then raise .zipImport else pure ())

def guardAlias : Run Json Tree Unit :=
  (if present (existingAlias env) then attempt env .aliasGuard else pure ())

/-- `apply_detection_to_manifest`, which raises where the new manifest is not valid. -/
def prepare : Run Json Tree (InstanceManifest Json) :=
  match preparedManifest env with
  | none => raise .other
  | some manifest => do
    (if needsBaseline env manifest then attempt env .fingerprints else pure ())
    pure (withBaseline env manifest)

/-- `stop_instance` of the old runtime, before its rows go away; an `LwaError` is logged. -/
def stopOld : Run Json Tree Unit :=
  (if adoptsKind env then do
    modify (fun s => { s with
      manifest := env.stopped.manifest
      serving := env.stopped.serving
      rows := { s.rows with
        instances := env.stopped.instances
        static := env.stopped.static
        container := env.stopped.container } })
    check ((env.fault .stop).filter (fun exc => !exc.isLwa))
  else pure ())

def backupZip : Run Json Tree Unit := do
  let s ← get
  match s.originalZip, env.fault .backupZip with
  | none, _ => pure ()
  | some zip, none => modify (fun s => { s with bak := some zip })
  | some _, some exc => do
    modify (fun s => { s with bak := env.bakPartly })
    raise exc

def swapOut : Run Json Tree Unit := do
  attempt env .swapOut
  let s ← get
  match s.current with
  | none => raise .os
  | some tree => modify (fun s => { s with current := none, old := some tree })

/-- The backup becomes `current/` again, and the exception is raised again. -/
def undoSwap (exc : Exn) : Run Json Tree Unit := do
  attempt env .undoSwap
  modify (fun s => { s with current := s.old, old := none })
  raise exc

def swapIn : Run Json Tree Unit :=
  match env.fault .swapIn with
  | none => modify (fun s => { s with current := s.staging, staging := none, currentSwapped := true })
  | some .os => undoSwap env .os
  | some exc => raise exc

/-! ### What is done after it -/

/-- The manifest with the name of the new page and what only the user sets. -/
def takenOver (manifest : InstanceManifest Json) : InstanceManifest Json :=
  let old := env.oldManifest
  { manifest with
    name :=
      if env.autoTitled ∧ env.refreshedName ≠ old.name then env.refreshedName else manifest.name
    nameSource :=
      if env.autoTitled ∧ env.refreshedName ≠ old.name then some "html_title" else manifest.nameSource
    extra := Function.update manifest.extra "sourceZipHash" (some env.newHash)
    lastStartedAt := old.lastStartedAt
    lastHealthCheckAt := old.lastHealthCheckAt
    static := manifest.static.map fun config =>
      match old.static with
      | none => config
      | some before =>
        let named := before.routeMode = "name" ∧ present before.routeHost
        { config with
          enabled := before.enabled
          routeMode := if named then "name" else config.routeMode
          routeHost := if named then before.routeHost else config.routeHost }
    container := manifest.container.map fun config =>
      match old.container with
      | none => config
      | some before =>
        let named := before.routeMode = "name" ∧ present before.routeHost
        { config with
          routeMode := if named then "name" else config.routeMode
          routeHost := if named then before.routeHost else config.routeHost }
    buildHooks := old.buildHooks
    preStart := old.preStart
    hostBuild := if manifest.runtime = .dockerCompose then old.hostBuild else none
    preSync := if manifest.runtime = .dockerCompose then old.preSync else none
    hostBuildPending := manifest.runtime = .dockerCompose &&
      (old.hostBuildPending || present old.hostBuild || present old.preSync) }

/-- A port is written to the section that the manifest has. -/
def setHostPort (manifest : InstanceManifest Json) (port : Option ℤ) : InstanceManifest Json :=
  match port with
  | none => manifest
  | some port =>
    match manifest.static, manifest.container with
    | some config, _ => { manifest with static := some { config with hostPort := some port } }
    | none, some config => { manifest with container := some { config with hostPort := some port } }
    | none, none => manifest

/-- `_preserve_hostport`, which looks at the table of the manifest's own section first. -/
def preserveHostport (rows : Rows Json) (manifest : InstanceManifest Json) : InstanceManifest Json :=
  let static := rows.static.bind (·.hostPort)
  let container := rows.container.bind (·.hostPort)
  setHostPort manifest
    (if manifest.static.isSome then firstPort [static, container] else firstPort [container, static])

/-- The port of the rows before the update. -/
def oldHostPort (rows : Rows Json) : Option ℤ :=
  firstPort [rows.static.bind (·.hostPort), rows.container.bind (·.hostPort)]

/-- The manifest that is saved, with the rows before the update and those of now. -/
def updatedManifest (before rows : Rows Json) (manifest : InstanceManifest Json) : InstanceManifest Json :=
  { setHostPort (preserveHostport rows (takenOver env manifest)) (oldHostPort before) with
    updatedAt := env.importer.nowIso }

end environment

/-! ### The database URL in a start command -/

/-- The text after a literal and at least `atLeast` white characters. -/
def skip (literal : String) (atLeast : ℕ) (text : List Char) : Option (List Char) :=
  let rest := text.drop literal.length
  if literal.toList.isPrefixOf text ∧ atLeast ≤ (rest.takeWhile PythonText.isSpace).length then
    some (rest.dropWhile PythonText.isSpace)
  else none

/-- The value of `_START_EXPORT_DB_URL_RE`, where the text begins with one. -/
def exportedValue : List Char → Option (List Char)
  | [] => none
  | c :: text =>
    if c = '"' ∨ c = '\'' then
      let value := text.takeWhile (· ≠ c)
      if value ≠ [] ∧ (text.dropWhile (· ≠ c)) ≠ [] then some value else none
    else
      let value := (c :: text).takeWhile fun c =>
        !PythonText.isSpace c && c ≠ '&' && c ≠ ';' && c ≠ '"' && c ≠ '\''
      if value ≠ [] then some value else none

/-- The groups of `_START_EXPORT_DB_URL_RE.search`. -/
def exportedDatabaseUrl (start : List Char) : Option (List Char) :=
  start.tails.findSome? fun text =>
    (((skip "export" 1 text).bind (skip "DATABASE_URL" 0)).bind (skip "=" 0)).bind exportedValue

/-- `(?m)^\s*(?:export\s+)?DATABASE_URL\s*=`, at the beginning of some line. -/
def definesDatabaseUrl (text : List Char) : Bool :=
  let line := fun (rest : List Char) =>
    let rest := rest.dropWhile PythonText.isSpace
    (((skip "export" 1 rest).getD rest |> skip "DATABASE_URL" 0).bind (skip "=" 0)).isSome
  line text || text.tails.any (fun rest => rest.head? = some '\n' && line (rest.drop 1))

/-- `_migrate_start_db_url_to_env`: the line that it appends to `docker/.env`. -/
def migratedEnv (old : InstanceManifest Json) (env : Option (List Char)) : Option (List Char) :=
  let existing := env.getD []
  if old.runtime = .dockerCompose ∧ !definesDatabaseUrl existing then
    match exportedDatabaseUrl ((old.entry.value .start).getD "").toList with
    | none => env
    | some url =>
      let sep := if existing = [] ∨ existing.getLast? = some '\n' then [] else ['\n']
      some (existing ++ sep ++ "# issue #15：自旧 entry.start 的 export 迁移（可手改）\nDATABASE_URL=".toList ++
        url ++ ['\n'])
  else env

section commit

variable (env : Env Json Tree)

/-- What a stage raises, if it is taken at all. An `OSError` of the migration is logged. -/
def raises : Stage → Option Exn
  | .displayName => if env.autoTitled then env.stageFault .displayName else none
  | .migrate => (env.stageFault .migrate).filter (· ≠ .os)
  | .purge => if env.keepData then none else env.stageFault .purge
  | .security => if env.stripped then env.stageFault .security else none
  | stage => env.stageFault stage

def attemptStage (stage : Stage) : Run Json Tree Unit := check (raises env stage)

def saveManifest (manifest : InstanceManifest Json) : Run Json Tree Unit := do
  attemptStage env .save
  modify (fun s => { s with manifest := env.text manifest })

def migrateStartDbUrlToEnv : Run Json Tree Unit := do
  attemptStage env .migrate
  modify (fun s => { s with
    env := if (env.stageFault .migrate).isNone then migratedEnv env.oldManifest s.env else s.env })

def copyZip : Run Json Tree Unit :=
  match raises env .copyZip with
  | none => modify (fun s => { s with originalZip := some env.zip })
  | some exc => do
    modify (fun s => { s with originalZip := env.zipPartly })
    raise exc

def upsertFromManifest (manifest : InstanceManifest Json) : Run Json Tree Unit := do
  attemptStage env .upsert
  modify (fun s => { s with rows := s.rows.upsertFromManifest env.importer manifest })

/-- `data/` after its removal. -/
def clearedData (data : Option Tree) : Option Tree :=
  if env.keepData then data else removed data (env.remains .data)

/-- `data/` after it has been created again. -/
def recreatedData (data : Option Tree) : Option Tree :=
  if env.keepData then data else some ((clearedData env data).getD env.emptyTree)

def purgeData : Run Json Tree Unit :=
  match raises env .purge with
  | none => modify (fun s => { s with data := recreatedData env s.data })
  | some exc => do
    modify (fun s => { s with data := clearedData env s.data })
    raise exc

def newResources : ResourcesRow Json where
  sourceSize := some env.sourceSize
  publicSize := none
  dataSize := some env.dataSize
  imageSize := none
  lastMemory := none
  lastCpu := none
  updatedAt := env.importer.nowIso

def recordSizes : Run Json Tree Unit := do
  attemptStage env .sizes
  modify (fun s => { s with rows := { s.rows with
    resources := some (upsertResources (newResources env) s.rows.resources) } })

/-- What follows the swap, up to the events. -/
def commit (before : Rows Json) (prepared : InstanceManifest Json) : Run Json Tree Unit := do
  attemptStage env .displayName
  attemptStage env .hostPort
  let s ← get
  let manifest := updatedManifest env before s.rows prepared
  saveManifest env manifest
  migrateStartDbUrlToEnv env
  copyZip env
  upsertFromManifest env manifest
  purgeData env
  recordSizes env
  attemptStage env .event
  attemptStage env .security

end commit

/-! ## The rollback -/

section rollback

variable (env : Env Json Tree)

/-- What the rollback reads of the time before the update. -/
structure Snapshot (Json : Type) where
  manifest : Bytes
  rows : Rows Json

def logFailure : Run Json Tree Unit := modify (fun s => { s with restoreFailed := true })

def restoreCurrent : Run Json Tree Unit := do
  modify (fun s => { s with current := removed s.current (env.remains .rollbackCurrent) })
  let s ← get
  match s.old with
  | none => pure ()
  | some tree =>
    (if env.restoreFault .current then logFailure
    else modify (fun s => { s with current := some tree, old := none }))

def restoreManifest (snapshot : Snapshot Json) : Run Json Tree Unit :=
  (if env.restoreFault .manifest then do
    modify (fun s => { s with manifest := env.manifestPartly })
    logFailure
  else modify (fun s => { s with manifest := snapshot.manifest }))

def restoreOriginalZip : Run Json Tree Unit := do
  let s ← get
  match s.bak with
  | none => pure ()
  | some zip =>
    (if env.restoreFault .originalZip then do
      modify (fun s => { s with originalZip := env.zipPartly })
      logFailure
    else modify (fun s => { s with originalZip := some zip }))

/-- A write to the registry, after which the rest of the rollback is left out if it raises. -/
def write (restore : Restore) (f : Rows Json → Rows Json) : Run Json Tree Unit :=
  (if env.restoreFault restore then raise .lwa else modify (fun s => { s with rows := f s.rows }))

/-- The row is written again as it was, under the project name of the instance if it has none. -/
def restoredContainer (row : ContainerRow) : ContainerRow :=
  let id := env.oldManifest.id
  { row with composeProject := if row.composeProject = "" then s!"lwa-{id}" else row.composeProject }

def restoredResources (row : ResourcesRow Json) : ResourcesRow Json :=
  { row with updatedAt := env.importer.nowIso }

def restoreStaticRow (snapshot : Snapshot Json) : Run Json Tree Unit :=
  match snapshot.rows.portedStatic with
  | none => pure ()
  | some row => write env .static (fun rows => { rows with static := some row })

def restoreContainerRow (snapshot : Snapshot Json) : Run Json Tree Unit :=
  match snapshot.rows.portedContainer with
  | none => pure ()
  | some row => write env .container (fun rows => { rows with container := some (restoredContainer env row) })

def restoreResources (snapshot : Snapshot Json) : Run Json Tree Unit :=
  match snapshot.rows.resources with
  | none => pure ()
  | some row => write env .resources (fun rows =>
      { rows with resources := some (upsertResources (restoredResources env row) rows.resources) })

def restoreRegistry (snapshot : Snapshot Json) : Run Json Tree Unit :=
  handle (do
    write env .upsert (Rows.upsertFromManifest env.importer
      (setHostPort env.oldManifest (oldHostPort snapshot.rows)))
    restoreStaticRow env snapshot
    restoreContainerRow env snapshot
    restoreResources env snapshot) (fun _ => logFailure)

/-- `_rollback_swapped_current`. -/
def rollbackSwappedCurrent (snapshot : Snapshot Json) : Run Json Tree Unit := do
  restoreCurrent env
  restoreManifest env snapshot
  restoreOriginalZip env
  restoreRegistry env snapshot

end rollback

/-! ## The locked section -/

section update

variable (env : Env Json Tree)

/-- The `try` block. -/
def replaceSource (snapshot : Snapshot Json) : Run Json Tree Unit := do
  extract env
  attempt env .detect
  guardKind env
  guardAlias env
  let prepared ← prepare env
  stopOld env
  backupZip env
  swapOut env
  swapIn env
  commit env snapshot.rows prepared

/-- Its two handlers. -/
def undo (snapshot : Snapshot Json) : Exn → Run Json Tree Unit
  | .zipImport => raise .zipImport
  | _ => do
    let s ← get
    (if s.currentSwapped then rollbackSwappedCurrent env snapshot else pure ())
    raise .zipImport

/-- The `finally` block. -/
def cleanUp (s : State Json Tree) : State Json Tree :=
  { s with
    staging := removed s.staging (env.remains .finalStaging)
    old := removed s.old (env.remains .finalOld) }

/-- The second locked section of `_update_zip_locked`. -/
def updateZipLocked : Run Json Tree Unit := do
  checkRevision env
  attempt env .read
  let s ← get
  clearStale env
  ensure (handle (replaceSource env ⟨s.manifest, s.rows⟩) (undo env ⟨s.manifest, s.rows⟩)) (cleanUp env)

end update

end LocalWebAccess.UpdateTransaction
