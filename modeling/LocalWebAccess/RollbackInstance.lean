import LocalWebAccess.BuildArtifacts
import LocalWebAccess.FailingEffects
import LocalWebAccess.Models
import Mathlib

/-!
# Rolling an instance back

`rollback_instance` with its lock held, on the generated files, Docker, the manifest and the row of the instance.
What the call reads from elsewhere, and which of its steps raise, is given to it.
-/
namespace LocalWebAccess.RollbackInstance
open BuildArtifacts (Build Builds given normalizeImageId)
open FailingEffects

/-! ## Files and records -/

/-- The names of `ALL_GENERATED_FILES`. -/
inductive GeneratedFile where
  | compose
  | dockerfile
  | env
  | helper
  deriving DecidableEq, Repr

namespace GeneratedFile

def name : GeneratedFile → String
  | compose => "compose.yaml"
  | dockerfile => "Dockerfile"
  | env => ".env"
  | helper => "lwa_static_wsgi.py"

def all : List GeneratedFile := [compose, dockerfile, env, helper]

end GeneratedFile

example : GeneratedFile.all.map GeneratedFile.name =
    BuildArtifacts.generatedFiles ++ BuildArtifacts.optionalGeneratedFiles := rfl

/-- The content of each file; `none` is a missing one. -/
abbrev Files := GeneratedFile → Option ByteArray

/-- What the checks of a snapshot read of it. -/
def Files.texts (files : Files) : BuildArtifacts.Snapshot :=
  GeneratedFile.all.filterMap fun file =>
    (files file).map fun content => (file.name, (PythonText.readText content).map String.toList)

/-- A container has the image and the files that it was started from. -/
structure Container where
  id : String
  image : String
  files : Files
  running : Bool

structure ContainerConfig where
  containerId : Option String
  imageId : Option String
  hostPort : Option ℕ
  deriving DecidableEq, Repr

/-- `lastOperation` without its times. -/
structure Operation where
  kind : String
  status : String
  toBuildId : ℕ
  source : String
  error : Option String
  deriving DecidableEq, Repr

structure Manifest where
  runtime : Runtime
  container : Option ContainerConfig
  status : Status
  desiredState : DesiredState
  lastError : Option String
  lastOperation : Option Operation
  rollbackBuildId : Option ℕ
  deriving DecidableEq, Repr

namespace Manifest

def containerId (m : Manifest) : Option String := m.container.bind ContainerConfig.containerId

def imageId (m : Manifest) : Option String := m.container.bind ContainerConfig.imageId

def hostPort (m : Manifest) : Option ℕ := m.container.bind ContainerConfig.hostPort

/-- `manifest.container.containerId = id` -/
def withContainerId (m : Manifest) (id : Option String) : Manifest :=
  { m with container := m.container.map fun config => { config with containerId := id } }

/-- `manifest.container.imageId = id` -/
def withImageId (m : Manifest) (id : Option String) : Manifest :=
  { m with container := m.container.map fun config => { config with imageId := id } }

end Manifest

/-- The columns of `instances` and `containers` that the call writes. -/
structure Row where
  status : Status
  desiredState : DesiredState
  lastError : Option String
  lastOperation : Option Operation
  containerId : Option String
  imageId : Option String
  revision : ℕ
  deriving DecidableEq, Repr

/-- `upsert_from_manifest` -/
def Row.upsertFromManifest (row : Row) (m : Manifest) : Row :=
  { row with
    status := m.status
    desiredState := m.desiredState
    lastError := m.lastError
    lastOperation := m.lastOperation
    containerId := if m.container.isSome then m.containerId else row.containerId
    imageId := if m.container.isSome then m.imageId else row.imageId }

/-- `latest` is the image with the tag that `compose up` starts, and `stopped` the variable of the call. -/
structure World where
  files : Files
  latest : Option String
  container : Option Container
  saved : Manifest
  row : Row
  stopped : Bool

/-! ## Steps -/

/-- The version that a step is about: the running one before the stop, the target, or the original one again. -/
inductive Phase where
  | before
  | target
  | original
  deriving DecidableEq, Repr

/-- What may raise: a `DockerError` of Docker, an `OSError` of a file, any exception of the others. -/
inductive Step where
  | preparing
  | loading
  | listing
  | archive
  | revising
  | reading
  | probing
  | stopping
  | tearingDown
  | directory (phase : Phase)
  | writing (phase : Phase) (file : GeneratedFile)
  | readingEnv
  | aligning
  | comparing
  | tagging (phase : Phase)
  | starting (phase : Phase)
  | verifying (phase : Phase)
  | recording (phase : Phase)
  | savingRecord (phase : Phase)
  | upserting (phase : Phase)
  | updating (phase : Phase)
  | noting (phase : Phase)
  | saving
  | recordingStart
  | incrementing
  | guarding
  | savingGuarded
  deriving DecidableEq, Repr

/-- The questions to Docker about the container. -/
inductive Query where
  | containerId
  | inspect
  | images
  deriving DecidableEq, Repr

/-- The exceptions of the call. A step that raises has its text. -/
inductive Failure where
  | raised (step : Step) (text : String)
  | undecodable
  | unresolved (ref : String)
  | notContainer (runtime : Runtime)
  | noTarget
  | noBuild (id : ℕ)
  | collected (id : ℕ)
  | notSuccessful (id : ℕ) (status : String)
  | incomplete (id : ℕ)
  | imageGone (id : ℕ) (ref : String)
  | needsYes (id : ℕ) (current target : Bool)
  | unexpectedRevision (expected : ℕ) (current : Option ℕ)
  | unknownState (text : String)
  | stillRunning (text : String)
  | snapshotMissing (id : ℕ)
  | notVerified (port : Option ℕ) (detail : String)
  | rolledBack (id : ℕ) (cause : Failure) (restored : Bool) (residual : List String)
  | revisionConflict
  deriving DecidableEq, Repr

/-- `str` of an optional number. -/
def shown : Option ℕ → String
  | none => "None"
  | some n => toString n

/-- The commands that contain a migration. -/
def migrations (id : ℕ) (current target : Bool) : String :=
  String.intercalate "、" <|
    (if current then ["当前启动/构建命令"] else []) ++ if target then [s!"目标构建 #{id} 留档的启动或构建命令"] else []

/-- `"；".join(residual)` behind its heading. -/
def suffix (residual : List String) : String :=
  if residual = [] then "" else "；补偿残留：" ++ String.intercalate "；" residual

/-- `str(exc)` -/
def Failure.text (instanceId : String) : Failure → String
  | raised _ text => text
  | undecodable => "'utf-8' codec can't decode .env"
  | unresolved ref => s!"[DOCKER_ERROR] docker tag {ref} 失败：No such image"
  | notContainer runtime =>
    let value := runtime.value
    s!"[HOSTING_ERROR] 实例 {instanceId} 不是容器实例（runtime={value}），无法回滚镜像版本"
  | noTarget => s!"[HOSTING_ERROR] 实例 {instanceId} 没有可回滚的留档版本（需要成功构建 + 镜像仍在 + 快照齐全）"
  | noBuild id => s!"[HOSTING_ERROR] 实例 {instanceId} 不存在构建 #{id}，无法回滚"
  | collected id =>
    s!"[HOSTING_ERROR] 实例 {instanceId} 构建 #{id} 的镜像留档已被 GC 清理，无法回滚（可调大 imageRetention 后重建留档）"
  | notSuccessful id status =>
    s!"[HOSTING_ERROR] 实例 {instanceId} 构建 #{id} 不是成功构建（status={status}），没有可回滚的镜像留档"
  | incomplete id => s!"[HOSTING_ERROR] 实例 {instanceId} 构建 #{id} 的生成物快照缺失或不完整，无法回滚"
  | imageGone id ref =>
    s!"[HOSTING_ERROR] 实例 {instanceId} 构建 #{id} 的镜像 {ref} 已被清理，无法回滚（可调大 imageRetention 后重建留档）"
  | needsYes id current target =>
    let parts := migrations id current target
    s!"[rollback_needs_yes] 实例 {instanceId} 的{parts}含数据库迁移命令：回滚只还原镜像与" ++
      "生成配置，不回滚 data/。启动旧镜像可能执行其中的迁移命令，" ++
      "验证失败后的镜像补偿也无法撤销数据库修改；旧版本代码可能无法兼容当前数据库结构。" ++
      "如确认继续，请显式加 --yes（管理页勾选「我已了解风险」）"
  | unexpectedRevision expected current =>
    let found := shown current
    s!"[revision_conflict] 实例 {instanceId} revision 与期望不符（期望 {expected}，当前 {found}），操作被拒绝；" ++
      "请重新读取实例状态后再试"
  | unknownState text => s!"[HOSTING_ERROR] 实例 {instanceId} 运行状态无法确认，回滚 已中止：{text}"
  | stillRunning text => s!"[HOSTING_ERROR] 实例仍在运行，回滚 已中止：{text}"
  | snapshotMissing id => s!"[HOSTING_ERROR] 实例 {instanceId} 构建 #{id} 的生成物快照缺失，回滚中止"
  | notVerified port detail =>
    let number := shown port
    s!"[HOSTING_ERROR] 回滚后验证失败（host_port={number}）：{detail}"
  | rolledBack id cause restored residual =>
    let exc := cause.text instanceId
    s!"[HOSTING_ERROR] 实例 {instanceId} 回滚到构建 #{id} 失败：{exc}，" ++
      (if restored then "已恢复原版本" else "未能恢复原版本") ++ suffix residual
  | revisionConflict => s!"[revision_conflict] 实例 {instanceId} 已被其他通道更新（revision 冲突）"

/-- What the steps meet: the exception of each, what a write that raises leaves of its file and an `up` that
raises of the container, the image of a reference, the one that `up` builds where the tag is missing, what a
new container is called and whether it stays up, which questions Docker answers, the error of a verification
that fails, the archives, the results of the migration checks and the revision that other writers leave. -/
structure Conditions where
  raises : Step → Option String
  left : Step → Option ByteArray → Option ByteArray
  broken : Phase → Option Container → Option Container
  resolve : String → Option String
  built : String
  newId : Phase → String
  survives : Phase → Bool
  answers : Phase → Query → Bool
  verification : Phase → Option String
  builds : Builds
  images : List String
  snapshots : ℕ → Option Files
  currentMigration : Bool
  targetMigration : ℕ → Bool
  revisionThen : ℕ → ℕ

/-- The arguments of the call. -/
structure Request where
  instanceId : String
  toBuildId : Option ℕ
  yes : Bool
  expectedRevision : Option ℕ
  source : String
  runAliasGuard : Bool

abbrev Effect := FailingEffects.Effect World Failure

/-! ## The port of the instance -/

/-- `f"HOST_PORT={int(host_port)}"` -/
def portLine (port : ℕ) : List Char := "HOST_PORT=".toList ++ (toString port).toList

def isPortLine (line : List Char) : Bool := "HOST_PORT=".toList.isPrefixOf line

/-- The text of `.env` with the port. A pattern ends at a line feed only. -/
def alignText (port : ℕ) (text : List Char) : List Char :=
  if (text.splitOn '\n').any isPortLine then
    ['\n'].intercalate ((text.splitOn '\n').map fun line => if isPortLine line then portLine port else line)
  else text.rdropWhile (· = '\n') ++ '\n' :: (portLine port ++ ['\n'])

/-- The content of `.env` with the port, where it can be decoded. -/
def aligned (port : ℕ) : Option ByteArray → Option ByteArray
  | none => some (PythonText.writeText (String.ofList (portLine port ++ ['\n'])))
  | some content => (PythonText.readText content).map fun text =>
    PythonText.writeText (String.ofList (alignText port text.toList))

namespace World

/-- `DockerRuntime.container_id`, or `None` where the question raises. -/
def containerId (env : Conditions) (phase : Phase) (s : World) : Option String :=
  if env.answers phase .containerId then (s.container.filter Container.running).map Container.id else none

/-- `DockerRuntime.image_id`, or `None` where a question raises. -/
def imageId (env : Conditions) (phase : Phase) (s : World) : Option String :=
  let inspected :=
    if (s.containerId env phase).isSome && env.answers phase .inspect then s.container.map Container.image else none
  inspected.or (if env.answers phase .images then s.latest else none)

def isRunning (s : World) : Bool := s.container.any Container.running

/-- `current_image`: the recorded image, or the one that Docker has. -/
def currentImage (env : Conditions) (s : World) : Option String :=
  (given s.saved.imageId).or (given (s.imageId env .before))

end World

/-! ## The target -/

/-- What the selection looks at. -/
def Conditions.store (env : Conditions) : BuildArtifacts.Store where
  builds := env.builds
  images := env.images
  snapshots := fun id => (env.snapshots id).map Files.texts

/-- `_validate_target` -/
def validateTarget (env : Conditions) (id : ℕ) : Except Failure Build :=
  match (env.builds.listBuilds 200).find? (fun row => row.id = id) with
  | none => .error (.noBuild id)
  | some row =>
    if BuildArtifacts.isRollbackCandidate row = false then
      .error (if row.status = "success" then .collected id else .notSuccessful id row.status)
    else if BuildArtifacts.snapshotComplete (env.store.snapshots id) = false then .error (.incomplete id)
    else if BuildArtifacts.imageExists env.store row.ref = false then .error (.imageGone id row.ref)
    else .ok row

/-- The image that a target must not have. -/
def inUseImage (s : World) : Option String := (given s.row.imageId).or s.saved.imageId

/-- The build that the call returns to. -/
def findTarget (env : Conditions) (req : Request) (s : World) : Except Failure Build :=
  match req.toBuildId with
  | none =>
    match BuildArtifacts.selectRollbackTarget env.store none (inUseImage s) with
    | none => .error .noTarget
    | some row => .ok row
  | some id => validateTarget env id

/-- What the call knows before the stop. -/
structure Plan where
  manifest : Manifest
  target : Build
  revision : ℕ
  files : Files
  image : Option String

namespace Plan

/-- A rollback as it is recorded. -/
def operation (plan : Plan) (req : Request) (status : String) (error : Option String) : Operation where
  kind := "rollback"
  status := status
  toBuildId := plan.target.id
  source := req.source
  error := (error.filter (· ≠ "")).map fun error => String.ofList (error.toList.take 500)

end Plan

/-- The manifest after an operation. -/
def Manifest.recorded (m : Manifest) (operation : Operation) : Manifest :=
  { m with lastOperation := some operation, lastError := operation.error.or m.lastError }

namespace Manifest

/-- The original version is back, as far as Docker was asked. -/
def reinstated (m : Manifest) (cid image : Option String) : Manifest :=
  let named := if (given cid).isSome then m.withContainerId cid else m
  let seen := if (given image).isSome then named.withImageId image else named
  { seen with status := .running, desiredState := .running }

/-- Whose image the container has is not known. -/
def abandoned (m : Manifest) : Manifest :=
  { m.withContainerId none with status := .failed, desiredState := .running }

/-- The target has been verified. -/
def succeeded (m : Manifest) (cid image : Option String) (target : Build) : Manifest :=
  let named := if (given cid).isSome then m.withContainerId cid else m
  { named.withImageId ((given image).or target.imageId) with
    status := .running
    desiredState := .running
    lastError := none
    rollbackBuildId := some target.id }

end Manifest

section

variable (env : Conditions) (req : Request)

/-- A step that changes nothing here. -/
def run (step : Step) : Effect PUnit := attempt ((env.raises step).map (Failure.raised step))

/-! ## Files -/

def World.put (s : World) (file : GeneratedFile) (content : Option ByteArray) : World :=
  { s with files := Function.update s.files file content }

/-- A file gets a content, or is removed. -/
def change (step : Step) (file : GeneratedFile) (content : Option ByteArray) : Effect PUnit :=
  match env.raises step with
  | none => modify fun s => s.put file content
  | some text => do
    modify fun s => s.put file (env.left step (s.files file))
    throw (.raised step text)

/-- A file is written, or removed where it exists. -/
def changeFile (phase : Phase) (files : Files) (file : GeneratedFile) : Effect PUnit := do
  let s ← get
  if (files file).isSome ∨ (s.files file).isSome then change env (.writing phase file) file (files file)
  else pure ⟨⟩

/-- The loop over the files of `restore_config_snapshot` and of `_write_generated`. -/
def changeAll (phase : Phase) (files : Files) : List GeneratedFile → Effect PUnit
  | [] => pure ⟨⟩
  | file :: rest => do
    changeFile env phase files file
    changeAll phase files rest

/-- `restore_config_snapshot`, with its check by the caller. -/
def restoreConfigSnapshot (target : Build) : Effect PUnit :=
  match env.snapshots target.id with
  | none => throw (.snapshotMissing target.id)
  | some snapshot => do
    run env (.directory .target)
    changeAll env .target snapshot GeneratedFile.all

/-- `_align_restored_host_port` -/
def alignRestoredHostPort (hostPort : Option ℕ) : Effect PUnit :=
  match hostPort with
  | none => pure ⟨⟩
  | some port => do
    run env .readingEnv
    match aligned port ((← get).files .env) with
    | none => throw .undecodable
    | some content => change env .aligning .env (some content)

/-- `_write_generated` -/
def writeGenerated (files : Files) : Effect PUnit := do
  run env (.directory .original)
  changeAll env .original files GeneratedFile.all

/-- `_generated_matches` -/
def generatedMatches (files : Files) : Effect Bool := do
  run env .comparing
  let s ← get
  pure (GeneratedFile.all.all fun file => s.files file = files file)

/-! ## Docker -/

/-- `docker tag` of a reference as `:latest`. -/
def tagImage (phase : Phase) (ref : String) : Effect PUnit := do
  run env (.tagging phase)
  match env.resolve ref with
  | none => throw (.unresolved ref)
  | some image => modify fun s => { s with latest := some image }

/-- The container that `up` leaves. -/
def Conditions.launched (env : Conditions) (phase : Phase) (s : World) : Container where
  id := env.newId phase
  image := s.latest.getD env.built
  files := s.files
  running := env.survives phase

/-- `DockerRuntime.up` -/
def up (phase : Phase) : Effect PUnit :=
  match env.raises (.starting phase) with
  | none => modify fun s =>
    { s with
      latest := some (s.latest.getD env.built)
      container := some (env.launched phase s) }
  | some text => do
    modify fun s => { s with container := env.broken phase s.container }
    throw (.raised (.starting phase) text)

/-- `DockerRuntime.down` -/
def down (step : Step) : Effect PUnit := do
  run env step
  modify fun s => { s with container := none }

/-- The error of a verification that has failed. -/
def evaluateContainerVerification (phase : Phase) : Effect (Option String) := do
  run env (.verifying phase)
  pure (env.verification phase)

/-- `stop_or_abort` -/
def stopOrAbort : Effect PUnit := do
  tryCatch (run env .probing) fun e => throw (.unknownState (e.text req.instanceId))
  if (← get).isRunning then
    tryCatch (down env .stopping) fun e => throw (.stillRunning (e.text req.instanceId))

/-! ## Records -/

def save (step : Step) (m : Manifest) : Effect PUnit := do
  run env step
  modify fun s => { s with saved := m }

/-- `update_last_operation` -/
def updateLastOperation (phase : Phase) (operation : Operation) : Effect PUnit := do
  run env (.recording phase)
  modify fun s => { s with row := { s.row with lastOperation := some operation } }

/-- `_record` -/
def record (phase : Phase) (m : Manifest) (operation : Operation) : Effect Manifest := do
  suppress (updateLastOperation env phase operation)
  suppress (save env (.savingRecord phase) (m.recorded operation))
  pure (m.recorded operation)

def upsertFromManifest (phase : Phase) (m : Manifest) : Effect PUnit := do
  run env (.upserting phase)
  modify fun s => { s with row := s.row.upsertFromManifest m }

/-- `update_status` with the desired state `running`. -/
def updateStatus (phase : Phase) (status : Status) (clearLastError : Bool) : Effect PUnit := do
  run env (.updating phase)
  modify fun s =>
    { s with
      row :=
        { s.row with
          status := status
          desiredState := .running
          lastError := if clearLastError then none else s.row.lastError } }

/-! ## The call -/

/-- The checks; nothing is changed before the stop. -/
def checkRevision : Effect ℕ := do
  run env .revising
  let current := (← get).row.revision
  if req.expectedRevision.any (· ≠ current) then
    throw (.unexpectedRevision (req.expectedRevision.getD 0) (some current))
  pure current

def chooseTarget : Effect Build := do
  run env .listing
  match findTarget env req (← get) with
  | .error e => throw e
  | .ok target => pure target

/-- Migrations of the current or of the target version ask for a confirmation. -/
def confirmMigrations (target : Build) : Effect PUnit := do
  run env .archive
  if (env.currentMigration ∨ env.targetMigration target.id) ∧ req.yes = false then
    throw (.needsYes target.id env.currentMigration (env.targetMigration target.id))

/-- Everything before the stop. -/
def prepare : Effect Plan := do
  modify fun s => { s with stopped := false }
  run env .preparing
  run env .loading
  let m := (← get).saved
  if m.runtime ≠ .dockerCompose ∨ m.container = none then throw (.notContainer m.runtime)
  let target ← chooseTarget env req
  confirmMigrations env req target
  let revision ← checkRevision env req
  run env .reading
  let s ← get
  pure ⟨m, target, revision, s.files, s.currentImage env⟩

/-- From the stop to the verification of the target. -/
def replace (plan : Plan) : Effect PUnit := do
  stopOrAbort env req
  modify fun s => { s with stopped := true }
  restoreConfigSnapshot env plan.target
  alignRestoredHostPort env plan.manifest.hostPort
  tagImage env .target plan.target.ref
  up env .target
  match ← evaluateContainerVerification env .target with
  | some detail => throw (.notVerified plan.manifest.hostPort detail)
  | none => pure ⟨⟩

/-- A step of the compensation that does not stop it: whether it has succeeded, with what it leaves to report. -/
def tolerate (x : Effect (Bool × List String)) (heading : String) : Effect (Bool × List String) :=
  tryCatch x fun e => pure (false, [heading ++ e.text req.instanceId])

/-- `files_restored` -/
def restoreFiles (plan : Plan) : Effect (Bool × List String) :=
  tolerate req
    (do
      writeGenerated env plan.files
      let same ← generatedMatches env plan.files
      pure (same, if same then [] else ["生成物恢复后与原内容不一致"]))
    "生成物恢复失败："

/-- `image_retagged` -/
def retagImage (plan : Plan) : Effect (Bool × List String) :=
  match plan.image with
  | none => pure (false, ["缺少原镜像 ID，无法确认镜像已恢复"])
  | some image =>
    tolerate req
      (do
        tagImage env .original image
        pure (true, []))
      "原镜像打回 latest 失败："

/-- `compensated_up` -/
def relaunch : Effect (Bool × List String) :=
  tolerate req
    (do
      up env .original
      pure (true, []))
    "原版本重新拉起失败："

/-- `service_recovered` -/
def confirmService : Effect (Bool × List String) :=
  tolerate req
    (do
      let error ← evaluateContainerVerification env .original
      pure (error.isNone, []))
    "原版本恢复验证异常："

/-- What the compensation has found out. -/
structure Findings where
  filesRestored : Bool
  imageRetagged : Bool
  compensatedUp : Bool
  serviceRecovered : Bool
  cid : Option String
  observed : Option String

/-- The observed image is the original one. -/
def imageIdMatches (image observed : Option String) : Bool :=
  (normalizeImageId image).isSome && normalizeImageId observed = normalizeImageId image

/-- `restored` -/
def Findings.restored (found : Findings) (image : Option String) : Bool :=
  found.compensatedUp && found.serviceRecovered && found.filesRestored && found.imageRetagged &&
    imageIdMatches image found.observed

/-- What is to be reported once the service has been verified again. -/
def Findings.doubts (found : Findings) (image : Option String) (residual : List String) : List String :=
  if found.compensatedUp = false then []
  else if found.serviceRecovered = false then ["原版本拉起后验证未通过（服务未确认恢复）"]
  else if found.imageRetagged = false then
    if residual.any (fun item => PythonText.occursIn "镜像".toList item.toList) then [] else ["原镜像未确认打回 latest"]
  else if imageIdMatches image found.observed = false then ["观测到的镜像与原镜像不一致，不能视为已恢复原版本"]
  else []

/-- The questions and the verification after a second `up`. -/
def observe (compensatedUp : Bool) : Effect (Option String × Option String × Bool × List String) :=
  if compensatedUp then do
    let s ← get
    let recovered ← confirmService env req
    pure (s.containerId env .original, s.imageId env .original, recovered)
  else pure (none, none, false, [])

/-- The original version is started again. -/
def putBack (plan : Plan) : Effect (Findings × List String) := do
  let files ← restoreFiles env req plan
  let image ← retagImage env req plan
  let service ← relaunch env req
  let (cid, observed, recovered) ← observe env req service.1
  let found : Findings := ⟨files.1, image.1, service.1, recovered.1, cid, observed⟩
  let residual := files.2 ++ image.2 ++ service.2 ++ recovered.2
  pure (found, residual ++ found.doubts plan.image residual)

/-- From `down` to the verification of the original version. -/
def recover (plan : Plan) : Effect (Findings × List String) := do
  suppress (down env .tearingDown)
  putBack env req plan

/-- The manifest after the compensation. -/
def Plan.compensated (plan : Plan) (found : Findings) : Manifest :=
  if found.restored plan.image then plan.manifest.reinstated found.cid found.observed else plan.manifest.abandoned

/-- An event lists what the compensation leaves to report. -/
def noteResidual (residual : List String) : Effect PUnit :=
  if residual = [] then pure ⟨⟩ else suppress (run env (.noting .original))

/-- The row after the compensation. -/
def syncRow (m : Manifest) : Effect PUnit :=
  suppress do
    upsertFromManifest env .original m
    updateStatus env .original m.status false

/-- What follows a failure after the stop. -/
def compensate (plan : Plan) (e : Failure) : Effect PUnit := do
  let (found, residual) ← recover env req plan
  noteResidual env residual
  let m ← record env .original (plan.compensated found) (plan.operation req "failed" (some (e.text req.instanceId)))
  syncRow env m
  throw (.rolledBack plan.target.id e (found.restored plan.image) residual)

/-- The handler of the call. -/
def handle (plan : Plan) (e : Failure) : Effect PUnit := do
  let s ← get
  if s.stopped then compensate env req plan e
  else do
    let _ ← record env .before plan.manifest (plan.operation req "failed" (some (e.text req.instanceId)))
    throw e

/-- `cas_increment_revision` -/
def casIncrementRevision (revision : ℕ) : Effect PUnit := do
  run env .incrementing
  if env.revisionThen revision ≠ revision then throw .revisionConflict
  modify fun s => { s with row := { s.row with revision := revision + 1 } }

/-- The alias guard changes the alias only. -/
def guardAlias (m : Manifest) : Effect PUnit :=
  if req.runAliasGuard then do
    run env .guarding
    suppress (save env .savingGuarded m)
  else pure ⟨⟩

/-- What follows the verification of the target. -/
def finish (plan : Plan) : Effect Manifest := do
  let s ← get
  let m := plan.manifest.succeeded (s.containerId env .target) (s.imageId env .target) plan.target
  save env .saving m
  upsertFromManifest env .target m
  updateStatus env .target .running true
  run env .recordingStart
  let m ← record env .target m (plan.operation req "succeeded" none)
  run env (.noting .target)
  casIncrementRevision env plan.revision
  guardAlias env req m
  pure m

/-- `rollback_instance` -/
def rollbackInstance : Effect Manifest := do
  let plan ← prepare env req
  tryCatch (replace env req plan) (handle env req plan)
  finish env req plan

end

end LocalWebAccess.RollbackInstance
