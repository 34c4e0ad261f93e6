import LocalWebAccess.ComposeObservation
import LocalWebAccess.GeneratedFiles
import LocalWebAccess.RaisingPrograms
import Mathlib.Data.List.Range

/-!
# Deploying a container

`host_container` from the registration of the build to its handlers. A rebuild
of a running container builds first: it snapshots the generated files, keeps the
old image under `:prev`, renders and builds while the old container serves, and
only then stops it. Whatever fails before the stop restores the snapshot;
whatever fails after it brings the old version back.

Every call of Docker, of the renderer and of the registry is given by its
outcome in the environment of the run.
-/
namespace LocalWebAccess.ContainerDeploy
open ComposeObservation RaisingPrograms Prog

abbrev ImageId := String
abbrev Port := ℕ

inductive RebuildStrategy where
  | buildFirst
  | stopFirst
  deriving DecidableEq, Repr

/-- The fields of the manifest and of its container that a deployment reads or writes. -/
structure Manifest where
  status : Status
  containerId : Option String
  imageId : Option ImageId
  hostPort : Option Port
  rebuildStrategy : Option String

/-- `rebuild_strategy`. -/
def Manifest.strategy (manifest : Manifest) : RebuildStrategy :=
  if manifest.rebuildStrategy = some "stop-first" then .stopFirst else .buildFirst

/-- The container that runs: what it was started from, and whether it has answered
the health check that follows its start. -/
structure Container where
  files : Files
  image : Option ImageId
  answered : Bool

/-- What a deployment finds and leaves: the generated files, the images under `:latest` and
`:prev`, the container, `local-web.json`, the rows of the registry and the ports. -/
structure World where
  dir : DockerDir
  latestTag : Option ImageId
  prevTag : Option ImageId
  container : Option Container
  stored : Manifest
  registryStatus : Status
  containerPort : Option Port
  ports : Port → Option String

/-- `_ContainerDeploy`. -/
structure Deploy where
  txn : Bool
  hostPort : Port
  freshPort : Bool
  oldStopped : Bool
  stopAborted : Bool
  upCompleted : Bool
  outcomeSettled : Bool

def Deploy.initial (txn : Bool) : Deploy := ⟨txn, 0, false, false, false, false, false⟩

/-- The state of a run, with the manifest object it has loaded. -/
structure State extends World where
  manifest : Manifest
  ctx : Deploy

/-- The state in which `host_container` is called. -/
def World.start (w : World) : State :=
  { w with manifest := w.stored, ctx := Deploy.initial false }

/-- The steps that may raise before the old container is stopped. -/
inductive Step where
  | preconditions
  | addBuild
  | beginStatus
  | identityReady
  | snapshot
  | tagPrevious
  | proxyConfig
  | render (file : GeneratedFile)
  | portLookup
  | portReuse
  | portRelease
  | portAllocate
  | build
  | rescue

/-- The writes that may fail after the stop and in the handlers. -/
inductive Write where
  | clearIdentity
  | commitNetwork
  | commitSave
  | commitUpsert
  | commitStatus
  | finalizeEvent
  | finalizeSave
  | finalizeStatus
  | recordStarted
  | recordHealth
  | startEvent
  | restoredSave
  | restoredUpsert
  | restoredStatus
  | restoredOperation
  | restoredError
  | restoredEvent
  | failedSave
  | failedUpsert
  | failedStatus
  | failedEvent
  | residualSave
  | residualOperation
  | cancelOperation
  | cancelError
  | cancelSave
  | abortStatus
  | releasePorts
  | rollbackSave
  | rollbackStatus
  | rollbackEvent

/-- `overall_status` of a verification. -/
inductive Verdict where
  | passed
  | degraded
  | failed

/-- The outcomes of everything the run calls. -/
structure Env where
  instanceId : String
  fault : Step → Option Exn
  writeFault : Write → Option Failure
  runningAtBegin : Except Exn Bool
  envChanged : Except Exn Bool
  runningForEnv : Except Exn Bool
  imageQuery : Except Exn (Option ImageId)
  rendered : GeneratedFile → Option Bytes
  listening : Bool
  portStart : Port
  portEnd : Port
  portInUse : Port → Bool
  built : Option ImageId
  runningAtStop : Except Exn Bool
  down : Option Exn
  up : Option Exn
  containerId : Except Failure (Option String)
  imageId : Except Failure (Option ImageId)
  verification : Except Failure Verdict
  verificationError : String
  liveness : Bool
  restoreFault : Option Failure
  restoredPartly : Files
  downAgain : Option Exn
  runningAtRollback : Except Exn Bool
  lastGoodEnv : Except Exn Bool
  tagLatest : Option Exn
  upAgain : Option Exn
  answers : Except Exn Bool
  restoredContainerId : Except Failure (Option String)
  restoredImageId : Except Failure (Option ImageId)

abbrev Run := Prog Exn State

section primitives

variable (env : Env)

def attempt (step : Step) : Run Unit := check (env.fault step)

def checkWrite (write : Write) : Run Unit := check ((env.writeFault write).map Subtype.val)

def setManifest (f : Manifest → Manifest) : Run Unit :=
  modify (fun s => { s with manifest := f s.manifest })

def setCtx (f : Deploy → Deploy) : Run Unit := modify (fun s => { s with ctx := f s.ctx })

/-- `manifest.save`, which replaces the file as a whole. -/
def save (write : Write) : Run Unit := do
  checkWrite env write
  modify (fun s => { s with stored := s.manifest })

/-- `upsert_from_manifest`. -/
def upsertFromManifest (write : Write) : Run Unit := do
  checkWrite env write
  modify (fun s => { s with
    registryStatus := s.manifest.status, containerPort := s.manifest.hostPort })

def updateStatus (write : Write) (status : Status) : Run Unit := do
  checkWrite env write
  modify (fun s => { s with registryStatus := status })

/-- `_safe`: a `DockerError` of a query is read as nothing observed. -/
def safely {α : Type} : Except Failure (Option α) → Except Exn (Option α)
  | .ok value => .ok value
  | .error ⟨.docker _, _⟩ => .ok none
  | .error ⟨exc, _⟩ => .error exc

/-- `restore_generated`; copies that fail leave some mixture of the two directories. -/
def restoreGenerated : Run Bool := do
  let s ← get
  match s.dir.prev, env.restoreFault with
  | some _, some exc => do
    modify (fun s => { s with dir := { s.dir with files := env.restoredPartly } })
    raise exc.val
  | _, _ => do
    modify (fun s => { s with dir := s.dir.restoreGenerated.2 })
    pure s.dir.restoreGenerated.1

def composeDown : Run Unit := do
  check env.downAgain
  modify (fun s => { s with container := none })

def composeUp (fault : Option Exn) : Run Unit := do
  check fault
  modify (fun s => { s with container := some ⟨s.dir.files, s.latestTag, false⟩ })

/-- The end of `_wait_for_http`. -/
def setAnswered (answered : Bool) : Run Unit :=
  modify (fun s => { s with
    container := s.container.map (fun container => { container with answered := answered }) })

end primitives

section ports

variable (env : Env)

/-- `allocate_port`: insert the row unless the port has one, and tell whether it is ours. -/
def allocatePort (step : Step) (port : Port) : Run Bool := do
  attempt env step
  let s ← get
  match s.ports port with
  | none => do
    modify (fun s => { s with ports := Function.update s.ports port (some env.instanceId) })
    pure true
  | some owner => pure (owner = env.instanceId)

def releaseRows (ports : Port → Option String) (instanceId : String) : Port → Option String :=
  fun port => (ports port).filter (· ≠ instanceId)

/-- `release_instance_ports`. -/
def releaseInstance (fault : Option Exn) : Run Unit := do
  check fault
  modify (fun s => { s with ports := releaseRows s.ports env.instanceId })

/-- The first port of the pool that has no row and can be bound. -/
def freePort (ports : Port → Option String) : Option Port :=
  (List.range' env.portStart (env.portEnd + 1 - env.portStart)).find?
    (fun port => (ports port).isNone && !env.portInUse port)

/-- `PortAllocator.allocate`, where no other process takes a port in between. -/
def allocate : Run Port := do
  let s ← get
  match freePort env s.ports with
  | none =>
    let start := env.portStart
    let stop := env.portEnd
    raise (.other s!"[PORT_ERROR] 端口池 [{start}, {stop}] 已耗尽")
  | some port => do
    let _ ← allocatePort env .portAllocate port
    pure port

/-- The registered port of the instance, if it is to be used again. -/
def reusablePort (containerPort : Option Port) (allowListeningReuse : Bool) : Option Port :=
  (containerPort.filter (· ≠ 0)).filter (fun _ => allowListeningReuse || !env.listening)

/-- The part of `_ensure_container_port` that allocates a new port. -/
def freshPort : Run (Port × Bool) := do
  releaseInstance env (env.fault .portRelease)
  let port ← allocate env
  pure (port, true)

/-- `_ensure_container_port`: the port, and whether it is a new one. -/
def ensureContainerPort (allowListeningReuse : Bool) : Run (Port × Bool) := do
  attempt env .portLookup
  let s ← get
  match reusablePort env s.containerPort allowListeningReuse with
  | some existing => do
    let ours ← allocatePort env .portReuse existing
    if ours then pure (existing, false) else freshPort env
  | none => freshPort env

end ports

section stages

variable (env : Env)

/-- `_build_first_applies`. -/
def buildFirstApplies (manifest : Manifest) : Bool :=
  manifest.containerId.isSome && manifest.strategy = .buildFirst &&
    env.runningAtBegin.toOption.getD false

/-- The choice of `_begin_container_deploy`: with a changed business environment a rebuild
that is configured to stop first builds first too. -/
def choosesBuildFirst (manifest : Manifest) : Except Exn Bool :=
  if buildFirstApplies env manifest then .ok true
  else if manifest.containerId.isSome ∧ manifest.strategy = .stopFirst then
    match env.envChanged with
    | .ok true => env.runningForEnv
    | .ok false => .ok false
    | .error exc => .error exc
  else .ok false

/-- `_begin_container_deploy`. -/
def beginContainerDeploy : Run Unit := do
  let s ← get
  let txn ← ofExcept (choosesBuildFirst env s.manifest)
  attempt env .addBuild
  attempt env .beginStatus
  -- the registry keeps the status of the service while the build of a transaction runs
  modify (fun s => { s with
    registryStatus := if txn then s.registryStatus else .building
    ctx := Deploy.initial txn })

/-- The image of the old container, where `manifest` or the query tells it. -/
def oldImage (manifest : Manifest) : Except Exn (Option ImageId) :=
  match manifest.imageId.filter (· ≠ "") with
  | some image => .ok (some image)
  | none =>
    match env.imageQuery with
    | .ok image => .ok (image.filter (· ≠ ""))
    | .error (.docker _) => .ok none
    | .error exc => .error exc

/-- `snapshot_generated`. -/
def snapshotGenerated : Run Unit := do
  modify (fun s => { s with dir := s.dir.snapshotGenerated (env.fault .snapshot).isSome })
  attempt env .snapshot

/-- `tag_image(old_image, ":prev")`, with the message of `prepare_build_first`. -/
def tagPrevious (image : ImageId) : Run Unit :=
  match env.fault .tagPrevious with
  | none => modify (fun s => { s with prevTag := some image })
  | some (.docker message) =>
    let iid := env.instanceId
    let exc := (Exn.docker message).str
    raise (.hosting s!"实例 {iid} 无法保留旧镜像，已中止重建（旧版本仍在服务）：{exc}")
  | some exc => raise exc

/-- `prepare_build_first`. -/
def prepareBuildFirst : Run Unit := do
  let s ← get
  let image ← ofExcept (oldImage env s.manifest)
  match image with
  | none =>
    let iid := env.instanceId
    raise (.hosting (s!"实例 {iid} 无法确定当前镜像，已中止重建（旧版本仍在服务）；" ++
      "如需强制重建请在 manifest 设置 rebuildStrategy: stop-first"))
  | some image => do
    snapshotGenerated env
    tagPrevious env image

def stopOutcome : Except Exn Unit :=
  (stopOrAbort env.runningAtStop (fun _ => (env.down.map .error).getD (.ok ())) env.instanceId "重建"
    true true).1

/-- `stop_or_abort` of the old container. Where it returns, nothing runs any more: the command
has stopped the container, or it was observed not to run. -/
def stopOldContainer : Run Unit :=
  match stopOutcome env with
  | .ok () => modify (fun s => { s with container := none })
  | .error (.hosting message) => do
    setCtx (fun ctx => { ctx with stopAborted := true })
    raise (.hosting message)
  | .error exc => raise exc

/-- `_clear_container_identity`. -/
def clearContainerIdentity : Run Unit := do
  setManifest (fun manifest => { manifest with containerId := none, imageId := none })
  save env .clearIdentity

/-- `_prepare_previous_container`. -/
def preparePreviousContainer : Run Unit := do
  let s ← get
  if s.ctx.txn then prepareBuildFirst env
  else do
    attempt env .rescue
    stopOldContainer env
    clearContainerIdentity env

/-- One file of the renderer, which may raise before or after it has written. -/
def renderFile (file : GeneratedFile) : Run Unit := do
  modify (fun s => { s with dir := s.dir.write file (env.rendered file) })
  attempt env (.render file)

/-- `_render_container_artifacts`. -/
def renderContainerArtifacts : Run Unit := do
  attempt env .proxyConfig
  renderFile env .staticWsgi
  renderFile env .dockerfile
  let s ← get
  let port ← ensureContainerPort env s.ctx.txn
  setCtx (fun ctx => { ctx with hostPort := port.1, freshPort := port.2 })
  renderFile env .composeYaml
  renderFile env .env

/-- `_build_container_image`. -/
def buildContainerImage : Run Unit := do
  modify (fun s => { s with latestTag := env.built })
  let s ← get
  match env.fault .build with
  | some (.docker message) =>
    let exc := (Exn.docker message).str
    raise (.docker (if s.ctx.txn then s!"构建失败，旧版本仍在服务：{exc}" else message))
  | fault => check fault

/-- The part of `_swap_in_new_container` up to the stop of the old container. -/
def swapOutOldContainer : Run Unit := do
  let s ← get
  if s.ctx.txn then do
    attempt env .rescue
    stopOldContainer env
    setCtx (fun ctx => { ctx with oldStopped := true })

/-- The rest of `_swap_in_new_container`. -/
def startNewContainer : Run Unit := do
  let s ← get
  if s.ctx.txn then clearContainerIdentity env
  composeUp env.up
  setCtx (fun ctx => { ctx with upCompleted := true })

end stages

/-! ## Compensation and the handlers -/

section handlers

variable (env : Env)

/-- `_mark_failed`, which swallows the failures of its own writes. -/
def markFailed : Run Unit := do
  setManifest (fun manifest => { manifest with status := .failed })
  suppress do
    save env .failedSave
    upsertFromManifest env .failedUpsert
    updateStatus env .failedStatus .failed
    checkWrite env .failedEvent

/-- The part of `_compensate_build_first` that starts the old version: whether it answers,
and the notes on what went wrong. -/
def bringBackPrevious : Run (Bool × List String) :=
  let envNotes :=
    match env.lastGoodEnv with
    | .ok true => []
    | .ok false => ["无上次成功业务环境记录，沿用当前 .env.local"]
    | .error exc =>
      let text := exc.str
      [s!"恢复 last-good 业务环境失败：{text}"]
  let start : Run (Bool × List String) := do
    check env.tagLatest
    let s ← get
    match s.prevTag with
    | none => raise (.docker "docker tag :prev :latest 失败")
    | some image => do
      modify (fun s => { s with latestTag := some image })
      composeUp env.upAgain
      let answers ← ofExcept env.answers
      setAnswered answers
      pure (answers, if answers then envNotes else envNotes ++ ["旧版本拉起后健康检查未通过"])
  start.handle (fun exc =>
    let text := exc.str
    pure (false, envNotes ++ [s!"拉起旧版本失败：{text}"]))

/-- The records of a compensation that has brought the old version back. -/
def recordRestored (reason : Exn) : Run Unit := do
  let containerId ← ofExcept (safely env.restoredContainerId)
  let imageId ← ofExcept (safely env.restoredImageId)
  let s ← get
  setManifest (fun manifest => { manifest with
    status := .running, containerId := containerId, imageId := imageId,
    hostPort := some s.ctx.hostPort })
  save env .restoredSave
  upsertFromManifest env .restoredUpsert
  updateStatus env .restoredStatus .running
  checkWrite env .restoredOperation
  checkWrite env .restoredError
  checkWrite env .restoredEvent
  let iid := env.instanceId
  let text := reason.str
  raise (.hosting s!"实例 {iid} 重建失败，已回滚到旧版本并恢复服务：{text}")

/-- The records of a compensation that has not. -/
def recordResidual (reason : Exn) (notes : List String) : Run Unit := do
  markFailed env
  suppress do
    save env .residualSave
    checkWrite env .residualOperation
  let text := reason.str
  let residual := String.intercalate "；" notes
  raise (.hosting s!"重建失败且回滚未完成：{text}；{residual}")

/-- `_compensate_build_first`, which always raises. -/
def compensateBuildFirst (reason : Exn) : Run Unit := do
  let downNotes ← ((composeDown env) >>= fun _ => pure []).handle (fun exc =>
    let text := exc.str
    pure [s!"清理新容器失败：{text}"])
  let found ← restoreGenerated env
  let back ←
    if found then bringBackPrevious env else pure (false, ["缺少生成物快照，无法恢复 compose"])
  if back.1 then recordRestored env reason else recordResidual env reason (downNotes ++ back.2)

/-- `_restore_generated_for_txn`, which swallows an `OSError`. -/
def restoreGeneratedForTxn : Run Unit :=
  ((restoreGenerated env) >>= fun _ => pure ()).handle (fun exc =>
    match exc with
    | .os _ => pure ()
    | exc => raise exc)

def releaseFreshPort : Run Unit := do
  let s ← get
  if s.ctx.freshPort then
    suppress (releaseInstance env ((env.writeFault .releasePorts).map Subtype.val))

/-- `_handle_container_deploy_cancelled`. -/
def handleContainerDeployCancelled : Run Unit := do
  let s ← get
  if s.ctx.txn ∧ s.ctx.oldStopped = false then restoreGeneratedForTxn env
  releaseFreshPort env
  checkWrite env .cancelOperation
  checkWrite env .cancelError
  suppress (save env .cancelSave)

/-- `_handle_container_deploy_failed`. -/
def handleContainerDeployFailed (exc : Exn) : Run Unit := do
  let s ← get
  if s.ctx.txn ∧ s.ctx.oldStopped then compensateBuildFirst env exc
  else if s.ctx.stopAborted ∨ (s.ctx.txn ∧ s.ctx.oldStopped = false) then do
    if s.ctx.txn then restoreGeneratedForTxn env
    updateStatus env .abortStatus s.manifest.status
  else do
    releaseFreshPort env
    if s.ctx.upCompleted then suppress (composeDown env)
    markFailed env

/-- `_liveness_failed_rollback`. -/
def livenessFailedRollback : Run Unit := do
  suppress do
    let running ← ofExcept env.runningAtRollback
    if running then composeDown env
  releaseFreshPort env
  setManifest (fun manifest => { manifest with status := .failed })
  suppress (save env .rollbackSave)
  updateStatus env .rollbackStatus .failed
  checkWrite env .rollbackEvent

end handlers

/-! ## After the new container is up -/

section conclusion

variable (env : Env)

/-- `_observe_new_container`. -/
def observeNewContainer : Run Unit := do
  let containerId ← ofExcept (safely env.containerId)
  let imageId ← ofExcept (safely env.imageId)
  let s ← get
  match containerId with
  | some containerId =>
    setManifest (fun manifest => { manifest with
      containerId := some containerId, imageId := imageId, hostPort := some s.ctx.hostPort })
  | none => do
    setCtx (fun ctx => { ctx with outcomeSettled := true })
    let iid := env.instanceId
    let exc := Exn.hosting s!"实例 {iid} 启动后未能观测到新 containerId"
    if s.ctx.txn then compensateBuildFirst env exc
    else do
      suppress (composeDown env)
      releaseFreshPort env
      markFailed env
      raise exc

/-- `_commit_verifying_state`. -/
def commitVerifyingState : Run Unit := do
  checkWrite env .commitNetwork
  setManifest (fun manifest => { manifest with status := .verifying })
  save env .commitSave
  upsertFromManifest env .commitUpsert
  updateStatus env .commitStatus .verifying

/-- `_verify_container_deployment`, which waits for an answer before it looks at the probes. -/
def verifyContainerDeployment : Run Verdict := do
  setAnswered env.liveness
  let verdict ← ofExcept (env.verification.mapError Subtype.val)
  match verdict with
  | .failed => do
    setCtx (fun ctx => { ctx with outcomeSettled := true })
    let s ← get
    let iid := env.instanceId
    let port := s.ctx.hostPort
    let error := env.verificationError
    let exc := Exn.hosting s!"实例 {iid} 必选探针未通过（host_port={port}）：{error}"
    if s.ctx.txn then compensateBuildFirst env exc
    else do
      livenessFailedRollback env
      raise exc
    pure verdict
  | _ => pure verdict

/-- `_finalize_container_deploy`. -/
def finalizeContainerDeploy (verdict : Verdict) : Run Unit := do
  match verdict with
  | .degraded => checkWrite env .finalizeEvent
  | _ => pure ()
  setManifest (fun manifest => { manifest with status := .running })
  save env .finalizeSave
  updateStatus env .finalizeStatus .running
  checkWrite env .recordStarted
  if env.liveness then checkWrite env .recordHealth
  checkWrite env .startEvent

/-- The body of `host_container` up to and including the stop of the old container. -/
def beforeStop : Run Unit := do
  attempt env .identityReady
  preparePreviousContainer env
  renderContainerArtifacts env
  buildContainerImage env
  swapOutOldContainer env

/-- The body of `host_container` from there on. -/
def afterStop : Run Unit := do
  startNewContainer env
  observeNewContainer env
  commitVerifyingState env
  let verdict ← verifyContainerDeployment env
  finalizeContainerDeploy env verdict

/-- The handlers of `host_container`; the exception is raised again after them. -/
def conclude (exc : Exn) : Run Unit := do
  let s ← get
  if exc.cancels then handleContainerDeployCancelled env
  else if s.ctx.outcomeSettled = false then handleContainerDeployFailed env exc
  raise exc

/-- The `try` statement of `host_container`. -/
def deploy : Run Unit := (beforeStop env >>= fun _ => afterStop env).handle (conclude env)

/-- What `host_container` does before its `try` statement. -/
def register : Run Unit := do
  modify (fun s => { s with manifest := s.stored })
  attempt env .preconditions
  beginContainerDeploy env

def hostContainer : Run Unit := do
  register env
  deploy env

end conclusion

end LocalWebAccess.ContainerDeploy
