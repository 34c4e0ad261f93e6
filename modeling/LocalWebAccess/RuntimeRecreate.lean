import LocalWebAccess.ContainerDeploy
import LocalWebAccess.DeploymentFingerprints
import LocalWebAccess.GuardedRuns

/-!
# Decisions, recreates and rebuilds of one container

A start of a deployed container takes a snapshot of `docker/`, renders it again
from the manifest and compares fingerprints. If only the runtime configuration has
changed, the container is recreated from the new files, and a recreate that fails
starts the container again from the snapshot. Everything else that is rebuilt goes
through `host_container`.

The history of a container is kept beside the state of the code: the files it was
last started from with success, and every restoration that has started it.
-/
namespace LocalWebAccess.RuntimeRecreate
open RaisingPrograms Prog ComposeObservation GuardedRuns
open ContainerDeploy (World Manifest Env Verdict ImageId)
open DeploymentFingerprints (Fingerprints StartAction fingerprintChangeAction)

/-- A snapshot that was restored and started, and the files of the last successful start. -/
structure Restoration where
  files : Files
  started : Files

/-- The three files of the configuration are restored as they were started. -/
structure Restoration.Exact (r : Restoration) : Prop where
  composeYaml : r.files .composeYaml = r.started .composeYaml
  dockerfile : r.files .dockerfile = r.started .dockerfile
  env : r.files .env = r.started .env

structure History where
  started : Files
  restorations : List Restoration

/-- The state of a call, with the history of the container. -/
structure Call extends ContainerDeploy.State where
  history : History

abbrev Run := Prog Exn Call

/-- A part of the call that does not touch the history. -/
def lift {α : Type} (p : ContainerDeploy.Run α) : Run α := fun c =>
  ((p c.toState).1, { c with toState := (p c.toState).2 })

/-- The container was started from the files in `docker/` with success. -/
def noteStarted : Run Unit :=
  modify (fun c => { c with history := { c.history with started := c.dir.files } })

/-- The files in `docker/` were restored and the container was started from them. -/
def noteRestoration : Run Unit :=
  modify (fun c => { c with history := { c.history with
    restorations := c.history.restorations ++ [⟨c.dir.files, c.history.started⟩] } })

def loadManifest : Run Unit := lift (modify (fun s => { s with manifest := s.stored }))

/-! ## The decision -/

section decision

/-- The outcomes of a decision: `stored` are the fingerprints of the manifest, `current` those
that are computed after the rendering. -/
structure DecisionEnv extends Env where
  stored : Option Fingerprints
  current : Except Exn Fingerprints
  baseline : Option Exn

variable (env : DecisionEnv)

/-- The container is pinned to the build it was rolled back to. -/
def pinned : Prop := env.stored.any (fun stored => stored.rollbackBuildId.any (· ≠ 0)) = true

instance : Decidable (pinned env) := by
  unfold pinned
  infer_instance

/-- `converge_generated_artifacts`: whether the files were rendered. -/
def convergeGeneratedArtifacts : Run Bool := do
  let c ← get
  if c.manifest.hostPort = none then pure false
  else do
    lift (ContainerDeploy.attempt env.toEnv .proxyConfig)
    lift (ContainerDeploy.renderFile env.toEnv .staticWsgi)
    lift (ContainerDeploy.renderFile env.toEnv .dockerfile)
    lift (ContainerDeploy.renderFile env.toEnv .composeYaml)
    lift (ContainerDeploy.renderFile env.toEnv .env)
    pure true

/-- What follows the comparison of the fingerprints. -/
def settleAction (action : StartAction) : Run StartAction := do
  match action with
  | .fullRebuild => do
    let _ ← lift (ContainerDeploy.restoreGenerated env.toEnv)
    pure .fullRebuild
  | .none => do
    check env.baseline
    pure .none
  | .runtimeRecreate => pure .runtimeRecreate

def deployedAction : Run StartAction := do
  if pinned env then pure .none
  else do
    lift (ContainerDeploy.snapshotGenerated env.toEnv)
    let c ← get
    if c.dir.files .composeYaml = none ∨ c.dir.files .dockerfile = none then pure .fullRebuild
    else do
      let rendered ← convergeGeneratedArtifacts env
      if rendered then do
        let current ← ofExcept env.current
        settleAction env (fingerprintChangeAction env.stored current).1
      else pure .fullRebuild

end decision

/-! ## A rebuild as a part of a call -/

/-- `host_container` has stopped the old container of a build-first rebuild, has failed after that
other than by a cancelled command, and its compensation has started the snapshot. -/
def restartsPrevious (env : Env) (w : World) : Bool :=
  match (ContainerDeploy.register env >>= fun _ => ContainerDeploy.beforeStop env) w.start with
  | (.error _, _) => false
  | (.ok _, s) =>
    match ContainerDeploy.afterStop env s with
    | (.ok _, _) => false
    | (.error exc, t) =>
      s.ctx.txn && (t.ctx.outcomeSettled || !exc.cancels) && env.restoreFault.isNone &&
        env.tagLatest.isNone && env.upAgain.isNone

def hostContainer (env : Env) : Run Unit := do
  let c ← get
  (lift (fun _ => ContainerDeploy.hostContainer env c.toWorld.start)).handle (fun exc => do
    if restartsPrevious env c.toWorld then do
      noteRestoration
      if env.answers.toOption.getD false then noteStarted
    raise exc)
  noteStarted

/-! ## The recreate -/

section recreate

structure RecreateEnv extends Env where
  loaded : Option Exn
  available : Option Exn
  rollbackReady : Option Exn
  downFinally : Option Exn
  fingerprints : Option Exn
  fallback : Env

variable (env : RecreateEnv)

/-- `_can_recreate_container_without_rebuild`. -/
def canRecreateContainerWithoutRebuild (files : Files) : Except Exn Bool :=
  if files .composeYaml = none ∨ files .env = none then .ok false
  else
    match env.imageQuery with
    | .ok image => .ok (image.any (· ≠ ""))
    | .error (.docker _) => .ok false
    | .error exc => .error exc

/-- `_recreate_failed_rollback`. -/
def recreateFailedRollback : ContainerDeploy.Run Unit := do
  suppress do
    check env.downFinally
    modify (fun s => { s with container := none })
  ContainerDeploy.setManifest (fun manifest => { manifest with containerId := none, imageId := none })
  ContainerDeploy.markFailed env.toEnv

/-- The part of `_recreate_restore_previous` that starts the container from the snapshot. -/
def startPrevious : Run Bool := do
  let c ← get
  if c.manifest.hostPort.any (· ≠ 0) then
    (do
      lift (ContainerDeploy.composeUp env.upAgain)
      noteRestoration
      let answers ← ofExcept env.answers
      lift (ContainerDeploy.setAnswered answers)
      if answers then noteStarted
      pure answers).handle (fun _ => pure false)
  else pure false

/-- The records of a recreate whose previous container serves again. -/
def recordPrevious (reason : Exn) : ContainerDeploy.Run Unit := do
  let containerId ← ofExcept (ContainerDeploy.safely env.restoredContainerId)
  let imageId ← ofExcept (ContainerDeploy.safely env.restoredImageId)
  ContainerDeploy.setManifest (fun manifest => { manifest with
    status := .running, containerId := containerId, imageId := imageId })
  ContainerDeploy.save env.toEnv .restoredSave
  ContainerDeploy.upsertFromManifest env.toEnv .restoredUpsert
  ContainerDeploy.updateStatus env.toEnv .restoredStatus .running
  ContainerDeploy.checkWrite env.toEnv .restoredOperation
  ContainerDeploy.checkWrite env.toEnv .restoredError
  ContainerDeploy.checkWrite env.toEnv .restoredEvent
  let iid := env.instanceId
  let text := reason.str
  raise (.hosting s!"实例 {iid} runtime recreate 失败，已回滚到旧配置并恢复服务：{text}")

/-- `_recreate_restore_previous`, which always raises. -/
def recreateRestorePrevious (reason : Exn) : Run Unit := do
  lift (suppress (ContainerDeploy.composeDown env.toEnv))
  let found ← lift (ContainerDeploy.restoreGenerated env.toEnv)
  let restored ← if found then startPrevious env else pure false
  if restored then lift (recordPrevious env reason)
  else do
    lift (recreateFailedRollback env)
    raise reason

/-- `stop_or_abort` with `compose stop`. -/
def stopOutcome : Except Exn Unit :=
  (stopOrAbort env.runningAtStop (fun _ => (env.down.map .error).getD (.ok ())) env.instanceId
    "runtime recreate" false true).1

/-- The old container is stopped, and its identity cleared. -/
def stopForRecreate : ContainerDeploy.Run Unit := do
  ContainerDeploy.attempt env.toEnv .rescue
  ofExcept (stopOutcome env)
  modify (fun s => { s with container := none })
  ContainerDeploy.clearContainerIdentity env.toEnv

/-- The port of the manifest, or else one that is allocated: whether it is a new one. -/
def recreatePort : ContainerDeploy.Run Bool := do
  let s ← get
  if s.manifest.hostPort.any (· ≠ 0) then pure false
  else do
    let port ← ContainerDeploy.ensureContainerPort env.toEnv false
    ContainerDeploy.setManifest (fun manifest => { manifest with hostPort := some port.1 })
    pure port.2

/-- The identity of the new container, as far as it is observed. -/
def observeRecreated : ContainerDeploy.Run Unit := do
  let containerId ← ofExcept (ContainerDeploy.safely env.containerId)
  let imageId ← ofExcept (ContainerDeploy.safely env.imageId)
  ContainerDeploy.setManifest (fun manifest => { manifest with
    containerId := (containerId.filter (· ≠ "")).or manifest.containerId
    imageId := (imageId.filter (· ≠ "")).or manifest.imageId })

/-- The records of a recreate that has come through. -/
def recordRecreated : ContainerDeploy.Run Unit := do
  ContainerDeploy.setManifest (fun manifest => { manifest with status := .running })
  check env.fingerprints
  ContainerDeploy.save env.toEnv .finalizeSave
  ContainerDeploy.updateStatus env.toEnv .finalizeStatus .running
  ContainerDeploy.checkWrite env.toEnv .startEvent

/-- The part of `recreate_container_runtime` that replaces the container. -/
def replaceContainer : Run Unit := do
  lift (stopForRecreate env)
  (lift (ContainerDeploy.composeUp env.up)).handle (recreateRestorePrevious env)
  let fresh ← lift (recreatePort env)
  lift (observeRecreated env)
  lift (ContainerDeploy.setAnswered env.liveness)
  let verdict ← ofExcept (env.verification.mapError Subtype.val)
  match verdict with
  | .failed => do
    if fresh then
      lift (suppress (ContainerDeploy.releaseInstance env.toEnv
        ((env.writeFault .releasePorts).map Subtype.val)))
    recreateRestorePrevious env (.hosting
      (if env.verificationError = "" then "runtime recreate 后验证失败" else env.verificationError))
  | _ => do
    noteStarted
    lift (recordRecreated env)

def recreateContainerRuntime : Run Unit := do
  loadManifest
  check env.loaded
  check env.available
  (check env.rollbackReady).handle (fun exc => do
    lift (ContainerDeploy.restoreGeneratedForTxn env.toEnv)
    raise exc)
  let c ← get
  let possible ← ofExcept (canRecreateContainerWithoutRebuild env c.dir.files)
  if possible then replaceContainer env else hostContainer env.fallback

end recreate

/-! ## Sequences of calls -/

/-- The state between the parts of the calls: `pending` is the decision that a start has come to
and not yet followed. -/
structure Machine where
  world : World
  pending : StartAction
  history : History

/-- The call that goes on from here. -/
def Machine.call (m : Machine) : Call := { m.world.start with history := m.history }

/-- The state after a call, or the part of one. -/
def Call.leave (c : Call) (pending : StartAction) : Machine := ⟨c.toWorld, pending, c.history⟩

inductive Action where
  | decide (env : DecisionEnv)
  | recreate (env : RecreateEnv)
  | rebuild (env : Env)
  | breakOff
  | edit (rebuildStrategy : Option String)

/-- `_is_deployed_container`. -/
def isDeployedContainer (manifest : Manifest) : Bool := manifest.containerId.any (· ≠ "")

def Machine.decide (m : Machine) (env : DecisionEnv) : Machine :=
  let outcome := (loadManifest >>= fun _ => deployedAction env) m.call
  outcome.2.leave (outcome.1.toOption.getD .none)

def Machine.recreate (m : Machine) (env : RecreateEnv) : Machine :=
  (recreateContainerRuntime env m.call).2.leave .none

def Machine.rebuild (m : Machine) (env : Env) : Machine := (hostContainer env m.call).2.leave .none

/-- A start decides and then recreates, rebuilds or does neither, and may break off in between;
a rebuild is also called for itself; the settings of the manifest are edited between calls. -/
def step (m : Machine) : Action → Option Machine
  | .decide env =>
    if m.pending = .none ∧ isDeployedContainer m.world.stored then some (m.decide env) else none
  | .recreate env => if m.pending = .runtimeRecreate then some (m.recreate env) else none
  | .rebuild env => if m.pending ≠ .runtimeRecreate then some (m.rebuild env) else none
  | .breakOff => if m.pending ≠ .none then some { m with pending := .none } else none
  | .edit rebuildStrategy =>
    if m.pending = .none then
      some { m with world := { m.world with
        stored := { m.world.stored with rebuildStrategy := rebuildStrategy } } }
    else none

/-- A container that was just started from the files in `docker/`. -/
def start (w : World) : Machine := ⟨w, .none, ⟨w.dir.files, []⟩⟩

end LocalWebAccess.RuntimeRecreate
