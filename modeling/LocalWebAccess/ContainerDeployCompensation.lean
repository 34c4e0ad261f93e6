import LocalWebAccess.ContainerDeployAborts

/-!
# Rebuilds that fail after the stop

From the stop on, every failure but one ends in a single compensation, whichever
stage raises it and whichever handler takes it. What the records say afterwards
depends on how far the stages had written them and on the steps of the
compensation itself. The exception is a cancelled `up`: its handler brings
nothing back.
-/
namespace LocalWebAccess.ContainerDeploy
open ComposeObservation RaisingPrograms Prog

/-- The image that a rebuild keeps under `:prev`. -/
def previousImage (env : Env) (w : World) : Option ImageId :=
  (oldImage env w.stored).toOption.bind id

/-! ## Up to the stop -/

section stop

variable (env : Env)

theorem framed_of_portless {α : Type} {p : Run α} (keeps : Keeps Portless p) : Keeps Framed p :=
  fun s => (keeps s).toFramed

theorem allocatePort_framed (step : Step) (port : Port) : Keeps Framed (allocatePort env step port) := by
  unfold allocatePort
  refine Keeps.bind (fun _ _ _ => Framed.trans) (framed_of_portless (attempt_portless env _)) (fun _ => ?_)
  refine Keeps.bind (fun _ _ _ => Framed.trans) Framed.refl (fun s => ?_)
  split
  · exact fun _ => ⟨rfl, rfl, rfl, rfl, rfl, rfl, rfl, rfl, rfl⟩
  · exact Framed.refl

theorem freshPort_framed : Keeps Framed (freshPort env) := by
  unfold freshPort
  refine Keeps.bind (fun _ _ _ => Framed.trans) (fun s => ?_) (fun _ => ?_)
  · unfold releaseInstance
    cases env.fault .portRelease
    · exact ⟨rfl, rfl, rfl, rfl, rfl, rfl, rfl, rfl, rfl⟩
    · exact .refl s
  · refine Keeps.bind (fun _ _ _ => Framed.trans) ?_ (fun _ => Framed.refl)
    unfold allocate
    refine Keeps.bind (fun _ _ _ => Framed.trans) Framed.refl (fun s => ?_)
    split
    · exact Framed.refl
    · exact Keeps.bind (fun _ _ _ => Framed.trans) (allocatePort_framed env _ _) (fun _ => Framed.refl)

theorem ensureContainerPort_framed (allow : Bool) : Keeps Framed (ensureContainerPort env allow) := by
  unfold ensureContainerPort
  refine Keeps.bind (fun _ _ _ => Framed.trans) (framed_of_portless (attempt_portless env _)) (fun _ => ?_)
  refine Keeps.bind (fun _ _ _ => Framed.trans) Framed.refl (fun s => ?_)
  split
  · refine Keeps.bind (fun _ _ _ => Framed.trans) (allocatePort_framed env _ _) (fun ours => ?_)
    split_ifs
    · exact Framed.refl
    · exact freshPort_framed env
  · exact freshPort_framed env

theorem renderContainerArtifacts_framed : Keeps Framed (renderContainerArtifacts env) := by
  have file (file : GeneratedFile) : Keeps Framed (renderFile env file) :=
    framed_of_portless (renderFile_portless env file)
  unfold renderContainerArtifacts
  refine Keeps.bind (fun _ _ _ => Framed.trans) (framed_of_portless (attempt_portless env _)) (fun _ => ?_)
  refine Keeps.bind (fun _ _ _ => Framed.trans) (file _) (fun _ => ?_)
  refine Keeps.bind (fun _ _ _ => Framed.trans) (file _) (fun _ => ?_)
  refine Keeps.bind (fun _ _ _ => Framed.trans) Framed.refl (fun _ => ?_)
  refine Keeps.bind (fun _ _ _ => Framed.trans) (ensureContainerPort_framed env _) (fun _ => ?_)
  refine Keeps.bind (fun _ _ _ => Framed.trans) (fun _ => ?_) (fun _ => ?_)
  · exact ⟨rfl, rfl, rfl, rfl, rfl, rfl, rfl, rfl, rfl⟩
  · exact Keeps.bind (fun _ _ _ => Framed.trans) (file _) (fun _ => file _)

theorem stopOldContainer_ok {s u : State} (h : stopOldContainer env s = (.ok (), u)) :
    u = { s with container := none } := by
  unfold stopOldContainer at h
  cases outcome : stopOutcome env with
  | ok _ =>
    rw [outcome] at h
    exact (Prod.mk.inj h).2.symm
  | error exc =>
    rw [outcome] at h
    cases exc <;> cases h

theorem swapOutOldContainer_ok {s u : State} (h : swapOutOldContainer env s = (.ok (), u))
    (txn : s.ctx.txn = true) :
    u = { s with container := none, ctx := { s.ctx with oldStopped := true } } := by
  unfold swapOutOldContainer at h
  obtain ⟨_, _, got, h⟩ := bind_eq_ok.mp h
  cases got
  rw [if_pos txn] at h
  obtain ⟨_, _, rescued, h⟩ := bind_eq_ok.mp h
  obtain ⟨-, rfl⟩ := check_eq_ok.mp rescued
  obtain ⟨_, _, stopped, h⟩ := bind_eq_ok.mp h
  obtain rfl := stopOldContainer_ok env stopped
  exact (Prod.mk.inj h).2.symm

end stop

/-- What a build-first rebuild leaves that has come as far as the stop. -/
structure Stopped (env : Env) (w : World) (u : State) : Prop where
  files : u.dir.files = env.rendered
  prev : u.dir.prev = some w.dir.files
  known : (previousImage env w).isSome
  prevTag : u.prevTag = previousImage env w
  latestTag : u.latestTag = env.built
  container : u.container = none
  stored : u.stored = w.stored
  manifest : u.manifest = w.stored
  registryStatus : u.registryStatus = w.registryStatus
  txn : u.ctx.txn = true
  oldStopped : u.ctx.oldStopped = true
  outcomeSettled : u.ctx.outcomeSettled = false

theorem renderFile_ok {env : Env} {file : GeneratedFile} {s t : State}
    (h : renderFile env file s = (.ok (), t)) :
    t = { s with dir := s.dir.write file (env.rendered file) } := by
  obtain ⟨_, _, written, h⟩ := bind_eq_ok.mp h
  cases written
  exact (check_eq_ok.mp h).2.symm

theorem ensureContainerPort_files (env : Env) (allow : Bool) :
    Keeps (fun s t : State => t.dir = s.dir) (ensureContainerPort env allow) := by
  have trans (s t u : State) (h : t.dir = s.dir) (h' : u.dir = t.dir) : u.dir = s.dir := h'.trans h
  have allocatePort_files (step : Step) (port : Port) :
      Keeps (fun s t : State => t.dir = s.dir) (allocatePort env step port) := by
    unfold allocatePort
    refine Keeps.bind trans (fun s => by rw [attempt_apply]) (fun _ => ?_)
    refine Keeps.bind trans (fun _ => rfl) (fun s => ?_)
    split <;> exact fun _ => rfl
  have freshPort_files : Keeps (fun s t : State => t.dir = s.dir) (freshPort env) := by
    unfold freshPort releaseInstance allocate
    refine Keeps.bind trans (fun s => ?_) (fun _ => Keeps.bind trans ?_ (fun _ _ => rfl))
    · cases env.fault .portRelease <;> rfl
    · refine Keeps.bind trans (fun _ => rfl) (fun s => ?_)
      split
      · exact fun _ => rfl
      · exact Keeps.bind trans (allocatePort_files _ _) (fun _ _ => rfl)
  unfold ensureContainerPort
  refine Keeps.bind trans (fun s => by rw [attempt_apply]) (fun _ => ?_)
  refine Keeps.bind trans (fun _ => rfl) (fun s => ?_)
  split
  · refine Keeps.bind trans (allocatePort_files _ _) (fun ours => ?_)
    split_ifs
    · exact fun _ => rfl
    · exact freshPort_files
  · exact freshPort_files

/-- The renderer writes every generated file. -/
theorem renderContainerArtifacts_files {env : Env} {s t : State}
    (h : renderContainerArtifacts env s = (.ok (), t)) : t.dir.files = env.rendered := by
  obtain ⟨_, _, configured, h⟩ := bind_eq_ok.mp h
  obtain ⟨-, rfl⟩ := check_eq_ok.mp configured
  obtain ⟨_, s₁, wsgi, h⟩ := bind_eq_ok.mp h
  obtain ⟨_, s₂, dockerfile, h⟩ := bind_eq_ok.mp h
  obtain ⟨_, _, got, h⟩ := bind_eq_ok.mp h
  cases got
  obtain ⟨port, s₃, ported, h⟩ := bind_eq_ok.mp h
  obtain ⟨_, s₄, chosen, h⟩ := bind_eq_ok.mp h
  obtain ⟨_, s₅, compose, envFile⟩ := bind_eq_ok.mp h
  have kept := ensureContainerPort_files env s₂.ctx.txn s₂
  rw [ported] at kept
  change s₃.dir = s₂.dir at kept
  obtain rfl := (Prod.mk.inj chosen).2
  rw [renderFile_ok envFile, renderFile_ok compose]
  simp only [kept]
  rw [renderFile_ok dockerfile, renderFile_ok wsgi]
  funext file
  cases file <;> simp [DockerDir.write]

theorem buildContainerImage_ok {env : Env} {s t : State}
    (h : buildContainerImage env s = (.ok (), t)) : t = { s with latestTag := env.built } := by
  obtain ⟨_, _, built, h⟩ := bind_eq_ok.mp h
  cases built
  obtain ⟨_, _, got, h⟩ := bind_eq_ok.mp h
  cases got
  cases fault : env.fault .build with
  | none =>
    rw [fault] at h
    exact (check_eq_ok.mp h).2.symm
  | some exc =>
    rw [fault] at h
    cases exc <;> cases h

theorem beforeStop_ok {env : Env} {w : World} {u : State}
    (h : beforeStop env { w.start with ctx := Deploy.initial true } = (.ok (), u)) :
    Stopped env w u := by
  obtain ⟨_, _, ready, rest⟩ := bind_eq_ok.mp h
  obtain ⟨-, rfl⟩ := check_eq_ok.mp ready
  obtain ⟨_, s₁, prepared, rest⟩ := bind_eq_ok.mp rest
  obtain ⟨_, s₂, rendered, rest⟩ := bind_eq_ok.mp rest
  obtain ⟨_, s₃, built, swapped⟩ := bind_eq_ok.mp rest
  let s : State := { w.start with ctx := Deploy.initial true }
  have snapped : ∃ image, oldImage env w.stored = .ok (some image) ∧
      s₁ = { s with dir := s.dir.snapshotGenerated false, prevTag := some image } := by
    have prepares : preparePreviousContainer env s = prepareBuildFirst env s := rfl
    rw [prepares] at prepared
    rcases prepareBuildFirst_apply env s with
      ⟨-, exc, run⟩ | ⟨image, known, ⟨exc, -, run⟩ | ⟨-, -, exc, run⟩ | ⟨-, -, run⟩⟩ <;>
      rw [run] at prepared <;> cases prepared
    exact ⟨image, known, rfl⟩
  obtain ⟨image, known, rfl⟩ := snapped
  have previous : previousImage env w = some image := by simp [previousImage, known, Except.toOption]
  have files := renderContainerArtifacts_files rendered
  have framed : Framed { s with dir := s.dir.snapshotGenerated false, prevTag := some image } s₂ := by
    have kept := renderContainerArtifacts_framed env
      { s with dir := s.dir.snapshotGenerated false, prevTag := some image }
    rwa [rendered] at kept
  obtain rfl := buildContainerImage_ok built
  obtain rfl := swapOutOldContainer_ok env swapped framed.txn
  exact {
    files := files
    prev := framed.prev
    known := by simp [previous]
    prevTag := framed.prevTag.trans previous.symm
    latestTag := rfl
    container := rfl
    stored := framed.stored
    manifest := framed.manifest
    registryStatus := framed.registryStatus
    txn := framed.txn
    oldStopped := rfl
    outcomeSettled := framed.outcomeSettled }

/-! ## The records of a compensation -/

section records

variable {env : Env}

/-- What the records of a compensation leave as it is. -/
structure Recorded (s t : State) : Prop where
  dir : t.dir = s.dir
  latestTag : t.latestTag = s.latestTag
  container : t.container = s.container
  ctx : t.ctx = s.ctx

/-- The restored version has been looked at and saved in the manifest. -/
def RestoredSaved (env : Env) : Prop :=
  (safely env.restoredContainerId).isOk ∧ (safely env.restoredImageId).isOk ∧
    env.writeFault .restoredSave = none

instance (env : Env) : Decidable (RestoredSaved env) := by
  unfold RestoredSaved
  infer_instance

theorem safely_not_cancels {α : Type} {query : Except Failure (Option α)} {exc : Exn}
    (h : safely query = .error exc) : exc.cancels = false := by
  rcases query with ⟨exc', plain⟩ | value
  · cases exc' <;> cases h <;> exact plain
  · cases h

/-- The rows that follow the upsert of a restored version say what it said. -/
theorem announceRestored_apply (env : Env) (exc : Exn) (plain : exc.cancels = false) (s : State)
    (running : s.registryStatus = .running) :
    ∃ e t, ((do
        updateStatus env .restoredStatus .running
        checkWrite env .restoredOperation
        checkWrite env .restoredError
        checkWrite env .restoredEvent
        raise exc : Run Unit) s = (.error e, t)) ∧ e.cancels = false ∧ Recorded s t ∧
      t.stored = s.stored ∧ t.registryStatus = .running := by
  simp only [bind_apply, updateStatus, checkWrite]
  cases env.writeFault .restoredStatus with
  | some failure => exact ⟨_, _, rfl, failure.property, ⟨rfl, rfl, rfl, rfl⟩, rfl, running⟩
  | none =>
    cases env.writeFault .restoredOperation with
    | some failure => exact ⟨_, _, rfl, failure.property, ⟨rfl, rfl, rfl, rfl⟩, rfl, rfl⟩
    | none =>
      cases env.writeFault .restoredError with
      | some failure => exact ⟨_, _, rfl, failure.property, ⟨rfl, rfl, rfl, rfl⟩, rfl, rfl⟩
      | none =>
        cases env.writeFault .restoredEvent with
        | some failure => exact ⟨_, _, rfl, failure.property, ⟨rfl, rfl, rfl, rfl⟩, rfl, rfl⟩
        | none => exact ⟨_, _, rfl, plain, ⟨rfl, rfl, rfl, rfl⟩, rfl, rfl⟩

theorem recordRestored_apply (env : Env) (reason : Exn) (s : State) :
    ∃ e t, recordRestored env reason s = (.error e, t) ∧ e.cancels = false ∧ Recorded s t ∧
      t.stored.status = (if RestoredSaved env then .running else s.stored.status) ∧
      t.registryStatus = (if RestoredSaved env ∧ env.writeFault .restoredUpsert = none
        then .running else s.registryStatus) := by
  unfold recordRestored
  simp only [bind_apply, ofExcept_apply, get_apply, setManifest, modify_apply, save, upsertFromManifest,
    checkWrite]
  cases found : safely env.restoredContainerId with
  | error exc =>
    have unsaved : ¬ RestoredSaved env := by simp [RestoredSaved, found, Except.isOk, Except.toBool]
    exact ⟨exc, s, rfl, safely_not_cancels found, ⟨rfl, rfl, rfl, rfl⟩, by simp [unsaved], by simp [unsaved]⟩
  | ok containerId =>
    cases image : safely env.restoredImageId with
    | error exc =>
      have unsaved : ¬ RestoredSaved env := by simp [RestoredSaved, image, Except.isOk, Except.toBool]
      exact ⟨exc, s, rfl, safely_not_cancels image, ⟨rfl, rfl, rfl, rfl⟩, by simp [unsaved],
        by simp [unsaved]⟩
    | ok imageId =>
      cases write : env.writeFault .restoredSave with
      | some failure =>
        have unsaved : ¬ RestoredSaved env := by simp [RestoredSaved, write]
        exact ⟨failure.val, _, rfl, failure.property, ⟨rfl, rfl, rfl, rfl⟩, by simp [unsaved],
          by simp [unsaved]⟩
      | none =>
        have saved : RestoredSaved env := by
          simp [RestoredSaved, found, image, write, Except.isOk, Except.toBool]
        cases upserted : env.writeFault .restoredUpsert with
        | some failure =>
          exact ⟨failure.val, _, rfl, failure.property, ⟨rfl, rfl, rfl, rfl⟩, by simp [saved], by simp⟩
        | none =>
          let iid := env.instanceId
          let text := reason.str
          let manifest : Manifest := { s.manifest with
            status := .running, containerId := containerId, imageId := imageId,
            hostPort := some s.ctx.hostPort }
          let r : State := { s with
            manifest := manifest, stored := manifest, registryStatus := .running,
            containerPort := some s.ctx.hostPort }
          obtain ⟨e, t, run, plain, recorded, stored, registry⟩ := announceRestored_apply env
            (.hosting s!"实例 {iid} 重建失败，已回滚到旧版本并恢复服务：{text}") rfl r rfl
          refine ⟨e, t, run, plain, ⟨recorded.dir, recorded.latestTag, recorded.container, recorded.ctx⟩, ?_, ?_⟩
          · rw [stored]
            simp [saved, r, manifest]
          · rw [registry]
            simp [saved]

theorem recordResidual_apply (env : Env) (reason : Exn) (notes : List String) (s : State) :
    ∃ e t, recordResidual env reason notes s = (.error e, t) ∧ e.cancels = false ∧ Recorded s t ∧
      t.stored.status = (if env.writeFault .failedSave = none ∨ env.writeFault .residualSave = none
        then .failed else s.stored.status) ∧
      t.registryStatus = (if env.writeFault .failedSave = none ∧ env.writeFault .failedUpsert = none
        then .failed else s.registryStatus) := by
  unfold recordResidual markFailed
  simp only [bind_apply, suppress_apply, setManifest, modify_apply, save, upsertFromManifest, updateStatus,
    checkWrite]
  refine ⟨_, _, rfl, rfl, ?_⟩
  cases env.writeFault .failedSave <;> cases env.writeFault .failedUpsert <;>
    cases env.writeFault .failedStatus <;> cases env.writeFault .failedEvent <;>
    cases env.writeFault .residualSave <;> cases env.writeFault .residualOperation <;>
    exact ⟨⟨rfl, rfl, rfl, rfl⟩, rfl, rfl⟩

end records

/-! ## The compensation -/

/-- What the manifest on disk and the registry say where a rebuild fails after the stop, and
the container that is there by then. -/
structure Reached where
  manifest : Status
  registry : Status
  container : Option Container

def Reached.Both (r : Reached) (status : Status) : Prop := r.manifest = status ∧ r.registry = status

/-- The files are those before the rebuild, `:latest` is the old image, and a container started
from them has answered. -/
structure ServesOld (env : Env) (w : World) (files : Files) (latestTag : Option ImageId)
    (container : Option Container) : Prop where
  files : files = w.dir.files
  latestTag : latestTag = previousImage env w
  container : container = some ⟨w.dir.files, previousImage env w, true⟩

/-- The records that a rebuild may end with. -/
def Truthful (env : Env) (w : World) (t : State) : Prop :=
  (t.stored.status = .running ∧ t.registryStatus = .running ∧
    ServesOld env w t.dir.files t.latestTag t.container) ∨
  (t.stored.status = .failed ∧ t.registryStatus = .failed)

/-- The old version is started again and answers. -/
def bringsBack (env : Env) : Bool :=
  env.tagLatest.isNone && env.upAgain.isNone && env.answers.toOption.getD false

/-- The container that the first step of a compensation leaves. -/
def afterDown (env : Env) (container : Option Container) : Option Container :=
  if env.downAgain = none then none else container

/-- The container that is left where the old version does not answer: if it was started at all,
then it has not answered. -/
def unrestored (env : Env) (container : Option Container) : Option Container :=
  if env.tagLatest = none ∧ env.upAgain = none then none else afterDown env container

/-- Where the old version is not brought back, the failure gets into both records. -/
def FailureRecorded (env : Env) (r : Reached) : Prop :=
  (env.writeFault .failedSave = none ∨ env.writeFault .residualSave = none ∨ r.manifest = .failed) ∧
    ((env.writeFault .failedSave = none ∧ env.writeFault .failedUpsert = none) ∨ r.registry = .failed)

/-- When a compensation leaves records that are true. -/
def CompensationTells (env : Env) (w : World) (r : Reached) : Prop :=
  if env.restoreFault ≠ none then
    r.Both .failed ∨
      (r.Both .running ∧ ServesOld env w env.restoredPartly env.built (afterDown env r.container))
  else if bringsBack env then
    if RestoredSaved env then env.writeFault .restoredUpsert = none ∨ r.registry = .running
    else r.Both .running ∨ r.Both .failed
  else
    FailureRecorded env r ∨
      (env.writeFault .failedSave ≠ none ∧ env.writeFault .residualSave ≠ none ∧ r.Both .running ∧
        ServesOld env w w.dir.files (if env.tagLatest = none then previousImage env w else env.built)
          (unrestored env r.container))

/-- The state of a rebuild that has stopped the old container. -/
structure Swapped (env : Env) (w : World) (r : Reached) (s : State) : Prop where
  prev : s.dir.prev = some w.dir.files
  known : (previousImage env w).isSome
  prevTag : s.prevTag = previousImage env w
  latestTag : s.latestTag = env.built
  container : s.container = r.container
  stored : s.stored.status = r.manifest
  registry : s.registryStatus = r.registry

section compensation

variable {env : Env} {w : World} {r : Reached} {s : State}

theorem composeDown_apply (env : Env) (s : State) :
    ∃ notes, (((composeDown env) >>= fun _ => pure []).handle (fun exc =>
        let text := exc.str
        pure [s!"清理新容器失败：{text}"]) : Run (List String)) s =
      (.ok notes, { s with container := afterDown env s.container }) := by
  unfold composeDown afterDown
  cases fault : env.downAgain with
  | none => exact ⟨[], by simp [handle, bind_apply]⟩
  | some exc => exact ⟨_, by simp [handle, bind_apply]; rfl⟩

/-- What an attempt to start the old version leaves as it is. -/
structure Kept (s t : State) : Prop where
  dir : t.dir = s.dir
  stored : t.stored = s.stored
  registryStatus : t.registryStatus = s.registryStatus
  ctx : t.ctx = s.ctx

theorem bringBackPrevious_apply (env : Env) {image : ImageId} (tagged : s.prevTag = some image) :
    ∃ notes t, bringBackPrevious env s = (.ok (bringsBack env, notes), t) ∧ Kept s t ∧
      t.latestTag = (if env.tagLatest = none then some image else s.latestTag) ∧
      t.container = (if env.tagLatest = none ∧ env.upAgain = none
        then some ⟨s.dir.files, some image, bringsBack env⟩ else s.container) := by
  rcases s with ⟨⟨dir, latestTag, _, container, stored, registryStatus, containerPort, ports⟩, manifest, ctx⟩
  cases tagged
  have back : bringsBack env =
      (env.tagLatest.isNone && env.upAgain.isNone && env.answers.toOption.getD false) := rfl
  rw [back]
  unfold bringBackPrevious
  cases env.tagLatest with
  | some exc => exact ⟨_, _, rfl, ⟨rfl, rfl, rfl, rfl⟩, rfl, rfl⟩
  | none =>
    cases env.upAgain with
    | some exc => exact ⟨_, _, rfl, ⟨rfl, rfl, rfl, rfl⟩, rfl, rfl⟩
    | none =>
      cases env.answers with
      | error exc => exact ⟨_, _, rfl, ⟨rfl, rfl, rfl, rfl⟩, rfl, rfl⟩
      | ok answered => exact ⟨_, _, rfl, ⟨rfl, rfl, rfl, rfl⟩, rfl, rfl⟩

/-- A compensation always raises, and says what it leaves. -/
theorem compensateBuildFirst_apply (reason : Exn) (h : Swapped env w r s) :
    ∃ e t, compensateBuildFirst env reason s = (.error e, t) ∧ e.cancels = false ∧ t.ctx = s.ctx ∧
      (Truthful env w t ↔ CompensationTells env w r) := by
  obtain ⟨notes, down⟩ := composeDown_apply env s
  let stopped : State := { s with container := afterDown env s.container }
  have compensates : compensateBuildFirst env reason s = (do
      let found ← restoreGenerated env
      let back ←
        if found then bringBackPrevious env else pure (false, ["缺少生成物快照，无法恢复 compose"])
      if back.1 then recordRestored env reason else recordResidual env reason (notes ++ back.2) : Run Unit)
      stopped := bind_of_ok down
  rw [compensates]
  unfold CompensationTells
  cases copies : env.restoreFault with
  | some failure =>
    have restored : restoreGenerated env stopped = (.error failure.val,
        { stopped with dir := { stopped.dir with files := env.restoredPartly } }) := by
      simp [restoreGenerated, bind_apply, stopped, h.prev, copies]
    refine ⟨failure.val, _, bind_of_error restored, failure.property, rfl, ?_⟩
    rw [if_pos (by simp)]
    simp only [Truthful, Reached.Both, stopped, h.stored, h.registry, h.latestTag, h.container]
    tauto
  | none =>
    let copied : State := { stopped with dir := ⟨w.dir.files, some w.dir.files⟩ }
    have restored : restoreGenerated env stopped = (.ok true, copied) := by
      have snapshot : s.dir.restoreGenerated = (true, ⟨w.dir.files, some w.dir.files⟩) := by
        simp [DockerDir.restoreGenerated, h.prev]
      rw [restoreGenerated_apply copies]
      simp [stopped, snapshot, copied]
    obtain ⟨image, previous⟩ := Option.isSome_iff_exists.mp h.known
    obtain ⟨more, t, brought, kept, latestTag, container⟩ :=
      bringBackPrevious_apply env (s := copied) (h.prevTag.trans previous)
    rw [if_neg (by simp), bind_of_ok restored, if_pos rfl, bind_of_ok brought]
    have files : t.dir.files = w.dir.files := by rw [kept.dir]
    have stored : t.stored.status = r.manifest := by rw [kept.stored, ← h.stored]
    have registry : t.registryStatus = r.registry := kept.registryStatus.trans h.registry
    cases back : bringsBack env with
    | true =>
      have upAgain : env.tagLatest = none ∧ env.upAgain = none := by
        simp [bringsBack] at back
        exact back.1
      obtain ⟨e, t', run, plain, recorded, stored', registry'⟩ := recordRestored_apply env reason t
      refine ⟨e, t', run, plain, recorded.ctx.trans kept.ctx, ?_⟩
      have serves : ServesOld env w t'.dir.files t'.latestTag t'.container := by
        refine ⟨by rw [recorded.dir, files], ?_, ?_⟩
        · rw [recorded.latestTag, latestTag, if_pos upAgain.1, previous]
        · rw [recorded.container, container, if_pos upAgain, back, previous]
      rw [if_pos rfl]
      simp only [Truthful, serves, and_true, stored', registry', stored, registry, Reached.Both]
      by_cases saved : RestoredSaved env
      · by_cases upserted : env.writeFault .restoredUpsert = none <;> simp [saved, upserted]
      · simp [saved]
    | false =>
      obtain ⟨e, t', run, plain, recorded, stored', registry'⟩ :=
        recordResidual_apply env reason (notes ++ more) t
      refine ⟨e, t', run, plain, recorded.ctx.trans kept.ctx, ?_⟩
      have serves : ServesOld env w t'.dir.files t'.latestTag t'.container ↔
          ServesOld env w w.dir.files (if env.tagLatest = none then previousImage env w else env.built)
            (unrestored env r.container) := by
        have tag : t'.latestTag =
            if env.tagLatest = none then previousImage env w else env.built := by
          rw [recorded.latestTag, latestTag, previous]
          exact congrArg _ h.latestTag
        have left : t'.container = some ⟨w.dir.files, previousImage env w, true⟩ ↔
            unrestored env r.container = some ⟨w.dir.files, previousImage env w, true⟩ := by
          rw [recorded.container, container, back, unrestored]
          split_ifs
          · simp
          · rw [← h.container]
        rw [recorded.dir, files, tag]
        exact ⟨fun served => ⟨rfl, served.latestTag, left.mp served.container⟩,
          fun served => ⟨rfl, served.latestTag, left.mpr served.container⟩⟩
      rw [if_neg (by simp)]
      simp only [Truthful, serves, stored', registry', stored, registry, Reached.Both, FailureRecorded]
      by_cases save : env.writeFault .failedSave = none
      · by_cases upsert : env.writeFault .failedUpsert = none <;> simp [save, upsert]
      · by_cases again : env.writeFault .residualSave = none <;> simp [save, again]
        tauto

end compensation

/-! ## From the stop to the handlers -/

/-- The new container was observed. -/
def observed (env : Env) : Bool :=
  match safely env.containerId, safely env.imageId with
  | .ok (some _), .ok _ => true
  | _, _ => false

/-- The verification has not failed, and its warnings are in the events. -/
def verified (env : Env) : Bool :=
  match env.verification with
  | .ok .passed => true
  | .ok .degraded => (env.writeFault .finalizeEvent).isNone
  | _ => false

def newContainer (env : Env) (answered : Bool) : Container := ⟨env.rendered, env.built, answered⟩

/-- The records and the container where the first failure after the stop finds them. -/
def atFailure (env : Env) (w : World) : Reached :=
  if env.writeFault .clearIdentity ≠ none ∨ env.up ≠ none then
    ⟨w.stored.status, w.registryStatus, none⟩
  else if observed env = false ∨ env.writeFault .commitNetwork ≠ none ∨ env.writeFault .commitSave ≠ none then
    ⟨w.stored.status, w.registryStatus, some (newContainer env false)⟩
  else if env.writeFault .commitUpsert ≠ none then
    ⟨.verifying, w.registryStatus, some (newContainer env false)⟩
  else if env.writeFault .commitStatus ≠ none then
    ⟨.verifying, .verifying, some (newContainer env false)⟩
  else if verified env = false ∨ env.writeFault .finalizeSave ≠ none then
    ⟨.verifying, .verifying, some (newContainer env env.liveness)⟩
  else if env.writeFault .finalizeStatus ≠ none then
    ⟨.running, .verifying, some (newContainer env env.liveness)⟩
  else ⟨.running, .running, some (newContainer env env.liveness)⟩

/-- The start of the new container is cancelled. -/
def UpCancelled (env : Env) : Prop :=
  env.writeFault .clearIdentity = none ∧ env.up.map Exn.cancels = some true

/-- When the records after a rebuild that fails behind the stop are true. -/
def RecordsTell (env : Env) (w : World) : Prop :=
  (UpCancelled env → w.stored.status = .failed ∧ w.registryStatus = .failed) ∧
    (¬ UpCancelled env → CompensationTells env w (atFailure env w))

/-- A rebuild between the stop and its handlers. -/
structure Pending (env : Env) (w : World) (r : Reached) (s : State) : Prop extends Swapped env w r s where
  txn : s.ctx.txn = true
  oldStopped : s.ctx.oldStopped = true
  unsettled : s.ctx.outcomeSettled = false

/-- What the stages leave as it is. -/
structure Onward (s t : State) : Prop where
  dir : t.dir = s.dir
  prevTag : t.prevTag = s.prevTag
  latestTag : t.latestTag = s.latestTag
  txn : t.ctx.txn = s.ctx.txn
  oldStopped : t.ctx.oldStopped = s.ctx.oldStopped
  outcomeSettled : t.ctx.outcomeSettled = s.ctx.outcomeSettled

theorem Pending.onward {env : Env} {w : World} {r r' : Reached} {s t : State} (h : Pending env w r s)
    (onward : Onward s t) (stored : t.stored.status = r'.manifest) (registry : t.registryStatus = r'.registry)
    (container : t.container = r'.container) : Pending env w r' t where
  prev := by rw [onward.dir, h.prev]
  known := h.known
  prevTag := onward.prevTag.trans h.prevTag
  latestTag := onward.latestTag.trans h.latestTag
  container := container
  stored := stored
  registry := registry
  txn := onward.txn.trans h.txn
  oldStopped := onward.oldStopped.trans h.oldStopped
  unsettled := onward.outcomeSettled.trans h.unsettled

/-- A rebuild that has just stopped the old container. -/
theorem Stopped.pending {env : Env} {w : World} {u : State} (left : Stopped env w u) :
    Pending env w ⟨w.stored.status, w.registryStatus, none⟩ u where
  prev := left.prev
  known := left.known
  prevTag := left.prevTag
  latestTag := left.latestTag
  container := left.container
  stored := congrArg Manifest.status left.stored
  registry := left.registryStatus
  txn := left.txn
  oldStopped := left.oldStopped
  unsettled := left.outcomeSettled

/-- How a stage after the stop raises: with the compensation still to come, or behind it. -/
inductive Fails (env : Env) (w : World) (r : Reached) (e : Exn) (t : State) : Prop where
  | raised (plain : e.cancels = false) (pending : Pending env w r t)
  | settled (reason : Exn) (s : State) (swapped : Swapped env w r s) (settled : s.ctx.outcomeSettled = true)
      (compensated : compensateBuildFirst env reason s = (.error e, t))

section stages

variable {env : Env} {w : World} {r : Reached} {s t u : State} {e : Exn}

/-- Every failure after the stop other than a cancelled `up` ends with one compensation. -/
theorem Fails.concluded (h : Fails env w r e t) :
    ∃ e' t', conclude env e t = (.error e', t') ∧ (Truthful env w t' ↔ CompensationTells env w r) := by
  cases h with
  | raised plain pending =>
    obtain ⟨e', t', run, -, -, tells⟩ := compensateBuildFirst_apply e pending.toSwapped
    refine ⟨e', t', ?_, tells⟩
    have handled : handleContainerDeployFailed env e t = (.error e', t') := by
      unfold handleContainerDeployFailed
      simp [bind_apply, pending.txn, pending.oldStopped, run]
    unfold conclude
    simp [bind_apply, plain, pending.unsettled, handled]
  | settled reason s swapped settled compensated =>
    obtain ⟨e', t', run, plain, ctx, tells⟩ := compensateBuildFirst_apply reason swapped
    obtain ⟨rfl, rfl⟩ : e = e' ∧ t = t' := by
      rw [compensated] at run
      simpa using run
    refine ⟨e, t, ?_, tells⟩
    unfold conclude
    simp [bind_apply, plain, ctx, settled]

theorem startNewContainer_cases (h : Pending env w ⟨w.stored.status, w.registryStatus, none⟩ s)
    (files : s.dir.files = env.rendered) (same : s.manifest.status = w.stored.status) :
    (env.writeFault .clearIdentity = none ∧ env.up = none ∧ ∃ t, startNewContainer env s = (.ok (), t) ∧
      Pending env w ⟨w.stored.status, w.registryStatus, some (newContainer env false)⟩ t) ∨
    ((env.writeFault .clearIdentity ≠ none ∨ env.up ≠ none) ∧ ∃ e t, startNewContainer env s = (.error e, t) ∧
      Pending env w ⟨w.stored.status, w.registryStatus, none⟩ t ∧
      (UpCancelled env → e.cancels = true ∧ t.manifest = t.stored) ∧
      (¬ UpCancelled env → e.cancels = false)) := by
  unfold startNewContainer clearContainerIdentity UpCancelled
  simp only [bind_apply, get_apply, h.txn, if_true, setManifest, modify_apply, save, checkWrite]
  cases env.writeFault .clearIdentity with
  | some failure =>
    refine .inr ⟨.inl (by simp), failure.val, _, rfl, ?_, by simp, fun _ => failure.property⟩
    exact h.onward ⟨rfl, rfl, rfl, rfl, rfl, rfl⟩ h.stored h.registry h.container
  | none =>
    cases env.up with
    | some exc =>
      refine .inr ⟨.inr (by simp), exc, _, rfl, ?_, fun cancelled => ⟨by simpa using cancelled, rfl⟩,
        fun kept => by simpa using kept⟩
      exact h.onward ⟨rfl, rfl, rfl, rfl, rfl, rfl⟩ same h.registry h.container
    | none =>
      refine .inl ⟨rfl, rfl, _, rfl, h.onward ⟨rfl, rfl, rfl, rfl, rfl, rfl⟩ same h.registry ?_⟩
      change some (⟨s.dir.files, s.latestTag, false⟩ : Container) = _
      rw [files, h.latestTag]
      rfl

theorem observeNewContainer_cases (h : Pending env w r s) :
    (observed env = true ∧ ∃ t, observeNewContainer env s = (.ok (), t) ∧ Pending env w r t) ∨
    (observed env = false ∧ ∃ e t, observeNewContainer env s = (.error e, t) ∧ Fails env w r e t) := by
  unfold observeNewContainer observed
  simp only [bind_apply, ofExcept_apply]
  cases found : safely env.containerId with
  | error exc => exact .inr ⟨rfl, exc, s, rfl, .raised (safely_not_cancels found) h⟩
  | ok containerId =>
    cases image : safely env.imageId with
    | error exc => exact .inr ⟨by cases containerId <;> rfl, exc, s, rfl, .raised (safely_not_cancels image) h⟩
    | ok imageId =>
      cases containerId with
      | some containerId =>
        refine .inl ⟨rfl, _, rfl, ?_⟩
        exact h.onward ⟨rfl, rfl, rfl, rfl, rfl, rfl⟩ h.stored h.registry h.container
      | none =>
        let settled : State := { s with ctx := { s.ctx with outcomeSettled := true } }
        have swapped : Swapped env w r settled :=
          ⟨h.prev, h.known, h.prevTag, h.latestTag, h.container, h.stored, h.registry⟩
        obtain ⟨e, t, run, -⟩ := compensateBuildFirst_apply (.hosting _) swapped
        refine .inr ⟨rfl, e, t, ?_, .settled _ settled swapped rfl run⟩
        simp only [bind_apply, get_apply, setCtx, modify_apply]
        rw [if_pos h.txn]
        exact run

/-- The records while a commit of the verifying state goes on. -/
theorem commitVerifyingState_cases (h : Pending env w r s) :
    (env.writeFault .commitNetwork = none ∧ env.writeFault .commitSave = none ∧
      env.writeFault .commitUpsert = none ∧ env.writeFault .commitStatus = none ∧
      ∃ t, commitVerifyingState env s = (.ok (), t) ∧ Pending env w ⟨.verifying, .verifying, r.container⟩ t) ∨
    ((env.writeFault .commitNetwork ≠ none ∨ env.writeFault .commitSave ≠ none) ∧
      ∃ e t, commitVerifyingState env s = (.error e, t) ∧ Fails env w r e t) ∨
    (env.writeFault .commitNetwork = none ∧ env.writeFault .commitSave = none ∧
      env.writeFault .commitUpsert ≠ none ∧
      ∃ e t, commitVerifyingState env s = (.error e, t) ∧
        Fails env w ⟨.verifying, r.registry, r.container⟩ e t) ∨
    (env.writeFault .commitNetwork = none ∧ env.writeFault .commitSave = none ∧
      env.writeFault .commitUpsert = none ∧ env.writeFault .commitStatus ≠ none ∧
      ∃ e t, commitVerifyingState env s = (.error e, t) ∧
        Fails env w ⟨.verifying, .verifying, r.container⟩ e t) := by
  unfold commitVerifyingState
  simp only [bind_apply, setManifest, modify_apply, save, upsertFromManifest, updateStatus, checkWrite]
  cases env.writeFault .commitNetwork with
  | some failure => exact .inr (.inl ⟨.inl (by simp), failure.val, s, rfl, .raised failure.property h⟩)
  | none =>
    cases env.writeFault .commitSave with
    | some failure =>
      refine .inr (.inl ⟨.inr (by simp), failure.val, _, rfl, .raised failure.property ?_⟩)
      exact h.onward ⟨rfl, rfl, rfl, rfl, rfl, rfl⟩ h.stored h.registry h.container
    | none =>
      cases env.writeFault .commitUpsert with
      | some failure =>
        refine .inr (.inr (.inl ⟨rfl, rfl, by simp, failure.val, _, rfl, .raised failure.property ?_⟩))
        exact h.onward ⟨rfl, rfl, rfl, rfl, rfl, rfl⟩ rfl h.registry h.container
      | none =>
        cases env.writeFault .commitStatus with
        | some failure =>
          refine .inr (.inr (.inr ⟨rfl, rfl, rfl, by simp, failure.val, _, rfl, .raised failure.property ?_⟩))
          exact h.onward ⟨rfl, rfl, rfl, rfl, rfl, rfl⟩ rfl rfl h.container
        | none =>
          refine .inl ⟨rfl, rfl, rfl, rfl, _, rfl, ?_⟩
          exact h.onward ⟨rfl, rfl, rfl, rfl, rfl, rfl⟩ rfl rfl h.container

theorem verifyContainerDeployment_cases (h : Pending env w r s) :
    (∃ verdict t, verdict ≠ .failed ∧ env.verification = .ok verdict ∧
      verifyContainerDeployment env s = (.ok verdict, t) ∧
      Pending env w { r with container := r.container.map ({ · with answered := env.liveness }) } t) ∨
    ((∀ verdict, env.verification = .ok verdict → verdict = .failed) ∧
      ∃ e t, verifyContainerDeployment env s = (.error e, t) ∧
        Fails env w { r with container := r.container.map ({ · with answered := env.liveness }) } e t) := by
  let asked : State :=
    { s with container := s.container.map (fun container => { container with answered := env.liveness }) }
  have pending : Pending env w { r with container := r.container.map ({ · with answered := env.liveness }) }
      asked := h.onward ⟨rfl, rfl, rfl, rfl, rfl, rfl⟩ h.stored h.registry (by simp [asked, h.container])
  have waited : setAnswered env.liveness s = (.ok (), asked) := rfl
  unfold verifyContainerDeployment
  rw [bind_of_ok waited]
  cases verification : env.verification with
  | error failure =>
    exact .inr ⟨by simp, failure.val, asked, rfl, .raised failure.property pending⟩
  | ok verdict =>
    cases verdict with
    | passed => exact .inl ⟨.passed, asked, by simp, rfl, rfl, pending⟩
    | degraded => exact .inl ⟨.degraded, asked, by simp, rfl, rfl, pending⟩
    | failed =>
      let settled : State := { asked with ctx := { asked.ctx with outcomeSettled := true } }
      have swapped : Swapped env w { r with container := r.container.map ({ · with answered := env.liveness }) }
          settled :=
        ⟨h.prev, h.known, h.prevTag, h.latestTag, pending.container, h.stored, h.registry⟩
      let iid := env.instanceId
      let port := s.ctx.hostPort
      let error := env.verificationError
      obtain ⟨e, t, run, -⟩ := compensateBuildFirst_apply
        (.hosting s!"实例 {iid} 必选探针未通过（host_port={port}）：{error}") swapped
      refine .inr ⟨by simp, e, t, ?_, .settled _ settled swapped rfl run⟩
      simp only [bind_apply, ofExcept_apply, Except.mapError, setCtx, modify_apply, get_apply]
      rw [if_pos h.txn]
      exact bind_of_error run

/-- Until its row is told that the service runs, a finalisation that raises leaves the records of
the verification. -/
theorem finalizeContainerDeploy_cases {verdict : Verdict} {container : Option Container}
    (h : Pending env w ⟨.verifying, .verifying, container⟩ s) (passed : verdict ≠ .failed)
    (verification : env.verification = .ok verdict) :
    (∃ t, finalizeContainerDeploy env verdict s = (.ok (), t)) ∨
    ((verified env = false ∨ env.writeFault .finalizeSave ≠ none) ∧
      ∃ e t, finalizeContainerDeploy env verdict s = (.error e, t) ∧
        Fails env w ⟨.verifying, .verifying, container⟩ e t) ∨
    (verified env = true ∧ env.writeFault .finalizeSave = none ∧ env.writeFault .finalizeStatus ≠ none ∧
      ∃ e t, finalizeContainerDeploy env verdict s = (.error e, t) ∧
        Fails env w ⟨.running, .verifying, container⟩ e t) ∨
    (verified env = true ∧ env.writeFault .finalizeSave = none ∧ env.writeFault .finalizeStatus = none ∧
      ∃ e t, finalizeContainerDeploy env verdict s = (.error e, t) ∧
        Fails env w ⟨.running, .running, container⟩ e t) := by
  -- the records that follow the event of a degraded verification
  let records : Run Unit := do
    setManifest (fun manifest => { manifest with status := .running })
    save env .finalizeSave
    updateStatus env .finalizeStatus .running
    checkWrite env .recordStarted
    if env.liveness then checkWrite env .recordHealth
    checkWrite env .startEvent
  have recorded : (∃ t, records s = (.ok (), t)) ∨
      (env.writeFault .finalizeSave ≠ none ∧ ∃ e t, records s = (.error e, t) ∧
        Fails env w ⟨.verifying, .verifying, container⟩ e t) ∨
      (env.writeFault .finalizeSave = none ∧ env.writeFault .finalizeStatus ≠ none ∧
        ∃ e t, records s = (.error e, t) ∧ Fails env w ⟨.running, .verifying, container⟩ e t) ∨
      (env.writeFault .finalizeSave = none ∧ env.writeFault .finalizeStatus = none ∧
        ∃ e t, records s = (.error e, t) ∧ Fails env w ⟨.running, .running, container⟩ e t) := by
    simp only [records, bind_apply, setManifest, modify_apply, save, updateStatus, checkWrite, ite_run]
    cases env.writeFault .finalizeSave with
    | some failure =>
      refine .inr (.inl ⟨by simp, failure.val, _, rfl, .raised failure.property ?_⟩)
      exact h.onward ⟨rfl, rfl, rfl, rfl, rfl, rfl⟩ h.stored h.registry h.container
    | none =>
      cases env.writeFault .finalizeStatus with
      | some failure =>
        refine .inr (.inr (.inl ⟨rfl, by simp, failure.val, _, rfl, .raised failure.property ?_⟩))
        exact h.onward ⟨rfl, rfl, rfl, rfl, rfl, rfl⟩ rfl h.registry h.container
      | none =>
        let t : State := { s with
          manifest := { s.manifest with status := .running }
          stored := { s.manifest with status := .running }
          registryStatus := .running }
        have pending : Pending env w ⟨.running, .running, container⟩ t :=
          h.onward ⟨rfl, rfl, rfl, rfl, rfl, rfl⟩ rfl rfl h.container
        cases env.writeFault .recordStarted with
        | some failure =>
          exact .inr (.inr (.inr ⟨rfl, rfl, failure.val, t, rfl, .raised failure.property pending⟩))
        | none =>
          have started : (∃ t', checkWrite env .startEvent t = (.ok (), t')) ∨
              ∃ e t', checkWrite env .startEvent t = (.error e, t') ∧
                Fails env w ⟨.running, .running, container⟩ e t' := by
            unfold checkWrite
            cases env.writeFault .startEvent with
            | none => exact .inl ⟨t, rfl⟩
            | some failure => exact .inr ⟨failure.val, t, rfl, .raised failure.property pending⟩
          cases env.liveness with
          | false => exact started.imp_right (fun raised => .inr (.inr ⟨rfl, rfl, raised⟩))
          | true =>
            cases env.writeFault .recordHealth with
            | none => exact started.imp_right (fun raised => .inr (.inr ⟨rfl, rfl, raised⟩))
            | some failure =>
              exact .inr (.inr (.inr ⟨rfl, rfl, failure.val, t, rfl, .raised failure.property pending⟩))
  cases verdict with
  | failed => exact absurd rfl passed
  | passed =>
    have runs : finalizeContainerDeploy env .passed = records := rfl
    rw [runs]
    simpa [verified, verification] using recorded
  | degraded =>
    have runs : finalizeContainerDeploy env .degraded = checkWrite env .finalizeEvent >>= fun _ => records := rfl
    rw [runs]
    cases event : env.writeFault .finalizeEvent with
    | some failure =>
      have raises : checkWrite env .finalizeEvent s = (.error failure.val, s) := by
        unfold checkWrite
        rw [event]
        rfl
      exact .inr (.inl ⟨.inl (by simp [verified, verification, event]), failure.val, s, bind_of_error raises,
        .raised failure.property h⟩)
    | none =>
      have goesOn : checkWrite env .finalizeEvent s = (.ok (), s) := by
        unfold checkWrite
        rw [event]
        rfl
      rw [bind_of_ok goesOn]
      simpa [verified, verification, event] using recorded

/-- How the body of `host_container` ends once the old container is stopped. -/
theorem afterStop_cases (h : Pending env w ⟨w.stored.status, w.registryStatus, none⟩ s)
    (files : s.dir.files = env.rendered) (same : s.manifest.status = w.stored.status) :
    (∃ t, afterStop env s = (.ok (), t)) ∨
    (¬ UpCancelled env ∧ ∃ e t, afterStop env s = (.error e, t) ∧ Fails env w (atFailure env w) e t) ∨
    (UpCancelled env ∧ ∃ e t, afterStop env s = (.error e, t) ∧ e.cancels = true ∧
      t.manifest = t.stored ∧ Pending env w ⟨w.stored.status, w.registryStatus, none⟩ t) := by
  unfold afterStop
  rcases startNewContainer_cases h files same with
    ⟨clear, up, s₁, run, pending⟩ | ⟨fault, e, t, run, pending, cancelled, plain⟩
  swap
  · by_cases cancels : UpCancelled env
    · obtain ⟨cancels', saved⟩ := cancelled cancels
      exact .inr (.inr ⟨cancels, e, t, bind_of_error run, cancels', saved, pending⟩)
    · refine .inr (.inl ⟨cancels, e, t, bind_of_error run, ?_⟩)
      rw [atFailure, if_pos fault]
      exact .raised (plain cancels) pending
  have kept : ¬ UpCancelled env := by simp [UpCancelled, up]
  rw [bind_of_ok run]
  rcases observeNewContainer_cases pending with ⟨seen, s₂, run, pending⟩ | ⟨unseen, e, t, run, fails⟩
  swap
  · refine .inr (.inl ⟨kept, e, t, bind_of_error run, ?_⟩)
    simpa [atFailure, clear, up, unseen] using fails
  rw [bind_of_ok run]
  rcases commitVerifyingState_cases pending with ⟨network, saved, upserted, told, s₃, run, pending⟩ |
    ⟨fault, e, t, run, fails⟩ | ⟨network, saved, fault, e, t, run, fails⟩ |
    ⟨network, saved, upserted, fault, e, t, run, fails⟩
  rotate_left
  · refine .inr (.inl ⟨kept, e, t, bind_of_error run, ?_⟩)
    simpa [atFailure, clear, up, seen, fault] using fails
  · refine .inr (.inl ⟨kept, e, t, bind_of_error run, ?_⟩)
    simpa [atFailure, clear, up, seen, network, saved, fault] using fails
  · refine .inr (.inl ⟨kept, e, t, bind_of_error run, ?_⟩)
    simpa [atFailure, clear, up, seen, network, saved, upserted, fault] using fails
  rw [bind_of_ok run]
  rcases verifyContainerDeployment_cases pending with
    ⟨verdict, s₄, passed, verification, run, pending⟩ | ⟨failed, e, t, run, fails⟩
  swap
  · refine .inr (.inl ⟨kept, e, t, bind_of_error run, ?_⟩)
    have unverified : verified env = false := by
      unfold verified
      cases verification : env.verification with
      | error _ => rfl
      | ok verdict => rw [failed verdict verification]
    simpa [atFailure, clear, up, seen, network, saved, upserted, told, unverified, newContainer] using fails
  rw [bind_of_ok run]
  rcases finalizeContainerDeploy_cases pending passed verification with ⟨t, run⟩ |
    ⟨fault, e, t, run, fails⟩ | ⟨passed, saved', fault, e, t, run, fails⟩ |
    ⟨passed, saved', told', e, t, run, fails⟩
  · exact .inl ⟨t, run⟩
  · refine .inr (.inl ⟨kept, e, t, run, ?_⟩)
    simpa [atFailure, clear, up, seen, network, saved, upserted, told, fault, newContainer] using fails
  · refine .inr (.inl ⟨kept, e, t, run, ?_⟩)
    simpa [atFailure, clear, up, seen, network, saved, upserted, told, passed, saved', fault, newContainer]
      using fails
  · refine .inr (.inl ⟨kept, e, t, run, ?_⟩)
    simpa [atFailure, clear, up, seen, network, saved, upserted, told, passed, saved', told', newContainer]
      using fails

theorem conclude_cancels (cancels : e.cancels = true) (h : Pending env w r t) :
    conclude env e t = ((do
      checkWrite env .cancelOperation
      checkWrite env .cancelError
      suppress (save env .cancelSave)) >>= fun _ => raise e : Run Unit) { t with ports := givenBack env t } := by
  unfold conclude handleContainerDeployCancelled
  simp [bind_apply, cancels, h.txn, h.oldStopped, releaseFreshPort_apply]

/-- A cancelled `up` leaves the records as they were, and nothing runs. -/
theorem conclude_cancelled (cancels : e.cancels = true) (same : t.manifest = t.stored)
    (h : Pending env w ⟨w.stored.status, w.registryStatus, none⟩ t) :
    ∃ e' t', conclude env e t = (.error e', t') ∧ t'.stored = t.stored ∧
      (Truthful env w t' ↔ w.stored.status = .failed ∧ w.registryStatus = .failed) := by
  obtain ⟨e', t', run, dir, stored, status, ports, container⟩ :=
    cancelRecords_keep env e { t with ports := givenBack env t } same
  refine ⟨e', t', (conclude_cancels cancels h).trans run, stored, ?_⟩
  have unserved : ¬ ServesOld env w t'.dir.files t'.latestTag t'.container := by
    intro served
    have nothing := container.trans h.container
    rw [served.container] at nothing
    simp at nothing
  simp [Truthful, unserved, stored, status, h.stored, h.registry]

/-- A build-first rebuild that fails after the stop leaves true records exactly if its
compensation could restore the old version or record the failure, and `up` was not cancelled. -/
theorem failed_after_stop_truthful_iff (begun : register env w.start = (.ok (), s)) (txn : s.ctx.txn = true)
    (stopped : beforeStop env s = (.ok (), u)) (raised : hostContainer env w.start = (.error e, t)) :
    Truthful env w t ↔ RecordsTell env w := by
  have registered := register_state begun txn
  subst registered
  have left := beforeStop_ok stopped
  have pending := left.pending
  have hosted : hostContainer env w.start = (afterStop env).handle (conclude env) u := by
    have body : (beforeStop env >>= fun _ => afterStop env) { w.start with ctx := Deploy.initial true } =
        afterStop env u := bind_of_ok stopped
    have deployed : hostContainer env w.start = deploy env { w.start with ctx := Deploy.initial true } :=
      bind_of_ok begun
    rw [deployed]
    simp only [deploy, handle, body]
  rw [hosted] at raised
  rcases afterStop_cases pending left.files (congrArg Manifest.status left.manifest) with
    ⟨t', run⟩ | ⟨kept, e', t', run, fails⟩ | ⟨cancelled, e', t', run, cancels, saved, pending⟩
  · rw [handle_of_ok run] at raised
    cases raised
  · obtain ⟨e'', t'', concluded, tells⟩ := fails.concluded
    rw [handle_of_error run, concluded] at raised
    cases raised
    simpa [RecordsTell, kept] using tells
  · obtain ⟨e'', t'', concluded, -, tells⟩ := conclude_cancelled cancels saved pending
    rw [handle_of_error run, concluded] at raised
    cases raised
    simpa [RecordsTell, cancelled] using tells

end stages

def upRaises (exc : Exn) : Env := { smooth with up := some exc }

theorem failed_after_stop_untruthful : ¬ ∀ env w s u e t, register env w.start = (.ok (), s) →
    s.ctx.txn = true → beforeStop env s = (.ok (), u) → hostContainer env w.start = (.error e, t) →
    Truthful env w t := by
  intro claim
  have truthful := claim (upRaises (.buildCancelled "cancelled")) deployed _ _ _ _ rfl rfl rfl rfl
  rcases truthful with ⟨-, -, served⟩ | ⟨failed, -⟩
  · exact absurd served.container (by simp)
  · exact absurd failed (by decide)

theorem failed_after_stop_truthful_upRaises :
    Truthful (upRaises (.docker "exit 1")) deployed (hostContainer (upRaises (.docker "exit 1")) deployed.start).2 := by
  have stopped : beforeStop (upRaises (.docker "exit 1"))
    { deployed.start with ctx := Deploy.initial true } = (.ok (), _) := rfl
  refine (failed_after_stop_truthful_iff rfl rfl stopped rfl).mpr ⟨fun cancelled => ?_, fun _ => ?_⟩
  · exact absurd cancelled.2 (by decide)
  · have copies : ¬ (upRaises (.docker "exit 1")).restoreFault ≠ none := not_not.mpr rfl
    have back : bringsBack (upRaises (.docker "exit 1")) = true := rfl
    have saved : RestoredSaved (upRaises (.docker "exit 1")) := ⟨rfl, rfl, rfl⟩
    rw [CompensationTells, if_neg copies, if_pos back, if_pos saved]
    exact .inl rfl

end LocalWebAccess.ContainerDeploy
