import LocalWebAccess.ContainerDeployCompensation
import LocalWebAccess.RuntimeRecreate

/-!
# The configuration that is restored

While a container is deployed, `docker/` holds the files it was started from, or the
start that has rendered them again has a snapshot of those. Every compensation then
starts the container from its own configuration.
-/
namespace LocalWebAccess.ContainerDeploy
open RaisingPrograms Prog

/-! ## The files after a failed rebuild -/

section buildFirst

variable {env : Env} {w : World} {r : Reached} {s t u : State} {e : Exn}

/-- A compensation restores the files of the old version, and starts the old image from them. -/
theorem compensateBuildFirst_files (reason : Exn) (h : Swapped env w r s) (copies : env.restoreFault = none) :
    ∃ e t, compensateBuildFirst env reason s = (.error e, t) ∧ t.dir.files = w.dir.files ∧
      (env.tagLatest = none ∧ env.upAgain = none →
        t.container = some ⟨w.dir.files, previousImage env w, bringsBack env⟩) := by
  obtain ⟨notes, down⟩ := composeDown_apply env s
  let stopped : State := { s with container := afterDown env s.container }
  let copied : State := { stopped with dir := ⟨w.dir.files, some w.dir.files⟩ }
  have restored : restoreGenerated env stopped = (.ok true, copied) := by
    have snapshot : s.dir.restoreGenerated = (true, ⟨w.dir.files, some w.dir.files⟩) := by
      simp [DockerDir.restoreGenerated, h.prev]
    rw [restoreGenerated_apply copies]
    simp [stopped, snapshot, copied]
  obtain ⟨image, previous⟩ := Option.isSome_iff_exists.mp h.known
  obtain ⟨more, u, brought, kept, latestTag, container⟩ :=
    bringBackPrevious_apply env (s := copied) (h.prevTag.trans previous)
  have goesOn : compensateBuildFirst env reason s =
      (if bringsBack env then recordRestored env reason else recordResidual env reason (notes ++ more)) u := by
    refine (bind_of_ok down).trans ((bind_of_ok restored).trans ?_)
    rw [if_pos rfl, bind_of_ok brought]
  have recorded : ∃ e t, (if bringsBack env then recordRestored env reason
      else recordResidual env reason (notes ++ more)) u = (.error e, t) ∧ Recorded u t := by
    split_ifs
    · obtain ⟨e, t, run, -, recorded, -⟩ := recordRestored_apply env reason u
      exact ⟨e, t, run, recorded⟩
    · obtain ⟨e, t, run, -, recorded, -⟩ := recordResidual_apply env reason (notes ++ more) u
      exact ⟨e, t, run, recorded⟩
  obtain ⟨e, t, run, same⟩ := recorded
  refine ⟨e, t, goesOn.trans run, by rw [same.dir, kept.dir], fun upAgain => ?_⟩
  rw [same.container, container, if_pos upAgain, previous]

theorem Fails.restored (h : Fails env w r e t) (copies : env.restoreFault = none) :
    ∃ e' t', conclude env e t = (.error e', t') ∧ t'.dir.files = w.dir.files ∧
      (env.tagLatest = none ∧ env.upAgain = none →
        t'.container = some ⟨w.dir.files, previousImage env w, bringsBack env⟩) := by
  cases h with
  | raised plain pending =>
    obtain ⟨e', t', run, files, container⟩ := compensateBuildFirst_files e pending.toSwapped copies
    refine ⟨e', t', ?_, files, container⟩
    have handled : handleContainerDeployFailed env e t = (.error e', t') := by
      unfold handleContainerDeployFailed
      simp [bind_apply, pending.txn, pending.oldStopped, run]
    unfold conclude
    simp [bind_apply, plain, pending.unsettled, handled]
  | settled reason s swapped settled compensated =>
    obtain ⟨e', t', run, plain, ctx, -⟩ := compensateBuildFirst_apply reason swapped
    obtain ⟨e'', t'', run', files, container⟩ := compensateBuildFirst_files reason swapped copies
    rw [compensated] at run run'
    cases run
    cases run'
    refine ⟨e, t, ?_, files, container⟩
    unfold conclude
    simp [bind_apply, plain, ctx, settled]

/-- How a call of `host_container` begins. -/
theorem register_cases (env : Env) (w : World) :
    (∃ e t, register env w.start = (.error e, t) ∧ t.dir = w.dir ∧ t.stored = w.stored) ∨
    ∃ txn t, choosesBuildFirst env w.stored = .ok txn ∧ register env w.start = (.ok (), t) ∧
      t.dir = w.dir ∧ t.stored = w.stored ∧ t.manifest = w.stored ∧ t.ctx = Deploy.initial txn := by
  unfold register beginContainerDeploy
  simp only [bind_apply, modify_apply, attempt_apply, get_apply, ofExcept_apply]
  cases env.fault .preconditions with
  | some exc => exact .inl ⟨exc, _, rfl, rfl, rfl⟩
  | none =>
    cases chosen : choosesBuildFirst env w.stored with
    | error exc =>
      refine .inl ⟨exc, w.start, ?_, rfl, rfl⟩
      simp [World.start, chosen]
    | ok txn =>
      cases env.fault .addBuild with
      | some exc =>
        refine .inl ⟨exc, w.start, ?_, rfl, rfl⟩
        simp [World.start, chosen]
      | none =>
        cases env.fault .beginStatus with
        | some exc =>
          refine .inl ⟨exc, w.start, ?_, rfl, rfl⟩
          simp [World.start, chosen]
        | none =>
          let begun : State := { w.start with
            registryStatus := if txn then w.registryStatus else .building
            ctx := Deploy.initial txn }
          refine .inr ⟨txn, begun, rfl, ?_, rfl, rfl, rfl, rfl⟩
          simp [World.start, chosen, begun]

/-- A cancelled `up` comes after the identity of the old container was cleared. -/
theorem afterStop_cancelled (cancelled : UpCancelled env) (txn : s.ctx.txn = true)
    (run : afterStop env s = (.error e, t)) : t.stored.containerId = none := by
  obtain ⟨cleared, up⟩ := cancelled
  obtain ⟨exc, fault, -⟩ := Option.map_eq_some_iff.mp up
  have started : ∃ u, startNewContainer env s = (.error exc, u) ∧ u.stored.containerId = none := by
    unfold startNewContainer clearContainerIdentity
    simp only [bind_apply, get_apply, txn, if_true, setManifest, modify_apply, save, checkWrite, cleared, composeUp,
      fault]
    exact ⟨_, rfl, rfl⟩
  obtain ⟨u, raised, identity⟩ := started
  unfold afterStop at run
  rw [bind_of_error raised] at run
  cases run
  exact identity

/-- A rebuild that builds first fails with the old files in `docker/`, or without the identity of a
container; and where its compensation has started the old version, that serves its own files. -/
theorem buildFirst_failed (chosen : choosesBuildFirst env w.stored = .ok true) (copies : env.restoreFault = none)
    (fresh : NoStaleSnapshot env w) (failed : hostContainer env w.start = (.error e, t)) :
    (t.dir.files = w.dir.files ∨ t.stored.containerId = none) ∧
      (RuntimeRecreate.restartsPrevious env w = true → t.dir.files = w.dir.files ∧
        t.container = some ⟨w.dir.files, previousImage env w, bringsBack env⟩) := by
  rcases register_cases env w with ⟨exc, u, begun, dir, stored⟩ | ⟨txn, s, chosen', begun, dir, stored, manifest, ctx⟩
  · have raised : hostContainer env w.start = (.error exc, u) := bind_of_error begun
    rw [raised] at failed
    cases failed
    refine ⟨.inl (by rw [dir]), fun restarts => ?_⟩
    simp [RuntimeRecreate.restartsPrevious, bind_of_error begun] at restarts
  rw [chosen] at chosen'
  cases chosen'
  have registered := register_state begun (by rw [ctx]; rfl)
  subst registered
  have deployed : hostContainer env w.start = deploy env { w.start with ctx := Deploy.initial true } :=
    bind_of_ok begun
  rw [deployed] at failed
  rcases body : beforeStop env { w.start with ctx := Deploy.initial true } with ⟨exc | ⟨⟩, u⟩
  · have aborted := beforeStop_aborted env rfl rfl body
    obtain ⟨e', t', concluded, files, -⟩ := conclude_apply exc copies aborted.txn aborted.oldStopped
      aborted.outcomeSettled (aborted.manifest.trans aborted.stored.symm)
    have raised : deploy env { w.start with ctx := Deploy.initial true } = (.error e', t') :=
      (handle_of_error (bind_of_error body)).trans concluded
    rw [raised] at failed
    cases failed
    refine ⟨.inl ?_, fun restarts => ?_⟩
    · rw [files]
      by_cases early : Unprepared env w.stored
      · rw [aborted.unprepared early]
        change w.dir.prev.getD w.dir.files = w.dir.files
        cases prev : w.dir.prev with
        | none => rfl
        | some snapshot => exact fresh early snapshot prev
      · exact aborted.prepared early
    · have unstopped : (register env >>= fun _ => beforeStop env) w.start = (.error exc, u) :=
        (bind_of_ok begun).trans body
      simp [RuntimeRecreate.restartsPrevious, unstopped] at restarts
  · have left := beforeStop_ok body
    have stopped : (register env >>= fun _ => beforeStop env) w.start = (.ok (), u) :=
      (bind_of_ok begun).trans body
    have concludes : deploy env { w.start with ctx := Deploy.initial true } =
        (afterStop env).handle (conclude env) u := by
      have both : (beforeStop env >>= fun _ => afterStop env) { w.start with ctx := Deploy.initial true } =
        afterStop env u := bind_of_ok body
      simp only [deploy, handle, both]
    rw [concludes] at failed
    rcases afterStop_cases left.pending left.files (congrArg Manifest.status left.manifest) with
      ⟨t', run⟩ | ⟨kept, exc, t', run, fails⟩ | ⟨cancelled, exc, t', run, cancels, saved, pending⟩
    · rw [handle_of_ok run] at failed
      cases failed
    · obtain ⟨e', t'', concluded, files, container⟩ := fails.restored copies
      rw [handle_of_error run, concluded] at failed
      cases failed
      refine ⟨.inl files, fun restarts => ⟨files, container ?_⟩⟩
      simp [RuntimeRecreate.restartsPrevious, stopped, run] at restarts
      exact ⟨restarts.1.2, restarts.2⟩
    · obtain ⟨e', t'', concluded, stored', -⟩ := conclude_cancelled cancels saved pending
      rw [handle_of_error run, concluded] at failed
      cases failed
      refine ⟨.inr ?_, fun restarts => ?_⟩
      · rw [stored']
        exact afterStop_cancelled cancelled left.txn run
      · simp [RuntimeRecreate.restartsPrevious, stopped, run, cancels, pending.unsettled] at restarts

end buildFirst

/-! ### Stopping first -/

section stopFirst

variable {env : Env} {w : World}

/-- What a rebuild that stops first keeps: a condition on `docker/`, and one on the identity in both
copies of the manifest. -/
structure Holds (D : DockerDir → Prop) (C : Option String → Prop) (s : State) : Prop where
  txn : s.ctx.txn = false
  dir : D s.dir
  stored : C s.stored.containerId
  manifest : C s.manifest.containerId

variable {D : DockerDir → Prop} {C : Option String → Prop}

theorem save_holds (write : Write) : Maintains (Holds D C) (save env write) :=
  (maintains_check _).bind fun _ => maintains_modify fun _ h => ⟨h.txn, h.dir, h.manifest, h.manifest⟩

theorem updateStatus_holds (write : Write) (status : Status) :
    Maintains (Holds D C) (updateStatus env write status) :=
  (maintains_check _).bind fun _ => maintains_modify fun _ h => ⟨h.txn, h.dir, h.stored, h.manifest⟩

theorem upsertFromManifest_holds (write : Write) : Maintains (Holds D C) (upsertFromManifest env write) :=
  (maintains_check _).bind fun _ => maintains_modify fun _ h => ⟨h.txn, h.dir, h.stored, h.manifest⟩

theorem releaseFreshPort_holds : Maintains (Holds D C) (releaseFreshPort env) := by
  unfold releaseFreshPort
  refine maintains_get fun s => .ite ?_ maintains_pure
  refine Maintains.suppress ((maintains_check _).bind fun _ => maintains_modify fun _ h => ?_)
  exact ⟨h.txn, h.dir, h.stored, h.manifest⟩

theorem composeDown_holds : Maintains (Holds D C) (composeDown env) :=
  (maintains_check _).bind fun _ => maintains_modify fun _ h => ⟨h.txn, h.dir, h.stored, h.manifest⟩

theorem markFailed_holds : Maintains (Holds D C) (markFailed env) := by
  unfold markFailed
  refine Maintains.bind (maintains_modify fun _ h => ⟨h.txn, h.dir, h.stored, h.manifest⟩) fun _ => ?_
  refine Maintains.suppress ((save_holds _).bind fun _ => (upsertFromManifest_holds _).bind fun _ => ?_)
  exact (updateStatus_holds _ _).bind fun _ => maintains_check _

/-- A choice whose condition is known to fail. -/
theorem Maintains.ite_neg {I : State → Prop} {c : Prop} [Decidable c] {p q : Run Unit} (no : ¬ c)
    (h : Maintains I q) : Maintains I (if c then p else q) := by
  rw [if_neg no]
  exact h

theorem handleContainerDeployCancelled_holds : Maintains (Holds D C) (handleContainerDeployCancelled env) := by
  have records : Maintains (Holds D C) (do
      releaseFreshPort env
      checkWrite env .cancelOperation
      checkWrite env .cancelError
      suppress (save env .cancelSave)) := by
    refine releaseFreshPort_holds.bind fun _ => (maintains_check _).bind fun _ => (maintains_check _).bind fun _ => ?_
    exact Maintains.suppress (save_holds _)
  intro s h
  have unstarted : ¬ (s.ctx.txn = true ∧ s.ctx.oldStopped = false) := fun both => by simp [h.txn] at both
  exact Maintains.ite_neg unstarted records s h

theorem handleContainerDeployFailed_holds (exc : Exn) :
    Maintains (Holds D C) (handleContainerDeployFailed env exc) := by
  intro s h
  have swapped : ¬ (s.ctx.txn = true ∧ s.ctx.oldStopped = true) := fun both => by simp [h.txn] at both
  have aborted : Maintains (Holds D C) (do
      if s.ctx.txn then restoreGeneratedForTxn env
      updateStatus env .abortStatus s.manifest.status) :=
    Maintains.ite_neg (by simp [h.txn]) (updateStatus_holds _ _)
  have undone : Maintains (Holds D C) (do
      releaseFreshPort env
      if s.ctx.upCompleted then suppress (composeDown env)
      markFailed env) := by
    refine releaseFreshPort_holds.bind fun _ => Maintains.ite ?_ markFailed_holds
    exact (Maintains.suppress composeDown_holds).bind fun _ => markFailed_holds
  exact Maintains.ite_neg swapped (Maintains.ite aborted undone) s h

/-- The handlers of a rebuild that stops first neither restore anything nor set an identity. -/
theorem conclude_holds (exc : Exn) : Maintains (Holds D C) (conclude env exc) := by
  unfold conclude
  refine maintains_get fun s => Maintains.ite ?_ (Maintains.ite ?_ maintains_raise)
  · exact handleContainerDeployCancelled_holds.bind fun _ => maintains_raise
  · exact (handleContainerDeployFailed_holds exc).bind fun _ => maintains_raise

/-- Every way in which a rebuild that stops first may end after it has observed its container. -/
structure Concludes (env : Env) : Prop where
  commit : ∀ write ∈ [Write.commitNetwork, .commitSave, .commitUpsert, .commitStatus], env.writeFault write = none
  verified : verified env = true
  finalize : ∀ write ∈ [Write.finalizeSave, .finalizeStatus, .recordStarted, .startEvent],
    env.writeFault write = none
  health : env.liveness = true → env.writeFault .recordHealth = none

/-- The old files are there, under the old identity or none. -/
abbrev Early (w : World) : State → Prop :=
  Holds (fun dir => dir.files = w.dir.files) (fun id => id = w.stored.containerId ∨ id = none)

/-- The identity is cleared. -/
abbrev Late : State → Prop := Holds (fun _ => True) (fun id => id = none)

theorem clearContainerIdentity_late :
    Triple (Early w) (clearContainerIdentity env) (fun _ => Late) (fun _ => Early w) := by
  refine Triple.bind (Q := fun _ s => Early w s ∧ s.manifest.containerId = none) ?_ fun _ => ?_
  · exact triple_modify fun s h => ⟨⟨h.txn, h.dir, h.stored, .inr rfl⟩, rfl⟩
  · refine Triple.bind (Q := fun _ s => Early w s ∧ s.manifest.containerId = none)
      (triple_check (fun _ _ h => h) fun _ _ _ h => h.1) fun _ => ?_
    exact triple_modify fun s h => ⟨h.1.txn, trivial, h.2, h.2⟩

theorem stopOldContainer_holds : Maintains (Holds D C) (stopOldContainer env) := by
  unfold stopOldContainer
  split
  · exact maintains_modify fun _ h => ⟨h.txn, h.dir, h.stored, h.manifest⟩
  · exact Maintains.bind (maintains_modify fun _ h => ⟨h.txn, h.dir, h.stored, h.manifest⟩) fun _ => maintains_raise
  · exact maintains_raise

theorem late_of_framed {s t : State} (h : Late s) (framed : Framed s t) : Late t where
  txn := framed.txn.trans h.txn
  dir := trivial
  stored := by rw [framed.stored, h.stored]
  manifest := by rw [framed.manifest, h.manifest]

/-- Up to the stop of an old container that is stopped first. -/
theorem beforeStop_late : Triple (Early w) (beforeStop env) (fun _ => Late) (fun _ s => Early w s ∨ Late s) := by
  have rest : Maintains Late (do
      renderContainerArtifacts env
      buildContainerImage env
      swapOutOldContainer env) := by
    refine ((renderContainerArtifacts_framed env).maintains fun _ _ => late_of_framed).bind fun _ => ?_
    refine ((framed_of_portless (buildContainerImage_portless env)).maintains fun _ _ => late_of_framed).bind
      fun _ => ?_
    intro s h
    exact Maintains.ite_neg (by simp [h.txn]) maintains_pure s h
  unfold beforeStop
  refine Triple.bind (Q := fun _ => Early w) (triple_check (fun _ _ h => h) fun _ _ _ h => .inl h) fun _ => ?_
  refine Triple.bind (Q := fun _ => Late) ?_ fun _ =>
    rest.consequence (fun _ h => h) (fun _ _ h => h) (fun _ _ h => .inr h)
  intro s h
  have stops : Triple (Early w) (do
      attempt env .rescue
      stopOldContainer env
      clearContainerIdentity env) (fun _ => Late) (fun _ s => Early w s ∨ Late s) := by
    refine Triple.bind (Q := fun _ => Early w) (triple_check (fun _ _ h => h) fun _ _ _ h => .inl h) fun _ => ?_
    refine Triple.bind (stopOldContainer_holds.consequence (fun _ h => h) (fun _ _ h => h) fun _ _ h => .inl h)
      fun _ => ?_
    exact clearContainerIdentity_late.consequence (fun _ h => h) (fun _ _ h => h) fun _ _ h => .inl h
  have chosen : preparePreviousContainer env s = (do
      attempt env .rescue
      stopOldContainer env
      clearContainerIdentity env : Run Unit) s := by
    unfold preparePreviousContainer
    simp [bind_apply, h.txn]
  rw [chosen]
  exact stops s h

theorem startNewContainer_late : Maintains Late (startNewContainer env) := by
  have rest : Maintains Late (do
      composeUp env.up
      setCtx (fun ctx => { ctx with upCompleted := true })) := by
    refine Maintains.bind ((maintains_check _).bind fun _ => ?_) fun _ => ?_
    · exact maintains_modify fun _ h => ⟨h.txn, h.dir, h.stored, h.manifest⟩
    · exact maintains_modify fun _ h => ⟨h.txn, h.dir, h.stored, h.manifest⟩
  intro s h
  exact Maintains.ite_neg (by simp [h.txn]) rest s h

theorem observeNewContainer_late :
    Triple Late (observeNewContainer env) (fun _ _ => observed env = true) (fun _ => Late) := by
  unfold observeNewContainer
  refine Triple.bind (Q := fun containerId s => Late s ∧ safely env.containerId = .ok containerId)
    (triple_ofExcept (fun _ found _ h => ⟨h, found⟩) fun _ _ _ h => h) fun containerId => ?_
  refine Triple.bind (Q := fun imageId s => (Late s ∧ safely env.containerId = .ok containerId) ∧
      safely env.imageId = .ok imageId)
    (triple_ofExcept (fun _ found _ h => ⟨h, found⟩) fun _ _ _ h => h.1) fun imageId => ?_
  cases containerId with
  | some containerId =>
    refine triple_get fun s h => triple_modify fun _ _ => ?_
    unfold observed
    rw [h.1.2, h.2]
  | none =>
    have lost (exc : Exn) : Triple Late (do
        suppress (composeDown env)
        releaseFreshPort env
        markFailed env
        raise exc : Run Unit) (fun _ _ => observed env = true) (fun _ => Late) := by
      refine Triple.bind (Maintains.suppress composeDown_holds) fun _ => ?_
      refine Triple.bind releaseFreshPort_holds fun _ => Triple.bind markFailed_holds fun _ => ?_
      exact triple_raise fun _ h => h
    refine triple_get fun s h => ?_
    refine Triple.bind (Q := fun _ => Late) (triple_modify fun _ same => ?_) fun _ => ?_
    · subst same
      exact ⟨h.1.1.txn, trivial, h.1.1.stored, h.1.1.manifest⟩
    · exact Triple.ite (fun txn => by simp [h.1.1.txn] at txn) fun _ => lost _

theorem checkWrite_returns {write : Write} (passes : env.writeFault write = none) {P : State → Prop}
    {E : Exn → State → Prop} : Triple P (checkWrite env write) (fun _ => P) E :=
  triple_check (fun _ _ h => h) fun _ raised => by
    rw [passes] at raised
    cases raised

/-- What follows the observation returns. -/
theorem Concludes.returns (h : Concludes env) : Triple (fun _ => True) (do
    commitVerifyingState env
    let verdict ← verifyContainerDeployment env
    finalizeContainerDeploy env verdict : Run Unit) (fun _ _ => True) (fun _ _ => False) := by
  have write {write : Write} (passes : env.writeFault write = none) :
      Triple (fun _ => True) (checkWrite env write) (fun _ _ => True) (fun _ _ => False) :=
    checkWrite_returns passes
  have change (g : State → State) :
      Triple (fun _ => True) (modify g : Run Unit) (fun _ _ => True) (fun _ _ => False) :=
    triple_modify fun _ _ => trivial
  have commits : Triple (fun _ => True) (commitVerifyingState env) (fun _ _ => True) (fun _ _ => False) := by
    refine Triple.bind (write (h.commit _ (by simp))) fun _ => Triple.bind (change _) fun _ => ?_
    refine Triple.bind (Triple.bind (write (h.commit _ (by simp))) fun _ => change _) fun _ => ?_
    refine Triple.bind (Triple.bind (write (h.commit _ (by simp))) fun _ => change _) fun _ => ?_
    exact Triple.bind (write (h.commit _ (by simp))) fun _ => change _
  have records : Triple (fun _ => True) (do
      setManifest (fun manifest => { manifest with status := .running })
      save env .finalizeSave
      updateStatus env .finalizeStatus .running
      checkWrite env .recordStarted
      if env.liveness then checkWrite env .recordHealth
      checkWrite env .startEvent : Run Unit) (fun _ _ => True) (fun _ _ => False) := by
    refine Triple.bind (change _) fun _ => ?_
    refine Triple.bind (Triple.bind (write (h.finalize _ (by simp))) fun _ => change _) fun _ => ?_
    refine Triple.bind (Triple.bind (write (h.finalize _ (by simp))) fun _ => change _) fun _ => ?_
    refine Triple.bind (write (h.finalize _ (by simp))) fun _ => Triple.ite (fun alive => ?_) fun _ => ?_
    · exact Triple.bind (write (h.health alive)) fun _ => write (h.finalize _ (by simp))
    · exact write (h.finalize _ (by simp))
  have verified := h.verified
  refine Triple.bind commits fun _ => ?_
  refine Triple.bind (Q := fun verdict _ => verdict ≠ .failed ∧ env.verification = .ok verdict) ?_ fun verdict => ?_
  · refine Triple.bind (change _) fun _ => ?_
    unfold ContainerDeploy.verified at verified
    cases verification : env.verification with
    | error failure => simp [verification] at verified
    | ok verdict =>
      refine Triple.bind (Q := fun verdict' _ => verdict' = verdict)
        (triple_ofExcept (fun _ same _ _ => ?_) fun _ raised => ?_) fun verdict' => ?_
      · cases same
        rfl
      · cases raised
      · cases verdict' with
        | failed =>
          intro s same
          simp [verification, ← same] at verified
        | passed => exact triple_pure fun s same => ⟨by simp, by rw [same]⟩
        | degraded => exact triple_pure fun s same => ⟨by simp, by rw [same]⟩
  · cases verdict with
    | failed => exact fun s impossible => absurd rfl impossible.1
    | passed => exact records.consequence (fun _ _ => trivial) (fun _ _ h => h) fun _ _ h => h
    | degraded =>
      intro s given
      have event : env.writeFault .finalizeEvent = none := by
        simpa [ContainerDeploy.verified, given.2] using verified
      exact Triple.bind (write event) (fun _ => records) s trivial

theorem afterStop_late (settles : observed env = true → Concludes env) :
    Triple Late (afterStop env) (fun _ _ => True) (fun _ => Late) := by
  unfold afterStop
  refine Triple.bind startNewContainer_late fun _ => ?_
  refine Triple.bind observeNewContainer_late fun _ s seen => ?_
  have returned := (settles seen).returns s trivial
  rcases run : (do
    commitVerifyingState env
    let verdict ← verifyContainerDeployment env
    finalizeContainerDeploy env verdict : Run Unit) s with ⟨exc | _, t⟩
  · rw [run] at returned
    exact returned.elim
  · trivial

/-- A rebuild that stops first fails with the old files in `docker/`, or without the identity of a
container. -/
theorem stopFirst_failed {e : Exn} {t : State} (chosen : choosesBuildFirst env w.stored = .ok false)
    (settles : observed env = true → Concludes env) (failed : hostContainer env w.start = (.error e, t)) :
    (t.dir.files = w.dir.files ∧ (t.stored.containerId = w.stored.containerId ∨ t.stored.containerId = none)) ∨
      t.stored.containerId = none := by
  rcases register_cases env w with ⟨exc, u, begun, dir, stored⟩ | ⟨txn, s, chosen', begun, dir, stored, manifest, ctx⟩
  · have raised : hostContainer env w.start = (.error exc, u) := bind_of_error begun
    rw [raised] at failed
    cases failed
    exact .inl ⟨by rw [dir], .inl (by rw [stored])⟩
  rw [chosen] at chosen'
  cases chosen'
  have body : Triple (Early w) (beforeStop env >>= fun _ => afterStop env) (fun _ _ => True)
      (fun _ s => Early w s ∨ Late s) := by
    refine Triple.bind beforeStop_late fun _ => ?_
    exact (afterStop_late settles).consequence (fun _ h => h) (fun _ _ h => h) fun _ _ h => .inr h
  have handled (exc : Exn) : Triple (fun s => Early w s ∨ Late s) (conclude env exc) (fun _ _ => True)
      (fun _ s => Early w s ∨ Late s) := by
    rintro s (early | late)
    · exact (conclude_holds exc).consequence (fun _ h => h) (fun _ _ _ => trivial) (fun _ _ h => .inl h) s early
    · exact (conclude_holds exc).consequence (fun _ h => h) (fun _ _ _ => trivial) (fun _ _ h => .inr h) s late
  have begins : Early w s :=
    ⟨by rw [ctx]; rfl, by rw [dir], .inl (by rw [stored]), .inl (by rw [manifest])⟩
  have ended := body.handle handled s begins
  have hosted : hostContainer env w.start = deploy env s := bind_of_ok begun
  unfold deploy at hosted
  rw [← hosted, failed] at ended
  rcases ended with early | late
  · exact .inl ⟨early.dir, early.stored⟩
  · exact .inr late.stored

end stopFirst

end LocalWebAccess.ContainerDeploy

namespace LocalWebAccess.RuntimeRecreate
open RaisingPrograms Prog ComposeObservation GuardedRuns
open ContainerDeploy (World Manifest Env Write)
open DeploymentFingerprints (StartAction fingerprintChangeAction)

/-! ## The rebuild in a call -/

/-- Every restoration so far was exact. -/
def History.Exact (h : History) : Prop := ∀ r ∈ h.restorations, r.Exact

/-- `docker/` holds the files of the last successful start if there is a container, and every
restoration was exact. -/
structure Settled (c : Call) : Prop where
  kept : c.stored.containerId.isSome → c.dir.files = c.history.started
  exact : c.history.Exact

/-- A rebuild that builds first finds no older snapshot where it fails before its own, and one that
stops first comes to its end once it has observed the new container. -/
structure RebuildKeeps (env : Env) (w : World) : Prop where
  buildFirst : ContainerDeploy.choosesBuildFirst env w.stored = .ok true →
    env.restoreFault = none ∧ ContainerDeploy.NoStaleSnapshot env w
  stopFirst : ContainerDeploy.choosesBuildFirst env w.stored = .ok false →
    ContainerDeploy.observed env = true → ContainerDeploy.Concludes env

theorem History.Exact.restore {h : History} (exact : h.Exact) {files : Files} (same : files = h.started) :
    ({ h with restorations := h.restorations ++ [⟨files, h.started⟩] } : History).Exact := by
  intro r listed
  rcases List.mem_append.mp listed with earlier | new
  · exact exact r earlier
  · obtain rfl := List.mem_singleton.mp new
    subst same
    exact ⟨rfl, rfl, rfl⟩

theorem choosesBuildFirst_deployed {env : Env} {manifest : Manifest}
    (chosen : ContainerDeploy.choosesBuildFirst env manifest = .ok true) : manifest.containerId.isSome := by
  unfold ContainerDeploy.choosesBuildFirst at chosen
  split_ifs at chosen with applies strategy
  · unfold ContainerDeploy.buildFirstApplies at applies
    simp only [Bool.and_eq_true] at applies
    exact applies.1.1
  · exact strategy.1
  · cases chosen

/-- Only a rebuild that builds first brings its old version back. -/
theorem restartsPrevious_buildFirst {env : Env} {w : World} (restarts : restartsPrevious env w = true) :
    ContainerDeploy.choosesBuildFirst env w.stored = .ok true := by
  rcases ContainerDeploy.register_cases env w with
    ⟨exc, u, begun, -⟩ | ⟨txn, s, chosen, begun, dir, stored, manifest, ctx⟩
  · simp [restartsPrevious, bind_of_error begun] at restarts
  cases txn with
  | true => exact chosen
  | false =>
    have early : ContainerDeploy.Early w s :=
      ⟨by rw [ctx]; rfl, by rw [dir], .inl (by rw [stored]), .inl (by rw [manifest])⟩
    have stops : Triple (ContainerDeploy.Early w) (ContainerDeploy.beforeStop env) _ _ :=
      ContainerDeploy.beforeStop_late
    have ended := stops s early
    rcases body : ContainerDeploy.beforeStop env s with ⟨exc | ⟨⟩, u⟩
    · have stopped : (ContainerDeploy.register env >>= fun _ => ContainerDeploy.beforeStop env) w.start =
          (.error exc, u) := (bind_of_ok begun).trans body
      simp [restartsPrevious, stopped] at restarts
    · rw [body] at ended
      have txn : u.ctx.txn = false := ended.txn
      have stopped : (ContainerDeploy.register env >>= fun _ => ContainerDeploy.beforeStop env) w.start =
          (.ok (), u) := (bind_of_ok begun).trans body
      rcases after : ContainerDeploy.afterStop env u with ⟨exc | ⟨⟩, t⟩
      · simp [restartsPrevious, stopped, after, txn] at restarts
      · simp [restartsPrevious, stopped, after] at restarts

/-- A rebuild that fails leaves a container only with the files it was started from, and restores
those. -/
theorem failed_kept {env : Env} {c : Call} {exc : Exn} {t : ContainerDeploy.State} (settled : Settled c)
    (keeps : RebuildKeeps env c.toWorld)
    (run : ContainerDeploy.hostContainer env c.toWorld.start = (.error exc, t)) :
    (t.stored.containerId.isSome → t.dir.files = c.history.started) ∧
      (restartsPrevious env c.toWorld = true → t.dir.files = c.history.started) := by
  cases chosen : ContainerDeploy.choosesBuildFirst env c.stored with
  | error exc' =>
    rcases ContainerDeploy.register_cases env c.toWorld with
      ⟨exc'', u, begun, dir, stored⟩ | ⟨txn, s, chosen', -⟩
    · have raised : ContainerDeploy.hostContainer env c.toWorld.start = (.error exc'', u) := bind_of_error begun
      rw [raised] at run
      cases run
      refine ⟨fun deployed => ?_, fun restarts => ?_⟩
      · rw [stored] at deployed
        rw [dir]
        exact settled.kept deployed
      · rw [restartsPrevious_buildFirst restarts] at chosen
        cases chosen
    · rw [chosen] at chosen'
      cases chosen'
  | ok buildFirst =>
    cases buildFirst with
    | true =>
      have started := settled.kept (choosesBuildFirst_deployed chosen)
      obtain ⟨copies, fresh⟩ := keeps.buildFirst chosen
      obtain ⟨files, restores⟩ := ContainerDeploy.buildFirst_failed chosen copies fresh run
      refine ⟨fun deployed => ?_, fun restarts => (restores restarts).1.trans started⟩
      rcases files with same | cleared
      · exact same.trans started
      · simp [cleared] at deployed
    | false =>
      refine ⟨fun deployed => ?_, fun restarts => ?_⟩
      · rcases ContainerDeploy.stopFirst_failed chosen (keeps.stopFirst chosen) run with
          ⟨files, same | cleared⟩ | cleared
        · rw [same] at deployed
          exact files.trans (settled.kept deployed)
        · simp [cleared] at deployed
        · simp [cleared] at deployed
      · rw [restartsPrevious_buildFirst restarts] at chosen
        cases chosen

theorem hostContainer_settled {env : Env} {w : World} (keeps : RebuildKeeps env w) :
    Triple (fun c => c.toWorld = w ∧ Settled c) (hostContainer env) (fun _ => Settled) (fun _ => Settled) := by
  rintro c ⟨rfl, settled⟩
  rcases run : ContainerDeploy.hostContainer env c.toWorld.start with ⟨exc | ⟨⟩, t⟩
  · obtain ⟨kept, restores⟩ := failed_kept settled keeps run
    cases restarts : restartsPrevious env c.toWorld with
    | false =>
      have hosted : hostContainer env c = (.error exc, { c with toState := t }) := by
        simp [hostContainer, bind_apply, handle, lift, run, restarts]
      rw [hosted]
      exact ⟨kept, settled.exact⟩
    | true =>
      have same := restores restarts
      cases answers : env.answers.toOption.getD false with
      | false =>
        have hosted : hostContainer env c = (.error exc, { toState := t, history := { c.history with
            restorations := c.history.restorations ++ [⟨t.dir.files, c.history.started⟩] } }) := by
          simp [hostContainer, bind_apply, handle, lift, run, restarts, answers, noteRestoration]
        rw [hosted]
        exact ⟨kept, settled.exact.restore same⟩
      | true =>
        have hosted : hostContainer env c = (.error exc, { toState := t, history := {
            started := t.dir.files
            restorations := c.history.restorations ++ [⟨t.dir.files, c.history.started⟩] } }) := by
          simp [hostContainer, bind_apply, handle, lift, run, restarts, answers, noteRestoration, noteStarted]
        rw [hosted]
        exact ⟨fun _ => rfl, settled.exact.restore same⟩
  · have hosted : hostContainer env c =
        (.ok (), { toState := t, history := { c.history with started := t.dir.files } }) := by
      simp [hostContainer, bind_apply, handle, lift, run, noteStarted]
    rw [hosted]
    exact ⟨fun _ => rfl, settled.exact⟩

/-! ## The decision -/

theorem triple_lift {α : Type} {p : ContainerDeploy.Run α} {P : Call → Prop} {Q : α → Call → Prop}
    {E : Exn → Call → Prop} (h : ∀ history, Triple (fun s => P ⟨s, history⟩) p (fun a s => Q a ⟨s, history⟩)
      (fun e s => E e ⟨s, history⟩)) : Triple P (lift p) Q E := by
  intro c start
  have ended := h c.history c.toState start
  unfold lift
  rcases run : p c.toState with ⟨exc | a, t⟩
  · rw [run] at ended
    exact ended
  · rw [run] at ended
    exact ended

theorem maintains_lift {α : Type} {p : ContainerDeploy.Run α} {I : Call → Prop}
    (h : ∀ history, Maintains (fun s => I ⟨s, history⟩) p) : Maintains I (lift p) := triple_lift h

/-- The decision comes to render the files. -/
structure Renders (env : DecisionEnv) (w : World) : Prop where
  unpinned : ¬ pinned env
  snapshot : env.fault .snapshot = none
  composeYaml : w.dir.files .composeYaml ≠ none
  dockerfile : w.dir.files .dockerfile ≠ none
  hostPort : w.stored.hostPort ≠ none
  proxyConfig : env.fault .proxyConfig = none

/-- The rendering and the fingerprints come through, and call for the action. -/
structure Decides (env : DecisionEnv) (action : StartAction) : Prop where
  rendered : ∀ file, env.fault (.render file) = none
  compared : ∃ current, env.current = .ok current ∧ (fingerprintChangeAction env.stored current).1 = action

/-- A rendering that changes the files is followed by an action, and is undone before a rebuild. -/
structure DecisionKeeps (env : DecisionEnv) (w : World) : Prop where
  followed : Renders env w →
    env.rendered = w.dir.files ∨ Decides env .runtimeRecreate ∨ Decides env .fullRebuild
  undone : Renders env w → Decides env .fullRebuild → env.restoreFault = none

section decision

variable {env : DecisionEnv} {w : World} {h : History}

/-- `docker/` holds the files of the last successful start. -/
structure Back (h : History) (c : Call) : Prop where
  history : c.history = h
  files : c.dir.files = h.started

/-- The files were rendered that are in the list, and the snapshot is of those before. -/
structure Part (env : DecisionEnv) (w : World) (h : History) (done : List GeneratedFile) (c : Call) : Prop where
  history : c.history = h
  files : ∀ file, c.dir.files file = if file ∈ done then env.rendered file else w.dir.files file
  prev : c.dir.prev = some w.dir.files
  manifest : c.manifest = w.stored

theorem Part.back {done : List GeneratedFile} {c : Call} (part : Part env w h done c)
    (same : env.rendered = w.dir.files) (started : w.dir.files = h.started) : Back h c := by
  refine ⟨part.history, ?_⟩
  rw [← started]
  funext file
  rw [part.files file, same, ite_self]

theorem Part.unrendered_back {c : Call} (part : Part env w h [] c) (started : w.dir.files = h.started) :
    Back h c := by
  refine ⟨part.history, ?_⟩
  rw [← started]
  funext file
  rw [part.files file, if_neg List.not_mem_nil]

theorem renderFile_part (file : GeneratedFile) (done : List GeneratedFile) (started : w.dir.files = h.started)
    (fails : env.fault (.render file) ≠ none → env.rendered = w.dir.files) :
    Triple (Part env w h done) (lift (ContainerDeploy.renderFile env.toEnv file))
      (fun _ c => Part env w h (file :: done) c ∧ env.fault (.render file) = none) (fun _ => Back h) := by
  refine triple_lift fun history => ?_
  refine Triple.bind (Q := fun _ s => Part env w h (file :: done) ⟨s, history⟩) ?_ fun _ => ?_
  · refine triple_modify fun s part => ⟨part.history, fun other => ?_, part.prev, part.manifest⟩
    change Function.update s.dir.files file (env.rendered file) other = _
    by_cases same : other = file
    · subst same
      simp
    · rw [Function.update_of_ne same]
      have kept := part.files other
      simpa [same] using kept
  · refine triple_check (fun passes _ part => ⟨part, passes⟩) fun exc raised s part => ?_
    exact part.back (fails (by simp [raised])) started

/-- A rendering either is not begun, or leaves the files as rendered. -/
theorem convergeGeneratedArtifacts_part (started : w.dir.files = h.started)
    (fails : w.stored.hostPort ≠ none → env.fault .proxyConfig = none →
      ∀ file, env.fault (.render file) ≠ none → env.rendered = w.dir.files) :
    Triple (Part env w h []) (convergeGeneratedArtifacts env)
      (fun rendered c => if rendered then c.history = h ∧ c.dir = ⟨env.rendered, some w.dir.files⟩ ∧
        w.stored.hostPort ≠ none ∧ env.fault .proxyConfig = none ∧ ∀ file, env.fault (.render file) = none
        else Back h c)
      (fun _ => Back h) := by
  unfold convergeGeneratedArtifacts
  refine triple_get fun c part => Triple.ite (fun _ => ?_) fun hostPort => ?_
  · refine triple_pure fun s same => ?_
    subst same
    exact part.unrendered_back started
  rw [part.manifest] at hostPort
  refine Triple.bind (Q := fun _ c => Part env w h [] c ∧ env.fault .proxyConfig = none) ?_ fun _ => ?_
  · refine triple_lift fun history => triple_check (fun passes s same => ?_) fun _ _ s same => ?_
    · subst same
      exact ⟨part, passes⟩
    · subst same
      exact part.unrendered_back started
  rintro c ⟨part, proxyConfig⟩
  have render (file : GeneratedFile) (done : List GeneratedFile) :=
    renderFile_part file done started (fails hostPort proxyConfig file)
  have all : Triple (Part env w h []) (do
      lift (ContainerDeploy.renderFile env.toEnv .staticWsgi)
      lift (ContainerDeploy.renderFile env.toEnv .dockerfile)
      lift (ContainerDeploy.renderFile env.toEnv .composeYaml)
      lift (ContainerDeploy.renderFile env.toEnv .env)
      pure true : Run Bool) (fun rendered c => rendered = true ∧
        Part env w h [.env, .composeYaml, .dockerfile, .staticWsgi] c ∧
        ∀ file, env.fault (.render file) = none) (fun _ => Back h) := by
    refine Triple.bind (render .staticWsgi []) fun _ c₁ ⟨part₁, staticWsgi⟩ => ?_
    refine Triple.bind (render .dockerfile _) (fun _ c₂ ⟨part₂, dockerfile⟩ => ?_) c₁ part₁
    refine Triple.bind (render .composeYaml _) (fun _ c₃ ⟨part₃, composeYaml⟩ => ?_) c₂ part₂
    refine Triple.bind (render .env _) (fun _ c₄ ⟨part₄, envFile⟩ => ?_) c₃ part₃
    exact ⟨rfl, part₄, fun file => by cases file <;> assumption⟩
  refine all.consequence (fun _ h => h) (fun rendered c ended => ?_) (fun _ _ h => h) c part
  rw [if_pos ended.1]
  have files : c.dir.files = env.rendered := by
    funext file
    rw [ended.2.1.files file, if_pos (by cases file <;> simp)]
  refine ⟨ended.2.1.history, ?_, hostPort, proxyConfig, ended.2.2⟩
  rw [← files, ← ended.2.1.prev]

/-- A start that has decided: it recreates the container with the snapshot of its files at hand, or
has left the files as they were. -/
def Decided (h : History) (action : StartAction) (c : Call) : Prop :=
  if action = .runtimeRecreate then c.history = h ∧ c.dir.prev = some h.started else Back h c

theorem settleAction_decided (action : StartAction) (started : w.dir.files = h.started)
    (followed : env.rendered = w.dir.files ∨ action = .runtimeRecreate ∨ action = .fullRebuild)
    (undone : action = .fullRebuild → env.restoreFault = none) :
    Triple (fun c => c.history = h ∧ c.dir = ⟨env.rendered, some w.dir.files⟩) (settleAction env action)
      (Decided h) (fun _ => Back h) := by
  unfold settleAction
  cases action with
  | none =>
    have same : env.rendered = w.dir.files := by simpa using followed
    have back (c : Call) (ended : c.history = h ∧ c.dir = ⟨env.rendered, some w.dir.files⟩) : Back h c :=
      ⟨ended.1, by rw [ended.2, same, started]⟩
    refine Triple.bind (Q := fun _ => Back h)
      (triple_check (fun _ c ended => back c ended) fun _ _ c ended => back c ended) fun _ => ?_
    exact triple_pure fun c kept => kept
  | runtimeRecreate =>
    refine triple_pure fun c ended => ⟨ended.1, ?_⟩
    rw [ended.2, started]
  | fullRebuild =>
    refine Triple.bind (Q := fun _ => Back h) (triple_lift fun history s ended => ?_) fun _ => ?_
    · rw [ContainerDeploy.restoreGenerated_apply (undone rfl)]
      refine ⟨ended.1, ?_⟩
      have dir : s.dir = ⟨env.rendered, some w.dir.files⟩ := ended.2
      change s.dir.restoreGenerated.2.files = h.started
      rw [dir, DockerDir.restoreGenerated_files, ← started]
      rfl
    · exact triple_pure fun c kept => kept

theorem deployedAction_decided (started : w.dir.files = h.started) (keeps : DecisionKeeps env w) :
    Triple (fun c => c.history = h ∧ c.dir = w.dir ∧ c.manifest = w.stored) (deployedAction env)
      (Decided h) (fun _ => Back h) := by
  unfold deployedAction
  refine Triple.ite (fun _ => triple_pure fun c begins => ⟨begins.1, by rw [begins.2.1, started]⟩) fun unpinned => ?_
  refine Triple.bind (Q := fun _ c => Part env w h [] c ∧ env.fault .snapshot = none)
    (triple_lift fun history => ?_) fun _ => ?_
  · refine Triple.bind (Q := fun _ s => s.dir = w.dir.snapshotGenerated (env.fault .snapshot).isSome ∧
      history = h ∧ s.manifest = w.stored) (triple_modify fun s begins => ?_) fun _ => ?_
    · exact ⟨by rw [show s.dir = w.dir from begins.2.1], begins.1, begins.2.2⟩
    · refine triple_check (fun passes s ended => ⟨⟨ended.2.1, fun file => ?_, ?_, ended.2.2⟩, passes⟩)
        fun _ _ s ended => ⟨ended.2.1, ?_⟩
      · rw [if_neg List.not_mem_nil, show s.dir = _ from ended.1]
        rfl
      · change s.dir.prev = _
        rw [ended.1, passes]
        rfl
      · change s.dir.files = _
        rw [ended.1]
        exact started
  refine triple_get fun c ⟨part, snapshot⟩ => Triple.ite (fun _ => ?_) fun present => ?_
  · refine triple_pure fun s same => ?_
    subst same
    exact part.unrendered_back started
  have files (file : GeneratedFile) : c.dir.files file = w.dir.files file := by
    rw [part.files file, if_neg List.not_mem_nil]
  rw [files, files, not_or] at present
  have renders (hostPort : w.stored.hostPort ≠ none) (proxyConfig : env.fault .proxyConfig = none) : Renders env w :=
    ⟨unpinned, snapshot, present.1, present.2, hostPort, proxyConfig⟩
  have rest := convergeGeneratedArtifacts_part started fun hostPort proxyConfig file fails => by
    rcases keeps.followed (renders hostPort proxyConfig) with same | recreates | rebuilds
    · exact same
    · exact absurd (recreates.rendered file) fails
    · exact absurd (rebuilds.rendered file) fails
  refine (rest.bind fun rendered => ?_).consequence (fun s same => by subst same; exact part) (fun _ _ h => h)
    fun _ _ h => h
  cases rendered with
  | false => exact triple_pure fun c kept => kept
  | true =>
    rintro c ⟨history, dir, hostPort, proxyConfig, rendered⟩
    have followed := keeps.followed (renders hostPort proxyConfig)
    have undone := keeps.undone (renders hostPort proxyConfig)
    have ended : c.history = h ∧ c.dir = ⟨env.rendered, some w.dir.files⟩ := ⟨history, dir⟩
    refine Triple.bind (Q := fun current c => (c.history = h ∧ c.dir = ⟨env.rendered, some w.dir.files⟩) ∧
      env.current = .ok current) (triple_ofExcept (fun current found c ended => ⟨ended, found⟩)
        fun exc raised c ended => ?_) (fun current c ⟨ended, found⟩ => ?_) c ended
    · rcases followed with same | ⟨-, current, found, -⟩ | ⟨-, current, found, -⟩
      · exact ⟨ended.1, by rw [ended.2, same, started]⟩
      · rw [raised] at found
        cases found
      · rw [raised] at found
        cases found
    · refine settleAction_decided _ started ?_ (fun rebuilds => ?_) c ended
      · rcases followed with same | ⟨-, current', found', recreates⟩ | ⟨-, current', found', rebuilds⟩
        · exact .inl same
        · rw [found] at found'
          cases found'
          exact .inr (.inl recreates)
        · rw [found] at found'
          cases found'
          exact .inr (.inr rebuilds)
      · exact undone ⟨rendered, current, found, rebuilds⟩

end decision

/-! ## The recreate -/

/-- The environment of the container cannot be restored, so the recreate gives up. -/
structure Refuses (env : RecreateEnv) : Prop where
  loaded : env.loaded = none
  available : env.available = none
  rollbackReady : env.rollbackReady ≠ none

/-- The recreate comes to start the new container. -/
structure Replaces (env : RecreateEnv) (files : Files) : Prop where
  loaded : env.loaded = none
  available : env.available = none
  rollbackReady : env.rollbackReady = none
  possible : canRecreateContainerWithoutRebuild env files = .ok true
  rescue : env.fault .rescue = none
  stopped : stopOutcome env = .ok ()
  cleared : env.writeFault .clearIdentity = none

/-- Files that were never started are undone or started. -/
structure RecreateKeeps (env : RecreateEnv) (w : World) (h : History) : Prop where
  reaches : w.dir.files = h.started ∨ Replaces env w.dir.files ∨ Refuses env
  copies : Refuses env → env.restoreFault = none
  fallback : canRecreateContainerWithoutRebuild env w.dir.files = .ok false → RebuildKeeps env.fallback w

/-- The container has no identity, and the snapshot is of the files of the last start. -/
structure Cleared (c : Call) : Prop where
  stored : c.stored.containerId = none
  prev : c.dir.prev = some c.history.started
  exact : c.history.Exact

structure Restored (c : Call) : Prop where
  files : c.dir.files = c.history.started
  exact : c.history.Exact

theorem Cleared.settled {c : Call} (h : Cleared c) : Settled c :=
  ⟨fun deployed => by simp [h.stored] at deployed, h.exact⟩

theorem Restored.settled {c : Call} (h : Restored c) : Settled c := ⟨fun _ => h.files, h.exact⟩

section recreate

variable {env : RecreateEnv}

theorem save_restored (write : Write) (history : History) :
    Maintains (fun s => Restored ⟨s, history⟩) (ContainerDeploy.save env.toEnv write) :=
  (maintains_check _).bind fun _ => maintains_modify fun _ h => ⟨h.files, h.exact⟩

theorem upsert_restored (write : Write) (history : History) :
    Maintains (fun s => Restored ⟨s, history⟩) (ContainerDeploy.upsertFromManifest env.toEnv write) :=
  (maintains_check _).bind fun _ => maintains_modify fun _ h => ⟨h.files, h.exact⟩

theorem updateStatus_restored (write : Write) (status : Status) (history : History) :
    Maintains (fun s => Restored ⟨s, history⟩) (ContainerDeploy.updateStatus env.toEnv write status) :=
  (maintains_check _).bind fun _ => maintains_modify fun _ h => ⟨h.files, h.exact⟩

theorem noteStarted_restored : Maintains Restored noteStarted :=
  maintains_modify fun _ h => ⟨rfl, h.exact⟩

theorem startPrevious_restored : Maintains Restored (startPrevious env) := by
  unfold startPrevious
  refine maintains_get fun c => Maintains.ite (Maintains.handle ?_ fun _ => maintains_pure) maintains_pure
  refine Maintains.bind (maintains_lift fun history => ?_) fun _ => Maintains.bind ?_ fun _ => ?_
  · exact (maintains_check _).bind fun _ => maintains_modify fun _ h => ⟨h.files, h.exact⟩
  · exact maintains_modify fun c h => ⟨h.files, h.exact.restore h.files⟩
  · refine (maintains_ofExcept _).bind fun answers => Maintains.bind (maintains_lift fun history => ?_) fun _ => ?_
    · exact maintains_modify fun _ h => ⟨h.files, h.exact⟩
    · exact Maintains.ite (noteStarted_restored.bind fun _ => maintains_pure) maintains_pure

theorem recordPrevious_restored (reason : Exn) :
    Triple Restored (lift (recordPrevious env reason)) (fun _ _ => False) (fun _ => Restored) := by
  refine triple_lift fun history => ?_
  refine Triple.bind (maintains_ofExcept _) fun _ => Triple.bind (maintains_ofExcept _) fun _ => ?_
  refine Triple.bind (maintains_modify fun _ h => ⟨h.files, h.exact⟩) fun _ => Triple.bind (save_restored _ history)
    fun _ => ?_
  refine Triple.bind (upsert_restored _ history) fun _ => Triple.bind (updateStatus_restored _ _ history) fun _ => ?_
  refine Triple.bind (maintains_check _) fun _ => Triple.bind (maintains_check _) fun _ => ?_
  exact Triple.bind (maintains_check _) fun _ => triple_raise fun _ h => h

theorem recreateFailedRollback_restored : Maintains Restored (lift (recreateFailedRollback env)) := by
  refine maintains_lift fun history => ?_
  refine Maintains.bind (Maintains.suppress ((maintains_check _).bind fun _ => ?_)) fun _ => ?_
  · exact maintains_modify fun _ h => ⟨h.files, h.exact⟩
  · refine (maintains_modify fun _ h => ⟨h.files, h.exact⟩).bind fun _ => ?_
    refine (maintains_modify fun _ h => ⟨h.files, h.exact⟩).bind fun _ => Maintains.suppress ?_
    refine (save_restored _ history).bind fun _ => (upsert_restored _ history).bind fun _ => ?_
    exact (updateStatus_restored _ _ history).bind fun _ => maintains_check _

/-- A container whose identity is cleared gets the files of its last start back. -/
theorem restoreGenerated_restored : Triple Cleared (lift (ContainerDeploy.restoreGenerated env.toEnv))
    (fun found c => found = true ∧ Restored c) (fun _ => Settled) := by
  refine triple_lift fun history s h => ?_
  have prev : s.dir.prev = some history.started := h.prev
  cases copies : env.restoreFault with
  | none =>
    rw [ContainerDeploy.restoreGenerated_apply copies]
    simp only [DockerDir.restoreGenerated, prev]
    exact ⟨trivial, rfl, h.exact⟩
  | some failure =>
    have broken : ContainerDeploy.restoreGenerated env.toEnv s = (.error failure.val,
        { s with dir := { s.dir with files := env.restoredPartly } }) := by
      simp [ContainerDeploy.restoreGenerated, bind_apply, prev, copies]
    rw [broken]
    exact ⟨fun deployed => by simp [show s.stored.containerId = none from h.stored] at deployed, h.exact⟩

/-- A recreate that has failed restores its snapshot, and never returns. -/
theorem recreateRestorePrevious_settled (reason : Exn) :
    Triple Cleared (recreateRestorePrevious env reason) (fun _ _ => False) (fun _ => Settled) := by
  have settles {α : Type} {p : Run α} {Q : α → Call → Prop} (h : Triple Restored p Q (fun _ => Restored)) :
      Triple Restored p Q (fun _ => Settled) :=
    h.consequence (fun _ h => h) (fun _ _ h => h) fun _ _ h => h.settled
  unfold recreateRestorePrevious
  refine Triple.bind (Q := fun _ => Cleared) (triple_lift fun history => ?_) fun _ => ?_
  · refine (Maintains.suppress ((maintains_check _).bind fun _ => ?_)).consequence (fun _ h => h) (fun _ _ h => h)
      fun _ _ h => h.settled
    exact maintains_modify fun s h => ⟨h.stored, h.prev, h.exact⟩
  refine Triple.bind restoreGenerated_restored fun found => ?_
  rintro c ⟨rfl, restored⟩
  have rest : Triple Restored (startPrevious env >>= fun restored =>
      if restored then lift (recordPrevious env reason) else do
        lift (recreateFailedRollback env)
        raise reason) (fun _ _ => False) (fun _ => Settled) := by
    refine Triple.bind (settles startPrevious_restored) fun back => Triple.ite (fun _ => ?_) fun _ => ?_
    · exact settles (recordPrevious_restored reason)
    · exact Triple.bind (settles recreateFailedRollback_restored) fun _ => triple_raise fun _ h => h.settled
  exact rest c restored

theorem recordRecreated_restored : Maintains Restored (lift (recordRecreated env)) := by
  refine maintains_lift fun history => ?_
  refine Maintains.bind (maintains_modify fun _ h => ⟨h.files, h.exact⟩) fun _ => (maintains_check _).bind fun _ => ?_
  refine (save_restored _ history).bind fun _ => (updateStatus_restored _ _ history).bind fun _ => ?_
  exact maintains_check _

theorem recreatePort_cleared : Maintains Cleared (lift (recreatePort env)) := by
  refine maintains_lift fun history => maintains_get fun s => Maintains.ite maintains_pure ?_
  refine Maintains.bind ?_ fun _ => Maintains.bind (maintains_modify fun _ h => ?_) fun _ => maintains_pure
  · refine (ContainerDeploy.ensureContainerPort_framed env.toEnv false).maintains fun s t h framed => ?_
    exact ⟨(congrArg Manifest.containerId framed.stored).trans h.stored, framed.prev.trans h.prev, h.exact⟩
  · exact ⟨h.stored, h.prev, h.exact⟩

theorem observeRecreated_cleared : Maintains Cleared (lift (observeRecreated env)) := by
  refine maintains_lift fun history => (maintains_ofExcept _).bind fun _ => (maintains_ofExcept _).bind fun _ => ?_
  exact maintains_modify fun _ h => ⟨h.stored, h.prev, h.exact⟩

/-- The old container is stopped and its identity cleared, or nothing is lost. -/
theorem stopForRecreate_cleared {w : World} {h : History} (prev : w.dir.prev = some h.started) (exact : h.Exact)
    (reaches : w.dir.files = h.started ∨ env.fault .rescue = none ∧ stopOutcome env = .ok () ∧
      env.writeFault .clearIdentity = none) :
    Triple (fun c => c.dir = w.dir ∧ c.history = h) (lift (stopForRecreate env)) (fun _ => Cleared)
      (fun _ => Settled) := by
  refine triple_lift fun history => ?_
  have lost (s : ContainerDeploy.State) (fails : ¬ (env.fault .rescue = none ∧ stopOutcome env = .ok () ∧
      env.writeFault .clearIdentity = none)) (begins : s.dir = w.dir ∧ history = h) : Settled ⟨s, history⟩ := by
    have same := reaches.resolve_right fails
    obtain ⟨dir, rfl⟩ := begins
    exact ⟨fun _ => (congrArg DockerDir.files dir).trans same, exact⟩
  refine Triple.bind (Q := fun _ s => s.dir = w.dir ∧ history = h) (triple_check (fun _ _ begins => begins)
    fun _ raised s begins => lost s (fun all => ?_) begins) fun _ => ?_
  · rw [all.1] at raised
    cases raised
  refine Triple.bind (Q := fun _ s => s.dir = w.dir ∧ history = h) (triple_ofExcept (fun _ _ _ begins => begins)
    fun _ raised s begins => lost s (fun all => ?_) begins) fun _ => ?_
  · rw [all.2.1] at raised
    cases raised
  refine Triple.bind (Q := fun _ s => s.dir = w.dir ∧ history = h) (triple_modify fun _ begins => begins) fun _ => ?_
  refine Triple.bind (Q := fun _ s => (s.dir = w.dir ∧ history = h) ∧ s.manifest.containerId = none)
    (triple_modify fun _ begins => ⟨begins, rfl⟩) fun _ => ?_
  refine Triple.bind (Q := fun _ s => (s.dir = w.dir ∧ history = h) ∧ s.manifest.containerId = none)
    (triple_check (fun _ _ begins => begins) fun _ raised s begins => lost s (fun all => ?_) begins.1) fun _ => ?_
  · rw [all.2.2] at raised
    cases raised
  refine triple_modify fun s ended => ?_
  obtain ⟨⟨dir, rfl⟩, cleared⟩ := ended
  exact ⟨cleared, (congrArg DockerDir.prev dir).trans prev, exact⟩

theorem replaceContainer_settled {w : World} {h : History} (prev : w.dir.prev = some h.started) (exact : h.Exact)
    (reaches : w.dir.files = h.started ∨ env.fault .rescue = none ∧ stopOutcome env = .ok () ∧
      env.writeFault .clearIdentity = none) :
    Triple (fun c => c.dir = w.dir ∧ c.history = h) (replaceContainer env) (fun _ => Settled)
      (fun _ => Settled) := by
  have settles {α : Type} {p : Run α} (h : Maintains Cleared p) :
      Triple Cleared p (fun _ => Cleared) (fun _ => Settled) :=
    h.consequence (fun _ h => h) (fun _ _ h => h) fun _ _ h => h.settled
  have restores (reason : Exn) {Q : Unit → Call → Prop} :
      Triple Cleared (recreateRestorePrevious env reason) Q (fun _ => Settled) :=
    (recreateRestorePrevious_settled reason).consequence (fun _ h => h) (fun _ _ h => h.elim) fun _ _ h => h
  refine Triple.bind (stopForRecreate_cleared prev exact reaches) fun _ => ?_
  refine Triple.bind (Q := fun _ => Cleared) (Triple.handle (F := fun _ => Cleared)
    (maintains_lift fun history => ?_) fun exc => restores exc) fun _ => ?_
  · exact (maintains_check _).bind fun _ => maintains_modify fun _ h => ⟨h.stored, h.prev, h.exact⟩
  refine Triple.bind (settles recreatePort_cleared) fun fresh => ?_
  refine Triple.bind (settles observeRecreated_cleared) fun _ => ?_
  refine Triple.bind (settles (maintains_lift fun history => ?_)) fun _ => ?_
  · exact maintains_modify fun _ h => ⟨h.stored, h.prev, h.exact⟩
  refine Triple.bind (settles (maintains_ofExcept _)) fun verdict => ?_
  have passes : Triple Cleared (do
      noteStarted
      lift (recordRecreated env)) (fun _ => Settled) (fun _ => Settled) := by
    refine Triple.bind (Q := fun _ => Restored) (triple_modify fun c h => ⟨rfl, h.exact⟩) fun _ => ?_
    exact recordRecreated_restored.consequence (fun _ h => h) (fun _ _ h => h.settled) fun _ _ h => h.settled
  cases verdict with
  | passed => exact passes
  | degraded => exact passes
  | failed =>
    refine Triple.ite (fun _ => Triple.bind (settles (maintains_lift fun history => ?_)) fun _ => restores _)
      fun _ => restores _
    refine Maintains.suppress ((maintains_check _).bind fun _ => ?_)
    exact maintains_modify fun _ h => ⟨h.stored, h.prev, h.exact⟩

theorem recreateContainerRuntime_settled {w : World} {h : History} (prev : w.dir.prev = some h.started)
    (exact : h.Exact) (keeps : RecreateKeeps env w h) :
    Triple (fun c => c.toWorld = w ∧ c.history = h) (recreateContainerRuntime env) (fun _ => Settled)
      (fun _ => Settled) := by
  have kept (c : Call) (begins : c.toWorld = w ∧ c.history = h) (same : w.dir.files = h.started) : Settled c := by
    obtain ⟨rfl, rfl⟩ := begins
    exact ⟨fun _ => same, exact⟩
  have lost (fails : ¬ Replaces env w.dir.files) (answers : ¬ Refuses env) : w.dir.files = h.started := by
    rcases keeps.reaches with same | replaces | refuses
    · exact same
    · exact absurd replaces fails
    · exact absurd refuses answers
  refine Triple.bind (Q := fun _ c => c.toWorld = w ∧ c.history = h)
    (triple_lift fun history => triple_modify fun _ begins => begins) fun _ => ?_
  refine Triple.bind (Q := fun _ c => (c.toWorld = w ∧ c.history = h) ∧ env.loaded = none)
    (triple_check (fun passes _ begins => ⟨begins, passes⟩) fun _ raised c begins => ?_) fun _ => ?_
  · refine kept c begins (lost (fun replaces => ?_) fun refuses => ?_)
    · simp [replaces.loaded] at raised
    · simp [refuses.loaded] at raised
  refine Triple.bind (Q := fun _ c => ((c.toWorld = w ∧ c.history = h) ∧ env.loaded = none) ∧ env.available = none)
    (triple_check (fun passes _ begins => ⟨begins, passes⟩) fun _ raised c begins => ?_) fun _ => ?_
  · refine kept c begins.1 (lost (fun replaces => ?_) fun refuses => ?_)
    · simp [replaces.available] at raised
    · simp [refuses.available] at raised
  refine Triple.bind (Q := fun _ c => (c.toWorld = w ∧ c.history = h) ∧ env.rollbackReady = none)
    (Triple.handle (F := fun _ c => (c.toWorld = w ∧ c.history = h) ∧ Refuses env)
      (triple_check (fun passes _ begins => ⟨begins.1.1, passes⟩) fun _ raised _ begins => ?_)
      fun exc => ?_) fun _ => ?_
  · exact ⟨begins.1.1, begins.1.2, begins.2, by simp [raised]⟩
  · refine Triple.bind (Q := fun _ => Settled) (triple_lift fun history s begins => ?_) fun _ => triple_raise
      fun _ h => h
    obtain ⟨⟨rfl, rfl⟩, refuses⟩ := begins
    rw [ContainerDeploy.restoreGeneratedForTxn_apply (keeps.copies refuses)]
    refine ⟨fun _ => ?_, exact⟩
    change s.dir.restoreGenerated.2.files = _
    rw [DockerDir.restoreGenerated_files, show s.dir.prev = _ from prev]
    rfl
  refine triple_get fun c begins => ?_
  obtain ⟨⟨rfl, rfl⟩, ready⟩ := begins
  refine Triple.bind (Q := fun possible d => d = c ∧
    canRecreateContainerWithoutRebuild env c.dir.files = .ok possible)
    (triple_ofExcept (fun _ found _ same => ⟨same, found⟩) fun _ raised d same => ?_) fun possible => ?_
  · subst same
    refine kept d ⟨rfl, rfl⟩ (lost (fun replaces => ?_) fun refuses => refuses.rollbackReady ready)
    rw [replaces.possible] at raised
    cases raised
  · rintro d ⟨rfl, found⟩
    cases possible with
    | true =>
      refine replaceContainer_settled prev exact ?_ d ⟨rfl, rfl⟩
      rcases keeps.reaches with same | replaces | refuses
      · exact .inl same
      · exact .inr ⟨replaces.rescue, replaces.stopped, replaces.cleared⟩
      · exact absurd ready refuses.rollbackReady
    | false =>
      refine hostContainer_settled (keeps.fallback found) d ⟨rfl, kept d ⟨rfl, rfl⟩ (lost (fun replaces => ?_)
        fun refuses => refuses.rollbackReady ready)⟩
      rw [replaces.possible] at found
      cases found

end recreate

/-! ## Sequences of calls -/

/-- A container is deployed from the files in `docker/`, or a recreate is to come and the snapshot is
of the files of the container. -/
structure Inv (m : Machine) : Prop where
  kept : m.pending ≠ .runtimeRecreate → m.world.stored.containerId.isSome → m.world.dir.files = m.history.started
  snapshot : m.pending = .runtimeRecreate → m.world.dir.prev = some m.history.started
  exact : m.history.Exact

/-- No step leaves files in `docker/` that were rendered and never started: neither a decision, nor a
recreate before its `up`, nor a start between the two, nor a rebuild. -/
def Guard (m : Machine) : Action → Prop
  | .decide env => DecisionKeeps env m.world
  | .recreate env => RecreateKeeps env m.world m.history
  | .rebuild env => RebuildKeeps env m.world
  | .breakOff => m.pending = .runtimeRecreate → m.world.dir.files = m.history.started
  | .edit _ => True

theorem start_inv (w : World) : Inv (start w) where
  kept _ _ := rfl
  snapshot pending := by cases pending
  exact r listed := by cases listed

theorem Settled.inv {c : Call} (h : Settled c) : Inv (c.leave .none) where
  kept _ := h.kept
  snapshot pending := by cases pending
  exact := h.exact

theorem Machine.decide_inv {m : Machine} {env : DecisionEnv} (inv : Inv m) (idle : m.pending = .none)
    (deployed : isDeployedContainer m.world.stored = true) (keeps : DecisionKeeps env m.world) :
    Inv (m.decide env) := by
  have identity : m.world.stored.containerId.isSome := by
    unfold isDeployedContainer at deployed
    cases id : m.world.stored.containerId with
    | none => simp [id] at deployed
    | some id => rfl
  have started := inv.kept (by simp [idle]) identity
  have ended := deployedAction_decided started keeps (loadManifest m.call).2 ⟨rfl, rfl, rfl⟩
  have decided : m.decide env = (deployedAction env (loadManifest m.call).2).2.leave
      ((deployedAction env (loadManifest m.call).2).1.toOption.getD .none) := rfl
  rw [decided]
  have settled (c : Call) (back : Back m.history c) : Settled c :=
    ⟨fun _ => by rw [back.files, back.history], by rw [back.history]; exact inv.exact⟩
  rcases run : deployedAction env (loadManifest m.call).2 with ⟨exc | action, c⟩
  · rw [run] at ended
    exact (settled c ended).inv
  · rw [run] at ended
    by_cases recreates : action = .runtimeRecreate
    · subst recreates
      obtain ⟨history, prev⟩ : c.history = m.history ∧ c.dir.prev = some m.history.started := ended
      refine ⟨fun idle => absurd rfl idle, fun _ => ?_, ?_⟩
      · change c.dir.prev = some c.history.started
        rw [history, prev]
      · change c.history.Exact
        rw [history]
        exact inv.exact
    · have back : Back m.history c := by
        simpa [Decided, recreates] using ended
      exact ⟨fun _ => (settled c back).kept, fun pending => absurd pending recreates, (settled c back).exact⟩

theorem Machine.recreate_inv {m : Machine} {env : RecreateEnv} (inv : Inv m) (pending : m.pending = .runtimeRecreate)
    (keeps : RecreateKeeps env m.world m.history) : Inv (m.recreate env) := by
  have ended := recreateContainerRuntime_settled (inv.snapshot pending) inv.exact keeps m.call ⟨rfl, rfl⟩
  unfold Machine.recreate
  rcases run : recreateContainerRuntime env m.call with ⟨exc | ⟨⟩, c⟩
  · rw [run] at ended
    exact ended.inv
  · rw [run] at ended
    exact ended.inv

theorem Machine.rebuild_inv {m : Machine} {env : Env} (inv : Inv m) (idle : m.pending ≠ .runtimeRecreate)
    (keeps : RebuildKeeps env m.world) : Inv (m.rebuild env) := by
  have ended := hostContainer_settled keeps m.call ⟨rfl, inv.kept idle, inv.exact⟩
  unfold Machine.rebuild
  rcases run : hostContainer env m.call with ⟨exc | ⟨⟩, c⟩
  · rw [run] at ended
    exact ended.inv
  · rw [run] at ended
    exact ended.inv

theorem step_inv {m n : Machine} {action : Action} (inv : Inv m) (guard : Guard m action)
    (taken : step m action = some n) : Inv n := by
  cases action with
  | decide env =>
    obtain ⟨⟨idle, deployed⟩, ⟨⟩⟩ := Option.ite_none_right_eq_some.mp taken
    exact Machine.decide_inv inv idle deployed guard
  | recreate env =>
    obtain ⟨pending, ⟨⟩⟩ := Option.ite_none_right_eq_some.mp taken
    exact Machine.recreate_inv inv pending guard
  | rebuild env =>
    obtain ⟨idle, ⟨⟩⟩ := Option.ite_none_right_eq_some.mp taken
    exact Machine.rebuild_inv inv idle guard
  | breakOff =>
    obtain ⟨-, ⟨⟩⟩ := Option.ite_none_right_eq_some.mp taken
    refine ⟨fun _ deployed => ?_, fun pending => (by cases pending), inv.exact⟩
    by_cases pending : m.pending = .runtimeRecreate
    · exact guard pending
    · exact inv.kept pending deployed
  | edit rebuildStrategy =>
    obtain ⟨idle, ⟨⟩⟩ := Option.ite_none_right_eq_some.mp taken
    exact ⟨inv.kept, inv.snapshot, inv.exact⟩

/-- In every sequence of calls in which no step leaves undeployed files behind, every compensation
starts the container from the files of its last successful start. -/
theorem kept_configuration_restored {w : World} {trace : List Action} {m : Machine}
    (run : GuardedRuns.Run step Guard (start w) trace m) : ∀ r ∈ m.history.restorations, r.Exact :=
  (run.invariant (start_inv w) fun _ _ _ inv guard taken => step_inv inv guard taken).exact

/-- A start whose settings have changed what is rendered: the Compose file has new contents, and only
the fingerprint of the runtime configuration differs from that of the container. -/
def rerenders (content : UInt8) : DecisionEnv where
  toEnv := { ContainerDeploy.smooth with
    rendered := fun | .composeYaml => some [content] | _ => some [1] }
  stored := some ⟨fun | .runtimeConfigHash => some "1" | _ => some "", none⟩
  current := .ok ⟨fun | .runtimeConfigHash => some "2" | _ => some "", none⟩
  baseline := none

def recreates (stop up : Option Exn) : RecreateEnv where
  toEnv := { ContainerDeploy.smooth with down := stop, up := up }
  loaded := none
  available := none
  rollbackReady := none
  downFinally := none
  fingerprints := none
  fallback := ContainerDeploy.smooth

/-- The first recreate cannot stop the container, so the second start takes its snapshot of files that
were never started; and the second recreate restores them. -/
theorem undeployed_rendering_restored : ¬ ∀ (w : World) (trace : List Action) (m : Machine),
    GuardedRuns.Run step anyStep (start w) trace m → ∀ r ∈ m.history.restorations, r.Exact := by
  intro claim
  have ran : ∃ m, exec step (start ContainerDeploy.deployed) [.decide (rerenders 2),
      .recreate (recreates (some (.docker "timeout")) none), .decide (rerenders 3),
      .recreate (recreates none (some (.docker "invalid mount")))] = some m ∧
      ∃ r ∈ m.history.restorations, r.files .composeYaml = some [2] ∧ r.started .composeYaml = some [1] :=
    ⟨_, rfl, _, List.mem_singleton.mpr rfl, rfl, rfl⟩
  obtain ⟨m, run, r, listed, files, started⟩ := ran
  have exact := (claim _ _ m (GuardedRuns.Run.of_exec run) r listed).composeYaml
  rw [files, started] at exact
  exact absurd exact (by decide)

theorem kept_configuration_restored_recreate : ∃ m, GuardedRuns.Run step Guard (start ContainerDeploy.deployed)
    [.decide (rerenders 2), .recreate (recreates none (some (.docker "invalid mount")))] m ∧
    m.history.restorations.length = 1 ∧ ∀ r ∈ m.history.restorations, r.Exact := by
  have decides : DecisionKeeps (rerenders 2) ContainerDeploy.deployed :=
    ⟨fun _ => .inr (.inl ⟨fun _ => rfl, _, rfl, rfl⟩), fun _ _ => rfl⟩
  have replaces (files : Files) (present : files .composeYaml ≠ none ∧ files .env ≠ none) :
      Replaces (recreates none (some (.docker "invalid mount"))) files := by
    refine ⟨rfl, rfl, rfl, ?_, rfl, rfl, rfl⟩
    simp [canRecreateContainerWithoutRebuild, present]
    rfl
  have ran : ∃ m, GuardedRuns.Run step Guard (start ContainerDeploy.deployed)
      [.decide (rerenders 2), .recreate (recreates none (some (.docker "invalid mount")))] m ∧
      m.history.restorations.length = 1 := by
    refine ⟨_, .cons decides rfl <| .cons ⟨.inr (.inl (replaces _ ⟨?_, ?_⟩)), fun _ => rfl, ?_⟩ rfl <| .refl _, rfl⟩
    · exact Option.some_ne_none _
    · exact Option.some_ne_none _
    · intro impossible
      cases impossible
  obtain ⟨m, run, one⟩ := ran
  exact ⟨m, run, one, kept_configuration_restored run⟩

end LocalWebAccess.RuntimeRecreate
