import LocalWebAccess.ContainerDeploy

/-!
# Rebuilds that fail before the stop

Until the old container is stopped a build-first rebuild has changed files, tags
and ports only, and its handlers restore the snapshot it has taken. The files
are those of before unless the rebuild fails before it has tried to take one
while an older snapshot is there; the ports are those of before unless the port
step has moved them.
-/
namespace LocalWebAccess.ContainerDeploy
open ComposeObservation RaisingPrograms Prog

/-- What the steps before the stop leave as it is, except for files and ports. -/
structure Framed (s t : State) : Prop where
  stored : t.stored = s.stored
  manifest : t.manifest = s.manifest
  registryStatus : t.registryStatus = s.registryStatus
  containerPort : t.containerPort = s.containerPort
  prevTag : t.prevTag = s.prevTag
  prev : t.dir.prev = s.dir.prev
  txn : t.ctx.txn = s.ctx.txn
  oldStopped : t.ctx.oldStopped = s.ctx.oldStopped
  outcomeSettled : t.ctx.outcomeSettled = s.ctx.outcomeSettled

/-- The same of the ports. -/
structure Portless (s t : State) : Prop extends Framed s t where
  ports : t.ports = s.ports
  freshPort : t.ctx.freshPort = s.ctx.freshPort

theorem Framed.refl (s : State) : Framed s s := ⟨rfl, rfl, rfl, rfl, rfl, rfl, rfl, rfl, rfl⟩

theorem Framed.trans {s t u : State} (h : Framed s t) (h' : Framed t u) : Framed s u where
  stored := h'.stored.trans h.stored
  manifest := h'.manifest.trans h.manifest
  registryStatus := h'.registryStatus.trans h.registryStatus
  containerPort := h'.containerPort.trans h.containerPort
  prevTag := h'.prevTag.trans h.prevTag
  prev := h'.prev.trans h.prev
  txn := h'.txn.trans h.txn
  oldStopped := h'.oldStopped.trans h.oldStopped
  outcomeSettled := h'.outcomeSettled.trans h.outcomeSettled

theorem Portless.refl (s : State) : Portless s s := ⟨.refl s, rfl, rfl⟩

theorem Portless.trans {s t u : State} (h : Portless s t) (h' : Portless t u) : Portless s u :=
  ⟨h.toFramed.trans h'.toFramed, h'.ports.trans h.ports, h'.freshPort.trans h.freshPort⟩

section steps

variable (env : Env)

theorem attempt_apply (step : Step) (s : State) :
    attempt env step s = ((match env.fault step with | none => .ok () | some exc => .error exc), s) := by
  unfold attempt
  cases env.fault step <;> rfl

theorem attempt_portless (step : Step) : Keeps Portless (attempt env step) := by
  intro s
  rw [attempt_apply]
  exact .refl s

theorem renderFile_portless (file : GeneratedFile) : Keeps Portless (renderFile env file) := by
  unfold renderFile
  refine Keeps.bind (fun _ _ _ => Portless.trans) (fun s => ?_) (fun _ => attempt_portless env _)
  exact ⟨⟨rfl, rfl, rfl, rfl, rfl, rfl, rfl, rfl, rfl⟩, rfl, rfl⟩

theorem buildContainerImage_portless : Keeps Portless (buildContainerImage env) := by
  unfold buildContainerImage
  refine Keeps.bind (fun _ _ _ => Portless.trans) (fun s => ?_) (fun _ => ?_)
  · exact ⟨⟨rfl, rfl, rfl, rfl, rfl, rfl, rfl, rfl, rfl⟩, rfl, rfl⟩
  · refine Keeps.bind (fun _ _ _ => Portless.trans) Portless.refl (fun _ => ?_)
    split
    · exact Portless.refl
    · intro s
      cases env.fault .build <;> exact Portless.refl s

theorem stopOldContainer_portless : Keeps Portless (stopOldContainer env) := by
  unfold stopOldContainer
  split
  · exact fun s => ⟨⟨rfl, rfl, rfl, rfl, rfl, rfl, rfl, rfl, rfl⟩, rfl, rfl⟩
  · exact fun s => ⟨⟨rfl, rfl, rfl, rfl, rfl, rfl, rfl, rfl, rfl⟩, rfl, rfl⟩
  · exact Portless.refl

end steps

section ports

/-- What the port step does to the rows: nothing, a row for the registered port, or all rows
of the instance given up and perhaps a new one. -/
inductive PortMove where
  | kept
  | registered (port : Port)
  | replaced (port : Option Port)

def PortMove.apply (instanceId : String) (ports : Port → Option String) :
    PortMove → Port → Option String
  | kept => ports
  | registered port => Function.update ports port (some instanceId)
  | replaced none => releaseRows ports instanceId
  | replaced (some port) => Function.update (releaseRows ports instanceId) port (some instanceId)

def PortMove.Fresh : PortMove → Prop
  | replaced (some _) => True
  | _ => False

variable (env : Env)

/-- The move where no registered port can be used again. -/
def replacement (ports : Port → Option String) : PortMove :=
  if (env.fault .portRelease).isSome then .kept
  else
    .replaced ((freePort env (releaseRows ports env.instanceId)).filter
      (fun _ => (env.fault .portAllocate).isNone))

/-- The move of the port step of a build-first rebuild. -/
def portMove (containerPort : Option Port) (ports : Port → Option String) : PortMove :=
  if (env.fault .portLookup).isSome then .kept
  else
    match reusablePort env containerPort true with
    | none => replacement env ports
    | some existing =>
      if (env.fault .portReuse).isSome then .kept
      else
        match ports existing with
        | none => .registered existing
        | some owner => if owner = env.instanceId then .kept else replacement env ports

/-- A program on the ports has made a move, and returns a new port where the move has one. -/
structure Moves (move : PortMove) (s : State) (outcome : Except Exn (Port × Bool) × State) : Prop where
  state : outcome.2 = { s with ports := move.apply env.instanceId s.ports }
  fresh : ∀ port, outcome.1 = .ok port → (port.2 = true ↔ move.Fresh)
  stale : ∀ exc, outcome.1 = .error exc → ¬ move.Fresh

theorem freshPort_moves (s : State) : Moves env (replacement env s.ports) s (freshPort env s) := by
  unfold freshPort releaseInstance replacement
  cases released : env.fault .portRelease with
  | some exc =>
    simp only [bind_apply, check_some, Option.isSome_some, if_true]
    exact ⟨rfl, by simp, by simp [PortMove.Fresh]⟩
  | none =>
    simp only [bind_apply, check_none, modify_apply, Option.isSome_none, Bool.false_eq_true, if_false]
    unfold allocate
    simp only [bind_apply, get_apply]
    cases found : freePort env (releaseRows s.ports env.instanceId) with
    | none => exact ⟨rfl, by simp, by simp [PortMove.Fresh]⟩
    | some port =>
      have free : releaseRows s.ports env.instanceId port = none := by
        have matches' := List.find?_some found
        simp only [Bool.and_eq_true, Option.isNone_iff_eq_none] at matches'
        exact matches'.1
      simp only [bind_apply, allocatePort, attempt_apply]
      cases allocated : env.fault .portAllocate with
      | some exc => exact ⟨rfl, by simp, by simp [PortMove.Fresh]⟩
      | none =>
        simp only [get_apply, free, bind_apply, modify_apply, pure_apply]
        exact ⟨rfl, by simp [PortMove.Fresh, Option.filter], by simp⟩

theorem ensureContainerPort_moves (s : State) :
    Moves env (portMove env s.containerPort s.ports) s (ensureContainerPort env true s) := by
  unfold ensureContainerPort portMove
  simp only [bind_apply, attempt_apply]
  cases looked : env.fault .portLookup with
  | some exc => exact ⟨rfl, by simp, by simp [PortMove.Fresh]⟩
  | none =>
    simp only [get_apply, Option.isSome_none, Bool.false_eq_true, if_false]
    cases reusablePort env s.containerPort true with
    | none => exact freshPort_moves env s
    | some existing =>
      simp only [bind_apply, allocatePort, attempt_apply]
      cases reused : env.fault .portReuse with
      | some exc => exact ⟨rfl, by simp, by simp [PortMove.Fresh]⟩
      | none =>
        simp only [get_apply, Option.isSome_none, Bool.false_eq_true, if_false]
        cases owned : s.ports existing with
        | none =>
          simp only [bind_apply, modify_apply, pure_apply, if_true]
          exact ⟨rfl, by simp [PortMove.Fresh], by simp⟩
        | some owner =>
          simp only [pure_apply, decide_eq_true_eq]
          split_ifs with ours
          · exact ⟨rfl, by simp [PortMove.Fresh], by simp⟩
          · exact freshPort_moves env s

end ports

section stop

variable (env : Env)

/-- The rebuild fails before it has tried to take a snapshot. -/
def Unprepared (manifest : Manifest) : Prop :=
  (env.fault .identityReady).isSome ∨ ∀ image, oldImage env manifest ≠ .ok (some image)

/-- The rendering comes as far as the port step. -/
def RendersImage : Prop :=
  env.fault .proxyConfig = none ∧ env.fault (.render .staticWsgi) = none ∧
    env.fault (.render .dockerfile) = none

/-- The rebuild comes as far as the port step. -/
def ReachesPort (manifest : Manifest) : Prop :=
  ¬ Unprepared env manifest ∧ env.fault .snapshot = none ∧ env.fault .tagPrevious = none ∧
    RendersImage env

/-- How a build-first rebuild of `s` that has failed before the stop leaves the state. -/
structure Aborted (s u : State) : Prop where
  stored : u.stored = s.stored
  manifest : u.manifest = s.manifest
  registryStatus : u.registryStatus = s.registryStatus
  txn : u.ctx.txn = true
  oldStopped : u.ctx.oldStopped = s.ctx.oldStopped
  outcomeSettled : u.ctx.outcomeSettled = s.ctx.outcomeSettled
  unprepared : Unprepared env s.manifest → u.dir = s.dir
  prepared : ¬ Unprepared env s.manifest → u.dir.prev.getD u.dir.files = s.dir.files
  unreached : ¬ ReachesPort env s.manifest → u.ports = s.ports ∧ u.ctx.freshPort = s.ctx.freshPort
  reached : ReachesPort env s.manifest →
    u.ports = (portMove env s.containerPort s.ports).apply env.instanceId s.ports ∧
    (u.ctx.freshPort = true ↔ (portMove env s.containerPort s.ports).Fresh)

/-- `prepare_build_first` either raises before the snapshot, or fails to take it or to tag the
image, or has done both. -/
theorem prepareBuildFirst_apply (s : State) :
    ((∀ image, oldImage env s.manifest ≠ .ok (some image)) ∧
      ∃ exc, prepareBuildFirst env s = (.error exc, s)) ∨
    ∃ image, oldImage env s.manifest = .ok (some image) ∧
      ((∃ exc, env.fault .snapshot = some exc ∧
        prepareBuildFirst env s = (.error exc, { s with dir := s.dir.snapshotGenerated true })) ∨
      (env.fault .snapshot = none ∧ env.fault .tagPrevious ≠ none ∧ ∃ exc,
        prepareBuildFirst env s = (.error exc, { s with dir := s.dir.snapshotGenerated false })) ∨
      (env.fault .snapshot = none ∧ env.fault .tagPrevious = none ∧
        prepareBuildFirst env s =
          (.ok (), { s with dir := s.dir.snapshotGenerated false, prevTag := some image }))) := by
  unfold prepareBuildFirst
  simp only [bind_apply, get_apply, ofExcept_apply]
  cases found : oldImage env s.manifest with
  | error exc => exact .inl ⟨by simp, exc, rfl⟩
  | ok image =>
    cases image with
    | none => exact .inl ⟨by simp, _, rfl⟩
    | some image =>
      refine .inr ⟨image, rfl, ?_⟩
      simp only [bind_apply, snapshotGenerated, modify_apply, attempt_apply]
      cases snapshot : env.fault .snapshot with
      | some exc => exact .inl ⟨exc, rfl, rfl⟩
      | none =>
        refine .inr ?_
        rw [Option.isSome_none]
        unfold tagPrevious
        cases tag : env.fault .tagPrevious with
        | none => exact .inr ⟨rfl, rfl, rfl⟩
        | some exc => cases exc <;> exact .inl ⟨rfl, by simp, _, rfl⟩

/-- The part of the rendering after the port step, and the steps up to the stop. -/
def afterPort (port : Port × Bool) : Run Unit := do
  setCtx (fun ctx => { ctx with hostPort := port.1, freshPort := port.2 })
  renderFile env .composeYaml
  renderFile env .env
  buildContainerImage env
  swapOutOldContainer env

theorem swapOutOldContainer_raises : RaisesWith Portless (swapOutOldContainer env) := by
  unfold swapOutOldContainer
  refine RaisesWith.bind (fun _ _ _ => Portless.trans) Portless.refl (fun s => ?_)
  split_ifs
  · refine RaisesWith.bind (fun _ _ _ => Portless.trans) (attempt_portless env _) (fun _ => ?_)
    refine RaisesWith.bind (fun _ _ _ => Portless.trans) (stopOldContainer_portless env) (fun _ => ?_)
    exact RaisesWith.of_returns (fun _ => ⟨(), rfl⟩)
  · exact RaisesWith.of_returns (fun _ => ⟨(), rfl⟩)

theorem afterPort_error {port : Port × Bool} {s u : State} {exc : Exn}
    (h : afterPort env port s = (.error exc, u)) :
    Framed s u ∧ u.ports = s.ports ∧ u.ctx.freshPort = port.2 := by
  have rest : RaisesWith Portless (do
      renderFile env .composeYaml
      renderFile env .env
      buildContainerImage env
      swapOutOldContainer env) :=
    RaisesWith.bind (fun _ _ _ => Portless.trans) (renderFile_portless env _) fun _ =>
      RaisesWith.bind (fun _ _ _ => Portless.trans) (renderFile_portless env _) fun _ =>
        RaisesWith.bind (fun _ _ _ => Portless.trans) (buildContainerImage_portless env) fun _ =>
          swapOutOldContainer_raises env
  have after := rest _ _ _ h
  exact ⟨⟨after.stored, after.manifest, after.registryStatus, after.containerPort, after.prevTag,
    after.prev, after.txn, after.oldStopped, after.outcomeSettled⟩, after.ports, after.freshPort⟩

theorem renderFile_apply (file : GeneratedFile) (s : State) :
    renderFile env file s =
      ((match env.fault (.render file) with | none => .ok () | some exc => .error exc),
        { s with dir := s.dir.write file (env.rendered file) }) := by
  unfold renderFile
  simp only [bind_apply, modify_apply, attempt_apply]

/-- The rendering up to the port step. -/
def beforePort : Run Unit := do
  attempt env .proxyConfig
  renderFile env .staticWsgi
  renderFile env .dockerfile

theorem beforePort_portless : Keeps Portless (beforePort env) :=
  Keeps.bind (fun _ _ _ => Portless.trans) (attempt_portless env _) fun _ =>
    Keeps.bind (fun _ _ _ => Portless.trans) (renderFile_portless env _) fun _ =>
      renderFile_portless env _

theorem beforePort_ok_iff (s : State) :
    (∃ u, beforePort env s = (.ok (), u)) ↔ env.fault .proxyConfig = none ∧
      env.fault (.render .staticWsgi) = none ∧ env.fault (.render .dockerfile) = none := by
  unfold beforePort
  simp only [bind_apply, attempt_apply, renderFile_apply]
  cases env.fault .proxyConfig <;> simp
  cases env.fault (.render .staticWsgi) <;> simp
  cases env.fault (.render .dockerfile) <;> simp

/-- The part of `beforeStop` after the snapshot. -/
def afterSnapshot : Run Unit := do
  beforePort env
  let s ← get
  let port ← ensureContainerPort env s.ctx.txn
  afterPort env port

theorem afterSnapshot_error {s u : State} {exc : Exn} (txn : s.ctx.txn = true)
    (unfresh : s.ctx.freshPort = false) (h : afterSnapshot env s = (.error exc, u)) :
    Framed s u ∧
      (¬ RendersImage env → u.ports = s.ports ∧ u.ctx.freshPort = s.ctx.freshPort) ∧
      (RendersImage env →
        u.ports = (portMove env s.containerPort s.ports).apply env.instanceId s.ports ∧
        (u.ctx.freshPort = true ↔ (portMove env s.containerPort s.ports).Fresh)) := by
  have portless := beforePort_portless env s
  simp only [afterSnapshot, bind_apply, get_apply] at h
  rcases rendered : beforePort env s with ⟨result, s₂⟩
  rw [rendered] at h portless
  cases result with
  | error exc' =>
    simp only [Prod.mk.injEq] at h
    obtain ⟨-, rfl⟩ := h
    refine ⟨portless.toFramed, fun _ => ⟨portless.ports, portless.freshPort⟩, fun renders => ?_⟩
    obtain ⟨u', returned⟩ := (beforePort_ok_iff env s).mpr renders
    rw [rendered] at returned
    simp at returned
  | ok _ =>
    have renders : RendersImage env := (beforePort_ok_iff env s).mp ⟨s₂, rendered⟩
    have txn₂ : s₂.ctx.txn = true := portless.txn.trans txn
    have ports₂ : s₂.ports = s.ports := portless.ports
    have moves := ensureContainerPort_moves env s₂
    rw [ports₂, show s₂.containerPort = s.containerPort from portless.containerPort] at moves
    simp only [txn₂] at h
    rcases ported : ensureContainerPort env true s₂ with ⟨result, s₃⟩
    rw [ported] at h moves
    have after : s₃ = _ := moves.state
    have framed : Framed s s₃ := by
      rw [after]
      exact portless.toFramed.trans ⟨rfl, rfl, rfl, rfl, rfl, rfl, rfl, rfl, rfl⟩
    have moved : s₃.ports = (portMove env s.containerPort s.ports).apply env.instanceId s.ports := by
      rw [after, ← ports₂]
    cases result with
    | error exc' =>
      simp only [Prod.mk.injEq] at h
      obtain ⟨-, rfl⟩ := h
      refine ⟨framed, fun unrendered => absurd renders unrendered, fun _ => ⟨moved, ?_⟩⟩
      have old : s₃.ctx.freshPort = false := by
        rw [after]
        exact portless.freshPort.trans unfresh
      simp [old, moves.stale exc' rfl]
    | ok port =>
      simp only at h
      obtain ⟨framed', ports', fresh'⟩ := afterPort_error env h
      refine ⟨framed.trans framed', fun unrendered => absurd renders unrendered,
        fun _ => ⟨ports'.trans moved, ?_⟩⟩
      rw [fresh']
      exact moves.fresh port rfl

theorem beforeStop_eq : beforeStop env = (do
    attempt env .identityReady
    preparePreviousContainer env
    afterSnapshot env) := by
  unfold beforeStop renderContainerArtifacts afterSnapshot beforePort afterPort
  simp only [bind_assoc]

theorem beforeStop_aborted {s u : State} {exc : Exn} (txn : s.ctx.txn = true)
    (unfresh : s.ctx.freshPort = false) (h : beforeStop env s = (.error exc, u)) : Aborted env s u := by
  rw [beforeStop_eq, bind_apply, attempt_apply] at h
  cases identity : env.fault .identityReady with
  | some exc' =>
    simp only [identity, Prod.mk.injEq] at h
    obtain ⟨-, rfl⟩ := h
    have unprepared : Unprepared env s.manifest := .inl (by simp [identity])
    exact ⟨rfl, rfl, rfl, txn, rfl, rfl, fun _ => rfl, fun prepared => absurd unprepared prepared,
      fun _ => ⟨rfl, rfl⟩, fun reached => absurd unprepared reached.1⟩
  | none =>
    simp only [identity, bind_apply, preparePreviousContainer, get_apply, txn, if_true] at h
    rcases prepareBuildFirst_apply env s with ⟨unknown, exc', run⟩ | ⟨image, known, steps⟩
    · rw [run] at h
      simp only [Prod.mk.injEq] at h
      obtain ⟨-, rfl⟩ := h
      have unprepared : Unprepared env s.manifest := .inr unknown
      exact ⟨rfl, rfl, rfl, txn, rfl, rfl, fun _ => rfl, fun prepared => absurd unprepared prepared,
        fun _ => ⟨rfl, rfl⟩, fun reached => absurd unprepared reached.1⟩
    · have prepared : ¬ Unprepared env s.manifest := by
        rintro (faulty | unknown)
        · simp [identity] at faulty
        · exact unknown image known
      rcases steps with ⟨exc', snapshot, run⟩ | ⟨snapshot, tag, exc', run⟩ | ⟨snapshot, tag, run⟩
      · rw [run] at h
        simp only [Prod.mk.injEq] at h
        obtain ⟨-, rfl⟩ := h
        exact ⟨rfl, rfl, rfl, txn, rfl, rfl, fun h => absurd h prepared, fun _ => rfl,
          fun _ => ⟨rfl, rfl⟩, fun reached => by simp [reached.2.1] at snapshot⟩
      · rw [run] at h
        simp only [Prod.mk.injEq] at h
        obtain ⟨-, rfl⟩ := h
        exact ⟨rfl, rfl, rfl, txn, rfl, rfl, fun h => absurd h prepared, fun _ => rfl,
          fun _ => ⟨rfl, rfl⟩, fun reached => absurd reached.2.2.1 tag⟩
      · rw [run] at h
        let s₁ : State := { s with dir := s.dir.snapshotGenerated false, prevTag := some image }
        obtain ⟨framed, unrendered, rendered⟩ := afterSnapshot_error env (s := s₁) txn unfresh h
        refine ⟨framed.stored, framed.manifest, framed.registryStatus, framed.txn.trans txn,
          framed.oldStopped, framed.outcomeSettled, fun h => absurd h prepared, fun _ => ?_, ?_, ?_⟩
        · rw [framed.prev]
          rfl
        · exact fun unreached => unrendered (fun renders => unreached ⟨prepared, snapshot, tag, renders⟩)
        · exact fun reached => rendered reached.2.2.2

end stop

/-! ## The handlers of a rebuild that has not stopped the old container -/

section handlers

variable {env : Env} {s u : State} {exc : Exn}

/-- Both handlers restore the snapshot, where there is one. -/
theorem restoreGenerated_apply (copies : env.restoreFault = none) (u : State) :
    restoreGenerated env u =
      (.ok u.dir.restoreGenerated.1, { u with dir := u.dir.restoreGenerated.2 }) := by
  unfold restoreGenerated
  simp only [bind_apply, get_apply, copies]
  cases u.dir.prev <;> rfl

theorem restoreGeneratedForTxn_apply (copies : env.restoreFault = none) (u : State) :
    restoreGeneratedForTxn env u = (.ok (), { u with dir := u.dir.restoreGenerated.2 }) :=
  handle_of_ok ((bind_of_ok (restoreGenerated_apply copies u)).trans rfl)

/-- The rows after the handlers: a new port is given back if the build was cancelled. -/
def Returned (env : Env) (exc : Exn) : Prop :=
  exc.cancels = true ∧ env.writeFault .releasePorts = none

/-- The rows after a new port has been given back. -/
def givenBack (env : Env) (u : State) : Port → Option String :=
  if u.ctx.freshPort && (env.writeFault .releasePorts).isNone then releaseRows u.ports env.instanceId
  else u.ports

theorem releaseFreshPort_apply (u : State) :
    releaseFreshPort env u = (.ok (), { u with ports := givenBack env u }) := by
  unfold releaseFreshPort givenBack
  simp only [bind_apply, get_apply]
  cases u.ctx.freshPort with
  | false => simp
  | true =>
    simp only [suppress_apply, releaseInstance, bind_apply, if_true]
    cases env.writeFault .releasePorts <;> rfl

/-- The records of a cancelled build leave files, rows and the container, and a manifest that
is saved already. -/
theorem cancelRecords_keep (env : Env) (exc : Exn) (r : State) (same : r.manifest = r.stored) :
    ∃ e t, ((do
        checkWrite env .cancelOperation
        checkWrite env .cancelError
        suppress (save env .cancelSave)) >>= fun _ => raise exc : Run Unit) r = (.error e, t) ∧ t.dir = r.dir ∧
          t.stored = r.stored ∧
      t.registryStatus = r.registryStatus ∧ t.ports = r.ports ∧ t.container = r.container := by
  simp only [bind_apply, suppress_apply, save, checkWrite]
  cases env.writeFault .cancelOperation with
  | some failure => exact ⟨_, _, rfl, rfl, rfl, rfl, rfl, rfl⟩
  | none =>
    cases env.writeFault .cancelError with
    | some failure => exact ⟨_, _, rfl, rfl, rfl, rfl, rfl, rfl⟩
    | none =>
      cases env.writeFault .cancelSave with
      | some failure => exact ⟨_, _, rfl, rfl, rfl, rfl, rfl, rfl⟩
      | none => exact ⟨_, _, rfl, rfl, same, rfl, rfl, rfl⟩

theorem conclude_apply (exc : Exn) (copies : env.restoreFault = none) (txn : u.ctx.txn = true)
    (running : u.ctx.oldStopped = false) (unsettled : u.ctx.outcomeSettled = false)
    (same : u.manifest = u.stored) :
    ∃ e t, conclude env exc u = (.error e, t) ∧ t.dir.files = u.dir.prev.getD u.dir.files ∧
      t.stored = u.stored ∧
      t.registryStatus = (if exc.cancels = false ∧ env.writeFault .abortStatus = none
        then u.stored.status else u.registryStatus) ∧
      (u.ctx.freshPort = true → Returned env exc → t.ports = releaseRows u.ports env.instanceId) ∧
      (¬ (u.ctx.freshPort = true ∧ Returned env exc) → t.ports = u.ports) := by
  let r : State := { u with dir := u.dir.restoreGenerated.2 }
  have files : r.dir.files = u.dir.prev.getD u.dir.files := u.dir.restoreGenerated_files
  have restored : restoreGeneratedForTxn env u = (.ok (), r) := restoreGeneratedForTxn_apply copies u
  cases cancels : exc.cancels with
  | false =>
    have handled : handleContainerDeployFailed env exc u =
        updateStatus env .abortStatus u.manifest.status r := by
      unfold handleContainerDeployFailed
      simp only [bind_apply, get_apply, txn, running]
      simp [restored, bind_apply]
    have kept : ¬ Returned env exc := fun returned => by simp [returned.1] at cancels
    have concluded : conclude env exc u =
        (updateStatus env .abortStatus u.manifest.status >>= fun _ => raise exc) r := by
      unfold conclude
      simp only [bind_apply, get_apply, cancels, unsettled]
      simp [bind_apply, handled]
    rw [concluded]
    unfold updateStatus checkWrite
    cases fault : env.writeFault .abortStatus with
    | some failure =>
      exact ⟨failure.val, r, rfl, files, rfl, by simp [r], fun _ h => absurd h kept, fun _ => rfl⟩
    | none =>
      refine ⟨exc, { r with registryStatus := u.manifest.status }, rfl, files, rfl, ?_,
        fun _ h => absurd h kept, fun _ => rfl⟩
      simp [same]
  | true =>
    have concluded : conclude env exc u = ((do
        checkWrite env .cancelOperation
        checkWrite env .cancelError
        suppress (save env .cancelSave)) >>= fun _ => raise exc : Run Unit) { r with ports := givenBack env r } := by
      unfold conclude handleContainerDeployCancelled
      simp [bind_apply, cancels, txn, running, restored, releaseFreshPort_apply]
    obtain ⟨e, t, run, dir, stored, status, ports, -⟩ :=
      cancelRecords_keep env exc { r with ports := givenBack env r } same
    refine ⟨e, t, concluded.trans run, ?_, stored, ?_, ?_, ?_⟩
    · rw [dir]
      exact files
    · rw [status]
      simp [r]
    · intro fresh returned
      rw [ports]
      simp [givenBack, r, fresh, returned.2]
    · intro kept
      rw [ports]
      have unreturned : ¬ (u.ctx.freshPort = true ∧ env.writeFault .releasePorts = none) :=
        fun h => kept ⟨h.1, cancels, h.2⟩
      exact if_neg (by simpa [r] using unreturned)

end handlers

/-! ## The exact condition -/

/-- The old deployment as it was: its files, its identity and status, a registry that tells
that status, and its ports. -/
structure Untouched (env : Env) (w : World) (t : State) : Prop where
  files : t.dir.files = w.dir.files
  containerId : t.stored.containerId = w.stored.containerId
  imageId : t.stored.imageId = w.stored.imageId
  status : t.stored.status = w.stored.status
  registryStatus : t.registryStatus = t.stored.status
  ports : ∀ port, t.ports port = some env.instanceId ↔ w.ports port = some env.instanceId

/-- No older snapshot is restored over the files of the service. -/
def NoStaleSnapshot (env : Env) (w : World) : Prop :=
  Unprepared env w.stored → ∀ files, w.dir.prev = some files → files = w.dir.files

/-- The registry is told the status of the manifest, or has it already. -/
def StatusTold (env : Env) (w : World) (exc : Exn) : Prop :=
  (exc.cancels = false ∧ env.writeFault .abortStatus = none) ∨ w.registryStatus = w.stored.status

/-- The move of the port step leaves the instance the rows it had. -/
def MoveKept (env : Env) (w : World) (exc : Exn) : PortMove → Prop
  | .kept => True
  | .registered port => w.ports port = some env.instanceId
  | .replaced none => ∀ port, w.ports port ≠ some env.instanceId
  | .replaced (some new) =>
    if exc.cancels && (env.writeFault .releasePorts).isNone then
      ∀ port, w.ports port ≠ some env.instanceId
    else ∀ port, w.ports port = some env.instanceId ↔ port = new

def PortsKept (env : Env) (w : World) (exc : Exn) : Prop :=
  ReachesPort env w.stored → MoveKept env w exc (portMove env w.containerPort w.ports)

theorem releaseRows_self (ports : Port → Option String) (instanceId : String) (port : Port) :
    releaseRows ports instanceId port ≠ some instanceId := by
  simp [releaseRows, Option.filter_eq_some_iff]

section exact

variable {env : Env} {w : World} {s : State} {exc : Exn}

theorem update_own_iff (ports : Port → Option String) (instanceId : String) (new port : Port) :
    Function.update ports new (some instanceId) port = some instanceId ↔
      port = new ∨ ports port = some instanceId := by
  by_cases same : port = new
  · simp [same]
  · simp [same]

/-- Where no row of the instance is left, the rows are kept if there was none. -/
theorem rows_none_iff {ports : Port → Option String} (none_left : ∀ port, ports port ≠ some env.instanceId) :
    (∀ port, ports port = some env.instanceId ↔ w.ports port = some env.instanceId) ↔
      ∀ port, w.ports port ≠ some env.instanceId := by
  constructor
  · intro kept port owned
    exact none_left port ((kept port).mpr owned)
  · intro unowned port
    exact ⟨fun h => absurd h (none_left port), fun h => absurd h (unowned port)⟩

theorem moveKept_iff (move : PortMove) {ports : Port → Option String}
    (returned : move.Fresh → Returned env exc → ports = releaseRows
      (move.apply env.instanceId w.ports) env.instanceId)
    (left : ¬ (move.Fresh ∧ Returned env exc) → ports = move.apply env.instanceId w.ports) :
    (∀ port, ports port = some env.instanceId ↔ w.ports port = some env.instanceId) ↔
      MoveKept env w exc move := by
  cases move with
  | kept =>
    rw [left (fun h => h.1)]
    simp [PortMove.apply, MoveKept]
  | registered new =>
    rw [left (fun h => h.1)]
    simp only [PortMove.apply, MoveKept, update_own_iff]
    constructor
    · intro kept
      exact (kept new).mp (.inl rfl)
    · intro owned port
      exact ⟨fun h => h.elim (fun same => same ▸ owned) id, .inr⟩
  | replaced new =>
    cases new with
    | none =>
      rw [left (fun h => h.1)]
      exact rows_none_iff (releaseRows_self w.ports env.instanceId)
    | some new =>
      simp only [MoveKept]
      split_ifs with back
      · have back : Returned env exc := by simpa [Returned] using back
        rw [returned trivial back]
        exact rows_none_iff (releaseRows_self _ env.instanceId)
      · rw [left (fun h => back (by simpa [Returned] using h.2))]
        simp only [PortMove.apply, update_own_iff, releaseRows_self, or_false]
        exact ⟨fun kept port => (kept port).symm, fun kept port => (kept port).symm⟩

/-- A rebuild that begins as a transaction has changed nothing. -/
theorem register_state (begun : register env w.start = (.ok (), s)) (txn : s.ctx.txn = true) :
    s = { w.start with ctx := Deploy.initial true } := by
  obtain ⟨_, _, loaded, begun⟩ := bind_eq_ok.mp begun
  cases loaded
  obtain ⟨_, _, passed, begun⟩ := bind_eq_ok.mp begun
  obtain ⟨-, rfl⟩ := check_eq_ok.mp passed
  obtain ⟨_, _, got, begun⟩ := bind_eq_ok.mp begun
  cases got
  obtain ⟨chosen, _, decided, begun⟩ := bind_eq_ok.mp begun
  obtain ⟨-, rfl⟩ := Prod.mk.inj decided
  obtain ⟨_, _, added, begun⟩ := bind_eq_ok.mp begun
  obtain ⟨-, rfl⟩ := check_eq_ok.mp added
  obtain ⟨_, _, told, begun⟩ := bind_eq_ok.mp begun
  obtain ⟨-, rfl⟩ := check_eq_ok.mp told
  cases begun
  obtain rfl : chosen = true := txn
  rfl

/-- A build-first rebuild that fails up to the stop leaves the old deployment as it was
exactly if no older snapshot is in the way, the status is told, and the ports are kept. -/
theorem failed_before_stop_untouched_iff {u : State} (begun : register env w.start = (.ok (), s))
    (txn : s.ctx.txn = true) (failed : beforeStop env s = (.error exc, u))
    (copies : env.restoreFault = none) :
    ∃ e t, hostContainer env w.start = (.error e, t) ∧
      (Untouched env w t ↔ NoStaleSnapshot env w ∧ StatusTold env w exc ∧ PortsKept env w exc) := by
  have registered := register_state begun txn
  subst registered
  have aborted := beforeStop_aborted env txn rfl failed
  obtain ⟨e, t, concluded, files, stored, status, returned, left⟩ := conclude_apply exc
    copies aborted.txn aborted.oldStopped aborted.outcomeSettled
    (aborted.manifest.trans aborted.stored.symm)
  refine ⟨e, t, ?_, ?_⟩
  · exact (bind_of_ok begun).trans ((handle_of_error (bind_of_error failed)).trans concluded)
  have status' : t.stored = w.stored := stored.trans aborted.stored
  have filesKept : t.dir.files = w.dir.files ↔ NoStaleSnapshot env w := by
    rw [files]
    by_cases early : Unprepared env w.stored
    · rw [aborted.unprepared early]
      change w.dir.prev.getD w.dir.files = w.dir.files ↔ _
      cases prev : w.dir.prev <;> simp [NoStaleSnapshot, early, prev]
    · simp [aborted.prepared early, NoStaleSnapshot, early, World.start]
  have told : t.registryStatus = t.stored.status ↔ StatusTold env w exc := by
    rw [status, status', aborted.registryStatus, aborted.stored]
    unfold StatusTold
    split_ifs with tells
    · simp [tells, World.start]
    · simp [tells, World.start]
  have portsKept : (∀ port, t.ports port = some env.instanceId ↔ w.ports port = some env.instanceId) ↔
      PortsKept env w exc := by
    by_cases reached : ReachesPort env w.stored
    · obtain ⟨moved, fresh⟩ := aborted.reached reached
      rw [fresh, moved] at returned left
      have kept := moveKept_iff (w := w) (portMove env w.containerPort w.ports) returned left
      simpa [PortsKept, reached] using kept
    · obtain ⟨same, old⟩ := aborted.unreached reached
      rw [old, same] at left
      simp [PortsKept, reached, left (fun h => by simp [Deploy.initial] at h), World.start]
  rw [← filesKept, ← told, ← portsKept]
  constructor
  · intro untouched
    exact ⟨untouched.files, untouched.registryStatus, untouched.ports⟩
  · rintro ⟨kept, same, rows⟩
    exact ⟨kept, by rw [status'], by rw [status'], by rw [status'], same, rows⟩

end exact

/-- A rebuild in which nothing fails. -/
def smooth : Env where
  instanceId := "site"
  fault := fun _ => none
  writeFault := fun _ => none
  runningAtBegin := .ok true
  envChanged := .ok false
  runningForEnv := .ok true
  imageQuery := .ok (some "old")
  rendered := fun _ => some [2]
  listening := true
  portStart := 8000
  portEnd := 8010
  portInUse := fun _ => false
  built := some "new"
  runningAtStop := .ok true
  down := none
  up := none
  containerId := .ok (some "c2")
  imageId := .ok (some "new")
  verification := .ok .passed
  verificationError := ""
  liveness := true
  restoreFault := none
  restoredPartly := fun _ => none
  downAgain := none
  runningAtRollback := .ok true
  lastGoodEnv := .ok true
  tagLatest := none
  upAgain := none
  answers := .ok true
  restoredContainerId := .ok (some "c1")
  restoredImageId := .ok (some "old")

/-- A running container whose last rebuild has left its snapshot behind. -/
def deployed : World where
  dir := ⟨fun _ => some [1], some (fun _ => some [0])⟩
  latestTag := some "old"
  prevTag := some "older"
  container := some ⟨fun _ => some [1], some "old", true⟩
  stored := ⟨.running, some "c1", some "old", some 8000, none⟩
  registryStatus := .running
  containerPort := some 8000
  ports := fun port => if port = 8000 then some "site" else none

def failsAt (step : Step → Bool) (exc : Exn) : Env :=
  { smooth with fault := fun at' => if step at' then some exc else none }

def rootOwnsData : Env := failsAt (fun | .identityReady => true | _ => false) (.hosting "data/ 属主为 root")

theorem failed_before_stop_stale : ¬ ∀ env w s exc u, register env w.start = (.ok (), s) →
    s.ctx.txn = true → beforeStop env s = (.error exc, u) → env.restoreFault = none →
    ∃ e t, hostContainer env w.start = (.error e, t) ∧ Untouched env w t := by
  intro claim
  obtain ⟨e, t, run, untouched⟩ := claim rootOwnsData deployed _ _ _ rfl rfl rfl rfl
  have stale : (hostContainer rootOwnsData deployed.start).2.dir.files .dockerfile = some [0] := rfl
  rw [run, untouched.files] at stale
  exact absurd stale (by decide)

def buildFails : Env := failsAt (fun | .build => true | _ => false) (.docker "exit 1")

theorem failed_before_stop_untouched_buildFails :
    ∃ e t, hostContainer buildFails deployed.start = (.error e, t) ∧ Untouched buildFails deployed t := by
  have portsKept : PortsKept buildFails deployed (.docker "构建失败，旧版本仍在服务：[DOCKER_ERROR] exit 1") :=
    fun _ => trivial
  have prepared : ¬ Unprepared buildFails deployed.stored := by
    rintro (faulty | unknown)
    · exact absurd faulty (by decide)
    · exact unknown "old" rfl
  have begun : register buildFails deployed.start = (.ok (), _) := rfl
  obtain ⟨e, t, run, exactly⟩ := failed_before_stop_untouched_iff begun rfl rfl rfl
  exact ⟨e, t, run, exactly.mpr ⟨fun h => absurd h prepared, .inr rfl, portsKept⟩⟩

end LocalWebAccess.ContainerDeploy
