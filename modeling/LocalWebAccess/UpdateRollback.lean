import LocalWebAccess.UpdateTransaction

/-!
# What an update that fails leaves

Where an update raises, what it has changed until then is known step by step, and
so is what the rollback puts back. An update is all or nothing exactly where the
steps that nobody undoes have had no effect.
-/
namespace LocalWebAccess.UpdateTransaction
open RaisingPrograms Prog

variable {Json Tree : Type}

/-! ## The state in which a stage fails -/

section stages

variable (env : Env Json Tree) (before : Rows Json) (prepared : InstanceManifest Json)
  (s : State Json Tree)

def saved : State Json Tree := { s with manifest := env.text (updatedManifest env before s.rows prepared) }

def migrated : State Json Tree := { saved env before prepared s with
  env := if (env.stageFault .migrate).isNone then migratedEnv env.oldManifest s.env else s.env }

def copied : State Json Tree := { migrated env before prepared s with originalZip := some env.zip }

def upserted : State Json Tree := { copied env before prepared s with
  rows := s.rows.upsertFromManifest env.importer (updatedManifest env before s.rows prepared) }

def purged : State Json Tree := { upserted env before prepared s with data := recreatedData env s.data }

def sized : State Json Tree :=
  let rows := (upserted env before prepared s).rows
  { purged env before prepared s with
    rows := { rows with resources := some (upsertResources (newResources env) rows.resources) } }

/-- The state that a stage leaves if it raises and all stages before it have returned. -/
def interrupted : Stage → State Json Tree
  | .displayName => s
  | .hostPort => s
  | .save => s
  | .migrate => saved env before prepared s
  | .copyZip => { migrated env before prepared s with originalZip := env.zipPartly }
  | .upsert => copied env before prepared s
  | .purge => { upserted env before prepared s with data := clearedData env s.data }
  | .sizes => purged env before prepared s
  | .event => sized env before prepared s
  | .security => sized env before prepared s

def stages : List Stage :=
  [.displayName, .hostPort, .save, .migrate, .copyZip, .upsert, .purge, .sizes, .event, .security]

/-- The first stage that raises. -/
def firstFault : Option (Stage × Exn) :=
  stages.findSome? (fun stage => (raises env stage).map (stage, ·))

theorem commit_apply :
    commit env before prepared s = match firstFault env with
      | none => (.ok (), sized env before prepared s)
      | some (stage, exc) => (.error exc, interrupted env before prepared s stage) := by
  unfold commit firstFault stages
  simp only [List.findSome?_cons, List.findSome?_nil, saveManifest, migrateStartDbUrlToEnv, copyZip,
    upsertFromManifest, purgeData, recordSizes, attemptStage]
  cases raises env .displayName with
  | some exc => simp [bind_apply, interrupted]
  | none =>
  cases raises env .hostPort with
  | some exc => simp [bind_apply, interrupted]
  | none =>
  cases raises env .save with
  | some exc => simp [bind_apply, interrupted]
  | none =>
  cases raises env .migrate with
  | some exc => simp [bind_apply, interrupted, saved]
  | none =>
  cases raises env .copyZip with
  | some exc => simp [bind_apply, interrupted, saved, migrated]
  | none =>
  cases raises env .upsert with
  | some exc => simp [bind_apply, interrupted, saved, migrated, copied]
  | none =>
  cases raises env .purge with
  | some exc => simp [bind_apply, interrupted, saved, migrated, copied, upserted]
  | none =>
  cases raises env .sizes with
  | some exc => simp [bind_apply, interrupted, saved, migrated, copied, upserted, purged]
  | none =>
  cases raises env .event with
  | some exc => simp [bind_apply, interrupted, saved, migrated, copied, upserted, purged, sized]
  | none =>
  cases raises env .security with
  | some exc => simp [bind_apply, interrupted, saved, migrated, copied, upserted, purged, sized]
  | none => simp [bind_apply, saved, migrated, copied, upserted, purged, sized]

end stages

/-! ## The steps before the swap -/

section before

variable (env : Env Json Tree) (s : State Json Tree)

def kindFault : Option Exn := if !env.forceKindChange ∧ adoptsKind env then some .zipImport else none

def aliasFault : Option Exn := if present (existingAlias env) then env.fault .aliasGuard else none

def baselineFault (manifest : InstanceManifest Json) : Option Exn :=
  if needsBaseline env manifest then env.fault .fingerprints else none

/-- An update that is refused has not touched anything but the staging directory. -/
def refuses : Bool :=
  (env.fault .extract).isSome || (env.fault .detect).isSome || (kindFault env).isSome ||
    (aliasFault env).isSome || (preparedManifest env).all (fun manifest => (baselineFault env manifest).isSome)

def stopFault : Option Exn := if adoptsKind env then (env.fault .stop).filter (!·.isLwa) else none

def zipFault (zip : Option Bytes) : Option Exn := if zip.isSome then env.fault .backupZip else none

/-- The update gets no further than the old runtime, the backup of the zip or that of `current/`. -/
def failsBeforeSwap : Bool :=
  (stopFault env).isSome || (zipFault env s.originalZip).isSome || (env.fault .swapOut).isSome || s.current.isNone

def afterStop (w : World Json Tree) : World Json Tree :=
  if adoptsKind env then
    { w with
      manifest := env.stopped.manifest
      serving := env.stopped.serving
      rows := { w.rows with
        instances := env.stopped.instances
        static := env.stopped.static
        container := env.stopped.container } }
  else w

/-- The state between the two renames. -/
def swappedOut : State Json Tree :=
  { s with
    toWorld := { afterStop env s.toWorld with current := none }
    staging := some env.extracted
    old := s.current
    bak := s.originalZip <|> s.bak }

def swappedIn : State Json Tree :=
  { swappedOut env s with
    current := some env.extracted
    staging := none
    currentSwapped := true }

theorem guardKind_eq : (guardKind env : Run Json Tree Unit) = check (kindFault env) := by
  unfold guardKind kindFault
  split <;> rfl

theorem guardAlias_eq : (guardAlias env : Run Json Tree Unit) = check (aliasFault env) := by
  unfold guardAlias aliasFault attempt
  split <;> rfl

theorem prepare_some {manifest : InstanceManifest Json} (prepared : preparedManifest env = some manifest) :
    (prepare env : Run Json Tree (InstanceManifest Json)) =
      check (baselineFault env manifest) >>= fun _ => pure (withBaseline env manifest) := by
  unfold prepare baselineFault attempt
  rw [prepared]
  simp only
  split <;> rfl

/-- What is left of the update once nothing is refused. -/
def replacePrepared (snapshot : Snapshot Json) (manifest : InstanceManifest Json) : Run Json Tree Unit := do
  stopOld env
  backupZip env
  swapOut env
  swapIn env
  commit env snapshot.rows manifest

theorem replaceSource_refused (snapshot : Snapshot Json) (refused : refuses env = true) :
    ∃ exc staging, replaceSource env snapshot s = (.error exc, { s with staging := staging }) := by
  unfold replaceSource extract
  rw [guardKind_eq, guardAlias_eq]
  cases extracted : env.fault .extract with
  | some exc => exact ⟨exc, env.extractedPartly, by simp [bind_apply]⟩
  | none =>
  cases detected : env.fault .detect with
  | some exc => exact ⟨exc, some env.extracted, by simp [bind_apply, attempt, detected]⟩
  | none =>
  cases kind : kindFault env with
  | some exc => exact ⟨exc, some env.extracted, by simp [bind_apply, attempt, detected]⟩
  | none =>
  cases named : aliasFault env with
  | some exc => exact ⟨exc, some env.extracted, by simp [bind_apply, attempt, detected]⟩
  | none =>
  cases prepared : preparedManifest env with
  | none => exact ⟨.other, some env.extracted, by simp [bind_apply, attempt, detected, prepare, prepared]⟩
  | some manifest =>
  cases baseline : baselineFault env manifest with
  | some exc =>
    exact ⟨exc, some env.extracted, by simp [bind_apply, attempt, detected, prepare_some env prepared, baseline]⟩
  | none => simp [refuses, extracted, detected, kind, named, prepared, baseline] at refused

theorem replaceSource_prepared (snapshot : Snapshot Json) (taken : refuses env = false) :
    ∃ manifest, preparedManifest env = some manifest ∧
      replaceSource env snapshot s =
        replacePrepared env snapshot (withBaseline env manifest) { s with staging := some env.extracted } := by
  simp only [refuses, Bool.or_eq_false_iff, Option.isSome_eq_false_iff, Option.isNone_iff_eq_none] at taken
  obtain ⟨⟨⟨⟨extracted, detected⟩, kind⟩, named⟩, all⟩ := taken
  cases prepared : preparedManifest env with
  | none => simp [prepared] at all
  | some manifest =>
    have baseline : baselineFault env manifest = none := by simpa [prepared] using all
    refine ⟨manifest, rfl, ?_⟩
    unfold replaceSource extract
    rw [guardKind_eq, guardAlias_eq, prepare_some env prepared, extracted, kind, named, baseline]
    simp [bind_apply, attempt, detected, replacePrepared]

@[simp] theorem afterStop_current (w : World Json Tree) : (afterStop env w).current = w.current := by
  unfold afterStop
  split <;> rfl

@[simp] theorem afterStop_originalZip (w : World Json Tree) :
    (afterStop env w).originalZip = w.originalZip := by
  unfold afterStop
  split <;> rfl

theorem stopOld_eq : (stopOld env : Run Json Tree Unit) =
    Prog.modify (fun s => { s with toWorld := afterStop env s.toWorld }) >>= fun _ =>
      check (stopFault env) := by
  unfold stopOld stopFault afterStop
  split <;> rfl

theorem backupZip_apply :
    backupZip env s = match zipFault env s.originalZip with
      | none => (.ok (), { s with bak := s.originalZip <|> s.bak })
      | some exc => (.error exc, { s with bak := env.bakPartly }) := by
  unfold backupZip zipFault
  cases zip : s.originalZip with
  | none => simp [bind_apply, zip]
  | some content => cases fault : env.fault .backupZip <;> simp [bind_apply, zip]

/-- Before the swap only the old runtime has changed. -/
theorem replacePrepared_fails (snapshot : Snapshot Json) (manifest : InstanceManifest Json)
    (fails : failsBeforeSwap env s = true) :
    ∃ exc bak, replacePrepared env snapshot manifest s =
      (.error exc, { s with toWorld := afterStop env s.toWorld, bak := bak }) := by
  unfold replacePrepared
  rw [stopOld_eq]
  cases stop : stopFault env with
  | some exc => exact ⟨exc, s.bak, by simp [bind_apply]⟩
  | none =>
  cases zip : zipFault env s.originalZip with
  | some exc =>
    exact ⟨exc, env.bakPartly, by simp [bind_apply, backupZip_apply, zip]⟩
  | none =>
  cases out : env.fault .swapOut with
  | some exc =>
    exact ⟨exc, s.originalZip <|> s.bak,
      by simp [bind_apply, backupZip_apply, zip, swapOut, attempt, out]⟩
  | none =>
  cases current : s.current with
  | some tree => simp [failsBeforeSwap, stop, zip, out, current] at fails
  | none =>
    exact ⟨.os, s.originalZip <|> s.bak,
      by simp [bind_apply, backupZip_apply, zip, swapOut, attempt, out, current]⟩

/-- Once the old runtime is stopped and the zip is kept, the two renames follow. -/
theorem replacePrepared_reaches (snapshot : Snapshot Json) (manifest : InstanceManifest Json)
    (staged : s.staging = some env.extracted) (reaches : failsBeforeSwap env s = false) :
    replacePrepared env snapshot manifest s =
      (swapIn env >>= fun _ => commit env snapshot.rows manifest) (swappedOut env s) := by
  simp only [failsBeforeSwap, Bool.or_eq_false_iff, Option.isSome_eq_false_iff,
    Option.isNone_iff_eq_none, Option.isNone_eq_false_iff] at reaches
  obtain ⟨⟨⟨stop, zip⟩, out⟩, present⟩ := reaches
  obtain ⟨tree, current⟩ := Option.isSome_iff_exists.mp present
  unfold replacePrepared
  rw [stopOld_eq, stop]
  simp [bind_apply, backupZip_apply, zip, swapOut, attempt, out, current, swappedOut, staged]

end before

/-! ## The rollback -/

section rollback

variable (env : Env Json Tree) (snapshot : Snapshot Json) (s : State Json Tree)

/-- The rows that the rollback leaves of those it finds. -/
def restoredRows (before rows : Rows Json) : Rows Json :=
  let rows := rows.upsertFromManifest env.importer (setHostPort env.oldManifest (oldHostPort before))
  { rows with
    static := before.portedStatic <|> rows.static
    container := before.portedContainer.map (restoredContainer env) <|> rows.container
    resources := match before.resources with
      | none => rows.resources
      | some row => some (upsertResources (restoredResources env row) rows.resources) }

/-- Some write of the rollback to the registry fails. -/
def registryFails (before : Rows Json) : Bool :=
  env.restoreFault .upsert ||
    (before.portedStatic.isSome && env.restoreFault .static) ||
    (before.portedContainer.isSome && env.restoreFault .container) ||
    (before.resources.isSome && env.restoreFault .resources)

/-- The directory has been renamed back, but something else has not been restored. -/
def restFails : Bool :=
  env.restoreFault .manifest || (s.bak.isSome && env.restoreFault .originalZip) ||
    registryFails env snapshot.rows

theorem restoreCurrent_apply {tree : Tree} (kept : s.old = some tree) :
    restoreCurrent env s = (.ok (),
      if env.restoreFault .current then
        { s with current := removed s.current (env.remains .rollbackCurrent), restoreFailed := true }
      else { s with current := some tree, old := none }) := by
  simp only [restoreCurrent, bind_apply, modify_apply, get_apply, kept, ite_run, logFailure]
  split <;> rfl

theorem restoreStaticRow_eq : restoreStaticRow env snapshot =
    if snapshot.rows.portedStatic.isSome && env.restoreFault .static then raise .lwa
    else Prog.modify (fun s => { s with rows := { s.rows with
      static := snapshot.rows.portedStatic <|> s.rows.static } }) := by
  unfold restoreStaticRow write
  cases snapshot.rows.portedStatic with
  | none => rfl
  | some row => simp

theorem restoreContainerRow_eq : restoreContainerRow env snapshot =
    if snapshot.rows.portedContainer.isSome && env.restoreFault .container then
      raise .lwa
    else Prog.modify (fun s => { s with rows := { s.rows with
      container := snapshot.rows.portedContainer.map (restoredContainer env) <|>
        s.rows.container } }) := by
  unfold restoreContainerRow write
  cases snapshot.rows.portedContainer with
  | none => rfl
  | some row => simp

theorem restoreResources_eq : restoreResources env snapshot =
    if snapshot.rows.resources.isSome && env.restoreFault .resources then raise .lwa
    else Prog.modify (fun s => { s with rows := { s.rows with
      resources := match snapshot.rows.resources with
        | none => s.rows.resources
        | some row => some (upsertResources (restoredResources env row) s.rows.resources) } }) := by
  unfold restoreResources write
  cases snapshot.rows.resources with
  | none => rfl
  | some row => simp

/-- Without a failure the rows are those of the rollback; a failure leaves some of them out. -/
theorem restoreRegistry_apply :
    ∃ rows, restoreRegistry env snapshot s = (.ok (),
        { s with
          rows := rows
          restoreFailed := s.restoreFailed || registryFails env snapshot.rows }) ∧
      (registryFails env snapshot.rows = false → rows = restoredRows env snapshot.rows s.rows) := by
  unfold restoreRegistry write
  rw [restoreStaticRow_eq, restoreContainerRow_eq, restoreResources_eq]
  let first := s.rows.upsertFromManifest env.importer (setHostPort env.oldManifest (oldHostPort snapshot.rows))
  cases upsert : env.restoreFault .upsert with
  | true => exact ⟨s.rows, by simp [handle, bind_apply, upsert, logFailure, registryFails]⟩
  | false =>
  cases static : snapshot.rows.portedStatic.isSome && env.restoreFault .static with
  | true =>
    exact ⟨first, by simp [handle, bind_apply, upsert, static, logFailure, registryFails, first]⟩
  | false =>
  let second : Rows Json := { first with
    static := snapshot.rows.portedStatic <|> first.static }
  cases container : snapshot.rows.portedContainer.isSome &&
      env.restoreFault .container with
  | true =>
    exact ⟨second, by
      simp [handle, bind_apply, upsert, static, container, logFailure, registryFails, first, second]⟩
  | false =>
  let third : Rows Json := { second with
    container := snapshot.rows.portedContainer.map (restoredContainer env) <|>
      second.container }
  cases resources : snapshot.rows.resources.isSome && env.restoreFault .resources with
  | true =>
    exact ⟨third, by
      simp [handle, bind_apply, upsert, static, container, resources, logFailure, registryFails, first,
        second, third]⟩
  | false =>
    refine ⟨restoredRows env snapshot.rows s.rows, ?_, fun _ => rfl⟩
    simp [handle, bind_apply, upsert, static, container, resources, registryFails, restoredRows]

theorem restoreManifest_apply : restoreManifest env snapshot s = (.ok (), { s with
    manifest := if env.restoreFault .manifest then env.manifestPartly else snapshot.manifest
    restoreFailed := s.restoreFailed || env.restoreFault .manifest }) := by
  unfold restoreManifest logFailure
  cases env.restoreFault .manifest <;> simp [bind_apply]

theorem restoreOriginalZip_apply : restoreOriginalZip env s = (.ok (), { s with
    originalZip :=
      if s.bak.isSome && env.restoreFault .originalZip then env.zipPartly else s.bak <|> s.originalZip
    restoreFailed := s.restoreFailed || (s.bak.isSome && env.restoreFault .originalZip) }) := by
  rcases s with ⟨⟨w, staging, old, bak⟩, swapped, failed⟩
  simp only [restoreOriginalZip, bind_apply, get_apply]
  cases bak with
  | none => simp
  | some zip => cases fault : env.restoreFault .originalZip <;> simp [bind_apply, logFailure]

/-- The backup stays where it is if it cannot be renamed. -/
theorem rollback_stuck {tree : Tree} (kept : s.old = some tree) (fault : env.restoreFault .current = true) :
    ∃ t, rollbackSwappedCurrent env snapshot s = (.ok (), t) ∧ t.restoreFailed = true ∧
      t.current = removed s.current (env.remains .rollbackCurrent) ∧ t.old = s.old := by
  unfold rollbackSwappedCurrent
  rw [bind_of_ok (restoreCurrent_apply env s kept), if_pos fault,
    bind_of_ok (restoreManifest_apply ..), bind_of_ok (restoreOriginalZip_apply ..)]
  obtain ⟨rows, run, -⟩ := restoreRegistry_apply env snapshot _
  exact ⟨_, run, by simp, rfl, rfl⟩

theorem rollback_restores {tree : Tree} (kept : s.old = some tree)
    (renamed : env.restoreFault .current = false) :
    ∃ t, rollbackSwappedCurrent env snapshot s = (.ok (), t) ∧
      t.restoreFailed = (s.restoreFailed || restFails env snapshot s) ∧ t.current = some tree ∧
      (restFails env snapshot s = false →
        t.toWorld = { s.toWorld with
          current := some tree
          manifest := snapshot.manifest
          originalZip := s.bak <|> s.originalZip
          rows := restoredRows env snapshot.rows s.rows }) := by
  unfold rollbackSwappedCurrent
  rw [bind_of_ok (restoreCurrent_apply env s kept), if_neg (by simp [renamed]),
    bind_of_ok (restoreManifest_apply ..), bind_of_ok (restoreOriginalZip_apply ..)]
  obtain ⟨rows, run, same⟩ := restoreRegistry_apply env snapshot _
  refine ⟨_, run, by simp [restFails, Bool.or_assoc], rfl, ?_⟩
  intro none
  simp only [restFails, Bool.or_eq_false_iff] at none
  obtain ⟨⟨manifest, zip⟩, registry⟩ := none
  simp [same registry, manifest, zip]

end rollback

/-! ## How an update ends -/

/-- How far an update has come when it raises. -/
inductive Outcome where
  | untouched
  | stopped
  | lost
  | swapped (stage : Stage) (exc : Exn)
  | committed

section outcome

variable (env : Env Json Tree) (d : Disk Json Tree)

/-- The revision is the expected one, and the state before the update can be read. -/
def begins : Bool := revisionExpected env d.rows && (env.fault .read).isNone

/-- The second rename fails and the first one is undone. -/
def swapUndone : Bool := env.fault .swapIn = some .os && (env.fault .undoSwap).isNone

def outcome : Outcome :=
  if !begins env d || refuses env then .untouched
  else if failsBeforeSwap env d.start then .stopped
  else if (env.fault .swapIn).isSome then (if swapUndone env then .stopped else .lost)
  else
    match firstFault env with
    | none => .committed
    | some (stage, exc) => .swapped stage exc

/-- The state once temporary directories of earlier updates are removed. -/
def cleared : State Json Tree := { d.start with
  staging := removed d.staging (env.remains .staleStaging)
  old := removed d.old (env.remains .staleOld) }

/-- The state in which the old runtime is stopped next. -/
def stagedState : State Json Tree := { cleared env d with staging := some env.extracted }

theorem checkRevision_apply (s : State Json Tree) :
    checkRevision env s = (if revisionExpected env s.rows then .ok () else .error .zipImport, s) := by
  simp only [checkRevision, bind_apply, get_apply, ite_run]
  split <;> rfl

theorem updateZipLocked_refused (refused : begins env d = false) :
    ∃ exc, updateZipLocked env d.start = (.error exc, d.start) := by
  unfold updateZipLocked
  cases revision : revisionExpected env d.rows with
  | false => exact ⟨.zipImport, bind_of_error (by simp [checkRevision_apply, Disk.start, revision])⟩
  | true =>
    rw [bind_of_ok (show checkRevision env d.start = (.ok (), d.start) by
      simp [checkRevision_apply, Disk.start, revision])]
    cases fault : env.fault .read with
    | none => simp [begins, revision, fault] at refused
    | some exc => exact ⟨exc, bind_of_error (by simp [attempt, fault])⟩

theorem updateZipLocked_begun (begun : begins env d = true) :
    updateZipLocked env d.start =
      ensure (handle (replaceSource env ⟨d.manifest, d.rows⟩) (undo env ⟨d.manifest, d.rows⟩))
        (cleanUp env) (cleared env d) := by
  simp only [begins, Bool.and_eq_true, Option.isNone_iff_eq_none] at begun
  obtain ⟨revision, read⟩ := begun
  unfold updateZipLocked
  rw [bind_of_ok (show checkRevision env d.start = (.ok (), d.start) by
    simp [checkRevision_apply, Disk.start, revision])]
  simp [bind_apply, attempt, read, clearStale, cleared, Disk.start]

/-- Where nothing has been swapped, the handlers leave the instance as they find it. -/
theorem updateZipLocked_unswapped {exc : Exn} {t : State Json Tree} (begun : begins env d = true)
    (raised : replaceSource env ⟨d.manifest, d.rows⟩ (cleared env d) = (.error exc, t))
    (unswapped : t.currentSwapped = false) :
    updateZipLocked env d.start = (.error .zipImport, cleanUp env t) := by
  rw [updateZipLocked_begun env d begun]
  unfold ensure
  rw [handle_of_error raised]
  cases exc <;> simp [undo, bind_apply, unswapped]

/-- An update that raises leaves everything as it was, or keeps the old source where it cannot. -/
def AllOrNothing : Prop :=
  ∀ exc t, updateZipLocked env d.start = (.error exc, t) →
    (t.restoreFailed = false → t.toWorld = d.toWorld) ∧
      (t.restoreFailed = true → t.current = d.current ∨ t.old = d.current)

variable {env d}

theorem allOrNothing_iff {exc : Exn} {t : State Json Tree}
    (run : updateZipLocked env d.start = (.error exc, t)) :
    AllOrNothing env d ↔ (t.restoreFailed = false → t.toWorld = d.toWorld) ∧
      (t.restoreFailed = true → t.current = d.current ∨ t.old = d.current) := by
  constructor
  · intro h
    exact h exc t run
  · intro h exc' t' run'
    rw [run] at run'
    cases run'
    exact h

/-- Where nothing has been swapped, the update has to leave the world as it was. -/
theorem allOrNothing_unswapped {exc : Exn} {t : State Json Tree} (begun : begins env d = true)
    (raised : replaceSource env ⟨d.manifest, d.rows⟩ (cleared env d) = (.error exc, t))
    (unswapped : t.currentSwapped = false) (unfailed : t.restoreFailed = false) :
    AllOrNothing env d ↔ t.toWorld = d.toWorld := by
  rw [allOrNothing_iff (updateZipLocked_unswapped env d begun raised unswapped)]
  simp [cleanUp, unfailed]

theorem allOrNothing_untouched (untouched : (!begins env d || refuses env) = true) : AllOrNothing env d := by
  cases begun : begins env d with
  | false =>
    obtain ⟨exc, run⟩ := updateZipLocked_refused env d begun
    rw [allOrNothing_iff run]
    simp [Disk.start]
  | true =>
    have refused : refuses env = true := by simpa [begun] using untouched
    obtain ⟨exc, staging, run⟩ := replaceSource_refused env (cleared env d) ⟨d.manifest, d.rows⟩ refused
    exact (allOrNothing_unswapped begun run rfl rfl).mpr rfl

theorem swapIn_undone (undone : swapUndone env = true) (s : State Json Tree) :
    swapIn env s = (.error .os, { s with current := s.old, old := none }) := by
  simp only [swapUndone, Bool.and_eq_true, decide_eq_true_eq, Option.isNone_iff_eq_none] at undone
  unfold swapIn undoSwap attempt
  rw [undone.1, undone.2]
  rfl

/-- `current/` stays away. -/
theorem swapIn_lost (fault : (env.fault .swapIn).isSome = true) (lost : swapUndone env = false)
    (s : State Json Tree) : ∃ exc, swapIn env s = (.error exc, s) := by
  obtain ⟨exc, raised⟩ := Option.isSome_iff_exists.mp fault
  unfold swapIn undoSwap attempt
  rw [raised]
  cases exc with
  | os =>
    cases undo : env.fault .undoSwap with
    | none => simp [swapUndone, raised, undo] at lost
    | some exc => exact ⟨exc, rfl⟩
  | zipImport => exact ⟨.zipImport, rfl⟩
  | lwa => exact ⟨.lwa, rfl⟩
  | other => exact ⟨.other, rfl⟩

section taken

variable (begun : begins env d = true) (taken : refuses env = false)

include taken

theorem reached (reaches : failsBeforeSwap env d.start = false) :
    ∃ manifest, preparedManifest env = some manifest ∧
      replaceSource env ⟨d.manifest, d.rows⟩ (cleared env d) =
        (swapIn env >>= fun _ => commit env d.rows (withBaseline env manifest))
          (swappedOut env (stagedState env d)) := by
  obtain ⟨manifest, prepared, run⟩ :=
    replaceSource_prepared env (cleared env d) ⟨d.manifest, d.rows⟩ taken
  refine ⟨manifest, prepared, run.trans ?_⟩
  exact replacePrepared_reaches env (stagedState env d) ⟨d.manifest, d.rows⟩ _ rfl reaches

include begun

theorem allOrNothing_stopped (fails : failsBeforeSwap env d.start = true) :
    AllOrNothing env d ↔ afterStop env d.toWorld = d.toWorld := by
  obtain ⟨manifest, -, run⟩ := replaceSource_prepared env (cleared env d) ⟨d.manifest, d.rows⟩ taken
  obtain ⟨exc, bak, raised⟩ := replacePrepared_fails env (stagedState env d) ⟨d.manifest, d.rows⟩
    (withBaseline env manifest) fails
  exact allOrNothing_unswapped begun (run.trans raised) rfl rfl

theorem allOrNothing_undone (reaches : failsBeforeSwap env d.start = false)
    (undone : swapUndone env = true) : AllOrNothing env d ↔ afterStop env d.toWorld = d.toWorld := by
  obtain ⟨manifest, -, run⟩ := reached taken reaches
  rw [bind_of_error (swapIn_undone undone _)] at run
  have same : ({ afterStop env d.toWorld with current := d.current } : World Json Tree) =
      afterStop env d.toWorld := by
    rw [← afterStop_current env d.toWorld]
  rw [allOrNothing_unswapped begun run rfl rfl, ← same]
  rfl

/-- With the first rename not undone the instance has no source. -/
theorem not_allOrNothing_lost (reaches : failsBeforeSwap env d.start = false)
    (fault : (env.fault .swapIn).isSome = true) (lost : swapUndone env = false) : ¬AllOrNothing env d := by
  obtain ⟨manifest, -, run⟩ := reached taken reaches
  obtain ⟨exc, raised⟩ := swapIn_lost fault lost (swappedOut env (stagedState env d))
  rw [bind_of_error raised] at run
  rw [allOrNothing_unswapped begun run rfl rfl]
  intro same
  have current := congrArg (·.current) same
  have gone : d.current = none := current.symm
  simp [failsBeforeSwap, Disk.start, gone] at reaches

end taken

end outcome

/-! ## What is undone after the swap -/

/-- The position of a stage. -/
def Stage.index (stage : Stage) : ℕ := stages.idxOf stage

section undone

variable (env : Env Json Tree) (d : Disk Json Tree) (stage : Stage)

/-- The rows that the rollback finds, once the update has got to a stage. -/
def rowsAt (prepared : InstanceManifest Json) : Rows Json :=
  let rows := (afterStop env d.toWorld).rows
  if Stage.upsert.index < stage.index then
    rows.upsertFromManifest env.importer (updatedManifest env d.rows rows prepared)
  else rows

/-- What the rollback writes to the registry is what has been there. -/
structure RowsUndone (prepared : InstanceManifest Json) : Prop where
  instances : d.rows.instances =
    some (upsertInstance env.importer env.oldManifest (afterStop env d.toWorld).rows.instances)
  static : d.rows.portedStatic = none →
    ((rowsAt env d stage prepared).upsertFromManifest env.importer
      (setHostPort env.oldManifest (oldHostPort d.rows))).static = d.rows.static
  container : match d.rows.portedContainer with
    | some row => restoredContainer env row = row
    | none => ((rowsAt env d stage prepared).upsertFromManifest env.importer
        (setHostPort env.oldManifest (oldHostPort d.rows))).container = d.rows.container
  resources : match d.rows.resources with
    | none => stage.index ≤ Stage.sizes.index
    | some row => row.updatedAt = env.importer.nowIso ∧
        (Stage.sizes.index < stage.index → row.sourceSize.isSome ∧ row.dataSize.isSome)

/-- What has been changed until a stage is restored, or has been as it is now. -/
structure Undone (prepared : InstanceManifest Json) : Prop where
  serving : (afterStop env d.toWorld).serving = d.serving
  originalZip : d.originalZip = none →
    d.bak = none ∧ stage.index ≤ Stage.copyZip.index ∧ (stage = .copyZip → env.zipPartly = none)
  envFile : Stage.migrate.index < stage.index → env.stageFault .migrate = none →
    migratedEnv env.oldManifest d.env = d.env
  purge : stage = .purge → clearedData env d.data = d.data
  data : Stage.purge.index < stage.index → recreatedData env d.data = d.data
  rows : RowsUndone env d stage prepared

theorem instanceColumns_setHostPort (importer : Importer Json) (manifest : InstanceManifest Json)
    (port : Option ℤ) :
    instanceColumns importer (setHostPort manifest port) = instanceColumns importer manifest := by
  unfold setHostPort
  split
  · rfl
  · split <;> rfl

/-- An upsert keeps the columns that it does not know. -/
theorem upsertInstance_rowsAt (prepared : InstanceManifest Json) :
    upsertInstance env.importer (setHostPort env.oldManifest (oldHostPort d.rows))
        (rowsAt env d stage prepared).instances =
      upsertInstance env.importer env.oldManifest (afterStop env d.toWorld).rows.instances := by
  unfold upsertInstance rowsAt
  rw [instanceColumns_setHostPort]
  split <;> rfl

theorem ported_or_iff {α : Type} (row rest : Option α) (p : α → Bool) :
    (row.filter p <|> rest) = row ↔ (row.filter p = none → rest = row) := by
  cases row with
  | none => simp
  | some a => cases kept : p a <;> simp [Option.filter, kept]

/-- The resources after the rollback: with a row before, its own values where it has some. -/
def resourcesLeft : Option (ResourcesRow Json) :=
  if Stage.sizes.index < stage.index then some (upsertResources (newResources env) d.rows.resources)
  else d.rows.resources

/-- A second write of a row changes the time of its last write alone. -/
theorem upsertResources_self (row : ResourcesRow Json) (now : String) :
    upsertResources { row with updatedAt := now } (some row) = { row with updatedAt := now } := by
  simp [upsertResources]

/-- The sizes of the new source stay where the old row had none. -/
theorem upsertResources_sizes (row new : ResourcesRow Json) (now : String) (source : new.sourceSize.isSome)
    (data : new.dataSize.isSome) (rest : new.publicSize = none ∧ new.imageSize = none ∧
      new.lastMemory = none ∧ new.lastCpu = none) :
    upsertResources { row with updatedAt := now } (some (upsertResources new (some row))) = row ↔
      row.updatedAt = now ∧ row.sourceSize.isSome ∧ row.dataSize.isSome := by
  obtain ⟨newSource, newSourceSize⟩ := Option.isSome_iff_exists.mp source
  obtain ⟨newData, newDataSize⟩ := Option.isSome_iff_exists.mp data
  obtain ⟨publicSize, image, memory, cpu⟩ := rest
  rw [ResourcesRow.ext_iff]
  simp only [upsertResources, newSourceSize, newDataSize, publicSize, image, memory, cpu]
  cases row.sourceSize <;> cases row.dataSize <;> simp [eq_comm]

theorem resources_restored_iff :
    (match d.rows.resources with
      | none => resourcesLeft env d stage
      | some row => some (upsertResources (restoredResources env row) (resourcesLeft env d stage))) =
        d.rows.resources ↔
      match d.rows.resources with
      | none => stage.index ≤ Stage.sizes.index
      | some row => row.updatedAt = env.importer.nowIso ∧
          (Stage.sizes.index < stage.index → row.sourceSize.isSome ∧ row.dataSize.isSome) := by
  unfold resourcesLeft
  cases before : d.rows.resources with
  | none =>
    by_cases later : Stage.sizes.index < stage.index
    · simp [later]
    · simp [later, Nat.le_of_not_lt later]
  | some row =>
    by_cases later : Stage.sizes.index < stage.index
    · have sizes := upsertResources_sizes row (newResources env) env.importer.nowIso rfl rfl
        ⟨rfl, rfl, rfl, rfl⟩
      simp only [later, if_true, Option.some_inj, restoredResources, true_implies]
      exact sizes
    · have self := upsertResources_self row env.importer.nowIso
      simp only [later, if_false, Option.some_inj, restoredResources, false_implies, and_true]
      rw [self, ResourcesRow.ext_iff]
      simp [eq_comm]

/-- The container row is written again under a project name. -/
theorem container_restored_iff (rest : Option ContainerRow) :
    (d.rows.portedContainer.map (restoredContainer env) <|> rest) = d.rows.container ↔
      match d.rows.portedContainer with
      | some row => restoredContainer env row = row
      | none => rest = d.rows.container := by
  cases ported : d.rows.portedContainer with
  | none => simp
  | some row =>
    have kept : d.rows.container = some row := (Option.filter_eq_some_iff.mp ported).1
    simp [kept]

/-- The rollback restores the registry exactly where the rows were those of the old manifest. -/
theorem restoredRows_iff (prepared : InstanceManifest Json) :
    restoredRows env d.rows { rowsAt env d stage prepared with resources := resourcesLeft env d stage } =
      d.rows ↔ RowsUndone env d stage prepared := by
  let rows := (rowsAt env d stage prepared).upsertFromManifest env.importer
    (setHostPort env.oldManifest (oldHostPort d.rows))
  have instances := upsertInstance_rowsAt env d stage prepared
  have static : (d.rows.portedStatic <|> rows.static) = d.rows.static ↔
      (d.rows.portedStatic = none → rows.static = d.rows.static) := ported_or_iff ..
  have container := container_restored_iff env d rows.container
  have resources := resources_restored_iff env d stage
  rw [Rows.ext_iff]
  constructor
  · rintro ⟨h₁, h₂, h₃, h₄⟩
    exact ⟨by rw [← instances]; exact h₁.symm, static.mp h₂, container.mp h₃, resources.mp h₄⟩
  · intro undone
    exact ⟨(by rw [undone.instances, ← instances]; rfl), static.mpr undone.static,
      container.mpr undone.container, resources.mpr undone.resources⟩

end undone

section swapped

variable {env : Env Json Tree} {d : Disk Json Tree}

/-- The fields that no stage touches. -/
theorem interrupted_frame (before : Rows Json) (prepared : InstanceManifest Json) (s : State Json Tree)
    (stage : Stage) :
    ∃ manifest zip envFile data rows, interrupted env before prepared s stage =
      { s with manifest := manifest, originalZip := zip, env := envFile, data := data, rows := rows } := by
  cases stage <;> exact ⟨_, _, _, _, _, rfl⟩

theorem interrupted_rows (prepared : InstanceManifest Json) (stage : Stage) :
    (interrupted env d.rows prepared (swappedIn env d.start) stage).rows =
      { rowsAt env d stage prepared with resources := resourcesLeft env d stage } := by
  have kept : (afterStop env d.toWorld).rows.resources = d.rows.resources := by
    unfold afterStop
    split <;> rfl
  have rows : (swappedIn env d.start).rows = (afterStop env d.toWorld).rows := rfl
  cases stage <;>
    simp [interrupted, rowsAt, resourcesLeft, Stage.index, stages, saved, migrated, copied, upserted, purged,
      sized, rows, ← kept, Rows.upsertFromManifest]

theorem zip_restored_iff (prepared : InstanceManifest Json) (stage : Stage) :
    let s := interrupted env d.rows prepared (swappedIn env d.start) stage
    (s.bak <|> s.originalZip) = d.originalZip ↔ (d.originalZip = none →
      d.bak = none ∧ stage.index ≤ Stage.copyZip.index ∧ (stage = .copyZip → env.zipPartly = none)) := by
  intro s
  have bak : s.bak = (d.originalZip <|> d.bak) := by
    obtain ⟨_, _, _, _, _, same⟩ := interrupted_frame d.rows prepared (swappedIn env d.start) stage
    rw [show s = _ from same]
    rfl
  rw [bak]
  cases old : d.originalZip with
  | some zip => simp
  | none =>
    have before : (swappedIn env d.start).originalZip = none := (afterStop_originalZip ..).trans old
    cases d.bak with
    | some zip => simp
    | none =>
      cases stage <;>
        simp [s, interrupted, Stage.index, stages, saved, migrated, copied, upserted, purged, sized, before]

theorem env_restored_iff (prepared : InstanceManifest Json) (stage : Stage) :
    (interrupted env d.rows prepared (swappedIn env d.start) stage).env = d.env ↔
      (Stage.migrate.index < stage.index → env.stageFault .migrate = none →
        migratedEnv env.oldManifest d.env = d.env) := by
  have before : (swappedIn env d.start).env = d.env := by
    change (afterStop env d.toWorld).env = d.env
    unfold afterStop
    split <;> rfl
  cases stage <;> cases fault : env.stageFault .migrate <;>
    simp [interrupted, Stage.index, stages, saved, migrated, copied, upserted, purged, sized, before, fault]

theorem data_restored_iff (prepared : InstanceManifest Json) (stage : Stage) :
    (interrupted env d.rows prepared (swappedIn env d.start) stage).data = d.data ↔
      (stage = .purge → clearedData env d.data = d.data) ∧
        (Stage.purge.index < stage.index → recreatedData env d.data = d.data) := by
  have before : (swappedIn env d.start).data = d.data := by
    change (afterStop env d.toWorld).data = d.data
    unfold afterStop
    split <;> rfl
  cases stage <;>
    simp [interrupted, Stage.index, stages, saved, migrated, copied, upserted, purged, sized, before]

/-- The world after a rollback without failures. -/
def rolledBack (env : Env Json Tree) (d : Disk Json Tree) (prepared : InstanceManifest Json) (stage : Stage) :
    World Json Tree :=
  let s := interrupted env d.rows prepared (swappedIn env d.start) stage
  { s.toWorld with
    current := d.current
    manifest := d.manifest
    originalZip := s.bak <|> s.originalZip
    rows := restoredRows env d.rows s.rows }

theorem rolledBack_iff (prepared : InstanceManifest Json) (stage : Stage) :
    rolledBack env d prepared stage = d.toWorld ↔ Undone env d stage prepared := by
  have zip := @zip_restored_iff Json Tree env d prepared stage
  have envFile := @env_restored_iff Json Tree env d prepared stage
  have data := @data_restored_iff Json Tree env d prepared stage
  have rows := restoredRows_iff env d stage prepared
  rw [← interrupted_rows] at rows
  have serving : (rolledBack env d prepared stage).serving = (afterStop env d.toWorld).serving := by
    cases stage <;> rfl
  rw [World.ext_iff]
  constructor
  · rintro ⟨-, -, h₁, h₂, h₃, h₄, h₅⟩
    exact ⟨serving.symm.trans h₅, zip.mp h₁, envFile.mp h₂, (data.mp h₃).1, (data.mp h₃).2, rows.mp h₄⟩
  · intro undone
    exact ⟨rfl, rfl, zip.mpr undone.originalZip, envFile.mpr undone.envFile,
      data.mpr ⟨undone.purge, undone.data⟩, rows.mpr undone.rows, serving.trans undone.serving⟩

/-- Something but the source cannot be restored. -/
def otherRestoreFails (env : Env Json Tree) (d : Disk Json Tree) : Bool :=
  env.restoreFault .manifest ||
    ((d.originalZip <|> d.bak).isSome && env.restoreFault .originalZip) || registryFails env d.rows

section taken

variable {stage : Stage} {exc : Exn} (begun : begins env d = true) (taken : refuses env = false)
  (reaches : failsBeforeSwap env d.start = false) (renamed : env.fault .swapIn = none)
  (first : firstFault env = some (stage, exc))

include taken reaches renamed

theorem replaceSource_renamed : ∃ manifest, preparedManifest env = some manifest ∧
    replaceSource env ⟨d.manifest, d.rows⟩ (cleared env d) =
      match firstFault env with
      | none => (.ok (), sized env d.rows (withBaseline env manifest) (swappedIn env d.start))
      | some (stage, exc) =>
        (.error exc, interrupted env d.rows (withBaseline env manifest) (swappedIn env d.start) stage) := by
  obtain ⟨manifest, prepared, run⟩ := reached taken reaches
  refine ⟨manifest, prepared, run.trans ?_⟩
  have swapped : swapIn env (swappedOut env (stagedState env d)) = (.ok (), swappedIn env d.start) := by
    unfold swapIn
    rw [renamed]
    rfl
  rw [bind_of_ok swapped, commit_apply]

include begun

/-- An update that does not raise has nothing to undo. -/
theorem allOrNothing_committed (returned : firstFault env = none) : AllOrNothing env d := by
  obtain ⟨manifest, -, run⟩ := replaceSource_renamed taken reaches renamed
  rw [returned] at run
  intro exc t raised
  rw [updateZipLocked_begun env d begun] at raised
  unfold ensure at raised
  rw [handle_of_ok run] at raised
  cases raised

include first

/-- A `ZipImportError` is only raised again. -/
theorem allOrNothing_zipImport (raised : exc = .zipImport) :
    AllOrNothing env d ↔ ∃ manifest, preparedManifest env = some manifest ∧
      (interrupted env d.rows (withBaseline env manifest) (swappedIn env d.start) stage).toWorld =
        d.toWorld := by
  obtain ⟨manifest, prepared, run⟩ := replaceSource_renamed taken reaches renamed
  rw [first] at run
  subst raised
  have ended : updateZipLocked env d.start = (.error .zipImport,
      cleanUp env (interrupted env d.rows (withBaseline env manifest) (swappedIn env d.start) stage)) := by
    rw [updateZipLocked_begun env d begun]
    unfold ensure
    rw [handle_of_error run]
    rfl
  have unfailed : (interrupted env d.rows (withBaseline env manifest) (swappedIn env d.start)
      stage).restoreFailed = false := by
    obtain ⟨_, _, _, _, _, same⟩ :=
      interrupted_frame d.rows (withBaseline env manifest) (swappedIn env d.start) stage
    rw [same]
    rfl
  rw [allOrNothing_iff ended, prepared]
  simp [cleanUp, unfailed]

theorem allOrNothing_rolledBack (raised : exc ≠ .zipImport) :
    AllOrNothing env d ↔
      if env.restoreFault .current then
        env.remains .rollbackCurrent = d.current ∨ env.remains .finalOld = d.current
      else otherRestoreFails env d = true ∨
        ∃ manifest, preparedManifest env = some manifest ∧
          Undone env d stage (withBaseline env manifest) := by
  obtain ⟨manifest, prepared, run⟩ := replaceSource_renamed taken reaches renamed
  rw [first] at run
  obtain ⟨tree, current⟩ : ∃ tree, d.current = some tree := by
    cases current : d.current with
    | none => simp [failsBeforeSwap, Disk.start, current] at reaches
    | some tree => exact ⟨tree, rfl⟩
  let s := interrupted env d.rows (withBaseline env manifest) (swappedIn env d.start) stage
  obtain ⟨_, _, _, _, _, frame⟩ :=
    interrupted_frame d.rows (withBaseline env manifest) (swappedIn env d.start) stage
  have kept : s.old = some tree := by
    rw [show s = _ from frame]
    exact current
  have installed : s.current = some env.extracted := by
    rw [show s = _ from frame]
    rfl
  have unfailed : s.restoreFailed = false := by
    rw [show s = _ from frame]
    rfl
  have bak : s.bak = (d.originalZip <|> d.bak) := by
    rw [show s = _ from frame]
    rfl
  have swapped : s.currentSwapped = true := by
    rw [show s = _ from frame]
    rfl
  have ended {t : State Json Tree} (rolled : rollbackSwappedCurrent env ⟨d.manifest, d.rows⟩ s = (.ok (), t)) :
      updateZipLocked env d.start = (.error .zipImport, cleanUp env t) := by
    rw [updateZipLocked_begun env d begun]
    unfold ensure
    rw [handle_of_error run]
    change ((undo env ⟨d.manifest, d.rows⟩ exc s).1, cleanUp env (undo env ⟨d.manifest, d.rows⟩ exc s).2) = _
    cases exc <;> simp_all [undo, bind_apply]
  cases stuck : env.restoreFault .current with
  | true =>
    obtain ⟨t, rolled, failed, now, old⟩ := rollback_stuck env ⟨d.manifest, d.rows⟩ s kept stuck
    rw [allOrNothing_iff (ended rolled)]
    simp [cleanUp, failed, now, old, kept, installed, current, removed]
  | false =>
    obtain ⟨t, rolled, failed, now, world⟩ := rollback_restores env ⟨d.manifest, d.rows⟩ s kept stuck
    have fails : restFails env ⟨d.manifest, d.rows⟩ s = otherRestoreFails env d := by
      simp [restFails, otherRestoreFails, bak]
    rw [allOrNothing_iff (ended rolled)]
    cases other : otherRestoreFails env d with
    | true => simp [cleanUp, failed, fails, other, now, current]
    | false =>
      have restored : t.toWorld = rolledBack env d (withBaseline env manifest) stage := by
        rw [world (fails.trans other), rolledBack, current]
      have undone := @rolledBack_iff Json Tree env d (withBaseline env manifest) stage
      rw [prepared]
      simp only [cleanUp, failed, fails, other, unfailed, restored]
      simpa using undone

end taken

end swapped

/-- What an update may leave, by how far it has come. -/
def Safe (env : Env Json Tree) (d : Disk Json Tree) : Prop :=
  match outcome env d with
  | .untouched => True
  | .stopped => afterStop env d.toWorld = d.toWorld
  | .lost => False
  | .swapped stage exc =>
    if exc = .zipImport then
      ∃ manifest, preparedManifest env = some manifest ∧
        (interrupted env d.rows (withBaseline env manifest) (swappedIn env d.start) stage).toWorld = d.toWorld
    else if env.restoreFault .current then
      env.remains .rollbackCurrent = d.current ∨ env.remains .finalOld = d.current
    else otherRestoreFails env d = true ∨
      ∃ manifest, preparedManifest env = some manifest ∧ Undone env d stage (withBaseline env manifest)
  | .committed => True

/-- An update is all or nothing exactly if it raises before the old runtime is stopped, or what is
done after that is undone: the stop by nobody, the swap by the second rename or the rollback, and
the rest by the rollback as far as it restores it. -/
theorem allOrNothing_iff_safe (env : Env Json Tree) (d : Disk Json Tree) : AllOrNothing env d ↔ Safe env d := by
  unfold Safe outcome
  by_cases untouched : (!begins env d || refuses env) = true
  · simp only [if_pos untouched, iff_true]
    exact allOrNothing_untouched untouched
  rw [if_neg untouched]
  simp only [Bool.or_eq_true, not_or, Bool.not_eq_true, Bool.not_eq_false'] at untouched
  obtain ⟨begun, taken⟩ := untouched
  by_cases fails : failsBeforeSwap env d.start = true
  · rw [if_pos fails]
    exact allOrNothing_stopped begun taken fails
  rw [if_neg fails]
  rw [Bool.not_eq_true] at fails
  by_cases fault : (env.fault .swapIn).isSome = true
  · rw [if_pos fault]
    by_cases undone : swapUndone env = true
    · rw [if_pos undone]
      exact allOrNothing_undone begun taken fails undone
    · rw [if_neg undone]
      rw [Bool.not_eq_true] at undone
      simp only [iff_false]
      exact not_allOrNothing_lost begun taken fails fault undone
  rw [if_neg fault]
  have renamed : env.fault .swapIn = none := by simpa using fault
  cases first : firstFault env with
  | none =>
    simp only [iff_true]
    exact allOrNothing_committed begun taken fails renamed first
  | some found =>
    obtain ⟨stage, exc⟩ := found
    by_cases raised : exc = .zipImport
    · simp only [if_pos raised]
      exact allOrNothing_zipImport begun taken fails renamed first raised
    · simp only [if_neg raised]
      exact allOrNothing_rolledBack begun taken fails renamed first raised

/-! ## An update without `--keep-data` -/

def pageManifest : InstanceManifest String where
  id := "page"
  name := "Page"
  nameSource := some "user"
  version := "1"
  kind := .static
  runtime := .sharedStatic
  servingMode := .sharedStatic
  desiredState := .running
  status := .running
  static := some { hostPort := some 20001 }
  createdAt := "2026-07-01T10:00:00Z"
  updatedAt := "2026-07-01T10:00:00Z"

/-- Every call returns but the last one, which records the update. -/
def eventFails : Env String String where
  importer := {
    truthy := (· ≠ "")
    generatePlans := fun _ => .ok []
    dumpPlan := (·.planId)
    dumpContract := fun _ => ""
    appOriginalZip := fun id => s!"/srv/lwa/apps/{id}/original.zip"
    appCurrent := fun id => s!"/srv/lwa/apps/{id}/current"
    appComposePath := fun id => s!"/srv/lwa/apps/{id}/docker/compose.yaml"
    appDockerfilePath := fun id => s!"/srv/lwa/apps/{id}/docker/Dockerfile"
    nowIso := "2026-07-08T10:00:00Z" }
  oldManifest := pageManifest
  keepData := false
  forceKindChange := false
  expectedRevision := none
  zip := [2]
  newHash := "b5bb9d80"
  fault := fun _ => none
  stageFault := fun stage => if stage = .event then some .lwa else none
  restoreFault := fun _ => false
  remains := fun _ => none
  extracted := "new page"
  extractedPartly := none
  detection := {
    kind := some .static
    runtime := some .sharedStatic
    servingMode := some .sharedStatic
    resourceProfile := .tiny }
  fingerprints := ""
  stopped := ⟨[], none, none, none, false⟩
  bakPartly := none
  zipPartly := none
  manifestPartly := []
  autoTitled := false
  refreshedName := ""
  stripped := false
  text := fun _ => [3]
  emptyTree := ""
  sourceSize := 8
  dataSize := 0

def page : Disk String String where
  current := some "old page"
  manifest := [1]
  originalZip := some [1]
  env := none
  data := some "uploads"
  rows := {
    instances := some (upsertInstance eventFails.importer pageManifest none)
    static := some ⟨"public", "caddy", "port", some 20001, none, none, true⟩
    container := none
    resources := none }
  serving := true
  staging := none
  old := none
  bak := none

/-- The update fails and is rolled back, and the data of the instance are gone. -/
theorem purge_not_undone : ∃ t, updateZipLocked eventFails page.start = (.error .zipImport, t) ∧
    t.restoreFailed = false ∧ t.current = page.current ∧ page.data = some "uploads" ∧ t.data = some "" ∧
    ¬AllOrNothing eventFails page := by
  obtain ⟨t, run, facts⟩ : ∃ t, updateZipLocked eventFails page.start = (.error .zipImport, t) ∧
      t.restoreFailed = false ∧ t.current = page.current ∧ page.data = some "uploads" ∧ t.data = some "" :=
    ⟨_, rfl, rfl, rfl, rfl, rfl⟩
  obtain ⟨restored, current, before, purged⟩ := facts
  refine ⟨t, run, restored, current, before, purged, ?_⟩
  intro whole
  have same := (whole _ _ run).1 restored
  have data := congrArg (·.data) same
  rw [purged, before] at data
  simp at data

end LocalWebAccess.UpdateTransaction
