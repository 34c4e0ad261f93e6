import LocalWebAccess.BuildQueueMachine

/-!
# The steps of runs and cancels

Each step function is taken apart once, into the inductive relation of all that
a step can do. What an upsert, an update or a reclaim can do to the row, as its
owner and as other threads see it, is said once as well.
-/
namespace LocalWebAccess.BuildQueueMachine
open BuildTaskTable

/-- The effect of one upsert by the run of `k` in process `p`. -/
inductive Written (p : Pid) (k : BuildToken) (task : BuildTask) (status : BuildStatus)
    (replaces : Bool) : Option TaskRow → Option TaskRow → Prop where
  | kept (r) : Written p k task status replaces r r
  | fresh (r) (row : TaskRow)
      (before : r = none ∨ replaces = true ∧ ∃ old, r = some old ∧ old.buildToken ≠ k)
      (token : row.buildToken = k) (owner : row.ownerPid = p) (new : row.status = status)
      (requested : row.cancelRequestedAt = task.cancelRequestedAt) :
      Written p k task status replaces r (some row)
  | merged (old row : TaskRow) (before : old.buildToken = k) (token : row.buildToken = k)
      (owner : row.ownerPid = p) (allowed : Allowed old.status status) (new : row.status = status)
      (requested : row.cancelRequestedAt = (task.cancelRequestedAt <|> old.cancelRequestedAt)) :
      Written p k task status replaces (some old) (some row)

section persist

variable {identity : Pid → String} {p : Pid} {k : BuildToken} {e : Choice} {task : BuildTask}
  {status : BuildStatus} {replaces : Bool} {row : Option TaskRow}

theorem persistTask_written :
    Written p k task status replaces row (persistTask identity p k e task status replaces row).1 := by
  unfold persistTask
  split_ifs
  · exact .kept _
  cases row with
  | none => exact .fresh _ _ (.inl rfl) rfl rfl rfl rfl
  | some old =>
    simp only [upsertRow]
    split_ifs with other replacing allowed
    · exact .fresh _ _ (.inr ⟨replacing, old, rfl, other⟩) rfl rfl rfl rfl
    · exact .kept _
    · exact .merged _ _ (not_not.mp other) (not_not.mp other) rfl allowed rfl rfl
    · exact .kept _

/-- An accepted persist leaves the status in the row of the run's own generation. -/
theorem persistTask_accepted
    (h : (persistTask identity p k e task status replaces row).2 = some true) :
    ∃ new, (persistTask identity p k e task status replaces row).1 = some new ∧
      new.buildToken = k ∧ new.status = status := by
  unfold persistTask at h ⊢
  split_ifs at h ⊢
  cases row with
  | none => exact ⟨_, rfl, rfl, rfl⟩
  | some old =>
    simp only [upsertRow] at h ⊢
    split_ifs at h ⊢ with other replacing allowed
    · exact ⟨_, rfl, rfl, rfl⟩
    · cases h
    · exact ⟨_, rfl, not_not.mp other, rfl⟩
    · cases h

theorem persistTask_refused
    (h : (persistTask identity p k e task status replaces row).2 ≠ some true) :
    (persistTask identity p k e task status replaces row).1 = row := by
  unfold persistTask at h ⊢
  split_ifs at h ⊢ with fault
  · rfl
  · exact upsertRow_of_false (by simpa using h)

/-- A persist that does not raise is accepted unless the row is of another
generation or its status does not lead to the new one. -/
theorem persistTask_settles (identity : Pid → String) (p : Pid) (k : BuildToken) (task : BuildTask)
    (status : BuildStatus) (row : Option TaskRow) (quiet : e.fault = false)
    (allowed : ∀ old, row = some old → old.buildToken = k → Allowed old.status status) :
    ∃ new, (persistTask identity p k e task status false row).1 = some new ∧
      (new.buildToken = k → new.status = status) := by
  simp only [persistTask, quiet, Bool.false_eq_true, if_false]
  cases row with
  | none => exact ⟨_, rfl, fun _ => rfl⟩
  | some old =>
    by_cases same : old.buildToken = k
    · simp only [upsertRow, same, ne_eq, not_true_eq_false, if_false, allowed old rfl same, if_true]
      exact ⟨_, rfl, fun _ => rfl⟩
    · simp only [upsertRow, same, ne_eq, not_false_eq_true, if_true, Bool.false_eq_true, if_false]
      exact ⟨old, rfl, fun token => absurd token same⟩

end persist

/-- How another thread may change the row as the run of `k` sees it. `stopped` holds of
the rows that it may set to `cancelled`. -/
inductive Moved (k : BuildToken) (stopped : TaskRow → Prop) :
    Option TaskRow → Option TaskRow → Prop where
  | same (r) : Moved k stopped r r
  | other (r) (row : TaskRow) (token : row.buildToken ≠ k) : Moved k stopped r (some row)
  | advance (old row : TaskRow) (before : old.buildToken = k) (token : row.buildToken = k)
      (owner : row.ownerPid = old.ownerPid)
      (requested : old.cancelRequestedAt ≠ none → row.cancelRequestedAt ≠ none)
      (allowed : Allowed old.status row.status)
      (new : row.status = old.status ∧ row.cancelRequestedAt = old.cancelRequestedAt ∨
        row.status = .cancelling ∨ row.status = .cancelFailed ∨
        row.status = .cancelled ∧ stopped old) :
      Moved k stopped (some old) (some row)

/-- The upserts of one generation do not touch another. -/
theorem Written.moved {p : Pid} {k k' : BuildToken} {task : BuildTask} {status : BuildStatus}
    {replaces : Bool} {r r' : Option TaskRow} {stopped : TaskRow → Prop}
    (h : Written p k task status replaces r r') (other : k ≠ k') : Moved k' stopped r r' := by
  cases h with
  | kept => exact .same _
  | fresh _ row _ token => exact .other _ row (token ▸ other)
  | merged old row _ token => exact .other _ row (token ▸ other)

theorem updateRow_moved (now : Time) (u : UpdateArgs) (r : Option TaskRow) (k : BuildToken)
    (stopped : TaskRow → Prop)
    (status : u.status = none ∧ u.cancelRequestedAt = none ∨ u.status = some .cancelling ∨
      u.status = some .cancelFailed ∨
      u.status = some .cancelled ∧ ∀ row, r = some row → row.buildToken = u.buildToken → stopped row) :
    Moved k stopped r (updateRow now u r).1 := by
  cases r with
  | none => exact .same _
  | some old =>
    simp only [updateRow]
    split_ifs with other allowed
    · exact .same _
    · by_cases mine : old.buildToken = k
      · refine .advance old _ mine mine rfl ?_ allowed ?_
        · intro requested
          cases h : u.cancelRequestedAt <;> simp [UpdateArgs.merge, h, requested]
        · rcases status with ⟨status, at'⟩ | status | status | ⟨status, stops⟩
          · exact .inl ⟨by simp [UpdateArgs.merge, status], by simp [UpdateArgs.merge, at']⟩
          · exact .inr (.inl (by simp [UpdateArgs.merge, status]))
          · exact .inr (.inr (.inl (by simp [UpdateArgs.merge, status])))
          · exact .inr (.inr (.inr
              ⟨by simp [UpdateArgs.merge, status], stops old rfl (not_not.mp other)⟩))
      · exact .other _ _ mine
    · exact .same _

theorem reclaimRow_moved (now : Time) (alive : Bool) (row : TaskRow) (k : BuildToken)
    (stopped : TaskRow → Prop) (stops : alive = false → stopped row) :
    Moved k stopped (some row) (some (reclaimRow now alive row)) := by
  unfold reclaimRow
  split_ifs with h
  · by_cases mine : row.buildToken = k
    · refine .advance row _ mine mine rfl ?_ h.1.allowed_cancelled ?_
      · intro requested
        cases at' : row.cancelRequestedAt <;> simp [TaskRow.reclaim, at']
      · exact .inr (.inr (.inr ⟨rfl, stops h.2⟩))
    · exact .other _ _ mine
  · exact .same _

/-- Where a run can go without changing anything it sees. -/
def RunPc.goes : RunPc → List RunPc
  | .acquire => [.check .slot, .check .queueFull, .caughtOther]
  | .acquireWait => [.check .slot, .check .queueTimeout, .caughtOther]
  | .check .queueFull => [.markQueued, .caughtOther]
  | .check .queueTimeout => [.markTimeout, .caughtOther]
  | .check _ => [.caughtOther]
  | .markQueued => [.acquireWait]
  | .start => [.builder, .caughtOther]
  | .builder => [.check .finish, .caughtCancelled, .caughtOther]
  | _ => []

/-- The persists outside the lock: the status, whether it may replace the generation,
and where the run goes when the persist is accepted and when it is not. -/
def RunPc.persists : RunPc → Option (BuildStatus × Bool × RunPc × RunPc)
  | .persistQueued => some (.queued, true, .acquire, .acquire)
  | .persistRequeued => some (.queued, false, .acquireWait, .acquireWait)
  | .persistTimeout => some (.failed, false, .caughtOther, .caughtOther)
  | .persistBuilding => some (.building, false, .start, .check .refusedBuilding)
  | .persistSuccess => some (.success, false, .ended, .check .refusedSuccess)
  | .persistCancelled => some (.cancelled, false, .ended, .ended)
  | _ => none

/-- Everything a step of the run of `k` can do to what it sees. -/
inductive RunMove (identity : Pid → String) (p : Pid) (k : BuildToken) (e : Choice) (v : View) :
    RunPc → RunPc → View → Prop where
  | goes (pc pc') (route : pc' ∈ pc.goes) : RunMove identity p k e v pc pc' v
  | persists (pc pc' status replaces accepted refused)
      (route : pc.persists = some (status, replaces, accepted, refused))
      (next : if (persistTask identity p k e v.task status replaces v.row).2 = some true
        then pc' = accepted else pc' = refused) :
      RunMove identity p k e v pc pc'
        { v with row := (persistTask identity p k e v.task status replaces v.row).1 }
  | enters (site) (free : v.guard = none)
      (why : Cancelling v.task.status ∨ site = .refusedBuilding ∨ site = .refusedSuccess) :
      RunMove identity p k e v (.check site) (.pending site) { v with guard := some (.run k) }
  | rereads (site row) (free : v.guard = none) (unmarked : ¬ Cancelling v.task.status)
      (found : v.row = some row) (requested : IsCancelRequested k row) :
      RunMove identity p k e v (.check site) (.readAgain site) { v with guard := some (.run k) }
  | builds (free : v.guard = none) (unmarked : ¬ Cancelling v.task.status) :
      RunMove identity p k e v (.check .slot) .persistBuilding
        { v with task := { v.task with status := .building } }
  | succeeds (free : v.guard = none) (unmarked : ¬ Cancelling v.task.status) :
      RunMove identity p k e v (.check .finish) .persistSuccess
        { v with task := { v.task with status := .success } }
  | copies (site) :
      RunMove identity p k e v (.readAgain site) (.pending site) { v with task := copyRequest e v.row }
  | aborts (pc) (where' : pc = .pending .slot ∨ ∃ site, pc = .readAgain site) :
      RunMove identity p k e v pc .caughtOther { v with guard := none }
  | finishes (site) :
      RunMove identity p k e v (.pending site) .caughtOther (finishTaskLocal identity p k e v)
  | requeues (free : v.guard = none) (live : v.task.status ≠ .cancelled) :
      RunMove identity p k e v .markQueued .persistRequeued
        { v with task := { v.task with status := .queued } }
  | timesOut :
      RunMove identity p k e v .markTimeout .persistTimeout
        { v with task := { v.task with status := .failed } }
  | catches (free : v.guard = none) :
      RunMove identity p k e v .caughtCancelled .persistCancelled
        { v with task := { v.task with status := .cancelled } }
  | settles (free : v.guard = none) :
      RunMove identity p k e v .caughtOther .ended
        { v with
          task := { v.task with status := settledStatus v.task.status }
          row := (persistTask identity p k e
            { v.task with status := settledStatus v.task.status }
            (settledStatus v.task.status) false v.row).1 }

theorem notRequested_move {identity : Pid → String} {p : Pid} {k : BuildToken} {e : Choice} {v : View}
    (site : Site) (free : v.guard = none) (unmarked : ¬ Cancelling v.task.status) :
    RunMove identity p k e v (.check site) (notRequested k v site).1 (notRequested k v site).2 := by
  cases site with
  | queueFull => exact .goes _ _ (by simp [RunPc.goes, notRequested])
  | queueTimeout => exact .goes _ _ (by simp [RunPc.goes, notRequested])
  | slot => exact .builds free unmarked
  | refusedBuilding => exact .enters _ free (.inr (.inl rfl))
  | finish => exact .succeeds free unmarked
  | refusedSuccess => exact .enters _ free (.inr (.inr rfl))

/-- The steps of a run, one by one. -/
theorem runStep_move {identity : Pid → String} {p : Pid} {k : BuildToken} {e : Choice} {v v' : View}
    {pc pc' : RunPc} (h : runStep identity p k e v pc = some (pc', v')) :
    RunMove identity p k e v pc pc' v' := by
  cases pc with
  | persistQueued => cases h; exact .persists _ _ _ _ _ _ rfl (by simp)
  | persistRequeued => cases h; exact .persists _ _ _ _ _ _ rfl (by simp)
  | persistTimeout => cases h; exact .persists _ _ _ _ _ _ rfl (by simp)
  | persistCancelled => cases h; exact .persists _ _ _ _ _ _ rfl (by simp)
  | persistBuilding =>
    cases h
    exact .persists _ _ _ _ _ _ rfl (by split_ifs <;> rfl)
  | persistSuccess =>
    cases h
    exact .persists _ _ _ _ _ _ rfl (by split_ifs <;> rfl)
  | acquire =>
    simp only [runStep] at h
    split at h <;> cases h <;> exact .goes _ _ (by simp [RunPc.goes])
  | acquireWait =>
    simp only [runStep] at h
    split at h <;> cases h <;> exact .goes _ _ (by simp [RunPc.goes])
  | builder =>
    simp only [runStep] at h
    split at h <;> cases h <;> exact .goes _ _ (by simp [RunPc.goes])
  | start =>
    simp only [runStep] at h
    split_ifs at h <;> cases h <;> exact .goes _ _ (by simp [RunPc.goes])
  | check site =>
    simp only [runStep] at h
    split_ifs at h with locked marked fault
    · cases h
      exact .enters site (not_not.mp locked) (.inl marked)
    · cases h
      exact .goes _ _ (by cases site <;> simp [RunPc.goes])
    · have unrequested : RunMove identity p k e v (.check site) (notRequested k v site).1
          (notRequested k v site).2 := notRequested_move site (not_not.mp locked) marked
      cases found : v.row with
      | none =>
        simp only [found] at h
        rwa [Option.some.inj h] at unrequested
      | some row =>
        simp only [found] at h
        split_ifs at h with requested
        · cases h
          have move : RunMove identity p k e v (.check site) (.readAgain site)
              { v with guard := some (.run k) } := .rereads site row (not_not.mp locked) marked found requested
          rwa [found] at move
        · rwa [Option.some.inj h] at unrequested
  | readAgain site =>
    simp only [runStep] at h
    split_ifs at h <;> cases h
    · exact .aborts _ (.inr ⟨site, rfl⟩)
    · exact .copies site
  | pending site =>
    simp only [runStep] at h
    split_ifs at h with aborted <;> cases h
    · exact .aborts _ (.inl (by rw [aborted.1]))
    · exact .finishes site
  | markQueued =>
    simp only [runStep] at h
    split_ifs at h with locked cancelled <;> cases h
    · exact .goes _ _ (by simp [RunPc.goes])
    · exact .requeues (not_not.mp locked) cancelled
  | markTimeout => cases h; exact .timesOut
  | caughtCancelled =>
    simp only [runStep] at h
    split_ifs at h with locked
    cases h
    exact .catches (not_not.mp locked)
  | caughtOther =>
    simp only [runStep] at h
    split_ifs at h with locked
    cases h
    exact .settles (not_not.mp locked)
  | ended => cases h

/-- The steps of a cancel that change nothing it sees. -/
inductive CancelTurn (subject : Option BuildToken) (v : CancelView) : CancelPc → CancelPc → Prop where
  | joins : CancelTurn subject v .called .waiting
  | asks : CancelTurn subject v .called .readRow
  | gaveUp (k) (latest : subject = some k) : CancelTurn subject v .waiting (.expire k)
  | readQueued (k) : CancelTurn subject v .readRow (.casQueued k)
  | readBuilding (row) (found : v.row = some row) : CancelTurn subject v .readRow (.casCancelling row)
  | polls : CancelTurn subject v .polling .polling
  | stopsPolling : CancelTurn subject v .polling .expirePolling
  | readStuck (k) : CancelTurn subject v .expirePolling (.casFailed k)

/-- The row updates of a cancel, with the place each is made from and leads to. -/
inductive CancelUpdate (dead : Pid → Bool) : CancelPc → UpdateArgs → CancelPc → Prop where
  | cancelFailing (k outcome) (quiet : outcome ≠ .cancelled) :
      CancelUpdate dead (.cancelFailing k) (requestArgs k .cancelFailed none) (.returned outcome)
  | casQueued (k now outcome) :
      CancelUpdate dead (.casQueued k) (requestArgs k .cancelled (some now)) (.returned outcome)
  | casCancelling (row now) :
      CancelUpdate dead (.casCancelling row) (requestArgs row.buildToken .cancelling (some now)) .polling
  | ownerDead (row now) (gone : dead row.ownerPid = true) :
      CancelUpdate dead (.casCancelling row) (requestArgs row.buildToken .cancelling (some now))
        (.casReclaimed row.buildToken)
  | casReclaimed (k) :
      CancelUpdate dead (.casReclaimed k) (requestArgs k .cancelled none) (.returned .cancelled)
  | casFailed (k) :
      CancelUpdate dead (.casFailed k) (requestArgs k .cancelFailed none) (.returned .cancelFailed)

/-- A task whose cancel is given up. -/
def expired (task : BuildTask) : BuildTask :=
  if task.status = .cancelling then { task with status := .cancelFailed } else task

/-- Everything a step of the cancel `c` can do to what it sees. -/
inductive CancelMove (identity : Pid → String) (dead : Pid → Bool) (p : Pid) (c : CancelId)
    (e : Choice) (subject : Option BuildToken) (v : CancelView) :
    CancelPc → CancelPc → CancelView → Prop where
  | answers (pc outcome) (quiet : outcome ≠ .cancelled) :
      CancelMove identity dead p c e subject v pc (.returned outcome) v
  | remembers (pc k task) (free : v.guard = none) (where' : pc = .called ∨ pc = .waiting)
      (latest : subject = some k) (found : v.task = some task) (cancelled : task.status = .cancelled) :
      CancelMove identity dead p c e subject v pc (.returned .cancelled) v
  | sees (pc row) (where' : pc = .readRow ∨ pc = .polling) (found : v.row = some row)
      (cancelled : row.status = .cancelled) :
      CancelMove identity dead p c e subject v pc (.returned .cancelled) v
  | vanished (gone : v.row = none) :
      CancelMove identity dead p c e subject v .polling (.returned .cancelled) v
  | turns (pc pc') (turn : CancelTurn subject v pc pc') :
      CancelMove identity dead p c e subject v pc pc' v
  | marksQueued (k task) (free : v.guard = none) (latest : subject = some k)
      (found : v.task = some task) (queued : task.status = .queued) :
      CancelMove identity dead p c e subject v .called (.markedQueued k)
        { v with task := some ⟨.cancelled, some e.now⟩, guard := some (.cancel c k) }
  | marksBuilding (k task) (free : v.guard = none) (latest : subject = some k)
      (found : v.task = some task) (building : task.status = .building) :
      CancelMove identity dead p c e subject v .called (.markedBuilding k)
        { v with task := some ⟨.cancelling, some e.now⟩, guard := some (.cancel c k) }
  | persistsQueued (k task) (found : v.task = some task) :
      CancelMove identity dead p c e subject v (.markedQueued k)
        (.returned (if e.eventFault then .raised else .cancelled))
        { v with row := (persistTask identity p k e task .cancelled false v.row).1, guard := none }
  | persistsBuilding (k task pc') (found : v.task = some task)
      (next : pc' = .waiting ∨ pc' = .returned .raised) :
      CancelMove identity dead p c e subject v (.markedBuilding k) pc'
        { v with row := (persistTask identity p k e task .cancelling false v.row).1, guard := none }
  | expires (k task) (free : v.guard = none) (found : v.task = some task) :
      CancelMove identity dead p c e subject v (.expire k) (.cancelFailing k)
        { v with task := some (expired task) }
  | updates (pc u pc') (update : CancelUpdate dead pc u pc') :
      CancelMove identity dead p c e subject v pc pc' { v with row := (updateRow e.now u v.row).1 }

theorem finalOutcome_eq_cancelled {s : BuildStatus} :
    finalOutcome s = some .cancelled ↔ s = .cancelled := by
  cases s <;> simp [finalOutcome]

section cancelMove

variable {identity : Pid → String} {dead : Pid → Bool} {p : Pid} {c : CancelId} {e : Choice}
  {subject : Option BuildToken} {v v' : CancelView} {pc pc' : CancelPc}

theorem ite_raised_ne {b : Bool} {o : Outcome} (h : o ≠ .cancelled) :
    (if b = true then Outcome.raised else o) ≠ .cancelled := by
  split_ifs
  · decide
  · exact h

theorem cancelCalled_move (free : v.guard = none)
    (h : cancelCalled c e v subject v.task = (pc', v')) :
    CancelMove identity dead p c e subject v .called pc' v' := by
  cases latest : subject with
  | none =>
    rw [latest] at h
    cases h
    exact .turns _ _ .asks
  | some k =>
    cases found : v.task with
    | none =>
      rw [latest, found] at h
      cases h
      exact .turns _ _ .asks
    | some task =>
      rw [latest, found] at h
      simp only [cancelCalled] at h
      cases final : finalOutcome task.status with
      | some outcome =>
        simp only [final] at h
        cases h
        by_cases quiet : outcome = .cancelled
        · subst quiet
          exact .remembers _ k task free (.inl rfl) rfl found (finalOutcome_eq_cancelled.mp final)
        · exact .answers _ _ quiet
      | none =>
        simp only [final] at h
        split_ifs at h with queued building
        · cases h
          exact .marksQueued k task free rfl found queued
        · cases h
          exact .marksBuilding k task free rfl found building
        · cases h
          exact .turns _ _ .joins

/-- The steps of a cancel, one by one; the cancels that hold the lock for a task have one. -/
theorem cancelStep_move (h : cancelStep identity dead p c e subject v pc = some (pc', v'))
    (some' : ∀ k, pc.subject none = some k → ∃ task, v.task = some task) :
    CancelMove identity dead p c e subject v pc pc' v' := by
  obtain ⟨row, task', guard⟩ := v
  cases pc with
  | called =>
    simp only [cancelStep] at h
    split_ifs at h with locked
    exact cancelCalled_move (not_not.mp locked) (Option.some.inj h)
  | markedQueued k =>
    obtain ⟨task, rfl⟩ := some' k rfl
    cases h
    exact .persistsQueued k task rfl
  | markedBuilding k =>
    obtain ⟨task, rfl⟩ := some' k rfl
    cases h
    refine .persistsBuilding k task _ rfl ?_
    split_ifs
    · exact .inr rfl
    · exact .inl rfl
  | waiting =>
    rcases subject with _ | k <;> rcases task' with _ | task
    case some.some =>
      simp only [cancelStep] at h
      split_ifs at h with locked fault cancelled ended
      · cases h
        exact .answers _ _ (by decide)
      · cases h
        exact .remembers _ k task (not_not.mp locked) (.inr rfl) rfl rfl cancelled
      · cases h
        exact .answers _ _ (by decide)
      · cases h
        exact .turns _ _ (.gaveUp k rfl)
    all_goals
      simp only [cancelStep] at h
      split_ifs at h <;> cases h <;> exact .answers _ _ (by decide)
  | expire k =>
    obtain ⟨task, rfl⟩ := some' k rfl
    simp only [cancelStep] at h
    split_ifs at h with locked
    cases h
    exact .expires k task (not_not.mp locked) rfl
  | cancelFailing k =>
    simp only [cancelStep] at h
    split_ifs at h <;> cases h
    · exact .answers _ _ (by decide)
    · exact .updates _ _ _ (.cancelFailing k _ (by decide))
    · exact .updates _ _ _ (.cancelFailing k _ (by decide))
  | readRow =>
    simp only [cancelStep] at h
    split_ifs at h with fault
    · cases h
      exact .answers _ _ (by decide)
    · cases h
      cases row with
      | none => exact .answers _ _ (ite_raised_ne (by decide))
      | some row =>
        simp only [cancelRead]
        cases final : finalOutcome row.status with
        | some outcome =>
          by_cases quiet : outcome = .cancelled
          · subst quiet
            exact .sees _ row (.inl rfl) rfl (finalOutcome_eq_cancelled.mp final)
          · exact .answers _ _ quiet
        | none =>
          split_ifs
          · exact .turns _ _ (.readQueued _)
          · exact .turns _ _ (.readBuilding row rfl)
  | casQueued k =>
    simp only [cancelStep] at h
    split_ifs at h <;> cases h
    · exact .answers _ _ (by decide)
    · exact .updates _ _ _ (.casQueued k _ _)
    · exact .updates _ _ _ (.casQueued k _ _)
  | casCancelling old =>
    simp only [cancelStep] at h
    split_ifs at h with fault inconsistent reclaims
    · cases h
      exact .answers _ _ (by decide)
    · cases h
      have gone : dead old.ownerPid = true := by
        by_contra alive
        exact inconsistent ⟨reclaims.2, by simpa using alive⟩
      exact .updates _ _ _ (.ownerDead old _ gone)
    · cases h
      exact .updates _ _ _ (.casCancelling old _)
  | casReclaimed k =>
    simp only [cancelStep] at h
    split_ifs at h <;> cases h
    · exact .answers _ _ (by decide)
    · exact .updates _ _ _ (.casReclaimed k)
  | polling =>
    simp only [cancelStep] at h
    split_ifs at h with expired fault
    · cases h
      exact .turns _ _ .stopsPolling
    · cases h
      exact .answers _ _ (by decide)
    · cases h
      cases row with
      | none => exact .vanished rfl
      | some row =>
        simp only [cancelPolled]
        cases final : finalOutcome row.status with
        | some outcome =>
          by_cases quiet : outcome = .cancelled
          · subst quiet
            exact .sees _ row (.inr rfl) rfl (finalOutcome_eq_cancelled.mp final)
          · exact .answers _ _ quiet
        | none => exact .turns _ _ .polls
  | expirePolling =>
    simp only [cancelStep] at h
    split_ifs at h with fault
    · cases h
      exact .answers _ _ (by decide)
    · split at h <;> cases h
      · exact .answers _ _ (by decide)
      · exact .turns _ _ (.readStuck _)
  | casFailed k =>
    simp only [cancelStep] at h
    split_ifs at h <;> cases h
    · exact .answers _ _ (by decide)
    · exact .updates _ _ _ (.casFailed k)
  | returned outcome => cases h

end cancelMove

theorem subject_of_none {pc : CancelPc} {current : Option BuildToken} {k : BuildToken}
    (h : pc.subject none = some k) : pc.subject current = some k := by
  cases pc <;> first | exact h | cases h

/-- Everything one action can do to the system. -/
inductive Stepped (s : State) : Action → State → Prop where
  | register (p k) (free : s.guard p = none) (fresh : s.runs k = none) :
      Stepped s (.register p k) (s.registerTask p k)
  | runStep (k e p pc pc' v') (run : s.runs k = some (p, pc)) (alive : s.dead p = false)
      (move : RunMove s.identity p k e (s.view p k) pc pc' v') :
      Stepped s (.runStep k e) (s.afterRun p k (pc', v'))
  | cancelCall (p c) : Stepped s (.cancelCall p c)
      { s with cancels := Function.update s.cancels c (some (p, .called)) }
  | cancelStep (c e p pc pc' v') (cancel : s.cancels c = some (p, pc))
      (move : CancelMove s.identity s.dead p c e (pc.subject (s.tasks p))
        (s.cancelView p (pc.subject (s.tasks p))) pc pc' v') :
      Stepped s (.cancelStep c e) (s.afterCancel p c (pc.subject (s.tasks p)) (pc', v'))
  | recordWorker (k now pid pgid workerIdentity clearWorker) :
      Stepped s (.recordWorker k now pid pgid workerIdentity clearWorker)
        { s with row := (updateRow now ⟨k, none, pid, pgid, workerIdentity, none, clearWorker⟩ s.row).1 }
  | reclaimNone (now alive) : Stepped s (.reclaim now alive) s
  | reclaim (now alive row) (found : s.row = some row)
      (gone : alive = false → s.dead row.ownerPid = true) :
      Stepped s (.reclaim now alive) { s with row := some (reclaimRow now alive row) }
  | die (p) : Stepped s (.die p) { s with dead := Function.update s.dead p true }

theorem step_cases {s t : State} {a : Action} (h : step s a = some t) : Stepped s a t := by
  cases a with
  | register p k =>
    simp only [step] at h
    split_ifs at h with fresh
    cases h
    exact .register p k fresh.2.1 fresh.2.2
  | runStep k e =>
    simp only [step] at h
    cases run : s.runs k with
    | none => simp [run] at h
    | some r =>
      obtain ⟨p, pc⟩ := r
      simp only [run] at h
      split_ifs at h with dead
      obtain ⟨⟨pc', v'⟩, taken, rfl⟩ := Option.map_eq_some_iff.mp h
      exact .runStep k e p pc pc' v' run (by simpa using dead) (runStep_move taken)
  | cancelCall p c =>
    simp only [step] at h
    split_ifs at h
    cases h
    exact .cancelCall p c
  | cancelStep c e =>
    simp only [step] at h
    cases cancel : s.cancels c with
    | none => simp [cancel] at h
    | some r =>
      obtain ⟨p, pc⟩ := r
      simp only [cancel] at h
      split_ifs at h
      obtain ⟨⟨pc', v'⟩, taken, rfl⟩ := Option.map_eq_some_iff.mp h
      refine .cancelStep c e p pc pc' v' cancel (cancelStep_move taken ?_)
      intro k about
      exact ⟨s.mem k, by rw [subject_of_none about]; rfl⟩
  | recordWorker k now pid pgid workerIdentity clearWorker =>
    simp only [step] at h
    split at h
    · split_ifs at h
      cases h
      exact .recordWorker k now pid pgid workerIdentity clearWorker
    · cases h
  | reclaim now alive =>
    simp only [step] at h
    cases found : s.row with
    | none =>
      simp only [found] at h
      cases h
      exact .reclaimNone now alive
    | some row =>
      simp only [found] at h
      split_ifs at h with inconsistent
      cases h
      refine .reclaim now alive row found (fun denied => ?_)
      by_contra living
      exact inconsistent ⟨denied, by simpa using living⟩
  | die p =>
    cases h
    exact .die p

end LocalWebAccess.BuildQueueMachine
