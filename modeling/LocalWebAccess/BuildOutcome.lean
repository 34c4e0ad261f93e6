import LocalWebAccess.BuildQueueInvariants

/-!
# How a build ends in memory and in its row

A run settles its task in memory first and persists it afterwards, and the row
refuses transitions that the table of statuses does not have. The two agree
where every status the run writes in memory is one the row will take: no cancel
has been given up on before the run settles, and no other process has asked to
cancel a build that then fails for another reason.
-/
namespace LocalWebAccess.BuildQueueMachine
open BuildTaskTable GuardedRuns

/-- The row of a run that has ended, if it is still of its generation, has the final
status of its task in memory. -/
def Agrees (s : State) (k : BuildToken) : Prop :=
  ∀ row ∈ s.row, row.buildToken = k → row.status = (s.mem k).status ∧ row.status.Terminal

/-- A final status in memory is kept. -/
def Keeps (s t : State) (k : BuildToken) : Prop :=
  (s.mem k).status.Terminal → (t.mem k).status = (s.mem k).status

/-- No cancel has given up on the task when the run settles it, a timeout does not
overtake a cancel, and the last persist of the run finds a row that takes its status. -/
def OutcomeMeets (k : BuildToken) (e : Choice) (v : View) : RunPc → Prop
  | .markTimeout => v.task.status ≠ .cancelled
  | .check .finish | .check .refusedBuilding | .readAgain _ | .pending _ | .caughtCancelled =>
    v.task.status ≠ .cancelFailed
  | .persistSuccess => e.fault = false ∧
      ∀ row ∈ v.row, row.buildToken = k ∧ Allowed row.status .success
  | .persistCancelled => e.fault = false ∧
      ∀ row ∈ v.row, row.buildToken = k → row.status ≠ .cancelFailed
  | .caughtOther => v.task.status ≠ .cancelFailed ∧ e.fault = false ∧
      ∀ row ∈ v.row, row.buildToken = k → row.status ≠ .cancelFailed ∧
        (Cancelling row.status → Cancelling v.task.status)
  | _ => True

def SettlesCleanly (s : State) : Action → Prop
  | .runStep k e => ∀ r ∈ s.runs k, OutcomeMeets k e (s.view r.1 k) r.2
  | _ => True

instance (k : BuildToken) (e : Choice) (v : View) : (pc : RunPc) → Decidable (OutcomeMeets k e v pc)
  | .markTimeout => inferInstanceAs (Decidable (v.task.status ≠ .cancelled))
  | .check .finish | .check .refusedBuilding | .readAgain _ | .pending _ | .caughtCancelled =>
    inferInstanceAs (Decidable (v.task.status ≠ .cancelFailed))
  | .persistSuccess =>
    inferInstanceAs (Decidable (e.fault = false ∧ ∀ row ∈ v.row, row.buildToken = k ∧ Allowed row.status .success))
  | .persistCancelled =>
    inferInstanceAs (Decidable (e.fault = false ∧ ∀ row ∈ v.row, row.buildToken = k → row.status ≠ .cancelFailed))
  | .caughtOther =>
    inferInstanceAs (Decidable (v.task.status ≠ .cancelFailed ∧ e.fault = false ∧
      ∀ row ∈ v.row, row.buildToken = k → row.status ≠ .cancelFailed ∧
        (Cancelling row.status → Cancelling v.task.status)))
  | .check .queueFull | .check .queueTimeout | .check .slot | .check .refusedSuccess => instDecidableTrue
  | .persistQueued | .acquire | .markQueued | .persistRequeued | .acquireWait | .persistTimeout => instDecidableTrue
  | .persistBuilding | .start | .builder | .ended => instDecidableTrue

instance (s : State) : (a : Action) → Decidable (SettlesCleanly s a)
  | .runStep k e => inferInstanceAs (Decidable (∀ r ∈ s.runs k, OutcomeMeets k e (s.view r.1 k) r.2))
  | .register _ _ | .cancelCall _ _ | .cancelStep _ _ | .recordWorker .. | .reclaim _ _ | .die _ => instDecidableTrue

/-- The invariants of a run under the conditions: success is never refused, and a run
that has ended has left its final status in its row. -/
structure Faithful (k : BuildToken) (pc : RunPc) (v : View) : Prop where
  accepted : pc ≠ .check .refusedSuccess ∧ pc ≠ .readAgain .refusedSuccess ∧
    pc ≠ .pending .refusedSuccess
  unfinished : pc = .caughtOther → v.task.status ≠ .success
  ended : pc = .ended → ∃ row, v.row = some row ∧ (row.buildToken = k → row.status = v.task.status)

section steps

variable {identity : Pid → String} {p : Pid} {k : BuildToken} {e : Choice} {v v' : View}
  {pc pc' : RunPc}

theorem persistTask_accepts (identity : Pid → String) (p : Pid) (task : BuildTask)
    {status : BuildStatus} {row : Option TaskRow} (quiet : e.fault = false)
    (own : ∀ old, row = some old → old.buildToken = k ∧ Allowed old.status status) :
    (persistTask identity p k e task status false row).2 = some true := by
  simp only [persistTask, quiet, Bool.false_eq_true, if_false]
  cases row with
  | none => rfl
  | some old =>
    obtain ⟨same, allowed⟩ := own old rfl
    simp [upsertRow, same, allowed]

/-- A place that is neither a refused success nor one of the last two asks for nothing. -/
theorem Faithful.of_running (accepted : pc ≠ .check .refusedSuccess ∧ pc ≠ .readAgain .refusedSuccess ∧
    pc ≠ .pending .refusedSuccess) (uncaught : pc ≠ .caughtOther) (running : pc ≠ .ended) :
    Faithful k pc v :=
  ⟨accepted, fun h => absurd h uncaught, fun h => absurd h running⟩

theorem RunPc.goes_accepted (route : pc' ∈ pc.goes) :
    (pc' ≠ .check .refusedSuccess ∧ pc' ≠ .readAgain .refusedSuccess ∧
      pc' ≠ .pending .refusedSuccess) ∧ pc' ≠ .ended ∧
      (pc' = .caughtOther → .success ∈ pc.memory → pc = .check .refusedSuccess) := by
  cases pc with
  | check site =>
    cases site <;> simp only [RunPc.goes, List.mem_cons, List.not_mem_nil, or_false] at route <;>
      rcases route with rfl | rfl <;> simp [RunPc.memory]
  | _ =>
    simp only [RunPc.goes, List.mem_cons, List.not_mem_nil, or_false] at route <;>
      rcases route with rfl | rfl | rfl <;> simp [RunPc.memory]

/-- The rows of a run that a persist of `cancelled` or of `failed` finds allowed. -/
theorem RunShape.allowed_cancelled {row : TaskRow} (shape : RunShape k pc v) (found : v.row = some row)
    (token : row.buildToken = k) (live : row.status ≠ .cancelFailed) (unfailed : v.task.status ≠ .failed)
    (running : pc ≠ .ended) : Allowed row.status .cancelled := by
  have failed : row.status ≠ .failed := fun failed =>
    unfailed (shape.failed ⟨row, found, token, by simp [failed]⟩)
  have success : row.status ≠ .success := fun success =>
    running (shape.success ⟨row, found, token, by simp [success]⟩).2
  revert live failed success
  cases row.status <;> decide

theorem RunShape.allowed_failed {row : TaskRow} (shape : RunShape k pc v) (found : v.row = some row)
    (token : row.buildToken = k) (live : row.status ≠ .cancelFailed) (unasked : ¬ Cancelling row.status)
    (running : pc ≠ .ended) : Allowed row.status .failed := by
  have success : row.status ≠ .success := fun success =>
    running (shape.success ⟨row, found, token, by simp [success]⟩).2
  revert live unasked success
  cases row.status <;> decide

theorem Faithful.own (h : RunMove identity p k e v pc pc' v') (shape : RunShape k pc v)
    (faithful : Faithful k pc v) (meets : OutcomeMeets k e v pc) : Faithful k pc' v' := by
  have memory := shape.memory
  cases h with
  | goes _ _ route =>
    obtain ⟨accepted, running, success⟩ := RunPc.goes_accepted route
    refine ⟨accepted, fun caught done => ?_, fun ended => absurd ended running⟩
    exact faithful.accepted.1 (success caught (done ▸ memory))
  | persists _ _ status replaces accepted refused route next =>
    cases pc <;> simp only [RunPc.persists, Option.some.injEq, Prod.mk.injEq, reduceCtorEq] at route <;>
      obtain ⟨rfl, rfl, rfl, rfl⟩ := route
    case persistSuccess =>
      obtain ⟨quiet, own⟩ := meets
      have taken := persistTask_accepts identity p v.task quiet own
      rw [if_pos taken] at next
      subst next
      obtain ⟨new, write, -, status⟩ := persistTask_accepted taken
      refine ⟨by simp, fun h => by simp at h, fun _ => ⟨new, write, fun _ => ?_⟩⟩
      rw [status]
      exact (List.mem_singleton.mp memory).symm
    case persistCancelled =>
      rw [ite_self] at next
      subst next
      obtain ⟨quiet, live⟩ := meets
      have cancelled : v.task.status = .cancelled := List.mem_singleton.mp memory
      refine ⟨by simp, fun h => by simp at h, fun _ => ?_⟩
      obtain ⟨new, write, status⟩ := persistTask_settles identity p k v.task .cancelled v.row quiet
        (fun old found token => shape.allowed_cancelled found token (live old found token)
          (by rw [cancelled]; decide) (by simp))
      exact ⟨new, write, fun token => (status token).trans cancelled.symm⟩
    case persistTimeout =>
      rw [ite_self] at next
      subst next
      refine ⟨by simp, fun _ => ?_, fun h => by simp at h⟩
      rw [List.mem_singleton.mp memory]
      decide
    case persistBuilding =>
      split_ifs at next <;> subst next <;> exact .of_running (by simp) (by simp) (by simp)
    all_goals
      rw [ite_self] at next
      subst next
      exact .of_running (by simp) (by simp) (by simp)
  | enters site free why =>
    refine .of_running ⟨by simp, by simp, ?_⟩ (by simp) (by simp)
    rintro same
    cases same
    exact faithful.accepted.1 rfl
  | rereads site row free unmarked found requested =>
    refine .of_running ⟨by simp, ?_, by simp⟩ (by simp) (by simp)
    rintro same
    cases same
    exact faithful.accepted.1 rfl
  | builds => exact .of_running (by simp) (by simp) (by simp)
  | succeeds => exact .of_running (by simp) (by simp) (by simp)
  | copies site =>
    refine .of_running ⟨by simp, by simp, ?_⟩ (by simp) (by simp)
    rintro same
    cases same
    exact faithful.accepted.2.1 rfl
  | aborts _ where' =>
    refine ⟨by simp, fun _ done => ?_, fun h => by simp at h⟩
    change v.task.status = _ at done
    rw [done] at memory
    rcases where' with rfl | ⟨site, rfl⟩
    · exact absurd memory (by decide)
    · cases site with
      | refusedSuccess => exact faithful.accepted.2.1 rfl
      | _ => exact absurd memory (by decide)
  | finishes site =>
    refine ⟨by simp, fun _ => ?_, fun h => by simp at h⟩
    simp [finishTaskLocal]
  | requeues => exact .of_running (by simp) (by simp) (by simp)
  | timesOut => exact .of_running (by simp) (by simp) (by simp)
  | catches => exact .of_running (by simp) (by simp) (by simp)
  | settles free =>
    obtain ⟨-, quiet, live⟩ := meets
    refine ⟨by simp, fun h => by simp at h, fun _ => ?_⟩
    refine persistTask_settles _ _ _ _ (settledStatus v.task.status) _ quiet
      (fun old found token => ?_)
    obtain ⟨stuck, asked⟩ := live old found token
    by_cases marked : Cancelling v.task.status
    · have status : settledStatus v.task.status = .cancelled := by simp [settledStatus, marked]
      rw [status]
      refine shape.allowed_cancelled found token stuck ?_ (by simp)
      rintro failed
      rw [failed] at marked
      exact absurd marked (by decide)
    · have status : settledStatus v.task.status = .failed := by simp [settledStatus, marked]
      rw [status]
      exact shape.allowed_failed found token stuck (fun h => marked (asked h)) (by simp)

theorem RunShape.terminal_of_ended (shape : RunShape k .ended v) : v.task.status.Terminal := by
  have memory := shape.memory
  revert memory
  cases v.task.status <;> decide

/-- What other threads do leaves the end of a run as it is. -/
theorem Faithful.passive {stopped : TaskRow → Prop} {released : CancelId → Choice → BuildStatus → Prop}
    (shape : RunShape k pc v) (faithful : Faithful k pc v) (h : Passive p k stopped released v v') :
    Faithful k pc v' where
  accepted := faithful.accepted
  unfinished := by
    intro caught done
    have unfinished := faithful.unfinished caught
    cases h with
    | elsewhere _ task => exact unfinished (task ▸ done)
    | marks _ _ _ _ _ task => rcases task with ⟨-, h⟩ | ⟨-, h⟩ <;> rw [h] at done <;> cases done
    | expires _ _ _ _ after => rw [after] at done; cases done
    | persists _ _ _ _ _ _ _ task => exact unfinished (task ▸ done)
  ended := by
    rintro rfl
    have terminal := shape.terminal_of_ended
    obtain ⟨old, found, agrees⟩ := faithful.ended rfl
    cases h with
    | elsewhere moved task =>
      cases found' : v'.row with
      | none => exact absurd found' (moved.ne_none (by rw [found]; exact Option.some_ne_none _))
      | some new =>
        refine ⟨new, rfl, fun token => ?_⟩
        obtain ⟨old', before, token', allowed, -⟩ := moved.mine found' token
        cases found.symm.trans before
        rw [← agrees token'] at terminal
        rw [task, terminal.eq_of_allowed allowed]
        exact agrees token'
    | marks _ _ _ _ _ task =>
      rcases task with ⟨was, -⟩ | ⟨was, -⟩ <;> rw [was] at terminal <;> exact absurd terminal (by decide)
    | expires _ _ _ was => rw [was] at terminal; exact absurd terminal (by decide)
    | persists identity c e status _ _ row task _ why =>
      have written : Written p k v.task status false v.row
          (persistTask identity p k e v.task status false v.row).1 := persistTask_written
      rw [← row, found] at written
      rw [task]
      generalize v'.row = r' at written
      cases written with
      | kept => exact ⟨old, rfl, agrees⟩
      | fresh _ _ before => rcases before with h | ⟨h, -⟩ <;> cases h
      | merged _ new token _ _ allowed status' =>
        refine ⟨new, rfl, fun _ => ?_⟩
        rw [← agrees token] at terminal
        rw [status', terminal.eq_of_allowed allowed]
        exact agrees token

/-- The run's own steps change no final status under the conditions. -/
theorem RunMove.keeps (h : RunMove identity p k e v pc pc' v') (shape : RunShape k pc v)
    (faithful : Faithful k pc v) (meets : OutcomeMeets k e v pc) (terminal : v.task.status.Terminal) :
    v'.task.status = v.task.status := by
  have memory := shape.memory
  cases h with
  | builds free unmarked =>
    exfalso
    revert unmarked memory terminal
    cases v.task.status <;> decide
  | succeeds free unmarked =>
    have live : v.task.status ≠ .cancelFailed := meets
    exfalso
    revert unmarked memory terminal live
    cases v.task.status <;> decide
  | copies site =>
    have live : v.task.status ≠ .cancelFailed := meets
    exfalso
    cases site with
    | refusedSuccess => exact faithful.accepted.2.1 rfl
    | _ =>
      revert memory terminal live
      cases v.task.status <;> decide
  | finishes site =>
    have live : v.task.status ≠ .cancelFailed := meets
    have cancelled : v.task.status = .cancelled := by
      cases site with
      | refusedSuccess => exact absurd rfl faithful.accepted.2.2
      | _ =>
        revert memory terminal live
        cases v.task.status <;> decide
    exact cancelled.symm
  | requeues free live =>
    exfalso
    revert memory terminal live
    cases v.task.status <;> decide
  | timesOut =>
    have live : v.task.status ≠ .cancelled := meets
    exfalso
    revert memory terminal live
    cases v.task.status <;> decide
  | catches =>
    have live : v.task.status ≠ .cancelFailed := meets
    exfalso
    revert memory terminal live
    cases v.task.status <;> decide
  | settles =>
    have success := faithful.unfinished rfl
    have live := meets.1
    revert terminal success live
    cases v.task.status <;> simp [BuildStatus.Terminal, settledStatus]
  | _ => rfl

/-- No other thread changes a final status in memory. -/
theorem Passive.keeps {stopped : TaskRow → Prop} {released : CancelId → Choice → BuildStatus → Prop}
    (h : Passive p k stopped released v v') (terminal : v.task.status.Terminal) :
    v'.task.status = v.task.status := by
  cases h with
  | elsewhere _ task => rw [task]
  | marks _ _ _ _ _ task =>
    rcases task with ⟨was, -⟩ | ⟨was, -⟩ <;> rw [was] at terminal <;> exact absurd terminal (by decide)
  | expires _ _ _ was => rw [was] at terminal; exact absurd terminal (by decide)
  | persists _ _ _ _ _ _ _ task => rw [task]

end steps

def AllFaithful (s : State) : Prop :=
  ∀ k p pc, s.runs k = some (p, pc) → Faithful k pc (s.view p k)

theorem allFaithful_step {s t : State} {a : Action} (shape : Shape s) (faithful : AllFaithful s)
    (meets : SettlesCleanly s a) (h : step s a = some t) : AllFaithful t := by
  intro k p pc here
  cases observed shape h here with
  | born _ _ place => exact place ▸ .of_running (by simp) (by simp) (by simp)
  | own e pc₀ own before _ move =>
    subst own
    exact (faithful k p pc₀ before).own move (shape.run k p pc₀ before) (meets (p, pc₀) before)
  | passive before change => exact (faithful k p pc before).passive (shape.run k p pc before) change

/-- One step keeps the final statuses of all registered tasks. -/
theorem keeps_step {s t : State} {a : Action} {k : BuildToken} {p : Pid} {pc : RunPc}
    (shape : Shape s) (faithful : AllFaithful s) (meets : SettlesCleanly s a)
    (h : step s a = some t) (registered : s.runs k = some (p, pc)) : Keeps s t k := by
  intro terminal
  obtain ⟨pc', after⟩ := runs_step h registered
  cases observed shape h after with
  | born _ before => cases before.symm.trans registered
  | own e pc₀ own before _ move =>
    subst own
    exact move.keeps (shape.run k p pc₀ before) (faithful k p pc₀ before) (meets (p, pc₀) before) terminal
  | passive before change => exact change.keeps terminal

theorem shape_and_faithful {identity : Pid → String} {as : List Action} {s : State}
    (run : Run step SettlesCleanly (State.initial identity) as s) : Shape s ∧ AllFaithful s :=
  run.invariant (P := fun s => Shape s ∧ AllFaithful s)
    ⟨shape_initial identity, fun _ _ _ h => nomatch h⟩
    (fun _ _ _ ⟨shape, faithful⟩ meets enabled =>
      ⟨shape_step shape enabled, allFaithful_step shape faithful meets enabled⟩)

theorem keeps_run {s t : State} {as : List Action} {k : BuildToken} {p : Pid} {pc : RunPc}
    (shape : Shape s) (faithful : AllFaithful s) (registered : s.runs k = some (p, pc))
    (run : Run step SettlesCleanly s as t) : Keeps s t k := by
  induction run generalizing pc with
  | refl => exact fun _ => rfl
  | cons meets enabled tail ih =>
    intro terminal
    obtain ⟨pc', after⟩ := runs_step enabled registered
    have first := keeps_step shape faithful meets enabled registered terminal
    have rest := ih (shape_step shape enabled) (allFaithful_step shape faithful meets enabled) after
    rw [rest (first ▸ terminal), first]

/-- In a run whose steps meet the conditions, a build that has ended agrees in memory and
in its row on one final status, and no task's final status in memory is ever changed. -/
theorem ended_build_agrees {identity : Pid → String} {as bs : List Action} {s t : State}
    (before : Run step SettlesCleanly (State.initial identity) as s)
    (run : Run step SettlesCleanly s bs t) {k : BuildToken} {p : Pid} {pc : RunPc}
    (registered : s.runs k = some (p, pc)) :
    Keeps s t k ∧ (t.runs k = some (p, .ended) → Agrees t k) := by
  obtain ⟨shape, faithful⟩ := shape_and_faithful before
  refine ⟨keeps_run shape faithful registered run, fun ended row found token => ?_⟩
  obtain ⟨shape', faithful'⟩ := shape_and_faithful (before.append run)
  obtain ⟨row', found', agrees⟩ := (faithful' k p .ended ended).ended rfl
  cases found.symm.trans found'
  have status := agrees token
  exact ⟨status, status ▸ (shape'.run k p .ended ended).terminal_of_ended⟩

/-- Nothing fails, a slot is free, and the builder returns. -/
def smooth : Choice := ⟨1, false, false, .slot, .returns, false, true, false⟩

/-- The build 7 reaches its builder. -/
def building : List Action :=
  [.register 10 7, .runStep 7 smooth, .runStep 7 smooth, .runStep 7 smooth, .runStep 7 smooth,
    .runStep 7 smooth]

/-- Another process asks to cancel the build, and the builder fails for another reason. -/
def failsWhileCancelling : List Action :=
  building ++ [.cancelCall 20 0, .cancelStep 0 smooth, .cancelStep 0 smooth, .cancelStep 0 smooth,
    .runStep 7 { smooth with built := .raises }, .runStep 7 smooth]

def reached (as : List Action) : State :=
  (exec step (State.initial fun _ => "") as).getD (State.initial fun _ => "")

theorem ended_build_disagrees : ¬ ∀ identity as s bs t k p pc,
    Run step anyStep (State.initial identity) as s → Run step anyStep s bs t →
    s.runs k = some (p, pc) → Keeps s t k ∧ (t.runs k = some (p, .ended) → Agrees t k) := by
  intro claim
  have run : exec step (State.initial fun _ => "") failsWhileCancelling =
      some (reached failsWhileCancelling) := rfl
  have agrees := (claim _ _ _ [] _ 7 10 .ended (.of_exec run) (.refl _) rfl).2 rfl
  have cancelling : ∃ row ∈ (reached failsWhileCancelling).row,
      row.buildToken = 7 ∧ row.status = .cancelling := ⟨_, rfl, rfl, rfl⟩
  obtain ⟨row, found, token, status⟩ := cancelling
  have final := (agrees row found token).2
  rw [status] at final
  exact absurd final (by decide)

theorem ended_build_agrees_building :
    Agrees (reached (building ++ List.replicate 3 (.runStep 7 smooth))) 7 := by
  have before : Run step SettlesCleanly (State.initial fun _ => "") building (reached building) :=
    .of_guarded rfl
  have run : Run step SettlesCleanly (reached building) (List.replicate 3 (.runStep 7 smooth))
      (reached (building ++ List.replicate 3 (.runStep 7 smooth))) := .of_guarded rfl
  have executing : (reached building).runs 7 = some (10, .builder) := rfl
  exact (ended_build_agrees before run executing).2 rfl

end LocalWebAccess.BuildQueueMachine
