import LocalWebAccess.BuildQueueInvariants

/-!
# When a cancel that reports success has cancelled the build

A cancel answers `cancelled` from its own process's memory or from the row. The
answer is about the generation the row carries, so it is true only where memory
and row speak of the same generation, where the row has not moved on between a
read and the update that follows it, and where no persist of a cancelled task
was lost. The steps outside these windows keep the invariants below.
-/
namespace LocalWebAccess.BuildQueueMachine
open BuildTaskTable GuardedRuns

/-- The builder of `k` is being executed in a live process. -/
def Executing (s : State) (k : BuildToken) : Prop :=
  ∃ p, s.runs k = some (p, .builder) ∧ s.dead p = false

/-- The builder of `k` is not executed now or at any later time. -/
def NeverExecutes (s : State) (k : BuildToken) : Prop :=
  ∀ as t, Run step anyStep s as t → ¬ Executing t k

/-- The row's generation is cancelled and its builder does not run again. -/
def TrulyCancelled (s : State) : Prop :=
  ∃ row, s.row = some row ∧ row.status = .cancelled ∧ NeverExecutes s row.buildToken

/-- A run's step loses no persist of a cancelled task, and does not queue a task again
that was cancelled before its row was first written and then replaced. -/
def RunMeets (k : BuildToken) (e : Choice) (v : View) : RunPc → Prop
  | .persistQueued => v.task.status = .cancelled → ∀ row ∈ v.row, row.buildToken = k
  | .pending _ => e.fault = false
  | .persistCancelled => e.fault = false
  | .caughtOther => Cancelling v.task.status → e.fault = false
  | _ => True

/-- A cancel's answer from memory is about the row's generation, whose run is not about
to persist it and whose row is not given up; the row it marks or updates still has the
generation and a status that it found. -/
def CancelMeets (s : State) (p : Pid) (e : Choice) : CancelPc → Prop
  | .markedQueued k => e.fault = false ∧
      ∀ row ∈ s.row, row.buildToken = k ∧ Allowed row.status .cancelled
  | .casQueued k => ∃ row ∈ s.row, row.buildToken = k ∧
      (row.status = .queued ∨ row.status = .cancelled)
  | .casReclaimed k => ∃ row ∈ s.row, row.buildToken = k ∧ Allowed row.status .cancelled
  | .called | .waiting => ∀ k ∈ s.tasks p, (s.mem k).status = .cancelled →
      (∃ row ∈ s.row, row.buildToken = k ∧ row.status ≠ .cancelFailed) ∧
      ∀ r ∈ s.runs k, r.2 ≠ .persistCancelled
  | _ => True

def Meets (s : State) : Action → Prop
  | .runStep k e => ∀ r ∈ s.runs k, RunMeets k e (s.view r.1 k) r.2
  | .cancelStep c e => ∀ r ∈ s.cancels c, CancelMeets s r.1 e r.2
  | _ => True

instance (k : BuildToken) (e : Choice) (v : View) (pc : RunPc) : Decidable (RunMeets k e v pc) := by
  cases pc <;> unfold RunMeets <;> infer_instance

instance (s : State) (p : Pid) (e : Choice) (pc : CancelPc) : Decidable (CancelMeets s p e pc) := by
  cases pc <;> unfold CancelMeets <;> infer_instance

instance (s : State) (a : Action) : Decidable (Meets s a) := by
  cases a <;> unfold Meets <;> infer_instance

/-- There is a row, and where it is of `k` it is cancelled or given up. -/
def SettledRow (k : BuildToken) (r : Option TaskRow) : Prop :=
  ∃ row, r = some row ∧ (row.buildToken = k → row.status ∈ [.cancelled, .cancelFailed])

/-- The invariants of a run under the conditions: an executing builder's row is neither
queued nor cancelled, and a task cancelled in memory is so in its row unless a thread
is on its way to persist it. -/
structure Honest (k : BuildToken) (pc : RunPc) (v : View) (dead : Bool) : Prop where
  executing : dead = false → pc = .start ∨ pc = .builder →
    ∀ row, v.row = some row → row.buildToken = k → row.status ≠ .queued ∧ row.status ≠ .cancelled
  settled : v.task.status = .cancelled → SettledRow k v.row ∨ pc = .persistCancelled ∨
    v.guard = some (.run k) ∧ pc ≠ .pending .slot ∨ ∃ c, v.guard = some (.cancel c k)

section steps

variable {identity : Pid → String} {p : Pid} {k : BuildToken} {e : Choice} {v v' : View}
  {pc pc' : RunPc} {dead : Bool}

/-- Persisting a cancelled task without an exception settles its row. -/
theorem settledRow_persist {task : BuildTask} (shape : RunShape k pc v) (quiet : e.fault = false)
    (failed : v.task.status ≠ .failed) (live : pc ≠ .ended) :
    SettledRow k (persistTask identity p k e task .cancelled false v.row).1 := by
  cases found : v.row with
  | none =>
    obtain ⟨new, write, status⟩ := persistTask_settles identity p k task .cancelled none quiet
      (fun _ h => nomatch h)
    exact ⟨new, write, fun token => by simp [status token]⟩
  | some old =>
    by_cases allowed : old.buildToken = k → Allowed old.status .cancelled
    · obtain ⟨new, write, status⟩ := persistTask_settles identity p k task .cancelled (some old) quiet
        (fun row same token => by cases same; exact allowed token)
      exact ⟨new, write, fun token => by simp [status token]⟩
    · obtain ⟨token, refused⟩ := Classical.not_imp.mp allowed
      have stuck : old.status = .cancelFailed := by
        cases status : old.status with
        | cancelFailed => rfl
        | failed => exact absurd (shape.failed ⟨old, found, token, by simp [status]⟩) failed
        | success => exact absurd (shape.success ⟨old, found, token, by simp [status]⟩).2 live
        | _ =>
          rw [status] at refused
          exact absurd (by decide) refused
      have written : Written p k task .cancelled false (some old)
          (persistTask identity p k e task .cancelled false (some old)).1 := persistTask_written
      generalize (persistTask identity p k e task .cancelled false (some old)).1 = r at written
      cases written with
      | kept => exact ⟨old, rfl, fun _ => by simp [stuck]⟩
      | fresh _ _ before =>
        rcases before with h | ⟨h, -⟩ <;> cases h
      | merged _ _ _ _ _ allowed' => exact absurd allowed' refused

theorem SettledRow.written {task : BuildTask} {status : BuildStatus} {replaces : Bool}
    {r r' : Option TaskRow} (settled : SettledRow k r)
    (written : Written p k task status replaces r r')
    (mine : replaces = true → ∀ row, r = some row → row.buildToken = k) : SettledRow k r' := by
  obtain ⟨old, found, old'⟩ := settled
  cases written with
  | kept => exact ⟨old, found, old'⟩
  | fresh _ new before =>
    rcases before with h | ⟨replacing, row, h, other⟩
    · cases found.symm.trans h
    · exact absurd (mine replacing row h) other
  | merged row new token _ _ allowed status' =>
    cases found
    refine ⟨new, rfl, fun _ => ?_⟩
    have before := old' token
    revert allowed before
    rw [status']
    cases old.status <;> cases status <;> decide

theorem SettledRow.moved {stopped : TaskRow → Prop} {r r' : Option TaskRow}
    (settled : SettledRow k r) (moved : Moved k stopped r r') : SettledRow k r' := by
  obtain ⟨old, found, status⟩ := settled
  cases found' : r' with
  | none => exact absurd found' (moved.ne_none (by rw [found]; exact Option.some_ne_none _))
  | some new =>
    refine ⟨new, rfl, fun token => ?_⟩
    obtain ⟨old', before, token', allowed, -⟩ := moved.mine found' token
    cases found.symm.trans before
    have status := status token'
    revert status allowed
    cases old.status <;> cases new.status <;> decide

theorem RunPc.start_of_persists {status : BuildStatus} {replaces : Bool} {accepted refused : RunPc}
    (h : pc.persists = some (status, replaces, accepted, refused)) :
    (accepted = .start ∨ accepted = .builder → status = .building) ∧
      ¬ (refused = .start ∨ refused = .builder) := by
  cases pc <;> simp only [RunPc.persists, Option.some.injEq, Prod.mk.injEq, reduceCtorEq] at h <;>
    obtain ⟨rfl, -, rfl, rfl⟩ := h <;> simp

theorem RunPc.persists_of_cancelled {status : BuildStatus} {replaces : Bool} {accepted refused : RunPc}
    (memory : .cancelled ∈ pc.memory) (h : pc.persists = some (status, replaces, accepted, refused)) :
    (pc = .persistCancelled ∧ status = .cancelled ∧ replaces = false) ∨
      (pc ≠ .persistCancelled ∧ (replaces = true → pc = .persistQueued)) := by
  cases pc <;> simp only [RunPc.persists, Option.some.injEq, Prod.mk.injEq, reduceCtorEq] at h <;>
    obtain ⟨rfl, rfl, -, -⟩ := h <;> first | exact absurd memory (by decide) | simp

theorem copyRequest_cancelled (shape : RunShape k (.readAgain .slot) v)
    (h : (copyRequest e v.row).status = .cancelled) : SettledRow k v.row := by
  have memory : v.task.status = .queued := List.mem_singleton.mp shape.memory
  obtain ⟨row, found, seen⟩ := shape.seen .slot rfl
  refine ⟨row, found, fun token => ?_⟩
  rcases seen token with status | at'
  · have moved : row.status ≠ .cancelling := by
      intro cancelling
      rw [copyRequest, found] at h
      simp [cancelling] at h
    revert status moved
    cases row.status <;> decide
  · have late : ¬ (row.status = .queued ∨ row.status = .building) :=
      fun early => at' (shape.unrequested memory row found token early)
    have failed : row.status ≠ .failed := fun failed => by
      cases memory.symm.trans (shape.failed ⟨row, found, token, by simp [failed]⟩)
    have success : row.status ≠ .success := fun success => by
      cases memory.symm.trans (shape.success ⟨row, found, token, by simp [success]⟩).1
    have moved : row.status ≠ .cancelling := by
      intro cancelling
      rw [copyRequest, found] at h
      simp [cancelling] at h
    revert late failed success moved
    cases row.status <;> decide

theorem Honest.executing_own (h : RunMove identity p k e v pc pc' v')
    (honest : Honest k pc v dead) (alive : dead = false) (place : pc' = .start ∨ pc' = .builder)
    (row : TaskRow) (found : v'.row = some row) (token : row.buildToken = k) :
    row.status ≠ .queued ∧ row.status ≠ .cancelled := by
  cases h with
  | goes _ _ route =>
    refine honest.executing alive (.inl ?_) row found token
    cases pc with
    | start => rfl
    | check site => cases site <;> simp [RunPc.goes] at route <;> rcases route with rfl | rfl <;> simp at place
    | _ => simp [RunPc.goes] at route <;> (try rcases route with rfl | rfl | rfl) <;> simp at place
  | persists _ _ status replaces accepted refused route next =>
    obtain ⟨first, second⟩ := RunPc.start_of_persists route
    split_ifs at next with accepted'
    · obtain ⟨new, write, -, status'⟩ := persistTask_accepted accepted'
      cases write.symm.trans found
      rw [status', first (next ▸ place)]
      decide
    · exact absurd (next ▸ place) second
  | _ => simp at place

theorem Honest.settled_own (h : RunMove identity p k e v pc pc' v') (shape : RunShape k pc v)
    (honest : Honest k pc v dead) (meets : RunMeets k e v pc) (cancelled : v'.task.status = .cancelled) :
    SettledRow k v'.row ∨ pc' = .persistCancelled ∨
      v'.guard = some (.run k) ∧ pc' ≠ .pending .slot ∨ ∃ c, v'.guard = some (.cancel c k) := by
  cases h with
  | goes _ _ route =>
    rcases honest.settled cancelled with settled | rfl | ⟨held, -⟩ | held
    · exact .inl settled
    · simp [RunPc.goes] at route
    · refine .inr (.inr (.inl ⟨held, ?_⟩))
      rintro rfl
      cases pc with
      | check site => cases site <;> simp [RunPc.goes] at route
      | _ => simp [RunPc.goes] at route
    · exact .inr (.inr (.inr held))
  | persists _ _ status replaces accepted refused route next =>
    rcases RunPc.persists_of_cancelled (cancelled ▸ shape.memory) route with
      ⟨rfl, rfl, rfl⟩ | ⟨other, replacing⟩
    · refine .inl (settledRow_persist shape meets ?_ (by decide))
      rw [cancelled]
      decide
    · rcases honest.settled cancelled with settled | here | ⟨held, -⟩ | held
      · refine .inl (settled.written persistTask_written (fun first row found => ?_))
        obtain rfl := replacing first
        exact meets cancelled row found
      · exact absurd here other
      · refine .inr (.inr (.inl ⟨held, ?_⟩))
        obtain ⟨first, second⟩ := RunPc.not_holds_of_persists route
        rintro rfl
        split_ifs at next
        · exact first (next ▸ trivial)
        · exact second (next ▸ trivial)
      · exact .inr (.inr (.inr held))
  | enters site free why =>
    by_cases slot : site = .slot
    · subst slot
      rcases honest.settled cancelled with settled | here | ⟨held, -⟩ | ⟨c, held⟩
      · exact .inl settled
      · cases here
      · cases free.symm.trans held
      · cases free.symm.trans held
    · exact .inr (.inr (.inl ⟨rfl, by simpa using slot⟩))
  | rereads => exact .inr (.inr (.inl ⟨rfl, by simp⟩))
  | builds => cases cancelled
  | succeeds => cases cancelled
  | copies site =>
    by_cases slot : site = .slot
    · subst slot
      exact .inl (copyRequest_cancelled (v := v) (e := e) shape cancelled)
    · exact .inr (.inr (.inl ⟨shape.held trivial, by simpa using slot⟩))
  | aborts _ where' =>
    rcases where' with rfl | ⟨site, rfl⟩
    · rcases honest.settled cancelled with settled | here | ⟨-, other⟩ | ⟨c, held⟩
      · exact .inl settled
      · cases here
      · exact absurd rfl other
      · cases (shape.held trivial).symm.trans held
    · have memory := shape.memory
      change v.task.status = _ at cancelled
      rw [cancelled] at memory
      cases site <;> exact absurd memory (by decide)
  | finishes site =>
    refine .inl (settledRow_persist shape meets (fun failed => ?_) (by simp))
    have memory := shape.memory
    rw [failed] at memory
    cases site <;> exact absurd memory (by decide)
  | requeues => cases cancelled
  | timesOut => cases cancelled
  | catches => exact .inr (.inl rfl)
  | settles free =>
    have marked : Cancelling v.task.status := by
      by_contra live
      simp [settledStatus, live] at cancelled
    have same : settledStatus v.task.status = .cancelled := cancelled
    rw [same]
    refine .inl (settledRow_persist shape (meets marked) (fun failed => ?_) (by decide))
    rw [failed] at marked
    exact absurd marked (by decide)

/-- What other threads do under the conditions keeps a run honest. -/
theorem Honest.passive {stopped : TaskRow → Prop} {released : CancelId → Choice → BuildStatus → Prop}
    {dead' : Bool} (shape : RunShape k pc v) (honest : Honest k pc v dead)
    (h : Passive p k stopped released v v') (grows : dead' = false → dead = false)
    (stops : ∀ row, v.row = some row → row.buildToken = k → stopped row →
      dead = true ∨ row.status = .queued ∨ row.status = .cancelled)
    (releases : ∀ c e, released c e .cancelled → e.fault = false ∧
      ∀ row, v.row = some row → row.buildToken = k ∧ Allowed row.status .cancelled) :
    Honest k pc v' dead' := by
  have started : pc = .start ∨ pc = .builder →
      v.task.status ∈ [.building, .cancelling, .cancelFailed] := by
    rintro (rfl | rfl) <;> exact shape.memory
  cases h with
  | elsewhere moved task guard =>
    refine ⟨fun alive place new found token => ?_, fun cancelled => ?_⟩
    · obtain ⟨old, found', token', -, -, status⟩ := moved.mine found token
      have before := honest.executing (grows alive) place old found' token'
      rcases status with ⟨same, -⟩ | status | status | ⟨-, stop⟩
      · rw [same]
        exact before
      · rw [status]
        decide
      · rw [status]
        decide
      · rcases stops old found' token' stop with gone | queued | cancelled
        · rw [grows alive] at gone
          cases gone
        · exact absurd queued before.1
        · exact absurd cancelled before.2
    · rw [task] at cancelled
      rcases honest.settled cancelled with settled | here | ⟨held, other⟩ | ⟨c, held⟩
      · exact .inl (settled.moved moved)
      · exact .inr (.inl here)
      · rcases guard with same | ⟨before, -⟩
        · exact .inr (.inr (.inl ⟨same.trans held, other⟩))
        · exact absurd rfl (before _ held)
      · rcases guard with same | ⟨before, -⟩
        · exact .inr (.inr (.inr ⟨c, same.trans held⟩))
        · exact absurd rfl (before _ held)
  | marks c now free row guard task =>
    refine ⟨fun alive place => ?_, fun _ => .inr (.inr (.inr ⟨c, guard⟩))⟩
    rw [row]
    exact honest.executing (grows alive) place
  | expires free row guard before after =>
    refine ⟨fun alive place => ?_, fun cancelled => ?_⟩
    · rw [row]
      exact honest.executing (grows alive) place
    · rw [after] at cancelled
      cases cancelled
  | persists identity c e status holder release row task guard why =>
    refine ⟨fun alive place new found token => ?_, fun cancelled => ?_⟩
    · rcases why with ⟨-, marked | marked⟩ | ⟨rfl, -⟩
      · rw [marked] at started
        exact absurd (started place) (by decide)
      · rw [marked] at started
        exact absurd (started place) (by decide)
      · rw [row] at found
        have written : Written p k v.task .cancelling false v.row
            (persistTask identity p k e v.task .cancelling false v.row).1 := persistTask_written
        rw [found] at written
        have before := honest.executing (grows alive) place
        generalize v.row = r at written before
        cases written with
        | kept => exact before new rfl token
        | fresh _ _ _ _ _ status => rw [status]; decide
        | merged _ _ _ _ _ _ status => rw [status]; decide
    · rw [task] at cancelled
      rcases why with ⟨rfl, -⟩ | ⟨-, cancelling⟩
      · obtain ⟨quiet, own⟩ := releases c e release
        rw [row]
        obtain ⟨new, write, status⟩ := persistTask_settles identity p k v.task .cancelled v.row quiet
          (fun old found _ => (own old found).2)
        exact .inl ⟨new, write, fun token => by simp [status token]⟩
      · cases cancelled.symm.trans cancelling

end steps

/-- Every run of the system is honest. -/
def AllHonest (s : State) : Prop :=
  ∀ k p pc, s.runs k = some (p, pc) → Honest k pc (s.view p k) (s.dead p)

theorem allHonest_step {s t : State} {a : Action} (shape : Shape s) (honest : AllHonest s)
    (meets : Meets s a) (h : step s a = some t) : AllHonest t := by
  intro k p pc here
  cases observed shape h here with
  | born _ before place view =>
    rw [view, place]
    exact ⟨fun _ place => by simp at place, fun cancelled => nomatch cancelled⟩
  | own e pc₀ own before alive move =>
    subst own
    have dead : t.dead p = s.dead p := by
      cases step_cases h with
      | runStep => rfl
    rw [dead]
    have own := shape.run k p pc₀ before
    have was := honest k p pc₀ before
    exact ⟨fun alive place row found token => was.executing_own move alive place row found token,
      was.settled_own move own (meets (p, pc₀) before)⟩
  | passive before change =>
    refine (honest k p pc before).passive (shape.run k p pc before) change ?_ ?_ ?_
    · intro alive
      by_contra gone
      rw [dead_step h (by simpa using gone)] at alive
      cases alive
    · intro row found token stop
      obtain ⟨pc', owner⟩ := shape.owner row found
      rw [token] at owner
      cases owner.symm.trans before
      rcases stop with gone | ⟨c, e, q, rfl, cas⟩
      · exact .inl gone
      · obtain ⟨row', found', -, status⟩ := meets (q, _) cas
        cases found'.symm.trans found
        exact .inr status
    · rintro c e ⟨rfl, ⟨-, cancel⟩ | ⟨other, -⟩⟩
      · exact meets (p, _) cancel
      · cases other

/-- The places before the persist of `building`. -/
def RunPc.Early : RunPc → Prop
  | .persistQueued | .acquire | .markQueued | .persistRequeued | .acquireWait | .markTimeout => True
  | .check .queueFull | .check .queueTimeout | .check .slot => True
  | _ => False

/-- The places from which a run does not reach its builder. -/
def RunPc.Over : RunPc → Prop
  | .readAgain _ | .pending _ | .persistTimeout | .persistSuccess | .caughtCancelled => True
  | .check .refusedBuilding | .check .finish | .check .refusedSuccess => True
  | .persistCancelled | .caughtOther | .ended => True
  | _ => False

/-- The row stands for another generation than `k`, or for `k` in a final status. -/
def Fenced (k : BuildToken) (r : Option TaskRow) : Prop :=
  ∃ row, r = some row ∧ (row.buildToken = k → row.status.Terminal)

/-- The run of `k` does not reach its builder any more. -/
structure Doomed (s : State) (k : BuildToken) (p : Pid) (pc : RunPc) : Prop where
  run : s.runs k = some (p, pc)
  why : s.dead p = true ∨ pc.Over ∨ pc.Early ∧ (s.mem k).status = .cancelled ∨
    (pc.Early ∧ pc ≠ .persistQueued ∨ pc = .persistBuilding) ∧ Fenced k s.row

section doomed

variable {identity : Pid → String} {p : Pid} {k : BuildToken} {e : Choice} {v v' : View}
  {pc pc' : RunPc}

theorem RunPc.goes_over_or_early (route : pc' ∈ pc.goes) :
    (pc.Over → pc'.Over) ∧ (pc.Early → pc'.Over ∨ pc'.Early ∧ pc' ≠ .persistQueued) := by
  cases pc with
  | check site =>
    cases site <;> simp only [RunPc.goes, List.mem_cons, List.not_mem_nil, or_false] at route <;>
      rcases route with rfl | rfl <;> simp [RunPc.Over, RunPc.Early]
  | _ =>
    simp only [RunPc.goes, List.mem_cons, List.not_mem_nil, or_false] at route <;>
      rcases route with rfl | rfl | rfl <;> simp [RunPc.Over, RunPc.Early]

theorem RunPc.persists_over_or_early {status : BuildStatus} {replaces : Bool}
    {accepted refused : RunPc} (h : pc.persists = some (status, replaces, accepted, refused)) :
    (pc.Over → accepted.Over ∧ refused.Over) ∧
      (pc.Early → accepted.Early ∧ refused = accepted ∧ accepted ≠ .persistQueued ∧
        status = .queued ∧ (replaces = true → pc = .persistQueued)) ∧
      (pc = .persistBuilding → refused.Over ∧ replaces = false ∧ status = .building) := by
  cases pc <;> simp only [RunPc.persists, Option.some.injEq, Prod.mk.injEq, reduceCtorEq] at h <;>
    obtain ⟨rfl, rfl, rfl, rfl⟩ := h <;> simp [RunPc.Over, RunPc.Early]

theorem RunMove.stays_over (h : RunMove identity p k e v pc pc' v') (passed : pc.Over) : pc'.Over := by
  cases h with
  | goes _ _ route => exact (RunPc.goes_over_or_early route).1 passed
  | persists _ _ status replaces accepted refused route next =>
    obtain ⟨first, second⟩ := (RunPc.persists_over_or_early route).1 passed
    split_ifs at next
    · exact next ▸ first
    · exact next ▸ second
  | builds => exact absurd passed id
  | requeues => exact absurd passed id
  | _ => trivial

theorem RunMove.early_cancelled (h : RunMove identity p k e v pc pc' v') (early : pc.Early)
    (cancelled : v.task.status = .cancelled) :
    pc'.Over ∨ pc'.Early ∧ v'.task.status = .cancelled := by
  cases h with
  | goes _ _ route =>
    rcases (RunPc.goes_over_or_early route).2 early with passed | ⟨early, -⟩
    · exact .inl passed
    · exact .inr ⟨early, cancelled⟩
  | persists _ _ status replaces accepted refused route next =>
    obtain ⟨early', same, -⟩ := (RunPc.persists_over_or_early route).2.1 early
    rw [same, ite_self] at next
    exact .inr ⟨next ▸ early', cancelled⟩
  | builds free unmarked => exact absurd (.inl cancelled) unmarked
  | succeeds => exact absurd early id
  | requeues free live => exact absurd cancelled live
  | settles => exact absurd early id
  | finishes => exact absurd early id
  | copies => exact absurd early id
  | catches => exact absurd early id
  | _ => exact .inl trivial

/-- A final status keeps out every persist that is not of that status. -/
theorem Fenced.written {task : BuildTask} {status : BuildStatus} {r r' : Option TaskRow}
    (fenced : Fenced k r) (written : Written p k task status false r r') : Fenced k r' := by
  obtain ⟨old, found, final⟩ := fenced
  cases written with
  | kept => exact ⟨old, found, final⟩
  | fresh _ new before =>
    rcases before with h | ⟨h, -⟩
    · cases found.symm.trans h
    · cases h
  | merged row new token _ _ allowed status' =>
    cases found
    refine ⟨new, rfl, fun _ => ?_⟩
    have terminal := final token
    rw [status', terminal.eq_of_allowed allowed]
    exact terminal

theorem Fenced.refuses {task : BuildTask} (fenced : Fenced k v.row) :
    (persistTask identity p k e task .building false v.row).2 ≠ some true := by
  intro accepted
  obtain ⟨new, write, token, status⟩ := persistTask_accepted accepted
  have written : Written p k task .building false v.row
      (persistTask identity p k e task .building false v.row).1 := persistTask_written
  obtain ⟨row, found, final⟩ := fenced.written written
  cases write.symm.trans found
  have terminal := final token
  rw [status] at terminal
  exact absurd terminal (by decide)

theorem RunMove.fenced (h : RunMove identity p k e v pc pc' v')
    (place : pc.Early ∧ pc ≠ .persistQueued ∨ pc = .persistBuilding) (fenced : Fenced k v.row) :
    pc'.Over ∨ (pc'.Early ∧ pc' ≠ .persistQueued ∨ pc' = .persistBuilding) ∧ Fenced k v'.row := by
  cases h with
  | goes _ _ route =>
    rcases place with ⟨early, -⟩ | rfl
    · rcases (RunPc.goes_over_or_early route).2 early with passed | early
      · exact .inl passed
      · exact .inr ⟨.inl early, fenced⟩
    · simp [RunPc.goes] at route
  | persists _ _ status replaces accepted refused route next =>
    rcases place with ⟨early, later⟩ | rfl
    · obtain ⟨early', same, later', -, first⟩ := (RunPc.persists_over_or_early route).2.1 early
      rw [same, ite_self] at next
      subst next
      have keeps : replaces = false := by
        by_contra replacing
        exact later (first (by simpa using replacing))
      subst keeps
      exact .inr ⟨.inl ⟨early', later'⟩, fenced.written persistTask_written⟩
    · obtain ⟨passed, rfl, rfl⟩ := (RunPc.persists_over_or_early route).2.2 rfl
      rw [if_neg fenced.refuses] at next
      exact .inl (next ▸ passed)
  | builds => exact .inr ⟨.inr rfl, fenced⟩
  | requeues => exact .inr ⟨.inl ⟨trivial, by simp⟩, fenced⟩
  | catches => exact .inl trivial
  | settles => exact .inl trivial
  | _ => exact .inl trivial

theorem Fenced.moved {stopped : TaskRow → Prop} {r r' : Option TaskRow} (fenced : Fenced k r)
    (moved : Moved k stopped r r') : Fenced k r' := by
  obtain ⟨old, found, final⟩ := fenced
  cases found' : r' with
  | none => exact absurd found' (moved.ne_none (by rw [found]; exact Option.some_ne_none _))
  | some new =>
    refine ⟨new, rfl, fun token => ?_⟩
    obtain ⟨old', before, token', allowed, -⟩ := moved.mine found' token
    cases found.symm.trans before
    rw [(final token').eq_of_allowed allowed]
    exact final token'

end doomed

/-- No step of the system brings a doomed run back to its builder. -/
theorem doomed_step {s t : State} {a : Action} {k : BuildToken} {p : Pid} {pc : RunPc}
    (shape : Shape s) (h : step s a = some t) (doomed : Doomed s k p pc) :
    ∃ pc', Doomed t k p pc' := by
  obtain ⟨pc', run⟩ := runs_step h doomed.run
  refine ⟨pc', run, ?_⟩
  cases observed shape h run with
  | born _ before => cases before.symm.trans doomed.run
  | own e pc₀ _ before alive move =>
    cases before.symm.trans doomed.run
    rcases doomed.why with dead | passed | ⟨early, cancelled⟩ | ⟨place, fenced⟩
    · cases dead.symm.trans alive
    · exact .inr (.inl (move.stays_over passed))
    · rcases move.early_cancelled early cancelled with passed | early
      · exact .inr (.inl passed)
      · exact .inr (.inr (.inl early))
    · rcases move.fenced place fenced with passed | fenced
      · exact .inr (.inl passed)
      · exact .inr (.inr (.inr fenced))
  | passive before change =>
    cases before.symm.trans doomed.run
    rcases doomed.why with dead | passed | ⟨early, cancelled⟩ | ⟨place, fenced⟩
    · exact .inl (dead_step h dead)
    · exact .inr (.inl passed)
    · refine .inr (.inr (.inl ⟨early, ?_⟩))
      have cancelled : (s.view p k).task.status = .cancelled := cancelled
      change (t.view p k).task.status = .cancelled
      cases change with
      | elsewhere _ task => rw [task, cancelled]
      | marks _ _ _ _ _ task => rcases task with ⟨was, -⟩ | ⟨was, -⟩ <;> cases was.symm.trans cancelled
      | expires _ _ _ was => cases was.symm.trans cancelled
      | persists _ _ _ _ _ _ _ task => rw [task, cancelled]
    · refine .inr (.inr (.inr ⟨place, ?_⟩))
      have fenced : Fenced k (s.view p k).row := fenced
      change Fenced k (t.view p k).row
      cases change with
      | elsewhere moved => exact fenced.moved moved
      | marks _ _ _ row => exact row ▸ fenced
      | expires _ row => exact row ▸ fenced
      | persists _ _ _ _ _ _ row => exact row ▸ fenced.written persistTask_written

theorem neverExecutes_of_doomed {s : State} {k : BuildToken} {p : Pid} {pc : RunPc} (shape : Shape s)
    (doomed : Doomed s k p pc) : NeverExecutes s k := by
  intro as t run
  have last : Shape t ∧ ∃ pc, Doomed t k p pc :=
    run.invariant (P := fun s => Shape s ∧ ∃ pc, Doomed s k p pc) ⟨shape, pc, doomed⟩
      (fun x a y ⟨shape, pc, doomed⟩ _ enabled =>
        ⟨shape_step shape enabled, doomed_step shape enabled doomed⟩)
  obtain ⟨-, pc', here, why⟩ := last
  rintro ⟨q, running, alive⟩
  cases here.symm.trans running
  rcases why with dead | passed | ⟨early, -⟩ | ⟨⟨early, -⟩ | building, -⟩
  · cases dead.symm.trans alive
  · exact passed
  · exact early
  · exact early
  · cases building

/-- In an honest state a generation cancelled in its row does not run again. -/
theorem trulyCancelled_of_row {s : State} {row : TaskRow} (shape : Shape s) (honest : AllHonest s)
    (found : s.row = some row) (cancelled : row.status = .cancelled) : TrulyCancelled s := by
  refine ⟨row, found, cancelled, ?_⟩
  obtain ⟨pc, run⟩ := shape.owner row found
  suffices doomed : Doomed s row.buildToken row.ownerPid pc from neverExecutes_of_doomed shape doomed
  refine ⟨run, ?_⟩
  have fenced : Fenced row.buildToken s.row :=
    ⟨row, found, fun _ => .inr (.inr (.inl cancelled))⟩
  cases dead : s.dead row.ownerPid with
  | true => exact .inl rfl
  | false =>
    have started : ¬ (pc = .start ∨ pc = .builder) := fun place =>
      ((honest _ _ _ run).executing dead place row found rfl).2 cancelled
    by_cases first : pc = .persistQueued
    · subst first
      exact .inr (.inr (.inl ⟨trivial, (shape.run _ _ _ run).early rfl row found rfl⟩))
    · cases pc with
      | check site => cases site <;> simp [RunPc.Over, RunPc.Early, fenced]
      | _ => simp_all [RunPc.Over, RunPc.Early]

theorem shape_and_honest {identity : Pid → String} {as : List Action} {s : State}
    (run : Run step Meets (State.initial identity) as s) : Shape s ∧ AllHonest s :=
  run.invariant (P := fun s => Shape s ∧ AllHonest s)
    ⟨shape_initial identity, fun _ _ _ h => nomatch h⟩
    (fun _ _ _ ⟨shape, honest⟩ meets enabled =>
      ⟨shape_step shape enabled, allHonest_step shape honest meets enabled⟩)

/-- The cancel `c` returns `cancelled` in the step from `s` to `t`. -/
def Returns (s t : State) (c : CancelId) : Prop :=
  ∃ p, t.cancels c = some (p, .returned .cancelled) ∧ s.cancels c ≠ some (p, .returned .cancelled)

theorem updateRow_accepted (now : Time) {u : UpdateArgs} {row : TaskRow} {status : BuildStatus}
    (token : row.buildToken = u.buildToken) (new : u.status = some status)
    (allowed : Allowed row.status status) :
    (updateRow now u (some row)).1 = some (u.merge now row) ∧ (u.merge now row).status = status := by
  refine ⟨?_, by simp [UpdateArgs.merge, new]⟩
  simp [updateRow, token, new, allowed]

/-- The row after a step in which a cancel answers `cancelled` is cancelled. -/
theorem row_of_returns {s t : State} {c : CancelId} {e : Choice} (shape : Shape s)
    (honest : AllHonest s) (meets : Meets s (.cancelStep c e))
    (enabled : step s (.cancelStep c e) = some t) (returns : Returns s t c) :
    ∃ row, t.row = some row ∧ row.status = .cancelled := by
  obtain ⟨p, here, -⟩ := returns
  cases step_cases enabled with | cancelStep _ _ p₀ pc₀ pc' v' cancel move => ?_
  have place : p₀ = p ∧ pc' = .returned .cancelled := by simpa [State.afterCancel] using here
  obtain ⟨rfl, rfl⟩ := place
  have condition := meets (p₀, pc₀) cancel
  have holds := shape.cancel c p₀ pc₀ cancel
  change ∃ row, v'.row = some row ∧ row.status = .cancelled
  generalize cancelled' : Outcome.cancelled = outcome at move
  generalize place' : CancelPc.returned outcome = pc' at move
  cases move with
  | answers _ _ quiet =>
    cases place'
    exact absurd cancelled'.symm quiet
  | remembers _ k task free where' latest found marked =>
    rw [latest] at found
    cases found
    have current : s.tasks p₀ = some k := by rcases where' with rfl | rfl <;> exact latest
    have answer : (∃ row, s.row = some row ∧ row.buildToken = k ∧ row.status ≠ .cancelFailed) ∧
        ∀ r ∈ s.runs k, r.2 ≠ .persistCancelled := by
      rcases where' with rfl | rfl <;> exact condition k current marked
    obtain ⟨⟨row, found, token, live⟩, settled⟩ := answer
    obtain ⟨pc, run⟩ := shape.current p₀ k current
    refine ⟨row, found, ?_⟩
    rcases (honest k p₀ pc run).settled marked with ⟨row', found', status⟩ | rfl | ⟨held, -⟩ | ⟨_, held⟩
    · cases found.symm.trans found'
      have status := status token
      revert status live
      cases row.status <;> decide
    · exact absurd rfl (settled _ run)
    · cases (show s.guard p₀ = none from free).symm.trans held
    · cases (show s.guard p₀ = none from free).symm.trans held
  | sees _ row _ found marked => exact ⟨row, found, marked⟩
  | vanished gone => exact absurd gone holds
  | turns _ _ turn =>
    subst place'
    cases turn
  | marksQueued => cases place'
  | marksBuilding => cases place'
  | expires => cases place'
  | persistsQueued k task found =>
    obtain ⟨quiet, own⟩ := condition
    obtain ⟨new, write, status⟩ := persistTask_settles s.identity p₀ k task .cancelled s.row quiet
      (fun old found _ => (own old found).2)
    refine ⟨new, write, status ?_⟩
    have written : Written p₀ k task .cancelled false s.row
        (persistTask s.identity p₀ k e task .cancelled false s.row).1 := persistTask_written
    rw [write] at written
    generalize row' : s.row = r at written own
    cases written with
    | kept => exact (own new rfl).1
    | fresh _ _ _ token => exact token
    | merged _ _ _ token => exact token
  | persistsBuilding k task _ found next =>
    subst place'
    rcases next with next | next <;> cases next
    cases cancelled'
  | updates _ u _ update =>
    subst place'
    cases update with
    | cancelFailing k _ quiet => exact absurd cancelled'.symm quiet
    | casQueued k now =>
      obtain ⟨row, found, token, status⟩ := condition
      have allowed : Allowed row.status .cancelled := by rcases status with h | h <;> rw [h] <;> decide
      obtain ⟨write, status'⟩ :=
        updateRow_accepted e.now (u := requestArgs k .cancelled (some now)) token rfl allowed
      exact ⟨_, by rw [← write, ← found]; rfl, status'⟩
    | casReclaimed k =>
      obtain ⟨row, found, token, allowed⟩ := condition
      obtain ⟨write, status'⟩ :=
        updateRow_accepted e.now (u := requestArgs k .cancelled none) token rfl allowed
      exact ⟨_, by rw [← write, ← found]; rfl, status'⟩
    | casFailed k => cases cancelled'

/-- In a run whose steps meet the conditions a cancel that returns `cancelled` has
cancelled the generation of the row, whose builder is not executed then or later. -/
theorem cancel_never_false {identity : Pid → String} {as : List Action} {s t : State} {a : Action}
    {c : CancelId} (run : Run step Meets (State.initial identity) as s) (meets : Meets s a)
    (enabled : step s a = some t) (returns : Returns s t c) : TrulyCancelled t := by
  obtain ⟨shape, honest⟩ := shape_and_honest run
  have own : ∃ e, a = .cancelStep c e := by
    obtain ⟨p, here, other⟩ := returns
    rcases cancels_step enabled here with own | ⟨before, -⟩ | called
    · exact own
    · exact absurd before other
    · cases called
  obtain ⟨e, rfl⟩ := own
  obtain ⟨row, found, cancelled⟩ := row_of_returns shape honest meets enabled returns
  exact trulyCancelled_of_row (shape_step shape enabled)
    (allHonest_step shape honest meets enabled) found cancelled

/-- Nothing fails, a slot is free, and the builder returns. -/
def calm : Choice := ⟨1, false, false, .slot, .returns, false, true, false⟩

/-- A process registers and persists the build 7, which another process finds queued. -/
def readQueued : List Action :=
  [.register 10 7, .runStep 7 calm, .cancelCall 20 0, .cancelStep 0 calm, .cancelStep 0 calm]

/-- The build starts before the other process updates the row it has read. -/
def lateUpdate : List Action :=
  readQueued ++ [.runStep 7 calm, .runStep 7 calm, .runStep 7 calm, .runStep 7 calm]

def beforeUpdate : State :=
  (exec step (State.initial fun _ => "") lateUpdate).getD (State.initial fun _ => "")

def afterUpdate : State := (step beforeUpdate (.cancelStep 0 calm)).getD beforeUpdate

theorem cancel_false_lateUpdate : ¬ ∀ identity as s a t c,
    Run step anyStep (State.initial identity) as s → step s a = some t → Returns s t c →
    TrulyCancelled t := by
  intro claim
  have before : exec step (State.initial fun _ => "") lateUpdate = some beforeUpdate := rfl
  have update : step beforeUpdate (.cancelStep 0 calm) = some afterUpdate := rfl
  have returns : Returns beforeUpdate afterUpdate 0 := ⟨20, rfl, by decide⟩
  obtain ⟨row, found, -, never⟩ := claim _ _ _ _ _ 0 (.of_exec before) update returns
  have token : row.buildToken = 7 := by
    have carried : afterUpdate.row.map TaskRow.buildToken = some 7 := rfl
    rw [found] at carried
    exact Option.some.inj carried
  have running : Executing afterUpdate 7 := ⟨10, rfl, rfl⟩
  exact never [] _ (.refl _) (token ▸ running)

def queuedState : State :=
  (exec step (State.initial fun _ => "") readQueued).getD (State.initial fun _ => "")

theorem cancel_never_false_readQueued :
    ∃ t, step queuedState (.cancelStep 0 calm) = some t ∧ TrulyCancelled t := by
  have run : Run step Meets (State.initial fun _ => "") readQueued queuedState := .of_guarded rfl
  have meets : Meets queuedState (.cancelStep 0 calm) := by decide
  exact ⟨_, rfl, cancel_never_false (c := 0) run meets rfl ⟨20, rfl, by decide⟩⟩

end LocalWebAccess.BuildQueueMachine
