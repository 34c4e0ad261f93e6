import LocalWebAccess.BuildQueueSteps

/-!
# What holds in every reachable state of the build queues

A run sees its row, its task in memory and the lock of its process. Its own
steps and the steps of all other threads change that view in the ways listed
here, and keep the invariants below whatever the surroundings do.
-/
namespace LocalWebAccess.BuildQueueMachine
open BuildTaskTable

/-- The statuses that a run's task can have in memory at each place. -/
def RunPc.memory : RunPc → List BuildStatus
  | .persistQueued | .acquire | .markQueued | .persistRequeued | .acquireWait | .markTimeout =>
    [.queued, .cancelled]
  | .check .queueFull | .check .queueTimeout | .check .slot => [.queued, .cancelled]
  | .readAgain .queueFull | .readAgain .queueTimeout | .readAgain .slot => [.queued]
  | .pending .queueFull | .pending .queueTimeout | .pending .slot => [.cancelled, .cancelling]
  | .persistTimeout => [.failed]
  | .persistBuilding | .start | .builder | .caughtCancelled => [.building, .cancelling, .cancelFailed]
  | .check .refusedBuilding | .check .finish => [.building, .cancelling, .cancelFailed]
  | .readAgain .refusedBuilding | .readAgain .finish => [.building, .cancelFailed]
  | .pending .refusedBuilding => [.building, .cancelled, .cancelling, .cancelFailed]
  | .pending .finish => [.cancelled, .cancelling]
  | .persistSuccess | .check .refusedSuccess | .readAgain .refusedSuccess => [.success]
  | .pending .refusedSuccess => [.success, .cancelled, .cancelling]
  | .persistCancelled => [.cancelled]
  | .caughtOther => [.queued, .building, .cancelling, .success, .failed, .cancelled, .cancelFailed]
  | .ended => [.success, .failed, .cancelled]

/-- The places where a run holds the lock between two steps. -/
def RunPc.Holds : RunPc → Prop
  | .readAgain _ | .pending _ => True
  | _ => False

/-- The places that a run can reach from its start without taking the lock. -/
def RunPc.Unlocked : RunPc → Prop
  | .persistQueued | .acquire | .markQueued | .persistRequeued | .acquireWait | .markTimeout => True
  | .check .queueFull | .check .queueTimeout | .check .slot | .persistTimeout | .caughtOther => True
  | _ => False

/-- The row carries the run's token with one of the statuses. -/
def RowHas (k : BuildToken) (r : Option TaskRow) (ss : List BuildStatus) : Prop :=
  ∃ row, r = some row ∧ row.buildToken = k ∧ row.status ∈ ss

/-- What holds of a run and what it sees in every reachable state. -/
structure RunShape (k : BuildToken) (pc : RunPc) (v : View) : Prop where
  memory : v.task.status ∈ pc.memory
  held : pc.Holds → v.guard = some (.run k)
  early : pc = .persistQueued → ∀ row, v.row = some row → row.buildToken = k →
    v.task.status = .cancelled
  unmarked : v.task.status = .queued → v.task.cancelRequestedAt = none
  unrequested : v.task.status = .queued → ∀ row, v.row = some row → row.buildToken = k →
    row.status = .queued ∨ row.status = .building → row.cancelRequestedAt = none
  failed : RowHas k v.row [.failed] → v.task.status = .failed
  success : RowHas k v.row [.success] → v.task.status = .success ∧ pc = .ended
  seen : ∀ site, pc = .readAgain site → ∃ row, v.row = some row ∧ (row.buildToken = k →
    row.status ∈ [.cancelling, .cancelled, .cancelFailed] ∨ row.cancelRequestedAt ≠ none)

section own

variable {identity : Pid → String} {p : Pid} {k : BuildToken} {e : Choice} {v v' : View}
  {pc pc' : RunPc}

theorem mem_memory_caughtOther (s : BuildStatus) : s ∈ RunPc.memory .caughtOther := by
  cases s <;> decide

theorem copyRequest_status (row : Option TaskRow) :
    (copyRequest e row).status = .cancelling ∨ (copyRequest e row).status = .cancelled := by
  unfold copyRequest
  split_ifs
  · exact .inl rfl
  · exact .inr rfl

theorem RunPc.memory_of_goes (h : pc' ∈ pc.goes) : pc.memory ⊆ pc'.memory := by
  cases pc with
  | check site => cases site <;> simp [RunPc.goes] at h <;> rcases h with rfl | rfl <;> decide
  | _ => simp [RunPc.goes] at h <;> (try rcases h with rfl | rfl | rfl) <;> decide

theorem RunPc.memory_of_persists {status : BuildStatus} {replaces : Bool} {accepted refused : RunPc}
    (h : pc.persists = some (status, replaces, accepted, refused)) :
    pc.memory ⊆ accepted.memory ∧ pc.memory ⊆ refused.memory := by
  cases pc <;> simp only [RunPc.persists, Option.some.injEq, Prod.mk.injEq, reduceCtorEq] at h <;>
    obtain ⟨-, -, rfl, rfl⟩ := h <;> decide

theorem RunMove.memory (h : RunMove identity p k e v pc pc' v') (memory : v.task.status ∈ pc.memory) :
    v'.task.status ∈ pc'.memory := by
  cases h with
  | goes _ _ route => exact RunPc.memory_of_goes route memory
  | persists _ _ status replaces accepted refused route next =>
    obtain ⟨first, second⟩ := RunPc.memory_of_persists route
    split_ifs at next
    · exact next ▸ first memory
    · exact next ▸ second memory
  | enters site free why =>
    rcases why with (marked | marked) | rfl | rfl
    · cases site <;> simp_all [RunPc.memory]
    · cases site <;> simp_all [RunPc.memory]
    · exact (by decide : (RunPc.check .refusedBuilding).memory ⊆
        (RunPc.pending .refusedBuilding).memory) memory
    · exact (by decide : (RunPc.check .refusedSuccess).memory ⊆
        (RunPc.pending .refusedSuccess).memory) memory
  | rereads site row free unmarked found requested =>
    cases site <;> simp_all [RunPc.memory, Cancelling]
  | builds => simp [RunPc.memory]
  | succeeds => simp [RunPc.memory]
  | copies site =>
    rcases copyRequest_status (e := e) v.row with h | h <;> cases site <;> simp [RunPc.memory, h]
  | aborts => exact mem_memory_caughtOther _
  | finishes site => exact mem_memory_caughtOther _
  | requeues => simp [RunPc.memory]
  | timesOut => simp [RunPc.memory]
  | catches => simp [RunPc.memory]
  | settles free =>
    simp only [settledStatus]
    split_ifs <;> decide

theorem RunPc.not_holds_of_persists {status : BuildStatus} {replaces : Bool}
    {accepted refused : RunPc} (h : pc.persists = some (status, replaces, accepted, refused)) :
    ¬ accepted.Holds ∧ ¬ refused.Holds := by
  cases pc <;> simp only [RunPc.persists, Option.some.injEq, Prod.mk.injEq, reduceCtorEq] at h <;>
    obtain ⟨-, -, rfl, rfl⟩ := h <;> exact ⟨id, id⟩

theorem RunMove.held (h : RunMove identity p k e v pc pc' v') (held : pc.Holds → v.guard = some (.run k)) :
    pc'.Holds → v'.guard = some (.run k) := by
  intro holds
  cases h with
  | goes _ _ route =>
    cases pc with
    | check site => cases site <;> simp [RunPc.goes] at route <;> rcases route with rfl | rfl <;> cases holds
    | _ => simp [RunPc.goes] at route <;> (try rcases route with rfl | rfl | rfl) <;> cases holds
  | persists _ _ status replaces accepted refused route next =>
    obtain ⟨first, second⟩ := RunPc.not_holds_of_persists route
    split_ifs at next
    · exact absurd (next ▸ holds) first
    · exact absurd (next ▸ holds) second
  | enters => rfl
  | rereads => rfl
  | copies => exact held trivial
  | _ => cases holds

/-- The row after a step is the one before or one upsert of the run. -/
theorem RunMove.written (h : RunMove identity p k e v pc pc' v') :
    v'.row = v.row ∨ ∃ status replaces,
      v'.row = (persistTask identity p k e v'.task status replaces v.row).1 ∧
      ((pc.persists.map (fun w => (w.1, w.2.1)) = some (status, replaces) ∧ v'.task = v.task) ∨
        replaces = false ∧ status = v'.task.status ∧ ((∃ site, pc = .pending site) ∨ pc = .caughtOther)) := by
  cases h with
  | persists _ _ status replaces accepted refused route =>
    exact .inr ⟨status, replaces, rfl, .inl ⟨by rw [route]; rfl, rfl⟩⟩
  | finishes site => exact .inr ⟨.cancelled, false, rfl, .inr ⟨rfl, rfl, .inl ⟨site, rfl⟩⟩⟩
  | settles => exact .inr ⟨_, false, rfl, .inr ⟨rfl, rfl, .inr rfl⟩⟩
  | _ => exact .inl rfl

/-- A status newly in the row of `k` is the one that was written. -/
theorem Written.has {task : BuildTask} {status : BuildStatus} {replaces : Bool} {r r' : Option TaskRow}
    {ss : List BuildStatus} (h : Written p k task status replaces r r') (has : RowHas k r' ss) :
    RowHas k r ss ∨ status ∈ ss := by
  obtain ⟨row, found, token, member⟩ := has
  cases h with
  | kept => exact .inl ⟨row, found, token, member⟩
  | fresh _ row' _ _ _ new =>
    cases found
    exact .inr (new ▸ member)
  | merged old row' _ _ _ _ new =>
    cases found
    exact .inr (new ▸ member)

/-- Nothing leads out of the last place. -/
theorem RunMove.not_ended (h : RunMove identity p k e v pc pc' v') : pc ≠ .ended := by
  rintro rfl
  cases h with
  | goes _ _ route => simp [RunPc.goes] at route
  | persists _ _ _ _ _ _ route => cases route
  | aborts _ where' => rcases where' with h | ⟨_, h⟩ <;> cases h

theorem RunMove.not_persistQueued (h : RunMove identity p k e v pc pc' v') : pc' ≠ .persistQueued := by
  rintro rfl
  cases h with
  | goes _ _ route =>
    cases pc with
    | check site => cases site <;> simp [RunPc.goes] at route
    | _ => simp [RunPc.goes] at route
  | persists _ _ status replaces accepted refused route next =>
    cases pc <;> simp only [RunPc.persists, Option.some.injEq, Prod.mk.injEq, reduceCtorEq] at route <;>
      obtain ⟨-, -, rfl, rfl⟩ := route <;> simp at next

theorem settledStatus_cases (s : BuildStatus) :
    settledStatus s = .cancelled ∨ settledStatus s = .failed := by
  unfold settledStatus
  split_ifs
  · exact .inl rfl
  · exact .inr rfl

/-- A task that is queued after a step has not been changed by it. -/
theorem RunMove.task_of_queued (h : RunMove identity p k e v pc pc' v')
    (memory : v.task.status ∈ pc.memory) (queued : v'.task.status = .queued) : v'.task = v.task := by
  cases h with
  | builds => cases queued
  | succeeds => cases queued
  | copies => rcases copyRequest_status (e := e) v.row with h | h <;> rw [h] at queued <;> cases queued
  | finishes => cases queued
  | requeues free live =>
    have before : v.task.status = .queued := by simp_all [RunPc.memory]
    rw [← before]
  | timesOut => cases queued
  | catches => cases queued
  | settles =>
    rcases settledStatus_cases v.task.status with h | h <;> rw [h] at queued <;> cases queued
  | _ => rfl

theorem RunMove.failed_stays (h : RunMove identity p k e v pc pc' v')
    (memory : v.task.status ∈ pc.memory) (failed : v.task.status = .failed) :
    v'.task.status = .failed := by
  rw [failed] at memory
  cases h with
  | builds => exact absurd memory (by decide)
  | succeeds => exact absurd memory (by decide)
  | copies site => cases site <;> exact absurd memory (by decide)
  | finishes site => cases site <;> exact absurd memory (by decide)
  | requeues => exact absurd memory (by decide)
  | timesOut => rfl
  | catches => exact absurd memory (by decide)
  | settles =>
    rw [failed]
    rfl
  | _ => exact failed

theorem RunPc.eq_of_persists {status : BuildStatus} {replaces : Bool} {accepted refused : RunPc}
    (h : pc.persists = some (status, replaces, accepted, refused)) :
    (status = .failed → pc = .persistTimeout) ∧
      (status = .success → pc = .persistSuccess ∧ accepted = .ended) := by
  cases pc <;> simp only [RunPc.persists, Option.some.injEq, Prod.mk.injEq, reduceCtorEq] at h <;>
    obtain ⟨rfl, -, rfl, -⟩ := h <;> simp

theorem RunMove.unrequested (h : RunMove identity p k e v pc pc' v') (shape : RunShape k pc v)
    (queued : v'.task.status = .queued) {row : TaskRow} (found : v'.row = some row)
    (token : row.buildToken = k) (live : row.status = .queued ∨ row.status = .building) :
    row.cancelRequestedAt = none := by
  have same := h.task_of_queued shape.memory queued
  have before : v.task.status = .queued := same ▸ queued
  have none' := shape.unmarked before
  rcases h.written with keep | ⟨status, replaces, write, -⟩
  · exact shape.unrequested before row (keep ▸ found) token live
  · have written : Written p k v'.task status replaces v.row
        (persistTask identity p k e v'.task status replaces v.row).1 := persistTask_written
    rw [← write, found, same] at written
    generalize old' : v.row = r at written
    cases written with
    | kept => exact shape.unrequested before row old' token live
    | fresh _ _ _ _ _ _ requested => rw [requested, none']
    | merged old _ mine _ _ allowed new requested =>
      have early : old.status = .queued ∨ old.status = .building := by
        rw [new] at live
        rcases live with rfl | rfl <;> revert allowed <;> cases old.status <;> decide
      rw [requested, none', shape.unrequested before old old' mine early]
      rfl

theorem RunMove.failed (h : RunMove identity p k e v pc pc' v') (shape : RunShape k pc v)
    (has : RowHas k v'.row [.failed]) : v'.task.status = .failed := by
  have kept (has : RowHas k v.row [.failed]) : v'.task.status = .failed :=
    h.failed_stays shape.memory (shape.failed has)
  rcases h.written with keep | ⟨status, replaces, write, why⟩
  · exact kept (keep ▸ has)
  · rw [write] at has
    rcases persistTask_written.has has with before | member
    · exact kept before
    · have failed : status = .failed := List.mem_singleton.mp member
      rcases why with ⟨route, same⟩ | ⟨-, current, -⟩
      · obtain ⟨⟨_, _, accepted, refused⟩, route, eq⟩ := Option.map_eq_some_iff.mp route
        have here := (RunPc.eq_of_persists route).1 (by simp_all)
        have memory := shape.memory
        rw [here] at memory
        exact same ▸ List.mem_singleton.mp memory
      · exact current ▸ failed

theorem RunMove.success (h : RunMove identity p k e v pc pc' v') (shape : RunShape k pc v)
    (has : RowHas k v'.row [.success]) : v'.task.status = .success ∧ pc' = .ended := by
  have no (has : RowHas k v.row [.success]) : v'.task.status = .success ∧ pc' = .ended :=
    absurd (shape.success has).2 h.not_ended
  cases h with
  | persists _ _ status replaces accepted refused route next =>
    rcases persistTask_written.has has with before | member
    · exact no before
    · obtain ⟨here, last⟩ := (RunPc.eq_of_persists route).2 (List.mem_singleton.mp member)
      have memory := shape.memory
      rw [here] at memory
      split_ifs at next with accepted'
      · exact ⟨List.mem_singleton.mp memory, next.trans last⟩
      · exact no (persistTask_refused accepted' ▸ has)
  | finishes site =>
    rcases persistTask_written.has has with before | member
    · exact no before
    · cases List.mem_singleton.mp member
  | settles =>
    rcases persistTask_written.has has with before | member
    · exact no before
    · rcases settledStatus_cases v.task.status with h | h <;> rw [h] at member <;>
        cases List.mem_singleton.mp member
  | _ => exact no has

theorem RunMove.seen (h : RunMove identity p k e v pc pc' v') {site : Site} (here : pc' = .readAgain site) :
    ∃ row, v'.row = some row ∧ (row.buildToken = k →
      row.status ∈ [.cancelling, .cancelled, .cancelFailed] ∨ row.cancelRequestedAt ≠ none) := by
  subst here
  cases h with
  | goes _ _ route =>
    cases pc with
    | check site => cases site <;> simp [RunPc.goes] at route
    | _ => simp [RunPc.goes] at route
  | persists _ _ status replaces accepted refused route next =>
    obtain ⟨first, second⟩ := RunPc.not_holds_of_persists route
    split_ifs at next
    · exact absurd (next ▸ trivial) first
    · exact absurd (next ▸ trivial) second
  | rereads site row free unmarked found requested =>
    refine ⟨row, found, fun _ => ?_⟩
    rcases requested.2 with h | h | h
    · exact .inl (by simp [h])
    · exact .inl (by simp [h])
    · exact .inr h

/-- A run's own steps keep the shape. -/
theorem RunMove.shape (h : RunMove identity p k e v pc pc' v') (shape : RunShape k pc v) :
    RunShape k pc' v' where
  memory := h.memory shape.memory
  held := h.held shape.held
  early := fun first => absurd first h.not_persistQueued
  unmarked := by
    intro queued
    have same := h.task_of_queued shape.memory queued
    rw [same] at queued ⊢
    exact shape.unmarked queued
  unrequested := fun queued _ found token live => h.unrequested shape queued found token live
  failed := h.failed shape
  success := h.success shape
  seen := fun _ here => h.seen here

theorem RunMove.guard (h : RunMove identity p k e v pc pc' v')
    (held : pc.Holds → v.guard = some (.run k)) :
    v'.guard = v.guard ∨ v.guard = none ∧ v'.guard = some (.run k) ∨
      v.guard = some (.run k) ∧ v'.guard = none := by
  cases h with
  | enters _ free => exact .inr (.inl ⟨free, rfl⟩)
  | rereads _ _ free => exact .inr (.inl ⟨free, rfl⟩)
  | aborts _ where' =>
    refine .inr (.inr ⟨held ?_, rfl⟩)
    rcases where' with rfl | ⟨site, rfl⟩ <;> trivial
  | finishes site => exact .inr (.inr ⟨held trivial, rfl⟩)
  | _ => exact .inl rfl

end own

/-- The token of the task whose section is open. -/
def Holder.token : Holder → BuildToken
  | .run k => k
  | .cancel _ k => k

/-- The lock changes hands, if at all, for tasks other than that of `k`. -/
def Elsewhere (k : BuildToken) (g g' : Option Holder) : Prop :=
  g' = g ∨ (∀ h, g = some h → h.token ≠ k) ∧ (∀ h, g' = some h → h.token ≠ k)

/-- Everything another thread can do to what the run of `k` in process `p` sees. `released`
holds of the cancels that may give up the lock, with what they persist. -/
inductive Passive (p : Pid) (k : BuildToken) (stopped : TaskRow → Prop)
    (released : CancelId → Choice → BuildStatus → Prop) (v v' : View) : Prop where
  | elsewhere (row : Moved k stopped v.row v'.row) (task : v'.task = v.task)
      (guard : Elsewhere k v.guard v'.guard)
  | marks (c : CancelId) (now : Time) (free : v.guard = none) (row : v'.row = v.row)
      (guard : v'.guard = some (.cancel c k))
      (task : v.task.status = .queued ∧ v'.task = ⟨.cancelled, some now⟩ ∨
        v.task.status = .building ∧ v'.task = ⟨.cancelling, some now⟩)
  | persists (identity : Pid → String) (c : CancelId) (e : Choice) (status : BuildStatus)
      (holder : v.guard = some (.cancel c k)) (release : released c e status)
      (row : v'.row = (persistTask identity p k e v.task status false v.row).1)
      (task : v'.task = v.task) (guard : v'.guard = none)
      (why : status = .cancelled ∧ (v.task.status = .cancelled ∨ v.task.status = .failed) ∨
        status = .cancelling ∧ v.task.status = .cancelling)
  | expires (free : v.guard = none) (row : v'.row = v.row) (guard : v'.guard = none)
      (before : v.task.status = .cancelling) (after : v'.task = { v.task with status := .cancelFailed })

/-- The statuses a cancel may set keep a run's place and memory in agreement. -/
theorem RunPc.memory_marked {pc : RunPc} {s : BuildStatus} (memory : s ∈ pc.memory)
    (free : ¬ pc.Holds) :
    (s = .queued → .cancelled ∈ pc.memory) ∧ (s = .building → .cancelling ∈ pc.memory) ∧
      (s = .cancelling → .cancelFailed ∈ pc.memory) := by
  cases pc with
  | check site => cases site <;> cases s <;> revert memory <;> decide
  | readAgain site => exact absurd trivial free
  | pending site => exact absurd trivial free
  | _ => cases s <;> revert memory <;> decide

/-- A row of the run's generation was of that generation before another thread's step. -/
theorem Moved.mine {k : BuildToken} {stopped : TaskRow → Prop} {r r' : Option TaskRow} {row : TaskRow}
    (h : Moved k stopped r r') (found : r' = some row) (token : row.buildToken = k) :
    ∃ old, r = some old ∧ old.buildToken = k ∧ Allowed old.status row.status ∧
      (old.cancelRequestedAt ≠ none → row.cancelRequestedAt ≠ none) ∧
      (row.status = old.status ∧ row.cancelRequestedAt = old.cancelRequestedAt ∨
        row.status = .cancelling ∨ row.status = .cancelFailed ∨
        row.status = .cancelled ∧ stopped old) := by
  cases h with
  | same => exact ⟨row, found, token, Allowed.refl _, id, .inl ⟨rfl, rfl⟩⟩
  | other _ row' other =>
    cases found
    exact absurd token other
  | advance old row' before _ _ requested allowed new =>
    cases found
    exact ⟨old, rfl, before, allowed, requested, new⟩

theorem Moved.ne_none {k : BuildToken} {stopped : TaskRow → Prop} {r r' : Option TaskRow}
    (h : Moved k stopped r r') (before : r ≠ none) : r' ≠ none := by
  cases h with
  | same => exact before
  | other => exact Option.some_ne_none _
  | advance => exact Option.some_ne_none _

theorem Moved.has {k : BuildToken} {stopped : TaskRow → Prop} {r r' : Option TaskRow}
    {s : BuildStatus} (h : Moved k stopped r r') (has : RowHas k r' [s])
    (own : s ≠ .cancelling ∧ s ≠ .cancelFailed ∧ s ≠ .cancelled) : RowHas k r [s] := by
  obtain ⟨row, found, token, member⟩ := has
  have status := List.mem_singleton.mp member
  obtain ⟨old, found', before, -, -, new⟩ := h.mine found token
  rcases new with ⟨new, -⟩ | new | new | ⟨new, -⟩
  · exact ⟨old, found', before, by rw [← new]; exact member⟩
  · exact absurd (status.symm.trans new) own.1
  · exact absurd (status.symm.trans new) own.2.1
  · exact absurd (status.symm.trans new) own.2.2

section passive

variable {p : Pid} {k : BuildToken} {stopped : TaskRow → Prop}
  {released : CancelId → Choice → BuildStatus → Prop} {pc : RunPc} {v v' : View}

theorem RunShape.elsewhere (shape : RunShape k pc v) (row : Moved k stopped v.row v'.row)
    (task : v'.task = v.task) (guard : Elsewhere k v.guard v'.guard) : RunShape k pc v' where
  memory := task ▸ shape.memory
  held := by
    intro holds
    rcases guard with same | ⟨before, -⟩
    · exact same ▸ shape.held holds
    · exact absurd rfl (before _ (shape.held holds))
  early := by
    intro first new found token
    obtain ⟨old, found', before, -⟩ := row.mine found token
    exact task ▸ shape.early first old found' before
  unmarked := by
    rw [task]
    exact shape.unmarked
  unrequested := by
    rw [task]
    intro queued new found token live
    obtain ⟨old, found', before, -, -, status⟩ := row.mine found token
    rcases status with ⟨status, requested⟩ | status | status | ⟨status, -⟩
    · rw [requested]
      exact shape.unrequested queued old found' before (status ▸ live)
    · rcases live with h | h <;> cases status.symm.trans h
    · rcases live with h | h <;> cases status.symm.trans h
    · rcases live with h | h <;> cases status.symm.trans h
  failed := fun has => task ▸ shape.failed (row.has has (by decide))
  success := fun has => task ▸ shape.success (row.has has (by decide))
  seen := by
    intro site here
    obtain ⟨old, found, requested⟩ := shape.seen site here
    cases found' : v'.row with
    | none => exact absurd found' (row.ne_none (by rw [found]; exact Option.some_ne_none _))
    | some new =>
      refine ⟨new, rfl, fun token => ?_⟩
      obtain ⟨old', found'', before, allowed, kept, -⟩ := row.mine found' token
      cases found.symm.trans found''
      rcases requested before with status | at'
      · refine .inl ?_
        revert status allowed
        cases old.status <;> cases new.status <;> decide
      · exact .inr (kept at')

theorem RunShape.marks {now : Time} (shape : RunShape k pc v) (free : v.guard = none)
    (row : v'.row = v.row)
    (task : v.task.status = .queued ∧ v'.task = ⟨.cancelled, some now⟩ ∨
      v.task.status = .building ∧ v'.task = ⟨.cancelling, some now⟩) : RunShape k pc v' := by
  have open' : ¬ pc.Holds := fun holds => by
    have held := shape.held holds
    rw [free] at held
    cases held
  have table := RunPc.memory_marked shape.memory open'
  have unqueued : v'.task.status ≠ .queued := by
    rcases task with ⟨-, h⟩ | ⟨-, h⟩ <;> simp [h]
  refine ⟨?_, fun holds => absurd holds open', ?_, fun h => absurd h unqueued,
    fun h => absurd h unqueued, ?_, ?_, ?_⟩
  · rcases task with ⟨before, h⟩ | ⟨before, h⟩
    · rw [h]
      exact table.1 before
    · rw [h]
      exact table.2.1 before
  · rintro rfl old found token
    rw [row] at found
    have cancelled := shape.early rfl old found token
    rcases task with ⟨before, -⟩ | ⟨before, -⟩ <;> cases before.symm.trans cancelled
  · rw [row]
    intro has
    have failed := shape.failed has
    rcases task with ⟨before, -⟩ | ⟨before, -⟩ <;> cases before.symm.trans failed
  · rw [row]
    intro has
    have success := (shape.success has).1
    rcases task with ⟨before, -⟩ | ⟨before, -⟩ <;> cases before.symm.trans success
  · rintro site rfl
    exact absurd trivial open'

theorem RunShape.expires (shape : RunShape k pc v) (free : v.guard = none) (row : v'.row = v.row)
    (before : v.task.status = .cancelling) (after : v'.task = { v.task with status := .cancelFailed }) :
    RunShape k pc v' := by
  have open' : ¬ pc.Holds := fun holds => by
    have held := shape.held holds
    rw [free] at held
    cases held
  have status : v'.task.status = .cancelFailed := by rw [after]
  have unqueued : v'.task.status ≠ .queued := by rw [status]; decide
  refine ⟨?_, fun holds => absurd holds open', ?_, fun h => absurd h unqueued,
    fun h => absurd h unqueued, ?_, ?_, ?_⟩
  · rw [status]
    exact (RunPc.memory_marked shape.memory open').2.2 before
  · rintro rfl old found token
    rw [row] at found
    cases before.symm.trans (shape.early rfl old found token)
  · rw [row]
    exact fun has => nomatch before.symm.trans (shape.failed has)
  · rw [row]
    exact fun has => nomatch before.symm.trans (shape.success has).1
  · rintro site rfl
    exact absurd trivial open'

theorem RunShape.persists {c : CancelId} {status : BuildStatus} (shape : RunShape k pc v)
    (holder : v.guard = some (.cancel c k)) (row : Written p k v.task status false v.row v'.row)
    (task : v'.task = v.task)
    (why : status = .cancelled ∧ (v.task.status = .cancelled ∨ v.task.status = .failed) ∨
      status = .cancelling ∧ v.task.status = .cancelling) : RunShape k pc v' := by
  have open' : ¬ pc.Holds := fun holds => by
    have held := shape.held holds
    rw [holder] at held
    cases held
  have unqueued : v'.task.status ≠ .queued := by
    rw [task]
    rcases why with ⟨-, h | h⟩ | ⟨-, h⟩ <;> rw [h] <;> decide
  refine ⟨task ▸ shape.memory, fun holds => absurd holds open', ?_, fun h => absurd h unqueued,
    fun h => absurd h unqueued, ?_, ?_, ?_⟩
  · rintro rfl new found token
    have memory := shape.memory
    rw [task]
    rcases why with ⟨-, h | h⟩ | ⟨-, h⟩
    · exact h
    · rw [h] at memory
      exact absurd memory (by decide)
    · rw [h] at memory
      exact absurd memory (by decide)
  · intro has
    rcases row.has has with before | member
    · exact task ▸ shape.failed before
    · rcases why with ⟨rfl, -⟩ | ⟨rfl, -⟩ <;> cases List.mem_singleton.mp member
  · intro has
    rcases row.has has with before | member
    · exact task ▸ shape.success before
    · rcases why with ⟨rfl, -⟩ | ⟨rfl, -⟩ <;> cases List.mem_singleton.mp member
  · rintro site rfl
    exact absurd trivial open'

/-- What other threads do keeps the shape. -/
theorem RunShape.passive (shape : RunShape k pc v) (h : Passive p k stopped released v v') :
    RunShape k pc v' := by
  cases h with
  | elsewhere row task guard => exact shape.elsewhere row task guard
  | marks _ now free row guard task => exact shape.marks free row task
  | persists identity c e status holder release row task guard why =>
    exact shape.persists holder (row ▸ persistTask_written) task why
  | expires free row guard before after => exact shape.expires free row before after

end passive

/-- What holds of the cancel `c` of process `p` at each place. -/
def CancelShape (s : State) (c : CancelId) (p : Pid) : CancelPc → Prop
  | .markedQueued k => s.guard p = some (.cancel c k) ∧
      ∃ pc, s.runs k = some (p, pc) ∧ pc.Unlocked ∧ (s.mem k).status ∈ [.cancelled, .failed]
  | .markedBuilding k => s.guard p = some (.cancel c k) ∧
      ∃ pc, s.runs k = some (p, pc) ∧ (s.mem k).status = .cancelling
  | .expire k => ∃ pc, s.runs k = some (p, pc)
  | .cancelFailing k => ∃ pc, s.runs k = some (p, pc)
  | .casCancelling row => s.row ≠ none ∧ ∃ pc, s.runs row.buildToken = some (row.ownerPid, pc)
  | .casReclaimed k => ∃ q pc, s.runs k = some (q, pc) ∧ s.dead q = true
  | .polling => s.row ≠ none
  | .expirePolling => s.row ≠ none
  | _ => True

/-- The rows name the process of their run as owner. -/
def Owned (runs : BuildToken → Option (Pid × RunPc)) (r : Option TaskRow) : Prop :=
  ∀ row, r = some row → ∃ pc, runs row.buildToken = some (row.ownerPid, pc)

/-- The invariants that hold in every reachable state. -/
structure Shape (s : State) : Prop where
  owner : Owned s.runs s.row
  current : ∀ p k, s.tasks p = some k → ∃ pc, s.runs k = some (p, pc)
  run : ∀ k p pc, s.runs k = some (p, pc) → RunShape k pc (s.view p k)
  cancel : ∀ c p pc, s.cancels c = some (p, pc) → CancelShape s c p pc

theorem shape_initial (identity : Pid → String) : Shape (State.initial identity) where
  owner := fun _ h => nomatch h
  current := fun _ _ h => nomatch h
  run := fun _ _ _ h => nomatch h
  cancel := fun _ _ _ h => nomatch h

theorem Shape.subject {s : State} (shape : Shape s) {c : CancelId} {p : Pid} {pc : CancelPc}
    {k : BuildToken} (h : s.cancels c = some (p, pc)) (about : pc.subject (s.tasks p) = some k) :
    ∃ pc', s.runs k = some (p, pc') := by
  have cancel := shape.cancel c p pc h
  cases pc with
  | called => exact shape.current p k about
  | waiting => exact shape.current p k about
  | markedQueued k' =>
    cases about
    obtain ⟨-, pc', here, -⟩ := cancel
    exact ⟨pc', here⟩
  | markedBuilding k' =>
    cases about
    obtain ⟨-, pc', here, -⟩ := cancel
    exact ⟨pc', here⟩
  | expire k' =>
    cases about
    exact cancel
  | cancelFailing k' =>
    cases about
    exact cancel
  | _ => cases about

/-- The rows another thread may stop in the step `a`: those of dead owners, and the one
a cancel from another process has found queued. -/
def Stops (s : State) (a : Action) (row : TaskRow) : Prop :=
  s.dead row.ownerPid = true ∨
    ∃ c e q, a = .cancelStep c e ∧ s.cancels c = some (q, .casQueued row.buildToken)

/-- The step `a` ends the section of the cancel `c` for the task of `k`. -/
def Releases (s : State) (a : Action) (p : Pid) (k : BuildToken) (c : CancelId) (e : Choice)
    (status : BuildStatus) : Prop :=
  a = .cancelStep c e ∧ (status = .cancelled ∧ s.cancels c = some (p, .markedQueued k) ∨
    status = .cancelling ∧ s.cancels c = some (p, .markedBuilding k))

/-- What one action of the system is for the run of `k`. -/
inductive Observed (s t : State) (a : Action) (k : BuildToken) (p : Pid) (pc : RunPc) : Prop where
  | born (here : a = .register p k) (before : s.runs k = none) (place : pc = .persistQueued)
      (view : t.view p k = ⟨s.row, ⟨.queued, none⟩, none⟩)
  | own (e : Choice) (pc₀ : RunPc) (here : a = .runStep k e) (before : s.runs k = some (p, pc₀))
      (alive : s.dead p = false)
      (move : RunMove s.identity p k e (s.view p k) pc₀ pc (t.view p k))
  | passive (before : s.runs k = some (p, pc))
      (change : Passive p k (Stops s a) (Releases s a p k) (s.view p k) (t.view p k))

theorem Passive.of_eq {p : Pid} {k : BuildToken} {stopped : TaskRow → Prop}
    {released : CancelId → Choice → BuildStatus → Prop} {v v' : View} (h : v' = v) :
    Passive p k stopped released v v' := by
  subst h
  exact .elsewhere (.same _) rfl (.inl rfl)

theorem setTask_self (mem : BuildToken → BuildTask) (subject : Option BuildToken) :
    State.setTask mem subject (subject.map mem) = mem := by
  cases subject with
  | none => rfl
  | some k => exact Function.update_eq_self k mem

section observed

variable {s t : State} {k : BuildToken} {p : Pid} {pc : RunPc}

/-- A lock that only the threads of `k₀` take or leave changes elsewhere for other tasks. -/
theorem elsewhere_update {g : Pid → Option Holder} {p p₀ : Pid} {k k₀ : BuildToken}
    {g' : Option Holder} (other : k ≠ k₀)
    (change : g' = g p₀ ∨ (∀ h, g p₀ = some h → h.token = k₀) ∧ (∀ h, g' = some h → h.token = k₀)) :
    Elsewhere k (g p) (Function.update g p₀ g' p) := by
  by_cases same : p = p₀
  · subst same
    rw [Function.update_self]
    rcases change with keep | ⟨before, after⟩
    · exact .inl keep
    · refine .inr ⟨fun h eq mine => other ?_, fun h eq mine => other ?_⟩
      · rw [← mine, before h eq]
      · rw [← mine, after h eq]
  · rw [Function.update_of_ne same]
    exact .inl rfl

theorem observed_runStep {k₀ : BuildToken} {e : Choice} {p₀ : Pid} {pc₀ pc' : RunPc} {v' : View}
    (shape : Shape s) (run : s.runs k₀ = some (p₀, pc₀)) (alive : s.dead p₀ = false)
    (move : RunMove s.identity p₀ k₀ e (s.view p₀ k₀) pc₀ pc' v')
    (here : (s.afterRun p₀ k₀ (pc', v')).runs k = some (p, pc)) :
    Observed s (s.afterRun p₀ k₀ (pc', v')) (.runStep k₀ e) k p pc := by
  by_cases mine : k = k₀
  · subst mine
    have place : p₀ = p ∧ pc' = pc := by simpa [State.afterRun] using here
    obtain ⟨rfl, rfl⟩ := place
    refine .own e pc₀ rfl run alive ?_
    simpa [State.view, State.afterRun] using move
  · have before : s.runs k = some (p, pc) := by simpa [State.afterRun, mine] using here
    refine .passive before (.elsewhere ?_ ?_ ?_)
    · show Moved k _ s.row v'.row
      rcases move.written with keep | ⟨status, replaces, write, -⟩
      · rw [keep]
        exact .same _
      · rw [write]
        exact persistTask_written.moved (Ne.symm mine)
    · simp [State.view, State.afterRun, mine]
    · refine elsewhere_update mine ?_
      rcases move.guard (shape.run k₀ p₀ pc₀ run).held with keep | ⟨before, after⟩ | ⟨before, after⟩
      · exact .inl keep
      · refine .inr ⟨fun h eq => ?_, fun h eq => ?_⟩
        · cases before.symm.trans eq
        · cases after.symm.trans eq
          rfl
      · refine .inr ⟨fun h eq => ?_, fun h eq => ?_⟩
        · cases before.symm.trans eq
          rfl
        · cases after.symm.trans eq

theorem setTask_of_ne {mem : BuildToken → BuildTask} {subject : Option BuildToken}
    {task : Option BuildTask} (other : subject ≠ some k) :
    State.setTask mem subject task k = mem k := by
  cases subject with
  | none => rfl
  | some k' =>
    cases task with
    | none => rfl
    | some task => exact Function.update_of_ne (fun same => other (by rw [same])) _ _

/-- A change of the subject alone, as the other runs of the system see it. -/
theorem passive_of_other {p₀ : Pid} {c : CancelId} {k₀ : BuildToken} {pc' : CancelPc} {v' : CancelView}
    {stopped : TaskRow → Prop} {released : CancelId → Choice → BuildStatus → Prop} (other : k ≠ k₀)
    (row : Moved k stopped s.row v'.row)
    (guard : v'.guard = s.guard p₀ ∨
      (∀ h, s.guard p₀ = some h → h.token = k₀) ∧ (∀ h, v'.guard = some h → h.token = k₀)) :
    Passive p k stopped released (s.view p k) ((s.afterCancel p₀ c (some k₀) (pc', v')).view p k) :=
  .elsewhere row (setTask_of_ne (fun same => other (Option.some.inj same).symm))
    (elsewhere_update other guard)

theorem observed_cancelStep {c : CancelId} {e : Choice} {p₀ : Pid} {pc₀ pc' : CancelPc}
    {v' : CancelView} (shape : Shape s) (cancel : s.cancels c = some (p₀, pc₀))
    (move : CancelMove s.identity s.dead p₀ c e (pc₀.subject (s.tasks p₀))
      (s.cancelView p₀ (pc₀.subject (s.tasks p₀))) pc₀ pc' v')
    (before : s.runs k = some (p, pc)) :
    Observed s (s.afterCancel p₀ c (pc₀.subject (s.tasks p₀)) (pc', v')) (.cancelStep c e) k p pc := by
  have about := fun k₀ => shape.subject (k := k₀) cancel
  have holds := shape.cancel c p₀ pc₀ cancel
  refine .passive before ?_
  have unchanged : Passive p k (Stops s (.cancelStep c e)) (Releases s (.cancelStep c e) p k)
      (s.view p k) ((s.afterCancel p₀ c (pc₀.subject (s.tasks p₀))
        (pc', s.cancelView p₀ (pc₀.subject (s.tasks p₀)))).view p k) := by
    refine .of_eq ?_
    simp [State.view, State.afterCancel, State.cancelView, setTask_self]
  generalize subject' : pc₀.subject (s.tasks p₀) = subject at move about unchanged ⊢
  cases move with
  | answers => exact unchanged
  | remembers => exact unchanged
  | sees => exact unchanged
  | vanished => exact unchanged
  | turns => exact unchanged
  | marksQueued k₀ task free latest found queued =>
    subst latest
    cases Option.some.inj found
    by_cases mine : k = k₀
    · subst mine
      obtain ⟨pc₁, same⟩ := about k rfl
      cases same.symm.trans before
      refine .marks c e.now free rfl ?_ (.inl ⟨queued, ?_⟩) <;>
        simp [State.view, State.afterCancel, State.setTask]
    · refine passive_of_other mine (.same _) (.inr ⟨fun h eq => ?_, fun h eq => ?_⟩)
      · cases free.symm.trans eq
      · cases eq
        rfl
  | marksBuilding k₀ task free latest found building =>
    subst latest
    cases Option.some.inj found
    by_cases mine : k = k₀
    · subst mine
      obtain ⟨pc₁, same⟩ := about k rfl
      cases same.symm.trans before
      refine .marks c e.now free rfl ?_ (.inr ⟨building, ?_⟩) <;>
        simp [State.view, State.afterCancel, State.setTask]
    · refine passive_of_other mine (.same _) (.inr ⟨fun h eq => ?_, fun h eq => ?_⟩)
      · cases free.symm.trans eq
      · cases eq
        rfl
  | persistsQueued k₀ task found =>
    cases subject'
    cases Option.some.inj found
    obtain ⟨locked, pc₁, same, -, status⟩ := holds
    by_cases mine : k = k₀
    · subst mine
      cases same.symm.trans before
      refine .persists s.identity c e .cancelled locked ⟨rfl, .inl ⟨rfl, cancel⟩⟩ ?_ ?_ ?_
        (.inl ⟨rfl, ?_⟩)
      · rfl
      · simp [State.view, State.afterCancel, State.setTask, State.cancelView, CancelPc.subject]
      · simp [State.view, State.afterCancel]
      · simpa [State.view] using status
    · refine passive_of_other mine (persistTask_written.moved (Ne.symm mine))
        (.inr ⟨fun h eq => ?_, fun h eq => ?_⟩)
      · cases locked.symm.trans eq
        rfl
      · cases eq
  | persistsBuilding k₀ task _ found next =>
    cases subject'
    cases Option.some.inj found
    obtain ⟨locked, pc₁, same, status⟩ := holds
    by_cases mine : k = k₀
    · subst mine
      cases same.symm.trans before
      refine .persists s.identity c e .cancelling locked ⟨rfl, .inr ⟨rfl, cancel⟩⟩ ?_ ?_ ?_
        (.inr ⟨rfl, status⟩)
      · rfl
      · simp [State.view, State.afterCancel, State.setTask, State.cancelView, CancelPc.subject]
      · simp [State.view, State.afterCancel]
    · refine passive_of_other mine (persistTask_written.moved (Ne.symm mine))
        (.inr ⟨fun h eq => ?_, fun h eq => ?_⟩)
      · cases locked.symm.trans eq
        rfl
      · cases eq
  | expires k₀ task free found =>
    cases subject'
    cases Option.some.inj found
    obtain ⟨pc₁, same⟩ := holds
    by_cases mine : k = k₀
    · subst mine
      cases same.symm.trans before
      by_cases status : (s.mem k).status = .cancelling
      · refine .expires free rfl ?_ status ?_
        · simpa [State.view, State.afterCancel, State.cancelView] using free
        · simp [State.view, State.afterCancel, State.setTask, CancelPc.subject, expired, status]
      · refine .of_eq ?_
        simp [State.view, State.afterCancel, State.setTask, CancelPc.subject, expired, status,
          State.cancelView]
    · exact passive_of_other mine (.same _) (.inl rfl)
  | updates _ u _ update =>
    refine .elsewhere ?_ ?_ (.inl ?_)
    · refine updateRow_moved _ _ _ _ _ ?_
      cases update with
      | cancelFailing => exact .inr (.inr (.inl rfl))
      | casQueued k₀ now =>
        refine .inr (.inr (.inr ⟨rfl, fun row found token => .inr ⟨c, e, p₀, rfl, ?_⟩⟩))
        rw [token]
        exact cancel
      | casCancelling => exact .inr (.inl rfl)
      | ownerDead => exact .inr (.inl rfl)
      | casReclaimed k₀ =>
        refine .inr (.inr (.inr ⟨rfl, fun row found token => .inl ?_⟩))
        obtain ⟨q, pc₁, same, gone⟩ := holds
        obtain ⟨pc₂, owner⟩ := shape.owner row found
        rw [token] at owner
        cases same.symm.trans owner
        exact gone
      | casFailed => exact .inr (.inr (.inl rfl))
    · simp [State.view, State.afterCancel, State.cancelView, setTask_self]
    · simp [State.view, State.afterCancel, State.cancelView]

/-- Every action, as the run of any task sees it. -/
theorem observed {a : Action} (shape : Shape s) (h : step s a = some t)
    (here : t.runs k = some (p, pc)) : Observed s t a k p pc := by
  cases step_cases h with
  | register p₀ k₀ free fresh =>
    by_cases mine : k = k₀
    · subst mine
      have place : p₀ = p ∧ RunPc.persistQueued = pc := by simpa [State.registerTask] using here
      obtain ⟨rfl, rfl⟩ := place
      exact .born rfl fresh rfl (by simp [State.view, State.registerTask, free])
    · have before : s.runs k = some (p, pc) := by simpa [State.registerTask, mine] using here
      exact .passive before (.of_eq (by simp [State.view, State.registerTask, mine]))
  | runStep k₀ e p₀ pc₀ pc' v' run alive move => exact observed_runStep shape run alive move here
  | cancelCall p₀ c => exact .passive here (.of_eq rfl)
  | cancelStep c e p₀ pc₀ pc' v' cancel move => exact observed_cancelStep shape cancel move here
  | recordWorker k₀ now pid pgid workerIdentity clearWorker =>
    refine .passive here (.elsewhere ?_ rfl (.inl rfl))
    exact updateRow_moved _ _ _ _ _ (.inl ⟨rfl, rfl⟩)
  | reclaimNone => exact .passive here (.of_eq rfl)
  | reclaim now alive row found gone =>
    refine .passive here (.elsewhere ?_ rfl (.inl rfl))
    show Moved k _ s.row (some (reclaimRow now alive row))
    rw [found]
    exact reclaimRow_moved _ _ _ _ _ (fun denied => .inl (gone denied))
  | die p₀ => exact .passive here (.of_eq rfl)

/-- Runs stay in the process that registered them. -/
theorem runs_step {a : Action} (h : step s a = some t) (before : s.runs k = some (p, pc)) :
    ∃ pc', t.runs k = some (p, pc') := by
  cases step_cases h with
  | register p₀ k₀ free fresh =>
    have mine : k ≠ k₀ := by
      rintro rfl
      cases fresh.symm.trans before
    exact ⟨pc, by simp [State.registerTask, mine, before]⟩
  | runStep k₀ e p₀ pc₀ pc' v' run =>
    by_cases mine : k = k₀
    · subst mine
      cases run.symm.trans before
      exact ⟨pc', by simp [State.afterRun]⟩
    · exact ⟨pc, by simp [State.afterRun, mine, before]⟩
  | _ => exact ⟨pc, before⟩

/-- Every change of the row is an upsert for a registered run, an update, or a reclaim. -/
inductive RowChange (s : State) : Option TaskRow → Prop where
  | keeps : RowChange s s.row
  | writes (k p pc task status replaces r) (run : s.runs k = some (p, pc))
      (written : Written p k task status replaces s.row r) : RowChange s r
  | updates (now u) : RowChange s (updateRow now u s.row).1
  | reclaims (now alive row) (found : s.row = some row) :
      RowChange s (some (reclaimRow now alive row))

theorem rowChange_step {a : Action} (shape : Shape s) (h : step s a = some t) : RowChange s t.row := by
  cases step_cases h with
  | runStep k₀ e p₀ pc₀ pc' v' run alive move =>
    show RowChange s v'.row
    rcases move.written with keep | ⟨status, replaces, write, -⟩
    · rw [keep]
      exact .keeps
    · rw [write]
      exact .writes _ _ _ _ _ _ _ run persistTask_written
  | cancelStep c e p₀ pc₀ pc' v' cancel move =>
    have holds := shape.cancel c p₀ pc₀ cancel
    show RowChange s v'.row
    cases move with
    | persistsQueued k₀ task =>
      obtain ⟨-, pc₁, run, -⟩ := holds
      exact .writes _ _ _ _ _ _ _ run persistTask_written
    | persistsBuilding k₀ task =>
      obtain ⟨-, pc₁, run, -⟩ := holds
      exact .writes _ _ _ _ _ _ _ run persistTask_written
    | updates => exact .updates _ _
    | _ => exact .keeps
  | recordWorker => exact .updates _ _
  | reclaim now alive row found => exact .reclaims _ _ _ found
  | _ => exact .keeps

/-- Rows are never deleted. -/
theorem RowChange.ne_none {r : Option TaskRow} (h : RowChange s r) (before : s.row ≠ none) :
    r ≠ none := by
  cases h with
  | keeps => exact before
  | writes k p pc task status replaces r run written =>
    generalize s.row = r₀ at written before
    cases written with
    | kept => exact before
    | fresh => exact Option.some_ne_none _
    | merged => exact Option.some_ne_none _
  | updates now u =>
    cases old : s.row with
    | none => exact absurd old before
    | some row =>
      simp only [updateRow]
      split_ifs <;> exact Option.some_ne_none _
  | reclaims => exact Option.some_ne_none _

theorem RowChange.owned {r : Option TaskRow} (h : RowChange s r) (owner : Owned s.runs s.row) :
    Owned s.runs r := by
  intro row found
  cases h with
  | keeps => exact owner row found
  | writes k p pc task status replaces _ run written =>
    generalize old : s.row = r₀ at written
    cases written with
    | kept => exact owner row (old.trans found)
    | fresh _ row' _ token own =>
      cases found
      exact ⟨pc, by rw [token, own]; exact run⟩
    | merged _ row' _ token own =>
      cases found
      exact ⟨pc, by rw [token, own]; exact run⟩
  | updates now u =>
    cases old : s.row with
    | none =>
      rw [old] at found
      cases found
    | some row' =>
      have kept : row.buildToken = row'.buildToken ∧ row.ownerPid = row'.ownerPid := by
        rw [old] at found
        simp only [updateRow] at found
        split_ifs at found <;> cases found <;> exact ⟨rfl, rfl⟩
      rw [kept.1, kept.2]
      exact owner row' old
  | reclaims now alive row' old =>
    have kept : row.buildToken = row'.buildToken ∧ row.ownerPid = row'.ownerPid := by
      cases found
      unfold reclaimRow
      split_ifs <;> exact ⟨rfl, rfl⟩
    rw [kept.1, kept.2]
    exact owner row' old

theorem Owned.mono {runs runs' : BuildToken → Option (Pid × RunPc)} {r : Option TaskRow}
    (owner : Owned runs r)
    (grows : ∀ k p pc, runs k = some (p, pc) → ∃ pc', runs' k = some (p, pc')) : Owned runs' r := by
  intro row found
  obtain ⟨pc, here⟩ := owner row found
  exact grows _ _ _ here

/-- Places from which the lock is not needed lead to such places while it is taken. -/
theorem RunMove.unlocked {identity : Pid → String} {e : Choice} {v v' : View} {pc' : RunPc}
    (h : RunMove identity p k e v pc pc' v') (start : pc.Unlocked) (locked : v.guard ≠ none) :
    pc'.Unlocked := by
  cases h with
  | goes _ _ route =>
    cases pc with
    | check site => cases site <;> simp [RunPc.goes] at route <;> rcases route with rfl | rfl <;> trivial
    | _ => simp [RunPc.goes] at route <;> (try rcases route with rfl | rfl | rfl) <;> trivial
  | persists _ _ status replaces accepted refused route next =>
    cases pc <;> simp only [RunPc.persists, Option.some.injEq, Prod.mk.injEq, reduceCtorEq] at route <;>
      obtain ⟨-, -, rfl, rfl⟩ := route <;>
      first | exact absurd start id | (rw [ite_self] at next; rw [next]; trivial)
  | enters _ free => exact absurd free locked
  | rereads _ _ free => exact absurd free locked
  | builds free => exact absurd free locked
  | succeeds free => exact absurd free locked
  | copies => cases start
  | aborts => trivial
  | finishes => trivial
  | requeues free => exact absurd free locked
  | timesOut => trivial
  | catches free => exact absurd free locked
  | settles free => exact absurd free locked

/-- While a cancel holds the lock for a task that it found queued, the task stays
cancelled or its run has marked it as timed out. -/
theorem RunMove.marked {identity : Pid → String} {e : Choice} {v v' : View} {pc' : RunPc}
    (h : RunMove identity p k e v pc pc' v') (locked : v.guard ≠ none)
    (held : pc.Holds → v.guard = some (.run k)) (other : v.guard ≠ some (.run k)) :
    v'.task = v.task ∨ v'.task.status = .failed ∧ pc = .markTimeout := by
  cases h with
  | builds free => exact absurd free locked
  | succeeds free => exact absurd free locked
  | copies => exact absurd (held trivial) other
  | finishes => exact absurd (held trivial) other
  | requeues free => exact absurd free locked
  | timesOut => exact .inr ⟨rfl, rfl⟩
  | catches free => exact absurd free locked
  | settles free => exact absurd free locked
  | _ => exact .inl rfl

/-- A lock held by a cancel changes only in that cancel's own steps. -/
theorem guard_step {a : Action} {c : CancelId} (shape : Shape s) (h : step s a = some t)
    (held : s.guard p = some (.cancel c k)) :
    (∃ e, a = .cancelStep c e) ∨ t.guard p = s.guard p := by
  cases step_cases h with
  | runStep k₀ e p₀ pc₀ pc' v' run alive move =>
    refine .inr ?_
    by_cases here : p = p₀
    · subst here
      have change := move.guard (shape.run k₀ p pc₀ run).held
      have view : (s.view p k₀).guard = some (.cancel c k) := held
      rw [view] at change
      rcases change with keep | ⟨before, -⟩ | ⟨before, -⟩
      · simpa [State.afterRun, held] using keep
      · cases before
      · cases before
    · simp [State.afterRun, here]
  | cancelStep c₀ e p₀ pc₀ pc' v' cancel move =>
    have holds := shape.cancel c₀ p₀ pc₀ cancel
    by_cases here : p = p₀
    · subst here
      have keep (same : v'.guard = s.guard p) : (∃ e', Action.cancelStep c₀ e = .cancelStep c e') ∨
          (s.afterCancel p c₀ (pc₀.subject (s.tasks p)) (pc', v')).guard p = s.guard p :=
        .inr (by simp [State.afterCancel, same])
      cases move with
      | marksQueued _ _ free => cases held.symm.trans free
      | marksBuilding _ _ free => cases held.symm.trans free
      | persistsQueued k₀ =>
        cases held.symm.trans holds.1
        exact .inl ⟨e, rfl⟩
      | persistsBuilding k₀ =>
        cases held.symm.trans holds.1
        exact .inl ⟨e, rfl⟩
      | _ => exact keep rfl
    · exact .inr (by simp [State.afterCancel, here])
  | _ => exact .inr rfl

theorem dead_step {a : Action} (h : step s a = some t) (gone : s.dead p = true) :
    t.dead p = true := by
  cases step_cases h with
  | die p₀ =>
    by_cases same : p = p₀
    · simp [same]
    · simp [same, gone]
  | _ => exact gone

/-- A marked task keeps its mark through the steps of all other threads. -/
theorem marked_step {a : Action} {c : CancelId} (shape : Shape s) (h : step s a = some t)
    (foreign : ∀ e, a ≠ .cancelStep c e) (held : s.guard p = some (.cancel c k))
    (run : s.runs k = some (p, pc)) :
    t.guard p = some (.cancel c k) ∧ ∃ pc', t.runs k = some (p, pc') ∧
      (pc.Unlocked → pc'.Unlocked) ∧
      (t.mem k = s.mem k ∨ (t.mem k).status = .failed ∧ pc = .markTimeout) := by
  have keep : t.guard p = s.guard p := by
    rcases guard_step shape h held with ⟨e, own⟩ | keep
    · exact absurd own (foreign e)
    · exact keep
  obtain ⟨pc', after⟩ := runs_step h run
  refine ⟨keep.trans held, pc', after, ?_⟩
  have locked : (s.view p k).guard = some (.cancel c k) := held
  have locked' : (t.view p k).guard = some (.cancel c k) := keep.trans held
  cases observed shape h after with
  | born _ before => cases before.symm.trans run
  | own e pc₀ _ before _ move =>
    cases before.symm.trans run
    have taken : (s.view p k).guard ≠ none := by rw [locked]; exact Option.some_ne_none _
    have other : (s.view p k).guard ≠ some (.run k) := by rw [locked]; exact fun h => nomatch h
    exact ⟨fun start => move.unlocked start taken,
      move.marked taken (shape.run k p pc run).held other⟩
  | passive before change =>
    cases before.symm.trans run
    refine ⟨id, .inl ?_⟩
    cases change with
    | elsewhere _ task => exact task
    | marks _ _ free => cases locked.symm.trans free
    | persists _ _ _ _ _ _ _ task => exact task
    | expires free => cases locked.symm.trans free

theorem CancelShape.foreign {a : Action} {c : CancelId} {pc : CancelPc} (shape : Shape s)
    (h : step s a = some t) (foreign : ∀ e, a ≠ .cancelStep c e) (holds : CancelShape s c p pc) :
    CancelShape t c p pc := by
  cases pc with
  | markedQueued k =>
    obtain ⟨held, pc, run, start, status⟩ := holds
    obtain ⟨held', pc', run', start', task⟩ := marked_step shape h foreign held run
    refine ⟨held', pc', run', start' start, ?_⟩
    rcases task with same | ⟨failed, -⟩
    · rw [same]
      exact status
    · rw [failed]
      decide
  | markedBuilding k =>
    obtain ⟨held, pc, run, status⟩ := holds
    obtain ⟨held', pc', run', -, task⟩ := marked_step shape h foreign held run
    refine ⟨held', pc', run', ?_⟩
    rcases task with same | ⟨-, here⟩
    · rw [same]
      exact status
    · have memory := (shape.run k p pc run).memory
      rw [here] at memory
      change (s.mem k).status ∈ _ at memory
      rw [status] at memory
      exact absurd memory (by decide)
  | expire k =>
    obtain ⟨pc, run⟩ := holds
    exact runs_step h run
  | cancelFailing k =>
    obtain ⟨pc, run⟩ := holds
    exact runs_step h run
  | casCancelling row =>
    obtain ⟨found, pc, run⟩ := holds
    exact ⟨(rowChange_step shape h).ne_none found, runs_step h run⟩
  | casReclaimed k =>
    obtain ⟨q, pc, run, gone⟩ := holds
    obtain ⟨pc', run'⟩ := runs_step h run
    exact ⟨q, pc', run', dead_step h gone⟩
  | polling => exact (rowChange_step shape h).ne_none holds
  | expirePolling => exact (rowChange_step shape h).ne_none holds
  | _ => trivial

theorem RunPc.unlocked_of_queued (queued : .queued ∈ pc.memory) (free : ¬ pc.Holds) : pc.Unlocked := by
  cases pc with
  | check site => cases site <;> trivial
  | readAgain site => exact absurd trivial free
  | pending site => exact absurd trivial free
  | _ => trivial

/-- A cancel's own steps keep what holds at its places. -/
theorem CancelShape.own {c : CancelId} {e : Choice} {pc : CancelPc} (shape : Shape s)
    (h : step s (.cancelStep c e) = some t) (here : t.cancels c = some (p, pc)) :
    CancelShape t c p pc := by
  have rows := (rowChange_step shape h)
  cases step_cases h with | cancelStep _ _ p₀ pc₀ pc' v' cancel move => ?_
  have place : p₀ = p ∧ pc' = pc := by simpa [State.afterCancel] using here
  obtain ⟨rfl, rfl⟩ := place
  have holds := shape.cancel c p₀ pc₀ cancel
  have about := fun k => shape.subject (k := k) cancel
  cases move with
  | turns _ _ turn =>
    cases turn with
    | gaveUp k latest => exact about k latest
    | readBuilding row found =>
      have old : s.row = some row := found
      refine ⟨rows.ne_none (by rw [old]; exact Option.some_ne_none _), shape.owner row old⟩
    | polls => exact rows.ne_none holds
    | stopsPolling => exact rows.ne_none holds
    | _ => trivial
  | marksQueued k task free latest found queued =>
    obtain ⟨pc₁, run⟩ := about k latest
    have own := shape.run k p₀ pc₁ run
    rw [latest] at found
    cases found
    have open' : ¬ pc₁.Holds := fun holds => nomatch (own.held holds).symm.trans free
    refine ⟨by simp [State.afterCancel], pc₁, run, ?_, ?_⟩
    · exact RunPc.unlocked_of_queued (queued ▸ own.memory) open'
    · rw [latest]
      simp [State.afterCancel, State.setTask]
  | marksBuilding k task free latest found building =>
    obtain ⟨pc₁, run⟩ := about k latest
    refine ⟨by simp [State.afterCancel], pc₁, run, ?_⟩
    rw [latest]
    simp [State.afterCancel, State.setTask]
  | persistsBuilding k task _ found next => rcases next with rfl | rfl <;> trivial
  | expires k => exact holds
  | updates _ _ _ update =>
    cases update with
    | casCancelling => exact rows.ne_none holds.1
    | ownerDead row now gone =>
      obtain ⟨-, pc₁, run⟩ := holds
      exact ⟨row.ownerPid, pc₁, run, gone⟩
    | _ => trivial
  | _ => trivial

theorem cancels_step {a : Action} {c : CancelId} {pc : CancelPc} (h : step s a = some t)
    (here : t.cancels c = some (p, pc)) :
    (∃ e, a = .cancelStep c e) ∨ s.cancels c = some (p, pc) ∧ (∀ e, a ≠ .cancelStep c e) ∨
      pc = .called := by
  cases step_cases h with
  | cancelCall p₀ c₀ =>
    by_cases mine : c = c₀
    · subst mine
      have place : p₀ = p ∧ CancelPc.called = pc := by simpa using here
      exact .inr (.inr place.2.symm)
    · exact .inr (.inl ⟨by simpa [mine] using here, fun _ => by simp⟩)
  | cancelStep c₀ e =>
    by_cases mine : c = c₀
    · subst mine
      exact .inl ⟨e, rfl⟩
    · refine .inr (.inl ⟨by simpa [State.afterCancel, mine] using here, fun e' same => mine ?_⟩)
      cases same
      rfl
  | _ => exact .inr (.inl ⟨here, fun _ => by simp⟩)

theorem tasks_step {a : Action} (h : step s a = some t) (here : t.tasks p = some k) :
    s.tasks p = some k ∨ ∃ pc, t.runs k = some (p, pc) := by
  cases step_cases h with
  | register p₀ k₀ =>
    by_cases mine : p = p₀
    · subst mine
      have latest : k₀ = k := by simpa [State.registerTask] using here
      exact .inr ⟨.persistQueued, by simp [State.registerTask, latest]⟩
    · exact .inl (by simpa [State.registerTask, mine] using here)
  | _ => exact .inl here

theorem shape_born (shape : Shape s) (before : s.runs k = none) :
    RunShape k .persistQueued ⟨s.row, ⟨.queued, none⟩, none⟩ := by
  have stranger : ∀ row, s.row = some row → row.buildToken ≠ k := by
    rintro row found rfl
    obtain ⟨pc, run⟩ := shape.owner row found
    cases before.symm.trans run
  refine ⟨List.mem_cons_self, fun h => (nomatch h), ?_, fun _ => rfl, ?_, ?_, ?_, fun _ h => (nomatch h)⟩
  · exact fun _ row found token => absurd token (stranger row found)
  · exact fun _ row found token => absurd token (stranger row found)
  · rintro ⟨row, found, token, -⟩
    exact absurd token (stranger row found)
  · rintro ⟨row, found, token, -⟩
    exact absurd token (stranger row found)

/-- Every action keeps the invariants. -/
theorem shape_step {a : Action} (shape : Shape s) (h : step s a = some t) : Shape t where
  owner := ((rowChange_step shape h).owned shape.owner).mono (fun _ _ _ => runs_step h)
  current := by
    intro p k here
    rcases tasks_step h here with before | run
    · obtain ⟨pc, run⟩ := shape.current p k before
      exact runs_step h run
    · exact run
  run := by
    intro k p pc here
    cases observed shape h here with
    | born _ before place view =>
      rw [place, view]
      exact shape_born shape before
    | own e pc₀ _ before _ move => exact move.shape (shape.run k p pc₀ before)
    | passive before change => exact (shape.run k p pc before).passive change
  cancel := by
    intro c p pc here
    rcases cancels_step h here with ⟨e, rfl⟩ | ⟨before, foreign⟩ | rfl
    · exact CancelShape.own shape h here
    · exact CancelShape.foreign shape h foreign (shape.cancel c p pc before)
    · trivial

end observed

end LocalWebAccess.BuildQueueMachine
