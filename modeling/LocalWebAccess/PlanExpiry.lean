import LocalWebAccess.PendingLimit

/-!
# The expiry of plans

A sweep selects the expired plans that no live operation references and deletes them in another
transaction. An acceptance checks that its plan is fresh before it inserts, so it may insert for a
plan that has expired and been selected meanwhile. As long as it does not, a deletion takes away no
plan that a live operation needs.
-/
namespace LocalWebAccess.AgentOperations
open GuardedRuns

variable {host : Host} {s t : State} {a : Action} {as : List Action} {id : String}

/-- Some operation that is not terminal references the plan. -/
def Needed (s : State) (id : String) : Prop :=
  ∃ r ∈ s.operations.rows, r.planId = some id ∧ r.status.terminal = false

/-- The step deletes no plan that a live operation references. -/
def Sparing (host : Host) (s : State) (a : Action) : Prop :=
  ∀ t, step host s a = some t → ∀ p ∈ s.plans, p ∉ t.plans → ¬Needed s p.planId

/-- A sweep has selected the plan and not deleted it yet. -/
def Selected (host : Host) (s : State) (id : String) : Prop :=
  ∃ w ids, s.workers w = .forgetting ids ∧ s.life (host.process w) ≠ .dead ∧ id ∈ ids

/-- The plan of the call whose INSERT the step is. -/
def insertedPlan (s : State) : Action → Option String
  | .submit u (.insert _ _) =>
    match s.submissions u with
    | some c =>
      match c.pc with
      | .inserting acc => acc.planId
      | _ => none
    | none => none
  | _ => none

/-- An INSERT that commits is not for a plan that a sweep has selected. -/
def Unselected (host : Host) (s : State) (a : Action) : Prop :=
  storing host s a = true → ∀ id, insertedPlan s a = some id → ¬Selected host s id

/-- The step is the INSERT of a call. -/
def inserts : Action → Bool
  | .submit _ (.insert _ _) => true
  | _ => false

theorem unselected_of_not_inserts (reads : inserts a = false) : Unselected host s a := by
  intro stores
  obtain ⟨u, op, now, c, acc, rfl, -⟩ := inserting_of_storing stores
  cases reads

/-! ## One step -/

theorem not_needed_of_expired {now : ℕ} (expired : id ∈ expiredPlans s now) : ¬Needed s id := by
  rintro ⟨r, among, references, live⟩
  obtain ⟨p, selected, rfl⟩ := List.mem_map.mp (List.mem_of_mem_take expired)
  have unreferenced := (Bool.and_eq_true_iff.mp (List.mem_filter.mp selected).2).2
  rw [Bool.not_eq_true', List.any_eq_false] at unreferenced
  exact unreferenced r among (by simp [references, live])

/-- The plans of a deletion were selected as expired and unreferenced. -/
theorem forgetting_of_step {w : WorkerId} {act : WorkerAction} {ids : List String}
    (taken : workerStep host s w act = some t) (at_ : t.workers w = .forgetting ids) :
    t.operations = s.operations ∧ ∃ now, ids = expiredPlans s now := by
  cases (workerMove_of_step taken).2 with
  | expired =>
    cases (setWorker_self w _ _).symm.trans at_
    exact ⟨rfl, _, rfl⟩
  | @left _ died => cases died <;> cases (setWorker_self w _ _).symm.trans at_
  | _ => cases (setWorker_self w _ _).symm.trans at_

/-- A live operation that references a plan did so before, or has just been inserted for it. -/
theorem needed_of_step (sound : Sound s) (taken : step host s a = some t) (needed : Needed t id) :
    Needed s id ∨ (storing host s a = true ∧ insertedPlan s a = some id) := by
  obtain ⟨r', later, references, live⟩ := needed
  rcases row_of_step sound taken later with ⟨r, among, same⟩ | ⟨u, c, acc, op, now, at_, pc, fresh, rfl, at_'⟩
  · refine .inl ⟨r, among, (congrArg OperationRequest.planId same).symm.trans references, ?_⟩
    by_contra settled
    have before := statusOf_of_mem among
    have after := statusOf_of_mem later
    rw [congrArg OperationRequest.operationId same] at after
    rcases kept_of_step sound before (Bool.not_eq_false _ ▸ settled) taken with kept | ⟨gone, -⟩
    · rw [Option.some.inj (after.symm.trans kept)] at live
      exact settled live
    · cases after.symm.trans gone
  · refine .inr ?_
    rcases step_submission u taken with kept | ⟨act, rfl, move⟩
    · rw [kept, at_] at at_'
      have moved := congrArg Submission.pc (Option.some.inj at_')
      rw [pc] at moved
      cases moved
    · cases move with
      | called _ _ _ free => cases free.symm.trans at_
      | went now place next =>
        have reached := congrArg Submission.pc (Option.some.inj ((setSubmission_self s u _).symm.trans at_'))
        obtain rfl : _ = SubmitPc.inserted op := reached
        exact absurd next not_inserted_of_next
      | inserted now place pc' fresh' stored =>
        cases place.symm.trans at_
        cases pc'.symm.trans pc
        exact ⟨by simp [storing, at_, pc, fresh', stored], by
          simp only [insertedPlan, at_, pc]
          exact references⟩
      | _ =>
        have reached := congrArg Submission.pc (Option.some.inj ((setSubmission_self _ u _).symm.trans at_'))
        cases reached

/-! ## Runs -/

/-- What a sweep has selected is needed by no live operation. -/
structure Swept (host : Host) (s : State) : Prop where
  sound : Sound s
  unneeded : ∀ id, Selected host s id → ¬Needed s id

theorem Swept.onward (h : Swept host s) (meets : Unselected host s a) (taken : step host s a = some t) :
    Swept host t := by
  refine ⟨h.sound.step taken, ?_⟩
  rintro id ⟨w, ids, at_, living, among⟩ needed
  rcases step_worker w taken with same | ⟨act, rfl, taken'⟩
  · have before : Selected host s id := ⟨w, ids, same ▸ at_, dead_of_step taken living, among⟩
    rcases needed_of_step h.sound taken needed with old | ⟨stores, plan⟩
    · exact h.unneeded id before old
    · exact meets stores id plan before
  · obtain ⟨table, now, rfl⟩ := forgetting_of_step taken' at_
    refine not_needed_of_expired among ?_
    obtain ⟨r, inside, references, live⟩ := needed
    exact ⟨r, table ▸ inside, references, live⟩

/-- The plans that a step deletes were selected. -/
theorem selected_of_deleted (taken : step host s a = some t) {p : PlanRecord} (stored : p ∈ s.plans)
    (gone : p ∉ t.plans) : Selected host s p.planId := by
  cases stepMove_of_step taken with
  | worker w act taken =>
    obtain ⟨alive, move⟩ := workerMove_of_step taken
    cases move with
    | @forgot ids now at_ =>
      refine ⟨w, ids, at_, by simp [alive], ?_⟩
      by_contra kept
      exact gone (List.mem_filter.mpr ⟨stored, by simpa using kept⟩)
    | @left _ died => cases died <;> exact absurd stored gone
    | _ => exact absurd stored gone
  | beat h act taken =>
    obtain ⟨b, -, -, move⟩ := beatMove_of_step taken
    cases move <;> exact absurd stored gone
  | submit u act taken => cases submitMove_of_step taken <;> exact absurd stored gone
  | cancel u act taken => cases cancelMove_of_step taken <;> exact absurd stored gone
  | stored plan => exact absurd (List.mem_append_left _ stored) gone
  | _ => exact absurd stored gone

theorem Swept.sparing (h : Swept host s) : Sparing host s a :=
  fun _ taken _ stored gone => h.unneeded _ (selected_of_deleted taken stored gone)

/-- A run that inserts no operation for a plan that a sweep has selected deletes no plan that a live
operation references. -/
theorem plans_spared {s₀ : State} (init : Initial host s₀) (run : Run (step host) (Unselected host) s₀ as s) :
    Run (step host) (Sparing host) s₀ as s := by
  have start : Swept host s₀ := by
    refine ⟨init.sound, ?_⟩
    rintro id ⟨w, ids, at_, -, -⟩
    rw [init.workers w] at at_
    cases at_
  exact run.imp start (fun _ _ _ h meets taken => h.onward meets taken) fun _ _ _ h _ _ => h.sparing

/-- The deletion of a selected plan that is still there and needed. -/
theorem not_sparing_of_needed {w : WorkerId} {ids : List String} {p : PlanRecord} {now : ℕ}
    (at_ : s.workers w = .forgetting ids) (alive : s.life (host.process w) = .alive) (stored : p ∈ s.plans)
    (among : p.planId ∈ ids) (needed : Needed s p.planId) : ¬Sparing host s (.worker w (.proceed now)) := by
  intro spared
  have taken : step host s (.worker w (.proceed now)) =
      some ({ s with plans := s.plans.filter fun p => p.planId ∉ ids }.setWorker w .recovering) := by
    simp only [step, workerStep, alive, at_, loopStep]
    rfl
  have gone : p ∉ s.plans.filter fun p => p.planId ∉ ids := by
    intro inside
    have spares := of_decide_eq_true (List.mem_filter.mp inside).2
    exact spares among
  exact spared _ taken p stored gone needed

/-- An INSERT for a plan that is selected and still there lets the sweep delete a needed plan next. -/
theorem not_sparing_after_insert {w : WorkerId} {ids : List String} {p : PlanRecord} {now : ℕ}
    (taken : step host s a = some t) (stores : storing host s a = true) (plan : insertedPlan s a = some p.planId)
    (at_ : s.workers w = .forgetting ids) (alive : s.life (host.process w) = .alive) (stored : p ∈ s.plans)
    (among : p.planId ∈ ids) : ¬Sparing host t (.worker w (.proceed now)) := by
  obtain ⟨u, op, time, c, acc, rfl, place, pc⟩ := inserting_of_storing stores
  cases submitMove_of_step taken with
  | @inserted _ _ _ ops _ place' pc' fresh inserted =>
    cases place'.symm.trans place
    cases pc'.symm.trans pc
    have references : acc.planId = some p.planId := by simpa only [insertedPlan, place, pc] using plan
    have queued : newRow host c acc op time ∈ ops.rows :=
      (Table.insert_cases inserted).1 ▸ List.mem_append_right _ (List.mem_singleton_self _)
    have forgetting : { s with operations := ops, issued := op :: s.issued }.workers w = .forgetting ids := at_
    exact not_sparing_of_needed forgetting alive stored among ⟨_, queued, references, rfl⟩
  | conflicted _ place' pc' fresh held =>
    cases place'.symm.trans place
    cases pc'.symm.trans pc
    simp [storing, place, pc, held] at stores

/-! ## Two runs -/

def plannedUntil (id : String) (expiresAt : ℕ) : PlanRecord where
  planId := id
  principalId := "local-owner"
  workspaceId := "workspace"
  create := true
  targetInstanceId := none
  expectedRevision := none
  policyVersion := "1"
  requestHash := "hash"
  expiresAt := expiresAt
  requiredCapabilities := []

/-- One plan expires at 10 and another one at 90. -/
def twoPlans : State := .initial .empty [plannedUntil "soon" 10, plannedUntil "late" 90] fun _ => none

theorem twoPlans_initial : Initial soloHost twoPlans :=
  State.initial_of_unclaimed _ _ _ fun r among => by cases among

/-- A deployment of the plan is submitted at 9 and is about to be inserted. -/
def applying (id : String) : List Action :=
  [.submit 0 (.call "local-owner" (.apply id) "key"), .submit 0 (.proceed 9), .submit 0 (.proceed 9),
    .submit 0 (.proceed 9), .submit 0 (.capabilities true), .submit 0 (.proceed 9), .submit 0 (.proceed 9)]

/-- A worker finds no work and selects the plans that have expired at 11. -/
def expiring : List Action :=
  claiming 0 10 ++ [.worker 0 (.sweep 11), .worker 0 (.proceed 11), .worker 0 (.proceed 11), .worker 0 (.proceed 11)]

/-- The acceptance inserts its operation after its plan has been selected and before it is deleted. -/
theorem needed_plan_deleted : ¬∀ (as : List Action) (s : State), Run (step soloHost) anyStep twoPlans as s →
    Run (step soloHost) (Sparing soloHost) twoPlans as s := by
  intro all
  have ran : ∃ s t, exec (step soloHost) twoPlans (applying "soon" ++ expiring ++ [.submit 0 (.insert "op" 11)]) =
        some s ∧ step soloHost s (.worker 0 (.proceed 11)) = some t ∧
      s.plans = [plannedUntil "soon" 10, plannedUntil "late" 90] ∧ t.plans = [plannedUntil "late" 90] ∧
      s.operations.rows.map (fun r => (r.planId, r.status)) = [(some "soon", .queued)] :=
    ⟨_, _, rfl, rfl, rfl, rfl, rfl⟩
  obtain ⟨s, t, ran, deleted, before, after, queued⟩ := ran
  have whole := all _ t ((Run.of_exec ran).snoc trivial deleted)
  have spared := whole.meets_last ran t deleted (plannedUntil "soon" 10) (by simp [before]) (by simp [after, plannedUntil])
  obtain ⟨r, among, columns⟩ := List.mem_map.mp (queued ▸ List.mem_singleton_self _)
  obtain ⟨references, status⟩ := Prod.mk.inj columns
  exact spared ⟨r, among, references, by rw [status]; rfl⟩

/-- The worker that takes the step. -/
def party : Action → Option WorkerId
  | .worker w _ => some w
  | _ => none

/-- A worker that has taken no step. -/
theorem recovering_of_exec {w : WorkerId} (start : s.workers w = .recovering) (ran : exec (step host) s as = some t)
    (idle : ∀ a ∈ as, party a ≠ some w) : t.workers w = .recovering := by
  have run : Run (step host) (fun _ a => party a ≠ some w) s as t :=
    .of_exec_of_forall ran fun a among _ => idle a among
  refine run.invariant (P := fun s => s.workers w = .recovering) start fun x a y before idle taken => ?_
  rcases step_worker w taken with same | ⟨act, rfl, -⟩
  · exact same.trans before
  · exact absurd rfl idle

/-- The acceptance inserts its operation while another plan is selected. -/
theorem plans_spared_two : ∃ as s, Run (step soloHost) (Sparing soloHost) twoPlans as s ∧
    s.plans = [plannedUntil "late" 90] ∧ Needed s "late" := by
  have ran : ∃ s, exec (step soloHost) twoPlans (applying "late" ++ expiring) = some s ∧
      insertedPlan s (.submit 0 (.insert "op" 11)) = some "late" ∧ s.workers 0 = .forgetting ["soon"] ∧
      ∃ t, step soloHost s (.submit 0 (.insert "op" 11)) = some t ∧
        ∃ z, step soloHost t (.worker 0 (.proceed 11)) = some z ∧ z.plans = [plannedUntil "late" 90] ∧
          z.operations.rows.map (fun r => (r.planId, r.status)) = [(some "late", .queued)] :=
    ⟨_, rfl, rfl, rfl, _, rfl, _, rfl, rfl, rfl⟩
  obtain ⟨s, front, plan, forgetting, t, inserted, z, deleted, left, queued⟩ := ran
  have quiet : ∀ a ∈ applying "late" ++ expiring, ∀ x, Unselected soloHost x a := by
    intro a among x
    have reads : (applying "late" ++ expiring).all (fun a => !inserts a) = true := rfl
    exact unselected_of_not_inserts (by simpa using List.all_eq_true.mp reads a among)
  have others : ∀ w ≠ 0, s.workers w = .recovering := by
    intro w other
    refine recovering_of_exec (twoPlans_initial.workers w) front fun a among => ?_
    have mine : (applying "late" ++ expiring).all (fun a => decide (party a = none ∨ party a = some 0)) = true := rfl
    rcases of_decide_eq_true (List.all_eq_true.mp mine a among) with none_ | first
    · simp [none_]
    · rw [first]
      exact fun same => other (Option.some.inj same).symm
  have free : Unselected soloHost s (.submit 0 (.insert "op" 11)) := by
    rintro - id same ⟨w, ids, at_, -, among⟩
    cases plan.symm.trans same
    by_cases first : w = 0
    · subst first
      cases forgetting.symm.trans at_
      exact absurd among (by decide)
    · cases (others w first).symm.trans at_
  have run := ((Run.of_exec_of_forall front quiet).snoc free inserted).snoc
    (unselected_of_not_inserts rfl) deleted
  obtain ⟨r, among, columns⟩ := List.mem_map.mp (queued ▸ List.mem_singleton_self _)
  obtain ⟨references, status⟩ := Prod.mk.inj columns
  exact ⟨_, z, plans_spared twoPlans_initial run, left, r, among, references, by rw [status]; rfl⟩

end LocalWebAccess.AgentOperations
