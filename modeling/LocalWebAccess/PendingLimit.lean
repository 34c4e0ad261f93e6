import LocalWebAccess.AgentIdempotency

/-!
# The limit of pending operations

An acceptance counts the active operations and inserts its own in another transaction. Only an insert
adds to the number of active operations, so the limit holds as long as each insert still finds room,
as it does where no two acceptances stand between their count and their insert.
-/
namespace LocalWebAccess.AgentOperations
open GuardedRuns

variable {host : Host} {s t : State} {a : Action} {as : List Action}

def activeCount (s : State) : ℕ := s.operations.countAgentOperations activeStatuses

/-- The step leaves at most `maxPendingOperations` active operations. -/
def Within (host : Host) (s : State) (a : Action) : Prop :=
  ∀ t, step host s a = some t → activeCount t ≤ host.maxPendingOperations

/-- The step commits an INSERT. -/
def storing (host : Host) (s : State) : Action → Bool
  | .submit u (.insert id now) =>
    match s.submissions u with
    | some c =>
      match c.pc with
      | .inserting acc => decide (id ∉ s.issued) && (s.operations.insert (newRow host c acc id now)).isSome
      | _ => false
    | none => false
  | _ => false

/-- An INSERT that commits still finds room. -/
def Roomy (host : Host) (s : State) (a : Action) : Prop :=
  storing host s a = true → activeCount s < host.maxPendingOperations

instance : Decidable (Roomy host s a) :=
  inferInstanceAs (Decidable (storing host s a = true → activeCount s < host.maxPendingOperations))

/-! ## One step -/

/-- A statement that changes active rows only makes no more of them. -/
theorem count_update_le {ops : Table} {hit : OperationRow → Bool} {f : OperationRow → OperationProgress}
    (active : ∀ r, hit r = true → (f r).status ∈ activeStatuses → r.status ∈ activeStatuses) :
    (ops.update hit f).countAgentOperations activeStatuses ≤ ops.countAgentOperations activeStatuses := by
  unfold Table.countAgentOperations Table.update
  rw [List.countP_map]
  refine List.countP_mono_left fun r _ counted => ?_
  simp only [Function.comp, Table.updated, decide_eq_true_eq] at counted ⊢
  split at counted
  case isTrue hits => exact active r hits counted
  case isFalse => exact counted

theorem Change.count {drawn drawn' : List String} {does : Writes} {ops ops' : Table}
    (h : Change drawn drawn' does ops ops') (same : drawn' = drawn) :
    ops'.countAgentOperations activeStatuses ≤ ops.countAgentOperations activeStatuses := by
  have cas : ∀ (id : String) (expected : List OperationStatus) (now : ℕ) (x : Table.Settlement),
      expected ⊆ activeStatuses →
      (ops.casAgentOperationStatus id expected now x).countAgentOperations activeStatuses ≤
        ops.countAgentOperations activeStatuses := by
    intro id expected now x inside
    refine count_update_le fun r hits _ => inside ?_
    simpa using (Bool.and_eq_true_iff.mp hits).2
  cases h with
  | kept => exact Nat.le_refl _
  | touched hit f status =>
    refine count_update_le fun r _ active => ?_
    rwa [status r] at active
  | claimed identity now lease claimant claimed =>
    obtain ⟨-, rfl⟩ := Table.claim_cases claimed
    refine count_update_le fun r hits _ => ?_
    rw [of_decide_eq_true (Bool.and_eq_true_iff.mp hits).2]
    decide
  | withdrawn id now => exact cas _ _ _ _ (by decide)
  | requested id now => exact cas _ _ _ _ (by decide)
  | settled now writes => exact cas _ _ _ _ (by decide)
  | inserted queued idle fresh known => exact absurd (same ▸ known) fresh
  | removed => exact List.Sublist.countP_le List.filter_sublist

/-- An INSERT that commits makes one more active operation, and no other step does. -/
theorem count_of_step (sound : Sound s) (taken : step host s a = some t) :
    if storing host s a then activeCount t = activeCount s + 1 else activeCount t ≤ activeCount s := by
  have kept : t.issued = s.issued → activeCount t ≤ activeCount s := fun issued =>
    (step_change sound taken).change.count issued
  cases stepMove_of_step taken with
  | worker w act taken =>
    rw [if_neg (by simp [storing])]
    exact kept (workerStep_frame taken).issued
  | beat h act taken =>
    rw [if_neg (by simp [storing])]
    obtain ⟨b, -, -, move⟩ := beatMove_of_step taken
    exact kept (by cases move <;> rfl)
  | submit u act taken =>
    cases submitMove_of_step taken with
    | @inserted c acc id ops now at_ pc fresh stored =>
      have stores : storing host s (.submit u (.insert id now)) = true := by
        simp [storing, at_, pc, fresh, stored]
      rw [if_pos stores]
      change ops.rows.countP _ = _
      rw [(Table.insert_cases stored).1, List.countP_append]
      rfl
    | conflicted now at_ pc fresh held =>
      rw [if_neg (by simp [storing, at_, pc, held])]
      exact Nat.le_refl _
    | _ =>
      rw [if_neg (by simp [storing])]
      exact Nat.le_refl _
  | cancel u act taken =>
    rw [if_neg (by simp [storing])]
    exact kept (by cases cancelMove_of_step taken <;> rfl)
  | _ =>
    rw [if_neg (by simp [storing])]
    exact Nat.le_refl _

/-! ## Runs -/

/-- A run that starts within the limit stays within it exactly if each INSERT finds room. -/
theorem within_limit_iff {s₀ : State} (init : Initial host s₀) (start : activeCount s₀ ≤ host.maxPendingOperations) :
    Run (step host) (Within host) s₀ as s ↔ Run (step host) (Roomy host) s₀ as s := by
  have step_le : ∀ x a y, Sound x → activeCount x ≤ host.maxPendingOperations → Roomy host x a →
      step host x a = some y → activeCount y ≤ host.maxPendingOperations := by
    intro x a y sound limit roomy taken
    have count := count_of_step sound taken
    split at count
    case isTrue stores =>
      have room := roomy stores
      omega
    case isFalse => omega
  constructor
  · intro run
    refine run.imp init.sound (fun _ _ _ h _ taken => h.step taken) fun x a y sound taken within stores => ?_
    have count := count_of_step sound taken
    rw [if_pos stores] at count
    have limit := within y taken
    omega
  · intro run
    refine run.imp (P := fun s => Sound s ∧ activeCount s ≤ host.maxPendingOperations) ⟨init.sound, start⟩
      (fun x a y h roomy taken => ⟨h.1.step taken, step_le x a y h.1 h.2 roomy taken⟩) ?_
    intro x a y h taken roomy z taken'
    exact step_le x a z h.1 h.2 roomy taken'

/-! ## Acceptances one after another -/

/-- No acceptance is counted in while another one is about to insert. -/
def Serial (s : State) (a : Action) : Prop :=
  ∀ u now c acc, a = .submit u (.proceed now) → s.submissions u = some c → c.pc = .counting acc →
    ∀ v c' acc', s.submissions v = some c' → c'.pc ≠ .inserting acc'

/-- A call that is about to insert is the only one, and there is room for it. -/
structure Reserved (host : Host) (s : State) : Prop where
  sound : Sound s
  room : ∀ u c acc, s.submissions u = some c → c.pc = .inserting acc → activeCount s < host.maxPendingOperations
  alone : ∀ u v c c' acc acc', s.submissions u = some c → s.submissions v = some c' → c.pc = .inserting acc →
    c'.pc = .inserting acc' → u = v

theorem inserting_of_next {c : Submission} {now : ℕ} {acc : Acceptance}
    (next : submitNext host s c now = some (.inserting acc)) :
    c.pc = .counting acc ∧ activeCount s < host.maxPendingOperations := by
  unfold submitNext at next
  split at next
  case h_7 at_ =>
    split at next
    case isTrue => cases next
    case isFalse room =>
      cases next
      exact ⟨at_, Nat.lt_of_not_le room⟩
  case h_6 => split at next <;> (try unfold bound at next) <;> (try split at next) <;> cases next
  case h_8 => split at next <;> (try unfold bound at next) <;> (try split at next) <;> cases next
  all_goals (try split at next) <;> (try split at next) <;> (try split at next) <;> cases next

/-- A call about to insert was about to before, or has just been counted in. -/
theorem inserting_of_step {u : CallId} {c : Submission} {acc : Acceptance} (taken : step host s a = some t)
    (at_ : t.submissions u = some c) (pc : c.pc = .inserting acc) :
    s.submissions u = some c ∨ (activeCount t < host.maxPendingOperations ∧ ∃ now c', a = .submit u (.proceed now) ∧
      s.submissions u = some c' ∧ c'.pc = .counting acc) := by
  rcases step_submission u taken with same | ⟨act, rfl, move⟩
  · exact .inl (same ▸ at_)
  · cases move with
    | called principalId request key =>
      cases (setSubmission_self s u _).symm.trans at_
      cases request <;> cases pc
    | went now place next =>
      cases (setSubmission_self s u _).symm.trans at_
      obtain rfl : _ = SubmitPc.inserting acc := pc
      obtain ⟨pc', room⟩ := inserting_of_next next
      exact .inr ⟨room, now, _, rfl, place, pc'⟩
    | _ =>
      cases (setSubmission_self _ u _).symm.trans at_
      cases pc

/-- The call that commits an INSERT was about to. -/
theorem inserting_of_storing (stores : storing host s a = true) :
    ∃ u id now c acc, a = .submit u (.insert id now) ∧ s.submissions u = some c ∧ c.pc = .inserting acc := by
  unfold storing at stores
  split at stores
  case h_2 => cases stores
  case h_1 u id now =>
    split at stores
    case h_2 => cases stores
    case h_1 c at_ =>
      split at stores
      case h_2 => cases stores
      case h_1 acc pc => exact ⟨u, id, now, c, acc, rfl, at_, pc⟩

theorem Reserved.onward (h : Reserved host s) (serial : Serial s a) (taken : step host s a = some t) :
    Reserved host t := by
  refine ⟨h.sound.step taken, fun u c acc at_ pc => ?_, fun u v c c' acc acc' at_ at_' pc pc' => ?_⟩
  · rcases inserting_of_step taken at_ pc with before | ⟨room, -⟩
    · have count := count_of_step h.sound taken
      have room := h.room u c acc before pc
      split at count
      case isTrue stores =>
        obtain ⟨v, id, now, c', acc', rfl, place, pc'⟩ := inserting_of_storing stores
        obtain rfl := h.alone u v c c' acc acc' before place pc pc'
        cases submitMove_of_step taken <;> (cases (setSubmission_self _ u _).symm.trans at_; cases pc)
      case isFalse => omega
    · exact room
  · rcases inserting_of_step taken at_ pc with before | ⟨-, now, d, rfl, place, counting⟩
    · rcases inserting_of_step taken at_' pc' with before' | ⟨-, now, d, rfl, place, counting⟩
      · exact h.alone u v c c' acc acc' before before' pc pc'
      · exact absurd pc (serial v now d acc' rfl place counting u c acc before)
    · rcases inserting_of_step taken at_' pc' with before' | ⟨-, now', d', same, place', counting'⟩
      · exact absurd pc' (serial u now d acc rfl place counting v c' acc' before')
      · cases same
        rfl

/-- Acceptances that do not overlap find room. -/
theorem roomy_of_serial {s₀ : State} (init : Initial host s₀) (run : Run (step host) Serial s₀ as s) :
    Run (step host) (Roomy host) s₀ as s := by
  have start : Reserved host s₀ := by
    refine ⟨init.sound, fun u c acc at_ => ?_, fun u v c c' acc acc' at_ => ?_⟩
    · rw [init.submissions u] at at_
      cases at_
    · rw [init.submissions u] at at_
      cases at_
  refine run.imp start (fun _ _ _ h serial taken => h.onward serial taken) fun x a y h taken _ stores => ?_
  obtain ⟨u, id, now, c, acc, -, at_, pc⟩ := inserting_of_storing stores
  exact h.room u c acc at_ pc

/-! ## A run -/

/-- Three acceptances are counted in before the first of them inserts. -/
def overlapping : List Action :=
  counted 0 "first" ++ counted 1 "second" ++ counted 2 "third" ++
    [.submit 0 (.insert "op1" 5), .submit 1 (.insert "op2" 5), .submit 2 (.insert "op3" 5)]

/-- Three operations wait although the limit is two. -/
theorem overlapping_exceeds_limit : ¬∀ (as : List Action) (s : State), Run (step soloHost) anyStep noOperations as s →
    activeCount s ≤ soloHost.maxPendingOperations := by
  intro all
  have ran : ∃ s, exec (step soloHost) noOperations overlapping = some s ∧ activeCount s = 3 := ⟨_, rfl, rfl⟩
  obtain ⟨s, ran, count⟩ := ran
  have limit := all _ s (.of_exec ran)
  rw [count] at limit
  exact absurd limit (by decide)

/-- Acceptances that wait for each other's INSERT stay within the limit. -/
theorem within_limit_iff_serial : ∃ s,
    Run (step soloHost) (Within soloHost) noOperations (counted 0 "first" ++ [.submit 0 (.insert "op1" 5)] ++
      counted 1 "second" ++ [.submit 1 (.insert "op2" 5)]) s ∧ activeCount s = 2 := by
  have ran : ∃ s, exec (Run.guarded (step soloHost) (Roomy soloHost)) noOperations
      (counted 0 "first" ++ [.submit 0 (.insert "op1" 5)] ++ counted 1 "second" ++ [.submit 1 (.insert "op2" 5)]) =
        some s ∧ activeCount s = 2 := ⟨_, rfl, rfl⟩
  obtain ⟨s, ran, count⟩ := ran
  exact ⟨s, (within_limit_iff noOperations_initial (by decide)).mpr (.of_guarded ran), count⟩

end LocalWebAccess.AgentOperations
