import LocalWebAccess.AgentExecutedOnce

/-!
# What recovery interrupts

A recovery scan judges the rows of one list by the lease it has read, and interrupts by the status
alone. So a renewal between the list and the update is overlooked; without such a renewal only
operations are interrupted whose lease has run out or whose worker is dead.
-/
namespace LocalWebAccess.AgentOperations
open GuardedRuns

variable {host : Host} {s t : State} {a : Action} {as : List Action} {op : String}

/-- The lease is missing or has run out. -/
def expired (lease : Option ℕ) (now : ℕ) : Prop := ∀ l, lease = some l → l ≤ now

/-- The process that the identity records has died. -/
def DeadWorker (host : Host) (s : State) (identity : Option WorkerIdentity) : Prop :=
  ∃ p, identity = some (host.identity p) ∧ s.life p = .dead

/-- The step interrupts the operation, by the clock reading of its scan. -/
def Interrupts (op : String) (now : ℕ) (s : State) (a : Action) : Prop :=
  ∃ w at_ row rows, a = .worker w (.proceed at_) ∧ s.workers w = .interrupting now row rows ∧ row.operationId = op ∧
    s.operations.casHits op [.running, .cancelling]

/-- Whatever the step interrupts has no valid lease, or its worker is dead. -/
def Recovers (host : Host) (s : State) (a : Action) : Prop :=
  ∀ op now, Interrupts op now s a → ∀ r, s.operations.getAgentOperation op = some r →
    expired r.leaseUntil now ∨ DeadWorker host s r.workerIdentity

/-- The rows that a scan still has to judge or to interrupt, with its clock reading. -/
def WorkerPc.held : WorkerPc → Option (ℕ × List OperationRow)
  | .scanning now rows => some (now, rows)
  | .interrupting now row rows => some (now, row :: rows)
  | _ => none

/-- A scan in a process that has not died holds the row. -/
def Holds (host : Host) (s : State) (now : ℕ) (row : OperationRow) : Prop :=
  ∃ w rows, s.life (host.process w) ≠ .dead ∧ (s.workers w).held = some (now, rows) ∧ row ∈ rows

/-- `_pid_alive` says that a process is gone only where none with its number runs, and no lease is
renewed while a scan holds a row of the operation that had run out when it was listed. -/
structure Unraced (host : Host) (s : State) (a : Action) : Prop where
  truthful : ∀ w now row rows, a = .worker w (.judge false) → s.workers w = .scanning now (row :: rows) →
    ∀ identity, row.workerIdentity = some identity → ∀ p, (host.identity p).pid = identity.pid → s.life p ≠ .alive
  unrenewed : ∀ op lease, renewing host s a = some (op, lease) → ∀ now row, Holds host s now row →
    row.operationId = op → expired row.leaseUntil now → lease ≤ now

/-! ## Owners and leases -/

/-- A row that is not queued keeps its owner, and its lease unless it is renewed. -/
theorem Change.leased {drawn drawn' : List String} {does : Writes} {ops ops' : Table} {r r' : OperationRow}
    (h : Change drawn drawn' does ops ops') (known : r.operationId ∈ drawn) (among : r ∈ ops.rows)
    (unqueued : r.status ≠ .queued) (later : r' ∈ ops'.rows) (same : r'.operationId = r.operationId) :
    r'.workerIdentity = r.workerIdentity ∧ (r'.leaseUntil = r.leaseUntil ∨
      ∃ lease, does.renews = some (r.operationId, lease) ∧ r'.leaseUntil = some lease) := by
  have found := Table.get_of_mem among
  have found' := Table.get_iff.mpr ⟨later, same⟩
  have cas : ∀ (id : String) (expected : List OperationStatus) (now : ℕ) (x : Table.Settlement),
      r' ∈ (ops.casAgentOperationStatus id expected now x).rows →
      r'.workerIdentity = r.workerIdentity ∧ r'.leaseUntil = r.leaseUntil := by
    intro id expected now x later
    have found' := Table.get_iff.mpr ⟨later, same⟩
    unfold Table.casAgentOperationStatus at found'
    rw [Table.get_update, found, Option.map_some] at found'
    cases found'
    unfold Table.updated
    split <;> exact ⟨rfl, rfl⟩
  cases h with
  | kept =>
    cases found.symm.trans found'
    exact ⟨rfl, .inl rfl⟩
  | touched hit f same' owner only lease =>
    rw [Table.get_update, found, Option.map_some] at found'
    cases found'
    unfold Table.updated
    split
    case isTrue hits => exact ⟨owner r, lease r hits⟩
    case isFalse => exact ⟨rfl, .inl rfl⟩
  | claimed identity now lease claimant claimed =>
    obtain ⟨-, rfl⟩ := Table.claim_cases claimed
    rw [Table.get_update, found, Option.map_some] at found'
    cases found'
    unfold Table.updated
    split
    case isTrue hits => exact absurd (of_decide_eq_true (Bool.and_eq_true_iff.mp hits).2) unqueued
    case isFalse => exact ⟨rfl, .inl rfl⟩
  | withdrawn id now => exact (cas _ _ _ _ later).imp_right .inl
  | requested id now => exact (cas _ _ _ _ later).imp_right .inl
  | settled now writes => exact (cas _ _ _ _ later).imp_right .inl
  | inserted queued idle fresh known' stored =>
    rw [Table.get_insert stored] at found'
    split at found'
    case isTrue own => exact absurd (own ▸ known) fresh
    case isFalse =>
      cases found.symm.trans found'
      exact ⟨rfl, .inl rfl⟩
  | removed =>
    rw [Table.get_remove] at found'
    split at found'
    case isTrue => cases found'
    case isFalse =>
      cases found.symm.trans found'
      exact ⟨rfl, .inl rfl⟩

/-- An owner was recorded before or is recorded by the claim. -/
theorem Change.owned {drawn drawn' : List String} {does : Writes} {ops ops' : Table} {r' : OperationRow}
    {identity : WorkerIdentity} (h : Change drawn drawn' does ops ops') (later : r' ∈ ops'.rows)
    (owner : r'.workerIdentity = some identity) :
    (∃ r ∈ ops.rows, r.workerIdentity = some identity) ∨ does.claims = some identity := by
  have updated : ∀ (hit : OperationRow → Bool) (f : OperationRow → OperationProgress),
      r' ∈ (ops.update hit f).rows → (∀ r, (f r).workerIdentity = r.workerIdentity) →
      ∃ r ∈ ops.rows, r.workerIdentity = some identity := by
    intro hit f later kept
    obtain ⟨r, among, rfl⟩ := List.mem_map.mp later
    refine ⟨r, among, ?_⟩
    unfold Table.updated at owner
    split at owner
    case isTrue => exact (kept r).symm.trans owner
    case isFalse => exact owner
  cases h with
  | kept => exact .inl ⟨r', later, owner⟩
  | touched hit f same kept only lease => exact .inl (updated hit f later kept)
  | claimed identity' now lease claimant claimed =>
    obtain ⟨-, rfl⟩ := Table.claim_cases claimed
    obtain ⟨r, among, rfl⟩ := List.mem_map.mp later
    unfold Table.updated at owner
    split at owner
    case isTrue => exact .inr (claimant.trans owner)
    case isFalse => exact .inl ⟨r, among, owner⟩
  | withdrawn id now => exact .inl (updated _ _ later fun _ => rfl)
  | requested id now => exact .inl (updated _ _ later fun _ => rfl)
  | settled now writes => exact .inl (updated _ _ later fun _ => rfl)
  | inserted queued idle fresh known stored =>
    rw [(Table.insert_cases stored).1] at later
    rcases List.mem_append.mp later with old | new
    · exact .inl ⟨r', old, owner⟩
    · obtain rfl := List.mem_singleton.mp new
      cases idle.symm.trans owner
  | removed => exact .inl ⟨r', List.mem_of_mem_filter later, owner⟩

/-! ## Scans -/

/-- What a scan holds after a step of it was held before or has just been listed. -/
theorem held_of_step {w : WorkerId} {act : WorkerAction} {now : ℕ} {rows : List OperationRow}
    (taken : workerStep host s w act = some t) (held : (t.workers w).held = some (now, rows)) :
    (∃ before, (s.workers w).held = some (now, before) ∧ rows ⊆ before) ∨
      (t.operations = s.operations ∧ rows = s.operations.listAgentOperations [.running, .cancelling] 200) := by
  cases (workerMove_of_step taken).2 with
  | listed later at_ =>
    rw [setWorker_self] at held
    cases held
    exact .inr ⟨rfl, rfl⟩
  | condemned pidAlive at_ | spared pidAlive at_ | interrupted later at_ =>
    rw [setWorker_self] at held
    cases held
    refine .inl ⟨_, by rw [at_]; rfl, ?_⟩
    simp
  | @left _ died => cases died <;> (rw [setWorker_self] at held; cases held)
  | _ =>
    have mine := (congrArg WorkerPc.held (setWorker_self w _ _)).symm.trans held
    cases mine

/-- The identities of an operation's workers are those of processes that have run. -/
def Born (host : Host) (s : State) (identity : Option WorkerIdentity) : Prop :=
  ∀ i, identity = some i → ∃ p, host.identity p = i ∧ s.life p ≠ .unborn

theorem Born.step {identity : Option WorkerIdentity} (h : Born host s identity) (taken : step host s a = some t) :
    Born host t identity := by
  intro i recorded
  obtain ⟨p, same, born⟩ := h i recorded
  exact ⟨p, same, fun unborn => born (unborn_of_step taken unborn)⟩

theorem DeadWorker.step {identity : Option WorkerIdentity} (h : DeadWorker host s identity)
    (taken : step host s a = some t) : DeadWorker host t identity := by
  obtain ⟨p, recorded, dead⟩ := h
  exact ⟨p, recorded, by_contra fun alive => dead_of_step taken alive dead⟩

/-- What a row that a scan has listed still says about the operation. -/
structure Followed (host : Host) (s : State) (now : ℕ) (row : OperationRow) : Prop where
  drawn : row.operationId ∈ s.issued
  unqueued : s.statusOf row.operationId ≠ some .queued
  born : Born host s row.workerIdentity
  current : ∀ r ∈ s.operations.rows, r.operationId = row.operationId →
    r.workerIdentity = row.workerIdentity ∧ (expired row.leaseUntil now → expired r.leaseUntil now)

theorem Followed.step {now : ℕ} {row : OperationRow} (h : Followed host s now row) (sound : Sound s)
    (unrenewed : ∀ lease, renewing host s a = some (row.operationId, lease) → expired row.leaseUntil now → lease ≤ now)
    (taken : step host s a = some t) : Followed host t now row := by
  have moves := step_change sound taken
  refine ⟨moves.drawn _ h.drawn, not_queued_of_step sound h.drawn taken h.unqueued, h.born.step taken, ?_⟩
  intro r' later same
  have after := statusOf_of_mem later
  rw [same] at after
  cases before : s.statusOf row.operationId with
  | none =>
    have move := moves.status row.operationId
    rw [before, after] at move
    cases move.gone h.drawn
  | some x =>
    obtain ⟨r, among, own, rfl⟩ := exists_row before
    have unqueued : r.status ≠ .queued := fun queued => h.unqueued (by rw [before, queued])
    obtain ⟨owner, lease⟩ := moves.change.leased (own ▸ h.drawn) among unqueued later (same.trans own.symm)
    obtain ⟨owner', expires⟩ := h.current r among own
    refine ⟨owner.trans owner', fun old => ?_⟩
    rcases lease with kept | ⟨lease, renews, written⟩
    · rw [kept]
      exact expires old
    · intro l is
      rw [written] at is
      cases is
      exact unrenewed _ (own ▸ renews) old

theorem Followed.listed {now : ℕ} {row : OperationRow} (sound : Sound s) (born : Born host s row.workerIdentity)
    (among : row ∈ s.operations.rows) (unqueued : row.status ≠ .queued) : Followed host s now row where
  drawn := sound.drawn row among
  unqueued := by
    rw [statusOf_of_mem among]
    exact fun queued => unqueued (Option.some.inj queued)
  born := born
  current r mine same := by
    obtain rfl := List.inj_on_of_nodup_map s.operations.primaryKey mine among same
    exact ⟨rfl, id⟩

/-- A row is condemned for its lease or for its process. -/
theorem stale_cases {row : OperationRow} {now : ℕ} {pidAlive : Bool} (lost : stale row now pidAlive = true) :
    expired row.leaseUntil now ∨ (pidAlive = false ∧ ∃ identity, row.workerIdentity = some identity) := by
  unfold stale at lost
  rcases Bool.or_eq_true_iff.mp lost with lease | process
  · refine .inl fun l is => ?_
    rw [is] at lease
    exact of_decide_eq_true lease
  · obtain ⟨recorded, gone⟩ := Bool.and_eq_true_iff.mp process
    exact .inr ⟨by simpa using gone, Option.isSome_iff_exists.mp recorded⟩

/-! ## Runs -/

structure Leased (host : Host) (s : State) : Prop where
  sound : Sound s
  born : ∀ r ∈ s.operations.rows, Born host s r.workerIdentity
  held : ∀ now row, Holds host s now row → Followed host s now row
  judged : ∀ w now row rows, s.life (host.process w) ≠ .dead → s.workers w = .interrupting now row rows →
    expired row.leaseUntil now ∨ DeadWorker host s row.workerIdentity

theorem Initial.leased (h : Initial host s) : Leased host s where
  sound := h.sound
  born r among i recorded := h.born r among i recorded
  held now row holds := by
    obtain ⟨w, rows, -, held, -⟩ := holds
    rw [h.workers w] at held
    cases held
  judged w now row rows _ at_ := by
    rw [h.workers w] at at_
    cases at_

theorem Leased.born_of_step (h : Leased host s) (taken : step host s a = some t) :
    ∀ r ∈ t.operations.rows, Born host t r.workerIdentity := by
  intro r later i owner
  rcases (step_change h.sound taken).change.owned later owner with ⟨r, among, recorded⟩ | claims
  · exact (h.born r among).step taken i recorded
  · change claimant host s a = some i at claims
    unfold claimant at claims
    split at claims
    case h_2 => cases claims
    case h_1 w now =>
      split at claims
      case h_2 => cases claims
      case h_1 =>
        refine ⟨host.process w, Option.some.inj claims, fun unborn => ?_⟩
        cases (unborn_of_step taken unborn).symm.trans (workerMove_of_step taken).1

theorem Leased.judged_of_step (h : Leased host s) (meets : Unraced host s a) (taken : step host s a = some t)
    {w : WorkerId} {now : ℕ} {row : OperationRow} {rows : List OperationRow}
    (alive : t.life (host.process w) ≠ .dead) (at_ : t.workers w = .interrupting now row rows) :
    expired row.leaseUntil now ∨ DeadWorker host t row.workerIdentity := by
  rcases step_worker w taken with same | ⟨act, rfl, taken'⟩
  · rw [same] at at_
    exact (h.judged w now row rows (dead_of_step taken alive) at_).imp_right fun dead => dead.step taken
  · cases (workerMove_of_step taken').2 with
    | condemned pidAlive place idle lost =>
      cases (setWorker_self w _ _).symm.trans at_
      rcases stale_cases lost with old | ⟨rfl, identity, recorded⟩
      · exact .inl old
      · have holds : Holds host s now row := ⟨w, row :: rows, dead_of_step taken alive, by rw [place]; rfl, by simp⟩
        obtain ⟨p, rfl, born⟩ := (h.held now row holds).born identity recorded
        have gone := meets.truthful w now row rows rfl place _ recorded p rfl
        refine .inr (DeadWorker.step (s := s) ⟨p, recorded, ?_⟩ taken)
        cases life : s.life p with
        | unborn => exact absurd life born
        | alive => exact absurd life gone
        | dead => rfl
    | @left _ died => cases died <;> cases (setWorker_self w _ _).symm.trans at_
    | _ => cases (setWorker_self w _ _).symm.trans at_

theorem Leased.step (h : Leased host s) (meets : Unraced host s a) (taken : step host s a = some t) :
    Leased host t := by
  have born := h.born_of_step taken
  have sound := h.sound.step taken
  refine ⟨sound, born, ?_, fun w now row rows alive at_ => h.judged_of_step meets taken alive at_⟩
  rintro now row ⟨w, rows, alive, held, among⟩
  have onward : Holds host s now row → Followed host t now row := fun holds =>
    (h.held now row holds).step h.sound (fun lease renews old =>
      meets.unrenewed _ lease renews now row holds rfl old) taken
  have alive' := dead_of_step taken alive
  rcases step_worker w taken with same | ⟨act, -, taken'⟩
  · exact onward ⟨w, rows, alive', same ▸ held, among⟩
  · rcases held_of_step taken' held with ⟨before, held', inside⟩ | ⟨table, rfl⟩
    · exact onward ⟨w, before, alive', held', inside among⟩
    · obtain ⟨mine, active⟩ := Table.mem_list among
      rw [← table] at mine
      exact .listed sound (born row mine) mine fun queued => by rw [queued] at active; simp at active

/-- Without a renewal that a scan overlooks, recovery interrupts only what has no valid lease or no
living worker. -/
theorem recovers_of_unraced {s₀ : State} (init : Initial host s₀) (run : Run (step host) (Unraced host) s₀ as s) :
    Run (step host) (Recovers host) s₀ as s := by
  refine run.imp (P := Leased host) init.leased (fun _ _ _ h meets taken => h.step meets taken) ?_
  rintro s a t h taken meets op now ⟨w, later, row, rows, rfl, at_, rfl, -⟩ r found
  have alive : s.life (host.process w) ≠ .dead := by
    rw [(workerMove_of_step taken).1]
    simp
  obtain ⟨among, same⟩ := Table.get_iff.mp found
  have holds : Holds host s now row := ⟨w, row :: rows, alive, by rw [at_]; rfl, by simp⟩
  obtain ⟨owner, expires⟩ := (h.held now row holds).current r among same
  rcases h.judged w now row rows alive at_ with old | dead
  · exact .inl (expires old)
  · exact .inr (owner ▸ dead)

/-! ## A run -/

/-- A scan lists the operation, whose lease has run out, and the heartbeat renews it in between. -/
def renewedMeanwhile : List Action :=
  takingUp 0 0 5 ++ [.worker 1 (.proceed 36), .worker 1 (.proceed 36), .beat 0 (.proceed 36), .beat 0 (.proceed 36),
    .worker 1 (.judge true)]

/-- An operation is interrupted whose worker lives and has renewed its lease. -/
theorem renewed_lease_interrupted : ¬∀ (as : List Action) (s : State), Run (step soloHost) anyStep oneRestart as s →
    Run (step soloHost) (Recovers soloHost) oneRestart as s := by
  intro all
  have ran : ∃ s t row rows r, exec (step soloHost) oneRestart renewedMeanwhile = some s ∧
      step soloHost s (.worker 1 (.proceed 36)) = some t ∧ s.workers 1 = .interrupting 36 row rows ∧
      row.operationId = "op" ∧ s.operations.casHits "op" [.running, .cancelling] = true ∧
      s.operations.getAgentOperation "op" = some r ∧ r.leaseUntil = some 66 ∧
      r.workerIdentity = some ⟨0, "token"⟩ ∧ s.life 0 = .alive :=
    ⟨_, _, _, _, _, rfl, rfl, rfl, rfl, rfl, rfl, rfl, rfl, rfl⟩
  obtain ⟨s, t, row, rows, r, ran, taken, at_, same, hits, found, lease, owner, alive⟩ := ran
  have recovers := (all _ t ((Run.of_exec ran).snoc trivial taken)).meets_last ran
  rcases recovers "op" 36 ⟨1, 36, row, rows, rfl, at_, same, hits⟩ r found with old | ⟨p, recorded, dead⟩
  · exact absurd (old 66 lease) (by decide)
  · rw [owner] at recorded
    have zero : 0 = p := congrArg WorkerIdentity.pid (Option.some.inj recorded)
    subst zero
    cases alive.symm.trans dead

/-- Neither a renewal nor an answer that a process is gone. -/
def uneventful (host : Host) (s : State) : Action → Bool
  | .worker _ (.judge false) => false
  | a => (renewing host s a).isNone

theorem Unraced.of_uneventful (calm : uneventful host s a = true) : Unraced host s a where
  truthful w now row rows judged := by
    rw [judged] at calm
    cases calm
  unrenewed id lease renews := by
    unfold uneventful at calm
    split at calm
    · cases calm
    · rw [renews] at calm
      cases calm

/-- The worker's process dies and another one finds it gone before the lease has run out. -/
theorem recovers_of_unraced_crash : ∃ as t, Run (step soloHost) (Recovers soloHost) oneRestart as t ∧
    t.statusOf "op" = some .interrupted := by
  have ran : ∃ s₁ s₂ t row rows,
      exec (Run.guarded (step soloHost) fun s a => uneventful soloHost s a = true) oneRestart
        (takingUp 0 0 5 ++ [.crash 0, .worker 1 (.proceed 9), .worker 1 (.proceed 9)]) = some s₁ ∧
      step soloHost s₁ (.worker 1 (.judge false)) = some s₂ ∧
      exec (Run.guarded (step soloHost) fun s a => uneventful soloHost s a = true) s₂
        [.worker 1 (.proceed 9)] = some t ∧ t.statusOf "op" = some .interrupted ∧
      s₁.workers 1 = .scanning 9 (row :: rows) ∧ row.workerIdentity = some ⟨0, "token"⟩ ∧ s₁.life 0 = .dead :=
    ⟨_, _, _, _, _, rfl, rfl, rfl, rfl, rfl, rfl, rfl⟩
  obtain ⟨s₁, s₂, t, row, rows, front, judges, back, status, at_, owner, dead⟩ := ran
  have calm : ∀ {s t : State} {as : List Action},
      exec (Run.guarded (step soloHost) fun s a => uneventful soloHost s a = true) s as = some t →
      Run (step soloHost) (Unraced soloHost) s as t := fun ran =>
    (Run.of_guarded ran).imp (P := fun _ => True) trivial (fun _ _ _ _ _ _ => trivial)
      fun _ _ _ _ _ calm => .of_uneventful calm
  refine ⟨_, t, recovers_of_unraced oneRestart_initial
    ((calm front).append (.cons ⟨?_, fun op lease renews => by cases renews⟩ judges (calm back))), status⟩
  rintro w now row' rows' same place identity recorded p pid alive
  cases same
  cases at_.symm.trans place
  cases owner.symm.trans recorded
  obtain rfl : p = 0 := pid
  cases alive.symm.trans dead

end LocalWebAccess.AgentOperations
