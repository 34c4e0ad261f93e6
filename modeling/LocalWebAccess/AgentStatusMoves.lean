import LocalWebAccess.AgentMoves
import LocalWebAccess.GuardedRuns

/-!
# How the table of agent operations changes

Every step of the system changes the table in one of a few ways. From these follows what a whole
run does to the status of an operation.
-/
namespace LocalWebAccess.AgentOperations
open GuardedRuns

variable {host : Host} {s t : State} {a : Action} {as : List Action} {ops ops' : Table} {r r' : OperationRow} {op : String}

/-- The settlement that a step writes when the operation is still running or cancelling. -/
def settling (s : State) : Action → Option (String × Table.Settlement)
  | .worker w (.proceed _) =>
    match s.workers w with
    | .executing x =>
      match x.pc with
      | .ending f => some (x.record.operationId, f.settlement x.record.operationId)
      | .raised e => some (x.record.operationId, e.settlement x.record.operationId (s.phaseOf x.beat))
      | _ => none
    | .interrupting _ row _ => some (row.operationId, interruption row.operationId)
    | _ => none
  | _ => none

/-- The operations that a step sweeps. -/
def sweeping (s : State) : Action → List String
  | .worker w (.proceed _) =>
    match s.workers w with
    | .deleting _ ids => ids
    | _ => []
  | _ => []

/-- The operation whose row a step writes whatever its status is. -/
def touching (s : State) : Action → Option String
  | .worker w (.proceed _) =>
    match s.workers w with
    | .executing x =>
      match x.pc with
      | .advance _ | .link _ => some x.record.operationId
      | _ => none
    | _ => none
  | .beat h (.proceed _) =>
    match s.beats h with
    | some b =>
      match b.pc with
      | .writing _ => some b.operationId
      | _ => none
    | none => none
  | _ => none

/-- The operation whose lease a step renews, and the new lease. -/
def renewing (host : Host) (s : State) : Action → Option (String × ℕ)
  | .beat h (.proceed now) =>
    match s.beats h with
    | some b =>
      match b.pc with
      | .renewing => some (b.operationId, now + host.leaseSeconds)
      | _ => none
    | none => none
  | _ => none

/-- The worker that a step lets claim an operation. -/
def claimant (host : Host) (s : State) : Action → Option WorkerIdentity
  | .worker w (.proceed _) =>
    match s.workers w with
    | .claiming => some (host.identity (host.process w))
    | _ => none
  | _ => none

/-- What a step may write, as far as it depends on who takes it. -/
structure Writes where
  settles : Option (String × Table.Settlement)
  touches : Option String
  renews : Option (String × ℕ)
  claims : Option WorkerIdentity
  sweeps : List String

def writes (host : Host) (s : State) (a : Action) : Writes :=
  ⟨settling s a, touching s a, renewing host s a, claimant host s a, sweeping s a⟩

/-- What one step does to the table. Operation ids are `drawn` before the step and `drawn'` after it. -/
inductive Change (drawn drawn' : List String) (does : Writes) (ops : Table) : Table → Prop where
  | kept : Change drawn drawn' does ops ops
  | touched (hit : OperationRow → Bool) (f : OperationRow → OperationProgress)
      (same : ∀ r, (f r).status = r.status) (owner : ∀ r, (f r).workerIdentity = r.workerIdentity)
      (only : ∀ r, hit r = true → r.status = .running ∨ r.status = .cancelling ∨ does.touches = some r.operationId)
      (lease : ∀ r, hit r = true → (f r).leaseUntil = r.leaseUntil ∨
        ∃ lease, does.renews = some (r.operationId, lease) ∧ (f r).leaseUntil = some lease) :
      Change drawn drawn' does ops (ops.update hit f)
  | claimed (identity : WorkerIdentity) (now lease : ℕ) {id : String} {ops' : Table}
      (claimant : does.claims = some identity)
      (found : ops.claimNextAgentOperation identity now lease = some (id, ops')) : Change drawn drawn' does ops ops'
  | withdrawn (id : String) (now : ℕ) :
      Change drawn drawn' does ops (ops.casAgentOperationStatus id [.queued] now (withdrawn id))
  | requested (id : String) (now : ℕ) :
      Change drawn drawn' does ops (ops.casAgentOperationStatus id [.running] now cancelRequested)
  | settled {id : String} {s : Table.Settlement} (now : ℕ) (writes : does.settles = some (id, s)) :
      Change drawn drawn' does ops (ops.casAgentOperationStatus id [.running, .cancelling] now s)
  | inserted {row : OperationRow} {ops' : Table} (queued : row.status = .queued)
      (idle : row.workerIdentity = none) (fresh : row.operationId ∉ drawn) (known : row.operationId ∈ drawn') (stored : ops.insert row = some ops') :
      Change drawn drawn' does ops ops'
  | removed (terminal : ∀ r ∈ ops.rows, r.operationId ∈ does.sweeps → r.status.terminal = true) :
      Change drawn drawn' does ops (ops.remove does.sweeps)

/-- What a step from `s` to `t` does to the table. -/
structure Moves (s t : State) (does : Writes) : Prop where
  change : Change s.issued t.issued does s.operations t.operations
  drawn : ∀ id ∈ s.issued, id ∈ t.issued

/-- The sweeps under way delete settled operations only, and an id is drawn once. -/
structure Sound (s : State) : Prop where
  drawn : ∀ r ∈ s.operations.rows, r.operationId ∈ s.issued
  sweeping : ∀ w now ids, s.workers w = .deleting now ids → ∀ id ∈ ids,
    id ∈ s.issued ∧ ∀ r ∈ s.operations.rows, r.operationId = id → r.status.terminal = true

theorem Initial.sound (h : Initial host s) : Sound s where
  drawn := h.drawn
  sweeping w now ids at_ := by rw [h.workers w] at at_; cases at_

/-! ## One step -/

theorem Moves.table {does : Writes} (same : t.issued = s.issued)
    (change : Change s.issued t.issued does s.operations t.operations) : Moves s t does :=
  ⟨change, fun _ among => same ▸ among⟩

theorem submitStep_change {u : CallId} {act : SubmitAction} (does : Writes)
    (taken : submitStep host s u act = some t) : Moves s t does := by
  cases submitMove_of_step taken with
  | inserted now at_ pc fresh stored =>
    exact ⟨.inserted rfl rfl fresh List.mem_cons_self stored, fun _ among => List.mem_cons_of_mem _ among⟩
  | conflicted => exact ⟨.kept, fun _ among => List.mem_cons_of_mem _ among⟩
  | _ => exact .table rfl .kept

theorem cancelStep_change {u : CallId} {act : CancelAction} (does : Writes)
    (taken : cancelStep s u act = some t) : Moves s t does := by
  cases cancelMove_of_step taken with
  | withdrew => exact .table rfl (.withdrawn _ _)
  | requested => exact .table rfl (.requested _ _)
  | _ => exact .table rfl .kept

theorem Moves.touched {does : Writes} {id : String} (now : ℕ) (fields : Table.Fields)
    (touches : does.touches = some id) (same : t.issued = s.issued)
    (table : t.operations = s.operations.updateAgentOperation id now fields) : Moves s t does :=
  .table same (table ▸ .touched _ _ (fun _ => rfl) (fun _ => rfl)
    (fun _ hit => .inr (.inr (of_decide_eq_true hit ▸ touches))) fun _ _ => .inl rfl)

theorem workerStep_change {w : WorkerId} {act : WorkerAction} (sound : Sound s)
    (taken : workerStep host s w act = some t) : Moves s t (writes host s (.worker w act)) := by
  cases (workerMove_of_step taken).2 with
  | advanced now at_ pc => exact .touched now _ (by simp only [writes, touching, at_, pc]) rfl rfl
  | linked now at_ pc => exact .touched now _ (by simp only [writes, touching, at_, pc]) rfl rfl
  | finished now at_ pc => exact .table rfl (.settled now (by simp only [writes, settling, at_, pc]))
  | caught now at_ pc => exact .table rfl (.settled now (by simp only [writes, settling, at_, pc]))
  | interrupted later at_ => exact .table rfl (.settled _ (by simp only [writes, settling, at_]))
  | claimed now at_ found => exact .table rfl (.claimed _ _ _ (by simp only [writes, claimant, at_]) found)
  | @deleted _ ids later at_ =>
    have swept : (writes host s (.worker w (.proceed later))).sweeps = ids := by simp only [writes, sweeping, at_]
    have change : Change s.issued s.issued (writes host s (.worker w (.proceed later))) s.operations
        (s.operations.remove (writes host s (.worker w (.proceed later))).sweeps) :=
      .removed fun r among gone => (sound.sweeping w _ ids at_ _ (swept ▸ gone)).2 r among rfl
    rw [swept] at change
    exact .table rfl change
  | _ => exact .table rfl .kept

theorem beatStep_change {h : BeatId} {act : BeatAction} (taken : beatStep host s h act = some t) :
    Moves s t (writes host s (.beat h act)) := by
  obtain ⟨b, place, -, move⟩ := beatMove_of_step taken
  cases move with
  | renewed now at_ =>
    refine .table rfl (.touched _ _ (fun _ => rfl) (fun _ => rfl) (fun r hit => ?_) fun r hit => ?_)
    all_goals simp only [Bool.and_eq_true, Bool.or_eq_true, decide_eq_true_eq] at hit
    · exact hit.1.2.imp_right .inl
    · refine .inr ⟨now + host.leaseSeconds, ?_, rfl⟩
      simp only [writes, renewing, place, at_, hit.1.1]
  | wrote now at_ => exact .touched now _ (by simp only [writes, touching, place, at_]) rfl rfl
  | _ => exact .table rfl .kept

theorem step_change (sound : Sound s) (taken : step host s a = some t) :
    Moves s t (writes host s a) := by
  cases stepMove_of_step taken with
  | worker w act taken => exact workerStep_change sound taken
  | beat h act taken => exact beatStep_change taken
  | submit u act taken => exact submitStep_change _ taken
  | cancel u act taken => exact cancelStep_change _ taken
  | _ => exact .table rfl .kept

/-! ## The status of one operation -/

/-- What a step does to the status of an operation. -/
inductive StatusMove (drawn drawn' : List String) (does : Writes) (op : String) :
    Option OperationStatus → Option OperationStatus → Prop where
  | same (x : Option OperationStatus) : StatusMove drawn drawn' does op x x
  | claimed : StatusMove drawn drawn' does op (some .queued) (some .running)
  | withdrawn : StatusMove drawn drawn' does op (some .queued) (some .cancelled)
  | requested : StatusMove drawn drawn' does op (some .running) (some .cancelling)
  | settled {x : OperationStatus} {s : Table.Settlement} (active : x = .running ∨ x = .cancelling)
      (writes : does.settles = some (op, s)) : StatusMove drawn drawn' does op (some x) (some s.status)
  | inserted (fresh : op ∉ drawn) (known : op ∈ drawn') : StatusMove drawn drawn' does op none (some .queued)
  | removed {x : OperationStatus} (terminal : x.terminal = true) (swept : op ∈ does.sweeps) :
      StatusMove drawn drawn' does op (some x) none

def Table.statusIn (ops : Table) (op : String) : Option OperationStatus :=
  (ops.getAgentOperation op).map fun r => r.status

theorem statusIn_update (hit : OperationRow → Bool) (f : OperationRow → OperationProgress) :
    (ops.update hit f).statusIn op =
      (ops.getAgentOperation op).map fun r => if hit r then (f r).status else r.status := by
  unfold Table.statusIn
  rw [Table.get_update, Option.map_map]
  congr 1
  funext r
  unfold Table.updated
  simp only [Function.comp]
  split <;> rfl

theorem statusIn_cas (id : String) (expected : List OperationStatus) (now : ℕ) (s : Table.Settlement) :
    (ops.casAgentOperationStatus id expected now s).statusIn op =
      (ops.statusIn op).map fun x => if op = id ∧ x ∈ expected then s.status else x := by
  unfold Table.casAgentOperationStatus
  rw [statusIn_update]
  unfold Table.statusIn
  cases found : ops.getAgentOperation op with
  | none => rfl
  | some r =>
    obtain ⟨-, rfl⟩ := Table.get_iff.mp found
    simp

theorem Change.status {drawn drawn' : List String} {does : Writes}
    (h : Change drawn drawn' does ops ops') (op : String) :
    StatusMove drawn drawn' does op (ops.statusIn op) (ops'.statusIn op) := by
  cases h with
  | kept => exact .same _
  | touched hit f same =>
    have kept : (ops.update hit f).statusIn op = ops.statusIn op := by
      rw [statusIn_update]
      unfold Table.statusIn
      congr 1
      funext r
      rw [same, ite_self]
    rw [kept]
    exact .same _
  | claimed identity now lease _ found =>
    obtain ⟨⟨r, held, queued⟩, rfl⟩ := Table.claim_cases found
    rw [statusIn_update]
    unfold Table.statusIn
    cases mine : ops.getAgentOperation op with
    | none => exact .same _
    | some r' =>
      simp only [Option.map_some]
      split
      case isTrue hit =>
        have status : r'.status = .queued := by simpa using (Bool.and_eq_true_iff.mp hit).2
        rw [status]
        exact .claimed
      case isFalse => exact .same _
  | withdrawn id now =>
    rw [statusIn_cas]
    cases mine : ops.statusIn op with
    | none => exact .same _
    | some x =>
      simp only [Option.map_some]
      split
      case isTrue hit =>
        obtain rfl := List.mem_singleton.mp hit.2
        exact .withdrawn
      case isFalse => exact .same _
  | requested id now =>
    rw [statusIn_cas]
    cases mine : ops.statusIn op with
    | none => exact .same _
    | some x =>
      simp only [Option.map_some]
      split
      case isTrue hit =>
        obtain rfl := List.mem_singleton.mp hit.2
        exact .requested
      case isFalse => exact .same _
  | settled now writes =>
    rw [statusIn_cas]
    cases mine : ops.statusIn op with
    | none => exact .same _
    | some x =>
      simp only [Option.map_some]
      split
      case isTrue hit =>
        obtain ⟨rfl, active⟩ := hit
        exact .settled (by simpa using active) writes
      case isFalse => exact .same _
  | inserted queued idle fresh known stored =>
    unfold Table.statusIn
    rw [Table.get_insert stored]
    split
    case isTrue same =>
      subst same
      rw [Table.get_none_iff.mpr (Table.insert_cases stored).2.1, Option.map_none, Option.map_some, queued]
      exact .inserted fresh known
    case isFalse => exact .same _
  | removed terminal =>
    unfold Table.statusIn
    rw [Table.get_remove]
    split
    case isTrue gone =>
      cases mine : ops.getAgentOperation op with
      | none => exact .same _
      | some r =>
        obtain ⟨among, rfl⟩ := Table.get_iff.mp mine
        exact .removed (terminal r among gone) gone
    case isFalse => exact .same _

theorem Moves.status {does : Writes} (h : Moves s t does) (op : String) :
    StatusMove s.issued t.issued does op (s.statusOf op) (t.statusOf op) :=
  h.change.status op

/-! ## Worker threads -/

/-- What a step of a worker leaves alone. -/
structure WorkerFrame (w : WorkerId) (s t : State) : Prop where
  others : ∀ v, v ≠ w → t.workers v = s.workers v
  life : t.life = s.life
  issued : t.issued = s.issued
  revisions : t.revisions = s.revisions
  submissions : t.submissions = s.submissions
  cancellations : t.cancellations = s.cancellations

theorem workerStep_frame {w : WorkerId} {act : WorkerAction} (taken : workerStep host s w act = some t) :
    WorkerFrame w s t := by
  have others : ∀ (u : State) (pc : WorkerPc) v, u.workers = s.workers → v ≠ w →
      (u.setWorker w pc).workers v = s.workers v := by
    intro u pc v same differs
    rw [← same]
    exact Function.update_of_ne differs pc u.workers
  cases (workerMove_of_step taken).2 <;> exact ⟨fun v => others _ _ v rfl, rfl, rfl, rfl, rfl, rfl⟩

theorem submitStep_workers {u : CallId} {act : SubmitAction} (taken : submitStep host s u act = some t) :
    t.workers = s.workers ∧ t.beats = s.beats ∧ t.life = s.life := by
  cases submitMove_of_step taken <;> exact ⟨rfl, rfl, rfl⟩

theorem cancelStep_workers {u : CallId} {act : CancelAction} (taken : cancelStep s u act = some t) :
    t.workers = s.workers ∧ t.beats = s.beats ∧ t.life = s.life := by
  cases cancelMove_of_step taken <;> exact ⟨rfl, rfl, rfl⟩

theorem beatStep_workers {h : BeatId} {act : BeatAction} (taken : beatStep host s h act = some t) :
    t.workers = s.workers ∧ t.life = s.life := by
  obtain ⟨b, -, -, move⟩ := beatMove_of_step taken
  cases move <;> exact ⟨rfl, rfl⟩

/-- A worker stands where it stood, or took the step. -/
theorem step_worker (w : WorkerId) (taken : step host s a = some t) :
    t.workers w = s.workers w ∨ ∃ act, a = .worker w act ∧ workerStep host s w act = some t := by
  cases stepMove_of_step taken with
  | worker v act taken =>
    by_cases same : w = v
    · subst same
      exact .inr ⟨act, rfl, taken⟩
    · exact .inl ((workerStep_frame taken).others w same)
  | beat h act taken => exact .inl (congrFun (beatStep_workers taken).1 w)
  | submit u act taken => exact .inl (congrFun (submitStep_workers taken).1 w)
  | cancel u act taken => exact .inl (congrFun (cancelStep_workers taken).1 w)
  | _ => exact .inl rfl

/-! ## Processes -/

theorem dead_of_step {p : ProcessId} (taken : step host s a = some t) (alive : t.life p ≠ .dead) : s.life p ≠ .dead := by
  intro dead
  refine alive ?_
  cases stepMove_of_step taken with
  | worker w act taken => rw [(workerStep_frame taken).life]; exact dead
  | beat h act taken => rw [(beatStep_workers taken).2]; exact dead
  | submit u act taken => rw [(submitStep_workers taken).2.2]; exact dead
  | cancel u act taken => rw [(cancelStep_workers taken).2.2]; exact dead
  | spawned q unborn =>
    by_cases same : p = q
    · subst same
      cases dead.symm.trans unborn
    · exact (Function.update_of_ne same _ s.life).trans dead
  | crashed q up =>
    by_cases same : p = q
    · subst same
      cases dead.symm.trans up
    · exact (Function.update_of_ne same _ s.life).trans dead
  | stored | revised => exact dead

theorem unborn_of_step {p : ProcessId} (taken : step host s a = some t) (unborn : t.life p = .unborn) :
    s.life p = .unborn := by
  cases stepMove_of_step taken with
  | worker w act taken => rw [← (workerStep_frame taken).life]; exact unborn
  | beat h act taken => rw [← (beatStep_workers taken).2]; exact unborn
  | submit u act taken => rw [← (submitStep_workers taken).2.2]; exact unborn
  | cancel u act taken => rw [← (cancelStep_workers taken).2.2]; exact unborn
  | spawned q =>
    by_cases same : p = q
    · subst same
      cases (Function.update_self p Life.alive s.life).symm.trans unborn
    · exact (Function.update_of_ne same _ s.life).symm.trans unborn
  | crashed q =>
    by_cases same : p = q
    · subst same
      cases (Function.update_self p Life.dead s.life).symm.trans unborn
    · exact (Function.update_of_ne same _ s.life).symm.trans unborn
  | stored | revised => exact unborn

/-! ## Settled operations -/

theorem statusOfCode_terminal (code : AgentErrorCode) : (statusOfCode code).terminal = true := by
  unfold statusOfCode
  split <;> rfl

theorem Ending.settlement_terminal (f : Ending) (id : String) : (f.settlement id).status.terminal = true := by
  cases f with
  | deployed result failed => cases failed <;> rfl
  | stalePlan | fallback | lifecycle => rfl

theorem finishLwaError_terminal (id : String) (e : LwaError) (phase : Option OperationPhase) :
    (finishLwaError id e phase).status.terminal = true := by
  unfold finishLwaError
  split
  · rfl
  · exact statusOfCode_terminal _

theorem Raised.settlement_terminal (e : Raised) (id : String) (phase : Option OperationPhase) :
    (e.settlement id phase).status.terminal = true := by
  cases e with
  | operationCancelled | other => rfl
  | agentService e => exact statusOfCode_terminal _
  | fallback message => exact finishLwaError_terminal _ _ _
  | lwa e => exact finishLwaError_terminal _ _ _

theorem settling_terminal {id : String} {x : Table.Settlement} (writes : settling s a = some (id, x)) :
    x.status.terminal = true := by
  unfold settling at writes
  split at writes
  case h_2 => cases writes
  split at writes
  case h_1 =>
    split at writes
    case h_1 => cases writes; exact Ending.settlement_terminal _ _
    case h_2 => cases writes; exact Raised.settlement_terminal _ _ _
    case h_3 => cases writes
  case h_2 => cases writes; rfl
  case h_3 => cases writes

theorem StatusMove.terminal {drawn drawn' : List String} {does : Writes}
    {x : OperationStatus} {y : Option OperationStatus} (h : StatusMove drawn drawn' does op (some x) y)
    (terminal : x.terminal = true) : y = some x ∨ (y = none ∧ op ∈ does.sweeps) := by
  cases h with
  | same => exact .inl rfl
  | claimed | withdrawn | requested => cases terminal
  | settled active => rcases active with rfl | rfl <;> cases terminal
  | removed _ swept => exact .inr ⟨rfl, swept⟩

theorem StatusMove.gone {drawn drawn' : List String} {does : Writes}
    {y : Option OperationStatus} (h : StatusMove drawn drawn' does op none y) (known : op ∈ drawn) : y = none := by
  cases h with
  | same => rfl
  | inserted fresh => exact absurd known fresh

theorem statusOf_of_mem (among : r ∈ s.operations.rows) : s.statusOf r.operationId = some r.status := by
  unfold State.statusOf
  rw [Table.get_of_mem among]
  rfl

theorem exists_row {x : OperationStatus} (status : s.statusOf op = some x) :
    ∃ r ∈ s.operations.rows, r.operationId = op ∧ r.status = x := by
  obtain ⟨r, found, same⟩ := Option.map_eq_some_iff.mp status
  obtain ⟨among, id⟩ := Table.get_iff.mp found
  exact ⟨r, among, id, same⟩

theorem setWorker_self (w : WorkerId) (u : State) (pc : WorkerPc) : (u.setWorker w pc).workers w = pc := by
  unfold State.setWorker
  exact Function.update_self w pc u.workers

/-- The ids of a deletion were selected among the settled operations. -/
theorem deleting_of_step {w : WorkerId} {act : WorkerAction} {now : ℕ} {ids : List String}
    (taken : workerStep host s w act = some t) (at_ : t.workers w = .deleting now ids) :
    t.operations = s.operations ∧ t.issued = s.issued ∧ ∃ before, ids = s.operations.terminalBefore before 200 := by
  cases (workerMove_of_step taken).2 with
  | selected =>
    cases (setWorker_self w _ _).symm.trans at_
    exact ⟨rfl, rfl, _, rfl⟩
  | @left _ died => cases died <;> cases (setWorker_self w _ _).symm.trans at_
  | _ => cases (setWorker_self w _ _).symm.trans at_

theorem mem_terminalBefore {before limit : ℕ} (among : op ∈ ops.terminalBefore before limit) :
    ∃ r ∈ ops.rows, r.operationId = op ∧ r.status.terminal = true := by
  obtain ⟨r, selected, same⟩ := List.mem_map.mp (List.mem_of_mem_take among)
  exact ⟨r, List.mem_of_mem_filter selected, same, (Bool.and_eq_true_iff.mp (List.mem_filter.mp selected).2).1⟩

theorem Sound.step (h : Sound s) (taken : step host s a = some t) : Sound t := by
  have moves := step_change h taken
  constructor
  · intro r among
    have mine := statusOf_of_mem among
    cases before : s.statusOf r.operationId with
    | some x =>
      obtain ⟨r', among', same, -⟩ := exists_row before
      exact moves.drawn _ (same ▸ h.drawn r' among')
    | none =>
      have status := moves.status r.operationId
      rw [before, mine] at status
      generalize r.status = x at status
      cases status with
      | inserted fresh known => exact known
  · intro w now ids at_ id among
    rcases step_worker w taken with same | ⟨act, rfl, taken'⟩
    · rw [same] at at_
      obtain ⟨known, settled⟩ := h.sweeping w now ids at_ id among
      refine ⟨moves.drawn id known, fun r mine same => ?_⟩
      have status := moves.status id
      have now_ := statusOf_of_mem mine
      rw [same] at now_
      cases before : s.statusOf id with
      | none =>
        rw [before] at status
        cases now_.symm.trans (status.gone known)
      | some x =>
        obtain ⟨r', among', same', rfl⟩ := exists_row before
        have terminal := settled r' among' same'
        rw [before] at status
        rcases status.terminal terminal with kept | ⟨gone, -⟩
        · rw [Option.some.inj (now_.symm.trans kept)]
          exact terminal
        · cases now_.symm.trans gone
    · obtain ⟨table, issued, before, rfl⟩ := deleting_of_step taken' at_
      obtain ⟨r, mine, rfl, terminal⟩ := mem_terminalBefore among
      rw [issued, table]
      refine ⟨h.drawn r mine, fun r' mine' same => ?_⟩
      obtain rfl := List.inj_on_of_nodup_map s.operations.primaryKey mine' mine same
      exact terminal

end LocalWebAccess.AgentOperations
