import Mathlib.Data.List.Chain
import Mathlib.Data.List.Infix
import Mathlib.Logic.Function.Basic

/-!
# The persisted build generations

One row per instance carries the token of its current build generation. Three
writers touch the table: the owner's upserts, compare-and-set updates by token,
and the reclaim of rows whose owner process is dead. Every writer is one SQLite
transaction, so each is one function of the table.
-/
namespace LocalWebAccess.BuildTaskTable

/-- A uuid4, of which the code only ever compares the hexadecimal text. -/
abbrev BuildToken := ℕ
abbrev Pid := ℕ
abbrev Time := ℕ

inductive BuildStatus where
  | queued | building | cancelling | success | failed | cancelled | cancelFailed
  deriving DecidableEq, Repr

def buildTaskTransitions : BuildStatus → List BuildStatus
  | .queued => [.queued, .building, .cancelled, .failed]
  | .building => [.building, .cancelling, .cancelled, .success, .failed]
  | .cancelling => [.cancelling, .cancelled, .cancelFailed]
  | .success => [.success]
  | .failed => [.failed]
  | .cancelled => [.cancelled]
  | .cancelFailed => [.cancelFailed]

abbrev Allowed (old new : BuildStatus) : Prop := new ∈ buildTaskTransitions old

def BuildStatus.Terminal (s : BuildStatus) : Prop :=
  s = .success ∨ s = .failed ∨ s = .cancelled ∨ s = .cancelFailed

instance (s : BuildStatus) : Decidable s.Terminal := by
  unfold BuildStatus.Terminal; infer_instance

theorem Allowed.refl (s : BuildStatus) : Allowed s s := by cases s <;> decide

/-- A terminal status has no way out but itself. -/
theorem BuildStatus.Terminal.eq_of_allowed {s t : BuildStatus} (hs : s.Terminal)
    (h : Allowed s t) : t = s := by
  rcases hs with rfl | rfl | rfl | rfl <;> simpa [Allowed, buildTaskTransitions] using h

structure TaskRow where
  buildToken : BuildToken
  status : BuildStatus
  ownerPid : Pid
  ownerIdentity : String
  workerPid : Option Pid
  workerPgid : Option Pid
  workerIdentity : Option String
  cancelRequestedAt : Option Time
  updatedAt : Time
  deriving DecidableEq, Repr

abbrev Table := String → Option TaskRow

structure UpsertArgs where
  buildToken : BuildToken
  status : BuildStatus
  ownerPid : Pid
  ownerIdentity : String
  workerPid : Option Pid
  workerPgid : Option Pid
  workerIdentity : Option String
  cancelRequestedAt : Option Time
  replaceGeneration : Bool
  deriving DecidableEq, Repr

def UpsertArgs.freshRow (now : Time) (a : UpsertArgs) : TaskRow where
  buildToken := a.buildToken
  status := a.status
  ownerPid := a.ownerPid
  ownerIdentity := a.ownerIdentity
  workerPid := a.workerPid
  workerPgid := a.workerPgid
  workerIdentity := a.workerIdentity
  cancelRequestedAt := a.cancelRequestedAt
  updatedAt := now

/-- The `COALESCE` merge into a row of the same generation. -/
def UpsertArgs.merge (now : Time) (a : UpsertArgs) (row : TaskRow) : TaskRow where
  buildToken := row.buildToken
  status := a.status
  ownerPid := a.ownerPid
  ownerIdentity := a.ownerIdentity
  workerPid := a.workerPid <|> row.workerPid
  workerPgid := a.workerPgid <|> row.workerPgid
  workerIdentity := a.workerIdentity <|> row.workerIdentity
  cancelRequestedAt := a.cancelRequestedAt <|> row.cancelRequestedAt
  updatedAt := now

/-- What `upsert_build_task` does to the instance's row, and what it returns. -/
def upsertRow (now : Time) (a : UpsertArgs) : Option TaskRow → Option TaskRow × Bool
  | none => (some (a.freshRow now), true)
  | some row =>
    if row.buildToken ≠ a.buildToken then
      if a.replaceGeneration then (some (a.freshRow now), true) else (some row, false)
    else if Allowed row.status a.status then (some (a.merge now row), true)
    else (some row, false)

def upsertBuildTask (now : Time) (instanceId : String) (a : UpsertArgs) (t : Table) :
    Table × Bool :=
  (Function.update t instanceId (upsertRow now a (t instanceId)).1,
    (upsertRow now a (t instanceId)).2)

structure UpdateArgs where
  buildToken : BuildToken
  status : Option BuildStatus
  workerPid : Option Pid
  workerPgid : Option Pid
  workerIdentity : Option String
  cancelRequestedAt : Option Time
  clearWorker : Bool
  deriving DecidableEq, Repr

def UpdateArgs.merge (now : Time) (u : UpdateArgs) (row : TaskRow) : TaskRow where
  buildToken := row.buildToken
  status := u.status.getD row.status
  ownerPid := row.ownerPid
  ownerIdentity := row.ownerIdentity
  workerPid := if u.clearWorker then none else u.workerPid <|> row.workerPid
  workerPgid := if u.clearWorker then none else u.workerPgid <|> row.workerPgid
  workerIdentity := if u.clearWorker then none else u.workerIdentity <|> row.workerIdentity
  cancelRequestedAt := u.cancelRequestedAt <|> row.cancelRequestedAt
  updatedAt := now

/-- What `update_build_task` does to the instance's row, and what it returns. -/
def updateRow (now : Time) (u : UpdateArgs) : Option TaskRow → Option TaskRow × Bool
  | none => (none, false)
  | some row =>
    if row.buildToken ≠ u.buildToken then (some row, false)
    else if Allowed row.status (u.status.getD row.status) then (some (u.merge now row), true)
    else (some row, false)

def updateBuildTask (now : Time) (instanceId : String) (u : UpdateArgs) (t : Table) :
    Table × Bool :=
  (Function.update t instanceId (updateRow now u (t instanceId)).1,
    (updateRow now u (t instanceId)).2)

def BuildStatus.Open (s : BuildStatus) : Prop :=
  s = .queued ∨ s = .building ∨ s = .cancelling

instance (s : BuildStatus) : Decidable s.Open := by
  unfold BuildStatus.Open; infer_instance

def TaskRow.reclaim (now : Time) (row : TaskRow) : TaskRow :=
  { row with
    status := .cancelled
    cancelRequestedAt := row.cancelRequestedAt <|> some now
    workerPid := none
    workerPgid := none
    workerIdentity := none
    updatedAt := now }

/-- `_reclaim_dead` on one row; `alive` is what `_pid_alive` answers for its owner. -/
def reclaimRow (now : Time) (alive : Bool) (row : TaskRow) : TaskRow :=
  if row.status.Open ∧ alive = false then row.reclaim now else row

/-- `_reclaim_dead` on the task rows; `pidAlive` holds the answers of `_pid_alive`
as each row is visited. -/
def reclaimDead (now : Time) (pidAlive : String → Pid → Bool) (t : Table) : Table :=
  fun i => (t i).map (fun row => reclaimRow now (pidAlive i row.ownerPid) row)

/-- The operations on the table, by whichever process. A reclaim whose transaction is
rolled back for want of a slot changes nothing and is no operation here. -/
inductive Op where
  | upsert (now : Time) (instanceId : String) (a : UpsertArgs)
  | update (now : Time) (instanceId : String) (u : UpdateArgs)
  | reclaim (now : Time) (pidAlive : String → Pid → Bool)

/-- The table afterwards, and the value returned by those operations that return one. -/
def Op.exec : Op → Table → Table × Option Bool
  | .upsert now i a, t => ((upsertBuildTask now i a t).1, some (upsertBuildTask now i a t).2)
  | .update now i u, t => ((updateBuildTask now i u t).1, some (updateBuildTask now i u t).2)
  | .reclaim now pidAlive, t => (reclaimDead now pidAlive t, none)

def run (t : Table) (ops : List Op) : Table := ops.foldl (fun t op => (op.exec t).1) t

/-- The tables before, between and after the operations. -/
def history (t : Table) : List Op → List Table
  | [] => [t]
  | op :: ops => t :: history (op.exec t).1 ops

theorem run_append (t : Table) (xs ys : List Op) : run t (xs ++ ys) = run (run t xs) ys :=
  List.foldl_append ..

theorem history_snoc (t : Table) (ops : List Op) (op : Op) :
    history t (ops ++ [op]) = history t ops ++ [run t (ops ++ [op])] := by
  induction ops generalizing t with
  | nil => rfl
  | cons a ops ih => simp only [List.cons_append, history, ih]; rfl

theorem history_getLast? (t : Table) (ops : List Op) :
    (history t ops).getLast? = some (run t ops) := by
  induction ops using List.reverseRecOn with
  | nil => rfl
  | append_singleton ops op ih => simp [history_snoc]

/-- The operation carries another token than the row's and may not replace it. -/
def Op.Stale (op : Op) (t : Table) : Prop :=
  match op with
  | .upsert _ i a =>
    a.replaceGeneration = false ∧ ∃ row, t i = some row ∧ row.buildToken ≠ a.buildToken
  | .update _ i u => ∃ row, t i = some row ∧ row.buildToken ≠ u.buildToken
  | .reclaim _ _ => False

theorem upsertRow_of_other (now : Time) {a : UpsertArgs} {row : TaskRow}
    (other : row.buildToken ≠ a.buildToken) (keep : a.replaceGeneration = false) :
    upsertRow now a (some row) = (some row, false) := by
  simp [upsertRow, other, keep]

theorem updateRow_of_other (now : Time) {u : UpdateArgs} {row : TaskRow}
    (other : row.buildToken ≠ u.buildToken) :
    updateRow now u (some row) = (some row, false) := by
  simp [updateRow, other]

theorem Op.exec_of_stale {op : Op} {t : Table} (h : op.Stale t) : op.exec t = (t, some false) := by
  cases op with
  | upsert now instanceId a =>
    obtain ⟨keep, row, found, other⟩ := h
    have rejected := upsertRow_of_other now other keep
    rw [← found] at rejected
    simp only [Op.exec, upsertBuildTask, rejected, Function.update_eq_self]
  | update now instanceId u =>
    obtain ⟨row, found, other⟩ := h
    have rejected := updateRow_of_other now other
    rw [← found] at rejected
    simp only [Op.exec, updateBuildTask, rejected, Function.update_eq_self]
  | reclaim now pidAlive => exact h.elim

theorem upsertRow_of_false {now : Time} {a : UpsertArgs} {r : Option TaskRow}
    (h : (upsertRow now a r).2 = false) : (upsertRow now a r).1 = r := by
  cases r with
  | none => cases h
  | some row =>
    simp only [upsertRow] at h ⊢
    split_ifs at h ⊢ <;> simp_all only

theorem updateRow_of_false {now : Time} {u : UpdateArgs} {r : Option TaskRow}
    (h : (updateRow now u r).2 = false) : (updateRow now u r).1 = r := by
  cases r with
  | none => rfl
  | some row =>
    simp only [updateRow] at h ⊢
    split_ifs at h ⊢ <;> simp_all only

/-- An operation that returns `False` has changed no column of any row. -/
theorem Op.exec_of_false {op : Op} {t : Table} (h : (op.exec t).2 = some false) :
    (op.exec t).1 = t := by
  cases op with
  | upsert now instanceId a =>
    have kept := upsertRow_of_false (Option.some.inj h)
    simp only [Op.exec, upsertBuildTask, kept, Function.update_eq_self]
  | update now instanceId u =>
    have kept := updateRow_of_false (Option.some.inj h)
    simp only [Op.exec, updateBuildTask, kept, Function.update_eq_self]
  | reclaim now pidAlive => cases h

/-- What a writer can do to one row. `fresh` is a token it may replace the row's by. -/
inductive RowStep (fresh : BuildToken → Prop) : Option TaskRow → Option TaskRow → Prop where
  | same (r) : RowStep fresh r r
  | insert (row) : RowStep fresh none (some row)
  | advance (row row') (token : row'.buildToken = row.buildToken)
      (allowed : Allowed row.status row'.status) : RowStep fresh (some row) (some row')
  | replace (row row') (other : row.buildToken ≠ row'.buildToken) (new : fresh row'.buildToken) :
      RowStep fresh (some row) (some row')

theorem upsertRow_step (now : Time) (a : UpsertArgs) (r : Option TaskRow) :
    RowStep (fun k => a.replaceGeneration = true ∧ k = a.buildToken) r (upsertRow now a r).1 := by
  cases r with
  | none => exact .insert _
  | some row =>
    by_cases other : row.buildToken = a.buildToken
    · by_cases allowed : Allowed row.status a.status
      · simp only [upsertRow, other, allowed, ne_eq, not_true_eq_false, if_false, if_true]
        exact .advance row _ rfl allowed
      · simp only [upsertRow, other, allowed, ne_eq, not_true_eq_false, if_false]
        exact .same _
    · by_cases replaces : a.replaceGeneration = true
      · simp only [upsertRow, other, replaces, ne_eq, not_false_eq_true, if_true]
        exact .replace row _ other ⟨trivial, rfl⟩
      · simp only [upsertRow, other, replaces, ne_eq, not_false_eq_true, if_true]
        exact .same _

theorem updateRow_step (now : Time) (u : UpdateArgs) (r : Option TaskRow) (fresh : BuildToken → Prop) :
    RowStep fresh r (updateRow now u r).1 := by
  cases r with
  | none => exact .same _
  | some row =>
    simp only [updateRow]
    split_ifs with other allowed
    · exact .same _
    · exact .advance row _ rfl allowed
    · exact .same _

theorem BuildStatus.Open.allowed_cancelled {s : BuildStatus} (h : s.Open) :
    Allowed s .cancelled := by
  rcases h with rfl | rfl | rfl <;> decide

theorem reclaimRow_step (now : Time) (alive : Bool) (row : TaskRow) (fresh : BuildToken → Prop) :
    RowStep fresh (some row) (some (reclaimRow now alive row)) := by
  unfold reclaimRow
  split_ifs with h
  · exact .advance row _ rfl h.1.allowed_cancelled
  · exact .same _

/-- The token by which the operation may replace the one of instance `i`. -/
def Op.Replaces (op : Op) (i : String) (k : BuildToken) : Prop :=
  match op with
  | .upsert _ instanceId a => instanceId = i ∧ a.replaceGeneration = true ∧ k = a.buildToken
  | .update _ _ _ => False
  | .reclaim _ _ => False

theorem Op.rowStep (op : Op) (t : Table) (i : String) :
    RowStep (op.Replaces i) (t i) ((op.exec t).1 i) := by
  cases op with
  | upsert now instanceId a =>
    by_cases h : i = instanceId
    · subst h
      have step := upsertRow_step now a (t i)
      have same : (Op.upsert now i a).Replaces i =
          fun k => a.replaceGeneration = true ∧ k = a.buildToken := by
        funext k
        simp [Op.Replaces]
      rw [same]
      simpa [Op.exec, upsertBuildTask] using step
    · simp only [Op.exec, upsertBuildTask, Function.update_of_ne h]
      exact .same _
  | update now instanceId u =>
    by_cases h : i = instanceId
    · subst h
      simpa [Op.exec, updateBuildTask] using updateRow_step now u (t i) _
    · simp only [Op.exec, updateBuildTask, Function.update_of_ne h]
      exact .same _
  | reclaim now pidAlive =>
    cases h : t i with
    | none =>
      simp only [Op.exec, reclaimDead, h, Option.map_none]
      exact .same _
    | some row =>
      simp only [Op.exec, reclaimDead, h, Option.map_some]
      exact reclaimRow_step _ _ _ _

/-- The status of the row of `i` while it carries the token `k`. -/
def statusUnder (i : String) (k : BuildToken) (t : Table) : Option BuildStatus :=
  (t i).bind (fun row => if row.buildToken = k then some row.status else none)

def statuses (i : String) (k : BuildToken) (ts : List Table) : List BuildStatus :=
  ts.filterMap (statusUnder i k)

theorem statusUnder_eq_some {i : String} {k : BuildToken} {t : Table} {s : BuildStatus} :
    statusUnder i k t = some s ↔ ∃ row, t i = some row ∧ row.buildToken = k ∧ row.status = s := by
  unfold statusUnder
  cases h : t i with
  | none => simp
  | some row => by_cases hk : row.buildToken = k <;> simp [hk]

/-- A row that carries one token before and after an operation advances by the table. -/
theorem Op.allowed_of_statusUnder {op : Op} {t : Table} {i : String} {k : BuildToken}
    {s s' : BuildStatus} (before : statusUnder i k t = some s)
    (after : statusUnder i k (op.exec t).1 = some s') : Allowed s s' := by
  obtain ⟨row, found, token, rfl⟩ := statusUnder_eq_some.mp before
  obtain ⟨row', found', token', rfl⟩ := statusUnder_eq_some.mp after
  have step := op.rowStep t i
  rw [found, found'] at step
  cases step with
  | same => exact Allowed.refl _
  | advance _ _ _ allowed => exact allowed
  | replace _ _ other _ => exact absurd (token.trans token'.symm) other

theorem isChain_history (t : Table) (ops : List Op) :
    List.IsChain (fun x y => ∃ op : Op, y = (op.exec x).1) (history t ops) := by
  induction ops generalizing t with
  | nil => exact List.isChain_singleton _
  | cons op ops ih =>
    cases ops with
    | nil => exact List.isChain_pair.mpr ⟨op, rfl⟩
    | cons op' ops => exact List.isChain_cons_cons.mpr ⟨⟨op, rfl⟩, ih _⟩

/-- Over a stretch of time in which the row carries `k` its statuses follow the table. -/
theorem isChain_statuses_of_carried {i : String} {k : BuildToken} {ts : List Table}
    (steps : List.IsChain (fun x y => ∃ op : Op, y = (op.exec x).1) ts)
    (carried : ∀ x ∈ ts, ∃ row, x i = some row ∧ row.buildToken = k) :
    List.IsChain Allowed (statuses i k ts) := by
  induction steps with
  | nil => exact List.isChain_nil
  | singleton x =>
    obtain ⟨row, found, token⟩ := carried x (List.mem_singleton_self x)
    have status := statusUnder_eq_some.mpr ⟨row, found, token, rfl⟩
    simp [statuses, status]
  | @cons_cons x y ts step steps ih =>
    obtain ⟨row, found, token⟩ := carried x List.mem_cons_self
    obtain ⟨row', found', token'⟩ := carried y (by simp)
    have before := statusUnder_eq_some.mpr ⟨row, found, token, rfl⟩
    have after := statusUnder_eq_some.mpr ⟨row', found', token', rfl⟩
    have rest := ih (fun z hz => carried z (List.mem_cons_of_mem _ hz))
    obtain ⟨op, rfl⟩ := step
    simp only [statuses, List.filterMap_cons, before, after] at rest ⊢
    exact List.isChain_cons_cons.mpr ⟨Op.allowed_of_statusUnder before after, rest⟩

/-- Whatever follows a terminal status is that status. -/
def Settles (s s' : BuildStatus) : Prop := s.Terminal → s' = s

instance : IsTrans BuildStatus Settles where
  trans _ _ _ first second terminal := by
    have here := first terminal
    exact (second (here ▸ terminal)).trans here

/-- Along the table a terminal status is never left. -/
theorem terminal_of_isChain {ss : List BuildStatus} (h : List.IsChain Allowed ss) :
    ss.Pairwise Settles :=
  List.isChain_iff_pairwise.mp (h.imp (fun _ _ allowed terminal => terminal.eq_of_allowed allowed))

/-- Replacing upserts bring in tokens that the row has not carried before, as the
fresh uuid4 of each call of `run` does. -/
def FreshReplacements (t : Table) (ops : List Op) : Prop :=
  ∀ pre op post i k, ops = pre ++ op :: post → op.Replaces i k →
    (∃ row, run t pre i = some row ∧ row.buildToken ≠ k) →
    ∀ x ∈ history t pre, statusUnder i k x = none

theorem FreshReplacements.init {t : Table} {ops : List Op} {op : Op}
    (h : FreshReplacements t (ops ++ [op])) : FreshReplacements t ops := by
  intro pre op' post i k split
  exact h pre op' (post ++ [op]) i k (by simp [split])

/-- Rows are never deleted. -/
theorem history_eq_none {t : Table} {ops : List Op} {i : String} (h : run t ops i = none) :
    ∀ x ∈ history t ops, x i = none := by
  induction ops using List.reverseRecOn with
  | nil => simpa [history, run] using h
  | append_singleton ops op ih =>
    have step := op.rowStep (run t ops) i
    have last : run t (ops ++ [op]) = (op.exec (run t ops)).1 := by rw [run_append]; rfl
    rw [last] at h
    rw [h] at step
    have before : run t ops i = none := by
      generalize run t ops i = r at step
      cases step
      rfl
    intro x hx
    rw [history_snoc, last] at hx
    rcases List.mem_append.mp hx with earlier | now
    · exact ih before x earlier
    · exact List.mem_singleton.mp now ▸ h

theorem statuses_history_of_some {t : Table} {ops : List Op} {i : String} {k : BuildToken}
    {s : BuildStatus} (h : statusUnder i k (run t ops) = some s) :
    (statuses i k (history t ops)).getLast? = some s := by
  obtain ⟨earlier, split⟩ := List.getLast?_eq_some_iff.mp (history_getLast? t ops)
  simp [statuses, split, h]

/-- A token that an operation brings into a row has not been in that row before. -/
theorem statuses_history_eq_nil {t : Table} {ops : List Op} {op : Op} {i : String} {k : BuildToken}
    {s : BuildStatus} (fresh : FreshReplacements t (ops ++ [op]))
    (before : statusUnder i k (run t ops) = none)
    (after : statusUnder i k (op.exec (run t ops)).1 = some s) :
    statuses i k (history t ops) = [] := by
  obtain ⟨row', found', token', -⟩ := statusUnder_eq_some.mp after
  have step := op.rowStep (run t ops) i
  rw [found'] at step
  refine List.filterMap_eq_nil_iff.mpr ?_
  generalize found : run t ops i = r at step
  cases step with
  | same =>
    have carried := statusUnder_eq_some.mpr ⟨row', found, token', rfl⟩
    rw [before] at carried
    cases carried
  | insert =>
    intro x hx
    simp [statusUnder, history_eq_none found x hx]
  | advance row _ token _ =>
    have carried := statusUnder_eq_some.mpr ⟨row, found, token.symm.trans token', rfl⟩
    rw [before] at carried
    cases carried
  | replace row _ other new =>
    subst token'
    exact fresh ops op [] i _ rfl new ⟨row, found, other⟩

theorem isChain_statuses_of_fresh {t : Table} {ops : List Op} (i : String) (k : BuildToken)
    (fresh : FreshReplacements t ops) : List.IsChain Allowed (statuses i k (history t ops)) := by
  induction ops using List.reverseRecOn with
  | nil => cases h : statusUnder i k t <;> simp [statuses, history, h]
  | append_singleton ops op ih =>
    have chain := ih fresh.init
    have last : run t (ops ++ [op]) = (op.exec (run t ops)).1 := by rw [run_append]; rfl
    have split : statuses i k (history t (ops ++ [op])) =
        statuses i k (history t ops) ++ (statusUnder i k (op.exec (run t ops)).1).toList := by
      rw [statuses, history_snoc, last, List.filterMap_append, statuses]
      cases h : statusUnder i k (op.exec (run t ops)).1 <;> simp [h]
    rw [split]
    cases after : statusUnder i k (op.exec (run t ops)).1 with
    | none => simpa using chain
    | some s' =>
      cases before : statusUnder i k (run t ops) with
      | some s =>
        -- the last status recorded is the one the operation finds
        have found := statuses_history_of_some before
        refine List.isChain_append.mpr ⟨chain, List.isChain_singleton _, ?_⟩
        simpa [found] using Op.allowed_of_statusUnder before after
      | none => simp [statuses_history_eq_nil fresh before after]

/-- Build generations are fenced. -/
theorem generations_fenced (t : Table) (ops : List Op) :
    (∀ pre op post, ops = pre ++ op :: post →
      (op.Stale (run t pre) → op.exec (run t pre) = (run t pre, some false)) ∧
      ((op.exec (run t pre)).2 = some false → (op.exec (run t pre)).1 = run t pre)) ∧
    (∀ i k seg, seg <:+: history t ops →
      (∀ x ∈ seg, ∃ row, x i = some row ∧ row.buildToken = k) →
      List.IsChain Allowed (statuses i k seg) ∧ (statuses i k seg).Pairwise Settles) ∧
    (FreshReplacements t ops → ∀ i k,
      List.IsChain Allowed (statuses i k (history t ops)) ∧
      (statuses i k (history t ops)).Pairwise Settles) := by
  refine ⟨fun pre op post _ => ⟨Op.exec_of_stale, Op.exec_of_false⟩, ?_, ?_⟩
  · intro i k seg inside carried
    obtain ⟨pre, post, whole⟩ := inside
    have steps := isChain_history t ops
    rw [← whole] at steps
    have chain := isChain_statuses_of_carried
      (List.isChain_append.mp (List.isChain_append.mp steps).1).2.1 carried
    exact ⟨chain, terminal_of_isChain chain⟩
  · intro fresh i k
    have chain := isChain_statuses_of_fresh i k fresh
    exact ⟨chain, terminal_of_isChain chain⟩

def staleWrite : Op := .update 2 "site" ⟨1, some .cancelled, none, none, none, some 2, false⟩

/-- A generation, its successor, and a late write of the first one's owner. -/
def twoGenerations : List Op :=
  [.upsert 0 "site" ⟨1, .queued, 10, "a", none, none, none, none, true⟩,
    .upsert 1 "site" ⟨2, .queued, 20, "b", none, none, none, none, true⟩, staleWrite]

theorem twoGenerations_fresh : FreshReplacements (fun _ => none) twoGenerations := by
  intro pre op post i k split replaces other x hx
  rcases pre with _ | ⟨p, _ | ⟨q, _ | ⟨r, pre⟩⟩⟩ <;>
    simp only [twoGenerations, List.nil_append, List.cons_append, List.cons.injEq] at split
  · obtain ⟨row, found, -⟩ := other
    cases found
  · obtain ⟨rfl, rfl, -⟩ := split
    obtain ⟨rfl, -, rfl⟩ := replaces
    simp only [history, List.mem_cons, List.not_mem_nil, or_false] at hx
    rcases hx with rfl | rfl <;> rfl
  · obtain ⟨-, -, rfl, -⟩ := split
    exact replaces.elim
  · simp at split

theorem generations_fenced_twoGenerations :
    (staleWrite.exec (run (fun _ => none) (twoGenerations.take 2))).2 = some false ∧
    List.IsChain Allowed (statuses "site" 1 (history (fun _ => none) twoGenerations)) := by
  have fenced := generations_fenced (fun _ => none) twoGenerations
  have stale : staleWrite.Stale (run (fun _ => none) (twoGenerations.take 2)) :=
    ⟨_, rfl, by decide⟩
  refine ⟨?_, (fenced.2.2 twoGenerations_fresh "site" 1).1⟩
  rw [(fenced.1 (twoGenerations.take 2) _ [] rfl).1 stale]

end LocalWebAccess.BuildTaskTable
