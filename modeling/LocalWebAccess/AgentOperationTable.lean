import LocalWebAccess.AgentContracts
import Mathlib.Data.List.Sort

/-!
# The table agent_operations

A row has the columns of its request, which no statement changes, and the columns of its progress.
The table keeps its primary key and its UNIQUE constraint. Times stand for their ISO texts in UTC
with whole seconds, whose order is that of the numbers.
-/
namespace LocalWebAccess.AgentOperations

/-- `<pid>:<token>` of an `AgentWorker`. -/
structure WorkerIdentity where
  pid : ℕ
  token : String
  deriving DecidableEq, Repr

/-- The `result` of an operation; `access` is left out by lifecycle operations. -/
structure OperationResult where
  instanceId : String
  revision : Option ℕ
  access : Option (List String)
  warnings : List String
  nextActions : List String
  deriving DecidableEq, Repr

/-- The columns that `create_agent_operation` sets for good. -/
structure OperationRequest where
  operationId : String
  principalId : String
  workspaceId : String
  action : OperationAction
  requestHash : String
  idempotencyKey : String
  planId : Option String
  createdAt : ℕ
  payload : Option Payload
  deriving DecidableEq, Repr

structure OperationProgress where
  targetInstanceId : Option String
  status : OperationStatus
  phase : Option OperationPhase
  updatedAt : ℕ
  workerIdentity : Option WorkerIdentity
  leaseUntil : Option ℕ
  buildToken : Option String
  result : Option OperationResult
  error : Option AgentError
  deriving DecidableEq, Repr

structure OperationRow extends OperationRequest, OperationProgress
  deriving DecidableEq, Repr

/-- The columns of the UNIQUE constraint. -/
def OperationRequest.key (r : OperationRequest) : String × String × String :=
  (r.principalId, r.workspaceId, r.idempotencyKey)

@[ext] structure Table where
  rows : List OperationRow
  primaryKey : (rows.map fun r => r.operationId).Nodup
  unique : (rows.map fun r => r.key).Nodup

variable {ops : Table} {r r' : OperationRow} {id : String}

namespace Table

def empty : Table := ⟨[], List.nodup_nil, List.nodup_nil⟩

def single (row : OperationRow) : Table := ⟨[row], List.nodup_singleton _, List.nodup_singleton _⟩

/-- `get_agent_operation`. -/
def getAgentOperation (ops : Table) (id : String) : Option OperationRow :=
  ops.rows.find? fun r => r.operationId = id

/-- `get_agent_operation_by_idempotency`. -/
def getAgentOperationByIdempotency (ops : Table) (key : String × String × String) : Option OperationRow :=
  ops.rows.find? fun r => r.key = key

/-- `INSERT INTO agent_operations`, `none` where a constraint fails. -/
def insert (ops : Table) (row : OperationRow) : Option Table :=
  if h : row.operationId ∉ ops.rows.map (fun r => r.operationId) ∧ row.key ∉ ops.rows.map (fun r => r.key) then
    some {
      rows := ops.rows ++ [row]
      primaryKey := by
        rw [List.map_append, List.nodup_append]
        exact ⟨ops.primaryKey, List.nodup_singleton _, fun a mine b new same =>
          h.1 (by rw [List.map_singleton, List.mem_singleton] at new; rwa [← new, ← same])⟩
      unique := by
        rw [List.map_append, List.nodup_append]
        exact ⟨ops.unique, List.nodup_singleton _, fun a mine b new same =>
          h.2 (by rw [List.map_singleton, List.mem_singleton] at new; rwa [← new, ← same])⟩ }
  else none

/-- A row after an UPDATE whose WHERE is `hit`. -/
def updated (hit : OperationRow → Bool) (f : OperationRow → OperationProgress) (r : OperationRow) : OperationRow :=
  if hit r then { r with toOperationProgress := f r } else r

@[simp] theorem updated_request (hit : OperationRow → Bool) (f : OperationRow → OperationProgress)
    (r : OperationRow) : (updated hit f r).toOperationRequest = r.toOperationRequest := by
  unfold updated
  split <;> rfl

/-- `UPDATE agent_operations SET f WHERE hit`. -/
def update (ops : Table) (hit : OperationRow → Bool) (f : OperationRow → OperationProgress) : Table where
  rows := ops.rows.map (updated hit f)
  primaryKey := by
    rw [List.map_map]
    exact (List.map_congr_left fun r _ => congrArg OperationRequest.operationId (updated_request hit f r)) ▸
      ops.primaryKey
  unique := by
    rw [List.map_map]
    exact (List.map_congr_left fun r _ => congrArg OperationRequest.key (updated_request hit f r)) ▸ ops.unique

/-- `DELETE FROM agent_operations WHERE operation_id IN ids`. -/
def remove (ops : Table) (ids : List String) : Table where
  rows := ops.rows.filter fun r => r.operationId ∉ ids
  primaryKey := ops.primaryKey.sublist (List.filter_sublist.map _)
  unique := ops.unique.sublist (List.filter_sublist.map _)

/-- The columns that `update_agent_operation` is called with. -/
structure Fields where
  phase : Option OperationPhase
  targetInstanceId : Option String
  buildToken : Option String

/-- `update_agent_operation`; a column that is not given stays. -/
def updateAgentOperation (ops : Table) (id : String) (updatedAt : ℕ) (fields : Fields) : Table :=
  ops.update (fun r => r.operationId = id) fun r => { r.toOperationProgress with
    updatedAt := updatedAt
    phase := fields.phase <|> r.phase
    targetInstanceId := fields.targetInstanceId <|> r.targetInstanceId
    buildToken := fields.buildToken <|> r.buildToken }

/-- `ORDER BY created_at, operation_id`. -/
def oldest (a b : OperationRow) : Prop :=
  a.createdAt < b.createdAt ∨ (a.createdAt = b.createdAt ∧ a.operationId ≤ b.operationId)

instance : DecidableRel oldest := fun a b =>
  inferInstanceAs (Decidable (a.createdAt < b.createdAt ∨ (a.createdAt = b.createdAt ∧ a.operationId ≤ b.operationId)))

/-- `list_agent_operations`. -/
def listAgentOperations (ops : Table) (statuses : List OperationStatus) (limit : ℕ) : List OperationRow :=
  ((ops.rows.filter fun r => r.status ∈ statuses).insertionSort oldest).take limit

/-- `count_agent_operations`. -/
def countAgentOperations (ops : Table) (statuses : List OperationStatus) : ℕ :=
  ops.rows.countP fun r => r.status ∈ statuses

/-- `claim_next_agent_operation` up to its commit: the claimed operation and the table after it. -/
def claimNextAgentOperation (ops : Table) (workerIdentity : WorkerIdentity) (now leaseUntil : ℕ) :
    Option (String × Table) :=
  ((ops.rows.filter fun r => r.status = .queued).insertionSort oldest).head?.map fun row =>
    (row.operationId, ops.update (fun r => r.operationId = row.operationId && r.status = .queued)
      fun r => { r.toOperationProgress with
        status := .running
        phase := some .validate
        workerIdentity := some workerIdentity
        leaseUntil := some leaseUntil
        updatedAt := now })

/-- `renew_agent_operation_lease`. -/
def renewAgentOperationLease (ops : Table) (id : String) (workerIdentity : WorkerIdentity) (now leaseUntil : ℕ) :
    Table :=
  ops.update
    (fun r => r.operationId = id && (r.status = .running || r.status = .cancelling) &&
      r.workerIdentity = some workerIdentity)
    fun r => { r.toOperationProgress with leaseUntil := some leaseUntil, updatedAt := now }

/-- What a compare-and-set of the status writes beside it; `none` leaves a column as it is. -/
structure Settlement where
  status : OperationStatus
  error : Option AgentError
  result : Option OperationResult
  targetInstanceId : Option String
  deriving DecidableEq, Repr

/-- `rowcount == 1` in `cas_agent_operation_status`. -/
def casHits (ops : Table) (id : String) (expected : List OperationStatus) : Bool :=
  ops.rows.any fun r => r.operationId = id && r.status ∈ expected

/-- `cas_agent_operation_status`. -/
def casAgentOperationStatus (ops : Table) (id : String) (expected : List OperationStatus) (now : ℕ)
    (s : Settlement) : Table :=
  ops.update (fun r => r.operationId = id && r.status ∈ expected) fun r => { r.toOperationProgress with
    status := s.status
    updatedAt := now
    error := s.error <|> r.error
    result := s.result <|> r.result
    targetInstanceId := s.targetInstanceId <|> r.targetInstanceId }

/-- The SELECT of `sweep_terminal_agent_operations`. -/
def terminalBefore (ops : Table) (before limit : ℕ) : List String :=
  ((ops.rows.filter fun r => r.status.terminal && decide (r.updatedAt < before)).map
    fun r => r.operationId).take limit

/-! ## Reading a row after a statement -/

/-- A search by a key that no two entries share. -/
theorem find_key_iff {α κ : Type} [DecidableEq κ] (key : α → κ) {l : List α} (distinct : (l.map key).Nodup) {k : κ}
    {x : α} : l.find? (fun y => key y = k) = some x ↔ x ∈ l ∧ key x = k := by
  constructor
  · intro found
    have same := List.find?_some found
    exact ⟨List.mem_of_find?_eq_some found, of_decide_eq_true same⟩
  · rintro ⟨among, same⟩
    cases found : l.find? (fun y => key y = k) with
    | none => exact absurd same (by simpa using List.find?_eq_none.mp found x among)
    | some y =>
      have same' := List.find?_some found
      exact congrArg some (List.inj_on_of_nodup_map distinct (List.mem_of_find?_eq_some found) among
        ((of_decide_eq_true same').trans same.symm))

theorem find_key_none_iff {α κ : Type} [DecidableEq κ] (key : α → κ) {l : List α} {k : κ} :
    l.find? (fun y => key y = k) = none ↔ ∀ x ∈ l, key x ≠ k := by
  simp [List.find?_eq_none]

theorem get_iff : ops.getAgentOperation id = some r ↔ r ∈ ops.rows ∧ r.operationId = id :=
  find_key_iff (fun r : OperationRow => r.operationId) ops.primaryKey

theorem get_none_iff : ops.getAgentOperation id = none ↔ ∀ r ∈ ops.rows, r.operationId ≠ id :=
  find_key_none_iff fun r : OperationRow => r.operationId

theorem get_of_mem (among : r ∈ ops.rows) : ops.getAgentOperation r.operationId = some r :=
  get_iff.mpr ⟨among, rfl⟩

theorem getByIdempotency_iff {key : String × String × String} :
    ops.getAgentOperationByIdempotency key = some r ↔ r ∈ ops.rows ∧ r.key = key :=
  find_key_iff (fun r : OperationRow => r.key) ops.unique

theorem getByIdempotency_none_iff {key : String × String × String} :
    ops.getAgentOperationByIdempotency key = none ↔ ∀ r ∈ ops.rows, r.key ≠ key :=
  find_key_none_iff fun r : OperationRow => r.key

theorem get_update (hit : OperationRow → Bool) (f : OperationRow → OperationProgress) :
    (ops.update hit f).getAgentOperation id = (ops.getAgentOperation id).map (updated hit f) := by
  cases found : ops.getAgentOperation id with
  | none =>
    refine get_none_iff.mpr fun r' inside => ?_
    obtain ⟨r, among, rfl⟩ := List.mem_map.mp inside
    rw [congrArg OperationRequest.operationId (updated_request hit f r)]
    exact get_none_iff.mp found r among
  | some r =>
    obtain ⟨among, same⟩ := get_iff.mp found
    refine get_iff.mpr ⟨List.mem_map_of_mem among, ?_⟩
    rw [congrArg OperationRequest.operationId (updated_request hit f r)]
    exact same

theorem insert_cases {row : OperationRow} {ops' : Table} (inserted : ops.insert row = some ops') :
    ops'.rows = ops.rows ++ [row] ∧ (∀ r ∈ ops.rows, r.operationId ≠ row.operationId) ∧
      ∀ r ∈ ops.rows, r.key ≠ row.key := by
  unfold insert at inserted
  split at inserted
  case isFalse => cases inserted
  case isTrue new =>
    cases inserted
    exact ⟨rfl, fun r among same => new.1 (List.mem_map.mpr ⟨r, among, same⟩),
      fun r among same => new.2 (List.mem_map.mpr ⟨r, among, same⟩)⟩

theorem get_insert {row : OperationRow} {ops' : Table} (inserted : ops.insert row = some ops') :
    ops'.getAgentOperation id = if id = row.operationId then some row else ops.getAgentOperation id := by
  obtain ⟨rows, -, -⟩ := insert_cases inserted
  split
  case isTrue same => exact get_iff.mpr ⟨by simp [rows], same.symm⟩
  case isFalse differs =>
    cases found : ops.getAgentOperation id with
    | none =>
      refine get_none_iff.mpr fun r among => ?_
      rw [rows] at among
      rcases List.mem_append.mp among with old | new
      · exact get_none_iff.mp found r old
      · obtain rfl := List.mem_singleton.mp new
        exact Ne.symm differs
    | some r =>
      obtain ⟨among, same⟩ := get_iff.mp found
      exact get_iff.mpr ⟨rows ▸ List.mem_append_left _ among, same⟩

theorem get_remove (ids : List String) :
    (ops.remove ids).getAgentOperation id = if id ∈ ids then none else ops.getAgentOperation id := by
  split
  case isTrue gone =>
    refine get_none_iff.mpr fun r among same => ?_
    exact of_decide_eq_true (List.mem_filter.mp among).2 (same ▸ gone)
  case isFalse kept =>
    cases found : ops.getAgentOperation id with
    | none => exact get_none_iff.mpr fun r among => get_none_iff.mp found r (List.mem_of_mem_filter among)
    | some r =>
      obtain ⟨among, same⟩ := get_iff.mp found
      exact get_iff.mpr ⟨List.mem_filter.mpr ⟨among, by simpa [same] using kept⟩, same⟩

theorem mem_list {statuses : List OperationStatus} {limit : ℕ} (among : r ∈ ops.listAgentOperations statuses limit) :
    r ∈ ops.rows ∧ r.status ∈ statuses := by
  have sorted := (List.mem_insertionSort oldest).mp (List.mem_of_mem_take among)
  exact ⟨List.mem_of_mem_filter sorted, of_decide_eq_true (List.mem_filter.mp sorted).2⟩

/-- What a claim finds and does. -/
theorem claim_cases {identity : WorkerIdentity} {now lease : ℕ} {ops' : Table}
    (claimed : ops.claimNextAgentOperation identity now lease = some (id, ops')) :
    (∃ r, ops.getAgentOperation id = some r ∧ r.status = .queued) ∧
      ops' = ops.update (fun r => r.operationId = id && r.status = .queued)
        fun r => { r.toOperationProgress with
          status := .running
          phase := some .validate
          workerIdentity := some identity
          leaseUntil := some lease
          updatedAt := now } := by
  obtain ⟨row, head, same⟩ := Option.map_eq_some_iff.mp claimed
  obtain ⟨rfl, rfl⟩ := Prod.mk.inj same
  have sorted := (List.mem_insertionSort oldest).mp (List.mem_of_head? head)
  exact ⟨⟨row, get_of_mem (List.mem_of_mem_filter sorted), of_decide_eq_true (List.mem_filter.mp sorted).2⟩, rfl⟩

end Table

end LocalWebAccess.AgentOperations
