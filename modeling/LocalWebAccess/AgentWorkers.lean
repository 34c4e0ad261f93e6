import LocalWebAccess.AgentAcceptance

/-!
# Workers, leases and recovery of agent operations

Every statement and every external call is one step, and a process may die between any two. An
action carries what the environment decides: a clock reading, an answer, an exception.
-/
namespace LocalWebAccess.AgentOperations

/-! ## Executing -/

def Advance.phase (action : OperationAction) : Advance → OperationPhase
  | .import_ _ => .import_
  | .create _ | .rebuild _ => .build
  | .restart _ => .start
  | .healthcheck _ => .healthcheck
  | .lifecycle => if action = .rebuild then .build else .start

/-- What follows a check that found no cancel request. -/
def Check.next : Check → ExecPc
  | .validate plan => .fresh plan
  | .import_ plan => .effect (.import_ plan)
  | .deploy d =>
    if d.created then .advance (.create d)
    else if d.needsRebuild then .advance (.rebuild d)
    else if d.needsRestart && d.wasRunning then .advance (.restart d)
    else .advance (.healthcheck d)
  | .rebuild d => .effect (.rebuild d)
  | .restart d => .effect (.restart d)
  | .healthcheck d => .report d
  | .lifecycle => .advance .lifecycle
  | .lifecycleEnd => .conclude

/-- What follows a change of the phase. -/
def Advance.next : Advance → ExecPc
  | .import_ plan => .check (.import_ plan)
  | .create d => .effect (.create d)
  | .rebuild d => .check (.rebuild d)
  | .restart d => .check (.restart d)
  | .healthcheck d => .check (.healthcheck d)
  | .lifecycle => .effect .lifecycle

/-- The settlement of an operation that its own routine ends. -/
def Ending.settlement (id : String) : Ending → Table.Settlement
  | .stalePlan message =>
    ⟨.needsInput, some (errorPayload .needsInput message id none ["重新生成部署计划后再 apply"]), none, none⟩
  | .fallback message =>
    ⟨.needsInput, some (errorPayload .needsInput message id none ["确认降级计划后以新计划重试"]), none, none⟩
  | .deployed result true =>
    ⟨.failed, some (errorPayload .healthcheckFailed ("实例 " ++ result.instanceId ++ " 部署后健康检查未通过") id
      (some [("instanceId", result.instanceId)]) ["用 lwa_get_logs 查看构建/运行日志"]), some result,
      some result.instanceId⟩
  | .deployed result false => ⟨.succeeded, none, some result, some result.instanceId⟩
  | .lifecycle result => ⟨.succeeded, none, some result, none⟩

/-- The status that goes with an error code. -/
def statusOfCode (code : AgentErrorCode) : OperationStatus := if code = .needsInput then .needsInput else .failed

/-- `_finish_agent_error`. -/
def finishAgentError (id : String) (e : AgentServiceError) : Table.Settlement :=
  let code := (AgentErrorCode.ofText e.code).getD .interrupted
  ⟨statusOfCode code, some (errorPayload code (agentExcMessage e.code e.message) id
    (if e.context = [] then none else some e.context) []), none, none⟩

/-- The code that `_finish_lwa_error` chooses; `none` where it ends the operation as cancelled. -/
def lwaErrorCode (e : LwaError) (phase : Option OperationPhase) : Option AgentErrorCode :=
  if e.kind = .build ∨ e.kind = .docker then some .buildFailed
  else if (e.kind = .zipImport ∨ e.kind = .lifecycle) ∧ e.code = "revision_conflict" then some .revisionConflict
  else if e.kind = .hosting ∧ (phase = some .start ∨ phase = some .healthcheck) then some .healthcheckFailed
  else if e.kind = .zipImport ∨ e.kind = .recognition ∨ e.kind = .gitSource then some .needsInput
  else if e.kind = .lifecycle ∧ PythonText.occursIn "已取消".toList e.text.toList then none
  else some .interrupted

/-- `_finish_lwa_error`. -/
def finishLwaError (id : String) (e : LwaError) (phase : Option OperationPhase) : Table.Settlement :=
  match lwaErrorCode e phase with
  | none => ⟨.cancelled, some (errorPayload .interrupted (agentExcMessage e.code e.message) id none []), none, none⟩
  | some code =>
    ⟨statusOfCode code, some (errorPayload code (agentExcMessage e.code e.message) id none []), none, none⟩

/-- `FallbackConfirmationRequired` outside of the places that expect it is an `LwaError` like others. -/
def Raised.settlement (id : String) (phase : Option OperationPhase) : Raised → Table.Settlement
  | .operationCancelled =>
    ⟨.cancelled, some (errorPayload .interrupted "操作已被取消（已完成的文件/容器变更不回滚）" id none []), none, none⟩
  | .agentService e => finishAgentError id e
  | .fallback message => finishLwaError id ⟨.other, "LWA_ERROR", message⟩ phase
  | .lwa e => finishLwaError id e phase
  | .other message =>
    ⟨.failed, some (errorPayload .interrupted ("操作执行出现内部错误: " ++ message) id none
      ["查看 manager.log 后重试"]), none, none⟩

inductive WorkerAction where
  | proceed (now : ℕ)
  | judge (pidAlive : Bool)
  | begin_ (h : BeatId)
  | sweep (now : ℕ)
  | capabilities (dockerReady : Bool)
  | gitSource (git : Bool)
  | snapshot (present : Bool)
  | imported (d : Imported)
  | worked
  | wrote (warnings : List String)
  | reported (access : List String) (failed : Bool)
  | fail (e : Raised)
  deriving DecidableEq, Repr

/-- `str(record["target_instance_id"])`. -/
def OperationRow.target (r : OperationRow) : String := r.targetInstanceId.getD "None"

/-- The `expectedRevision` of the payload. -/
def OperationRow.expectedRevision (r : OperationRow) : Option ℕ :=
  match r.payload with
  | some (.lifecycle _ _ expected) => some expected
  | _ => none

/-- `_load_plan_for_exec`. -/
def loadPlanForExec (s : State) (record : OperationRow) : ExecPc :=
  match truthy record.planId with
  | none => .raised (.agentService (serviceError .needsInput "操作缺少关联计划" [("operationId", record.operationId)]))
  | some id =>
    match s.plan id with
    | none => .raised (.agentService (serviceError .needsInput ("计划 " ++ id ++ " 不存在或已过期清理")
        [("planId", id)]))
    | some plan => .validate plan

/-- The revision that an update locks in its plan. -/
def targetNext (s : State) (plan : PlanRecord) : ExecPc :=
  let target := plan.targetInstanceId.getD "None"
  match s.revisions target with
  | none => .raised (.agentService (serviceError .needsInput ("目标实例 " ++ target ++ " 不存在")
      [("instanceId", target)]))
  | some current =>
    if some current ≠ plan.expectedRevision then
      .raised (.agentService (serviceError .revisionConflict "实例 revision 与计划不符"
        [("instanceId", target), ("expected", (plan.expectedRevision.map toString).getD "None"),
          ("actual", toString current)]))
    else .manifest plan

/-- The revision that a lifecycle request expects. -/
def revisionNext (s : State) (record : OperationRow) : ExecPc :=
  match s.revisions record.target with
  | none => .raised (.agentService (serviceError .needsInput ("实例 " ++ record.target ++ " 不存在")
      [("instanceId", record.target)]))
  | some current =>
    match record.expectedRevision with
    | none => .check .lifecycle
    | some expected =>
      if current ≠ expected then
        .raised (.agentService (serviceError .revisionConflict "实例 revision 与期望不符"
          [("instanceId", record.target), ("expected", toString expected), ("actual", toString current)]))
      else .check .lifecycle

/-- Where the body of `_execute` goes from a step that writes nothing. -/
def execNext (s : State) (x : Execution) : WorkerAction → Option ExecPc
  | .proceed now =>
    match x.pc with
    | .loadPlan => some (loadPlanForExec s x.record)
    | .check c =>
      if s.statusOf x.record.operationId = some .cancelling then some (.raised .operationCancelled) else some c.next
    | .fresh plan =>
      if plan.expiresAt ≤ now then some (.ending (.stalePlan "部署计划已过期，请重新计划"))
      else some (.capabilities plan)
    | .target plan => some (targetNext s plan)
    | .revision => some (revisionNext s x.record)
    | .conclude =>
      some (.ending (.lifecycle ⟨x.record.target, s.revisions x.record.target, none, [], []⟩))
    | _ => none
  | .capabilities dockerReady =>
    match x.pc with
    | .capabilities plan =>
      let gaps := capabilityGapsNow plan.requiredCapabilities dockerReady
      if gaps ≠ [] then
        some (.raised (.agentService (serviceError .capabilityUnavailable ("所需运行能力不可用: " ++
          "、".intercalate gaps ++ "（如 Docker 未就绪）；请管理员恢复能力后以新计划重试")
          [("gaps", ", ".intercalate gaps)])))
      else some (if plan.create then .snapshot plan else .target plan)
    | _ => none
  | .gitSource git =>
    match x.pc with
    | .manifest plan =>
      let target := plan.targetInstanceId.getD "None"
      if git then
        some (.raised (.agentService (serviceError .needsInput ("实例 " ++ target ++
          " 是 GitHub 源实例，Agent 通道不支持 zip 更新；请用 `lwa import --from-git --update " ++ target ++
          "` 或管理页 update-from-git 流程") [("instanceId", target)])))
      else some (.snapshot plan)
    | _ => none
  | .snapshot present =>
    match x.pc with
    | .snapshot plan =>
      if present then some (.advance (.import_ plan))
      else some (.raised (.agentService (serviceError .needsInput "计划快照不存在（可能已被清理），请重新计划"
        [("planId", plan.planId)])))
    | _ => none
  | .imported d =>
    match x.pc with
    | .effect (.import_ plan) =>
      if plan.create then some (.link ⟨d.instanceId, true, false, false, false, []⟩)
      else some (.writeBack { d with
        instanceId := plan.targetInstanceId.getD "None", created := false, warnings := [] })
    | _ => none
  | .worked =>
    match x.pc with
    | .effect (.create d) | .effect (.rebuild d) | .effect (.restart d) => some (.advance (.healthcheck d))
    | .effect .lifecycle => some (.check .lifecycleEnd)
    | _ => none
  | .wrote warnings =>
    match x.pc with
    | .writeBack d => some (.check (.deploy { d with warnings := warnings }))
    | _ => none
  | .reported access failed =>
    match x.pc with
    | .report d =>
      some (.ending (.deployed ⟨d.instanceId, s.revisions d.instanceId, some access, d.warnings, []⟩ failed))
    | _ => none
  | .fail e =>
    match e, x.pc with
    | .operationCancelled, _ => none
    | .fallback message, .effect (.import_ _) | .fallback message, .effect (.create _)
    | .fallback message, .effect (.rebuild _) | .fallback message, .effect (.restart _) =>
      some (.ending (.fallback message))
    | _, .raised _ => some (.closing true)
    | _, .closing _ | _, .leaving _ => none
    | e, _ => some (.raised e)
  | .judge _ | .begin_ _ | .sweep _ => none

/-- The heartbeat of an execution that ends is asked to stop. -/
def stopBeat (s : State) (h : BeatId) : State :=
  { s with beats := Function.update s.beats h ((s.beats h).map fun b => { b with stopped := true }) }

/-- `_execute`. -/
def execStep (host : Host) (s : State) (w : WorkerId) (x : Execution) (a : WorkerAction) : Option State :=
  let id := x.record.operationId
  match x.pc, a with
  | .validate plan, .proceed _ => some ((s.setPhase x.beat .validate).goto w x (.check (.validate plan)))
  | .advance m, .proceed now =>
    some ((s.setOperations (s.operations.updateAgentOperation id now
      ⟨some (m.phase x.record.action), none, none⟩)).goto w x (.phaseSet m))
  | .phaseSet m, .proceed _ => some ((s.setPhase x.beat (m.phase x.record.action)).goto w x m.next)
  | .link d, .proceed now =>
    some ((s.setOperations (s.operations.updateAgentOperation id now ⟨none, some d.instanceId, none⟩)).goto w x
      (.writeBack d))
  | .ending f, .proceed now =>
    some ((s.setOperations (s.operations.casAgentOperationStatus id [.running, .cancelling] now
      (f.settlement id))).goto w x (.closing false))
  | .raised e, .proceed now =>
    some ((s.setOperations (s.operations.casAgentOperationStatus id [.running, .cancelling] now
      (e.settlement id (s.phaseOf x.beat)))).goto w x (.closing false))
  | .closing died, .proceed _ => some ((stopBeat s x.beat).goto w x (.leaving died))
  | .leaving died, .proceed _ =>
    some ((s.setInflight (host.process w) ((s.inflight (host.process w)).filter (· ≠ id))).setWorker w
      (if died then .ended else .recovering))
  | _, a => (execNext s x a).map fun pc => s.goto w x pc

/-! ## Recovering, claiming and sweeping -/

/-- The judgement of `recover_stale` on a row it has listed. -/
def stale (row : OperationRow) (now : ℕ) (pidAlive : Bool) : Bool :=
  (match row.leaseUntil with
    | none => true
    | some lease => decide (lease ≤ now)) || (row.workerIdentity.isSome && !pidAlive)

def interruption (id : String) : Table.Settlement where
  status := .interrupted
  error := some (errorPayload .interrupted "操作执行中断（worker 租约过期或进程退出），结果未知" id none
    ["用 lwa_get_instance 核对实例现状", "确认后以新幂等键重新提交（不自动重复 create/restart）"])
  result := none
  targetInstanceId := none

/-- `OPERATION_RETENTION_SECONDS`. -/
def operationRetentionSeconds : ℕ := 7 * 24 * 3600

/-- The SELECT of `delete_expired_agent_plans`. -/
def expiredPlans (s : State) (now : ℕ) : List String :=
  ((s.plans.filter fun p => decide (p.expiresAt < now) &&
    !s.operations.rows.any (fun r => r.planId = some p.planId && !r.status.terminal)).map fun p => p.planId).take 100

/-- `run_forever` outside of `_execute`; an exception of a scan, a claim or a sweep is logged. -/
def loopStep (host : Host) (s : State) (w : WorkerId) (pc : WorkerPc) (a : WorkerAction) : Option State :=
  match pc, a with
  | .recovering, .proceed now => some (s.setWorker w (.listing now))
  | .listing now, .proceed _ =>
    some (s.setWorker w (.scanning now (s.operations.listAgentOperations [.running, .cancelling] 200)))
  | .scanning _ [], .proceed _ => some (s.setWorker w .claiming)
  | .scanning now (row :: rows), .judge pidAlive =>
    if row.operationId ∉ s.inflight (host.process w) ∧ stale row now pidAlive then
      some (s.setWorker w (.interrupting now row rows))
    else some (s.setWorker w (.scanning now rows))
  | .interrupting now row rows, .proceed _ =>
    some ((s.setOperations (s.operations.casAgentOperationStatus row.operationId [.running, .cancelling] now
      (interruption row.operationId))).setWorker w (.scanning now rows))
  | .claiming, .proceed now =>
    match s.operations.claimNextAgentOperation (host.identity (host.process w)) now (now + host.leaseSeconds) with
    | none => some (s.setWorker w .resting)
    | some (id, ops) => some ((s.setOperations ops).setWorker w (.reading id))
  | .reading id, .proceed _ =>
    match s.operations.getAgentOperation id with
    | none => some (s.setWorker w .resting)
    | some record => some (s.setWorker w (.starting record))
  | .starting record, .proceed _ =>
    some ((s.setInflight (host.process w) (record.operationId :: s.inflight (host.process w))).setWorker w
      (.launching record))
  | .launching record, .begin_ h =>
    if (s.beats h).isSome then none
    else some ((s.setBeat h ⟨w, record.operationId, none, false, .waiting⟩).setWorker w
      (.executing ⟨record, h, if record.action = .deploy then .loadPlan else .revision⟩))
  | .resting, .proceed _ => some (s.setWorker w .recovering)
  | .resting, .sweep now => some (s.setWorker w (.sweeping now))
  | .sweeping now, .proceed _ =>
    some (s.setWorker w (.deleting now (s.operations.terminalBefore (now - operationRetentionSeconds) 200)))
  | .deleting now ids, .proceed _ =>
    some ((s.setOperations (s.operations.remove ids)).setWorker w (.expiring now))
  | .expiring now, .proceed _ => some (s.setWorker w (.forgetting (expiredPlans s now)))
  | .forgetting ids, .proceed _ =>
    some ({ s with plans := s.plans.filter fun p => p.planId ∉ ids }.setWorker w .recovering)
  | .listing _, .fail _ | .scanning _ _, .fail _ | .interrupting _ _ _, .fail _ => some (s.setWorker w .claiming)
  | .claiming, .fail _ | .reading _, .fail _ => some (s.setWorker w .resting)
  | .sweeping _, .fail _ | .deleting _ _, .fail _ | .expiring _, .fail _ | .forgetting _, .fail _ =>
    some (s.setWorker w .recovering)
  | _, _ => none

def workerStep (host : Host) (s : State) (w : WorkerId) (a : WorkerAction) : Option State :=
  if s.life (host.process w) ≠ .alive then none
  else
    match s.workers w with
    | .executing x => execStep host s w x a
    | pc => loopStep host s w pc a

/-! ## Heartbeats -/

inductive BeatAction where
  | proceed (now : ℕ)
  | token (value : Option String)
  | fail
  deriving DecidableEq, Repr

/-- `_LeaseHeartbeat.run`. -/
def beatStep (host : Host) (s : State) (h : BeatId) (a : BeatAction) : Option State :=
  match s.beats h with
  | none => none
  | some b =>
    if s.life (host.process b.worker) ≠ .alive then none
    else
      match b.pc, a with
      | .waiting, .proceed _ => some (s.setBeat h { b with pc := if b.stopped then .ended else .renewing })
      | .renewing, .proceed now =>
        some ((s.setOperations (s.operations.renewAgentOperationLease b.operationId
          (host.identity (host.process b.worker)) now (now + host.leaseSeconds))).setBeat h { b with pc := .syncing })
      | .syncing, .proceed _ =>
        some (s.setBeat h { b with pc := if b.phase = some .build then .reading else .waiting })
      | .reading, .proceed _ =>
        match s.operations.getAgentOperation b.operationId with
        | none => some (s.setBeat h { b with pc := .waiting })
        | some row =>
          some (s.setBeat h { b with
            pc := if truthy row.buildToken ≠ none ∨ truthy row.targetInstanceId = none then .waiting else .asking })
      | .asking, .token value =>
        match truthy value with
        | none => some (s.setBeat h { b with pc := .waiting })
        | some token => some (s.setBeat h { b with pc := .writing token })
      | .writing token, .proceed now =>
        some ((s.setOperations (s.operations.updateAgentOperation b.operationId now
          ⟨none, none, some token⟩)).setBeat h { b with pc := .waiting })
      | .waiting, .fail | .ended, .fail => none
      | _, .fail => some (s.setBeat h { b with pc := .waiting })
      | _, _ => none

/-! ## The system -/

inductive Action where
  | worker (w : WorkerId) (a : WorkerAction)
  | beat (h : BeatId) (a : BeatAction)
  | submit (u : CallId) (a : SubmitAction)
  | cancel (u : CallId) (a : CancelAction)
  | spawn (p : ProcessId)
  | crash (p : ProcessId)
  | storePlan (plan : PlanRecord)
  | revise (instanceId : String) (revision : Option ℕ)
  deriving DecidableEq, Repr

def step (host : Host) (s : State) : Action → Option State
  | .worker w a => workerStep host s w a
  | .beat h a => beatStep host s h a
  | .submit u a => submitStep host s u a
  | .cancel u a => cancelStep s u a
  | .spawn p => if s.life p = .unborn then some { s with life := Function.update s.life p .alive } else none
  | .crash p => if s.life p = .alive then some { s with life := Function.update s.life p .dead } else none
  | .storePlan plan =>
    if (s.plan plan.planId).isSome then none else some { s with plans := s.plans ++ [plan] }
  | .revise instanceId revision => some { s with revisions := Function.update s.revisions instanceId revision }

/-- Before any thread has started. The table may hold operations of earlier runs, whose workers
are processes that have run. -/
structure Initial (host : Host) (s : State) : Prop where
  drawn : ∀ r ∈ s.operations.rows, r.operationId ∈ s.issued
  born : ∀ r ∈ s.operations.rows, ∀ identity, r.workerIdentity = some identity →
    ∃ p, host.identity p = identity ∧ s.life p ≠ .unborn
  workers : ∀ w, s.workers w = .recovering
  beats : ∀ h, s.beats h = none
  submissions : ∀ u, s.submissions u = none
  cancellations : ∀ u, s.cancellations u = none

/-- Every process is up, and no operation has been taken up yet. -/
def State.initial (operations : Table) (plans : List PlanRecord) (revisions : String → Option ℕ) : State where
  operations := operations
  plans := plans
  revisions := revisions
  issued := operations.rows.map fun r => r.operationId
  life := fun _ => .alive
  inflight := fun _ => []
  workers := fun _ => .recovering
  beats := fun _ => none
  submissions := fun _ => none
  cancellations := fun _ => none

theorem State.initial_of_unclaimed (host : Host) {operations : Table} (plans : List PlanRecord)
    (revisions : String → Option ℕ) (unclaimed : ∀ r ∈ operations.rows, r.workerIdentity = none) :
    Initial host (.initial operations plans revisions) where
  drawn r among := List.mem_map_of_mem among
  born r among identity recorded := by
    rw [unclaimed r among] at recorded
    cases recorded
  workers _ := rfl
  beats _ := rfl
  submissions _ := rfl
  cancellations _ := rfl

end LocalWebAccess.AgentOperations
