import LocalWebAccess.AgentOperations

/-!
# Accepting and cancelling agent operations

`apply_deployment`, `submit_lifecycle` and `cancel_operation`, one statement of the database a step.
-/
namespace LocalWebAccess.AgentOperations

/-! ## Acceptance -/

def accepted (row : OperationRow) : OperationAccepted := ⟨row.operationId, row.status, row.targetInstanceId⟩

def idempotencyConflict (key : String) : AgentServiceError :=
  serviceError .idempotencyConflict "幂等键已绑定不同请求内容" [("idempotency_key", key)]

/-- The fields by which `_replay_existing` compares a call with a stored operation. -/
def replays (request : Request) (row : OperationRow) : Bool :=
  row.action = request.action && match request with
    | .apply planId => row.planId = some planId
    | .lifecycle _ instanceId expectedRevision =>
      match row.payload with
      | some (.lifecycle _ instanceId' expectedRevision') =>
        instanceId' = instanceId && expectedRevision' = expectedRevision
      | _ => false

/-- `_LIFECYCLE_SCOPES`. -/
def lifecycleScope : OperationAction → Option String
  | .start | .stop | .restart => some "instances:operate"
  | .rebuild => some "deploy:update"
  | .deploy => none

def permissionDenied : AgentServiceError := serviceError .permissionDenied "主体无权执行该操作" []

/-- The checks of a plan between `load_plan` and the capabilities. -/
def planRefusal (host : Host) (principalId : String) (plan : PlanRecord) (now : ℕ) : Option AgentServiceError :=
  if (if plan.create then "deploy:create" else "deploy:update") ∉ host.scopes principalId then some permissionDenied
  else if plan.expiresAt ≤ now then
    some (serviceError .needsInput "部署计划已过期，请重新计划" [("planId", plan.planId)])
  else if plan.principalId ≠ principalId then
    some (serviceError .permissionDenied "计划不属于当前主体" [("planId", plan.planId)])
  else if plan.workspaceId ≠ host.workspaceId then
    some (serviceError .permissionDenied "计划不属于本工作区" [("planId", plan.planId)])
  else none

/-- `digest_payload` of a deployment, in the order of its keys. -/
def planDigest (plan : PlanRecord) : List (String × Field) :=
  [("action", .str OperationAction.deploy.value),
    ("expectedRevision", (plan.expectedRevision.map Field.int).getD .null),
    ("planId", .str plan.planId),
    ("policyVersion", .str plan.policyVersion),
    ("requestHash", .str plan.requestHash),
    ("targetInstanceId", .ofOption plan.targetInstanceId)]

/-- `digest_payload` of a lifecycle request. -/
def lifecycleDigest (action : OperationAction) (instanceId : String) (expectedRevision : ℕ) :
    List (String × Field) :=
  [("action", .str action.value), ("expectedRevision", .int expectedRevision), ("instanceId", .str instanceId)]

def planAcceptance (plan : PlanRecord) : Acceptance := ⟨planDigest plan, some plan.planId, plan.targetInstanceId⟩

def lifecycleAcceptance (action : OperationAction) (instanceId : String) (expectedRevision : ℕ) : Acceptance :=
  ⟨lifecycleDigest action instanceId expectedRevision, none, some instanceId⟩

/-- The row that `_accept` inserts. -/
def newRow (host : Host) (c : Submission) (acc : Acceptance) (id : String) (now : ℕ) : OperationRow where
  operationId := id
  principalId := c.principalId
  workspaceId := host.workspaceId
  action := c.request.action
  requestHash := requestHash host.sha256 acc.digest
  idempotencyKey := c.idempotencyKey
  planId := acc.planId
  createdAt := now
  payload := some c.request
  targetInstanceId := acc.targetInstanceId
  status := .queued
  phase := none
  updatedAt := now
  workerIdentity := none
  leaseUntil := none
  buildToken := none
  result := none
  error := none

/-- An operation under the key, where its digest decides. -/
def bound (host : Host) (c : Submission) (acc : Acceptance) (row : OperationRow) : SubmitPc :=
  if row.requestHash ≠ requestHash host.sha256 acc.digest then .refused (idempotencyConflict c.idempotencyKey)
  else .returned (accepted row)

inductive SubmitAction where
  | call (principalId : String) (request : Request) (idempotencyKey : String)
  | proceed (now : ℕ)
  | capabilities (dockerReady : Bool)
  | insert (id : String) (now : ℕ)
  | fail
  deriving DecidableEq, Repr

/-- Where a call goes from a step that only reads. -/
def submitNext (host : Host) (s : State) (c : Submission) (now : ℕ) : Option SubmitPc :=
  match c.pc with
  | .requiring =>
    match lifecycleScope c.request.action with
    | none => some (.refused (serviceError .needsInput ("不支持的操作动作: " ++ c.request.action.value) []))
    | some scope => if scope ∈ host.scopes c.principalId then some .replaying else some (.refused permissionDenied)
  | .replaying =>
    match s.operations.getAgentOperationByIdempotency (c.key host), c.request with
    | some row, request =>
      if replays request row then some (.returned (accepted row))
      else some (.refused (idempotencyConflict c.idempotencyKey))
    | none, .apply _ => some .loading
    | none, .lifecycle _ _ _ => some .revising
  | .loading =>
    match c.request with
    | .apply planId =>
      match s.plan planId with
      | none => some (.refused (serviceError .needsInput ("计划 " ++ planId ++ " 不存在或已过期清理")
          [("planId", planId)]))
      | some plan => some (.permitting plan)
    | .lifecycle _ _ _ => none
  | .permitting plan =>
    match planRefusal host c.principalId plan now with
    | some error => some (.refused error)
    | none => some (.capabilities plan)
  | .revising =>
    match c.request with
    | .apply _ => none
    | .lifecycle action instanceId expectedRevision =>
      match s.revisions instanceId with
      | none => some (.refused (serviceError .needsInput ("实例 " ++ instanceId ++ " 不存在")
          [("instanceId", instanceId)]))
      | some current =>
        if current ≠ expectedRevision then
          some (.refused (serviceError .revisionConflict "实例 revision 与期望不符"
            [("instanceId", instanceId), ("expected", toString expectedRevision), ("actual", toString current)]))
        else some (.looking (lifecycleAcceptance action instanceId expectedRevision))
  | .looking acc =>
    match s.operations.getAgentOperationByIdempotency (c.key host) with
    | some row => some (bound host c acc row)
    | none => some (.counting acc)
  | .counting acc =>
    if host.maxPendingOperations ≤ s.operations.countAgentOperations activeStatuses then
      some (.refused (serviceError .busy
        ("待执行操作已达上限 " ++ toString host.maxPendingOperations ++ "，请稍后重试") [("retryAfterMs", "2000")]))
    else some (.inserting acc)
  | .conflicted acc =>
    match s.operations.getAgentOperationByIdempotency (c.key host) with
    | some row => some (bound host c acc row)
    | none => some .broken
  | .inserted id =>
    match s.operations.getAgentOperation id with
    | some row => some (.returned (accepted row))
    | none => some .broken
  | _ => none

/-- A call under way, which may also fail with an error of the database. -/
def SubmitPc.open_ : SubmitPc → Bool
  | .returned _ | .refused _ | .broken => false
  | _ => true

/-- `uuid4` draws ids that have not been drawn before. -/
def submitStep (host : Host) (s : State) (u : CallId) (a : SubmitAction) : Option State :=
  match s.submissions u, a with
  | none, .call principalId request key =>
    let first := match request with
      | .apply _ => SubmitPc.replaying
      | .lifecycle _ _ _ => .requiring
    some (s.setSubmission u ⟨principalId, request, key, first⟩)
  | some c, .proceed now => (submitNext host s c now).map fun pc => s.setSubmission u (c.goto pc)
  | some c, .capabilities dockerReady =>
    match c.pc with
    | .capabilities plan =>
      let gaps := capabilityGapsNow plan.requiredCapabilities dockerReady
      if gaps ≠ [] then
        some (s.setSubmission u (c.goto (.refused (serviceError .capabilityUnavailable
          ("所需运行能力不可用: " ++ "、".intercalate gaps ++
            "（如 Docker 未就绪）；请管理员恢复能力后重新 apply，LWA 不自动安装基础设施")
          [("planId", plan.planId), ("gaps", ", ".intercalate gaps)]))))
      else some (s.setSubmission u (c.goto (.looking (planAcceptance plan))))
    | _ => none
  | some c, .insert id now =>
    match c.pc with
    | .inserting acc =>
      if id ∈ s.issued then none
      else
        match s.operations.insert (newRow host c acc id now) with
        | some ops =>
          some ({ s with operations := ops, issued := id :: s.issued }.setSubmission u (c.goto (.inserted id)))
        | none => some ({ s with issued := id :: s.issued }.setSubmission u (c.goto (.conflicted acc)))
    | _ => none
  | some c, .fail =>
    match c.pc with
    | .inserting acc => some (s.setSubmission u (c.goto (.conflicted acc)))
    | pc => if pc.open_ then some (s.setSubmission u (c.goto .broken)) else none
  | _, _ => none

/-! ## Cancelling -/

inductive CancelAction where
  | call (principalId operationId : String)
  | proceed (now : ℕ)
  | fail
  deriving DecidableEq, Repr

def withdrawn (id : String) : Table.Settlement where
  status := .cancelled
  error := some (errorPayload .interrupted "操作在执行前被取消" id none [])
  result := none
  targetInstanceId := none

def cancelRequested : Table.Settlement := ⟨.cancelling, none, none, none⟩

/-- `_owned_row` and the choice by the status it reads. -/
def asked (s : State) (c : Cancellation) : CancelPc :=
  let missing := serviceError .needsInput ("操作 " ++ c.operationId ++ " 不存在") [("operationId", c.operationId)]
  match s.operations.getAgentOperation c.operationId with
  | none => .refused missing
  | some row =>
    if row.principalId ≠ c.principalId then .refused missing
    else if row.status.terminal then .returned row.status
    else if row.status = .queued then .withdrawing
    else .requesting row

def cancelStep (s : State) (u : CallId) (a : CancelAction) : Option State :=
  match s.cancellations u, a with
  | none, .call principalId operationId => some (s.setCancellation u ⟨principalId, operationId, .asking⟩)
  | some c, .proceed now =>
    match c.pc with
    | .asking => some (s.setCancellation u { c with pc := asked s c })
    | .withdrawing =>
      let pc := if s.operations.casHits c.operationId [.queued] then .returned .cancelled else .rereading .queued
      some ((s.setOperations (s.operations.casAgentOperationStatus c.operationId [.queued] now
        (withdrawn c.operationId))).setCancellation u { c with pc := pc })
    | .requesting row =>
      let pc :=
        if s.operations.casHits c.operationId [.running] then
          if row.phase = some .build ∧ truthy row.targetInstanceId ≠ none then .cancellingBuild
          else .returned .cancelling
        else .rereading row.status
      some ((s.setOperations (s.operations.casAgentOperationStatus c.operationId [.running] now
        cancelRequested)).setCancellation u { c with pc := pc })
    | .rereading status =>
      some (s.setCancellation u { c with pc := .returned ((s.statusOf c.operationId).getD status) })
    | .cancellingBuild => some (s.setCancellation u { c with pc := .returned .cancelling })
    | .returned _ | .refused _ | .broken => none
  | some c, .fail =>
    match c.pc with
    | .returned _ | .refused _ | .broken => none
    | _ => some (s.setCancellation u { c with pc := .broken })
  | _, _ => none

end LocalWebAccess.AgentOperations
