import LocalWebAccess.PythonText
import Mathlib.Data.List.Perm.Basic
import Mathlib.Order.Basic

/-!
# The verification of a container

A container that answers at all is probed at the paths of its contract. Only a probe that the user declared
can fail a deployment; what the others find is evidence for the interface or a warning.
-/
namespace LocalWebAccess.ContainerVerification
open PythonText

/-! ## Contracts and answers -/

/-- `ProbeSpec`, as far as a verification reads it. -/
structure ProbeSpec where
  path : String
  expectedStatus : ℤ
  isMandatory : Bool
  source : String
  confidence : String
  deriving DecidableEq, Repr

/-- The capabilities, in the order of their names. -/
inductive Capability where
  | api | database | migrations | ui
  deriving DecidableEq, Repr

def Capability.value : Capability → String
  | .api => "api"
  | .database => "database"
  | .migrations => "migrations"
  | .ui => "ui"

def capabilities : List Capability := [.api, .database, .migrations, .ui]

/-- `CapabilityContract` -/
structure CapabilityContract where
  servesUi : Bool
  servesApi : Bool
  requiresDatabase : Bool
  requiresMigrations : Bool
  requiredProbes : List ProbeSpec
  deriving DecidableEq, Repr

/-- `required_capabilities` -/
def CapabilityContract.required (contract : CapabilityContract) : Capability → Bool
  | .api => contract.servesApi
  | .database => contract.requiresDatabase
  | .migrations => contract.requiresMigrations
  | .ui => contract.servesUi

/-- The status and the content type of an answer. -/
abbrev Answer := ℤ × Option String

/-- `_status_matches` -/
def statusMatches (code : ℤ) (expectedStatus : Option ℤ) (lenientFamily : Bool) : Bool :=
  if expectedStatus = none ∨ (lenientFamily ∧ expectedStatus = some 200) then 200 ≤ code ∧ code < 400
  else some code = expectedStatus

/-- `_is_html_content_type` -/
def isHtmlContentType : Option String → Bool
  | none => false
  | some contentType =>
    lower (strip (contentType.toList.takeWhile (· ≠ ';'))) ∈ ["text/html".toList, "application/xhtml+xml".toList]

/-- `_probe_path`, with what the container answers at each path. -/
def probePath (respond : String → Option Answer) (path : String) (expectedStatus : ℤ) (lenientStatus : Bool) :
    Bool × Option ℤ × Option String :=
  match respond path with
  | none => (false, none, none)
  | some (code, contentType) => (statusMatches code (some expectedStatus) lenientStatus, some code, contentType)

/-! ## The evaluation -/

/-- The status, from the best to the worst. -/
inductive OverallStatus where
  | passed | degraded | failed
  deriving DecidableEq, Repr

/-- The result of a verification. -/
structure Verification where
  overallStatus : OverallStatus
  livenessPassed : Bool
  mandatoryAllPassed : Bool
  optionalWarnings : List String
  probeNotes : Option (List String)
  observedCapabilities : List String
  error : Option String
  deriving DecidableEq, Repr

/-- What the loop over the probes keeps. -/
structure Findings where
  mandatoryAllPassed : Bool
  optionalWarnings : List String
  probeNotes : List String
  successfulBusinessProbe : Bool
  deriving DecidableEq, Repr

/-- What a verification finds out besides the probes. -/
structure Environment where
  hostPort : ℕ
  /-- `_wait_for_http` -/
  live : Bool
  /-- `format_probe_failure`, with the context of the container. -/
  probeFailure : String → String
  /-- `_verify_sqlite_database` -/
  databaseVerified : Bool
  /-- `_migration_command_succeeded` -/
  migrationsSucceeded : Bool

/-- `_CONTAINER_HEALTH_ATTEMPTS` -/
def containerHealthAttempts : ℕ := 30

def codeText : Option ℤ → String
  | none => "None"
  | some code => toString code

def ProbeSpec.automatic (spec : ProbeSpec) : Bool := spec.source ∈ ["discovered", "guessed"]

def ProbeSpec.apiEligible (spec : ProbeSpec) : Bool := spec.source ∈ ["declared", "discovered"]

/-- Only such a probe can fail a deployment. -/
def ProbeSpec.gate (spec : ProbeSpec) : Bool := spec.isMandatory && spec.source = "declared"

def redirects : Option ℤ → Bool
  | none => false
  | some code => 300 ≤ code ∧ code < 400

/-- One turn of the loop. -/
def probeStep (respond : String → Option Answer) (found : Findings) (spec : ProbeSpec) : Findings :=
  let notes := found.probeNotes ++
    if spec.source = "discovered" ∧ spec.confidence = "low" then
      [spec.path ++ " 由静态路由扫描合成，置信度低（挂载前缀可能不完整）"]
    else []
  let (passed, code, contentType) := probePath respond spec.path spec.expectedStatus spec.automatic
  let htmlContent := passed && spec.apiEligible && isHtmlContentType contentType
  let redirectOnly := passed && spec.apiEligible && redirects code
  let notes := notes ++ if htmlContent then [spec.path ++ " 返回 HTML（疑似 SPA 兜底或缺少路由前缀）"] else []
  let notes := notes ++
    if redirectOnly then [spec.path ++ " 返回重定向（code=" ++ codeText code ++ "），跳转目标不计入 API 证据"] else []
  let found := { found with probeNotes := notes }
  if passed then
    if spec.apiEligible && !htmlContent && !redirectOnly then { found with successfulBusinessProbe := true }
    else if spec.apiEligible && !spec.gate then
      { found with optionalWarnings := found.optionalWarnings ++ ["可选探针 " ++ spec.path ++ " 未计入 API 证据"] }
    else found
  else if spec.gate then { found with mandatoryAllPassed := false }
  else if code = some 401 ∨ code = some 403 then
    { found with probeNotes := notes ++ ["端点 " ++ spec.path ++ " 存在但受保护（code=" ++ codeText code ++ "）"] }
  else if spec.source = "guessed" then
    if code ≠ some 404 then
      { found with
        probeNotes := notes ++ ["猜测探针 " ++ spec.path ++ " 未通过（code=" ++ codeText code ++ "），仅诊断不影响状态"] }
    else found
  else
    { found with
      optionalWarnings := found.optionalWarnings ++ ["可选探针 " ++ spec.path ++ " 未通过（code=" ++ codeText code ++ "）"] }

variable (env : Environment) (contract : CapabilityContract) (respond : String → Option Answer)

/-- The capabilities that have been seen while the container is alive. -/
def observes (found : Findings) : Capability → Bool
  | .api => found.successfulBusinessProbe
  | .database => contract.requiresDatabase && env.databaseVerified
  | .migrations => contract.requiresMigrations && env.migrationsSucceeded
  | .ui => true

def CapabilityContract.hasApiEvidenceSource : Bool := contract.requiredProbes.any ProbeSpec.apiEligible

/-- The capabilities that could be verified and were not. -/
def missingCapabilities (found : Findings) : List Capability :=
  capabilities.filter fun capability =>
    contract.required capability && (capability ≠ .api || contract.hasApiEvidenceSource) &&
      !observes env contract found capability

/-- The warnings at the end, after the loop. -/
def closingWarnings (found : Findings) : List String :=
  (if contract.servesApi && !contract.hasApiEvidenceSource then
    ["API 能力无法实证：契约要求 servesApi 但无声明/发现探针，" ++
      "仅以存活探针作为容器健康证据（如有 /health 端点，请在源码中声明）"] else []) ++
  (if missingCapabilities env contract found = [] then []
  else
    ["能力证据未覆盖：" ++ ", ".intercalate ((missingCapabilities env contract found).map Capability.value) ++
      "（能力证据仅作告警；可用 lwa probe 显式声明就绪探针）"])

/-- The findings of the loop. -/
def probed : Findings := contract.requiredProbes.foldl (probeStep respond) ⟨true, [], [], false⟩

/-- `_evaluate_container_verification`, for the effective contract. -/
def evaluateContainerVerification : Verification :=
  if env.live then
    let found := probed contract respond
    let warnings := found.optionalWarnings ++ closingWarnings env contract found
    { overallStatus := if !found.mandatoryAllPassed then .failed else if warnings ≠ [] then .degraded else .passed
      livenessPassed := true
      mandatoryAllPassed := found.mandatoryAllPassed
      optionalWarnings := warnings
      probeNotes := some found.probeNotes
      observedCapabilities := (capabilities.filter (observes env contract found)).map Capability.value
      error := if !found.mandatoryAllPassed then some "必选探针未通过（用户声明的就绪门槛）" else none }
  else
    { overallStatus := .failed
      livenessPassed := false
      mandatoryAllPassed := false
      optionalWarnings := []
      probeNotes := none
      observedCapabilities := []
      error := some (env.probeFailure ("基础存活探针超时（host_port=" ++ toString env.hostPort ++ "，" ++
        toString containerHealthAttempts ++ " 次未响应）")) }

end LocalWebAccess.ContainerVerification
