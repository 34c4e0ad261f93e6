import LocalWebAccess.Models
import LocalWebAccess.PythonText
import Mathlib.Data.Int.Notation

/-!
# Observing a container

`docker compose ps` is read as one Boolean: whether the container is running.
A command that cannot be run raises, and so does a failure whose text tells that
the socket may not be read. Every other failure, and every output without a
record, is read as an instance without a container.
-/
namespace LocalWebAccess.ComposeObservation
open PythonText

/-- What `json.loads` returns. Of a number only whether it is zero is kept. -/
inductive Json where
  | null
  | bool (value : Bool)
  | number (zero : Bool)
  | str (value : String)
  | list (items : List Json)
  | dict (entries : List (String × Json))

/-- What `json.loads` raises. -/
inductive LoadsError where
  | jsonDecode
  | raised (exc : Exn)

/-- The result of the command: an exception of the executor, or the finished process. -/
inductive Ps where
  | raised (exc : Exn)
  | done (returncode : ℤ) (stdout stderr : String)

abbrev Item := List (String × Json)

def Json.item? : Json → Option Item
  | dict entries => some entries
  | _ => none

def Item.get (data : Item) (key : String) : Option Json :=
  (data.find? (fun entry => entry.1 = key)).map Prod.snd

/-- The truth value of `value`. -/
def Json.truthy : Json → Bool
  | null => false
  | bool value => value
  | number zero => !zero
  | str value => value ≠ ""
  | list items => !items.isEmpty
  | dict entries => !entries.isEmpty

structure ContainerStatus where
  state : String
  raw : Item

def ContainerStatus.isRunning (status : ContainerStatus) : Bool := status.state = "running"

def DOCKER_PERMISSION_HINT : String :=
  "请执行 `newgrp docker` 或注销后重新登录，然后执行 `lwa manager off && lwa manager on` 与 " ++
    "`lwa daemon off && lwa daemon on`，使 docker 组对 CLI / manager / daemon 同时生效"

def isDockerPermissionError (text : String) : Bool :=
  let blob := lower text.toList
  if blob = [] then false
  else if occursIn "权限不足".toList text.toList then true
  else
    occursIn "permission denied".toList blob ||
      occursIn "connect: permission denied".toList blob ||
      (occursIn "docker.sock".toList blob && occursIn "permission".toList blob)

section decoder

variable (loads : String → Except LoadsError Json)

/-- The line-by-line part of `_iter_ps_json`: the records, and the exception that ends them. -/
def iterLines : List (List Char) → List Item × Option Exn
  | [] => ([], none)
  | line :: lines =>
    let line := strip line
    if line = [] then iterLines lines
    else
      match loads (String.ofList line) with
      | .error .jsonDecode => iterLines lines
      | .error (.raised exc) => ([], some exc)
      | .ok data =>
        match data.item? with
        | some item => (item :: (iterLines lines).1, (iterLines lines).2)
        | none => iterLines lines

/-- `_iter_ps_json`: what the generator yields, and the exception that ends it. -/
def iterPsJson (stdout : String) : List Item × Option Exn :=
  let text := strip stdout.toList
  if text = [] then ([], none)
  else
    match loads (String.ofList text) with
    | .ok (.list items) => (items.filterMap Json.item?, none)
    | .ok (.dict entries) => ([entries], none)
    | .error (.raised exc) => ([], some exc)
    | .ok _ | .error .jsonDecode => iterLines loads (splitlines text)

/-- The record of one item; a state that is not a string has no `lower`. -/
def containerStatus (data : Item) : Except Exn ContainerStatus :=
  match data.get "State" with
  | some (.str state) => .ok ⟨String.ofList (lower state.toList), data⟩
  | some value =>
    if value.truthy then .error (.other "object has no attribute 'lower'") else .ok ⟨"", data⟩
  | none => .ok ⟨"", data⟩

def status : Ps → Except Exn (Option ContainerStatus)
  | .raised exc => .error exc
  | .done returncode stdout stderr =>
    if returncode ≠ 0 then
      if isDockerPermissionError (stderr ++ "\n" ++ stdout) then
        .error (.docker ("Docker 权限不足（无法访问 docker.sock）：" ++ DOCKER_PERMISSION_HINT))
      else .ok none
    else
      match iterPsJson loads stdout with
      | (data :: _, _) => (containerStatus data).map some
      | ([], some exc) => .error exc
      | ([], none) => .ok none

def isRunning (ps : Ps) : Except Exn Bool :=
  (status loads ps).map (fun found => found.any ContainerStatus.isRunning)

end decoder

/-! ## The callers -/

inductive Command where
  | down
  | stop
  deriving DecidableEq, Repr

/-- `stop_or_abort`: how it ends, and the command it has given. `is_running` and the
command are given by their outcomes. -/
def stopOrAbort (running : Except Exn Bool) (execute : Command → Except Exn Unit)
    (instanceId purpose : String) (down onlyIfRunning : Bool) : Except Exn Unit × Option Command :=
  match running with
  | .error (.docker message) =>
    let exc := (Exn.docker message).str
    (.error (.hosting s!"实例 {instanceId} 运行状态无法确认，{purpose} 已中止：{exc}"), none)
  | .error exc => (.error exc, none)
  | .ok running =>
    if onlyIfRunning && !running then (.ok (), none)
    else
      let command := if down then Command.down else Command.stop
      match execute command with
      | .ok () => (.ok (), some command)
      | .error (.docker message) =>
        let exc := (Exn.docker message).str
        (.error (.hosting s!"实例仍在运行，{purpose} 已中止：{exc}"), some command)
      | .error exc => (.error exc, some command)

inductive ObservationError where
  | permissionDenied
  | daemonUnavailable
  | timeout
  | parseError
  | unknown
  deriving DecidableEq, Repr

def ObservationError.value : ObservationError → String
  | permissionDenied => "permission_denied"
  | daemonUnavailable => "daemon_unavailable"
  | timeout => "timeout"
  | parseError => "parse_error"
  | unknown => "unknown"

/-- `classify_docker_observation_error`, where an empty text gives `none`. -/
def classifyDockerObservationError (text : String) : Option ObservationError :=
  let blob := strip text.toList
  if blob = [] then none
  else
    let low := lower blob
    if isDockerPermissionError (String.ofList blob) then some .permissionDenied
    else if occursIn "超时".toList blob || occursIn "timeout".toList low ||
        occursIn "timed out".toList low then some .timeout
    else if occursIn "cannot connect".toList low ||
        occursIn "is the docker daemon running".toList low ||
        occursIn "docker daemon".toList low || occursIn "连接被拒绝".toList blob ||
        occursIn "connection refused".toList low || occursIn "daemon_unavailable".toList low then
      some .daemonUnavailable
    else if occursIn "json".toList low &&
        (occursIn "decode".toList low || occursIn "parse".toList low) then some .parseError
    else some .unknown

/-- The columns of `instances` that an observation reads. -/
structure InstanceRow where
  status : Option String
  lastTrustedState : Option String

/-- What is recorded as observed: a status, or that it is unknown. -/
inductive Observed where
  | status (status : Status)
  | unknown
  deriving DecidableEq, Repr

/-- The arguments of `update_status`; without an error the runtime access is ready. -/
structure StatusUpdate where
  status : Status
  lastError : String
  observedState : Observed
  observationError : Option ObservationError
  lastTrustedState : String

/-- `value or default` for a column. -/
def columnOr (value : Option String) (default : String) : String :=
  (value.filter (· ≠ "")).getD default

def recordOk (status : Status) : StatusUpdate :=
  ⟨status, "", .status status, none, status.value⟩

/-- `_record_unknown`; `latest` is the row as it is read again. -/
def recordUnknown (latest : InstanceRow) (trusted : String) (error : ObservationError) (msg : String)
    (keep : Status) : StatusUpdate where
  status := (Status.ofValue (columnOr latest.status "")).getD keep
  lastError := String.ofList (msg.toList.take 500)
  observedState := .unknown
  observationError := some error
  lastTrustedState := columnOr latest.lastTrustedState (columnOr latest.status trusted)

/-- `_observe_container_status`, with the outcome of `is_running` and of the HTTP probe;
the status returned is the one recorded. -/
def observeContainerStatus (running : Except Exn Bool) (row latest : InstanceRow)
    (hostPort : Option ℕ) (httpOk : ℕ → Bool) : StatusUpdate :=
  let current := (Status.ofValue (columnOr row.status "stopped")).getD .stopped
  let trusted := columnOr row.lastTrustedState current.value
  match running with
  | .ok true => recordOk .running
  | .ok false => recordOk .stopped
  | .error (.docker message) =>
    let text := (Exn.docker message).str
    let kind := (classifyDockerObservationError text).getD .unknown
    if kind = .permissionDenied ∨ isDockerPermissionError text then
      if hostPort.any httpOk then
        ⟨.running, String.ofList (("Docker 权限不足，无法用 compose ps 观测" ++
          "（观测已降级为 HTTP 探活）；" ++ DOCKER_PERMISSION_HINT).toList.take 500),
          .status .running, some .permissionDenied, Status.running.value⟩
      else
        recordUnknown latest trusted .permissionDenied
          ("Docker 权限不足，无法用 compose ps 观测；" ++ DOCKER_PERMISSION_HINT) current
    else
      let name := kind.value
      recordUnknown latest trusted kind s!"Docker 观测失败（{name}）：{text}" current
  | .error exc =>
    let text := exc.str
    recordUnknown latest trusted ((classifyDockerObservationError text).getD .unknown)
      s!"Docker 观测异常：{text}" current

/-! ## What fails safe -/

section safety

variable (loads : String → Except LoadsError Json)

/-- The command did not succeed, or it succeeded with some output that has no record. -/
def Unreadable : Ps → Prop
  | .raised _ => True
  | .done returncode stdout _ =>
    returncode ≠ 0 ∨ (stdout ≠ "" ∧ (iterPsJson loads stdout).1 = [])

/-- `stop_or_abort` has returned without a command, as for an instance that is stopped. -/
def ReturnsAsStopped (outcome : Except Exn Unit × Option Command) : Prop := outcome = (.ok (), none)

/-- No running container is taken for a stopped one, neither by a stop nor by an observation. -/
def FailsSafe (ps : Ps) (containerRunning : Bool) : Prop :=
  containerRunning = true →
    (∀ execute instanceId purpose down, ¬ ReturnsAsStopped
      (stopOrAbort (isRunning loads ps) execute instanceId purpose down true)) ∧
    ∀ row latest hostPort httpOk,
      (observeContainerStatus (isRunning loads ps) row latest hostPort httpOk).observedState ≠
        .status .stopped

/-- The result tells the callers that nothing was observed: the command could not be run, its
failure is one of permissions, or the decoder has raised something other than a decode error. -/
def Reported : Ps → Prop
  | .raised _ => True
  | .done returncode stdout stderr =>
    if returncode ≠ 0 then isDockerPermissionError (stderr ++ "\n" ++ stdout) = true
    else (iterPsJson loads stdout).2.isSome

variable {loads}

theorem returnsAsStopped_iff (running : Except Exn Bool) (execute : Command → Except Exn Unit)
    (instanceId purpose : String) (down : Bool) :
    ReturnsAsStopped (stopOrAbort running execute instanceId purpose down true) ↔ running = .ok false := by
  unfold ReturnsAsStopped stopOrAbort
  cases running with
  | error exc => cases exc <;> simp
  | ok running =>
    cases running with
    | false => simp
    | true =>
      simp only [Bool.not_true, Bool.and_false, Bool.false_eq_true, if_false]
      generalize execute _ = outcome
      cases outcome with
      | ok => simp
      | error exc => cases exc <;> simp

/-- Only a container that was found not running is observed as stopped. -/
theorem observedState_stopped_iff (running : Except Exn Bool) (row latest : InstanceRow)
    (hostPort : Option ℕ) (httpOk : ℕ → Bool) :
    (observeContainerStatus running row latest hostPort httpOk).observedState = .status .stopped ↔
      running = .ok false := by
  cases running with
  | ok running => cases running <;> simp [observeContainerStatus, recordOk]
  | error exc =>
    have other : (observeContainerStatus (.error exc) row latest hostPort httpOk).observedState ≠ .status .stopped := by
      unfold observeContainerStatus
      cases exc with
      | docker message =>
        dsimp only
        split_ifs with permission answers
        · exact fun same => by cases same
        · exact fun same => by cases same
        · exact fun same => by cases same
      | _ => exact fun same => by cases same
    exact iff_of_false other nofun

theorem failsSafe_iff (ps : Ps) (containerRunning : Bool) :
    FailsSafe loads ps containerRunning ↔
      (containerRunning = true → isRunning loads ps ≠ .ok false) := by
  unfold FailsSafe
  constructor
  · intro safe running stopped
    have stops := (safe running).1 (fun _ => .ok ()) "" "" true
    exact stops ((returnsAsStopped_iff _ _ _ _ _).mpr stopped)
  · intro safe running
    refine ⟨fun execute instanceId purpose down stops => ?_, fun row latest hostPort httpOk stops => ?_⟩
    · exact safe running ((returnsAsStopped_iff _ _ _ _ _).mp stops)
    · exact safe running ((observedState_stopped_iff _ _ _ _ _).mp stops)

/-- An unreadable result is read as a stopped container, unless it reports itself. -/
theorem isRunning_unreadable {ps : Ps} (unreadable : Unreadable loads ps) :
    isRunning loads ps = .ok false ↔ ¬ Reported loads ps := by
  cases ps with
  | raised exc => simp [isRunning, status, Reported, Except.map]
  | done returncode stdout stderr =>
    by_cases failed : returncode ≠ 0
    · simp only [isRunning, status, Reported, if_pos failed]
      split_ifs with permission <;> simp [Except.map, permission]
    · obtain ⟨-, empty⟩ := unreadable.resolve_left failed
      simp only [isRunning, status, Reported, if_neg failed]
      generalize iterPsJson loads stdout = records at empty
      obtain ⟨items, raised⟩ := records
      simp only at empty
      subst empty
      cases raised <;> simp [Except.map]

/-- An unreadable result fails safe exactly when it reports itself. -/
theorem unreadable_failsSafe_iff (ps : Ps) (containerRunning : Bool) :
    (Unreadable loads ps → FailsSafe loads ps containerRunning) ↔
      (¬ Unreadable loads ps ∨ containerRunning = false ∨ Reported loads ps) := by
  rw [failsSafe_iff]
  by_cases unreadable : Unreadable loads ps
  · rw [Ne, isRunning_unreadable unreadable, not_not]
    cases containerRunning <;> simp [unreadable]
  · simp [unreadable]

/-- The daemon has gone away while its containers run. -/
def daemonGone : Ps :=
  .done 1 "" "Cannot connect to the Docker daemon at unix:///var/run/docker.sock."

theorem daemonGone_unreported :
    isDockerPermissionError ("Cannot connect to the Docker daemon at unix:///var/run/docker.sock." ++ "\n" ++ "") =
      false := by
  have gone : "Cannot connect to the Docker daemon at unix:///var/run/docker.sock.".toList = _ := String.toList_ofList
  have newline : "\n".toList = _ := String.toList_ofList
  have empty : "".toList = _ := String.toList_ofList
  have lacking : "权限不足".toList = _ := String.toList_ofList
  have denied : "permission denied".toList = _ := String.toList_ofList
  have connect : "connect: permission denied".toList = _ := String.toList_ofList
  have sock : "docker.sock".toList = _ := String.toList_ofList
  have permission : "permission".toList = _ := String.toList_ofList
  unfold isDockerPermissionError
  -- on lists of characters the decision is quick
  simp only [String.toList_append, gone, newline, empty, lacking, denied, connect, sock, permission]
  decide +kernel

/-- Whatever the decoder, it is not called. -/
theorem unreadable_taken_for_stopped :
    ¬ ∃ loads : String → Except LoadsError Json, ∀ (ps : Ps) (containerRunning : Bool),
      Unreadable loads ps → FailsSafe loads ps containerRunning := by
  rintro ⟨loads, claim⟩
  have unreadable : Unreadable loads daemonGone := .inl (by decide)
  have unreported : ¬ Reported loads daemonGone := by
    simpa [Reported, daemonGone] using daemonGone_unreported
  have safe := (failsSafe_iff _ _).mp (claim daemonGone true unreadable)
  exact safe rfl ((isRunning_unreadable unreadable).mpr unreported)

end safety

end LocalWebAccess.ComposeObservation
