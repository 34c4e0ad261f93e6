import LocalWebAccess.GuardedRuns
import Mathlib.Data.Nat.Notation

/-!
# Starting and stopping the gateway

`run/gateway.json` says whether the user wants the gateway and `run/caddy.pid` names its Caddy
master. The routines of `gateway_service` and of `StaticGateway` that start or stop a master run
in several processes at once. A master is a process of its own: it comes up some time after
`caddy start`, and `run/gateway-start.lock` is held by those routines that start one.
-/

namespace LocalWebAccess.GatewayService
open GuardedRuns

abbrev CallId := ℕ
abbrev Pid := ℕ

/-! ## `run/gateway.json` -/

inductive Source
  | manual | updateRestart | reconcile | autostart
  deriving DecidableEq

inductive StartError
  | occupied
  | notStarted
  | tls (reason : String)
  deriving DecidableEq

def StartError.text (adminPort : ℕ) : StartError → String
  | .occupied => s!"Caddy admin :{adminPort} 被非本工作区进程占用，启动被拒绝"
  | .notStarted => s!"Caddy master 启动失败（admin :{adminPort} 不可达或非本工作区进程）"
  | .tls reason => reason

/-- `str(message)[:500]`. -/
def StartError.message (adminPort : ℕ) (error : StartError) : String :=
  String.ofList ((error.text adminPort).toList.take 500)

structure GatewayState where
  enabled : Bool
  pid : Option Pid
  lastStartError : Option (StartError × Source)
  consecutiveStartFailures : ℕ
  deriving DecidableEq

namespace GatewayState

/-- A state that only says that the gateway is wanted. -/
def wanted (pid : Option Pid) : GatewayState := ⟨true, pid, none, 0⟩

def recordStartFailure (state : GatewayState) (error : StartError) (source : Source) : GatewayState :=
  { state with
    lastStartError := some (error, source)
    consecutiveStartFailures := state.consecutiveStartFailures + 1 }

def clearStartFailures (state : GatewayState) : GatewayState :=
  { state with
    lastStartError := none
    consecutiveStartFailures := 0 }

def hasStartFailures (state : GatewayState) : Bool :=
  state.consecutiveStartFailures ≠ 0 || state.lastStartError.isSome

/-- What the user's `stop_gateway` writes. -/
def switchedOff (state : GatewayState) : GatewayState :=
  { state.clearStartFailures with
    enabled := false
    pid := none }

/-- The intent that a cold start writes before `caddy_start`. -/
def intent : Option GatewayState → GatewayState
  | none => wanted none
  | some state => { state with enabled := true }

end GatewayState

/-! ## The calls -/

inductive Kind
  /-- `stop_gateway` -/
  | stop
  /-- `stop_gateway_internal` -/
  | stopInternal
  /-- `start_gateway` -/
  | start (byUser : Bool) (source : Source)
  /-- `maybe_start_gateway` -/
  | maybeStart
  /-- `run_gateway_foreground`, and whether its first start is behind it -/
  | supervise (up : Bool)
  /-- `reload_all` -/
  | reload
  /-- `ensure_caddy_running` -/
  | ensure
  deriving DecidableEq

def Kind.source : Kind → Source
  | .start _ source => source
  | _ => .manual

/-- Where `reload_all` was called: on its own, or by `start_gateway` with a running master or
after it started one. -/
inductive ReloadFrom
  | alone
  | running (pid : Option Pid)
  | started
  deriving DecidableEq

/-- Where `ensure_caddy_running` was called: on its own, or by `reload_all` before its first
`caddy reload` or after that failed. -/
inductive EnsureFrom
  | alone
  | reload (from' : ReloadFrom)
  | heal (from' : ReloadFrom)
  deriving DecidableEq

/-- Where `caddy_start` was called. -/
inductive SpawnFrom
  | cold (intent : GatewayState)
  | ensure (from' : EnsureFrom)
  deriving DecidableEq

/-- Where `caddy_stop` was called: by `stop_gateway` with Caddy as the backend or another one, or
by `stop_gateway_internal`. -/
inductive StopFrom
  | user
  | otherBackend
  | internal
  deriving DecidableEq

/-- Where a call stands. `verdict` is the number of masters that had been started when
`caddy_stop` found that none is left. -/
inductive Pc
  | stopBackend
  | offRead
  | offWrite (state : GatewayState)
  | offAdmin
  | stopAcquire
  | stopProbe (from' : StopFrom)
  | stopOwn (from' : StopFrom)
  | stopAdopt (from' : StopFrom)
  | stopPost (from' : StopFrom)
  | stopWait (from' : StopFrom)
  | stopped (from' : StopFrom) (verdict : ℕ)
  | stopRead (verdict : ℕ)
  | stopWrite (verdict : ℕ) (state : GatewayState)
  | maybeBackend
  | maybeRead
  | requireBackend
  | acquire
  | probeAdmin
  | probeOwn
  | adopt
  | failRead
  | failWrite (state : GatewayState)
  | probeRunning
  | probeOwner
  | runRead
  | runWrite (pid : Option Pid) (state : GatewayState)
  | verifyRunning (pid : Option Pid)
  | tlsRead (pid : Option Pid) (reason : String)
  | tlsWrite (state : GatewayState)
  | coldRead
  | coldWrite (state : GatewayState)
  | coldFail (state : GatewayState)
  | upReload
  | upWrite
  | verifyUp (state : GatewayState)
  | upFail (state : GatewayState)
  | spawn (from' : SpawnFrom)
  | await (from' : SpawnFrom)
  | reloadProbe (from' : ReloadFrom)
  | reloadOwner (from' : ReloadFrom)
  | reload (from' : ReloadFrom)
  | reloadAgain (from' : ReloadFrom)
  | ensureProbe (from' : EnsureFrom)
  | ensureOwner (from' : EnsureFrom)
  | ensureAcquire (from' : EnsureFrom)
  | ensureRecheck (from' : EnsureFrom)
  | ensureRecheckOwner (from' : EnsureFrom)
  | ensureBusy (from' : EnsureFrom)
  | polling
  | pollOwner
  | done
  | returned (stopped : Bool) (verdict : ℕ)
  | raised
  deriving DecidableEq

def Pc.ended : Pc → Bool
  | .done | .returned _ _ | .raised => true
  | _ => false

structure Call where
  kind : Kind
  pc : Pc
  deriving DecidableEq

def Kind.call (kind : Kind) : Call :=
  match kind with
  | .stop => ⟨kind, .stopBackend⟩
  | .stopInternal => ⟨kind, .stopAcquire⟩
  | .start _ _ => ⟨kind, .requireBackend⟩
  | .maybeStart => ⟨kind, .maybeBackend⟩
  | .supervise _ => ⟨.supervise false, .requireBackend⟩
  | .reload => ⟨kind, .reloadProbe .alone⟩
  | .ensure => ⟨kind, .ensureProbe .alone⟩

/-- A command of the user that turns the gateway on. -/
def Kind.turnsOn : Kind → Bool
  | .start byUser _ => byUser
  | _ => false

/-- `start_gateway` returns or raises. `maybe_start_gateway` and the loop of
`run_gateway_foreground` swallow its error. -/
def Call.afterStart (call : Call) (ok : Bool) : Call :=
  match call.kind with
  | .supervise up => if ok || up then ⟨.supervise true, .polling⟩ else { call with pc := .raised }
  | .maybeStart => { call with pc := .done }
  | _ => { call with pc := if ok then .done else .raised }

theorem Call.afterStart_pc (call : Call) (ok : Bool) :
    (call.afterStart ok).pc = .polling ∨ (call.afterStart ok).pc = .done ∨ (call.afterStart ok).pc = .raised := by
  rcases call with ⟨kind, pc⟩
  cases kind with
  | supervise up => cases ok <;> cases up <;> simp [Call.afterStart]
  | maybeStart => simp [Call.afterStart]
  | stop | stopInternal | start _ _ | reload | ensure => cases ok <;> simp [Call.afterStart]

def ReloadFrom.after (ok : Bool) : ReloadFrom → Pc
  | .alone => if ok then .done else .raised
  | .running pid => .verifyRunning pid
  | .started => .upWrite

def EnsureFrom.after (ok : Bool) : EnsureFrom → Pc
  | .alone => .done
  | .reload r => .reload r
  | .heal r => if ok then .reloadAgain r else r.after false

/-- Whether the thread already holds the start lock, which it may take again. -/
def ReloadFrom.nested : ReloadFrom → Bool
  | .alone => false
  | .running _ | .started => true

def EnsureFrom.nested : EnsureFrom → Bool
  | .alone => false
  | .reload r | .heal r => r.nested

/-! ## The processes -/

/-- A Caddy process that was started for the workspace. -/
structure Master where
  pid : Pid
  listening : Bool
  deriving DecidableEq

/-- `foreign` is another program on the admin address and `stranger` are the other processes of
the host. `off` is the time between a user's stop that returned `True` and the next start by the
user, and `revived` tells whether a master was started in it. -/
structure State where
  file : Option GatewayState
  pidFile : Option Pid
  masters : List Master
  spawned : ℕ
  foreign : Bool
  stranger : Pid → Bool
  lock : Option CallId
  calls : CallId → Option Call
  off : Bool
  revived : Bool

namespace State

def initial (file : Option GatewayState) (pidFile : Option Pid) : State where
  file := file
  pidFile := pidFile
  masters := []
  spawned := 0
  foreign := false
  stranger := fun _ => false
  lock := none
  calls := fun _ => none
  off := false
  revived := false

/-- `_admin_alive` -/
def adminAlive (s : State) : Bool := s.foreign || s.masters.any fun m => m.listening

/-- `_pid_alive` -/
def alive (s : State) (p : Pid) : Bool := s.stranger p || s.masters.any fun m => m.pid = p

/-- `_workspace_caddy_pid_alive` -/
def pidAlive (s : State) : Bool := s.pidFile.any fun p => s.alive p

/-- `_clear_stale_caddy_pid` -/
def clearStale (s : State) : State := if s.pidAlive then s else { s with pidFile := none }

def put (s : State) (c : CallId) (call : Call) : State :=
  { s with calls := fun d => if d = c then some call else s.calls d }

def setPc (s : State) (c : CallId) (call : Call) (pc : Pc) : State := s.put c { call with pc := pc }

def writeState (s : State) (state : GatewayState) : State := { s with file := some state }

def take (s : State) (c : CallId) : State := { s with lock := some c }

def release (s : State) : State := { s with lock := none }

/-- `ensure_caddy_running` leaves its `with gateway_start_lock`. -/
def leave (s : State) (from' : EnsureFrom) : State := if from'.nested then s else s.release

/-- A stop returns `True`. -/
def stops (s : State) (c : CallId) (call : Call) (verdict : ℕ) : State :=
  if call.kind = .stop then { s with off := true, revived := false }.setPc c call (.returned true verdict)
  else s.setPc c call (.returned true verdict)

/-- `subprocess.Popen` of `caddy start`. -/
def spawn (s : State) : State :=
  { s with
    masters := ⟨s.spawned, false⟩ :: s.masters
    spawned := s.spawned + 1
    revived := s.revived || s.off }

end State

/-- Only the pid file and the start lock differ. -/
structure Frame (s s' : State) : Prop where
  file : s'.file = s.file
  masters : s'.masters = s.masters
  spawned : s'.spawned = s.spawned
  calls : s'.calls = s.calls
  off : s'.off = s.off
  revived : s'.revived = s.revived

theorem Frame.refl (s : State) : Frame s s := ⟨rfl, rfl, rfl, rfl, rfl, rfl⟩

theorem Frame.pidFile (s : State) (pidFile : Option Pid) : Frame s { s with pidFile := pidFile } :=
  ⟨rfl, rfl, rfl, rfl, rfl, rfl⟩

theorem Frame.clearStale (s : State) : Frame s s.clearStale := by
  unfold State.clearStale
  split
  · exact .refl s
  · exact .pidFile s none

theorem clearStale_lock (s : State) : s.clearStale.lock = s.lock := by
  unfold State.clearStale
  split <;> rfl

theorem Frame.take (s : State) (c : CallId) : Frame s (s.take c) := ⟨rfl, rfl, rfl, rfl, rfl, rfl⟩

theorem Frame.release (s : State) : Frame s s.release := ⟨rfl, rfl, rfl, rfl, rfl, rfl⟩

theorem Frame.leave (s : State) (e : EnsureFrom) : Frame s (s.leave e) := by
  unfold State.leave
  split
  · exact .refl s
  · exact .release s

/-! ## One step of a call -/

/-- What a step learns from outside: that something holds or worked, that it does not, the
process that `lsof` names, or the text of a failed TLS check. -/
inductive Answer
  | yes
  | no
  | unconfirmed
  | names (p : Pid)
  | reports (reason : String)
  deriving DecidableEq

/-- `inspect_caddy_owner` with the admin address alive, where the answer is `no` when the process
user is not known to be the service user. -/
def State.ownerOk (s : State) (answer : Answer) : Bool := s.pidAlive && answer ≠ .no

/-- `adopt_orphan_master`, where the answer names a process of the service user with a path of
this workspace on its command line. -/
def State.adoptable (s : State) : Answer → Option Pid
  | .names p => if s.adminAlive && !s.pidAlive && s.alive p then some p else none
  | _ => none

def stopStep (s : State) (c : CallId) (call : Call) (answer : Answer) : Option State :=
  match call.pc with
  -- `stop_gateway`
  | .stopBackend => some (s.setPc c call (if answer = .no then .offRead else .stopProbe .user))
  | .offRead =>
    match s.file with
    | none => some (s.setPc c call .offAdmin)
    | some state => some (s.setPc c call (.offWrite state.switchedOff))
  | .offWrite state => some ((s.writeState state).setPc c call .offAdmin)
  | .offAdmin =>
    if s.adminAlive then some (s.setPc c call (.stopProbe .otherBackend)) else some (s.stops c call s.spawned)
  -- `stop_gateway_internal`
  | .stopAcquire =>
    if answer = .no then some (s.setPc c call .raised)
    else if s.lock = none then some ((s.take c).setPc c call (.stopProbe .internal))
    else none
  -- `caddy_stop`
  | .stopProbe f =>
    if s.adminAlive then some (s.setPc c call (.stopOwn f))
    else some (s.clearStale.setPc c call (.stopped f s.spawned))
  | .stopOwn f => some (s.setPc c call (if s.pidAlive then .stopPost f else .stopAdopt f))
  | .stopAdopt f =>
    match s.adoptable answer with
    | some p => some ({ s with pidFile := some p }.setPc c call (.stopPost f))
    | none => some (s.clearStale.setPc c call (.stopped f s.spawned))
  -- the process that is asked to stop may exit at any time from here on
  | .stopPost f => some (s.setPc c call (.stopWait f))
  | .stopWait f =>
    if s.adminAlive then
      if answer = .no then
        some ((if f = .internal then s.release else s).setPc c call (.returned false s.spawned))
      else none
    else some (s.clearStale.setPc c call (.stopped f s.spawned))
  | .stopped f n =>
    match f with
    | .user => some (s.setPc c call (.stopRead n))
    | .otherBackend => some (s.stops c call n)
    | .internal => some (s.release.setPc c call (.stopRead n))
  | .stopRead n =>
    match s.file with
    | none => some (s.stops c call n)
    | some state =>
      some (s.setPc c call (.stopWrite n (if call.kind = .stop then state.switchedOff else { state with pid := none })))
  | .stopWrite n state => some ((s.writeState state).stops c call n)
  | _ => none

/-- `start_gateway` up to where it has found a running master or none, and its callers. -/
def startStep (s : State) (c : CallId) (call : Call) (answer : Answer) : Option State :=
  match call.pc with
  -- `maybe_start_gateway`
  | .maybeBackend => some (s.setPc c call (if answer = .no then .done else .maybeRead))
  | .maybeRead =>
    match s.file with
    | none => some (s.setPc c call .done)
    | some state => some (s.setPc c call (if state.enabled then .requireBackend else .done))
  -- `run_gateway_foreground`
  | .polling =>
    if answer = .no then some (s.setPc c call .stopAcquire)
    else some (s.setPc c call (if s.adminAlive then .pollOwner else .requireBackend))
  | .pollOwner => some (s.setPc c call (if s.ownerOk answer then .polling else .requireBackend))
  -- `start_gateway`
  | .requireBackend => some (if answer = .no then s.put c (call.afterStart false) else s.setPc c call .acquire)
  | .acquire =>
    if answer = .no then some (s.put c (call.afterStart false))
    else if s.lock = none then some ((s.take c).setPc c call .probeAdmin)
    else none
  | .probeAdmin => some (s.setPc c call (if s.adminAlive then .probeOwn else .probeRunning))
  | .probeOwn => some (s.setPc c call (if s.adminAlive && s.ownerOk answer then .probeRunning else .adopt))
  | .adopt =>
    match s.adoptable answer with
    | some p => some ({ s with pidFile := some p }.setPc c call .probeRunning)
    | none => some (s.setPc c call .failRead)
  | .failRead =>
    let state := { s.file.getD (.wanted none) with enabled := true }
    some (s.setPc c call (.failWrite (state.recordStartFailure .occupied call.kind.source)))
  | .failWrite state => some ((s.writeState state).release.put c (call.afterStart false))
  | .probeRunning => some (s.setPc c call (if s.adminAlive then .probeOwner else .coldRead))
  | .probeOwner => some (s.setPc c call (if s.ownerOk answer then .runRead else .coldRead))
  | _ => none

/-- `start_gateway` with a running master. -/
def runningStep (s : State) (c : CallId) (call : Call) (answer : Answer) : Option State :=
  match call.pc with
  | .runRead =>
    match s.file with
    | none => some (s.setPc c call (.runWrite s.pidFile (.wanted s.pidFile)))
    | some state =>
      let pid := s.pidFile <|> state.pid
      if state.enabled then
        if pid ≠ none ∧ pid ≠ state.pid then some (s.setPc c call (.runWrite pid { state with pid := pid }))
        else if state.hasStartFailures then some (s.setPc c call (.runWrite pid state.clearStartFailures))
        else some (s.setPc c call (.reloadProbe (.running pid)))
      else some (s.setPc c call (.reloadProbe (.running pid)))
  | .runWrite pid state => some ((s.writeState state).setPc c call (.reloadProbe (.running pid)))
  | .verifyRunning pid =>
    match answer with
    | .reports reason => some (s.setPc c call (.tlsRead pid reason))
    | _ => some (s.release.put c (call.afterStart true))
  | .tlsRead pid reason =>
    let state := s.file.getD (.wanted pid)
    some (s.setPc c call (.tlsWrite (state.recordStartFailure (.tls reason) call.kind.source)))
  | .tlsWrite state => some ((s.writeState state).release.put c (call.afterStart false))
  | _ => none

/-- `start_gateway` without a running master, and `caddy_start`. -/
def coldStep (s : State) (c : CallId) (call : Call) (answer : Answer) : Option State :=
  match call.pc with
  | .coldRead => some (s.setPc c call (.coldWrite (.intent s.file)))
  | .coldWrite state => some ((s.writeState state).setPc c call (.spawn (.cold state)))
  | .spawn f =>
    if answer = .no then
      match f with
      | .cold intent => some (s.setPc c call (.coldFail intent))
      | .ensure e => some ((s.leave e).setPc c call (e.after false))
    else some (s.spawn.setPc c call (.await f))
  | .await f =>
    match answer, f with
    | .no, .cold intent => some (s.setPc c call (.coldFail intent))
    | .no, .ensure e => some ((s.leave e).setPc c call (e.after false))
    | _, _ =>
      -- without the pingback of `caddy start` the pid file has to name a live process too
      if s.adminAlive && (answer = .yes || s.pidAlive) then
        match f with
        | .cold _ => some (s.setPc c call .upReload)
        | .ensure e => some ((s.leave e).setPc c call (e.after true))
      else none
  | .coldFail intent =>
    let state := { intent with pid := none }.recordStartFailure .notStarted call.kind.source
    some ((s.writeState state).release.put c (call.afterStart false))
  -- a reload follows where a builtin server was stopped
  | .upReload => some (s.setPc c call (if answer = .no then .upWrite else .reloadProbe .started))
  | .upWrite => some ((s.writeState (.wanted s.pidFile)).setPc c call (.verifyUp (.wanted s.pidFile)))
  | .verifyUp state =>
    match answer with
    | .reports reason => some (s.setPc c call (.upFail (state.recordStartFailure (.tls reason) call.kind.source)))
    | _ => some (s.release.put c (call.afterStart true))
  | .upFail state => some ((s.writeState state).release.put c (call.afterStart false))
  | _ => none

/-- `reload_all` and `ensure_caddy_running`. -/
def reloadStep (s : State) (c : CallId) (call : Call) (answer : Answer) : Option State :=
  match call.pc with
  | .reloadProbe r =>
    if answer = .no then some (s.setPc c call (r.after false))
    else some (s.setPc c call (if s.adminAlive then .reloadOwner r else .ensureProbe (.reload r)))
  | .reloadOwner r => some (s.setPc c call (if s.adminAlive && s.ownerOk answer then .reload r else r.after false))
  | .reload r => some (s.setPc c call (if answer = .no then .ensureProbe (.heal r) else r.after true))
  | .reloadAgain r => some (s.setPc c call (r.after (answer ≠ .no)))
  | .ensureProbe e => some (s.setPc c call (if s.adminAlive then .ensureOwner e else .ensureAcquire e))
  | .ensureOwner e => some (s.setPc c call (e.after (s.adminAlive && s.ownerOk answer)))
  | .ensureAcquire e =>
    if e.nested then some (s.setPc c call (.ensureRecheck e))
    else if answer = .no then some (s.setPc c call (.ensureBusy e))
    else if s.lock = none then some ((s.take c).setPc c call (.ensureRecheck e))
    else none
  | .ensureRecheck e =>
    if s.adminAlive then some (s.setPc c call (.ensureRecheckOwner e))
    else some (s.clearStale.setPc c call (.spawn (.ensure e)))
  | .ensureRecheckOwner e => some ((s.leave e).setPc c call (e.after (s.adminAlive && s.ownerOk answer)))
  | .ensureBusy e => some (s.setPc c call (e.after (s.adminAlive && s.ownerOk answer)))
  | _ => none

def advance (s : State) (c : CallId) (call : Call) (answer : Answer) : Option State :=
  match call.pc with
  | .stopBackend | .offRead | .offWrite _ | .offAdmin | .stopAcquire | .stopProbe _ | .stopOwn _ | .stopAdopt _
  | .stopPost _ | .stopWait _ | .stopped _ _ | .stopRead _ | .stopWrite _ _ => stopStep s c call answer
  | .maybeBackend | .maybeRead | .polling | .pollOwner | .requireBackend | .acquire | .probeAdmin | .probeOwn
  | .adopt | .failRead | .failWrite _ | .probeRunning | .probeOwner => startStep s c call answer
  | .runRead | .runWrite _ _ | .verifyRunning _ | .tlsRead _ _ | .tlsWrite _ => runningStep s c call answer
  | .coldRead | .coldWrite _ | .spawn _ | .await _ | .coldFail _ | .upReload | .upWrite | .verifyUp _
  | .upFail _ => coldStep s c call answer
  | .reloadProbe _ | .reloadOwner _ | .reload _ | .reloadAgain _ | .ensureProbe _ | .ensureOwner _
  | .ensureAcquire _ | .ensureRecheck _ | .ensureRecheckOwner _ | .ensureBusy _ => reloadStep s c call answer
  | .done | .returned _ _ | .raised => none

/-! ## All processes -/

inductive Action
  | begin (c : CallId) (kind : Kind)
  | advance (c : CallId) (answer : Answer)
  /-- The process of a call dies, and the kernel releases its lock. -/
  | abandon (c : CallId)
  /-- A master begins to answer on the admin address. -/
  | listens (p : Pid)
  /-- A master writes `run/caddy.pid`. -/
  | writesPid (p : Pid)
  /-- A master exits, and an exit in good order removes `run/caddy.pid`, whoever it names. -/
  | exits (p : Pid) (removes : Bool)
  | foreign (listens : Bool)
  | stranger (p : Pid) (alive : Bool)

def step (s : State) : Action → Option State
  | .begin c kind =>
    if s.calls c = none then
      some ({ s with off := s.off && !kind.turnsOn }.put c kind.call)
    else none
  | .advance c answer =>
    match s.calls c with
    | none => none
    | some call => advance s c call answer
  | .abandon c =>
    match s.calls c with
    | none => none
    | some call =>
      if call.pc.ended then none
      else some ((if s.lock = some c then s.release else s).setPc c call .raised)
  | .listens p =>
    some { s with masters := s.masters.map fun m => if m.pid = p then { m with listening := true } else m }
  | .writesPid p => if s.masters.any fun m => m.pid = p then some { s with pidFile := some p } else none
  | .exits p removes =>
    some { s with
      masters := s.masters.filter fun m => m.pid ≠ p
      pidFile := if removes then none else s.pidFile }
  | .foreign listens => some { s with foreign := listens }
  | .stranger p alive => some { s with stranger := fun q => if q = p then alive else s.stranger q }

end LocalWebAccess.GatewayService
