import LocalWebAccess.AdminPorts

/-!
# Control of Caddy masters

`StaticGateway` reaches a Caddy master through the admin address of the workspace: `caddy reload`
loads a configuration into whatever process listens there, and `POST /stop` stops it. Whether that
process is a master of this workspace is inferred from `run/caddy.pid`, from the user and the
command line of processes, and on the port that all masters used once from who listens there.
-/

namespace LocalWebAccess.CaddyControl
open AdminPorts (Port candidatePorts)

abbrev Pid := ℕ

def legacyAdminPort : Port := 2019

/-- A workspace and the user that runs its services. `resolved` is its root without symbolic links
and `byte` the first byte of the hash of that path. -/
structure Workspace where
  root : List Char
  resolved : List Char
  byte : ℕ
  serviceUser : String

/-- `main_config_path`, `_bootstrap_config_path` and `caddy_pid_path`. -/
def configPaths (root : List Char) : List (List Char) :=
  ["/static-gateway/Caddyfile", "/static-gateway/.caddy-bootstrap", "/run/caddy.pid"].map fun path => root ++ path.toList

/-- A process of the host. `user` and `cmdline` are what can be read of it, and `own` tells whether
it is a Caddy master that was started for this workspace. -/
structure Process where
  user : Option String
  cmdline : List Char
  own : Bool

inductive Request
  | load
  | stop
  deriving DecidableEq

/-- A request that was sent, and whether the process that got it was a master of the workspace. -/
structure Sent where
  request : Request
  target : Pid
  own : Bool
  deriving DecidableEq

/-- What an external command does: whether it works at all, and for `caddy start` the process that
it leaves. -/
structure Outcome where
  works : Bool
  pid : Pid
  binds : Bool
  answers : Bool
  writesPid : Bool
  confirmed : Bool
  deriving Inhabited

/-- `listener` is the process that a connection to a port of `127.0.0.1` reaches and `answers` whether
it answers in time. -/
structure Host where
  procs : Pid → Option Process
  listener : Port → Option Pid
  answers : Port → Bool
  lsof : Bool
  pidFile : Option Pid
  adminPort : Option Port
  caddy : Bool
  mainExists : Bool
  outcomes : List Outcome
  sent : List Sent

namespace Host

/-- `needle in text` -/
def contains (needle : List Char) : List Char → Bool
  | [] => needle.isEmpty
  | c :: text => needle.isPrefixOf (c :: text) || contains needle text

/-- The outcome of the next external command. -/
def next (h : Host) : Outcome × Host := (h.outcomes.headD default, { h with outcomes := h.outcomes.tail })

def isOwn (h : Host) (p : Pid) : Bool := (h.procs p).any fun process => process.own

def cmdline (h : Host) (p : Pid) : List Char := ((h.procs p).map Process.cmdline).getD []

/-- `_pid_alive` -/
def alive (h : Host) (p : Pid) : Bool := 0 < p && (h.procs p).isSome

/-- `admin_address` -/
def adminAddress (h : Host) : Port := h.adminPort.getD legacyAdminPort

/-- `_url_reachable` -/
def reachable (h : Host) (port : Port) : Bool := h.answers port && (h.listener port).isSome

/-- `_admin_alive` -/
def adminAlive (h : Host) : Bool := h.reachable h.adminAddress

/-- `_workspace_caddy_pid_alive` -/
def pidAlive (h : Host) : Bool := h.pidFile.any fun p => h.alive p

/-- `_admin_holder_pid` -/
def holder (h : Host) (port : Port) : Option Pid := if h.lsof then h.listener port else none

/-- `_clear_stale_caddy_pid` -/
def clearStale (h : Host) : Host := if h.pidAlive then h else { h with pidFile := none }

def send (h : Host) (request : Request) (p : Pid) : Host := { h with sent := ⟨request, p, h.isOwn p⟩ :: h.sent }

def exits (h : Host) (p : Pid) : Host :=
  { h with
    procs := fun q => if q = p then none else h.procs q
    listener := fun port => if h.listener port = some p then none else h.listener port }

end Host

variable (w : Workspace)

/-- A command line names a configuration or the pid file of the workspace. -/
def recognises (cmdline : List Char) : Bool :=
  cmdline ≠ [] && (configPaths w.root ++ configPaths w.resolved).any fun path => Host.contains path cmdline

/-- `inspect_caddy_owner`, where the admin address answers: the process of `run/caddy.pid` is alive and
runs as the service user. -/
def ownerOk (h : Host) : Bool :=
  h.pidFile.any fun p => h.alive p && (h.procs p).any fun process => process.user = some w.serviceUser

/-- The process that `adopt_orphan_master` takes for a master of the workspace. -/
def adoptable (h : Host) : Option Pid :=
  if h.adminAlive && !h.pidAlive then
    (h.holder h.adminAddress).filter fun p =>
      h.alive p && ((h.procs p).any fun process => process.user = some w.serviceUser) && recognises w (h.cmdline p)
  else none

def adoptOrphanMaster (h : Host) : Bool × Host :=
  match adoptable w h with
  | some p => (true, { h with pidFile := some p })
  | none => (false, h)

def ensureAdminPort (h : Host) : Option Port × Host :=
  match h.adminPort with
  | some port => (some port, h)
  | none =>
    match (candidatePorts w.byte).find? fun port => h.listener port = none with
    | some port => (some port, { h with adminPort := some port })
    | none => (none, h)

/-! ## Stopping -/

/-- `_post_admin_stop`: whether the address has fallen silent. -/
def postAdminStop (port : Port) (h : Host) : Bool × Host :=
  match h.listener port with
  | none => (true, h)
  | some p =>
    let (outcome, asked) := (h.send .stop p).next
    let left := if outcome.works then asked.exits p else asked
    (!left.reachable port, left)

/-- `_legacy_master_is_ours` -/
def legacyMasterIsOurs (h : Host) : Bool :=
  let holder := h.holder legacyAdminPort
  (h.pidFile.any fun p => holder = some p && h.alive p && Host.contains "caddy".toList (h.cmdline p) &&
    Host.contains w.root (h.cmdline p)) ||
  holder.any fun p => h.alive p && recognises w (h.cmdline p)

/-- `_stop_legacy_master_for_migration`, which `caddy_stop` does likewise. -/
def stopLegacyMaster (h : Host) : Host :=
  if h.reachable legacyAdminPort && legacyMasterIsOurs w h then
    match postAdminStop legacyAdminPort h with
    | (true, h) => h.clearStale
    | (false, h) => h
  else h

/-- The process on the admin address is taken for the workspace's and asked to stop. -/
def stopOwn (h : Host) : Bool × Host :=
  match postAdminStop h.adminAddress h with
  | (true, h) => (true, h.clearStale)
  | (false, h) => (false, h)

def stopMaster (h : Host) : Bool × Host :=
  if !h.adminAlive then (true, h.clearStale)
  else if h.pidAlive then stopOwn h
  else
    match adoptOrphanMaster w h with
    | (true, h) => stopOwn h
    | (false, h) => (true, h.clearStale)

def stopMigrated (h : Host) : Host :=
  if h.adminPort ≠ none ∧ h.adminPort ≠ some legacyAdminPort then stopLegacyMaster w h else h

def caddyStop (h : Host) : Bool × Host :=
  let (stopped, h) := stopMaster w h
  (stopped, stopMigrated w h)

/-! ## Starting -/

/-- `caddy start` leaves a process, which binds the admin address where nobody else does. -/
def launch (outcome : Outcome) (h : Host) : Host :=
  let binds := outcome.binds && h.listener h.adminAddress = none
  { h with
    procs := fun q => if q = outcome.pid then some ⟨some w.serviceUser, (configPaths w.root).flatten,
      true⟩ else h.procs q
    listener := fun port => if binds && port = h.adminAddress then some outcome.pid else h.listener port
    answers := fun port => if binds && port = h.adminAddress then outcome.answers else h.answers port
    pidFile := if outcome.writesPid then some outcome.pid else h.pidFile }

/-- `caddy_start`, which raises where no admin port is left. -/
def caddyStart (h : Host) : Option Bool × Host :=
  match ensureAdminPort w h with
  | (none, h) => (none, h)
  | (some port, h) =>
    let migrated := if port ≠ legacyAdminPort then stopLegacyMaster w h else h
    let (outcome, h) := migrated.next
    if outcome.works && (h.procs outcome.pid).isNone then
      let started := launch w outcome h
      (some (started.adminAlive && (outcome.confirmed || started.pidAlive)), started)
    else (some false, h)

/-- `ensure_caddy_running` -/
def ensureCaddyRunning (h : Host) : Option Bool × Host :=
  if h.adminAlive then (some (ownerOk w h), h) else caddyStart w h.clearStale

/-! ## Reloading -/

/-- `_reload_once` -/
def reloadOnce (h : Host) : Bool × Host :=
  match h.listener h.adminAddress with
  | none => (false, h)
  | some p =>
    let (outcome, h) := (h.send .load p).next
    (outcome.works, h)

/-- `_reload_with_self_heal` -/
def reloadWithSelfHeal (h : Host) : Option Bool × Host :=
  match reloadOnce h with
  | (true, h) => (some true, h)
  | (false, h) =>
    match ensureCaddyRunning w h with
    | (some true, h) => ((reloadOnce h).1, (reloadOnce h).2)
    | (result, h) => (result, h)

/-- The main Caddyfile is written and pushed, and written back where that fails. -/
def pushMainConfig (h : Host) : Bool × Host :=
  match reloadWithSelfHeal w { h with mainExists := true } with
  | (some true, pushed) => (true, pushed)
  | (some false, failed) => (false, if h.mainExists then (reloadOnce failed).2 else { failed with mainExists := false })
  | (none, failed) => (false, failed)

/-- `reload_all`, and whether it returns. -/
def reloadAll (h : Host) : Bool × Host :=
  if !h.caddy then (true, h)
  else
    match ensureAdminPort w h with
    | (none, h) => (false, h)
    | (some _, h) =>
      let (access, h) := h.next
      if !access.works then (false, h)
      else if h.adminAlive then if ownerOk w h then pushMainConfig w h else (false, h)
      else
        match ensureCaddyRunning w h with
        | (none, h) => (false, h)
        | (some _, h) => pushMainConfig w h

/-- `_sync_main_config` -/
def syncMainConfig (h : Host) : Host :=
  if !h.caddy then h
  else
    match ensureAdminPort w h with
    | (none, h) => { h with mainExists := true }
    | (some _, h) =>
      let h := { h with mainExists := true }
      if h.adminAlive && !ownerOk w h then h else (reloadWithSelfHeal w h).2

/-! ## The gateway service -/

/-- `start_gateway` once the admin address is silent or the workspace's. -/
def startRest (h : Host) : Host :=
  if h.adminAlive && ownerOk w h then (reloadAll w { h with mainExists := true }).2
  else
    match caddyStart w { h with mainExists := true } with
    | (some true, h) =>
      -- a reload follows where a builtin server was stopped
      let (stoppedBuiltin, h) := h.next
      if stoppedBuiltin.works then (reloadAll w h).2 else h
    | (_, h) => h

def startGateway (h : Host) : Host :=
  if !h.caddy then h
  else if h.adminAlive && !ownerOk w h then
    match adoptOrphanMaster w h with
    | (true, h) => startRest w h
    | (false, h) => h
  else startRest w h

def stopGateway (h : Host) : Host := if h.caddy || h.adminAlive then (caddyStop w h).2 else h

/-! ## Sequences of operations -/

inductive Operation
  | reloadAll
  | syncMainConfig
  | caddyStop
  | ensureCaddyRunning
  | startGateway
  | stopGateway

def Operation.perform (h : Host) : Operation → Host
  | .reloadAll => (CaddyControl.reloadAll w h).2
  | .syncMainConfig => CaddyControl.syncMainConfig w h
  | .caddyStop => (CaddyControl.caddyStop w h).2
  | .ensureCaddyRunning => (CaddyControl.ensureCaddyRunning w h).2
  | .startGateway => CaddyControl.startGateway w h
  | .stopGateway => CaddyControl.stopGateway w h

/-- An operation, or whatever happens on the host in between. -/
inductive Action
  | perform (operation : Operation)
  | becomes (h : Host)

def step (h : Host) : Action → Option Host
  | .perform operation => some (operation.perform w h)
  | .becomes later => some { later with sent := h.sent }

end LocalWebAccess.CaddyControl
