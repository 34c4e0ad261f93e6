import LocalWebAccess.GuardedRuns
import LocalWebAccess.Models

/-!
# Switching the gateway backend

Calls of `switch_gateway` interleave. A call plans on the `Config` object of its caller,
waits for the switch lock, and then works through the transaction step by step; every
step that touches a file, a row or a process may raise. Several callers may share one
`Config` object, as the requests to the manager do.

The fragments, the other settings and the rest of a manifest are numbers that stand for
their contents. Operations on instances are left out, so is the gateway's main file.
-/
namespace LocalWebAccess.GatewaySwitch
open GuardedRuns

abbrev CallId := ℕ
abbrev ConfigId := ℕ
abbrev InstanceId := ℕ
abbrev Pid := ℕ

inductive Backend where
  | caddy
  | builtin
  deriving DecidableEq, Repr

/-- A text file: what it is read as, and whether it has carriage returns, which `read_text` turns into newlines. -/
structure Document (α : Type) where
  content : α
  carriage : Bool
  deriving DecidableEq, Repr

namespace Document

variable {α : Type}

/-- What `write_text` leaves of a text that was read. -/
def reread (d : Document α) : Document α := { d with carriage := false }

def written (content : α) : Document α := ⟨content, false⟩

end Document

/-- `Config`; `rest` is all other settings. -/
structure Config where
  staticGateway : Backend
  rest : ℕ
  deriving DecidableEq, Repr

/-- `run/gateway.json`. -/
structure GatewayState where
  enabled : Bool
  pid : Option Pid
  startedAt : ℕ
  failures : ℕ
  deriving DecidableEq, Repr

/-- `manifest.static` and a row of `static_sites`, which have the same fields; `routeHost` only in name mode. -/
structure StaticConfig where
  gateway : Backend
  hostPort : Option ℕ
  routeHost : Option ℕ
  rest : ℕ
  deriving DecidableEq, Repr

/-- `static` is there in a static instance only; `rest` is everything else. -/
structure Manifest where
  static : Option StaticConfig
  rest : ℕ
  deriving DecidableEq, Repr

/-- All that a switch reads and writes. A manifest file without a manifest is one that cannot be loaded. -/
structure Shared where
  config : ConfigId → Config
  yml : Option (Document Config)
  gatewayJson : Option (Document GatewayState)
  sites : InstanceId → Option (Document ℕ)
  aliases : InstanceId → Option (Document ℕ)
  instances : List InstanceId
  runtime : InstanceId → Runtime
  running : InstanceId → Bool
  manifests : InstanceId → Option (Document (Option Manifest))
  staticSites : InstanceId → Option StaticConfig
  caddy : Option Pid
  builtin : InstanceId → Bool
  caddyInstalled : Bool

structure Plan where
  fromBackend : Backend
  toBackend : Backend
  noop : Bool
  deriving DecidableEq, Repr

structure GatewaySwitchSnapshot where
  yml : Option (Document Config)
  gatewayJson : Option (Document GatewayState)
  sites : InstanceId → Option (Document ℕ)
  aliases : InstanceId → Option (Document ℕ)
  manifests : InstanceId → Option (Document (Option Manifest))
  staticSites : InstanceId → Option StaticConfig

namespace Shared

/-- `InstanceManifest.load` where the file is there and can be loaded. -/
def load (s : Shared) (i : InstanceId) : Option Manifest := (s.manifests i).bind (·.content)

def staticOf (s : Shared) (i : InstanceId) : Option StaticConfig := (s.load i).bind (·.static)

/-- `_iter_static_instances`. -/
def iterStaticInstances (s : Shared) : List (InstanceId × Manifest × StaticConfig) :=
  s.instances.filterMap fun i => (s.load i).bind fun m => m.static.map fun static => (i, m, static)

/-- `_unloadable_running_static_manifests` is not empty. -/
def unloadable (s : Shared) : Bool :=
  s.instances.any fun i =>
    s.runtime i = .sharedStatic && s.running i && (s.manifests i).any (fun d => d.content.isNone)

/-- `plan_switch`, where it does not raise. -/
def planSwitch (s : Shared) (c : ConfigId) (target : Backend) : Option Plan :=
  let source := (s.config c).staticGateway
  if source = target then some ⟨source, target, true⟩
  else if target = .caddy ∧ s.caddyInstalled = false then none
  else if target = .builtin ∧ s.unloadable = true then none
  else some ⟨source, target, false⟩

/-- `_take_snapshot`. -/
def takeSnapshot (s : Shared) : GatewaySwitchSnapshot where
  yml := s.yml.map Document.reread
  gatewayJson := s.gatewayJson.map Document.reread
  sites := fun i => (s.sites i).map Document.reread
  aliases := fun i => (s.aliases i).map Document.reread
  manifests := fun i =>
    if s.iterStaticInstances.any (·.1 = i) then (s.manifests i).map Document.reread else none
  staticSites := fun i => if s.iterStaticInstances.any (·.1 = i) then s.staticSites i else none

def save (s : Shared) (i : InstanceId) (m : Manifest) : Shared :=
  { s with manifests := Function.update s.manifests i (some (.written (some m))) }

/-- `manifest.touch` and a change of anything but the static configuration. -/
def stamp (s : Shared) (i : InstanceId) (rest : ℕ) : Shared :=
  match s.load i with
  | some m => s.save i { m with rest := rest }
  | none => s

/-- `refresh_network_entries`: every instance with a host port is saved, whatever its addresses were. -/
def refresh (s : Shared) (rest : ℕ) : List InstanceId → Shared
  | [] => s
  | i :: more =>
    match s.staticOf i with
    | some static => if static.hostPort.isSome then (s.stamp i rest).refresh rest more else s.refresh rest more
    | none => s.refresh rest more

end Shared

/-- Where the call in the lock stands. From `restoringYml` on it is in `_rollback`. -/
inductive Pc where
  | snapshotting
  | backing
  | stopping
  | assigning
  | saving
  | loading
  | enabling (todo : List (InstanceId × Manifest × StaticConfig))
  | starting
  | rebuilding (todo : List (InstanceId × Manifest × StaticConfig)) (rebuilt : List InstanceId)
  | reloading (rebuilt : List InstanceId)
  | verifying (rebuilt : List InstanceId)
  | syncing (todo : List (InstanceId × Manifest × StaticConfig))
  | upserting (i : InstanceId) (static : StaticConfig) (todo : List (InstanceId × Manifest × StaticConfig))
  | passing
  | restoringYml
  | restoringJson
  | restoringSites
  | restoringAliases
  | unlinking
  | restoringManifests
  | restoringRows
  | rereading
  | reviving
  | reEnabling (todo : List (InstanceId × Manifest × StaticConfig))
  | reviewing
  | finished (ok degraded : Bool)

structure Job where
  config : ConfigId
  plan : Plan
  snap : GatewaySwitchSnapshot
  pc : Pc

/-- What a step meets. `ok` says that it does not raise; `half` that an effect took place before the exception;
`reached` are the files that a loop got to before it, or failed at silently; `number` is a new pid or content. -/
structure Observed where
  ok : Bool
  half : Bool
  lan : Bool
  reached : List InstanceId
  number : ℕ
  deriving DecidableEq, Repr

namespace Job

def goto (j : Job) (pc : Pc) : Job := { j with pc := pc }

/-- The call raises in its transaction. -/
def raised (j : Job) : Job := j.goto .restoringYml

/-- The rollback raises: the call ends degraded. -/
def degrades (j : Job) : Job := j.goto (.finished false true)

/-- The lock is taken; no snapshot is taken yet. -/
def start (c : ConfigId) (plan : Plan) : Job where
  config := c
  plan := plan
  snap := ⟨none, none, fun _ => none, fun _ => none, fun _ => none, fun _ => none⟩
  pc := .snapshotting

end Job

namespace Shared

/-- `stop_gateway`, which writes the state file unless the master could not be stopped. -/
def stopGateway (s : Shared) : Shared :=
  { s with
    caddy := none
    gatewayJson := s.gatewayJson.map fun d => .written { d.content with enabled := false, pid := none, failures := 0 } }

/-- The state file that `start_gateway` leaves where the master is online already. -/
def refreshedState (pid : Pid) (now : ℕ) : Option (Document GatewayState) → Option (Document GatewayState)
  | none => some (.written ⟨true, some pid, now, 0⟩)
  | some d =>
    if d.content.enabled = false then some d
    else if d.content.pid ≠ some pid then some (.written { d.content with pid := some pid, startedAt := now })
    else if d.content.failures ≠ 0 then some (.written { d.content with failures := 0 })
    else some d

/-- `start_gateway` stops what is left of the builtin servers and starts a master unless one is online. -/
def startGateway (s : Shared) (o : Observed) : Shared :=
  match s.caddy with
  | some pid =>
    { s with builtin := fun _ => false, gatewayJson := refreshedState pid o.number s.gatewayJson }
  | none =>
    { s with
      builtin := fun _ => false
      caddy := some o.number
      gatewayJson := some (.written ⟨true, some o.number, o.number, 0⟩) }

/-- `start_gateway` raises: before it does anything, with a failure recorded, or with the master online. -/
def startGatewayFails (s : Shared) (o : Observed) : Shared :=
  if o.lan then s
  else if o.half then s.startGateway o
  else
    { s with
      builtin := fun i => s.builtin i && i ∈ o.reached
      gatewayJson := s.gatewayJson.map fun d => .written { d.content with failures := d.content.failures + 1 } }

/-- One turn of the loop of `_enable_running_builtin`. -/
def enableBuiltin (s : Shared) (i : InstanceId) (static : StaticConfig) (o : Observed) : Shared :=
  let t := { s with
    sites := Function.update s.sites i (some (.written o.number))
    builtin := Function.update s.builtin i true }
  if static.routeHost.isSome && i ∉ o.reached then t.stamp i o.number else t

/-- `gateway.enable` raises and brings the earlier fragment back, and perhaps the earlier server. -/
def enableFails (s : Shared) (i : InstanceId) (o : Observed) : Shared :=
  { s with
    sites := Function.update s.sites i (if o.half then (s.sites i).map Document.reread else some (.written o.number))
    builtin := Function.update s.builtin i o.lan }

/-- The files of a snapshot written over those that are there. -/
def overlay {α : Type} (snap files : InstanceId → Option α) (reached : InstanceId → Prop) [DecidablePred reached] :
    InstanceId → Option α :=
  fun i => if reached i then (snap i).or (files i) else files i

/-- `conf.unlink` of the fragments that are not in the snapshot; an `OSError` is suppressed. -/
def unlink {α : Type} (snap files : InstanceId → Option α) (left : List InstanceId) : InstanceId → Option α :=
  fun i => if (snap i).isNone ∧ i ∉ left then none else files i

end Shared

/-- A running site with a port is enabled again. -/
def needsSite (s : Shared) (i : InstanceId) (static : StaticConfig) : Bool := s.running i && static.hostPort.isSome

/-- One step of `_switch_gateway_locked`, up to its end. -/
def body (sj : Shared × Job) (o : Observed) : Option (Shared × Job) :=
  let (s, j) := sj
  let target := j.plan.toBackend
  match j.pc with
  | .snapshotting =>
    some (s, if o.ok then { j with snap := s.takeSnapshot }.goto .backing else j.goto (.finished false false))
  | .backing =>
    some (s, if o.ok then j.goto (if target = .builtin then .stopping else .assigning)
      else j.goto (.finished false false))
  | .stopping =>
    if o.ok then some (s.stopGateway, j.goto .assigning)
    else
      -- the master may be gone although its state could not be written
      some (if o.half then { s.stopGateway with gatewayJson :=
        if o.lan then s.stopGateway.gatewayJson else s.gatewayJson }
        else s, j.raised)
  | .assigning =>
    some ({ s with config := Function.update s.config j.config { s.config j.config with staticGateway := target } },
      j.goto .saving)
  | .saving =>
    let saved := { s with yml := some (.written (s.config j.config)) }
    if o.ok then some (saved, j.goto .loading) else some (if o.half then saved else s, j.raised)
  | .loading =>
    some (s, if o.ok then j.goto (if target = .builtin then .enabling s.iterStaticInstances else .starting)
      else j.raised)
  | .enabling [] => some (s, j.goto (.syncing s.iterStaticInstances))
  | .enabling ((i, _, static) :: todo) =>
    if needsSite s i static then
      if o.ok then some (s.enableBuiltin i static o, j.goto (.enabling todo)) else some (s.enableFails i o, j.raised)
    else some (s, j.goto (.enabling todo))
  | .starting =>
    if o.ok then some (s.startGateway o, j.goto (.rebuilding (s.startGateway o).iterStaticInstances []))
    else some (s.startGatewayFails o, j.raised)
  | .rebuilding [] rebuilt =>
    some (s, j.goto (if rebuilt = [] then .syncing s.iterStaticInstances else .reloading rebuilt))
  | .rebuilding ((i, _, static) :: todo) rebuilt =>
    if static.routeHost.isSome ∧ static.hostPort.isSome then
      if o.ok then
        some ({ s with aliases := Function.update s.aliases i (some (.written o.number)) },
          j.goto (.rebuilding todo (rebuilt ++ [i])))
      else some (s, j.raised)
    else some (s, j.goto (.rebuilding todo rebuilt))
  | .reloading rebuilt => some (s, if o.ok then j.goto (.verifying rebuilt) else j.raised)
  | .verifying [] => some (s, j.goto (.syncing s.iterStaticInstances))
  | .verifying (i :: rebuilt) => some (if o.ok then s.stamp i o.number else s, j.goto (.verifying rebuilt))
  | .syncing [] => some (s, j.goto .passing)
  | .syncing ((i, m, static) :: todo) =>
    if static.gateway = target then some (s, j.goto (.upserting i static todo))
    else
      let synced := { static with gateway := target }
      if o.ok then
        some (s.save i { m with static := some synced, rest := o.number }, j.goto (.upserting i synced todo))
      else some (s, j.raised)
  | .upserting i static todo =>
    if o.ok then
      some ({ s with staticSites := Function.update s.staticSites i (some static) }, j.goto (.syncing todo))
    else some (s, j.raised)
  | .passing =>
    some (if o.lan then s.refresh o.number (s.instances.filter (· ∉ o.reached)) else s, j.goto (.finished true false))
  | .restoringYml =>
    if o.ok then some ({ s with yml := j.snap.yml.or s.yml }, j.goto .restoringJson)
    else some (if o.half then { s with yml := j.snap.yml.or s.yml } else s, j.degrades)
  | .restoringJson =>
    if o.ok then some ({ s with gatewayJson := j.snap.gatewayJson.or s.gatewayJson }, j.goto .restoringSites)
    else some (if o.half then { s with gatewayJson := j.snap.gatewayJson.or s.gatewayJson } else s, j.degrades)
  | .restoringSites =>
    some ({ s with sites := Shared.overlay j.snap.sites s.sites (fun i => o.ok = true ∨ i ∈ o.reached) },
      if o.ok then j.goto .restoringAliases else j.degrades)
  | .restoringAliases =>
    some ({ s with aliases := Shared.overlay j.snap.aliases s.aliases (fun i => o.ok = true ∨ i ∈ o.reached) },
      if o.ok then j.goto .unlinking else j.degrades)
  | .unlinking =>
    some ({ s with
      sites := Shared.unlink j.snap.sites s.sites o.reached
      aliases := Shared.unlink j.snap.aliases s.aliases o.reached }, j.goto .restoringManifests)
  | .restoringManifests =>
    some ({ s with
      manifests := Shared.overlay j.snap.manifests s.manifests (fun i => o.ok = true ∨ i ∈ o.reached) },
      if o.ok then j.goto .restoringRows else j.degrades)
  | .restoringRows =>
    some ({ s with
      staticSites := Shared.overlay j.snap.staticSites s.staticSites (fun i => o.ok = true ∨ i ∈ o.reached) },
      if o.ok then j.goto .rereading else j.degrades)
  | .rereading =>
    -- an exception of `load_config` here leaves `_rollback`, so nobody marks the result as degraded
    some (s, if o.ok then j.goto .reviving else j.goto (.finished false false))
  | .reviving =>
    match j.plan.fromBackend with
    | .caddy =>
      if o.ok then some (s.startGateway o, j.goto .reviewing) else some (s.startGatewayFails o, j.degrades)
    | .builtin =>
      -- the answer of `stop_gateway` is not looked at
      if o.ok then
        let t := if o.half then s else s.stopGateway
        some (t, j.goto (.reEnabling t.iterStaticInstances))
      else some (s, j.degrades)
  | .reEnabling [] => some (s, j.goto .reviewing)
  | .reEnabling ((i, _, static) :: todo) =>
    if needsSite s i static then
      if o.ok then some (s.enableBuiltin i static o, j.goto (.reEnabling todo)) else some
        (s.enableFails i o, j.degrades)
    else some (s, j.goto (.reEnabling todo))
  | .reviewing =>
    some (if o.lan then s.refresh o.number (s.instances.filter (· ∉ o.reached)) else s,
      if o.ok then j.goto (.finished false false) else j.degrades)
  | .finished _ _ => none

/-- How a call has ended, with the state in which it got the lock, or gave up, and the state in which it ended. -/
structure Outcome where
  config : ConfigId
  target : Backend
  ok : Bool
  degraded : Bool
  noop : Bool
  before : Shared
  after : Shared

inductive Call where
  | idle
  | waiting (config : ConfigId) (plan : Plan)
  | locked (job : Job) (before : Shared)
  | ended (o : Outcome)

structure State where
  shared : Shared
  lock : Option CallId
  call : CallId → Call

namespace State

/-- No call has begun. -/
def start (shared : Shared) : State := ⟨shared, none, fun _ => .idle⟩

def become (s : State) (c : CallId) (call : Call) : State := { s with call := Function.update s.call c call }

/-- The call ends without the lock. -/
def refuse (s : State) (c : CallId) (config : ConfigId) (target : Backend) (ok noop : Bool) : State :=
  s.become c (.ended ⟨config, target, ok, false, noop, s.shared, s.shared⟩)

end State

inductive Action where
  | called (c : CallId) (config : ConfigId) (target : Backend) (dryRun : Bool)
  | acquires (c : CallId)
  | timesOut (c : CallId)
  | proceeds (c : CallId) (o : Observed)
  deriving DecidableEq, Repr

/-- `switch_gateway`. A call of a job that has ended gives the lock back. -/
def step (s : State) : Action → Option State
  | .called c config target dryRun =>
    match s.call c with
    | .idle =>
      match s.shared.planSwitch config target with
      | none => some (s.refuse c config target false false)
      | some plan =>
        if plan.noop then some (s.refuse c config target true true)
        else if dryRun then some (s.refuse c config target true false)
        else some (s.become c (.waiting config plan))
    | _ => none
  | .acquires c =>
    match s.call c, s.lock with
    | .waiting config plan, none =>
      some ({ s with lock := some c }.become c (.locked (.start config plan) s.shared))
    | _, _ => none
  | .timesOut c =>
    match s.call c with
    | .waiting config plan => some (s.refuse c config plan.toBackend false false)
    | _ => none
  | .proceeds c o =>
    match s.call c with
    | .locked job before =>
      match body (s.shared, job) o with
      | none => none
      | some (shared, job') =>
        match job'.pc with
        | .finished ok degraded =>
          some ({ s with shared := shared, lock := none }.become c
            (.ended ⟨job.config, job.plan.toBackend, ok, degraded, false, before, shared⟩))
        | _ => some ({ s with shared := shared }.become c (.locked job' before))
    | _ => none

end LocalWebAccess.GatewaySwitch
