import LocalWebAccess.GuardedRuns
import LocalWebAccess.Models

/-!
# The host ports of the instances

The port of an instance is recorded in the `ports` table, in the row of its sub-table,
in its manifest and in the compose file that was rendered last. The calls on different
instances interleave; of one instance one call at a time is in flight, since the callers
hold its lock. A deployment takes its port from the table, while a light start and a
recreate use the one of the compose file.

Whether Docker or the gateway refuse a port that is in use is not modelled: a command
may succeed on any port. The candidates of the fallback chain, the gateway backends and
everything of a deployment that touches neither a port nor a container are left out.
-/
namespace LocalWebAccess.HostPorts
open GuardedRuns

abbrev InstanceId := ℕ
abbrev Port := ℕ

/-- What `_snapshot_attempt` keeps of the ports and the files. -/
structure Snapshot where
  manifestPort : Option Port
  compose : Option Port
  ports : Port → Bool

/-- `_ContainerDeploy`. -/
structure Deploy where
  txn : Bool
  port : Port
  fresh : Bool
  attempt : Option Snapshot

/-- Who asks for a port: `_ensure_container_port` or `_ensure_static_port`. -/
inductive Caller where
  | container (txn : Bool) (attempt : Option Snapshot)
  | site (attempt : Option Snapshot)

/-- Where the call of an instance stands. -/
inductive Pc where
  | preparing (attempt : Option Snapshot)
  | ensuring (c : Caller)
  | dropping (c : Caller)
  | allocating (c : Caller)
  | rendering (d : Deploy)
  | building (d : Deploy)
  | swapping (d : Deploy)
  | upping (d : Deploy)
  | observing (d : Deploy)
  | committing (d : Deploy)
  | verifying (d : Deploy)
  | stopping (d : Deploy)
  | releasing (d : Deploy)
  | failing (d : Deploy) (upCompleted : Bool)
  | downing (d : Deploy)
  | compensating (d : Deploy)
  | reviving (d : Deploy)
  | rolling (snapshot : Snapshot)
  | rollingPorts (snapshot : Snapshot)
  | restoring (snapshot : Snapshot)
  | lightStarting
  | lightUpping
  | lightObserving (up : Bool)
  | recreating
  | reUpping
  | reVerifying
  | reDowning
  | reReviving
  | enabling (port : Port) (fresh : Bool) (attempt : Option Snapshot)
  | enabled (port : Port) (attempt : Option Snapshot)
  | disabling (port : Port) (fresh : Bool) (attempt : Option Snapshot)
  | removing
  | deleting
  | purging

/-- An instance with its files and its container, whose flag says that it runs. `deployed` is a container id in the
manifest; `released` marks the ports that the instance released and did not allocate again. -/
structure Inst where
  runtime : Runtime
  registered : Bool
  manifestPort : Option Port
  rowPort : Option Port
  compose : Option Port
  prev : Option Port
  deployed : Bool
  container : Option (Port × Bool)
  site : Option Port
  released : Port → Bool
  pc : Option Pc

namespace Inst

def running (x : Inst) : Bool := x.container.any (·.2)

/-- The instance serves on the port. -/
def Up (x : Inst) (p : Port) : Prop := x.container = some (p, true) ∨ x.site = some p

def snapshot (x : Inst) (owned : Port → Bool) : Snapshot := ⟨x.manifestPort, x.compose, owned⟩

/-- `registry.upsert_from_manifest`. -/
def upsert (x : Inst) : Inst := { x with rowPort := x.manifestPort, registered := true }

/-- `docker compose up` on the port of the compose file. -/
def up (x : Inst) : Inst := { x with container := x.compose.map (fun p => (p, true)) }

/-- A failed `up` may leave a container that does not run. -/
def upFails (x : Inst) (left : Bool) : Inst :=
  if left then { x with container := x.compose.map (fun p => (p, false)) } else x

/-- `docker compose down`, where it succeeds. -/
def down (x : Inst) (ok : Bool) : Inst := if ok then { x with container := none } else x

/-- `docker compose stop`. -/
def stop (x : Inst) : Inst := { x with container := x.container.map (fun c => (c.1, false)) }

def goto (x : Inst) (pc : Pc) : Inst := { x with pc := some pc }

def done (x : Inst) : Inst := { x with pc := none }

/-- A failed deployment ends with the exception, and in a first attempt with its rollback. -/
def fails (x : Inst) (attempt : Option Snapshot) : Inst := { x with pc := attempt.map .rolling }

end Inst

structure State where
  ports : Port → Option InstanceId
  inst : InstanceId → Inst

namespace State

def initial : State where
  ports := fun _ => none
  inst := fun _ =>
    { runtime := .dockerCompose, registered := false, manifestPort := none, rowPort := none, compose := none
      prev := none, deployed := false, container := none, site := none, released := fun _ => false, pc := none }

def put (s : State) (i : InstanceId) (x : Inst) : State :=
  { s with inst := Function.update s.inst i x }

/-- `allocate_port` answers `True`. -/
def mayAllocate (s : State) (i : InstanceId) (p : Port) : Bool :=
  (s.inst i).registered && (s.ports p = none || s.ports p = some i)

def allocatePort (s : State) (i : InstanceId) (p : Port) : State :=
  { ports := Function.update s.ports p (some i)
    inst := Function.update s.inst i
      { s.inst i with released := Function.update (s.inst i).released p false } }

/-- `release_instance_ports`. -/
def releaseInstance (s : State) (i : InstanceId) : State :=
  { ports := fun p => if s.ports p = some i then none else s.ports p
    inst := Function.update s.inst i
      { s.inst i with released := fun p => (s.inst i).released p || s.ports p = some i } }

/-- `release_port`, which does not ask for the owner. -/
def releasePort (s : State) (i : InstanceId) (p : Port) : State :=
  { ports := Function.update s.ports p none
    inst := Function.update s.inst i
      { s.inst i with released := Function.update (s.inst i).released p true } }

/-- The rest of a step changes the instance alone. -/
def edit (s : State) (i : InstanceId) (f : Inst → Inst) : State := s.put i (f (s.inst i))

/-- A rollback releases the ports only where they are new and where the release succeeds. -/
def releaseFresh (s : State) (i : InstanceId) (fresh : Bool) : State :=
  if fresh then s.releaseInstance i else s

end State

/-- What a step meets. `ok` is the success of the command or the check of the step, `healthy` that of a second
one; `port` is the candidate of the allocator. -/
structure Observed where
  ok : Bool
  healthy : Bool
  buildFirst : Bool
  listening : Bool
  drifted : Bool
  recreatable : Bool
  left : Bool
  port : Port
  deriving DecidableEq, Repr

inductive Operation where
  | importZip (runtime : Runtime)
  | hostInstance (attempt : Bool)
  | startContainer
  | recreateContainerRuntime
  | stopInstance (ok : Bool)
  | removeInstance
  deriving DecidableEq, Repr

inductive Action where
  | called (i : InstanceId) (operation : Operation)
  | proceeds (i : InstanceId) (o : Observed)
  | raises (i : InstanceId)
  | cancels (i : InstanceId) (ok : Bool)
  deriving DecidableEq, Repr

/-- `converge_generated_artifacts` after `snapshot_generated`; without a port the callers rebuild. -/
def converge (x : Inst) (pc : Pc) : Option Inst :=
  if x.runtime = .dockerCompose ∧ x.deployed ∧ x.manifestPort.isSome then
    some ({ x with prev := x.compose, compose := x.manifestPort }.goto pc)
  else none

/-- The begin of a call. Only a first deployment is an attempt with a snapshot (`existing_deployment`). -/
def begin (owned : Port → Bool) (x : Inst) : Operation → Option Inst
  | .importZip runtime =>
    if x.registered then none
    else some { x with
      runtime := runtime, registered := true, manifestPort := none, rowPort := none, compose := none
      prev := none, deployed := false }
  | .hostInstance attempt =>
    let first := if attempt && !x.deployed then some (x.snapshot owned) else none
    match x.runtime with
    | .dockerCompose => some (x.goto (.preparing first))
    | .sharedStatic => some (x.goto (.ensuring (.site first)))
  | .startContainer => converge x .lightStarting
  | .recreateContainerRuntime => converge x .recreating
  | .stopInstance ok =>
    match x.runtime with
    | .dockerCompose => if ok then some x.stop.upsert else none
    | .sharedStatic => if ok then some { x with site := none }.upsert else none
  | .removeInstance => some (x.goto .removing)

/-- `_prepare_previous_container`. -/
def prepare (x : Inst) (attempt : Option Snapshot) (o : Observed) : Inst :=
  if x.running then
    if x.deployed && o.buildFirst then { x with prev := x.compose }.goto (.ensuring (.container true attempt))
    else if o.ok then { x.down true with deployed := false }.goto (.ensuring (.container false attempt))
    else x.fails attempt
  else { x with deployed := false }.goto (.ensuring (.container false attempt))

/-- The place of the caller after it has its port. -/
def Caller.next (port : Port) (fresh : Bool) : Caller → Pc
  | container txn attempt => .rendering ⟨txn, port, fresh, attempt⟩
  | site attempt => .enabling port fresh attempt

/-- `_ensure_container_port` and `_ensure_static_port` up to `allocate_port` on the port of the row. For a site
`listening` is a listener that is not its own live site. -/
def ensurePort (s : State) (i : InstanceId) (o : Observed) (c : Caller) : State :=
  let txn := match c with
    | .container txn _ => txn
    | .site _ => false
  match (s.inst i).rowPort with
  | none => s.edit i (·.goto (.dropping c))
  | some p =>
    if (txn || !o.listening) && s.mayAllocate i p then (s.allocatePort i p).edit i (·.goto (c.next p false))
    else s.edit i (·.goto (.dropping c))

/-- `start_container` up to its command. -/
def lightStart (x : Inst) (o : Observed) : Inst :=
  if o.drifted then
    if o.ok then { x.down true with deployed := false }.goto .lightUpping else x.done
  else
    match x.container with
    | some (_, true) => x.goto (.lightObserving false)
    | some (p, false) => if o.ok then { x with container := some (p, true) }.goto (.lightObserving false) else x.done
    | none =>
      if o.recreatable then { x with deployed := false }.goto .lightUpping else x.goto (.preparing none)

/-- `_compensate_build_first` after its `down`. -/
def revive (x : Inst) (d : Deploy) (o : Observed) : Inst :=
  match x.prev with
  | none => x.upsert.fails d.attempt
  | some p =>
    let y := { x with compose := some p }
    if o.ok then
      let z := y.up
      if o.healthy then ({ z with manifestPort := some d.port, deployed := true }.upsert).fails d.attempt
      else z.upsert.fails d.attempt
    else (y.upFails o.left).upsert.fails d.attempt

/-- `_recreate_restore_previous` after its `down`. -/
def reRevive (x : Inst) (o : Observed) : Inst :=
  match x.prev, x.manifestPort with
  | some p, some _ =>
    let y := { x with compose := some p }
    if o.ok then
      if o.healthy then ({ y.up with deployed := true }.upsert).done
      else ({ y.up.down o.left with deployed := false }.upsert).done
    else ({ y.upFails o.left with deployed := false }.upsert).done
  | _, _ => ({ x.down o.ok with deployed := false }.upsert).done

/-- The next step of the call of an instance. -/
def advance (s : State) (i : InstanceId) (o : Observed) : Pc → Option State
  | .preparing attempt => some (s.edit i (prepare · attempt o))
  | .ensuring c => some (ensurePort s i o c)
  | .dropping c => some ((s.releaseInstance i).edit i (·.goto (.allocating c)))
  | .allocating c =>
    if s.mayAllocate i o.port then some ((s.allocatePort i o.port).edit i (·.goto (c.next o.port true))) else none
  | .rendering d => some (s.edit i (fun x => { x with compose := some d.port }.goto (.building d)))
  | .building d => some (s.edit i (·.goto (if d.txn then .swapping d else .upping d)))
  | .swapping d =>
    some (s.edit i (fun x =>
      if x.running && !o.ok then { x with compose := x.prev }.fails d.attempt
      else { x.down x.running with deployed := false }.goto (.upping d)))
  | .upping d =>
    some (s.edit i (fun x =>
      if o.ok then x.up.goto (.observing d)
      else (x.upFails o.left).goto (if d.txn then .compensating d else .failing d false)))
  | .observing d =>
    some (s.edit i (fun x =>
      if o.ok then { x with manifestPort := some d.port, deployed := true }.goto (.committing d)
      else x.goto (if d.txn then .compensating d else .stopping d)))
  | .committing d => some (s.edit i (·.upsert.goto (.verifying d)))
  | .verifying d =>
    some (s.edit i (fun x => if o.ok then x.done else x.goto (if d.txn then .compensating d else .stopping d)))
  | .stopping d => some (s.edit i (fun x => (x.down (o.ok && x.running)).goto (.releasing d)))
  | .releasing d => some ((s.releaseFresh i (d.fresh && o.ok)).edit i (·.upsert.fails d.attempt))
  | .failing d upCompleted =>
    some ((s.releaseFresh i (d.fresh && o.ok)).edit i (fun x =>
      if upCompleted then x.goto (.downing d) else x.upsert.fails d.attempt))
  | .downing d => some (s.edit i (fun x => (x.down o.ok).upsert.fails d.attempt))
  | .compensating d => some (s.edit i (fun x => (x.down o.ok).goto (.reviving d)))
  | .reviving d => some (s.edit i (revive · d o))
  | .rolling snapshot => some (s.edit i (fun x => (x.down (o.ok && x.running)).goto (.rollingPorts snapshot)))
  | .rollingPorts snapshot =>
    if o.ok then some (s.edit i (·.goto (.restoring snapshot)))
    else if s.ports o.port = some i ∧ snapshot.ports o.port = false then some (s.releasePort i o.port)
    else none
  | .restoring snapshot =>
    some (s.edit i (fun x =>
      { x with
        manifestPort := if x.runtime = Runtime.dockerCompose then snapshot.manifestPort else x.manifestPort
        compose := snapshot.compose
        deployed := false }.done))
  | .lightStarting => some (s.edit i (lightStart · o))
  | .lightUpping =>
    some (s.edit i (fun x => if o.ok then x.up.goto (.lightObserving true) else (x.upFails o.left).done))
  | .lightObserving up =>
    some (s.edit i (fun x =>
      if up && !o.ok then (x.down o.healthy).upsert.done
      else ({ x with deployed := x.deployed || up }.upsert).done))
  | .recreating =>
    some (s.edit i (fun x =>
      if !o.recreatable then x.goto (.preparing none)
      else if x.running && !o.ok then x.done
      else { x.stop with deployed := false }.goto .reUpping))
  | .reUpping =>
    some (s.edit i (fun x => if o.ok then x.up.goto .reVerifying else (x.upFails o.left).goto .reDowning))
  | .reVerifying =>
    some (s.edit i (fun x => if o.ok then { x with deployed := o.healthy }.done else x.goto .reDowning))
  | .reDowning => some (s.edit i (fun x => (x.down o.ok).goto .reReviving))
  | .reReviving => some (s.edit i (reRevive · o))
  | .enabling port fresh attempt =>
    some (s.edit i (fun x =>
      if o.ok then { x with site := some port }.goto (.enabled port attempt)
      else { x with site := if o.left then x.site else none }.goto (.disabling port fresh attempt)))
  | .enabled port _ => some (s.edit i (fun x => { x with manifestPort := some port }.upsert.done))
  | .disabling port fresh attempt =>
    some ((if fresh then s.releasePort i port else s).edit i (·.fails attempt))
  | .removing => some (s.edit i (fun x => { x.down o.ok with site := if o.ok then none else x.site }.goto .deleting))
  | .deleting =>
    some ((s.releaseInstance i).edit i (fun x => { x with registered := false, rowPort := none }.goto .purging))
  | .purging =>
    some (s.edit i (fun x =>
      if o.ok then { x with manifestPort := none, compose := none, prev := none, deployed := false }.done
      else x.done))

/-- `_handle_container_deploy_failed` before the swap: a build-first deployment gets its generated files back. -/
def failsEarly (x : Inst) (txn : Bool) (attempt : Option Snapshot) : Inst :=
  if txn then { x with compose := x.prev }.fails attempt else x.upsert.fails attempt

/-- An exception at the place of the call. -/
def raise (x : Inst) : Pc → Option Inst
  | .preparing attempt => some (x.upsert.fails attempt)
  | .ensuring (.container txn attempt) | .dropping (.container txn attempt) | .allocating (.container txn attempt) =>
    some (failsEarly x txn attempt)
  | .rendering d | .building d =>
    some (if d.txn then failsEarly x true d.attempt else x.goto (.failing d false))
  | .observing d | .committing d | .verifying d =>
    some (x.goto (if d.txn then .compensating d else .failing d true))
  | .ensuring (.site attempt) | .dropping (.site attempt) | .allocating (.site attempt) | .enabled _ attempt =>
    some (x.fails attempt)
  | .lightStarting | .lightObserving _ | .recreating | .reVerifying | .removing | .deleting | .purging => some x.done
  | _ => none

/-- `_handle_container_deploy_cancelled`: a cancel reaches the deployment while it builds. -/
def cancel (s : State) (i : InstanceId) (ok : Bool) : Pc → Option State
  | .building d =>
    some ((s.releaseFresh i (d.fresh && ok)).edit i (fun x =>
      { x with compose := if d.txn then x.prev else x.compose }.done))
  | _ => none

def step (s : State) : Action → Option State
  | .called i operation =>
    if (s.inst i).pc.isNone then (begin (fun p => s.ports p = some i) (s.inst i) operation).map (s.put i) else none
  | .proceeds i o => (s.inst i).pc.bind (advance s i o)
  | .raises i => ((s.inst i).pc.bind (raise (s.inst i))).map (s.put i)
  | .cancels i ok => (s.inst i).pc.bind (cancel s i ok)

end LocalWebAccess.HostPorts
