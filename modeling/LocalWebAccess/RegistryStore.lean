import LocalWebAccess.OwnedRows
import LocalWebAccess.UpdateTransaction
import LocalWebAccess.GuardedRuns

/-!
# The tables of the registry

The instances, and the six tables whose rows refer to them. Each method is one transaction: it commits, or
raises and changes nothing. Whether a connection checks the references is a pragma of that connection.
-/
namespace LocalWebAccess.RegistryStore
open GuardedRuns KeyedTables OwnedRows UpdateTransaction

structure Port where
  port : ℤ
  instanceId : String
  status : String := "allocated"
  createdAt : String
  deriving DecidableEq, Repr

structure Event where
  id : ℕ
  instanceId : Option String
  eventType : String
  message : String
  createdAt : String
  source : Option String
  deriving DecidableEq, Repr

structure Build where
  id : ℕ
  instanceId : String
  status : String
  startedAt : Option String
  finishedAt : Option String := none
  logPath : Option String
  errorSummary : Option String := none
  imageRef : Option String := none
  imageId : Option String := none
  sourceHash : Option String := none
  configSnapshot : Option String := none
  deriving DecidableEq, Repr

/-- A running build ends the other running ones of its instance. -/
def supersede (build : Build) (now : String) (row : Build) : Build :=
  if row.instanceId = build.instanceId ∧ row.status = "running" ∧ row.id ≠ build.id then
    { row with status := "failed", finishedAt := some now, errorSummary := some "被后续构建取代" }
  else row

/-- The sequences are the last ids that `AUTOINCREMENT` has given. -/
structure Store (Json : Type) where
  instances : Table String (InstanceRow Json)
  containers : Table String ContainerRow
  staticSites : Table String StaticRow
  ports : List Port
  events : List Event
  builds : List Build
  resources : Table String (ResourcesRow Json)
  workspaceMeta : Table String String
  eventSequence : ℕ
  buildSequence : ℕ

/-- `_CHILD_TABLES`. -/
inductive ChildTable where
  | containers
  | staticSites
  | ports
  | events
  | builds
  | resources
  deriving DecidableEq, Repr

def childTables : List ChildTable := [.containers, .staticSites, .ports, .events, .builds, .resources]

variable {Json : Type}

namespace Store

def empty : Store Json := ⟨∅, ∅, ∅, [], [], [], ∅, ∅, 0, 0⟩

def instanceExists (s : Store Json) (id : String) : Bool := (s.instances.lookup id).isSome

/-- The column `instance_id` of a table. -/
def owners (s : Store Json) : ChildTable → List (Option String)
  | .containers => s.containers.keys.map some
  | .staticSites => s.staticSites.keys.map some
  | .ports => s.ports.map fun row => some row.instanceId
  | .events => s.events.map fun row => row.instanceId
  | .builds => s.builds.map fun row => some row.instanceId
  | .resources => s.resources.keys.map some

/-- `DELETE FROM table`, of the rows whose `instance_id` is doomed. -/
def deleteFrom (doomed : Option String → Bool) (s : Store Json) : ChildTable → Store Json
  | .containers => { s with containers := s.containers.deleteWhere fun k => doomed (some k) }
  | .staticSites => { s with staticSites := s.staticSites.deleteWhere fun k => doomed (some k) }
  | .ports => { s with ports := s.ports.filter fun row => !doomed (some row.instanceId) }
  | .events => { s with events := s.events.filter fun row => !doomed row.instanceId }
  | .builds => { s with builds := s.builds.filter fun row => !doomed (some row.instanceId) }
  | .resources => { s with resources := s.resources.deleteWhere fun k => doomed (some k) }

/-- A row may refer to the instance: the connection does not check, or it is there. -/
def mayRefer (foreignKeys : Bool) (s : Store Json) (id : String) : Bool := !foreignKeys || s.instanceExists id

/-! ## The methods -/

/-- `upsert_from_manifest`. -/
def upsertFromManifest (importer : Importer Json) (manifest : InstanceManifest Json) (s : Store Json) :
    Store Json :=
  let row := upsertInstance importer manifest
  let s := { s with instances := s.instances.upsert manifest.id (row none) fun old => row (some old) }
  match manifest.container, manifest.static with
  | some config, _ =>
    { s with
      containers := s.containers.upsert manifest.id (containerRow config) fun _ => containerRow config
      staticSites := s.staticSites.deleteWhere (· = manifest.id) }
  | none, some config =>
    { s with
      staticSites := s.staticSites.upsert manifest.id (staticRow config) fun _ => staticRow config
      containers := s.containers.deleteWhere (· = manifest.id) }
  | none, none => s

/-- `UPDATE instances SET … WHERE id = ?`, which `update_status`, `touch_instance`, `update_last_operation`,
`update_last_error`, `update_name`, `record_started`, `record_health_check` and `set_last_error` carry out. -/
def updateInstance (id : String) (change : InstanceRow Json → InstanceRow Json) (s : Store Json) : Store Json :=
  { s with instances := s.instances.update id change }

/-- The rows of an instance are deleted table by table; foreign keys delete what would be left of them. -/
def deleteInstance (foreignKeys : Bool) (id : String) (s : Store Json) : Store Json :=
  let s := childTables.foldl (deleteFrom fun owner => owner = some id) s
  let s := { s with instances := s.instances.deleteWhere (· = id) }
  if foreignKeys then childTables.foldl (deleteFrom fun owner => owner = some id) s else s

/-- The `WHERE` of `find_orphan_rows` and `purge_orphan_rows`. -/
def orphaned (s : Store Json) (owner : Option String) : Bool := owner.any fun id => !s.instanceExists id

/-- `purge_orphan_rows`, with the number of the rows that it has deleted. -/
def purgeOrphanRows (s : Store Json) : ℕ × Store Json :=
  childTables.foldl
    (fun (total, s) table => (total + (s.owners table).countP s.orphaned, s.deleteFrom s.orphaned table)) (0, s)

def upsertContainer (foreignKeys : Bool) (id : String) (config : ContainerConfig Json) (s : Store Json) :
    Option (Store Json) :=
  if id ∈ s.containers ∨ s.mayRefer foreignKeys id then
    some { s with containers := s.containers.upsert id (containerRow config) fun _ => containerRow config }
  else none

def deleteContainer (id : String) (s : Store Json) : Store Json :=
  { s with containers := s.containers.deleteWhere (· = id) }

def upsertStaticSite (foreignKeys : Bool) (id : String) (config : StaticConfig Json) (s : Store Json) :
    Option (Store Json) :=
  if id ∈ s.staticSites ∨ s.mayRefer foreignKeys id then
    some { s with staticSites := s.staticSites.upsert id (staticRow config) fun _ => staticRow config }
  else none

def setStaticEnabled (id : String) (enabled : Bool) (s : Store Json) : Store Json :=
  { s with staticSites := s.staticSites.update id fun row => { row with enabled := enabled } }

def deleteStaticSite (id : String) (s : Store Json) : Store Json :=
  { s with staticSites := s.staticSites.deleteWhere (· = id) }

/-- `INSERT OR IGNORE`, and the owner of a port that has a row already. -/
def allocatePort (foreignKeys : Bool) (id : String) (port : ℤ) (now : String) (s : Store Json) :
    Option (Bool × Store Json) :=
  match s.ports.find? (·.port = port) with
  | some row => some (row.instanceId = id, s)
  | none =>
    if s.mayRefer foreignKeys id then
      some (true, { s with ports := s.ports ++ [{ port, instanceId := id, createdAt := now }] })
    else none

def releasePort (port : ℤ) (s : Store Json) : Store Json :=
  { s with ports := s.ports.filter (·.port ≠ port) }

def releaseInstancePorts (id : String) (s : Store Json) : Store Json :=
  { s with ports := s.ports.filter (·.instanceId ≠ id) }

/-- `current` is `current_op_source()`. -/
def addEvent (foreignKeys : Bool) (id : Option String) (eventType message : String) (source : Option String)
    (current now : String) (s : Store Json) : Option (ℕ × Store Json) :=
  if id.all (s.mayRefer foreignKeys) then
    let event : Event :=
      { id := s.eventSequence + 1, instanceId := id, eventType, message, createdAt := now
        source := some ((source.filter (· ≠ "")).getD current) }
    some (event.id, { s with events := s.events ++ [event], eventSequence := event.id })
  else none

def addBuild (foreignKeys : Bool) (id status : String) (startedAt logPath : Option String) (now : String)
    (s : Store Json) : Option (ℕ × Store Json) :=
  if s.mayRefer foreignKeys id then
    let build : Build :=
      { id := s.buildSequence + 1, instanceId := id, status, logPath
        startedAt := some ((startedAt.filter (· ≠ "")).getD now) }
    let builds := s.builds ++ [build]
    some (build.id,
      { s with
        builds := if status = "running" then builds.map (supersede build now) else builds
        buildSequence := build.id })
  else none

/-- `UPDATE builds SET … WHERE id = ?`. -/
def updateBuild (build : ℕ) (change : Build → Build) (s : Store Json) : Store Json :=
  { s with builds := s.builds.map fun row => if row.id = build then change row else row }

def finishBuild (build : ℕ) (status : String) (errorSummary : Option String) (now : String) (s : Store Json) :
    Store Json :=
  s.updateBuild build fun row =>
    { row with status := status, finishedAt := some now, errorSummary := errorSummary }

def recordBuildArtifacts (build : ℕ) (imageRef imageId sourceHash configSnapshot : Option String)
    (s : Store Json) : Store Json :=
  s.updateBuild build fun row =>
    { row with
      imageRef := imageRef
      imageId := imageId
      sourceHash := sourceHash
      configSnapshot := configSnapshot }

def clearBuildArtifacts (build : ℕ) (s : Store Json) : Store Json :=
  s.updateBuild build fun row => { row with imageRef := none, imageId := none, configSnapshot := none }

def upsertResources (foreignKeys : Bool) (id : String) (row : ResourcesRow Json) (s : Store Json) :
    Option (Store Json) :=
  if id ∈ s.resources ∨ s.mayRefer foreignKeys id then
    some { s with resources := s.resources.upsert id row fun old => UpdateTransaction.upsertResources row (some old) }
  else none

/-- The `INSERT OR IGNORE` of `get_or_create_workspace_id`, and what it then reads. -/
def getOrCreateWorkspaceId (candidate : String) (s : Store Json) : Option String × Store Json :=
  let s := { s with workspaceMeta := s.workspaceMeta.upsert "workspace_id" candidate id }
  (s.workspaceMeta.lookup "workspace_id", s)

end Store

/-! ## Calls -/

inductive Call (Json : Type) where
  | upsertFromManifest (importer : Importer Json) (manifest : InstanceManifest Json)
  | updateInstance (id : String) (change : InstanceRow Json → InstanceRow Json)
  | deleteInstance (id : String)
  | purgeOrphanRows
  | upsertContainer (id : String) (config : ContainerConfig Json)
  | deleteContainer (id : String)
  | upsertStaticSite (id : String) (config : StaticConfig Json)
  | setStaticEnabled (id : String) (enabled : Bool)
  | deleteStaticSite (id : String)
  | allocatePort (id : String) (port : ℤ)
  | releasePort (port : ℤ)
  | releaseInstancePorts (id : String)
  | addEvent (id : Option String) (eventType message : String) (source : Option String) (current : String)
  | addBuild (id status : String) (startedAt logPath : Option String)
  | finishBuild (build : ℕ) (status : String) (errorSummary : Option String)
  | recordBuildArtifacts (build : ℕ) (imageRef imageId sourceHash configSnapshot : Option String)
  | clearBuildArtifacts (build : ℕ)
  | upsertResources (id : String) (row : ResourcesRow Json)
  | getOrCreateWorkspaceId (candidate : String)

/-- What a call returns. -/
inductive Answer where
  | nothing
  | rows (deleted : ℕ)
  | port (own : Bool)
  | event (id : ℕ)
  | build (id : ℕ)
  | workspace (id : Option String)
  deriving DecidableEq, Repr

def answering {α : Type} (answer : α → Answer) (result : α × Store Json) : Answer × Store Json :=
  (answer result.1, result.2)

/-- A call over a connection with or without foreign keys, or `none` where it raises. -/
def Call.run (foreignKeys : Bool) (now : String) (s : Store Json) : Call Json → Option (Answer × Store Json)
  | .upsertFromManifest importer manifest => some (.nothing, s.upsertFromManifest importer manifest)
  | .updateInstance id change => some (.nothing, s.updateInstance id change)
  | .deleteInstance id => some (.nothing, s.deleteInstance foreignKeys id)
  | .purgeOrphanRows => some (answering .rows s.purgeOrphanRows)
  | .upsertContainer id config => (s.upsertContainer foreignKeys id config).map (.nothing, ·)
  | .deleteContainer id => some (.nothing, s.deleteContainer id)
  | .upsertStaticSite id config => (s.upsertStaticSite foreignKeys id config).map (.nothing, ·)
  | .setStaticEnabled id enabled => some (.nothing, s.setStaticEnabled id enabled)
  | .deleteStaticSite id => some (.nothing, s.deleteStaticSite id)
  | .allocatePort id port => (s.allocatePort foreignKeys id port now).map (answering .port)
  | .releasePort port => some (.nothing, s.releasePort port)
  | .releaseInstancePorts id => some (.nothing, s.releaseInstancePorts id)
  | .addEvent id eventType message source current =>
    (s.addEvent foreignKeys id eventType message source current now).map (answering .event)
  | .addBuild id status startedAt logPath =>
    (s.addBuild foreignKeys id status startedAt logPath now).map (answering .build)
  | .finishBuild build status errorSummary => some (.nothing, s.finishBuild build status errorSummary now)
  | .recordBuildArtifacts build imageRef imageId sourceHash configSnapshot =>
    some (.nothing, s.recordBuildArtifacts build imageRef imageId sourceHash configSnapshot)
  | .clearBuildArtifacts build => some (.nothing, s.clearBuildArtifacts build)
  | .upsertResources id row => (s.upsertResources foreignKeys id row).map (.nothing, ·)
  | .getOrCreateWorkspaceId candidate => some (answering .workspace (s.getOrCreateWorkspaceId candidate))

/-- One call of some process. It may raise for a reason of its own, and then changes nothing. -/
structure Action (Json : Type) where
  call : Call Json
  foreignKeys : Bool := true
  now : String
  fails : Bool := false

def Action.outcome (s : Store Json) (a : Action Json) : Option (Answer × Store Json) :=
  if a.fails then none else a.call.run a.foreignKeys a.now s

def step (s : Store Json) (a : Action Json) : Option (Store Json) :=
  some ((a.outcome s).elim s Prod.snd)

/-! ## Deletions -/

/-- The store without the doomed rows of the child tables. -/
def Store.without (doomed : Option String → Bool) (s : Store Json) : Store Json :=
  { s with
    containers := s.containers.deleteWhere fun k => doomed (some k)
    staticSites := s.staticSites.deleteWhere fun k => doomed (some k)
    ports := s.ports.filter fun row => !doomed (some row.instanceId)
    events := s.events.filter fun row => !doomed row.instanceId
    builds := s.builds.filter fun row => !doomed (some row.instanceId)
    resources := s.resources.deleteWhere fun k => doomed (some k) }

variable {s t : Store Json} {id : String} {table : ChildTable} {a : Action Json} {as bs : List (Action Json)}

/-- What is left after `delete_instance`. -/
def Store.forget (id : String) (s : Store Json) : Store Json :=
  { s.without (fun owner => owner = some id) with instances := s.instances.deleteWhere (· = id) }

section

variable {foreignKeys : Bool} {now : String}

end

theorem step_cases (taken : step s a = some t) :
    (a.outcome s = none ∧ t = s) ∨
    ∃ answer, a.outcome s = some (answer, t) ∧ a.fails = false ∧
      a.call.run a.foreignKeys a.now s = some (answer, t) := by
  have same : (a.outcome s).elim s Prod.snd = t := Option.some.inj taken
  cases outcome : a.outcome s with
  | none =>
    rw [outcome] at same
    exact .inl ⟨rfl, same.symm⟩
  | some result =>
    rw [outcome] at same
    obtain ⟨answer, next⟩ := result
    obtain rfl : next = t := same
    refine .inr ⟨answer, rfl, ?_⟩
    unfold Action.outcome at outcome
    split_ifs at outcome with fails
    exact ⟨by simpa using fails, outcome⟩

end LocalWebAccess.RegistryStore
