import LocalWebAccess.GuardedRuns
import LocalWebAccess.Models

/-!
# The calls that write a path alias

An alias is kept in the manifest of its instance and in a row of `static_sites` or
`containers`, and whether it is taken is read from the rows. The calls interleave
between lock acquisitions, reads of the registry, loads and saves of manifests and
upserts. Each takes its own locks: an import the import lock, `set_instance_path_alias`
the alias lock and then the lock of the instance, the others at most the latter.

Of a manifest only what these calls read is kept; ports, gateway fragments and the
guards on the content, which can only refuse an alias, are left out.
-/
namespace LocalWebAccess.PathAliases
open GuardedRuns

abbrev InstanceId := ℕ
abbrev Slug := ℕ
abbrev CallId := ℕ

/-- The alias is in the section of the runtime (`_current_alias`); `desired` is `desiredAlias`. -/
structure Manifest where
  runtime : Runtime
  routeHost : Option Slug
  desired : Option Slug
  pending : Bool
  deriving DecidableEq, Repr

/-- The sub-table rows of an instance; a row has the alias of route mode `name`. -/
abbrev Rows := Runtime → Option (Option Slug)

namespace Manifest

/-- What `upsert_from_manifest` leaves in the two tables. -/
def rows (m : Manifest) : Rows := fun table => if table = m.runtime then some m.routeHost else none

/-- `_apply_manifest_alias` with the wish that goes with it. -/
def routed (m : Manifest) (target : Option Slug) : Manifest :=
  { m with routeHost := target, desired := target }

/-- `apply_detection_to_manifest`: an alias stays in its section and is lost with it. -/
def updated (m : Manifest) (runtime : Runtime) (pending : Bool) : Manifest where
  runtime := runtime
  routeHost := if runtime = m.runtime then m.routeHost else none
  desired := m.desired
  pending := pending

/-- `confirm_instance_shape` takes the alias from the static section. -/
def confirmed (m : Manifest) (runtime : Runtime) : Manifest where
  runtime := runtime
  routeHost := if m.runtime = .sharedStatic then m.routeHost else none
  desired := m.desired
  pending := false

end Manifest

/-- Who calls `set_instance_path_alias`: a user, or `maybe_restore_desired_alias_after_start` with the
manifest it loaded. -/
inductive Request where
  | user (target : Option Slug)
  | restore (latest : Manifest)
  deriving DecidableEq, Repr

namespace Request

def target : Request → Option Slug
  | user target => target
  | restore latest => latest.desired

/-- The alias that the call of a user sets. -/
def setBy : Request → Option Slug
  | user target => target
  | restore _ => none

/-- `require_desired_alias` is given and the manifest has another wish. -/
def mismatches : Request → Manifest → Bool
  | user _, _ => false
  | restore latest, m => m.desired ≠ latest.desired

end Request

/-- Where a call stands, with what it has read. A call of `set_instance_path_alias` is in `set…` from the
alias lock on, an update in `updateRead` between its two lock periods. -/
inductive Pc where
  | importEntered (a : Slug)
  | importChecked (a : Slug)
  | importClaimed (i : InstanceId) (a : Slug)
  | importSaved (i : InstanceId) (m : Manifest)
  | importRegistered (i : InstanceId)
  | setCalled (i : InstanceId) (r : Request)
  | setEntered (i : InstanceId) (r : Request)
  | setLoaded (i : InstanceId) (r : Request) (m : Manifest)
  | setChecked (i : InstanceId) (r : Request) (m : Manifest)
  | setSaved (i : InstanceId) (r : Request) (m : Manifest)
  | updateCalled (i : InstanceId)
  | updateEntered (i : InstanceId)
  | updateRead (i : InstanceId) (old : Manifest)
  | updateLocked (i : InstanceId) (old : Manifest)
  | updateOpened (i : InstanceId) (old snapshot : Manifest) (oldRows : Rows)
  | updateSaved (i : InstanceId) (old snapshot : Manifest) (oldRows : Rows) (new : Manifest)
  | updateRegistered (i : InstanceId) (old snapshot : Manifest) (oldRows : Rows) (new : Manifest)
  | updateRestored (i : InstanceId) (old : Manifest) (oldRows : Rows)
  | updateUndone (i : InstanceId) (oldRows : Rows)
  | confirmEntered (i : InstanceId)
  | confirmLoaded (i : InstanceId) (old : Manifest)
  | confirmSaved (i : InstanceId) (old : Manifest) (runtime : Runtime)
  | restoreReady (i : InstanceId) (latest : Manifest)
  | restoreFailed (i : InstanceId) (latest : Manifest)
  | restoreSaved (i : InstanceId) (latest : Manifest)
  | removeEntered (i : InstanceId)
  | removed (i : InstanceId)

inductive Lock where
  | importActivity
  | pathAlias
  | instance (i : InstanceId)
  deriving DecidableEq, Repr

namespace Pc

/-- The instance whose lock the call has. -/
def locked : Pc → Option InstanceId
  | setEntered i _ | setLoaded i _ _ | setChecked i _ _ | setSaved i _ _ => some i
  | updateEntered i | updateLocked i _ | updateOpened i _ _ _ | updateSaved i _ _ _ _ => some i
  | updateRegistered i _ _ _ _ | updateRestored i _ _ | updateUndone i _ => some i
  | confirmEntered i | confirmLoaded i _ | confirmSaved i _ _ => some i
  | removeEntered i | removed i => some i
  | _ => none

def importing : Pc → Bool
  | importEntered _ | importChecked _ | importClaimed _ _ | importSaved _ _ | importRegistered _ => true
  | _ => false

def setting : Pc → Bool
  | setCalled _ _ | setEntered _ _ | setLoaded _ _ _ | setChecked _ _ _ | setSaved _ _ _ => true
  | _ => false

def holds (pc : Pc) : Lock → Bool
  | .importActivity => pc.importing
  | .pathAlias => pc.setting
  | .instance i => pc.locked = some i

end Pc

/-- What there is of an instance besides its row in `instances`: its directory with the manifest and its
sub-table rows. `cleared` records the aliases that were cleared and that no later call set. -/
structure Entry where
  manifest : Option Manifest
  dir : Bool
  rows : Rows
  cleared : List Slug

structure State where
  instances : List InstanceId
  entry : InstanceId → Entry
  locks : Lock → Option CallId
  calls : CallId → Option Pc

namespace State

def initial : State where
  instances := []
  entry := fun _ => ⟨none, false, fun _ => none, []⟩
  locks := fun _ => none
  calls := fun _ => none

/-- The route hosts of the rows of an instance. -/
def routeHosts (s : State) (i : InstanceId) : List Slug :=
  [Runtime.sharedStatic, .dockerCompose].filterMap (fun table => ((s.entry i).rows table).join)

/-- The keys of `list_route_hosts`. -/
def listRouteHosts (s : State) (excludeInstance : Option InstanceId) : List Slug :=
  (s.instances.filter (fun i => excludeInstance ≠ some i)).flatMap s.routeHosts

def put (s : State) (i : InstanceId) (e : Entry) : State :=
  { s with entry := Function.update s.entry i e }

/-- A save makes the directory where it is missing. -/
def save (s : State) (i : InstanceId) (m : Manifest) : State :=
  s.put i { s.entry i with manifest := some m, dir := true }

/-- A save on behalf of a call that sets the alias. -/
def saveSet (s : State) (i : InstanceId) (m : Manifest) (a : Option Slug) : State :=
  s.put i { s.entry i with
    manifest := some m, dir := true, cleared := (s.entry i).cleared.filter (fun b => a ≠ some b) }

def upsertFromManifest (s : State) (i : InstanceId) (m : Manifest) : State :=
  { s.put i { s.entry i with rows := m.rows } with
    instances := if i ∈ s.instances then s.instances else i :: s.instances }

/-- `upsert_static_site` or `upsert_container`; the caller sees to the foreign key. -/
def upsertRow (s : State) (i : InstanceId) (table : Runtime) (row : Option Slug) : State :=
  s.put i { s.entry i with rows := Function.update (s.entry i).rows table (some row) }

def deleteInstance (s : State) (i : InstanceId) : State :=
  { s.put i { s.entry i with rows := fun _ => none } with instances := s.instances.filter (· ≠ i) }

def purge (s : State) (i : InstanceId) : State :=
  s.put i { s.entry i with manifest := none, dir := false }

/-- The call goes to its next place, and gains and frees the locks that this takes. -/
def become (s : State) (p : CallId) (new : Option Pc) : State :=
  { s with
    calls := Function.update s.calls p new
    locks := fun l => if new.any (·.holds l) then some p else (s.locks l).filter (· ≠ p) }

def free (s : State) (l : Lock) : Bool := (s.locks l).isNone

end State

inductive Operation where
  | importZip (a : Slug)
  | setInstancePathAlias (i : InstanceId) (target : Option Slug)
  | updateZip (i : InstanceId)
  | confirmInstanceShape (i : InstanceId)
  | maybeRestoreDesiredAlias (i : InstanceId) (handed : Manifest)
  | removeInstance (i : InstanceId)
  deriving DecidableEq, Repr

/-- What a step meets: the id that is claimed, the shape that is found or asked for, whether a save whose
failure is swallowed succeeds, whether the live check passes, and whether a removal purges. -/
structure Observed where
  id : InstanceId
  runtime : Runtime
  pending : Bool
  saved : Bool
  verified : Bool
  purge : Bool
  deriving DecidableEq, Repr

/-- A call ends where it refuses, where an exception finds nothing to undo and where its process dies. -/
inductive Action where
  | called (p : CallId) (operation : Operation)
  | proceeds (p : CallId) (o : Observed)
  | raises (p : CallId)
  | ends (p : CallId)
  deriving DecidableEq, Repr

/-- A call begins with its first lock; an update looks for its instance before, and a restore loads the
manifest without a lock and keeps the caller's where that fails. -/
def begin (s : State) (p : CallId) : Operation → Option State
  | .importZip a => if s.free .importActivity then some (s.become p (some (.importEntered a))) else none
  | .setInstancePathAlias i target =>
    if s.free .pathAlias then some (s.become p (some (.setCalled i (.user target)))) else none
  | .updateZip i =>
    if i ∈ s.instances ∧ (s.entry i).manifest.isSome then some (s.become p (some (.updateCalled i))) else none
  | .confirmInstanceShape i =>
    if s.free (.instance i) then some (s.become p (some (.confirmEntered i))) else none
  | .maybeRestoreDesiredAlias i handed =>
    let latest := (s.entry i).manifest.getD handed
    if latest.desired.isSome ∧ latest.routeHost ≠ latest.desired then
      some (s.become p (some (.restoreReady i latest)))
    else none
  | .removeInstance i =>
    if s.free (.instance i) then some (s.become p (some (.removeEntered i))) else none

/-- The call of a user ends with the exception; a restore goes on in its failure branch. -/
def Request.raised (i : InstanceId) : Request → Option Pc
  | user _ => none
  | restore latest => some (.restoreFailed i latest)

/-- `_set_instance_path_alias_locked` once the manifest is loaded, up to the check. -/
def afterLoad (s : State) (p : CallId) (i : InstanceId) (r : Request) (m : Manifest) (saved : Bool) :
    Option State :=
  if r.target = none ∧ m.desired.isSome then
    let dropped := { m with desired := none }
    some ((if saved then s.save i dropped else s).become p (some (.setLoaded i r dropped)))
  else if r.target = m.routeHost then
    let wished := { m with desired := r.target }
    some ((if saved ∧ m.desired ≠ r.target then s.save i wished else s).become p none)
  else if r.target.any (· ∈ s.listRouteHosts (some i)) then none
  else some (s.become p (some (.setChecked i r m)))

/-- The live check decides between the save and the wish that is kept for a later start. -/
def afterCheck (s : State) (p : CallId) (i : InstanceId) (r : Request) (m : Manifest) (o : Observed) :
    Option State :=
  if o.verified then
    some ((s.saveSet i (m.routed r.target) r.setBy).become p (some (.setSaved i r m)))
  else if r.target = none then none
  else
    let wished := { m with desired := r.target }
    some ((if o.saved then s.saveSet i wished r.setBy else s).become p (r.raised i))

/-- The end of `set_instance_path_alias`: the row of the runtime, which needs the row in `instances`. A
clear records what it cleared. -/
def afterSave (s : State) (p : CallId) (i : InstanceId) (r : Request) (m : Manifest) : Option State :=
  if i ∈ s.instances then
    let t := s.upsertRow i m.runtime r.target
    let cleared := if r.target = none then m.routeHost.toList ++ (t.entry i).cleared else (t.entry i).cleared
    some ((t.put i { t.entry i with cleared := cleared }).become p none)
  else none

/-- The next step of a call. -/
def advance (s : State) (p : CallId) (o : Observed) : Pc → Option State
  | .importEntered a =>
    if a ∈ s.listRouteHosts none then none else some (s.become p (some (.importChecked a)))
  | .importChecked a =>
    if o.id ∈ s.instances ∨ (s.entry o.id).dir then none
    else some ((s.put o.id { s.entry o.id with dir := true }).become p (some (.importClaimed o.id a)))
  | .importClaimed i a =>
    let m : Manifest := ⟨o.runtime, some a, some a, o.pending⟩
    some ((s.saveSet i m (some a)).become p (some (.importSaved i m)))
  | .importSaved i m => some ((s.upsertFromManifest i m).become p (some (.importRegistered i)))
  | .importRegistered _ => some (s.become p none)
  | .setCalled i r =>
    if s.free (.instance i) then some (s.become p (some (.setEntered i r))) else none
  | .setEntered i r =>
    match (s.entry i).manifest with
    | none => none
    | some m => some (s.become p (if r.mismatches m then none else some (.setLoaded i r m)))
  | .setLoaded i r m => afterLoad s p i r m o.saved
  | .setChecked i r m => afterCheck s p i r m o
  | .setSaved i r m => afterSave s p i r m
  | .updateCalled i =>
    if s.free (.instance i) then some (s.become p (some (.updateEntered i))) else none
  | .updateEntered i => (s.entry i).manifest.map (fun old => s.become p (some (.updateRead i old)))
  | .updateRead i old =>
    if s.free (.instance i) then some (s.become p (some (.updateLocked i old))) else none
  | .updateLocked i old =>
    (s.entry i).manifest.map (fun snapshot =>
      s.become p (some (.updateOpened i old snapshot (s.entry i).rows)))
  | .updateOpened i old snapshot oldRows =>
    let new := old.updated o.runtime o.pending
    some ((s.save i new).become p (some (.updateSaved i old snapshot oldRows new)))
  | .updateSaved i old snapshot oldRows new =>
    some ((s.upsertFromManifest i new).become p (some (.updateRegistered i old snapshot oldRows new)))
  | .updateRegistered _ _ _ _ _ => some (s.become p none)
  | .updateRestored i old oldRows =>
    some ((s.upsertFromManifest i old).become p (some (.updateUndone i oldRows)))
  | .updateUndone i oldRows =>
    match oldRows o.runtime with
    | none => none
    | some row =>
      if i ∈ s.instances then
        some ((s.upsertRow i o.runtime row).become p (some (.updateUndone i oldRows)))
      else none
  | .confirmEntered i =>
    if i ∈ s.instances then
      ((s.entry i).manifest.filter (·.pending)).map (fun old => s.become p (some (.confirmLoaded i old)))
    else none
  | .confirmLoaded i old =>
    some ((s.save i (old.confirmed o.runtime)).become p (some (.confirmSaved i old o.runtime)))
  | .confirmSaved i old runtime => some ((s.upsertFromManifest i (old.confirmed runtime)).become p none)
  | .restoreReady i latest =>
    if s.free .pathAlias then some (s.become p (some (.setCalled i (.restore latest)))) else none
  | .restoreFailed i latest =>
    some ((if o.saved then s.save i latest else s).become p (some (.restoreSaved i latest)))
  | .restoreSaved i latest => some ((s.upsertFromManifest i latest).become p none)
  | .removeEntered i => some ((s.deleteInstance i).become p (some (.removed i)))
  | .removed i => some ((if o.purge then s.purge i else s).become p none)

/-- An exception. An import removes what it made (`_cleanup_failed`), an update that has swapped the source
puts the manifest back (`_rollback_swapped_current`), and a restore goes to its failure branch. -/
def raise (s : State) (p : CallId) : Pc → Option State
  | .importClaimed i _ | .importSaved i _ | .importRegistered i =>
    some (((s.purge i).deleteInstance i).become p none)
  | .setCalled i r | .setEntered i r | .setLoaded i r _ | .setChecked i r _ | .setSaved i r _ =>
    some (s.become p (r.raised i))
  | .updateOpened i old snapshot oldRows | .updateSaved i old snapshot oldRows _
  | .updateRegistered i old snapshot oldRows _ =>
    some ((s.save i snapshot).become p (some (.updateRestored i old oldRows)))
  | .restoreReady i latest => some (s.become p (some (.restoreFailed i latest)))
  | _ => none

def step (s : State) : Action → Option State
  | .called p operation => if (s.calls p).isNone then begin s p operation else none
  | .proceeds p o => (s.calls p).bind (advance s p o)
  | .raises p => (s.calls p).bind (raise s p)
  | .ends p => (s.calls p).map (fun _ => s.become p none)

end LocalWebAccess.PathAliases
