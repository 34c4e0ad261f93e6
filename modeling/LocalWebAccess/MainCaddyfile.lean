import LocalWebAccess.GuardedRuns
import Mathlib.Data.Nat.Notation

/-!
# The main Caddyfile and its fragments

The main Caddyfile imports a fragment for each site and each path alias. It is written by
`reload_all`, `write_main_config` and `_sync_main_config` under one lock, always from the fragments
on disk; the fragments themselves are written and removed by many operations, not all of them under
that lock. An operation is a program of effects on these files, each of which may fail, and the
programs of all operations run interleaved. The locks of instances and of path aliases are left out,
so that operations may overlap in any way.
-/

namespace LocalWebAccess.MainCaddyfile
open GuardedRuns

abbrev InstanceId := ℕ
abbrev CallId := ℕ

/-- The text of a fragment. -/
abbrev Content := ℕ

/-- `sites/<id>.conf` or `aliases/<id>.conf` -/
inductive Fragment
  | siteOf (i : InstanceId)
  | aliasOf (i : InstanceId)
  deriving DecidableEq

def Fragment.owner : Fragment → InstanceId
  | .siteOf i => i
  | .aliasOf i => i

abbrev Files := Fragment → Option Content

/-- How often a Caddyfile imports each fragment. -/
abbrev Imports := Fragment → ℕ

structure Config where
  tls : Bool
  staticGatewayPort : Option ℕ
  gatewayPlainPort : Option ℕ

/-- The entries that import every alias. -/
def Config.aliasEntries (config : Config) : ℕ :=
  if config.tls then 1 + (if config.gatewayPlainPort.isSome then 1 else 0)
  else if config.staticGatewayPort.isSome then 1 else 0

/-- `_assemble_main_config` -/
def assembleMainConfig (config : Config) (files : Files) : Imports := fun x =>
  if (files x).isSome then
    match x with
    | .siteOf _ => 1
    | .aliasOf _ => config.aliasEntries
  else 0

/-! ## Programs of effects -/

/-- How a call ends. -/
inductive Outcome
  | ok
  /-- It raises as a reload has failed. -/
  | reloadFailed
  /-- It raises for another reason. -/
  | raised
  deriving DecidableEq

/-- What a change of a fragment is for. -/
inductive Role
  | plain
  /-- It puts back what an operation whose reload has failed had found. -/
  | restore
  /-- It writes a fragment that such an operation had not found. -/
  | invent
  deriving DecidableEq

inductive Prog
  | done (outcome : Outcome)
  | read (x : Fragment) (next : Option Content → Prog)
  /-- Reads all fragments. -/
  | list (next : Files → Prog)
  | change (role : Role) (x : Fragment) (v : Option Content) (ok failed : Prog)
  /-- Asks something of the world outside these files. -/
  | ask (yes no : Prog)
  | lock (held timeout : Prog)
  | unlock (next : Prog)
  /-- The row of an instance is deleted. -/
  | delete (i : InstanceId) (next : Prog)
  /-- Writes the main Caddyfile from the fragments and may reload it. It fails before anything is
  written or in the reload, and breaks at a file. -/
  | regenerate (reload : Bool) (ok failed broken : Prog)
  | writing (reload : Bool) (previous : Option Imports) (content : Imports) (ok failed broken : Prog)
  | reloading (previous : Option Imports) (content : Imports) (ok failed broken : Prog)
  | undoing (previous : Option Imports) (failed broken : Prog)

inductive Backend
  | caddy
  | builtin
  deriving DecidableEq

/-- `reload_all` of a caller that does not hold the lock -/
def reloadAll (ok failed broken : Prog) : Prog :=
  .lock (.regenerate true (.unlock ok) (.unlock failed) (.unlock broken)) failed

/-- `write_main_config` and `_sync_main_config`, whose reload changes no file -/
def writeMainConfig (ok failed : Prog) : Prog :=
  .lock (.regenerate false (.unlock ok) (.unlock failed) (.unlock failed)) failed

/-! ## Sites -/

/-- `_restore_after_enable_failure`, whose own errors are dropped -/
def restoreAfterEnableFailure (backend : Backend) (i : InstanceId) (prevSite prevAlias : Option Content)
    (role : Role) (raising : Prog) : Prog :=
  let leave := Prog.unlock raising
  let restart :=
    match backend with
    | .caddy => .regenerate false (if prevSite.isSome then .regenerate true leave leave leave else leave) leave leave
    | .builtin => leave
  let restore := Prog.change role (.siteOf i) prevSite (.change role (.aliasOf i) prevAlias restart leave) leave
  match backend with
  | .caddy => restore
  | .builtin => .ask restore leave

/-- `enable` -/
def enable (backend : Backend) (i : InstanceId) (site : Content) (route : Option Content)
    (ok raised reloadFailed : Prog) : Prog :=
  .lock
    (.ask
      (.read (.siteOf i) fun prevSite => .read (.aliasOf i) fun prevAlias =>
        let failed := restoreAfterEnableFailure backend i prevSite prevAlias .plain raised
        let start :=
          match backend with
          | .caddy =>
            .regenerate true (.unlock ok)
              (restoreAfterEnableFailure backend i prevSite prevAlias .restore reloadFailed) failed
          | .builtin => .ask (.unlock ok) failed
        .change .plain (.siteOf i) (some site)
          (match backend, route with
          | .caddy, some route => .change .plain (.aliasOf i) (some route) start failed
          | _, _ => start)
          failed)
      (.unlock raised))
    raised

/-- `disable` -/
def disable (backend : Backend) (i : InstanceId) : Prog :=
  let leave := Prog.unlock (.done .raised)
  .lock
    (.ask
      (.change .plain (.siteOf i) none
        (.change .plain (.aliasOf i) none
          (match backend with
          | .caddy => .regenerate false (.unlock (.done .ok)) leave leave
          | .builtin => .unlock (.done .ok))
          leave)
        leave)
      leave)
    (.done .raised)

/-! ## Path aliases -/

/-- `_rollback_alias_config`; `previousAlias` is the text of the fragment that it would generate. -/
def rollbackAliasConfig (i : InstanceId) (previousAlias previousFragment : Option Content) (undo remake : Role)
    (ok failed : Prog) : Prog :=
  match previousFragment with
  | some fragment => .change undo (.aliasOf i) (some fragment) ok failed
  | none =>
    .read (.aliasOf i) fun now =>
      match now, previousAlias with
      | some _, _ => .change undo (.aliasOf i) none ok failed
      | none, some fragment => .change remake (.aliasOf i) (some fragment) ok failed
      | none, none => ok

/-- `_apply_gateway_alias` of a container (`static = false`) or a static site -/
def applyGatewayAlias (backend : Backend) (static : Bool) (i : InstanceId) (route previousAlias : Option Content) :
    Prog :=
  let apply :=
    match backend with
    | .caddy =>
      Prog.read (.aliasOf i) fun previous =>
        .change .plain (.aliasOf i) route
          (reloadAll (.done .ok)
            (rollbackAliasConfig i previousAlias previous .restore .invent (.done .reloadFailed) (.done .raised))
            (.done .raised))
          (.done .raised)
    | .builtin => .change .plain (.aliasOf i) none (.done .ok) (.done .raised)
  .ask
    (match static, backend with
    | false, _ => apply
    | true, .caddy => .read (.siteOf i) fun site => if site.isSome then apply else .done .ok
    | true, .builtin => .ask apply (.done .ok))
    (.done .raised)

/-- `_rollback_alias_after_failed_live_verify` and its deferred form -/
def rollbackAlias (i : InstanceId) (previousAlias previousFragment : Option Content) : Prog :=
  rollbackAliasConfig i previousAlias previousFragment .plain .plain
    (reloadAll (.done .ok) (.done .ok) (.done .raised)) (.done .raised)

/-- `cleanup_instance_routes` in the removal of an instance, which drops its errors -/
def removeInstance (backend : Backend) (i : InstanceId) : Prog :=
  let removed := Prog.delete i (.done .ok)
  .change .plain (.aliasOf i) none
    (match backend with
    | .caddy => writeMainConfig removed removed
    | .builtin => removed)
    removed

/-! ## The switch -/

/-- `start_gateway`: what it does to these files -/
def startGateway (ok failed : Prog) : Prog :=
  let verify := Prog.ask ok failed
  .ask (writeMainConfig (.ask (reloadAll verify verify verify) verify) failed) failed

/-- `_enable_running_builtin` -/
def enableRunningBuiltin (ok failed : Prog) : List (InstanceId × Content) → Prog
  | [] => ok
  | (i, site) :: rest => enable .builtin i site none (enableRunningBuiltin ok failed rest) failed failed

/-- The fragments that `_rebuild_caddy_aliases` writes. -/
def generateAliases (ok failed : Prog) : List (InstanceId × Content) → Prog
  | [] => ok
  | (i, route) :: rest => .change .plain (.aliasOf i) (some route) (generateAliases ok failed rest) failed

/-- `_rebuild_caddy_aliases` -/
def rebuildCaddyAliases (aliases : List (InstanceId × Content)) (ok failed : Prog) : Prog :=
  let retry := writeMainConfig (reloadAll ok failed failed) failed
  generateAliases (if aliases.isEmpty then ok else reloadAll ok retry retry) failed aliases

/-- `_restore_snapshot`: a fragment that cannot be removed is left. -/
def restoreSnapshot (snap : Files) (ok failed : Prog) : List Fragment → Prog
  | [] => ok
  | x :: rest =>
    let next := restoreSnapshot snap ok failed rest
    .change .plain x (snap x) next (if (snap x).isSome then failed else next)

/-- What a switch finds: the fragments before and after, the running sites and the aliases. -/
structure SwitchPlan where
  target : Backend
  fragments : List Fragment
  sites : List (InstanceId × Content)
  aliases : List (InstanceId × Content)

/-- `_rollback` -/
def rollbackSwitch (plan : SwitchPlan) (snap : Files) : Prog :=
  let finished := Prog.done .ok
  restoreSnapshot snap
    (match plan.target with
    | .builtin => startGateway finished finished
    | .caddy => .ask (enableRunningBuiltin finished finished plan.sites) finished)
    finished plan.fragments

/-- `_switch_gateway_locked`, which returns its errors -/
def switchGateway (plan : SwitchPlan) : Prog :=
  .list fun snap =>
    let failed := rollbackSwitch plan snap
    let finish := Prog.ask (.done .ok) failed
    match plan.target with
    | .builtin => .ask (enableRunningBuiltin finish failed plan.sites) failed
    | .caddy => startGateway (rebuildCaddyAliases plan.aliases finish failed) failed

inductive Op
  | enable (backend : Backend) (i : InstanceId) (site : Content) (route : Option Content)
  | disable (backend : Backend) (i : InstanceId)
  | apply (backend : Backend) (static : Bool) (i : InstanceId) (route previousAlias : Option Content)
  | rollback (i : InstanceId) (previousAlias previousFragment : Option Content)
  | remove (backend : Backend) (i : InstanceId)
  | switch (plan : SwitchPlan)

def Op.prog : Op → Prog
  | .enable backend i site route =>
    MainCaddyfile.enable backend i site route (.done .ok) (.done .raised) (.done .reloadFailed)
  | .disable backend i => MainCaddyfile.disable backend i
  | .apply backend static i route previousAlias => applyGatewayAlias backend static i route previousAlias
  | .rollback i previousAlias previousFragment => rollbackAlias i previousAlias previousFragment
  | .remove backend i => removeInstance backend i
  | .switch plan => switchGateway plan

/-- The fragments of an operation. -/
def Op.owns (op : Op) (x : Fragment) : Bool :=
  match op with
  | .enable _ i _ _ | .disable _ i | .apply _ _ i _ _ | .rollback i _ _ | .remove _ i => x.owner == i
  | .switch _ => true

/-! ## Runs -/

structure Disk where
  main : Option Imports
  files : Files

/-- A call in progress. `unsettled` are the fragments that it has made or removed since it last brought
the main Caddyfile up to date. -/
structure Call where
  op : Op
  before : Disk
  unsettled : List Fragment
  prog : Prog

/-- A call that has raised as its reload had failed; `overlap` are the fragments of the operations
that were in progress at some time between its start and its end. -/
structure Raised where
  op : Op
  overlap : Fragment → Prop
  before : Disk
  after : Disk

structure State where
  config : Config
  disk : Disk
  lock : Option CallId
  calls : CallId → Option Call
  overlap : CallId → Fragment → Prop
  removed : InstanceId → Bool
  raised : List Raised

namespace State

def initial (config : Config) : State where
  config := config
  disk := ⟨none, fun _ => none⟩
  lock := none
  calls := fun _ => none
  overlap := fun _ _ => False
  removed := fun _ => false
  raised := []

def put (s : State) (c : CallId) (call : Call) : State :=
  { s with calls := fun d => if d = c then some call else s.calls d }

def goto (s : State) (c : CallId) (call : Call) (prog : Prog) : State := s.put c { call with prog := prog }

/-- A file is written or removed. -/
def change (s : State) (c : CallId) (call : Call) (x : Fragment) (v : Option Content) (next : Prog) : State :=
  { s with disk := { s.disk with files := fun y => if y = x then v else s.disk.files y } }.put c
    { call with
      unsettled := if (s.disk.files x).isSome = v.isSome then call.unsettled else x :: call.unsettled
      prog := next }

/-- The main Caddyfile is written. -/
def write (s : State) (main : Option Imports) : State := { s with disk := { s.disk with main := main } }

/-- The main Caddyfile is up to date with what the call has done. -/
def settle (s : State) (c : CallId) (call : Call) (next : Prog) : State :=
  s.put c { call with unsettled := [], prog := next }

/-- A call of an operation begins. -/
def begin (s : State) (c : CallId) (op : Op) : State :=
  { s with
    calls := fun d => if d = c then some ⟨op, s.disk, [], op.prog⟩ else s.calls d
    overlap := fun d x =>
      if d = c then ∃ e other, s.calls e = some other ∧ other.op.owns x = true else s.overlap d x ∨ op.owns x = true }

def finish (s : State) (c : CallId) (call : Call) (outcome : Outcome) : State :=
  { s with
    calls := fun d => if d = c then none else s.calls d
    raised :=
      if outcome = .reloadFailed then ⟨call.op, s.overlap c, call.before, s.disk⟩ :: s.raised else s.raised }

end State

inductive Answer
  | ok
  | fails
  /-- A write that fails and leaves this. -/
  | leaves (v : Content)
  | breaks
  deriving DecidableEq

def advance (s : State) (c : CallId) (call : Call) (answer : Answer) : Option State :=
  match call.prog, answer with
  | .done outcome, .ok => some (s.finish c call outcome)
  | .read x next, .ok => some (s.goto c call (next (s.disk.files x)))
  | .list next, .ok => some (s.goto c call (next s.disk.files))
  | .change _ x v ok _, .ok => some (s.change c call x v ok)
  | .change _ _ _ _ failed, .fails => some (s.goto c call failed)
  | .change _ x (some _) _ failed, .leaves v => some (s.change c call x (some v) failed)
  | .ask yes _, .ok => some (s.goto c call yes)
  | .ask _ no, .fails => some (s.goto c call no)
  | .lock held _, .ok => if s.lock = none then some ({ s with lock := some c }.goto c call held) else none
  | .lock _ timeout, .fails => some (s.goto c call timeout)
  | .unlock next, .ok => if s.lock = some c then some ({ s with lock := none }.goto c call next) else none
  | .delete i next, .ok =>
    some ({ s with removed := fun j => if j = i then true else s.removed j }.goto c call next)
  | .regenerate reload ok failed broken, .ok =>
    if s.lock = some c then
      some (s.goto c call
        (.writing reload s.disk.main (assembleMainConfig s.config s.disk.files) ok failed broken))
    else none
  | .regenerate _ _ failed _, .fails => some (s.goto c call failed)
  | .regenerate _ _ _ broken, .breaks => some (s.goto c call broken)
  | .writing true previous content ok failed broken, .ok =>
    some ((s.write (some content)).goto c call (.reloading previous content ok failed broken))
  | .writing false _ content ok _ _, .ok => some ((s.write (some content)).settle c call ok)
  | .writing _ _ _ _ _ broken, .breaks => some (s.goto c call broken)
  | .reloading _ _ ok _ _, .ok => some (s.settle c call ok)
  | .reloading previous _ _ failed broken, .fails => some (s.goto c call (.undoing previous failed broken))
  | .undoing previous failed _, .ok => some ((s.write previous).goto c call failed)
  -- a file that cannot be removed is left
  | .undoing none failed _, .breaks => some (s.goto c call failed)
  | .undoing (some _) _ broken, .breaks => some (s.goto c call broken)
  | _, _ => none

inductive Action
  | begin (c : CallId) (op : Op)
  | advance (c : CallId) (answer : Answer)
  /-- An instance is registered. -/
  | create (i : InstanceId)

def step (s : State) : Action → Option State
  | .begin c op => if (s.calls c).isNone then some (s.begin c op) else none
  | .advance c answer =>
    match s.calls c with
    | none => none
    | some call => advance s c call answer
  | .create i => some { s with removed := fun j => if j = i then false else s.removed j }

end LocalWebAccess.MainCaddyfile
