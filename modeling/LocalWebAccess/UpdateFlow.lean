import LocalWebAccess.GuardedRuns
import Mathlib.Data.Nat.Notation

/-!
# The two phases of an update

`run_update_flow` fast-forwards the checkout it runs from, installs it and hands the Runtime phase
over to a new interpreter where its own source has changed; else it runs the phase itself. The
flows of all workspaces share the repository, in which other git processes work as well.
-/

namespace LocalWebAccess.UpdateFlow
open GuardedRuns

abbrev FlowId := ℕ
abbrev WorkspaceId := ℕ

/-- A commit of the repository. -/
abbrev Oid := ℕ

/-! ## The fast-forward -/

inductive Relation
  | equal
  | behind
  | ahead
  | diverged
  | unknown
  deriving DecidableEq

structure RepoStatus where
  head : Oid
  detached : Bool
  dirty : Bool
  relation : Relation

/-- `inspect_repo`, where git has told how the candidate relates to another commit. -/
def inspectRepo (head candidate : Oid) (relation : Relation) (dirty detached : Bool) : RepoStatus where
  head := head
  detached := detached
  dirty := dirty
  relation := if candidate = head then .equal else relation

inductive ErrorKind
  | detached
  | dirty
  | ahead
  | diverged
  | historyInsufficient
  | skipPipConflict
  deriving DecidableEq

/-- The checks of `apply_fast_forward`: whether there is something to merge. -/
def checkFastForward (status : RepoStatus) (skipPip : Bool) : Except ErrorKind Bool :=
  if status.relation = .equal then .ok false
  else if status.detached then .error .detached
  else if status.dirty then .error .dirty
  else if status.relation = .ahead then .error .ahead
  else if status.relation = .diverged then .error .diverged
  else if status.relation = .unknown then .error .historyInsufficient
  else if skipPip then .error .skipPipConflict
  else .ok true

/-! ## The flows -/

/-- The options of a flow and what it finds of the source: a root, git and a clone. -/
structure Setup where
  pull : Bool
  skipPip : Bool
  located : Bool
  gitAvailable : Bool
  cloned : Bool
  deriving DecidableEq

def Setup.sourceStage (setup : Setup) : Bool :=
  setup.pull && setup.located && setup.gitAvailable && setup.cloned

/-- Where a flow stands. `changed` holds the commits of a fast-forward that has succeeded. -/
inductive Pc
  | lockRepo
  | lockWorkspace
  | preflight
  | resolve
  | fetch
  | inspect (candidate : Oid)
  | merge (oldHead candidate : Oid)
  | readBack (oldHead candidate : Oid)
  | pip (changed : Option (Oid × Oid))
  | runtime
  | phase
  | launch (newHead : Oid)
  | waiting (newHead : Oid)
  | ended
  | killed
  deriving DecidableEq

/-- The continuation: `codeHead` is the HEAD that it has compared with the target of the
fast-forward, and `ack` the one that its last line of output reports. -/
inductive ChildPc
  | starting (newHead : Oid)
  | checked (codeHead : Oid)
  | phase (codeHead : Oid)
  | exited (ack : Option Oid)
  deriving DecidableEq

def ChildPc.running : ChildPc → Bool
  | .exited _ => false
  | _ => true

/-- The continuation and what HEAD was when it was launched. -/
structure Child where
  launchHead : Oid
  pc : ChildPc
  deriving DecidableEq

/-- `lockHead` is HEAD when the flow had its locks, and `target` the commit that it moves HEAD to. -/
structure Flow where
  workspace : WorkspaceId
  setup : Setup
  lockHead : Oid
  target : Option Oid
  pipOk : Bool
  child : Option Child
  pc : Pc
  deriving DecidableEq

def Flow.childRuns (flow : Flow) : Bool := flow.child.any fun child => child.pc.running

/-- A Runtime phase that has begun: HEAD at its start, and HEAD when its continuation was launched,
if it runs in one. -/
structure Phase where
  flow : FlowId
  lockHead : Oid
  head : Oid
  launchHead : Option Oid
  pipOk : Bool
  deriving DecidableEq

/-- A report that was taken over from a continuation. -/
structure Accepted where
  codeHead : Oid
  target : Option Oid
  deriving DecidableEq

structure State where
  head : Oid
  repoLock : Option FlowId
  workspaceLock : WorkspaceId → Option FlowId
  flows : FlowId → Option Flow
  phases : List Phase
  accepted : List Accepted

namespace State

def initial (head : Oid) : State where
  head := head
  repoLock := none
  workspaceLock := fun _ => none
  flows := fun _ => none
  phases := []
  accepted := []

def put (s : State) (f : FlowId) (flow : Flow) : State :=
  { s with flows := fun g => if g = f then some flow else s.flows g }

/-- `UpdateLocks.close`, or the end of the last process that has the files open. -/
def close (s : State) (f : FlowId) (w : WorkspaceId) : State :=
  { s with
    repoLock := if s.repoLock = some f then none else s.repoLock
    workspaceLock := fun v => if v = w ∧ s.workspaceLock v = some f then none else s.workspaceLock v }

/-- A flow returns or raises, and closes its locks on the way out. -/
def finish (s : State) (f : FlowId) (flow : Flow) : State :=
  (s.close f flow.workspace).put f { flow with pc := .ended }

end State

/-- What a step learns from outside. -/
inductive Answer
  | ok
  | fails
  | candidate (oid : Oid)
  | status (relation : Relation) (dirty detached : Bool)
  /-- `git merge --ff-only`: whether it moved HEAD and whether it reports success in time. -/
  | merged (moved ok : Bool)
  | ack (codeHead : Option Oid)
  deriving DecidableEq

/-! ## One step of a flow -/

/-- The locks. -/
def lockStep (s : State) (f : FlowId) (flow : Flow) : Option State :=
  match flow.pc with
  | .lockRepo =>
    if s.repoLock = none then some ({ s with repoLock := some f }.put f { flow with pc := .lockWorkspace })
    else some (s.finish f flow)
  | .lockWorkspace =>
    if s.workspaceLock flow.workspace = none then
      let held := { s with workspaceLock := fun v => if v = flow.workspace then some f else s.workspaceLock v }
      let locked := { flow with lockHead := s.head }
      if flow.setup.sourceStage then
        some (held.put f { locked with pc := if flow.setup.skipPip then .resolve else .preflight })
      else some (held.put f { locked with pc := .pip none })
    else some (s.finish f flow)
  | _ => none

/-- The source stage. -/
def sourceStep (s : State) (f : FlowId) (flow : Flow) (answer : Answer) : Option State :=
  match flow.pc with
  | .preflight => if answer = .fails then some (s.finish f flow) else some (s.put f { flow with pc := .resolve })
  | .resolve => some (s.put f { flow with pc := if answer = .fails then .pip none else .fetch })
  | .fetch =>
    match answer with
    | .candidate oid => some (s.put f { flow with pc := .inspect oid })
    | _ => some (s.put f { flow with pc := .pip none })
  | .inspect candidate =>
    match answer with
    | .status relation dirty detached =>
      match checkFastForward (inspectRepo s.head candidate relation dirty detached) flow.setup.skipPip with
      | .ok true => some (s.put f { flow with target := some candidate, pc := .merge s.head candidate })
      | _ => some (s.put f { flow with pc := .pip none })
    | _ => some (s.put f { flow with pc := .pip none })
  | .merge oldHead candidate =>
    match answer with
    | .merged moved ok =>
      some ({ s with head := if moved then candidate else s.head }.put f
        { flow with pc := if ok then .readBack oldHead candidate else .pip none })
    | _ => none
  | .readBack oldHead candidate =>
    if answer = .fails ∨ s.head ≠ candidate ∨ oldHead = s.head then some (s.put f { flow with pc := .pip none })
    else some (s.put f { flow with pc := .pip (some (oldHead, s.head)) })
  | _ => none

/-- pip and the Runtime phase in this process. -/
def runtimeStep (s : State) (f : FlowId) (flow : Flow) (answer : Answer) : Option State :=
  match flow.pc with
  | .pip changed =>
    let onward (pipOk : Bool) :=
      match changed with
      | none => s.put f { flow with pipOk := pipOk, pc := .runtime }
      | some (_, newHead) => s.put f { flow with pipOk := pipOk, pc := .launch newHead }
    if flow.setup.skipPip then some (onward false)
    else if answer = .fails then if changed = none then some (onward false) else some (s.finish f flow)
    else some (onward true)
  | .runtime =>
    if answer = .fails then some (s.finish f flow)
    else
      some ({ s with phases := ⟨f, flow.lockHead, s.head, none, flow.pipOk⟩ :: s.phases }.put f
        { flow with pc := .phase })
  | .phase => some (s.finish f flow)
  | _ => none

/-- `_launch_continuation` -/
def launchStep (s : State) (f : FlowId) (flow : Flow) (answer : Answer) : Option State :=
  match flow.pc with
  | .launch newHead =>
    if answer = .fails then some (s.finish f flow)
    else some (s.put f { flow with child := some ⟨s.head, .starting newHead⟩, pc := .waiting newHead })
  | .waiting newHead =>
    match flow.child with
    | none => none
    | some child =>
      match child.pc with
      | .exited none => some (s.finish f flow)
      | .exited (some codeHead) =>
        if codeHead = newHead then some ({ s with accepted := ⟨codeHead, flow.target⟩ :: s.accepted }.finish f flow)
        else some (s.finish f flow)
      -- a continuation that takes too long is killed before the locks are closed
      | _ =>
        if answer = .fails then some (s.finish f { flow with child := some { child with pc := .exited none } })
        else none
  | _ => none

def advance (s : State) (f : FlowId) (flow : Flow) (answer : Answer) : Option State :=
  match flow.pc with
  | .lockRepo | .lockWorkspace => lockStep s f flow
  | .preflight | .resolve | .fetch | .inspect _ | .merge _ _ | .readBack _ _ => sourceStep s f flow answer
  | .pip _ | .runtime | .phase => runtimeStep s f flow answer
  | .launch _ | .waiting _ => launchStep s f flow answer
  | .ended | .killed => none

/-! ## The continuation -/

/-- The end of a continuation: its copy of the locks was the last one if the flow was killed. -/
def State.childExits (s : State) (f : FlowId) (flow : Flow) (child : Child) (ack : Option Oid) : State :=
  (if flow.pc = .killed then s.close f flow.workspace else s).put f
    { flow with child := some { child with pc := .exited ack } }

/-- `update_continuation.main` -/
def childStep (s : State) (f : FlowId) (flow : Flow) (child : Child) (answer : Answer) : Option State :=
  match child.pc with
  | .starting newHead =>
    if answer = .fails ∨ s.head ≠ newHead then some (s.childExits f flow child none)
    else some (s.put f { flow with child := some { child with pc := .checked s.head } })
  | .checked codeHead =>
    if answer = .fails then some (s.childExits f flow child none)
    else
      some ({ s with phases := ⟨f, flow.lockHead, s.head, some child.launchHead, flow.pipOk⟩ :: s.phases }.put f
        { flow with child := some { child with pc := .phase codeHead } })
  | .phase _ =>
    match answer with
    | .ack codeHead => some (s.childExits f flow child codeHead)
    | _ => none
  | .exited _ => none

/-! ## All processes -/

inductive Action
  | begin (f : FlowId) (w : WorkspaceId) (setup : Setup)
  | advance (f : FlowId) (answer : Answer)
  | continuation (f : FlowId) (answer : Answer)
  /-- Another git process moves HEAD. -/
  | gitMoves (oid : Oid)
  /-- The process of a flow is killed: the kernel closes its files, but a continuation has them open
  as well. -/
  | kill (f : FlowId)
  /-- An exception from outside, such as a keyboard interrupt, ends a flow by way of its `finally`. -/
  | interrupt (f : FlowId)

def step (s : State) : Action → Option State
  | .begin f w setup =>
    if s.flows f = none then
      some (s.put f ⟨w, setup, s.head, none, false, none, if setup.sourceStage then .lockRepo else .lockWorkspace⟩)
    else none
  | .advance f answer =>
    match s.flows f with
    | none => none
    | some flow => advance s f flow answer
  | .continuation f answer =>
    match s.flows f with
    | none => none
    | some flow =>
      match flow.child with
      | none => none
      | some child => childStep s f flow child answer
  | .gitMoves oid => some { s with head := oid }
  | .kill f =>
    match s.flows f with
    | none => none
    | some flow =>
      if flow.pc = .ended ∨ flow.pc = .killed then none
      else
        some ((if flow.childRuns then s else s.close f flow.workspace).put f { flow with pc := .killed })
  | .interrupt f =>
    match s.flows f with
    | none => none
    | some flow => if flow.pc = .ended ∨ flow.pc = .killed then none else some (s.finish f flow)

end LocalWebAccess.UpdateFlow
