import LocalWebAccess.UpdateFlow

/-!
# The Runtime phase runs on the code it was started with

A flow remembers whether HEAD has changed in a value that only a fast-forward without any failure
sets. Where it goes on without that value, HEAD may still have moved.
-/

namespace LocalWebAccess.UpdateFlow
open GuardedRuns

/-- The flow is past its locks. -/
def Pc.locked : Pc → Bool
  | .lockRepo | .lockWorkspace | .ended | .killed => false
  | _ => true

/-- The flow or its continuation is at work between the locks and the end of the Runtime phase. -/
def Flow.works (flow : Flow) : Bool := flow.pc.locked || flow.childRuns

structure UpdateSafe (s : State) : Prop where
  /-- On a changed checkout the phase runs in a continuation that was started on it, after pip. -/
  phases : ∀ phase ∈ s.phases, phase.head ≠ phase.lockHead →
    phase.launchHead = some phase.head ∧ phase.pipOk = true
  /-- An accepted report comes from the code that the flow moved to. -/
  accepted : ∀ report ∈ s.accepted, report.target = some report.codeHead
  /-- The workspace lock is the working flow's. -/
  locked : ∀ f flow, s.flows f = some flow → flow.works = true → s.workspaceLock flow.workspace = some f
  /-- No two flows work on one workspace. -/
  alone : ∀ f g flow other, s.flows f = some flow → s.flows g = some other → flow.works = true →
    other.works = true → flow.workspace = other.workspace → f = g

/-- The flow has settled to run the phase itself. -/
def Pc.inline : Pc → Bool
  | .pip none | .runtime => true
  | _ => false

/-- The continuation has not begun the phase. -/
def ChildPc.waits : ChildPc → Bool
  | .starting _ | .checked _ => true
  | _ => false

/-- The flow relies on HEAD as it is: it has settled on an inline phase, or its continuation is on the
way. -/
def Flow.relies (flow : Flow) : Bool := flow.pc.inline || flow.child.any fun child => child.pc.waits

/-- The step in which a flow goes on without a fast-forward. -/
def GivesUp (s : State) (flow : Flow) (answer : Answer) : Prop :=
  match flow.pc, answer with
  | .resolve, answer => answer = .fails
  | .fetch, .candidate _ => False
  | .fetch, _ => True
  | .inspect candidate, .status relation dirty detached =>
    checkFastForward (inspectRepo s.head candidate relation dirty detached) flow.setup.skipPip ≠ .ok true
  | .inspect _, _ => True
  | .merge _ _, .merged _ ok => ok = false
  | .readBack oldHead candidate, answer => answer = .fails ∨ s.head ≠ candidate ∨ oldHead = s.head
  | _, _ => False

/-- HEAD after the step of a flow. -/
def headAfter (s : State) (flow : Flow) (answer : Answer) : Oid :=
  match flow.pc, answer with
  | .merge _ candidate, .merged true _ => candidate
  | _, _ => s.head

/-- A flow goes on without a fast-forward only where HEAD is what it was at its locks; HEAD does not
move under a flow that relies on it; and no flow is interrupted while its continuation runs. -/
def Guard (s : State) : Action → Prop
  | .advance f answer => ∀ flow, s.flows f = some flow →
      (GivesUp s flow answer → headAfter s flow answer = flow.lockHead) ∧
        ∀ g other, g ≠ f → s.flows g = some other → other.relies = true → headAfter s flow answer = s.head
  | .gitMoves oid => ∀ g other, s.flows g = some other → other.relies = true → oid = s.head
  | .interrupt f => ∀ flow, s.flows f = some flow → flow.childRuns = false
  | _ => True

/-! ## The invariant -/

/-- What a flow has come to know where it stands. -/
def Place (flow : Flow) : Prop :=
  match flow.pc with
  | .merge _ candidate | .readBack _ candidate =>
    flow.target = some candidate ∧ flow.setup.skipPip = false ∧ flow.child = none
  | .pip (some (_, newHead)) => flow.target = some newHead ∧ flow.setup.skipPip = false ∧ flow.child = none
  | .launch newHead => flow.target = some newHead ∧ flow.pipOk = true ∧ flow.child = none
  | .waiting newHead => flow.target = some newHead ∧ (flow.childRuns = true → flow.pipOk = true)
  | .ended | .killed => flow.childRuns = true → flow.pipOk = true
  | _ => flow.child = none

structure Fact (head : Oid) (flow : Flow) : Prop where
  inline : flow.pc.inline = true → head = flow.lockHead
  child : ∀ child, flow.child = some child → child.pc.waits = true → head = child.launchHead
  place : Place flow

structure Inv (s : State) : Prop where
  fact : ∀ f flow, s.flows f = some flow → Fact s.head flow
  locked : ∀ f flow, s.flows f = some flow → flow.works = true → s.workspaceLock flow.workspace = some f
  phases : ∀ phase ∈ s.phases, phase.head ≠ phase.lockHead →
    phase.launchHead = some phase.head ∧ phase.pipOk = true
  accepted : ∀ report ∈ s.accepted, report.target = some report.codeHead

variable {s s' t : State} {f g : FlowId} {flow flow' other : Flow} {answer : Answer} {w : WorkspaceId}

theorem Fact.keeps {head head' : Oid} (fact : Fact head flow) (same : flow.relies = true → head' = head) :
    Fact head' flow := by
  refine ⟨fun inline => ?_, fun child is waits => ?_, fact.place⟩
  · rw [same (by rw [Flow.relies, inline, Bool.true_or])]
    exact fact.inline inline
  · have relies : flow.relies = true := by
      rw [Flow.relies, is, Option.any_some, waits, Bool.or_true]
    rw [same relies]
    exact fact.child child is waits

/-- A step of one flow. -/
theorem Inv.put (h : Inv s) (flows : s'.flows = s.flows) (fact : Fact s'.head flow')
    (keeps : ∀ g other, g ≠ f → s.flows g = some other → other.relies = true → s'.head = s.head)
    (own : flow'.works = true → s'.workspaceLock flow'.workspace = some f)
    (others : ∀ g other, g ≠ f → s.flows g = some other → other.works = true →
      s'.workspaceLock other.workspace = some g)
    (phases : ∀ phase ∈ s'.phases, phase.head ≠ phase.lockHead →
      phase.launchHead = some phase.head ∧ phase.pipOk = true)
    (accepted : ∀ report ∈ s'.accepted, report.target = some report.codeHead) : Inv (s'.put f flow') := by
  have split : ∀ g other, (s'.put f flow').flows g = some other →
      (g = f ∧ other = flow') ∨ (g ≠ f ∧ s.flows g = some other) := by
    rw [← flows]
    exact fun _ _ => entry_cases
  refine ⟨?_, ?_, phases, accepted⟩
  · intro g other theirs
    rcases split g other theirs with ⟨rfl, rfl⟩ | ⟨far, before⟩
    · exact fact
    · exact (h.fact g other before).keeps (keeps g other far before)
  · intro g other theirs works
    rcases split g other theirs with ⟨rfl, rfl⟩ | ⟨far, before⟩
    · exact own works
    · exact others g other far before works

/-- A step that only moves the flow on. -/
theorem Inv.moves (h : Inv s) (mine : s.flows f = some flow) (workspace : flow'.workspace = flow.workspace)
    (works : flow'.works = true → flow.works = true) (fact : Fact s.head flow') : Inv (s.put f flow') := by
  refine h.put rfl fact (fun _ _ _ _ _ => rfl) (fun working => ?_) (fun g other _ theirs working => ?_) h.phases
    h.accepted
  · rw [workspace]
    exact h.locked f flow mine (works working)
  · exact h.locked g other theirs working

/-- The locks of a flow are released: no other flow works with them. -/
theorem Inv.closes (h : Inv s) (w : WorkspaceId) (idle : flow'.works = false) (fact : Fact s.head flow') :
    Inv ((s.close f w).put f flow') := by
  refine h.put rfl fact (fun _ _ _ _ _ => rfl) (fun working => ?_) (fun g other far theirs working => ?_) h.phases
    h.accepted
  · cases idle.symm.trans working
  · have held := h.locked g other theirs working
    have kept : ¬ (other.workspace = w ∧ s.workspaceLock other.workspace = some f) := by
      rintro ⟨-, mine⟩
      exact far (Option.some.inj (held.symm.trans mine))
    exact (if_neg kept).trans held

theorem Inv.finishes (h : Inv s) (mine : s.flows f = some flow) (idle : flow.childRuns = false) :
    Inv (s.finish f flow) := by
  have fact := h.fact f flow mine
  refine h.closes _ idle ⟨fun inline => (by cases inline), fact.child, fun runs => ?_⟩
  cases idle.symm.trans runs

/-- A flow without a continuation, at a place where it does not rely on HEAD. -/
theorem Fact.of_plain {head : Oid} (plain : flow.pc.inline = false) (childless : flow.child = none)
    (place : Place flow) : Fact head flow := by
  refine ⟨fun inline => (by cases plain.symm.trans inline), fun child is => ?_, place⟩
  cases childless.symm.trans is

/-- A flow settles on an inline phase. -/
theorem Fact.of_inline {head : Oid} (unmoved : head = flow.lockHead) (childless : flow.child = none)
    (place : Place flow) : Fact head flow := by
  refine ⟨fun _ => unmoved, fun child is => ?_, place⟩
  cases childless.symm.trans is

theorem Inv.repoLock (h : Inv s) (holder : Option FlowId) : Inv { s with repoLock := holder } :=
  ⟨h.fact, h.locked, h.phases, h.accepted⟩

/-! ## The steps -/

theorem lockStep_inv (h : Inv s) (mine : s.flows f = some flow) (taken : lockStep s f flow = some t) : Inv t := by
  rcases flow with ⟨w, setup, lockHead, target, pipOk, child, pc⟩
  have place := (h.fact f _ mine).place
  cases pc <;> simp only [lockStep] at taken
  case lockRepo =>
    obtain rfl : child = none := place
    split_ifs at taken <;> cases taken
    · exact (h.repoLock (some f)).moves mine rfl id (.of_plain rfl rfl rfl)
    · exact h.finishes mine rfl
  case lockWorkspace =>
    obtain rfl : child = none := place
    -- whoever works on the workspace would hold the lock
    have others (free : s.workspaceLock w = none) : ∀ g other, g ≠ f → s.flows g = some other → other.works = true →
        (if other.workspace = w then some f else s.workspaceLock other.workspace) = some g := by
      intro g other far theirs works
      have held := h.locked g other theirs works
      have elsewhere : other.workspace ≠ w := by
        rintro same
        rw [same, free] at held
        cases held
      rw [if_neg elsewhere]
      exact held
    have acquires {pc : Pc} (free : s.workspaceLock w = none)
        (fact : Fact s.head ⟨w, setup, s.head, target, pipOk, none, pc⟩) :
        Inv ({ s with workspaceLock := fun v => if v = w then some f else s.workspaceLock v }.put f
          ⟨w, setup, s.head, target, pipOk, none, pc⟩) :=
      h.put rfl fact (fun _ _ _ _ _ => rfl) (fun _ => if_pos rfl) (others free) h.phases h.accepted
    split_ifs at taken with free stage skips <;> cases taken
    · exact acquires free (.of_plain rfl rfl rfl)
    · exact acquires free (.of_plain rfl rfl rfl)
    · exact acquires free (.of_inline rfl rfl rfl)
    · exact h.finishes mine rfl
  all_goals cases taken

theorem skipPip_of_merge {status : RepoStatus} {skipPip : Bool} (checked : checkFastForward status skipPip = .ok true) :
    skipPip = false := by
  cases skipPip
  · rfl
  · unfold checkFastForward at checked
    split_ifs at checked with _ _ _ _ _ _ installs <;> first | exact absurd rfl installs | cases checked

theorem sourceStep_inv (h : Inv s) (mine : s.flows f = some flow)
    (unmoved : GivesUp s flow answer → headAfter s flow answer = flow.lockHead)
    (keeps : ∀ g other, g ≠ f → s.flows g = some other → other.relies = true → headAfter s flow answer = s.head)
    (taken : sourceStep s f flow answer = some t) : Inv t := by
  rcases flow with ⟨w, setup, lockHead, target, pipOk, child, pc⟩
  have place := (h.fact f _ mine).place
  cases pc <;> simp only [sourceStep] at taken
  case preflight =>
    obtain rfl : child = none := place
    split_ifs at taken <;> cases taken
    · exact h.finishes mine rfl
    · exact h.moves mine rfl (fun _ => rfl) (.of_plain rfl rfl rfl)
  case resolve =>
    obtain rfl : child = none := place
    cases taken
    split
    · rename_i failed
      exact h.moves mine rfl (fun _ => rfl) (.of_inline (unmoved failed) rfl rfl)
    · exact h.moves mine rfl (fun _ => rfl) (.of_plain rfl rfl rfl)
  case fetch =>
    obtain rfl : child = none := place
    cases answer <;> cases taken
    case candidate oid => exact h.moves mine rfl (fun _ => rfl) (.of_plain rfl rfl rfl)
    all_goals exact h.moves mine rfl (fun _ => rfl) (.of_inline (unmoved trivial) rfl rfl)
  case inspect candidate =>
    obtain rfl : child = none := place
    cases answer
    case status relation dirty detached =>
      dsimp only at taken
      split at taken
      · rename_i checked
        cases taken
        exact h.moves mine rfl (fun _ => rfl) (.of_plain rfl rfl ⟨rfl, skipPip_of_merge checked, rfl⟩)
      · rename_i refused
        cases taken
        exact h.moves mine rfl (fun _ => rfl) (.of_inline (unmoved refused) rfl rfl)
    all_goals
      cases taken
      exact h.moves mine rfl (fun _ => rfl) (.of_inline (unmoved trivial) rfl rfl)
  case merge oldHead candidate =>
    obtain ⟨aims, installs, rfl⟩ : target = some candidate ∧ setup.skipPip = false ∧ child = none := place
    cases answer
    case merged moved ok =>
      cases taken
      have after : headAfter s ⟨w, setup, lockHead, target, pipOk, none, .merge oldHead candidate⟩ (.merged moved ok) =
          if moved then candidate else s.head := by cases moved <;> rfl
      rw [after] at keeps
      have held := h.locked f _ mine rfl
      refine h.put rfl ?_ keeps (fun _ => held) (fun g other _ theirs works => h.locked g other theirs works)
        h.phases h.accepted
      cases ok
      · rw [after] at unmoved
        exact .of_inline (unmoved rfl) rfl rfl
      · exact .of_plain rfl rfl ⟨aims, installs, rfl⟩
    all_goals cases taken
  case readBack oldHead candidate =>
    obtain ⟨aims, installs, rfl⟩ : target = some candidate ∧ setup.skipPip = false ∧ child = none := place
    split_ifs at taken with failed <;> cases taken
    · exact h.moves mine rfl (fun _ => rfl) (.of_inline (unmoved failed) rfl rfl)
    · have reached : s.head = candidate := by
        by_contra other
        exact failed (.inr (.inl other))
      refine h.moves mine rfl (fun _ => rfl) (.of_plain rfl rfl ⟨?_, installs, rfl⟩)
      rw [reached]
      exact aims
  all_goals cases taken

theorem runtimeStep_inv (h : Inv s) (mine : s.flows f = some flow) (taken : runtimeStep s f flow answer = some t) :
    Inv t := by
  rcases flow with ⟨w, setup, lockHead, target, pipOk, child, pc⟩
  have fact := h.fact f _ mine
  cases pc <;> simp only [runtimeStep] at taken
  case pip changed =>
    rcases changed with _ | ⟨oldHead, newHead⟩
    · obtain rfl : child = none := fact.place
      have onward (pipOk : Bool) : Inv (s.put f ⟨w, setup, lockHead, target, pipOk, none, .runtime⟩) :=
        h.moves mine rfl (fun _ => rfl) (.of_inline (fact.inline rfl) rfl rfl)
      split_ifs at taken with skips failed same <;> cases taken
      · exact onward false
      · exact onward false
      · exact absurd rfl same
      · exact onward true
    · obtain ⟨aims, installs, rfl⟩ : target = some newHead ∧ setup.skipPip = false ∧ child = none := fact.place
      split_ifs at taken with skips failed same <;> cases taken
      · cases installs.symm.trans skips
      · cases same
      · exact h.finishes mine rfl
      · exact h.moves mine rfl (fun _ => rfl) (.of_plain rfl rfl ⟨aims, rfl, rfl⟩)
  case runtime =>
    obtain rfl : child = none := fact.place
    split_ifs at taken <;> cases taken
    · exact h.finishes mine rfl
    · have held := h.locked f _ mine rfl
      refine h.put rfl (.of_plain rfl rfl rfl) (fun _ _ _ _ _ => rfl) (fun _ => held)
        (fun g other _ theirs works => h.locked g other theirs works) ?_ h.accepted
      intro phase among moved
      rcases List.mem_cons.mp among with rfl | earlier
      · exact absurd (fact.inline rfl) moved
      · exact h.phases phase earlier moved
  case phase =>
    obtain rfl : child = none := fact.place
    cases taken
    exact h.finishes mine rfl
  all_goals cases taken

theorem launchStep_inv (h : Inv s) (mine : s.flows f = some flow) (taken : launchStep s f flow answer = some t) :
    Inv t := by
  rcases flow with ⟨w, setup, lockHead, target, pipOk, child, pc⟩
  have fact := h.fact f _ mine
  cases pc <;> simp only [launchStep] at taken
  case launch newHead =>
    obtain ⟨aims, installed, rfl⟩ : target = some newHead ∧ pipOk = true ∧ child = none := fact.place
    split_ifs at taken <;> cases taken
    · exact h.finishes mine rfl
    · refine h.moves mine rfl (fun _ => rfl) ⟨fun inline => (by cases inline), ?_, ⟨aims, fun _ => installed⟩⟩
      intro child is _
      obtain rfl := Option.some.inj is
      rfl
  case waiting newHead =>
    obtain ⟨aims, installed⟩ : target = some newHead ∧ _ := fact.place
    rcases child with _ | ⟨launchHead, pc⟩
    · cases taken
    · cases pc
      case exited ack =>
        rcases ack with _ | codeHead
        · cases taken
          exact h.finishes mine rfl
        · dsimp only at taken
          split_ifs at taken with same <;> cases taken
          · have later : Inv { s with accepted := ⟨codeHead, target⟩ :: s.accepted } := by
              refine ⟨h.fact, h.locked, h.phases, fun report among => ?_⟩
              rcases List.mem_cons.mp among with rfl | earlier
              · rw [same]
                exact aims
              · exact h.accepted report earlier
            exact later.finishes mine rfl
          · exact h.finishes mine rfl
      all_goals
        dsimp only at taken
        split_ifs at taken
        cases taken
        refine h.closes w rfl ⟨fun inline => (by cases inline), fun child is waits => ?_, fun runs => (by cases runs)⟩
        obtain rfl := Option.some.inj is
        cases waits
  all_goals cases taken

theorem advance_inv (h : Inv s) (mine : s.flows f = some flow)
    (unmoved : GivesUp s flow answer → headAfter s flow answer = flow.lockHead)
    (keeps : ∀ g other, g ≠ f → s.flows g = some other → other.relies = true → headAfter s flow answer = s.head)
    (taken : advance s f flow answer = some t) : Inv t := by
  unfold advance at taken
  split at taken
  case h_14 | h_15 => cases taken
  all_goals first
    | exact lockStep_inv h mine taken
    | exact sourceStep_inv h mine unmoved keeps taken
    | exact runtimeStep_inv h mine taken
    | exact launchStep_inv h mine taken

/-! ## The steps of the continuation -/

/-- Only a flow that waits for its continuation, or is gone, has one. -/
theorem Place.pc_of_child {child : Child} (place : Place flow) (is : flow.child = some child) :
    (∃ newHead, flow.pc = .waiting newHead) ∨ flow.pc = .ended ∨ flow.pc = .killed := by
  unfold Place at place
  split at place <;> rename_i pc
  case h_5 => exact .inl ⟨_, pc⟩
  case h_6 => exact .inr (.inl pc)
  case h_7 => exact .inr (.inr pc)
  all_goals simp_all

/-- While a continuation runs, pip has succeeded. -/
theorem Place.installed {child : Child} (place : Place flow) (is : flow.child = some child)
    (runs : child.pc.running = true) : flow.pipOk = true := by
  have running : flow.childRuns = true := by
    rw [Flow.childRuns, is]
    exact runs
  rcases place.pc_of_child is with ⟨newHead, pc⟩ | pc | pc <;> rw [Place, pc] at place
  · exact place.2 running
  · exact place running
  · exact place running

/-- The continuation moves on. -/
theorem Fact.child_moves {head : Oid} {child : Child} {pc : ChildPc} (fact : Fact head flow)
    (is : flow.child = some child) (runs : pc.running = true → child.pc.running = true)
    (waits : pc.waits = true → child.pc.waits = true) :
    Fact head { flow with child := some { child with pc := pc } } := by
  have installed (running : pc.running = true) : flow.pipOk = true := fact.place.installed is (runs running)
  refine ⟨fact.inline, fun child' is' waiting => ?_, ?_⟩
  · obtain rfl := Option.some.inj is'
    exact fact.child child is (waits waiting)
  · have place := fact.place
    rcases fact.place.pc_of_child is with ⟨newHead, at'⟩ | at' | at' <;> rw [Place, at'] at place <;> rw [Place, at']
    · exact ⟨place.1, installed⟩
    · exact installed
    · exact installed

theorem works_of_child {child : Child} {pc : ChildPc} (is : flow.child = some child)
    (runs : pc.running = true → child.pc.running = true)
    (works : Flow.works { flow with child := some { child with pc := pc } } = true) : flow.works = true := by
  rw [Flow.works, Bool.or_eq_true] at works ⊢
  refine works.imp id fun running => ?_
  rw [Flow.childRuns, is]
  exact runs running

theorem Inv.childMoves {child : Child} {pc : ChildPc} (h : Inv s) (mine : s.flows f = some flow)
    (is : flow.child = some child) (runs : pc.running = true → child.pc.running = true)
    (waits : pc.waits = true → child.pc.waits = true) :
    Inv (s.put f { flow with child := some { child with pc := pc } }) :=
  h.moves mine rfl (works_of_child is runs) ((h.fact f flow mine).child_moves is runs waits)

theorem Inv.childExits {child : Child} (h : Inv s) (mine : s.flows f = some flow) (is : flow.child = some child)
    (ack : Option Oid) : Inv (s.childExits f flow child ack) := by
  have stopped : (ChildPc.exited ack).running = true → child.pc.running = true := fun running => by cases running
  have begun : (ChildPc.exited ack).waits = true → child.pc.waits = true := fun waits => by cases waits
  unfold State.childExits
  split_ifs with killed
  · refine h.closes flow.workspace ?_ ((h.fact f flow mine).child_moves is stopped begun)
    rw [Flow.works, killed]
    rfl
  · exact h.childMoves mine is stopped begun

theorem childStep_inv {child : Child} (h : Inv s) (mine : s.flows f = some flow) (is : flow.child = some child)
    (taken : childStep s f flow child answer = some t) : Inv t := by
  rcases child with ⟨launchHead, pc⟩
  have fact := h.fact f flow mine
  cases pc <;> simp only [childStep] at taken
  case starting newHead =>
    split_ifs at taken <;> cases taken
    · exact h.childExits mine is none
    · exact h.childMoves mine is (fun _ => rfl) (fun _ => rfl)
  case checked codeHead =>
    split_ifs at taken <;> cases taken
    · exact h.childExits mine is none
    · have begun : Inv { s with phases := ⟨f, flow.lockHead, s.head, some launchHead, flow.pipOk⟩ :: s.phases } := by
        refine ⟨h.fact, h.locked, fun phase among moved => ?_, h.accepted⟩
        rcases List.mem_cons.mp among with rfl | earlier
        · exact ⟨congrArg some (fact.child _ is rfl).symm, fact.place.installed is rfl⟩
        · exact h.phases phase earlier moved
      exact begun.childMoves mine is (fun _ => rfl) (fun waits => by cases waits)
  case phase codeHead =>
    cases answer <;> cases taken
    exact h.childExits mine is _
  case exited => cases taken

/-! ## The run -/

theorem step_inv {a : Action} (h : Inv s) (ok : Guard s a) (taken : step s a = some t) : Inv t := by
  cases a <;> simp only [step] at taken
  case begin f w setup =>
    have begins (pc : Pc) (fact : Fact s.head ⟨w, setup, s.head, none, false, none, pc⟩)
        (idle : Flow.works ⟨w, setup, s.head, none, false, none, pc⟩ = false) :
        Inv (s.put f ⟨w, setup, s.head, none, false, none, pc⟩) := by
      refine h.put rfl fact (fun _ _ _ _ _ => rfl) (fun works => ?_)
        (fun g other _ theirs works => h.locked g other theirs works) h.phases h.accepted
      cases idle.symm.trans works
    split_ifs at taken <;> cases taken
    · exact begins .lockRepo (.of_plain rfl rfl rfl) rfl
    · exact begins .lockWorkspace (.of_plain rfl rfl rfl) rfl
  case advance f answer =>
    split at taken
    · cases taken
    · rename_i flow mine
      have allowed := ok flow mine
      exact advance_inv h mine allowed.1 allowed.2 taken
  case continuation f answer =>
    split at taken
    · cases taken
    · rename_i flow mine
      split at taken
      · cases taken
      · rename_i child is
        exact childStep_inv h mine is taken
  case gitMoves oid =>
    cases taken
    exact ⟨fun f flow mine => (h.fact f flow mine).keeps (ok f flow mine), h.locked, h.phases, h.accepted⟩
  case kill f =>
    split at taken
    · cases taken
    · rename_i flow mine
      have fact := h.fact f flow mine
      have gone : Fact s.head { flow with pc := .killed } := by
        refine ⟨fun inline => (by cases inline), fact.child, fun runs => ?_⟩
        obtain ⟨child, is, running⟩ := (Option.any_eq_true _ _).mp runs
        exact fact.place.installed is running
      split_ifs at taken with _ runs <;> cases taken
      · refine h.moves mine rfl (fun _ => ?_) gone
        rw [Flow.works, runs, Bool.or_true]
      · refine h.closes flow.workspace ?_ gone
        exact Bool.eq_false_iff.mpr runs
  case interrupt f =>
    split at taken
    · cases taken
    · rename_i flow mine
      split_ifs at taken
      cases taken
      exact h.finishes mine (ok flow mine)

theorem initial_inv (head : Oid) : Inv (.initial head) := by
  refine ⟨?_, ?_, ?_, ?_⟩
  · intro f flow mine
    cases mine
  · intro f flow mine
    cases mine
  · intro phase among
    cases among
  · intro report among
    cases among

theorem Inv.safe (h : Inv s) : UpdateSafe s := by
  refine ⟨h.phases, h.accepted, h.locked, ?_⟩
  intro f g flow other mine theirs works works' same
  have held := h.locked f flow mine works
  rw [same, h.locked g other theirs works'] at held
  exact (Option.some.inj held).symm

/-- In every run that meets the guard, a Runtime phase on a changed checkout runs in a continuation
that was started on it. -/
theorem guarded_update_safe {head : Oid} {as : List Action} (run : Run step Guard (.initial head) as s) :
    UpdateSafe s :=
  (run.invariant (initial_inv head) fun _ _ _ h ok taken => step_inv h ok taken).safe

theorem guard_of (mine : s.flows f = some flow)
    (unmoved : GivesUp s flow answer → headAfter s flow answer = flow.lockHead)
    (keeps : headAfter s flow answer = s.head ∨ ∀ g, g ≠ f → s.flows g = none) : Guard s (.advance f answer) := by
  intro flow' is
  obtain rfl : flow = flow' := Option.some.inj (mine.symm.trans is)
  refine ⟨unmoved, fun g other far theirs _ => ?_⟩
  rcases keeps with same | alone
  · exact same
  · cases (alone g far).symm.trans theirs

/-- A fast-forward that succeeds, and its continuation. -/
theorem guarded_update_safe_session : ∃ s, Run step Guard (.initial 1)
    [.begin 0 0 ⟨true, false, true, true, true⟩, .advance 0 .ok, .advance 0 .ok, .advance 0 .ok, .advance 0 .ok,
      .advance 0 (.candidate 2), .advance 0 (.status .behind false false), .advance 0 (.merged true true),
      .advance 0 .ok, .advance 0 .ok, .advance 0 .ok, .continuation 0 .ok, .continuation 0 .ok,
      .continuation 0 (.ack (some 2)), .advance 0 .ok] s ∧
    s.phases = [⟨0, 1, 2, some 2, true⟩] ∧ s.accepted = [⟨2, some 2⟩] ∧ UpdateSafe s := by
  have run : ∃ s, Run step Guard (.initial 1)
      [.begin 0 0 ⟨true, false, true, true, true⟩, .advance 0 .ok, .advance 0 .ok, .advance 0 .ok, .advance 0 .ok,
        .advance 0 (.candidate 2), .advance 0 (.status .behind false false), .advance 0 (.merged true true),
        .advance 0 .ok, .advance 0 .ok, .advance 0 .ok, .continuation 0 .ok, .continuation 0 .ok,
        .continuation 0 (.ack (some 2)), .advance 0 .ok] s ∧
      s.phases = [⟨0, 1, 2, some 2, true⟩] ∧ s.accepted = [⟨2, some 2⟩] := by
    refine ⟨_, .cons trivial rfl <| .cons (guard_of rfl ?_ (.inl rfl)) rfl <| .cons (guard_of rfl ?_ (.inl rfl)) rfl <|
      .cons (guard_of rfl ?_ (.inl rfl)) rfl <| .cons (guard_of rfl ?_ (.inl rfl)) rfl <|
      .cons (guard_of rfl ?_ (.inl rfl)) rfl <| .cons (guard_of rfl ?_ (.inl rfl)) rfl <|
      .cons (guard_of rfl ?_ (.inr ?_)) rfl <| .cons (guard_of rfl ?_ (.inl rfl)) rfl <|
      .cons (guard_of rfl ?_ (.inl rfl)) rfl <| .cons (guard_of rfl ?_ (.inl rfl)) rfl <| .cons trivial rfl <|
      .cons trivial rfl <| .cons trivial rfl <| .cons (guard_of rfl ?_ (.inl rfl)) rfl <| .refl _, rfl, rfl⟩
    case refine_8 =>
      rintro (_ | g) far
      · exact absurd rfl far
      · rfl
    case refine_9 =>
      rintro (failed | moved | same)
      · cases failed
      · exact absurd rfl moved
      · exact absurd same (by decide)
    all_goals first
      | exact fun _ => rfl
      | exact fun gives => (by cases gives)
  obtain ⟨s, run, phases, accepted⟩ := run
  exact ⟨s, run, phases, accepted, guarded_update_safe run⟩

/-! ## A merge that takes too long -/

/-- `git merge` moves HEAD, but is reported as failed: the flow goes on with the Runtime phase in the
process that runs the old code. -/
theorem timed_out_merge_phase_inline :
    ¬ ∀ head as s, Run step anyStep (.initial head) as s → UpdateSafe s := by
  intro all
  have ran : ∃ s, exec step (.initial 1)
      [.begin 0 0 ⟨true, false, true, true, true⟩, .advance 0 .ok, .advance 0 .ok, .advance 0 .ok, .advance 0 .ok,
        .advance 0 (.candidate 2), .advance 0 (.status .behind false false), .advance 0 (.merged true false),
        .advance 0 .ok, .advance 0 .ok] = some s ∧ s.phases = [⟨0, 1, 2, none, true⟩] := ⟨_, rfl, rfl⟩
  obtain ⟨s, ran, phases⟩ := ran
  have own := (all 1 _ s (.of_exec ran)).phases ⟨0, 1, 2, none, true⟩ (by rw [phases]; exact List.mem_singleton_self _)
  cases (own (by decide)).1

end LocalWebAccess.UpdateFlow
