import LocalWebAccess.CaddyControl
import LocalWebAccess.GuardedRuns

/-!
# Requests reach masters of the workspace only

The evidence from which a master is taken for the workspace's is about processes, and requests go
to ports. Where the evidence is right about who listens, whatever is loaded or stopped is a master
of the workspace, and the operations keep the evidence right.
-/

namespace LocalWebAccess.CaddyControl
open AdminPorts GuardedRuns

variable {w : Workspace} {h h' h'' : Host} {port : Port} {p q : Pid}

/-- Whoever a connection to the port reaches is a master of the workspace. -/
def OwnOn (h : Host) (port : Port) : Prop := ∀ p, h.listener port = some p → h.isOwn p = true

/-- The evidence is right: a port of the workspace that does not answer, a live process in
`run/caddy.pid`, a process that can be adopted and a legacy master that is recognised each mean that
the process that listens is a master of the workspace. -/
structure Honest (w : Workspace) (h : Host) : Prop where
  silent : h.adminPort ≠ none → h.adminAlive = false → OwnOn h h.adminAddress
  named : h.adminAlive = true → h.pidAlive = true → OwnOn h h.adminAddress
  adopts : ∀ p, adoptable w h = some p → OwnOn h h.adminAddress
  legacy : h.reachable legacyAdminPort = true → legacyMasterIsOurs w h = true → OwnOn h legacyAdminPort

/-- Every request went to a master of the workspace. -/
def SentToOwn (h : Host) : Prop := ∀ m ∈ h.sent, m.own = true

/-- What happens on the host between two operations leaves the evidence right. -/
def EvidenceRight (w : Workspace) (_ : Host) : Action → Prop
  | .perform _ => True
  | .becomes later => Honest w later

/-! ## Part of an operation -/

structure Good (w : Workspace) (h : Host) : Prop where
  honest : Honest w h
  sent : SentToOwn h

/-- A part of an operation that begins in `h` ends in `h'`. -/
structure Onward (w : Workspace) (h h' : Host) : Prop where
  good : Good w h'
  owned : ∀ port, OwnOn h port → OwnOn h' port
  address : h.adminPort ≠ none → h'.adminPort = h.adminPort

theorem Onward.refl (g : Good w h) : Onward w h h := ⟨g, fun _ => id, fun _ => rfl⟩

theorem Onward.trans (first : Onward w h h') (second : Onward w h' h'') : Onward w h h'' := by
  refine ⟨second.good, fun port own => second.owned port (first.owned port own), fun assigned => ?_⟩
  have kept := first.address assigned
  rw [← kept]
  exact second.address (by rwa [kept])

theorem Onward.assigned (onward : Onward w h h') (assigned : h.adminPort ≠ none) : h'.adminPort ≠ none := by
  rwa [onward.address assigned]

theorem Onward.ownAddress (onward : Onward w h h') (assigned : h.adminPort ≠ none) (own : OwnOn h h.adminAddress) :
    OwnOn h' h'.adminAddress := by
  have same : h'.adminAddress = h.adminAddress := by rw [Host.adminAddress, onward.address assigned, Host.adminAddress]
  rw [same]
  exact onward.owned _ own

theorem Good.next (g : Good w h) : Onward w h h.next.2 :=
  ⟨⟨⟨g.honest.silent, g.honest.named, g.honest.adopts, g.honest.legacy⟩, g.sent⟩, fun _ => id, fun _ => rfl⟩

theorem Good.writesMain (g : Good w h) (exist : Bool) : Onward w h { h with mainExists := exist } :=
  ⟨⟨⟨g.honest.silent, g.honest.named, g.honest.adopts, g.honest.legacy⟩, g.sent⟩, fun _ => id, fun _ => rfl⟩

theorem Good.send (g : Good w h) (request : Request) (own : h.isOwn p = true) : Onward w h (h.send request p) := by
  refine ⟨⟨⟨g.honest.silent, g.honest.named, g.honest.adopts, g.honest.legacy⟩, ?_⟩, fun _ => id, fun _ => rfl⟩
  intro m among
  rcases List.mem_cons.mp among with rfl | earlier
  · exact own
  · exact g.sent m earlier

theorem pidAlive_of_ownerOk (owned : ownerOk w h = true) : h.pidAlive = true := by
  unfold ownerOk at owned
  unfold Host.pidAlive
  rcases file : h.pidFile with _ | p
  · rw [file] at owned
    cases owned
  · rw [file] at owned
    exact (Bool.and_eq_true_iff.mp owned).1

theorem Good.own_of_ownerOk (g : Good w h) (alive : h.adminAlive = true) (owned : ownerOk w h = true) :
    OwnOn h h.adminAddress := g.honest.named alive (pidAlive_of_ownerOk owned)

/-- Where the pid file names no live process, it tells nothing about the legacy port. -/
theorem legacy_of_stale (stale : h.pidAlive = false) (ours : legacyMasterIsOurs w h = true) :
    ((h.holder legacyAdminPort).any fun p => h.alive p && recognises w (h.cmdline p)) = true := by
  unfold legacyMasterIsOurs at ours
  rcases Bool.or_eq_true_iff.mp ours with named | recognised
  · rcases file : h.pidFile with _ | p
    · rw [file] at named
      cases named
    · rw [file, Option.any_some, Bool.and_eq_true_iff, Bool.and_eq_true_iff, Bool.and_eq_true_iff] at named
      have alive : h.pidAlive = true := by
        rw [Host.pidAlive, file]
        exact named.1.1.2
      cases alive.symm.trans stale
  · exact recognised

theorem Good.clearStale (g : Good w h) : Onward w h h.clearStale := by
  unfold Host.clearStale
  split
  · exact .refl g
  · rename_i dead
    have stale : h.pidAlive = false := Bool.eq_false_iff.mpr dead
    refine ⟨⟨⟨g.honest.silent, fun _ alive => (by cases alive), fun p adopted => ?_, fun reach ours => ?_⟩, g.sent⟩,
      fun _ => id, fun _ => rfl⟩
    · have before : adoptable w h = some p := by
        rw [← adopted]
        unfold adoptable
        rw [stale]
        rfl
      exact g.honest.adopts p before
    · have recognised := legacy_of_stale (w := w) (h := { h with pidFile := none }) rfl ours
      refine g.honest.legacy reach ?_
      unfold legacyMasterIsOurs
      exact Bool.or_eq_true_iff.mpr (.inr recognised)

/-! ## A process exits -/

theorem listener_of_exits (listens : (h.exits p).listener port = some q) :
    q ≠ p ∧ h.listener port = some q := by
  simp only [Host.exits] at listens
  split_ifs at listens with gone
  refine ⟨?_, listens⟩
  rintro rfl
  exact gone listens

theorem procs_of_exits (other : q ≠ p) : (h.exits p).procs q = h.procs q := if_neg other

theorem alive_of_exits (alive : (h.exits p).alive q = true) : q ≠ p ∧ h.alive q = true := by
  by_cases same : q = p
  · rw [Host.alive, show (h.exits p).procs q = none from if_pos same] at alive
    simp at alive
  · rw [Host.alive, procs_of_exits same] at alive
    exact ⟨same, alive⟩

theorem pidAlive_of_exits (alive : (h.exits p).pidAlive = true) : h.pidAlive = true := by
  unfold Host.pidAlive at alive ⊢
  rw [show (h.exits p).pidFile = h.pidFile from rfl] at alive
  rcases file : h.pidFile with _ | q
  · rw [file] at alive
    cases alive
  · rw [file] at alive
    exact (alive_of_exits alive).2

theorem OwnOn.exits (own : OwnOn h port) : OwnOn (h.exits p) port := by
  intro q listens
  obtain ⟨other, before⟩ := listener_of_exits listens
  rw [Host.isOwn, procs_of_exits other]
  exact own q before

theorem reachable_of_exits (reach : (h.exits p).reachable port = true) : h.reachable port = true := by
  obtain ⟨answers, some'⟩ := Bool.and_eq_true_iff.mp reach
  obtain ⟨q, listens⟩ := Option.isSome_iff_exists.mp some'
  refine Bool.and_eq_true_iff.mpr ⟨answers, ?_⟩
  rw [(listener_of_exits listens).2]
  rfl

theorem holder_of_exits (holds : (h.exits p).holder port = some q) : q ≠ p ∧ h.holder port = some q := by
  unfold Host.holder at holds ⊢
  rw [show (h.exits p).lsof = h.lsof from rfl] at holds
  split_ifs at holds ⊢
  exact listener_of_exits holds

theorem cmdline_of_exits (other : q ≠ p) : (h.exits p).cmdline q = h.cmdline q := by
  rw [Host.cmdline, procs_of_exits other, Host.cmdline]

/-- A process that is found by its port and recognised was so before another one exited. -/
theorem legacy_of_exits (ours : legacyMasterIsOurs w (h.exits p) = true) : legacyMasterIsOurs w h = true := by
  unfold legacyMasterIsOurs at ours ⊢
  rcases Bool.or_eq_true_iff.mp ours with named | recognised
  · refine Bool.or_eq_true_iff.mpr (.inl ?_)
    rw [show (h.exits p).pidFile = h.pidFile from rfl] at named
    rcases file : h.pidFile with _ | q
    · rw [file] at named
      cases named
    · rw [file, Option.any_some, Bool.and_eq_true_iff, Bool.and_eq_true_iff, Bool.and_eq_true_iff,
        decide_eq_true_iff] at named
      obtain ⟨⟨⟨holds, alive⟩, names⟩, roots⟩ := named
      obtain ⟨other, held⟩ := holder_of_exits holds
      rw [cmdline_of_exits other] at names roots
      rw [Option.any_some, names, roots, (alive_of_exits alive).2, held]
      simp
  · refine Bool.or_eq_true_iff.mpr (.inr ?_)
    rcases held : (h.exits p).holder legacyAdminPort with _ | q
    · rw [held] at recognised
      cases recognised
    · rw [held, Option.any_some, Bool.and_eq_true_iff] at recognised
      obtain ⟨other, before⟩ := holder_of_exits held
      rw [cmdline_of_exits other] at recognised
      rw [before, Option.any_some, (alive_of_exits recognised.1).2, recognised.2]
      rfl

theorem adoptable_of_exits (stale : h.pidAlive = false) (adopted : adoptable w (h.exits p) = some q) :
    adoptable w h = some q := by
  unfold adoptable at adopted ⊢
  split_ifs at adopted with open'
  obtain ⟨alive, -⟩ := Bool.and_eq_true_iff.mp open'
  have before : h.adminAlive = true := reachable_of_exits alive
  rw [if_pos (by rw [before, stale]; rfl)]
  obtain ⟨held, fits⟩ := Option.filter_eq_some_iff.mp adopted
  obtain ⟨other, holds⟩ := holder_of_exits held
  refine Option.filter_eq_some_iff.mpr ⟨holds, ?_⟩
  rw [cmdline_of_exits other, procs_of_exits other] at fits
  obtain ⟨both, recognised⟩ := Bool.and_eq_true_iff.mp fits
  obtain ⟨lives, user⟩ := Bool.and_eq_true_iff.mp both
  rw [(alive_of_exits lives).2, user, recognised]
  rfl

theorem Good.exits (g : Good w h) (p : Pid) : Onward w h (h.exits p) := by
  refine ⟨⟨⟨fun assigned silent => ?_, fun alive named => ?_, fun q adopted => ?_, fun reach ours => ?_⟩, g.sent⟩,
    fun _ => OwnOn.exits, fun _ => rfl⟩
  · rcases before : h.adminAlive with _ | _
    · exact (g.honest.silent assigned before).exits
    · -- the process that listened is the one that exits
      intro q listens
      obtain ⟨answers, -⟩ := Bool.and_eq_true_iff.mp before
      have reach : (h.exits p).adminAlive = true := by
        refine Bool.and_eq_true_iff.mpr ⟨answers, ?_⟩
        rw [listens]
        rfl
      cases reach.symm.trans silent
  · exact (g.honest.named (reachable_of_exits alive) (pidAlive_of_exits named)).exits
  · have alive : h.adminAlive = true := by
      unfold adoptable at adopted
      split_ifs at adopted with open'
      exact reachable_of_exits (Bool.and_eq_true_iff.mp open').1
    rcases named : h.pidAlive with _ | _
    · exact (g.honest.adopts q (adoptable_of_exits named adopted)).exits
    · exact (g.honest.named alive named).exits
  · exact (g.honest.legacy (reachable_of_exits reach) (legacy_of_exits ours)).exits

/-! ## Stopping -/

theorem Good.postAdminStop (g : Good w h) (own : OwnOn h port) : Onward w h (postAdminStop port h).2 := by
  unfold CaddyControl.postAdminStop
  split
  · exact .refl g
  · rename_i p listens
    have asked := (g.send .stop (own p listens)).trans (g.send .stop (own p listens)).good.next
    dsimp only
    split_ifs
    · exact asked.trans (asked.good.exits p)
    · exact asked

theorem Good.stopLegacyMaster (g : Good w h) : Onward w h (stopLegacyMaster w h) := by
  unfold CaddyControl.stopLegacyMaster
  split_ifs with ours
  · obtain ⟨reach, recognised⟩ := Bool.and_eq_true_iff.mp ours
    have asked := g.postAdminStop (g.honest.legacy reach recognised)
    split
    · rename_i left is
      rw [is] at asked
      exact asked.trans asked.good.clearStale
    · rename_i left is
      rwa [is] at asked
  · exact .refl g

theorem Good.stopOwn (g : Good w h) (own : OwnOn h h.adminAddress) : Onward w h (stopOwn h).2 := by
  unfold CaddyControl.stopOwn
  have asked := g.postAdminStop own
  split
  · rename_i left is
    rw [is] at asked
    exact asked.trans asked.good.clearStale
  · rename_i left is
    rwa [is] at asked

/-- The process that is adopted listens on the admin address. -/
theorem listens_of_adoptable (adopted : adoptable w h = some p) : h.listener h.adminAddress = some p := by
  unfold adoptable at adopted
  split_ifs at adopted
  obtain ⟨held, -⟩ := Option.filter_eq_some_iff.mp adopted
  unfold Host.holder at held
  split_ifs at held
  exact held

/-- After an adoption the pid file names the master on the admin address. -/
theorem Good.adopted (g : Good w h) (adopted : adoptable w h = some p) :
    Onward w h { h with pidFile := some p } ∧ OwnOn { h with pidFile := some p } h.adminAddress := by
  have own := g.honest.adopts p adopted
  have listens := listens_of_adoptable adopted
  refine ⟨⟨⟨⟨fun _ _ => own, fun _ _ => own, fun _ _ => own, fun reach ours => ?_⟩, g.sent⟩, fun _ => id,
    fun _ => rfl⟩, own⟩
  unfold legacyMasterIsOurs at ours
  rcases Bool.or_eq_true_iff.mp ours with named | recognised
  · rw [Option.any_some, Bool.and_eq_true_iff, Bool.and_eq_true_iff, Bool.and_eq_true_iff, decide_eq_true_iff] at named
    have held : h.holder legacyAdminPort = some p := named.1.1.1
    intro q there
    unfold Host.holder at held
    split_ifs at held
    obtain rfl : p = q := Option.some.inj (held.symm.trans there)
    exact own p listens
  · refine g.honest.legacy reach ?_
    unfold legacyMasterIsOurs
    exact Bool.or_eq_true_iff.mpr (.inr recognised)

theorem Good.stopMaster (g : Good w h) : Onward w h (stopMaster w h).2 := by
  unfold CaddyControl.stopMaster
  split_ifs with silent named
  · exact g.clearStale
  · exact g.stopOwn (g.honest.named (by simpa using silent) named)
  · rcases adopted : adoptable w h with _ | p
    · simp only [adoptOrphanMaster, adopted]
      exact g.clearStale
    · simp only [adoptOrphanMaster, adopted]
      obtain ⟨taken, own⟩ := g.adopted adopted
      exact taken.trans (taken.good.stopOwn own)

theorem Good.caddyStop (g : Good w h) : Onward w h (caddyStop w h).2 := by
  have stopped := g.stopMaster
  refine stopped.trans ?_
  show Onward w (CaddyControl.stopMaster w h).2 (stopMigrated w (CaddyControl.stopMaster w h).2)
  unfold stopMigrated
  split_ifs
  · exact stopped.good.stopLegacyMaster
  · exact .refl stopped.good

/-! ## Starting -/

/-- A port that is newly assigned has no listener. -/
theorem Good.ensureAdminPort (g : Good w h) : Onward w h (ensureAdminPort w h).2 := by
  unfold CaddyControl.ensureAdminPort
  split
  · exact .refl g
  · rename_i unassigned
    split
    · rename_i port found
      have free : h.listener port = none := by simpa using List.find?_some found
      have own : OwnOn { h with adminPort := some port } port := by
        intro p listens
        cases free.symm.trans listens
      exact ⟨⟨⟨fun _ _ => own, fun _ _ => own, fun _ _ => own, g.honest.legacy⟩, g.sent⟩, fun _ => id,
        fun assigned => absurd unassigned assigned⟩
    · exact .refl g

theorem adminPort_of_ensured (ensured : ensureAdminPort w h = (some port, h')) : h'.adminPort = some port := by
  unfold ensureAdminPort at ensured
  split at ensured
  · rename_i assigned
    cases ensured
    exact assigned
  · split at ensured <;> cases ensured
    rfl

/-- Ownership of the admin address passes on to a port that is newly assigned. -/
theorem own_of_ensured (own : h.adminPort ≠ none → OwnOn h h.adminAddress)
    (ensured : ensureAdminPort w h = (some port, h')) : OwnOn h' h'.adminAddress := by
  unfold ensureAdminPort at ensured
  split at ensured
  · rename_i assigned
    cases ensured
    exact own (by rw [assigned]; nofun)
  · split at ensured <;> cases ensured
    rename_i found
    have free : h.listener port = none := by simpa using List.find?_some found
    intro p listens
    cases free.symm.trans listens

variable {outcome : Outcome}

theorem isOwn_launch (own : h.isOwn p = true) : (launch w outcome h).isOwn p = true := by
  by_cases new : p = outcome.pid
  · rw [Host.isOwn, show (launch w outcome h).procs p = some ⟨_, _, true⟩ from if_pos new]
    rfl
  · rw [Host.isOwn, show (launch w outcome h).procs p = h.procs p from if_neg new]
    exact own

theorem isOwn_launched : (launch w outcome h).isOwn outcome.pid = true := by
  rw [Host.isOwn, show (launch w outcome h).procs outcome.pid = some ⟨_, _, true⟩ from if_pos rfl]
  rfl

theorem OwnOn.launch (own : OwnOn h port) : OwnOn (launch w outcome h) port := by
  intro p listens
  simp only [CaddyControl.launch] at listens
  split_ifs at listens with binds
  · obtain rfl := Option.some.inj listens
    exact isOwn_launched
  · exact isOwn_launch (own p listens)

/-- The new process does not make a foreign listener on the legacy port look like the workspace's. -/
theorem legacy_of_launch (foreign : h.listener legacyAdminPort = some p) (other : p ≠ outcome.pid)
    (kept : (launch w outcome h).listener legacyAdminPort = some p)
    (ours : legacyMasterIsOurs w (launch w outcome h) = true) : legacyMasterIsOurs w h = true := by
  have procs : (launch w outcome h).procs p = h.procs p := if_neg other
  have alive : (launch w outcome h).alive p = h.alive p := by rw [Host.alive, procs, Host.alive]
  have cmdline : (launch w outcome h).cmdline p = h.cmdline p := by rw [Host.cmdline, procs, Host.cmdline]
  have holder : (launch w outcome h).holder legacyAdminPort = h.holder legacyAdminPort := by
    rw [Host.holder, Host.holder, kept, foreign]
    rfl
  unfold legacyMasterIsOurs at ours ⊢
  rw [holder] at ours
  rcases Bool.or_eq_true_iff.mp ours with named | recognised
  · refine Bool.or_eq_true_iff.mpr (.inl ?_)
    rcases file : (launch w outcome h).pidFile with _ | q
    · rw [file] at named
      cases named
    · rw [file, Option.any_some, Bool.and_eq_true_iff, Bool.and_eq_true_iff, Bool.and_eq_true_iff,
        decide_eq_true_iff] at named
      have held := named.1.1.1
      have listens : h.listener legacyAdminPort = some q := by
        unfold Host.holder at held
        split_ifs at held
        exact held
      obtain rfl := Option.some.inj (foreign.symm.trans listens)
      have before : h.pidFile = some p := by
        simp only [CaddyControl.launch] at file
        split_ifs at file
        · exact absurd (Option.some.inj file).symm other
        · exact file
      rw [alive, cmdline] at named
      rw [before, Option.any_some, Bool.and_eq_true_iff, Bool.and_eq_true_iff, Bool.and_eq_true_iff,
        decide_eq_true_iff]
      exact named
  · refine Bool.or_eq_true_iff.mpr (.inr ?_)
    rcases held : h.holder legacyAdminPort with _ | q
    · rw [held] at recognised
      cases recognised
    · have listens : h.listener legacyAdminPort = some q := by
        unfold Host.holder at held
        split_ifs at held
        exact held
      obtain rfl := Option.some.inj (foreign.symm.trans listens)
      rw [held, Option.any_some, alive, cmdline] at recognised
      rw [Option.any_some]
      exact recognised

theorem Good.launch (g : Good w h) (own : OwnOn h h.adminAddress) : Onward w h (launch w outcome h) := by
  have address : OwnOn (CaddyControl.launch w outcome h) h.adminAddress := own.launch
  refine ⟨⟨⟨fun _ _ => address, fun _ _ => address, fun _ _ => address, fun reach ours => ?_⟩, g.sent⟩,
    fun _ => OwnOn.launch, fun _ => rfl⟩
  intro p listens
  by_cases new : p = outcome.pid
  · rw [new]
    exact isOwn_launched
  · by_cases bound : (outcome.binds && decide (h.listener h.adminAddress = none) &&
        decide (legacyAdminPort = h.adminAddress)) = true
    · have taken : (CaddyControl.launch w outcome h).listener legacyAdminPort = some outcome.pid := if_pos bound
      exact absurd (Option.some.inj (listens.symm.trans taken)) new
    · have before : h.listener legacyAdminPort = some p := (if_neg bound).symm.trans listens
      have answers : (CaddyControl.launch w outcome h).answers legacyAdminPort = h.answers legacyAdminPort :=
          if_neg bound
      have reachable : h.reachable legacyAdminPort = true := by
        rw [Host.reachable, answers, listens] at reach
        rw [Host.reachable, before]
        exact reach
      exact isOwn_launch (g.honest.legacy reachable (legacy_of_launch before new listens ours) p before)

theorem Good.caddyStart (g : Good w h) (own : h.adminPort ≠ none → OwnOn h h.adminAddress) :
    Onward w h (caddyStart w h).2 := by
  have ensured := g.ensureAdminPort
  unfold CaddyControl.caddyStart
  split
  · rename_i left is
    rwa [is] at ensured
  · rename_i port left is
    have assigned : left.adminPort ≠ none := by
      rw [adminPort_of_ensured is]
      nofun
    have owned := own_of_ensured own is
    rw [is] at ensured
    have migrated : Onward w left (if port ≠ legacyAdminPort then CaddyControl.stopLegacyMaster w left else left) := by
      split_ifs
      · exact ensured.good.stopLegacyMaster
      · exact .refl ensured.good
    have asked := migrated.trans migrated.good.next
    dsimp only
    generalize (if port ≠ legacyAdminPort then CaddyControl.stopLegacyMaster w left else left) = moved at asked ⊢
    split_ifs
    · exact (ensured.trans asked).trans (asked.good.launch (asked.ownAddress assigned owned))
    · exact ensured.trans asked

theorem Good.ensureCaddyRunning (g : Good w h) : Onward w h (ensureCaddyRunning w h).2 := by
  unfold CaddyControl.ensureCaddyRunning
  split_ifs with silent
  · exact .refl g
  · have cleared := g.clearStale
    refine cleared.trans (cleared.good.caddyStart fun assigned => ?_)
    have same : h.clearStale.adminPort = h.adminPort := by
      unfold Host.clearStale
      split <;> rfl
    rw [same] at assigned
    exact cleared.ownAddress assigned (g.honest.silent assigned (Bool.eq_false_iff.mpr silent))

/-! ## Reloading -/

theorem Good.reloadOnce (g : Good w h) (own : OwnOn h h.adminAddress) : Onward w h (reloadOnce h).2 := by
  unfold CaddyControl.reloadOnce
  split
  · exact .refl g
  · rename_i p listens
    have asked := g.send .load (own p listens)
    exact asked.trans asked.good.next

theorem Good.reloadWithSelfHeal (g : Good w h) (assigned : h.adminPort ≠ none) (own : OwnOn h h.adminAddress) :
    Onward w h (reloadWithSelfHeal w h).2 := by
  unfold CaddyControl.reloadWithSelfHeal
  have once := g.reloadOnce own
  split
  · rename_i left is
    rwa [is] at once
  · rename_i left is
    rw [is] at once
    have healed := once.trans once.good.ensureCaddyRunning
    dsimp only at healed
    split
    · rename_i again was
      rw [was] at healed
      exact healed.trans (healed.good.reloadOnce (healed.ownAddress assigned own))
    · rename_i result again _ was
      rwa [was] at healed

theorem Good.pushMainConfig (g : Good w h) (assigned : h.adminPort ≠ none) (own : OwnOn h h.adminAddress) :
    Onward w h (pushMainConfig w h).2 := by
  unfold CaddyControl.pushMainConfig
  have written := g.writesMain true
  have pushed := written.trans (written.good.reloadWithSelfHeal assigned own)
  split
  · rename_i left is
    rwa [is] at pushed
  · rename_i left is
    rw [is] at pushed
    dsimp only
    split_ifs
    · exact pushed.trans (pushed.good.reloadOnce (pushed.ownAddress assigned own))
    · exact pushed.trans (pushed.good.writesMain false)
  · rename_i left is
    rwa [is] at pushed

theorem Good.reloadAll (g : Good w h) : Onward w h (reloadAll w h).2 := by
  unfold CaddyControl.reloadAll
  split_ifs with other
  · exact .refl g
  · have ensured := g.ensureAdminPort
    split
    · rename_i left is
      rwa [is] at ensured
    · rename_i port left is
      have assigned : left.adminPort ≠ none := by
        rw [adminPort_of_ensured is]
        nofun
      rw [is] at ensured
      refine ensured.trans ?_
      have asked := ensured.good.next
      refine asked.trans ?_
      dsimp only
      split_ifs with denied alive owned
      · exact .refl asked.good
      · exact asked.good.pushMainConfig (asked.assigned assigned) (asked.good.own_of_ownerOk alive owned)
      · exact .refl asked.good
      · have own := asked.good.honest.silent (asked.assigned assigned) (Bool.eq_false_iff.mpr alive)
        have running := asked.good.ensureCaddyRunning
        split
        · rename_i left' was
          rwa [was] at running
        · rename_i result left' was
          rw [was] at running
          exact running.trans (running.good.pushMainConfig (running.assigned (asked.assigned assigned))
            (running.ownAddress (asked.assigned assigned) own))

theorem Good.syncMainConfig (g : Good w h) : Onward w h (syncMainConfig w h) := by
  unfold CaddyControl.syncMainConfig
  split_ifs with other
  · exact .refl g
  · have ensured := g.ensureAdminPort
    split
    · rename_i left is
      rw [is] at ensured
      exact ensured.trans (ensured.good.writesMain true)
    · rename_i port left is
      have assigned : left.adminPort ≠ none := by
        rw [adminPort_of_ensured is]
        nofun
      rw [is] at ensured
      have written := ensured.trans (ensured.good.writesMain true)
      dsimp only
      split_ifs with foreign
      · exact written
      · refine written.trans (written.good.reloadWithSelfHeal assigned ?_)
        rcases alive : ({ left with mainExists := true } : Host).adminAlive with _ | _
        · exact written.good.honest.silent assigned alive
        · rw [alive, Bool.true_and, Bool.not_eq_true, Bool.not_eq_false'] at foreign
          exact written.good.own_of_ownerOk alive foreign

/-! ## The gateway service -/

theorem Good.startRest (g : Good w h) (own : h.adminPort ≠ none → OwnOn h h.adminAddress) :
    Onward w h (startRest w h) := by
  have written := g.writesMain true
  unfold CaddyControl.startRest
  split_ifs with running
  · exact written.trans written.good.reloadAll
  · have started := written.trans (written.good.caddyStart own)
    split
    · rename_i left is
      rw [is] at started
      have asked := started.trans started.good.next
      dsimp only
      split_ifs
      · exact asked.trans asked.good.reloadAll
      · exact asked
    · rename_i left is
      rwa [is] at started

theorem Good.startGateway (g : Good w h) : Onward w h (startGateway w h) := by
  unfold CaddyControl.startGateway
  split_ifs with other foreign
  · exact .refl g
  · rcases adopted : adoptable w h with _ | p
    · simp only [adoptOrphanMaster, adopted]
      exact .refl g
    · simp only [adoptOrphanMaster, adopted]
      obtain ⟨taken, own⟩ := g.adopted adopted
      exact taken.trans (taken.good.startRest fun _ => own)
  · refine g.startRest fun assigned => ?_
    rcases alive : h.adminAlive with _ | _
    · exact g.honest.silent assigned alive
    · rw [alive, Bool.true_and, Bool.not_eq_true, Bool.not_eq_false'] at foreign
      exact g.own_of_ownerOk alive foreign

theorem Good.stopGateway (g : Good w h) : Onward w h (stopGateway w h) := by
  unfold CaddyControl.stopGateway
  split_ifs
  · exact g.caddyStop
  · exact .refl g

theorem Good.perform (g : Good w h) (operation : Operation) : Good w (operation.perform w h) := by
  cases operation with
  | reloadAll => exact g.reloadAll.good
  | syncMainConfig => exact g.syncMainConfig.good
  | caddyStop => exact g.caddyStop.good
  | ensureCaddyRunning => exact g.ensureCaddyRunning.good
  | startGateway => exact g.startGateway.good
  | stopGateway => exact g.stopGateway.good

theorem step_good {a : Action} (g : Good w h) (right : EvidenceRight w h a) (taken : step w h a = some h') :
    Good w h' := by
  cases a with
  | perform operation =>
    cases taken
    exact g.perform operation
  | becomes later =>
    cases taken
    exact ⟨⟨right.silent, right.named, right.adopts, right.legacy⟩, g.sent⟩

/-- From evidence that is right, and as long as nothing else makes it wrong, every request goes to a
master of the workspace. -/
theorem right_evidence_sends_own {as : List Action} (honest : Honest w h) (fresh : h.sent = [])
    (run : Run (step w) (EvidenceRight w) h as h') : SentToOwn h' := by
  have start : SentToOwn h := by
    rw [SentToOwn, fresh]
    nofun
  have good : Good w h' := run.invariant ⟨honest, start⟩ fun _ _ _ g ok taken => step_good g ok taken
  exact good.sent

/-- The workspace of the runs below. -/
def exampleWorkspace : Workspace := ⟨"/srv/lwa".toList, "/srv/lwa".toList, 0, "lwa"⟩

/-- A host without any process, on which `caddy start` leaves a master. -/
def emptyHost : Host where
  procs := fun _ => none
  listener := fun _ => none
  answers := fun _ => false
  lsof := true
  pidFile := none
  adminPort := none
  caddy := true
  mainExists := false
  outcomes := List.replicate 3 ⟨true, 7, true, true, true, true⟩
  sent := []

theorem emptyHost_honest : Honest exampleWorkspace emptyHost :=
  ⟨fun _ _ p listens => (by cases listens), fun alive => (by cases alive), fun p adopted => (by cases adopted),
    fun reach => (by cases reach)⟩

theorem right_evidence_sends_own_reload :
    ∃ h', Run (step exampleWorkspace) (EvidenceRight exampleWorkspace) emptyHost [.perform .reloadAll] h' ∧
      h'.sent = [⟨.load, 7, true⟩] ∧ SentToOwn h' := by
  have run : ∃ h', Run (step exampleWorkspace) (EvidenceRight exampleWorkspace) emptyHost [.perform .reloadAll] h' ∧
      h'.sent = [⟨.load, 7, true⟩] := ⟨_, .cons trivial rfl (.refl _), rfl⟩
  obtain ⟨h', run, sent⟩ := run
  exact ⟨h', run, sent, right_evidence_sends_own emptyHost_honest rfl run⟩

/-! ## A pid that was used again -/

/-- `run/caddy.pid` names an editor of the service user, and the master of another workspace listens on
the admin port. -/
def reusedHost : Host where
  procs := fun p => match p with
    | 7 => some ⟨some "lwa", "vi".toList, false⟩
    | 9 => some ⟨some "lwa", "caddy run --config /srv/other/static-gateway/Caddyfile".toList, false⟩
    | _ => none
  listener := fun port => if port = 20201 then some 9 else none
  answers := fun port => port = 20201
  lsof := true
  pidFile := some 7
  adminPort := some 20201
  caddy := true
  mainExists := true
  outcomes := List.replicate 2 ⟨true, 0, false, false, false, false⟩
  sent := []

theorem reused_pid_loads_foreign :
    ¬ ∀ w h as h', h.sent = [] → Run (step w) anyStep h as h' → SentToOwn h' := by
  intro all
  have ran : ∃ h', exec (step exampleWorkspace) reusedHost [.perform .reloadAll] = some h' ∧
      h'.sent = [⟨.load, 9, false⟩] := ⟨_, rfl, rfl⟩
  obtain ⟨h', ran, sent⟩ := ran
  have own := all exampleWorkspace reusedHost _ h' rfl (.of_exec ran)
  rw [SentToOwn, sent] at own
  cases own _ List.mem_cons_self

end LocalWebAccess.CaddyControl
