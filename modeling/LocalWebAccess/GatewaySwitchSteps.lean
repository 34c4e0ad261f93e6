import LocalWebAccess.GatewaySwitch

/-!
# One call in the switch lock

What a call leaves when it ends, the condition on its steps, and what holds at each of
its places: on the way to the target, or in a rollback that has nothing to undo.
-/
namespace LocalWebAccess.GatewaySwitch
open GuardedRuns

/-! ## What a call leaves -/

namespace Shared

/-- The configuration, the manifests and the rows say that the target is in use. -/
def Switched (s : Shared) (config : ConfigId) (target : Backend) : Prop :=
  (s.config config).staticGateway = target ∧ (∃ d, s.yml = some d ∧ d.content.staticGateway = target) ∧
    (∀ i ∈ s.instances, ∀ static, s.staticOf i = some static → static.gateway = target) ∧
    ∀ i row, s.staticSites i = some row → row.gateway = target

/-- The process that serves is the one of the configuration. -/
def Matching (s : Shared) : Prop :=
  ∀ d, s.yml = some d → (s.caddy.isSome ↔ d.content.staticGateway = .caddy)

/-- No file of a snapshot has carriage returns. -/
def Plain (s : Shared) : Prop :=
  s.yml.map Document.reread = s.yml ∧ s.gatewayJson.map Document.reread = s.gatewayJson ∧
    (∀ i, (s.sites i).map Document.reread = s.sites i) ∧ (∀ i, (s.aliases i).map Document.reread = s.aliases i) ∧
    ∀ i, (s.manifests i).map Document.reread = s.manifests i

/-- Every row belongs to a registered instance whose manifest is that of a static site. -/
def Covered (s : Shared) : Prop :=
  ∀ i row, s.staticSites i = some row → i ∈ s.instances ∧ ∃ static, s.staticOf i = some static

/-- The master is online as its state file says, and no builtin server is left. -/
def Online (s : Shared) : Prop :=
  ∃ pid d, s.caddy = some pid ∧ s.gatewayJson = some d ∧
    (d.content.enabled = false ∨ d.content.pid = some pid ∧ d.content.failures = 0) ∧ s.builtin = fun _ => false

/-- No address is refreshed. -/
def NoPorts (s : Shared) : Prop :=
  ∀ i ∈ s.instances, ∀ static, s.staticOf i = some static → static.hostPort = none

end Shared

/-- A switch takes place, or nothing happens, unless it is reported as degraded. -/
def Outcome.Atomic (o : Outcome) : Prop :=
  (o.ok = true → o.noop = false → o.after.Switched o.config o.target) ∧
    (o.ok = false → o.degraded = false → o.after = o.before ∧ (o.before.Matching → o.after.Matching))

/-- The call works from `before` to `after` with no other call in between, its plan included. -/
def Outcome.Alone (o : Outcome) : Prop :=
  ∃ plan trace job, o.before.planSwitch o.config o.target = some plan ∧ plan.noop = false ∧
    Run body anyStep (o.before, .start o.config plan) trace (o.after, job) ∧ job.pc = .finished o.ok o.degraded

/-- The calls of the list, the last one first, have worked one after the other. -/
inductive Serial (call : CallId → Call) (start : Shared) : List CallId → Shared → Prop where
  | nil : Serial call start [] start
  | cons {c o order} (later : c ∉ order) (ended : call c = .ended o) (alone : o.Alone)
      (earlier : Serial call start order o.before) : Serial call start (c :: order) o.after

/-- The calls that had the lock have worked one after the other up to the state in which the present holder got it,
and the others have done nothing. -/
def State.Serialised (s : State) (start : Shared) : Prop :=
  ∃ order base, Serial s.call start order base ∧ (s.lock = none → base = s.shared) ∧
    (∀ c job before, s.call c = .locked job before → base = before) ∧
    ∀ c o, s.call c = .ended o → c ∈ order ∨ o.after = o.before

/-! ## Where the code keeps the claim -/

/-- The `Config` object of the caller has the target already. -/
def Job.Assigned (s : Shared) (j : Job) : Prop := (s.config j.config).staticGateway = j.plan.toBackend

/-- What the step of a call has to meet. A rollback does not end well once the `Config` object was written. -/
def Job.Meets (s : Shared) (j : Job) (o : Observed) : Prop :=
  match j.pc with
  | .stopping => o.ok = false → o.half = false ∧ s.Plain
  | .passing => s.Covered
  | .rereading => j.Assigned s → o.ok = true
  | .reviving => ¬ j.Assigned s → o.ok = true → s.Online
  | .reviewing => o.ok = true → ¬ j.Assigned s ∧ (o.lan = false ∨ s.NoPorts)
  | _ => True

/-- A call gets the lock with a plan that is still right, and no call is a dry run. -/
def Guard (s : State) : Action → Prop
  | .called _ _ _ dryRun => dryRun = false
  | .acquires c => ∀ config plan, s.call c = .waiting config plan →
      s.shared.planSwitch config plan.toBackend = some plan ∧ plan.noop = false
  | .timesOut _ => True
  | .proceeds c o => ∀ job before, s.call c = .locked job before → job.Meets s.shared o

/-! ## What the effects leave alone -/

namespace Shared

variable {s : Shared} {i k : InstanceId} {o : Observed}

theorem load_save (m : Manifest) : (s.save i m).load k = if k = i then some m else s.load k := by
  by_cases same : k = i
  · subst same
    simp [load, save, Document.written]
  · simp [load, save, same]

theorem staticOf_save (m : Manifest) : (s.save i m).staticOf k = if k = i then m.static else s.staticOf k := by
  rw [staticOf, load_save]
  by_cases same : k = i
  · simp [same]
  · simp [same, staticOf]

theorem staticOf_stamp (rest : ℕ) : (s.stamp i rest).staticOf k = s.staticOf k := by
  unfold stamp
  cases loaded : s.load i with
  | none => rfl
  | some m =>
    rw [staticOf_save]
    split
    · rename_i same
      subst same
      simp [staticOf, loaded]
    · rfl

/-- A stamp changes a manifest alone. -/
theorem stamp_eq (rest : ℕ) : ∃ manifests, s.stamp i rest = { s with manifests := manifests } := by
  unfold stamp
  cases s.load i with
  | none => exact ⟨s.manifests, rfl⟩
  | some m => exact ⟨_, rfl⟩

theorem refresh_eq (rest : ℕ) (more : List InstanceId) :
    ∃ manifests, s.refresh rest more = { s with manifests := manifests } := by
  induction more generalizing s with
  | nil => exact ⟨s.manifests, rfl⟩
  | cons i more ih =>
    unfold refresh
    split
    · split
      · obtain ⟨manifests, stamped⟩ := stamp_eq (s := s) (i := i) rest
        obtain ⟨manifests', refreshed⟩ := ih (s := s.stamp i rest)
        exact ⟨manifests', by rw [refreshed, stamped]⟩
      · exact ih
    · exact ih

theorem staticOf_refresh (rest : ℕ) (more : List InstanceId) : (s.refresh rest more).staticOf k = s.staticOf k := by
  induction more generalizing s with
  | nil => rfl
  | cons i more ih =>
    unfold refresh
    split
    · split
      · rw [ih, staticOf_stamp]
      · exact ih
    · exact ih

theorem refresh_of_noPorts (h : s.NoPorts) (rest : ℕ) {more : List InstanceId} (known : ∀ i ∈ more, i ∈ s.instances) :
    s.refresh rest more = s := by
  induction more with
  | nil => rfl
  | cons i more ih =>
    have later : s.refresh rest more = s := ih fun k mem => known k (.tail i mem)
    unfold refresh
    split
    · rename_i static there
      rw [if_neg (by simp [h i (known i (.head more)) static there])]
      exact later
    · exact later

theorem Switched.refresh {config : ConfigId} {target : Backend} (h : s.Switched config target) (rest : ℕ)
    (more : List InstanceId) : (s.refresh rest more).Switched config target := by
  obtain ⟨own, yml, manifests, rows⟩ := h
  obtain ⟨written, same⟩ := refresh_eq (s := s) rest more
  refine ⟨?_, ?_, ?_, ?_⟩
  · rw [same]
    exact own
  · rw [same]
    exact yml
  · intro i mem static there
    rw [staticOf_refresh] at there
    rw [same] at mem
    exact manifests i mem static there
  · intro i row there
    rw [same] at there
    exact rows i row there

theorem startGateway_of_online (h : s.Online) : s.startGateway o = s := by
  obtain ⟨pid, d, online, json, current, down⟩ := h
  have state : refreshedState pid o.number s.gatewayJson = s.gatewayJson := by
    rw [json]
    rcases current with off | ⟨same, none⟩
    · simp [refreshedState, off]
    · simp [refreshedState, same, none]
  simp only [startGateway, online, state]
  rw [← online, ← down]

/-- A snapshot that says what is there is written over it. -/
theorem overlay_same {α : Type} {snap files : InstanceId → Option α} (same : ∀ i d, snap i = some d → files i = some d)
    (reached : InstanceId → Prop) [DecidablePred reached] : overlay snap files reached = files := by
  funext i
  unfold overlay
  split
  · cases there : snap i with
    | none => rfl
    | some d => exact (same i d there).symm
  · rfl

theorem unlink_same {α : Type} {snap files : InstanceId → Option α} (same : ∀ i, snap i = files i)
    (left : List InstanceId) : unlink snap files left = files := by
  funext i
  unfold unlink
  split
  · rename_i gone
    rw [same, Option.isNone_iff_eq_none] at gone
    exact gone.1.symm
  · rfl

end Shared

/-! ## One call in the lock -/

namespace Shared

/-- The sites that are not in the list have the target in their manifests and rows. -/
def Synced (s : Shared) (target : Backend) (pending : List InstanceId) : Prop :=
  ∀ i ∈ s.instances, ∀ static, s.staticOf i = some static →
    i ∈ pending ∨ static.gateway = target ∧ ∀ row, s.staticSites i = some row → row.gateway = target

/-- The list was read from the manifests, of which some have got the target since. -/
def Listed (s : Shared) (target : Backend) (todo : List (InstanceId × Manifest × StaticConfig)) : Prop :=
  ∀ e ∈ todo, ∀ static, s.staticOf e.1 = some static → static.gateway = target ∨ static = e.2.2

theorem mem_iterStaticInstances {s : Shared} {i : InstanceId} {m : Manifest} {static : StaticConfig} :
    (i, m, static) ∈ s.iterStaticInstances ↔ i ∈ s.instances ∧ s.load i = some m ∧ m.static = some static := by
  simp only [iterStaticInstances, List.mem_filterMap, Option.bind_eq_some_iff, Option.map_eq_some_iff, Prod.mk.injEq]
  constructor
  · rintro ⟨k, mem, m', loaded, static', there, rfl, rfl, rfl⟩
    exact ⟨mem, loaded, there⟩
  · rintro ⟨mem, loaded, there⟩
    exact ⟨i, mem, m, loaded, static, there, rfl, rfl, rfl⟩

variable {s : Shared} {target : Backend}

theorem synced_start : s.Synced target (s.iterStaticInstances.map (·.1)) := by
  intro i mem static there
  obtain ⟨m, loaded, there⟩ := Option.bind_eq_some_iff.mp there
  exact .inl (List.mem_map.mpr ⟨(i, m, static), mem_iterStaticInstances.mpr ⟨mem, loaded, there⟩, rfl⟩)

theorem listed_start : s.Listed target s.iterStaticInstances := by
  rintro ⟨i, m, static⟩ mem static' there
  obtain ⟨-, loaded, listed⟩ := mem_iterStaticInstances.mp mem
  rw [staticOf, loaded] at there
  exact .inr (Option.some.inj (there.symm.trans listed))

end Shared

/-- The places of a rollback. -/
def Pc.RollsBack : Pc → Prop
  | .restoringYml | .restoringJson | .restoringSites | .restoringAliases | .unlinking | .restoringManifests
  | .restoringRows | .rereading | .reviving | .reEnabling _ | .reviewing => True
  | _ => False

namespace Job

/-- The switch was decided in the state in which the call got the lock. -/
def Planned (before : Shared) (j : Job) : Prop :=
  before.planSwitch j.config j.plan.toBackend = some j.plan ∧ j.plan.noop = false

/-- The target is in the `Config` object and in the file. -/
def Written (s : Shared) (j : Job) : Prop :=
  j.Assigned s ∧ ∃ d, s.yml = some d ∧ d.content.staticGateway = j.plan.toBackend

/-- The master could not be stopped, and the rollback writes what is there. -/
def Untouched (before s : Shared) (j : Job) : Prop :=
  s = before ∧ j.snap = before.takeSnapshot ∧ before.Plain ∧ j.plan.fromBackend = .caddy

/-- What holds at the places of a call that got the lock at `before`. -/
def Fact (before s : Shared) (j : Job) : Prop :=
  match j.pc with
  | .snapshotting => s = before
  | .backing => s = before ∧ j.snap = before.takeSnapshot
  | .stopping => s = before ∧ j.snap = before.takeSnapshot ∧ j.plan.toBackend = .builtin
  | .assigning => True
  | .saving => j.Assigned s
  | .loading | .enabling _ | .starting | .rebuilding _ _ | .reloading _ | .verifying _ => j.Written s
  | .syncing todo =>
    j.Written s ∧ s.Synced j.plan.toBackend (todo.map (·.1)) ∧ s.Listed j.plan.toBackend todo
  | .upserting i static todo =>
    j.Written s ∧ s.Synced j.plan.toBackend (i :: todo.map (·.1)) ∧ s.Listed j.plan.toBackend todo ∧
      static.gateway = j.plan.toBackend ∧ ∀ st, s.staticOf i = some st → st.gateway = j.plan.toBackend
  | .passing => j.Written s ∧ s.Synced j.plan.toBackend []
  | .restoringYml | .restoringJson | .restoringSites | .restoringAliases | .unlinking | .restoringManifests
  | .restoringRows | .rereading | .reviving | .reviewing => j.Assigned s ∨ j.Untouched before s
  | .reEnabling _ => j.Assigned s
  | .finished ok degraded =>
    (ok = true → s.Switched j.config j.plan.toBackend) ∧ (ok = false → degraded = false → s = before)

variable {before s t : Shared} {j : Job} {o : Observed}

theorem Assigned.of_config (h : j.Assigned s) (config : t.config = s.config) : j.Assigned t := by
  rw [Assigned, config]
  exact h

theorem Written.keep (h : j.Written s) (config : t.config = s.config) (yml : t.yml = s.yml) : j.Written t := by
  refine ⟨h.1.of_config config, ?_⟩
  rw [yml]
  exact h.2

/-- A plan that is no noop goes from one backend to the other. -/
theorem Planned.ne (h : j.Planned before) : (before.config j.config).staticGateway ≠ j.plan.toBackend := by
  intro same
  obtain ⟨planned, switches⟩ := h
  unfold Shared.planSwitch at planned
  rw [if_pos same, Option.some.injEq] at planned
  rw [← planned] at switches
  cases switches

theorem Planned.source (h : j.Planned before) : j.plan.fromBackend = (before.config j.config).staticGateway := by
  obtain ⟨planned, -⟩ := h
  simp only [Shared.planSwitch] at planned
  split at planned
  · rw [← Option.some.inj planned]
  · obtain ⟨-, planned⟩ := Option.ite_none_left_eq_some.mp planned
    obtain ⟨-, planned⟩ := Option.ite_none_left_eq_some.mp planned
    rw [← Option.some.inj planned]

theorem Planned.source_of_builtin (h : j.Planned before) (target : j.plan.toBackend = .builtin) :
    j.plan.fromBackend = .caddy := by
  cases source : j.plan.fromBackend with
  | caddy => rfl
  | builtin => exact absurd (h.source.symm.trans (source.trans target.symm)) h.ne

theorem Planned.unassigned (h : j.Planned before) : ¬ j.Assigned before := h.ne

end Job

namespace Shared

variable {s : Shared} {o : Observed} {target : Backend} {i : InstanceId} {static : StaticConfig}
  {todo : List (InstanceId × Manifest × StaticConfig)}

theorem startGateway_frame : (s.startGateway o).config = s.config ∧ (s.startGateway o).yml = s.yml := by
  unfold startGateway
  split <;> exact ⟨rfl, rfl⟩

theorem startGatewayFails_config : (s.startGatewayFails o).config = s.config := by
  unfold startGatewayFails
  split
  · rfl
  · split
    · exact startGateway_frame.1
    · rfl

theorem enableBuiltin_frame :
    (s.enableBuiltin i static o).config = s.config ∧ (s.enableBuiltin i static o).yml = s.yml := by
  unfold enableBuiltin
  dsimp only
  split
  · obtain ⟨manifests, same⟩ := stamp_eq (s := { s with
      sites := Function.update s.sites i (some (.written o.number))
      builtin := Function.update s.builtin i true }) (i := i) o.number
    rw [same]
    exact ⟨rfl, rfl⟩
  · exact ⟨rfl, rfl⟩

theorem Synced.save {m : Manifest} (h : s.Synced target (i :: todo.map (·.1))) :
    (s.save i m).Synced target (i :: todo.map (·.1)) := by
  intro k mem st there
  by_cases same : k = i
  · subst same
    exact .inl (.head _)
  · rw [staticOf_save, if_neg same] at there
    exact h k mem st there

/-- A manifest with the target is no obstacle to the rest of the list. -/
theorem Listed.save {m : Manifest} (h : s.Listed target todo) (synced : m.static = some static)
    (gateway : static.gateway = target) : (s.save i m).Listed target todo := by
  intro e mem st there
  rw [staticOf_save] at there
  split at there
  · obtain rfl := Option.some.inj (synced.symm.trans there)
    exact .inl gateway
  · exact h e mem st there

theorem Synced.upsert (h : s.Synced target (i :: todo.map (·.1))) (gateway : static.gateway = target)
    (manifest : ∀ st, s.staticOf i = some st → st.gateway = target) :
    Synced { s with staticSites := Function.update s.staticSites i (some static) } target (todo.map (·.1)) := by
  intro k mem st there
  by_cases same : k = i
  · subst same
    refine .inr ⟨manifest st there, ?_⟩
    intro row stored
    simp only [Function.update_self, Option.some.injEq] at stored
    rw [← stored]
    exact gateway
  · rcases h k mem st there with pending | ⟨own, rows⟩
    · exact .inl ((List.mem_cons.mp pending).resolve_left same)
    · refine .inr ⟨own, ?_⟩
      intro row stored
      exact rows row ((Function.update_of_ne same (some static) s.staticSites).symm.trans stored)

theorem Synced.switched {config : ConfigId} (h : s.Synced target []) (covered : s.Covered)
    (own : (s.config config).staticGateway = target) (yml : ∃ d, s.yml = some d ∧ d.content.staticGateway = target) :
    s.Switched config target := by
  refine ⟨own, yml, ?_, ?_⟩
  · intro i mem static there
    rcases h i mem static there with pending | ⟨gateway, -⟩
    · cases pending
    · exact gateway
  · intro i row stored
    obtain ⟨mem, static, there⟩ := covered i row stored
    rcases h i mem static there with pending | ⟨-, rows⟩
    · cases pending
    · exact rows row stored

end Shared

namespace Job

variable {before s t : Shared} {j j' : Job} {o : Observed}

/-- A step changes the place of the call, and once its snapshot. -/
theorem body_same (taken : body (s, j) o = some (t, j')) : j'.config = j.config ∧ j'.plan = j.plan := by
  grind [body, goto, raised, degrades]

/-- The rollback of a call that could not stop the master writes what is there. -/
theorem untouched_restore (h : j.Untouched before s) :
    (∀ i d, j.snap.sites i = some d → s.sites i = some d) ∧ (∀ i d, j.snap.aliases i = some d → s.aliases i = some d) ∧
      (∀ i d, j.snap.manifests i = some d → s.manifests i = some d) ∧
      (∀ i row, j.snap.staticSites i = some row → s.staticSites i = some row) ∧
      (∀ i, j.snap.sites i = s.sites i) ∧ (∀ i, j.snap.aliases i = s.aliases i) ∧
      j.snap.yml.or s.yml = s.yml ∧ j.snap.gatewayJson.or s.gatewayJson = s.gatewayJson := by
  obtain ⟨rfl, snap, ⟨yml, json, sites, aliases, manifests⟩, -⟩ := h
  rw [snap]
  refine ⟨?_, ?_, ?_, ?_, sites, aliases, ?_, ?_⟩
  · exact fun i d there => (sites i).symm.trans there
  · exact fun i d there => (aliases i).symm.trans there
  · intro i d there
    obtain ⟨-, there⟩ := Option.ite_none_right_eq_some.mp there
    exact (manifests i).symm.trans there
  · intro i row there
    exact (Option.ite_none_right_eq_some.mp there).2
  · change (s.yml.map Document.reread).or s.yml = s.yml
    rw [yml, Option.or_self]
  · change (s.gatewayJson.map Document.reread).or s.gatewayJson = s.gatewayJson
    rw [json, Option.or_self]

/-- A degraded end promises nothing. -/
theorem degraded_fact : (j.degrades).Fact before s := by
  constructor
  · intro ok
    cases ok
  · intro _ degraded
    cases degraded

/-- A call that ends before its transaction has done nothing. -/
theorem early_fact (h : s = before) : (j.goto (.finished false false)).Fact before s := by
  constructor
  · intro ok
    cases ok
  · exact fun _ _ => h

/-- A step of the rollback changes nothing in a call that has not come to write its configuration. -/
theorem keep {pc : Pc} (known : j.Assigned s ∨ j.Untouched before s) (config : t.config = s.config)
    (same : j.Untouched before s → t = s) : (j.goto pc).Assigned t ∨ (j.goto pc).Untouched before t := by
  rcases known with assigned | untouched
  · exact .inl (assigned.of_config config)
  · exact .inr ⟨(same untouched).trans untouched.1, untouched.2⟩

/-- The steps of `_rollback`. -/
theorem rollback_fact (planned : j.Planned before) (fact : j.Fact before s) (meets : j.Meets s o)
    (taken : body (s, j) o = some (t, j')) (back : j.pc.RollsBack) : j'.Fact before t := by
  obtain ⟨c, plan, snap, pc⟩ := j
  cases pc with
  | restoringYml =>
    simp only [body] at taken
    split at taken <;> cases taken
    · refine keep fact ?_ fun untouched => ?_
      · rfl
      · rw [(untouched_restore untouched).2.2.2.2.2.2.1]
    · exact degraded_fact
  | restoringJson =>
    simp only [body] at taken
    split at taken <;> cases taken
    · refine keep fact ?_ fun untouched => ?_
      · rfl
      · rw [(untouched_restore untouched).2.2.2.2.2.2.2]
    · exact degraded_fact
  | restoringSites =>
    cases taken
    split
    · refine keep fact ?_ fun untouched => ?_
      · rfl
      · rw [Shared.overlay_same (untouched_restore untouched).1]
    · exact degraded_fact
  | restoringAliases =>
    cases taken
    split
    · refine keep fact ?_ fun untouched => ?_
      · rfl
      · rw [Shared.overlay_same (untouched_restore untouched).2.1]
    · exact degraded_fact
  | unlinking =>
    cases taken
    refine keep fact ?_ fun untouched => ?_
    · rfl
    · obtain ⟨-, -, -, -, sites, aliases, -, -⟩ := untouched_restore untouched
      rw [Shared.unlink_same sites, Shared.unlink_same aliases]
  | restoringManifests =>
    cases taken
    split
    · refine keep fact ?_ fun untouched => ?_
      · rfl
      · rw [Shared.overlay_same (untouched_restore untouched).2.2.1]
    · exact degraded_fact
  | restoringRows =>
    cases taken
    split
    · refine keep fact ?_ fun untouched => ?_
      · rfl
      · rw [Shared.overlay_same (untouched_restore untouched).2.2.2.1]
    · exact degraded_fact
  | rereading =>
    simp only [body] at taken
    split at taken <;> cases taken
    · exact fact
    · rename_i failed
      rcases fact with assigned | untouched
      · exact absurd (meets assigned) failed
      · exact early_fact untouched.1
  | reviving =>
    simp only [body] at taken
    split at taken
    · split at taken <;> cases taken
      · rename_i ok
        refine keep fact Shared.startGateway_frame.1 ?_
        rintro ⟨rfl, -⟩
        exact Shared.startGateway_of_online (meets planned.unassigned ok)
      · exact degraded_fact
    · rename_i source
      rcases fact with assigned | ⟨-, -, -, caddy⟩
      · split at taken <;> cases taken
        · apply Assigned.of_config assigned
          split <;> rfl
        · exact degraded_fact
      · cases caddy.symm.trans source
  | reEnabling todo =>
    have assigned : Assigned s ⟨c, plan, snap, .reEnabling todo⟩ := fact
    cases todo with
    | nil =>
      cases taken
      exact .inl assigned
    | cons e todo =>
      simp only [body] at taken
      split at taken
      · split at taken <;> cases taken
        · exact assigned.of_config Shared.enableBuiltin_frame.1
        · exact degraded_fact
      · cases taken
        exact assigned
  | reviewing =>
    cases taken
    by_cases ok : o.ok = true
    · obtain ⟨unassigned, quiet⟩ := meets ok
      rw [if_pos ok]
      rcases fact with assigned | ⟨rfl, -⟩
      · exact absurd assigned unassigned
      · apply early_fact
        split
        · rename_i lan
          rcases quiet with offline | none
          · cases offline.symm.trans lan
          · exact Shared.refresh_of_noPorts none _ fun i mem => (List.mem_filter.mp mem).1
        · rfl
    · rw [if_neg ok]
      exact degraded_fact
  | _ => cases back

/-- The steps of the transaction, and those of its rollback. -/
theorem body_fact (planned : j.Planned before) (fact : j.Fact before s) (meets : j.Meets s o)
    (taken : body (s, j) o = some (t, j')) : j'.Fact before t := by
  obtain ⟨c, plan, snap, pc⟩ := j
  cases pc with
  | snapshotting =>
    simp only [body] at taken
    split at taken <;> cases taken
    · exact ⟨fact, by rw [fact]; rfl⟩
    · exact early_fact fact
  | backing =>
    simp only [body] at taken
    split at taken <;> cases taken
    · split
      · rename_i target
        exact ⟨fact.1, fact.2, target⟩
      · trivial
    · exact early_fact fact.1
  | stopping =>
    simp only [body] at taken
    split at taken
    · cases taken
      trivial
    · rename_i failed
      obtain ⟨intact, plain⟩ := meets (Bool.eq_false_iff.mpr failed)
      obtain ⟨same, snap, target⟩ := fact
      simp only [intact] at taken
      cases taken
      exact .inr ⟨same, snap, same ▸ plain, planned.source_of_builtin target⟩
  | assigning =>
    cases taken
    simp [Fact, goto, Assigned]
  | saving =>
    simp only [body] at taken
    split at taken <;> cases taken
    · exact ⟨fact, _, rfl, fact⟩
    · split
      · exact .inl fact
      · exact .inl fact
  | loading =>
    simp only [body] at taken
    split at taken <;> cases taken
    · split
      · exact fact
      · exact fact
    · exact .inl fact.1
  | enabling todo =>
    have written : Written s ⟨c, plan, snap, .enabling todo⟩ := fact
    cases todo with
    | nil =>
      cases taken
      exact ⟨fact, Shared.synced_start, Shared.listed_start⟩
    | cons e todo =>
      simp only [body] at taken
      split at taken
      · split at taken <;> cases taken
        · exact written.keep Shared.enableBuiltin_frame.1 Shared.enableBuiltin_frame.2
        · exact .inl fact.1
      · cases taken
        exact fact
  | starting =>
    have written : Written s ⟨c, plan, snap, .starting⟩ := fact
    simp only [body] at taken
    split at taken <;> cases taken
    · exact written.keep Shared.startGateway_frame.1 Shared.startGateway_frame.2
    · exact .inl (written.1.of_config Shared.startGatewayFails_config)
  | rebuilding todo rebuilt =>
    cases todo with
    | nil =>
      simp only [body] at taken
      split at taken <;> cases taken
      · exact ⟨fact, Shared.synced_start, Shared.listed_start⟩
      · exact fact
    | cons e todo =>
      simp only [body] at taken
      split at taken
      · split at taken <;> cases taken
        · exact fact
        · exact .inl fact.1
      · cases taken
        exact fact
  | reloading rebuilt =>
    simp only [body] at taken
    split at taken <;> cases taken
    · exact fact
    · exact .inl fact.1
  | verifying rebuilt =>
    have written : Written s ⟨c, plan, snap, .verifying rebuilt⟩ := fact
    cases rebuilt with
    | nil =>
      cases taken
      exact ⟨fact, Shared.synced_start, Shared.listed_start⟩
    | cons i rebuilt =>
      simp only [body] at taken
      split at taken <;> cases taken
      · obtain ⟨manifests, same⟩ := Shared.stamp_eq (s := s) (i := i) o.number
        rw [same]
        exact written.keep rfl rfl
      · exact fact
  | syncing todo =>
    cases todo with
    | nil =>
      cases taken
      exact ⟨fact.1, fact.2.1⟩
    | cons e todo =>
      obtain ⟨i, m, static⟩ := e
      obtain ⟨written, synced, listed⟩ := fact
      have later : s.Listed plan.toBackend todo := fun e mem => listed e (.tail _ mem)
      simp only [body] at taken
      split at taken
      · rename_i target
        cases taken
        refine ⟨written, synced, later, target, ?_⟩
        intro st there
        rcases listed _ (.head _) st there with own | rfl
        · exact own
        · exact target
      · split at taken <;> cases taken
        · refine ⟨written, synced.save, later.save rfl rfl, rfl, ?_⟩
          intro st there
          rw [Shared.staticOf_save, if_pos rfl] at there
          obtain rfl := Option.some.inj there
          rfl
        · exact .inl written.1
  | upserting i static todo =>
    obtain ⟨written, synced, listed, target, manifest⟩ := fact
    simp only [body] at taken
    split at taken <;> cases taken
    · exact ⟨written, synced.upsert target manifest, listed⟩
    · exact .inl written.1
  | passing =>
    obtain ⟨⟨own, yml⟩, synced⟩ := fact
    have switched : s.Switched c plan.toBackend := synced.switched meets own yml
    simp only [body] at taken
    split at taken <;> cases taken
    · exact ⟨fun _ => switched.refresh _ _, fun failed => by cases failed⟩
    · exact ⟨fun _ => switched, fun failed => by cases failed⟩
  | finished ok degraded => cases taken
  | _ => exact rollback_fact planned fact meets taken trivial

end Job

end LocalWebAccess.GatewaySwitch
