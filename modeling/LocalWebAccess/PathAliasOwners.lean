import LocalWebAccess.PathAliases

/-!
# One owner for each path alias

Between the moment a call finds an alias free and the moment it writes the row, the alias
is pledged. The rows of an instance agree with its manifest except while the holder of
its lock is between the two, and a manifest in the hands of a holder is the one on disk.
-/
namespace LocalWebAccess.PathAliases
open GuardedRuns

namespace State

/-- An existing instance has a row with the alias in one of the tables. -/
def Serves (s : State) (i : InstanceId) (a : Slug) : Prop :=
  i ∈ s.instances ∧ ∃ table, (s.entry i).rows table = some (some a)

/-- No alias has two owners. -/
def OneOwner (s : State) : Prop := ∀ i j a, s.Serves i a → s.Serves j a → i = j

/-- What was cleared and not set again is neither in the manifest nor in a row. -/
def ClearedAway (s : State) : Prop :=
  ∀ i, ∀ a ∈ (s.entry i).cleared, ¬ s.Serves i a ∧ ∀ m, (s.entry i).manifest = some m → m.routeHost ≠ some a

theorem mem_routeHosts {s : State} {i : InstanceId} {a : Slug} :
    a ∈ s.routeHosts i ↔ ∃ table, (s.entry i).rows table = some (some a) := by
  simp only [routeHosts, List.mem_filterMap, Option.join_eq_some_iff]
  constructor
  · rintro ⟨table, -, h⟩
    exact ⟨table, h⟩
  · rintro ⟨table, h⟩
    exact ⟨table, by cases table <;> simp, h⟩

theorem mem_listRouteHosts {s : State} {e : Option InstanceId} {a : Slug} :
    a ∈ s.listRouteHosts e ↔ ∃ i, e ≠ some i ∧ s.Serves i a := by
  simp only [listRouteHosts, List.mem_flatMap, List.mem_filter, mem_routeHosts, decide_eq_true_eq, Serves]
  constructor
  · rintro ⟨i, ⟨mem, ne⟩, h⟩
    exact ⟨i, ne, mem, h⟩
  · rintro ⟨i, ne, mem, h⟩
    exact ⟨i, ⟨mem, ne⟩, h⟩

end State

namespace Manifest

def SameRoute (m m' : Manifest) : Prop := m.runtime = m'.runtime ∧ m.routeHost = m'.routeHost

/-- Nothing of the manifest was cleared. -/
def Clean (m : Manifest) (cleared : List Slug) : Prop :=
  ∀ a ∈ cleared, m.routeHost ≠ some a ∧ m.desired ≠ some a

theorem rows_serve {m : Manifest} {a : Slug} :
    (∃ table, m.rows table = some (some a)) ↔ m.routeHost = some a := by
  constructor
  · rintro ⟨table, h⟩
    unfold rows at h
    split at h
    · exact Option.some.inj h
    · cases h
  · intro h
    exact ⟨m.runtime, by simp [rows, h]⟩

theorem SameRoute.rows_eq {m m' : Manifest} (h : m.SameRoute m') : m.rows = m'.rows := by
  funext table
  simp only [rows, h.1, h.2]

theorem Clean.mono {m : Manifest} {cleared cleared' : List Slug} (h : m.Clean cleared)
    (sub : ∀ a ∈ cleared', a ∈ cleared) : m.Clean cleared' := fun a mem => h a (sub a mem)

theorem updated_routeHost {m : Manifest} {runtime : Runtime} {pending : Bool} {a : Slug}
    (h : (m.updated runtime pending).routeHost = some a) : m.routeHost = some a := by
  simp only [updated] at h
  split at h
  · exact h
  · cases h

theorem confirmed_routeHost {m : Manifest} {runtime : Runtime} {a : Slug}
    (h : (m.confirmed runtime).routeHost = some a) : m.routeHost = some a := by
  simp only [confirmed] at h
  split at h
  · exact h
  · cases h

theorem Clean.of_sub {m m' : Manifest} {cleared : List Slug} (h : m.Clean cleared)
    (route : ∀ a, m'.routeHost = some a → m.routeHost = some a) (desired : m'.desired = m.desired) :
    m'.Clean cleared := by
  intro a mem
  have ⟨away, unwished⟩ := h a mem
  exact ⟨fun hr => away (route a hr), desired ▸ unwished⟩

end Manifest

/-! ## Where the code keeps the claim -/

namespace Pc

/-- The alias that the call has found free and is about to write, with the instance it left out. -/
def pledge : Pc → Option (Option InstanceId × Slug)
  | importChecked a | importClaimed _ a => some (none, a)
  | importSaved _ m => m.routeHost.map (fun a => (none, a))
  | setChecked i r _ | setSaved i r _ => r.target.map (fun a => (some i, a))
  | _ => none

/-- The manifest is saved and the row is not. -/
def midway : Pc → Option InstanceId
  | setSaved i _ _ | updateSaved i _ _ _ _ | updateRestored i _ _ | confirmSaved i _ _ => some i
  | _ => none

end Pc

/-- No other call is between its own check of the alias and its row. -/
def Uncontested (s : State) (p : CallId) (a : Slug) : Prop :=
  ∀ q pc, q ≠ p → s.calls q = some pc → ∀ e, pc.pledge ≠ some (e, a)

/-- The manifest on disk still has what was read of it, and its instance exists. -/
def Current (s : State) (i : InstanceId) (read : Manifest) : Prop :=
  i ∈ s.instances ∧ ∃ m, (s.entry i).manifest = some m ∧ m.SameRoute read ∧ m.desired = read.desired

/-- A check of an alias meets no other call that has checked the same alias. An import registers the
manifest that is on disk, with the lock of the instance free. An update that takes the lock again, and the
failure branch of a restore, which has no lock, go on only from what they read. A row is upserted only for
an instance that is still there. -/
def Allowed (s : State) (p : CallId) : Pc → Prop
  | .importEntered a => Uncontested s p a
  | .setLoaded _ r _ => ∀ a, r.target = some a → Uncontested s p a
  | .importSaved i m => (s.entry i).manifest = some m ∧ s.locks (.instance i) = none
  | .updateLocked i old => Current s i old
  | .updateSaved i _ _ _ _ | .updateRestored i _ _ | .confirmSaved i _ _ => i ∈ s.instances
  | .restoreFailed i latest | .restoreSaved i latest =>
    Current s i latest ∧ s.locks (.instance i) = none
  | _ => True

/-- No exception comes between the manifest and the row of an existing instance, and none after the row of
an update that has lost the alias. -/
def MayRaise (s : State) : Pc → Prop
  | .setSaved i _ _ => i ∉ s.instances
  | .updateRegistered _ old _ _ new => new.routeHost = old.routeHost
  | _ => True

/-- No process ends between the manifest and the row of an existing instance. -/
def MayEnd (s : State) (pc : Pc) : Prop := ∀ i, pc.midway = some i → i ∉ s.instances

def Guard (s : State) : Action → Prop
  | .called _ _ => True
  | .proceeds p _ => ∀ pc, s.calls p = some pc → Allowed s p pc
  | .raises p => ∀ pc, s.calls p = some pc → MayRaise s pc
  | .ends p => ∀ pc, s.calls p = some pc → MayEnd s pc

/-! ## The invariant -/

/-- The rows are those of the manifest. -/
def Entry.Settled (e : Entry) : Prop := ∃ m, e.manifest = some m ∧ e.rows = m.rows

namespace Pc

/-- The instance that the call knows something about: it has its lock or has claimed it. -/
def site : Pc → Option InstanceId
  | importClaimed i _ | importSaved i _ => some i
  | pc => pc.locked

/-- What the call knows. Most of it holds while the instance exists; an import knows that it does not
exist before its registration. -/
def Fact (listed : Prop) (e : Entry) : Pc → Prop
  | importClaimed _ _ | importSaved _ _ | removed _ => ¬ listed
  | setLoaded _ r m | setChecked _ r m =>
    m.Clean e.cleared ∧ r.mismatches m = false ∧ (listed → ∃ d, e.manifest = some d ∧ d.SameRoute m)
  | setSaved _ r m => listed → e.manifest = some (m.routed r.target) ∧ e.rows = m.rows
  | updateOpened _ old snapshot oldRows =>
    old.Clean e.cleared ∧ snapshot.Clean e.cleared ∧ snapshot.SameRoute old ∧ oldRows = old.rows ∧
      (listed → e.manifest = some snapshot ∧ e.rows = old.rows)
  | updateSaved _ old snapshot oldRows new =>
    snapshot.Clean e.cleared ∧ snapshot.SameRoute old ∧ oldRows = old.rows ∧
      (∀ a, new.routeHost = some a → old.routeHost = some a) ∧
      (listed → e.manifest = some new ∧ e.rows = old.rows)
  | updateRegistered _ old snapshot oldRows new =>
    snapshot.Clean e.cleared ∧ snapshot.SameRoute old ∧ oldRows = old.rows ∧
      (listed → e.manifest = some new ∧ e.rows = new.rows)
  | updateRestored _ old oldRows =>
    oldRows = old.rows ∧ (listed → ∃ snapshot m : Manifest, e.manifest = some snapshot ∧ snapshot.SameRoute old ∧
      e.rows = m.rows ∧ m.routeHost = old.routeHost)
  | updateUndone _ oldRows => listed → e.rows = oldRows
  | confirmLoaded _ old => old.Clean e.cleared ∧ (listed → e.manifest = some old)
  | confirmSaved _ old runtime => listed → e.manifest = some (old.confirmed runtime) ∧ e.rows = old.rows
  | _ => True

theorem Fact.unlist {pc : Pc} {listed : Prop} {e e' : Entry} (h : pc.Fact listed e)
    (sub : ∀ a ∈ e'.cleared, a ∈ e.cleared) : pc.Fact False e' := by
  cases pc with
  | importClaimed | importSaved | removed => exact fun absurd => absurd
  | setLoaded | setChecked => exact ⟨h.1.mono sub, h.2.1, fun absurd => absurd.elim⟩
  | setSaved | updateUndone | confirmSaved => exact fun absurd => absurd.elim
  | updateOpened => exact ⟨h.1.mono sub, h.2.1.mono sub, h.2.2.1, h.2.2.2.1, fun absurd => absurd.elim⟩
  | updateSaved => exact ⟨h.1.mono sub, h.2.1, h.2.2.1, h.2.2.2.1, fun absurd => absurd.elim⟩
  | updateRegistered => exact ⟨h.1.mono sub, h.2.1, h.2.2.1, fun absurd => absurd.elim⟩
  | updateRestored => exact ⟨h.1, fun absurd => absurd.elim⟩
  | confirmLoaded => exact ⟨h.1.mono sub, fun absurd => absurd.elim⟩
  | _ => trivial

theorem locked_of_midway {pc : Pc} {i : InstanceId} (h : pc.midway = some i) : pc.locked = some i := by
  cases pc <;> first | exact h | cases h

theorem site_cases {pc : Pc} {i : InstanceId} (h : pc.site = some i) :
    pc.locked = some i ∨ pc.importing = true ∧ ∀ listed e, pc.Fact listed e ↔ ¬ listed := by
  cases pc with
  | importClaimed | importSaved => exact .inr ⟨rfl, fun _ _ => Iff.rfl⟩
  | _ => exact .inl h

end Pc

structure Inv (s : State) : Prop where
  held : ∀ p pc l, s.calls p = some pc → pc.holds l = true → s.locks l = some p
  facts : ∀ p pc i, s.calls p = some pc → pc.site = some i → pc.Fact (i ∈ s.instances) (s.entry i)
  settled : ∀ i, i ∈ s.instances →
    (s.entry i).Settled ∨ ∃ p pc, s.calls p = some pc ∧ pc.midway = some i
  pledged : ∀ p pc e a, s.calls p = some pc → pc.pledge = some (e, a) → ∀ j, s.Serves j a → e = some j
  distinct : ∀ p pc e a, s.calls p = some pc → pc.pledge = some (e, a) → Uncontested s p a
  oneOwner : s.OneOwner
  clean : ∀ i m, (s.entry i).manifest = some m → m.Clean (s.entry i).cleared
  cleanRows : ∀ i, ∀ a ∈ (s.entry i).cleared, ¬ s.Serves i a

namespace Inv

variable {s t : State} {p : CallId} {i : InstanceId} {pc : Pc} {new : Option Pc} {r : Request} {m : Manifest}
  {cleared : List Slug}

theorem initial : Inv .initial where
  held := by intro p pc l at_p; cases at_p
  facts := by intro p pc i at_p; cases at_p
  settled := by intro i mem; cases mem
  pledged := by intro p pc e a at_p; cases at_p
  distinct := by intro p pc e a at_p; cases at_p
  oneOwner := by intro i j a hi; cases hi.1
  clean := by intro i m on_disk; cases on_disk
  cleanRows := by intro i a mem; cases mem

theorem lock_of (h : Inv s) (at_p : s.calls p = some pc) (locked : pc.locked = some i) :
    s.locks (.instance i) = some p :=
  h.held p pc (.instance i) at_p (by simp [Pc.holds, locked])

/-- An instance whose lock nobody has, or a call that is not midway, has the rows of its manifest. -/
theorem settled_of_lock (h : Inv s) (mem : i ∈ s.instances)
    (lock : ∀ q pc, s.locks (.instance i) = some q → s.calls q = some pc → pc.midway = none) :
    (s.entry i).Settled := by
  rcases h.settled i mem with settled | ⟨q, pc, at_q, mid⟩
  · exact settled
  · have none := lock q pc (h.lock_of at_q (Pc.locked_of_midway mid)) at_q
    cases none.symm.trans mid

/-- A step of one call that changes at most one instance. -/
theorem move (h : Inv s) (calls : t.calls = s.calls) (locks : t.locks = s.locks)
    (apart : ∀ j, j ≠ i → (j ∈ t.instances ↔ j ∈ s.instances) ∧ t.entry j = s.entry j)
    (fresh : ∀ l, new.any (·.holds l) = true → s.locks l = none ∨ s.locks l = some p)
    (stays : ∀ pc j, s.calls p = some pc → pc.midway = some j → j = i)
    (others : ∀ q pc, q ≠ p → s.calls q = some pc → pc.site = some i → pc.Fact (i ∈ t.instances) (t.entry i))
    (site : ∀ pc j, new = some pc → pc.site = some j → pc.Fact (j ∈ t.instances) (t.entry j))
    (settled : i ∈ t.instances → (t.entry i).Settled ∨ (∃ pc, new = some pc ∧ pc.midway = some i) ∨
      ∃ q pc, q ≠ p ∧ s.calls q = some pc ∧ pc.midway = some i)
    (gains : ∀ a, t.Serves i a → s.Serves i a ∨
      ∃ pc e, s.calls p = some pc ∧ pc.pledge = some (e, a) ∧ ∀ j, e = some j → j = i)
    (pledge : ∀ pc e a, new = some pc → pc.pledge = some (e, a) →
      (∀ j, t.Serves j a → e = some j) ∧ Uncontested s p a)
    (clean : ∀ m, (t.entry i).manifest = some m → m.Clean (t.entry i).cleared)
    (cleanRows : ∀ a ∈ (t.entry i).cleared, ¬ t.Serves i a) : Inv (t.become p new) := by
  have serves (j : InstanceId) (a : Slug) (ne : j ≠ i) : t.Serves j a ↔ s.Serves j a := by
    simp only [State.Serves, apart j ne]
  have same (q : CallId) (ne : q ≠ p) : (t.become p new).calls q = s.calls q := by
    simp [State.become, ne, calls]
  have self : (t.become p new).calls p = new := by simp [State.become]
  -- an alias that the instance gains was pledged by the call and so belongs to nobody else
  have alone (j : InstanceId) (a : Slug) (ne : j ≠ i) (hi : t.Serves i a) : ¬ t.Serves j a := by
    intro hj
    rw [serves j a ne] at hj
    rcases gains a hi with old | ⟨pc, e, at_p, pledged, only⟩
    · exact ne (h.oneOwner j i a hj old)
    · exact ne (only j (h.pledged p pc e a at_p pledged j hj))
  constructor
  · intro q qc l at_q holds
    by_cases eq : q = p
    · subst eq
      rw [self] at at_q
      simp [State.become, at_q, holds]
    · rw [same q eq] at at_q
      have lock := h.held q qc l at_q holds
      have lost : new.any (·.holds l) = false := by
        rw [Bool.eq_false_iff]
        intro gained
        rcases fresh l gained with hl | hl
        · cases hl.symm.trans lock
        · exact eq (Option.some.inj (lock.symm.trans hl))
      simp [State.become, lost, locks, lock, eq]
  · intro q qc j at_q at_j
    by_cases eq : q = p
    · subst eq
      rw [self] at at_q
      exact site qc j at_q at_j
    · rw [same q eq] at at_q
      by_cases ne : j = i
      · subst ne
        exact others q qc eq at_q at_j
      · have fact := h.facts q qc j at_q at_j
        rw [← (apart j ne).2, ← (apart j ne).1] at fact
        exact fact
  · intro j mem
    by_cases ne : j = i
    · subst ne
      rcases settled mem with done | ⟨qc, at_new, mid⟩ | ⟨q, qc, eq, at_q, mid⟩
      · exact .inl done
      · exact .inr ⟨p, qc, self.trans at_new, mid⟩
      · exact .inr ⟨q, qc, (same q eq).trans at_q, mid⟩
    · rcases h.settled j ((apart j ne).1.mp mem) with done | ⟨q, qc, at_q, mid⟩
      · exact .inl (by rw [← (apart j ne).2] at done; exact done)
      · have eq : q ≠ p := fun eq => ne (stays qc j (eq ▸ at_q) mid)
        exact .inr ⟨q, qc, (same q eq).trans at_q, mid⟩
  · intro q qc e a at_q pledged j hj
    by_cases eq : q = p
    · subst eq
      rw [self] at at_q
      exact (pledge qc e a at_q pledged).1 j hj
    · rw [same q eq] at at_q
      by_cases ne : j = i
      · subst ne
        rcases gains a hj with old | ⟨pc, e', at_p, mine, -⟩
        · exact h.pledged q qc e a at_q pledged j old
        · exact absurd mine (h.distinct q qc e a at_q pledged p pc (Ne.symm eq) at_p e')
      · exact h.pledged q qc e a at_q pledged j ((serves j a ne).mp hj)
  · intro q qc e a at_q pledged r rc ner at_r e' pledged'
    by_cases eq : q = p
    · subst eq
      rw [self] at at_q
      rw [same r ner] at at_r
      exact (pledge qc e a at_q pledged).2 r rc ner at_r e' pledged'
    · rw [same q eq] at at_q
      by_cases er : r = p
      · subst er
        rw [self] at at_r
        exact (pledge rc e' a at_r pledged').2 q qc eq at_q e pledged
      · rw [same r er] at at_r
        exact h.distinct q qc e a at_q pledged r rc ner at_r e' pledged'
  · intro j k a hj hk
    by_cases nj : j = i
    · subst nj
      by_cases nk : k = j
      · exact nk.symm
      · exact absurd hk (alone k a nk hj)
    · by_cases nk : k = i
      · subst nk
        exact absurd hj (alone j a nj hk)
      · exact h.oneOwner j k a ((serves j a nj).mp hj) ((serves k a nk).mp hk)
  · intro j m on_disk
    by_cases ne : j = i
    · subst ne
      exact clean m on_disk
    · have e : (t.become p new).entry j = s.entry j := (apart j ne).2
      rw [e] at on_disk ⊢
      exact h.clean j m on_disk
  · intro j a mem hj
    by_cases ne : j = i
    · subst ne
      exact cleanRows a mem hj
    · have e : (t.become p new).entry j = s.entry j := (apart j ne).2
      rw [e] at mem
      exact h.cleanRows j a mem ((serves j a ne).mp hj)

/-- What the other calls know stays true when the lock of the instance is theirs in no way. -/
theorem others_of_lock (h : Inv s) (lock : s.locks (.instance i) = none ∨ s.locks (.instance i) = some p)
    {listed : Prop} (sub : listed → i ∈ s.instances) (e : Entry) :
    ∀ q pc, q ≠ p → s.calls q = some pc → pc.site = some i → pc.Fact listed e := by
  intro q pc ne at_q at_i
  rcases Pc.site_cases at_i with locked | ⟨-, unlisted⟩
  · have mine := h.lock_of at_q locked
    rcases lock with free | other
    · cases free.symm.trans mine
    · exact absurd (Option.some.inj (mine.symm.trans other)) ne
  · have fact := h.facts q pc i at_q at_i
    rw [unlisted] at fact ⊢
    exact fun mem => fact (sub mem)

theorem others_of_unlisted (h : Inv s) {listed : Prop} (gone : ¬ listed) {e : Entry}
    (sub : ∀ a ∈ e.cleared, a ∈ (s.entry i).cleared) :
    ∀ q pc, q ≠ p → s.calls q = some pc → pc.site = some i → pc.Fact listed e := by
  intro q pc ne at_q at_i
  rw [eq_false gone]
  exact (h.facts q pc i at_q at_i).unlist sub

/-- A step that only changes where the call stands. A call that is midway stops only where its instance is
gone. -/
theorem turn (h : Inv s) (fresh : ∀ l, new.any (·.holds l) = true → s.locks l = none ∨ s.locks l = some p)
    (still : ∀ pc j, s.calls p = some pc → pc.midway = some j → j ∉ s.instances)
    (site : ∀ pc j, new = some pc → pc.site = some j → pc.Fact (j ∈ s.instances) (s.entry j))
    (pledge : ∀ pc e a, new = some pc → pc.pledge = some (e, a) →
      (∀ j, s.Serves j a → e = some j) ∧ Uncontested s p a) : Inv (s.become p new) := by
  obtain ⟨i, stays⟩ : ∃ i, ∀ pc j, s.calls p = some pc → pc.midway = some j → j = i := by
    cases at_p : s.calls p with
    | none => exact ⟨0, by intro pc j at_pc; cases at_pc⟩
    | some pc =>
      refine ⟨pc.midway.getD 0, ?_⟩
      intro qc j at_q mid
      obtain rfl := Option.some.inj at_q
      simp [mid]
  apply h.move (i := i) rfl rfl (fun j _ => ⟨Iff.rfl, rfl⟩) fresh stays
  · exact fun q pc _ at_q at_i => h.facts q pc i at_q at_i
  · exact site
  · intro mem
    rcases h.settled i mem with done | ⟨q, pc, at_q, mid⟩
    · exact .inl done
    · have ne : q ≠ p := fun eq => still pc i (eq ▸ at_q) mid mem
      exact .inr (.inr ⟨q, pc, ne, at_q, mid⟩)
  · exact fun a serves => .inl serves
  · exact pledge
  · exact h.clean i
  · exact h.cleanRows i

/-- A write of the manifest. The pledge of the call stays what it was. -/
theorem putManifest (h : Inv s) {e : Entry} (rows : e.rows = (s.entry i).rows)
    (sub : ∀ a ∈ e.cleared, a ∈ (s.entry i).cleared) (clean : ∀ m, e.manifest = some m → m.Clean e.cleared)
    (fresh : ∀ l, new.any (·.holds l) = true → s.locks l = none ∨ s.locks l = some p)
    (stays : ∀ pc j, s.calls p = some pc → pc.midway = some j → j = i)
    (others : ∀ q pc, q ≠ p → s.calls q = some pc → pc.site = some i → pc.Fact (i ∈ s.instances) e)
    (site : ∀ pc j, new = some pc → pc.site = some j → j = i ∧ pc.Fact (i ∈ s.instances) e)
    (settled : i ∈ s.instances → e.Settled ∨ ∃ pc, new = some pc ∧ pc.midway = some i)
    (pledge : ∀ pc ev a, new = some pc → pc.pledge = some (ev, a) →
      ∃ old, s.calls p = some old ∧ old.pledge = some (ev, a)) : Inv ((s.put i e).become p new) := by
  have at_i : (s.put i e).entry i = e := by simp [State.put]
  have apart (j : InstanceId) (ne : j ≠ i) : (s.put i e).entry j = s.entry j := by simp [State.put, ne]
  have serves (j : InstanceId) (a : Slug) (hj : (s.put i e).Serves j a) : s.Serves j a := by
    refine ⟨hj.1, ?_⟩
    by_cases ne : j = i
    · subst ne
      rw [← rows, ← at_i]
      exact hj.2
    · rw [← apart j ne]
      exact hj.2
  apply h.move (t := s.put i e) (i := i) rfl rfl (fun j ne => ⟨Iff.rfl, apart j ne⟩) fresh stays
  · rw [at_i]
    exact others
  · intro pc j at_new at_j
    obtain ⟨rfl, fact⟩ := site pc j at_new at_j
    rw [at_i]
    exact fact
  · rw [at_i]
    exact fun mem => (settled mem).imp_right .inl
  · exact fun a hi => .inl (serves i a hi)
  · intro pc ev a at_new pledged
    obtain ⟨old, at_p, before⟩ := pledge pc ev a at_new pledged
    exact ⟨fun j hj => h.pledged p old ev a at_p before j (serves j a hj), h.distinct p old ev a at_p before⟩
  · rw [at_i]
    exact clean
  · rw [at_i]
    exact fun a mem hi => h.cleanRows i a (sub a mem) (serves i a hi)

/-- A write of the rows of an existing instance. What they gain was pledged. -/
theorem putRows (h : Inv s) {e : Entry} (clean : ∀ m, e.manifest = some m → m.Clean e.cleared)
    (away : ∀ a ∈ e.cleared, ∀ table, e.rows table ≠ some (some a))
    (fresh : ∀ l, new.any (·.holds l) = true → s.locks l = none ∨ s.locks l = some p)
    (stays : ∀ pc j, s.calls p = some pc → pc.midway = some j → j = i)
    (others : ∀ q pc, q ≠ p → s.calls q = some pc → pc.site = some i → pc.Fact (i ∈ s.instances) e)
    (site : ∀ pc j, new = some pc → pc.site = some j → j = i ∧ pc.Fact (i ∈ s.instances) e)
    (settled : e.Settled ∨ ∃ pc, new = some pc ∧ pc.midway = some i)
    (gains : ∀ a table, i ∈ s.instances → e.rows table = some (some a) → s.Serves i a ∨
      ∃ pc ev, s.calls p = some pc ∧ pc.pledge = some (ev, a) ∧ ∀ j, ev = some j → j = i)
    (unpledged : ∀ pc, new = some pc → pc.pledge = none) : Inv ((s.put i e).become p new) := by
  have at_i : (s.put i e).entry i = e := by simp [State.put]
  apply h.move (t := s.put i e) (i := i) rfl rfl (fun j ne => ⟨Iff.rfl, by simp [State.put, ne]⟩) fresh stays
  · rw [at_i]
    exact others
  · intro pc j at_new at_j
    obtain ⟨rfl, fact⟩ := site pc j at_new at_j
    rw [at_i]
    exact fact
  · rw [at_i]
    exact fun _ => settled.imp_right .inl
  · intro a hi
    obtain ⟨mem, table, row⟩ := hi
    rw [at_i] at row
    exact gains a table mem row
  · intro pc ev a at_new pledged
    cases (unpledged pc at_new).symm.trans pledged
  · rw [at_i]
    exact clean
  · rw [at_i]
    intro a mem hi
    obtain ⟨-, table, row⟩ := hi
    rw [at_i] at row
    exact away a mem table row

/-! ### Steps that write nothing -/

theorem fresh_of (h : Inv s) (at_p : s.calls p = some pc)
    (gain : ∀ l, new.any (·.holds l) = true → pc.holds l = true ∨ s.free l = true) :
    ∀ l, new.any (·.holds l) = true → s.locks l = none ∨ s.locks l = some p := by
  intro l holds
  rcases gain l holds with kept | free
  · exact .inr (h.held p pc l at_p kept)
  · exact .inl (Option.isNone_iff_eq_none.mp free)

/-- A call at such a place is midway nowhere. -/
theorem not_midway {Q : InstanceId → Prop} (at_p : s.calls p = some pc) (still : pc.midway = none) :
    ∀ qc j, s.calls p = some qc → qc.midway = some j → Q j := by
  intro qc j at_q mid
  obtain rfl := Option.some.inj (at_p.symm.trans at_q)
  cases still.symm.trans mid

theorem walk (h : Inv s) (at_p : s.calls p = some pc) (still : pc.midway = none) {next : Pc}
    (gain : ∀ l, next.holds l = true → pc.holds l = true ∨ s.free l = true)
    (site : ∀ j, next.site = some j → next.Fact (j ∈ s.instances) (s.entry j))
    (unpledged : next.pledge = none) : Inv (s.become p (some next)) := by
  apply h.turn
  · exact h.fresh_of at_p gain
  · exact not_midway at_p still
  · intro qc j at_next at_j
    obtain rfl := Option.some.inj at_next
    exact site j at_j
  · intro qc e a at_next pledged
    obtain rfl := Option.some.inj at_next
    cases unpledged.symm.trans pledged

theorem start (h : Inv s) (idle : s.calls p = none) {next : Pc} (gain : ∀ l, next.holds l = true → s.free l = true)
    (site : ∀ j listed e, next.site = some j → next.Fact listed e) (unpledged : next.pledge = none) :
    Inv (s.become p (some next)) := by
  apply h.turn
  · exact fun l holds => .inl (Option.isNone_iff_eq_none.mp (gain l holds))
  · intro qc j at_q
    cases idle.symm.trans at_q
  · intro qc j at_next at_j
    obtain rfl := Option.some.inj at_next
    exact site j _ _ at_j
  · intro qc e a at_next pledged
    obtain rfl := Option.some.inj at_next
    cases unpledged.symm.trans pledged

theorem finish (h : Inv s) (at_p : s.calls p = some pc) (still : MayEnd s pc) : Inv (s.become p none) := by
  apply h.turn
  · intro l holds
    cases holds
  · intro qc j at_q mid
    obtain rfl := Option.some.inj (at_p.symm.trans at_q)
    exact still j mid
  · intro qc j at_next
    cases at_next
  · intro qc e a at_next
    cases at_next

theorem mayEnd_of_still (still : pc.midway = none) : MayEnd s pc := by
  intro j mid
  cases still.symm.trans mid

/-- The exception of `set_instance_path_alias`. -/
theorem raised (h : Inv s) (at_p : s.calls p = some pc) (r : Request) (still : MayEnd s pc) :
    Inv (s.become p (r.raised i)) := by
  cases r with
  | user => exact h.finish at_p still
  | restore latest =>
    apply h.turn
    · intro l holds
      cases l <;> cases holds
    · intro qc j at_q mid
      obtain rfl := Option.some.inj (at_p.symm.trans at_q)
      exact still j mid
    · intro qc j at_next at_j
      obtain rfl := Option.some.inj at_next
      cases at_j
    · intro qc e a at_next pledged
      obtain rfl := Option.some.inj at_next
      cases pledged

/-! ### Writes of the manifest -/

/-- A save by the holder of the lock of the instance. -/
theorem savedLocked (h : Inv s) (at_p : s.calls p = some pc) (locked : pc.locked = some i)
    (mid : ∀ j, pc.midway = some j → j = i)
    {e : Entry} (rows : e.rows = (s.entry i).rows) (sub : ∀ a ∈ e.cleared, a ∈ (s.entry i).cleared)
    (clean : ∀ m, e.manifest = some m → m.Clean e.cleared) (keeps : ∀ l, new.any (·.holds l) = true → pc.holds l = true)
    (site : ∀ pc j, new = some pc → pc.site = some j → j = i ∧ pc.Fact (i ∈ s.instances) e)
    (settled : i ∈ s.instances → e.Settled ∨ ∃ pc, new = some pc ∧ pc.midway = some i)
    (pledge : ∀ next, new = some next → next.pledge = none ∨ next.pledge = pc.pledge) :
    Inv ((s.put i e).become p new) := by
  apply h.putManifest rows sub clean (h.fresh_of at_p fun l holds => .inl (keeps l holds)) _
    (h.others_of_lock (.inr (h.lock_of at_p locked)) id e) site settled
  · intro next ev a at_next pledged
    rcases pledge next at_next with none | same
    · cases none.symm.trans pledged
    · exact ⟨pc, at_p, same ▸ pledged⟩
  · intro qc j at_q mid'
    obtain rfl := Option.some.inj (at_p.symm.trans at_q)
    exact mid j mid'

theorem saveHeld (h : Inv s) (at_p : s.calls p = some pc) (locked : pc.locked = some i)
    (mid : ∀ j, pc.midway = some j → j = i)
    {m : Manifest} (clean : m.Clean (s.entry i).cleared) (keeps : ∀ l, new.any (·.holds l) = true → pc.holds l = true)
    (site : ∀ pc j, new = some pc → pc.site = some j →
      j = i ∧ pc.Fact (i ∈ s.instances) { s.entry i with manifest := some m, dir := true })
    (settled : i ∈ s.instances → Entry.Settled { s.entry i with manifest := some m, dir := true } ∨
      ∃ pc, new = some pc ∧ pc.midway = some i)
    (unpledged : ∀ next, new = some next → next.pledge = none) : Inv ((s.save i m).become p new) := by
  apply h.savedLocked (e := { s.entry i with manifest := some m, dir := true }) at_p locked mid rfl
    (fun _ mem => mem) _ keeps site settled (fun next at_next => .inl (unpledged next at_next))
  intro m' eq
  obtain rfl := Option.some.inj eq
  exact clean

theorem settled_held (h : Inv s) (at_p : s.calls p = some pc) (locked : pc.locked = some i)
    (mid : pc.midway = none) (mem : i ∈ s.instances) : (s.entry i).Settled := by
  apply h.settled_of_lock mem
  intro q qc lock at_q
  obtain rfl := Option.some.inj (lock.symm.trans (h.lock_of at_p locked))
  obtain rfl := Option.some.inj (at_p.symm.trans at_q)
  exact mid

/-- The rows agree with a manifest that has the route of the one on disk. -/
theorem rows_of_sameRoute {e : Entry} {d m : Manifest} (settled : e.Settled) (on_disk : e.manifest = some d)
    (same : d.SameRoute m) : e.rows = m.rows := by
  obtain ⟨d', on_disk', rows⟩ := settled
  obtain rfl := Option.some.inj (on_disk.symm.trans on_disk')
  exact rows.trans same.rows_eq

/-! ### `set_instance_path_alias` -/

theorem afterLoad_inv (h : Inv s) {r : Request} {m : Manifest} {saved : Bool}
    (at_p : s.calls p = some (.setLoaded i r m)) (ok : Allowed s p (.setLoaded i r m))
    (taken : afterLoad s p i r m saved = some t) : Inv t := by
  obtain ⟨clean, agrees, disk⟩ := h.facts p _ i at_p rfl
  -- a save of the same route leaves the rows as they should be
  have same (m' : Manifest) (route : m.SameRoute m') (mem : i ∈ s.instances) :
      ({ s.entry i with manifest := some m', dir := true } : Entry).Settled := by
    obtain ⟨d, on_disk, on_route⟩ := disk mem
    have settled := h.settled_held at_p rfl rfl mem
    exact ⟨m', rfl, (rows_of_sameRoute settled on_disk on_route).trans route.rows_eq⟩
  unfold afterLoad at taken
  split at taken
  · rename_i drops
    obtain ⟨untargeted, wished⟩ := drops
    have agrees' : r.mismatches { m with desired := none } = false := by
      cases r with
      | user => rfl
      | restore latest =>
        have eq : m.desired = latest.desired := by simpa [Request.mismatches] using agrees
        rw [eq, show latest.desired = none from untargeted] at wished
        cases wished
    have clean' : Manifest.Clean { m with desired := none } (s.entry i).cleared :=
      fun a mem => ⟨(clean a mem).1, by simp⟩
    obtain rfl := Option.some.inj taken
    split
    · apply h.saveHeld at_p rfl (fun _ mid => by cases mid) clean'
      · exact fun _ holds => holds
      · intro qc j at_next at_j
        obtain rfl := Option.some.inj at_next
        obtain rfl := Option.some.inj at_j
        exact ⟨rfl, clean', agrees', fun _ => ⟨_, rfl, rfl, rfl⟩⟩
      · exact fun mem => .inl (same _ ⟨rfl, rfl⟩ mem)
      · intro next at_next
        obtain rfl := Option.some.inj at_next
        rfl
    · apply h.walk at_p rfl
      · exact fun _ holds => .inl holds
      · intro j at_j
        obtain rfl := Option.some.inj at_j
        exact ⟨clean', agrees', disk⟩
      · rfl
  · split at taken
    · rename_i unchanged
      obtain rfl := Option.some.inj taken
      split
      · apply h.saveHeld at_p rfl (fun _ mid => by cases mid)
        · intro a mem
          exact ⟨(clean a mem).1, by rw [unchanged]; exact (clean a mem).1⟩
        · intro l holds
          cases holds
        · intro qc j at_next
          cases at_next
        · exact fun mem => .inl (same _ ⟨rfl, rfl⟩ mem)
        · intro next at_next
          cases at_next
      · exact h.finish at_p (mayEnd_of_still rfl)
    · split at taken
      · cases taken
      · rename_i untaken
        obtain rfl := Option.some.inj taken
        apply h.turn
        · exact h.fresh_of at_p fun _ holds => .inl holds
        · exact not_midway at_p rfl
        · intro qc j at_next at_j
          obtain rfl := Option.some.inj at_next
          obtain rfl := Option.some.inj at_j
          exact ⟨clean, agrees, disk⟩
        · intro qc e a at_next pledged
          obtain rfl := Option.some.inj at_next
          obtain ⟨b, target, eq⟩ := Option.map_eq_some_iff.mp pledged
          obtain ⟨rfl, rfl⟩ := Prod.mk.inj eq
          refine ⟨?_, ok b target⟩
          intro j serves
          by_contra ne
          apply untaken
          rw [target]
          exact decide_eq_true (State.mem_listRouteHosts.mpr ⟨j, ne, serves⟩)

/-- The target of a call is not among what stays cleared once a user's call takes it off the list. -/
theorem target_clean (clean : m.Clean cleared) (agrees : r.mismatches m = false) {a : Slug} (mem : a ∈ cleared)
    (kept : r.setBy ≠ some a) : r.target ≠ some a := by
  cases r with
  | user target => exact kept
  | restore latest =>
    have eq : m.desired = latest.desired := by simpa [Request.mismatches] using agrees
    have away := (clean a mem).2
    rwa [eq] at away

theorem afterCheck_inv (h : Inv s) {r : Request} {m : Manifest} {o : Observed}
    (at_p : s.calls p = some (.setChecked i r m)) (taken : afterCheck s p i r m o = some t) : Inv t := by
  obtain ⟨clean, agrees, disk⟩ := h.facts p _ i at_p rfl
  have rows (mem : i ∈ s.instances) : (s.entry i).rows = m.rows := by
    obtain ⟨d, on_disk, route⟩ := disk mem
    exact rows_of_sameRoute (h.settled_held at_p rfl rfl mem) on_disk route
  have target {a : Slug} (mem : a ∈ (s.entry i).cleared.filter (fun b => r.setBy ≠ some b)) :
      a ∈ (s.entry i).cleared ∧ r.target ≠ some a := by
    obtain ⟨mem', kept⟩ := List.mem_filter.mp mem
    exact ⟨mem', target_clean clean agrees mem' (of_decide_eq_true kept)⟩
  unfold afterCheck at taken
  split at taken
  · obtain rfl := Option.some.inj taken
    apply h.savedLocked at_p rfl (fun _ mid => by cases mid)
    · rfl
    · exact fun a mem => (target mem).1
    · intro m' eq a mem
      obtain rfl := Option.some.inj eq
      exact ⟨(target mem).2, (target mem).2⟩
    · exact fun _ holds => holds
    · intro qc j at_next at_j
      obtain rfl := Option.some.inj at_next
      obtain rfl := Option.some.inj at_j
      exact ⟨rfl, fun mem => ⟨rfl, rows mem⟩⟩
    · exact fun _ => .inr ⟨_, rfl, rfl⟩
    · intro next at_next
      obtain rfl := Option.some.inj at_next
      exact .inr rfl
  · split at taken
    · cases taken
    · obtain rfl := Option.some.inj taken
      split
      · apply h.savedLocked at_p rfl (fun _ mid => by cases mid)
        · rfl
        · exact fun a mem => (target mem).1
        · intro m' eq a mem
          obtain rfl := Option.some.inj eq
          exact ⟨(clean a (target mem).1).1, (target mem).2⟩
        · cases r <;> intro l <;> cases l <;> intro holds <;> cases holds
        · cases r <;> intro qc j at_next at_j <;> cases at_next
          cases at_j
        · exact fun mem => .inl ⟨_, rfl, rows mem⟩
        · cases r <;> intro next at_next <;> cases at_next
          exact .inl rfl
      · exact h.raised at_p r (mayEnd_of_still rfl)

theorem afterSave_inv (h : Inv s) {r : Request} {m : Manifest} (at_p : s.calls p = some (.setSaved i r m))
    (taken : afterSave s p i r m = some t) : Inv t := by
  obtain ⟨mem, ⟨⟩⟩ := Option.ite_none_right_eq_some.mp taken
  obtain ⟨disk, rows⟩ := h.facts p _ i at_p rfl mem
  have new_rows : Function.update (s.entry i).rows m.runtime (some r.target) = (m.routed r.target).rows := by
    funext table
    by_cases eq : table = m.runtime
    · simp [eq, Manifest.rows, Manifest.routed]
    · simp [eq, rows, Manifest.rows, Manifest.routed]
  have row {a : Slug} {table : Runtime} (served : (m.routed r.target).rows table = some (some a)) :
      r.target = some a := (Manifest.rows_serve (m := m.routed r.target)).mp ⟨table, served⟩
  have written : (s.upsertRow i m.runtime r.target).put i { (s.upsertRow i m.runtime r.target).entry i with
        cleared := if r.target = none then m.routeHost.toList ++ ((s.upsertRow i m.runtime r.target).entry i).cleared
          else ((s.upsertRow i m.runtime r.target).entry i).cleared } =
      s.put i { s.entry i with
        rows := (m.routed r.target).rows
        cleared := if r.target = none then m.routeHost.toList ++ (s.entry i).cleared else (s.entry i).cleared } := by
    simp [State.upsertRow, State.put, new_rows]
  rw [written]
  apply h.putRows
  · intro m' on_disk a mem'
    obtain rfl := Option.some.inj (disk.symm.trans on_disk)
    by_cases untargeted : r.target = none
    · exact ⟨by simp [Manifest.routed, untargeted], by simp [Manifest.routed, untargeted]⟩
    · rw [if_neg untargeted] at mem'
      exact h.clean i _ disk a mem'
  · intro a mem' table served
    have target := row served
    rw [if_neg (by simp [target])] at mem'
    exact (h.clean i _ disk a mem').1 target
  · intro l holds
    cases holds
  · intro qc j at_q mid
    obtain rfl := Option.some.inj (at_p.symm.trans at_q)
    exact (Option.some.inj mid).symm
  · exact h.others_of_lock (.inr (h.lock_of at_p rfl)) id _
  · intro qc j at_next
    cases at_next
  · exact .inl ⟨_, disk, rfl⟩
  · intro a table _ served
    exact .inr ⟨_, some i, at_p, by simp [Pc.pledge, row served], fun j eq => (Option.some.inj eq).symm⟩
  · intro qc at_next
    cases at_next

/-! ### `import_zip` -/

theorem checkImport (h : Inv s) {a : Slug} (at_p : s.calls p = some (.importEntered a))
    (ok : Uncontested s p a) (untaken : a ∉ s.listRouteHosts none) :
    Inv (s.become p (some (.importChecked a))) := by
  apply h.turn
  · exact h.fresh_of at_p fun _ holds => .inl holds
  · exact not_midway at_p rfl
  · intro qc j at_next at_j
    obtain rfl := Option.some.inj at_next
    cases at_j
  · intro qc e b at_next pledged
    obtain rfl := Option.some.inj at_next
    obtain ⟨rfl, rfl⟩ := Prod.mk.inj (Option.some.inj pledged)
    refine ⟨?_, ok⟩
    intro j serves
    exact absurd (State.mem_listRouteHosts.mpr ⟨j, by simp, serves⟩) untaken

theorem claimId (h : Inv s) {a : Slug} (at_p : s.calls p = some (.importChecked a)) (new_id : i ∉ s.instances) :
    Inv ((s.put i { s.entry i with dir := true }).become p (some (.importClaimed i a))) := by
  apply h.putManifest
  · rfl
  · exact fun _ mem => mem
  · exact h.clean i
  · exact h.fresh_of at_p fun _ holds => .inl holds
  · exact not_midway at_p rfl
  · exact h.others_of_unlisted new_id fun _ mem => mem
  · intro qc j at_next at_j
    obtain rfl := Option.some.inj at_next
    exact ⟨(Option.some.inj at_j).symm, new_id⟩
  · exact fun mem => absurd mem new_id
  · intro qc ev b at_next pledged
    obtain rfl := Option.some.inj at_next
    exact ⟨_, at_p, pledged⟩

theorem saveImport (h : Inv s) {a : Slug} {runtime : Runtime} {pending : Bool}
    (at_p : s.calls p = some (.importClaimed i a)) :
    Inv ((s.saveSet i ⟨runtime, some a, some a, pending⟩ (some a)).become p
      (some (.importSaved i ⟨runtime, some a, some a, pending⟩))) := by
  have unlisted : i ∉ s.instances := h.facts p _ i at_p rfl
  have sub : ∀ b ∈ (s.entry i).cleared.filter (fun b => some a ≠ some b), b ∈ (s.entry i).cleared :=
    fun b mem => (List.mem_filter.mp mem).1
  apply h.putManifest
  · rfl
  · exact sub
  · intro m on_disk b mem
    obtain rfl := Option.some.inj on_disk
    have other := of_decide_eq_true (List.mem_filter.mp mem).2
    exact ⟨other, other⟩
  · exact h.fresh_of at_p fun _ holds => .inl holds
  · exact not_midway at_p rfl
  · exact h.others_of_unlisted unlisted sub
  · intro qc j at_next at_j
    obtain rfl := Option.some.inj at_next
    exact ⟨(Option.some.inj at_j).symm, unlisted⟩
  · exact fun mem => absurd mem unlisted
  · intro qc ev b at_next pledged
    obtain rfl := Option.some.inj at_next
    exact ⟨_, at_p, pledged⟩

theorem register (h : Inv s) (at_p : s.calls p = some (.importSaved i m)) (ok : Allowed s p (.importSaved i m)) :
    Inv ((s.upsertFromManifest i m).become p (some (.importRegistered i))) := by
  obtain ⟨on_disk, free⟩ := ok
  have unlisted : i ∉ s.instances := h.facts p _ i at_p rfl
  have rows : ((s.upsertFromManifest i m).entry i) = { s.entry i with rows := m.rows } := by
    simp [State.upsertFromManifest, State.put]
  have route {a : Slug} (serves : (s.upsertFromManifest i m).Serves i a) : m.routeHost = some a := by
    obtain ⟨-, table, row⟩ := serves
    rw [rows] at row
    exact Manifest.rows_serve.mp ⟨table, row⟩
  apply h.move (t := s.upsertFromManifest i m) (i := i) rfl rfl
  · intro j ne
    refine ⟨?_, by simp [State.upsertFromManifest, State.put, ne]⟩
    simp [State.upsertFromManifest, unlisted, ne]
  · exact h.fresh_of at_p fun _ holds => .inl holds
  · exact not_midway at_p rfl
  · -- the lock of the instance is free, and the lock of the imports keeps another import away
    intro q qc ne at_q at_i
    rcases Pc.site_cases at_i with locked | ⟨importing, -⟩
    · cases free.symm.trans (h.lock_of at_q locked)
    · have mine := h.held p _ .importActivity at_p rfl
      exact absurd (Option.some.inj ((h.held q qc .importActivity at_q importing).symm.trans mine)) ne
  · intro qc j at_next at_j
    obtain rfl := Option.some.inj at_next
    cases at_j
  · intro _
    rw [rows]
    exact .inl ⟨m, on_disk, rfl⟩
  · intro a serves
    exact .inr ⟨_, none, at_p, by simp [Pc.pledge, route serves], fun j eq => by cases eq⟩
  · intro qc ev b at_next pledged
    obtain rfl := Option.some.inj at_next
    cases pledged
  · rw [rows]
    exact h.clean i
  · rw [rows]
    exact fun a mem serves => (h.clean i m on_disk a mem).1 (route serves)

/-! ### Rows of an instance that is there -/

theorem upserted (h : Inv s) (mem : i ∈ s.instances)
    (lock : s.locks (.instance i) = none ∨ s.locks (.instance i) = some p)
    (stays : ∀ pc j, s.calls p = some pc → pc.midway = some j → j = i)
    (route : ∀ a, m.routeHost = some a → s.Serves i a)
    (fresh : ∀ l, new.any (·.holds l) = true → s.locks l = none ∨ s.locks l = some p)
    (site : ∀ pc j, new = some pc → pc.site = some j → j = i ∧
    pc.Fact (i ∈ s.instances) { s.entry i with rows := m.rows })
    (settled : ∃ d, (s.entry i).manifest = some d ∧ d.SameRoute m)
    (unpledged : ∀ pc, new = some pc → pc.pledge = none) : Inv ((s.upsertFromManifest i m).become p new) := by
  have there : s.upsertFromManifest i m = s.put i { s.entry i with rows := m.rows } := by
    simp [State.upsertFromManifest, mem, State.put]
  rw [there]
  apply h.putRows (e := { s.entry i with rows := m.rows }) (h.clean i) _ fresh stays (h.others_of_lock lock id _) site
    _ _ unpledged
  · intro a mem' table row
    exact h.cleanRows i a mem' (route a (Manifest.rows_serve.mp ⟨table, row⟩))
  · obtain ⟨d, on_disk, same⟩ := settled
    exact .inl ⟨d, on_disk, same.rows_eq.symm⟩
  · exact fun a table _ row => .inl (route a (Manifest.rows_serve.mp ⟨table, row⟩))

theorem serves_of_rows (mem : i ∈ s.instances) (rows : (s.entry i).rows = m.rows) {a : Slug}
    (route : m.routeHost = some a) : s.Serves i a := by
  refine ⟨mem, ?_⟩
  rw [rows]
  exact Manifest.rows_serve.mpr route

/-- The row of the instance is deleted. -/
theorem delisted (h : Inv s) (calls : t.calls = s.calls) (locks : t.locks = s.locks)
    (apart : ∀ j, j ≠ i → (j ∈ t.instances ↔ j ∈ s.instances) ∧ t.entry j = s.entry j) (gone : i ∉ t.instances)
    (cleared : (t.entry i).cleared = (s.entry i).cleared)
    (manifest : ∀ m, (t.entry i).manifest = some m → (s.entry i).manifest = some m)
    (fresh : ∀ l, new.any (·.holds l) = true → s.locks l = none ∨ s.locks l = some p)
    (stays : ∀ pc j, s.calls p = some pc → pc.midway = some j → j = i)
    (site : ∀ pc j, new = some pc → pc.site = some j → j = i ∧ pc.Fact False (t.entry i))
    (unpledged : ∀ pc, new = some pc → pc.pledge = none) : Inv (t.become p new) := by
  apply h.move calls locks apart fresh stays
  · apply h.others_of_unlisted gone
    rw [cleared]
    exact fun _ mem => mem
  · intro qc j at_next at_j
    obtain ⟨rfl, fact⟩ := site qc j at_next at_j
    rwa [eq_false gone]
  · exact fun mem => absurd mem gone
  · exact fun a serves => absurd serves.1 gone
  · intro qc ev a at_next pledged
    cases (unpledged qc at_next).symm.trans pledged
  · intro m on_disk
    rw [cleared]
    exact h.clean i m (manifest m on_disk)
  · exact fun a _ serves => gone serves.1

/-! ### `update_zip` -/

theorem openUpdate (h : Inv s) {old snapshot : Manifest} (at_p : s.calls p = some (.updateLocked i old))
    (ok : Current s i old) (on_disk : (s.entry i).manifest = some snapshot) :
    Inv (s.become p (some (.updateOpened i old snapshot (s.entry i).rows))) := by
  obtain ⟨mem, m, on_disk', same, wish⟩ := ok
  obtain rfl := Option.some.inj (on_disk.symm.trans on_disk')
  have clean := h.clean i _ on_disk
  have rows := rows_of_sameRoute (h.settled_held at_p rfl rfl mem) on_disk same
  apply h.walk at_p rfl
  · exact fun _ holds => .inl holds
  · intro j at_j
    obtain rfl := Option.some.inj at_j
    exact ⟨clean.of_sub (fun a route => same.2.trans route) wish.symm, clean, same, rows, fun _ => ⟨on_disk, rows⟩⟩
  · rfl

theorem saveUpdate (h : Inv s) {old snapshot : Manifest} {oldRows : Rows} {runtime : Runtime} {pending : Bool}
    (at_p : s.calls p = some (.updateOpened i old snapshot oldRows)) :
    Inv ((s.save i (old.updated runtime pending)).become p
      (some (.updateSaved i old snapshot oldRows (old.updated runtime pending)))) := by
  obtain ⟨clean, clean', same, rows, disk⟩ := h.facts p _ i at_p rfl
  apply h.saveHeld at_p rfl (fun _ mid => by cases mid)
  · exact clean.of_sub (fun a route => Manifest.updated_routeHost route) rfl
  · exact fun _ holds => holds
  · intro qc j at_next at_j
    obtain rfl := Option.some.inj at_next
    obtain rfl := Option.some.inj at_j
    exact ⟨rfl, clean', same, rows, fun a route => Manifest.updated_routeHost route, fun mem => ⟨rfl, (disk mem).2⟩⟩
  · exact fun _ => .inr ⟨_, rfl, rfl⟩
  · intro next at_next
    obtain rfl := Option.some.inj at_next
    rfl

theorem registerUpdate (h : Inv s) {old snapshot new : Manifest} {oldRows : Rows}
    (at_p : s.calls p = some (.updateSaved i old snapshot oldRows new)) (mem : i ∈ s.instances) :
    Inv ((s.upsertFromManifest i new).become p (some (.updateRegistered i old snapshot oldRows new))) := by
  obtain ⟨clean, same, rows, kept, disk⟩ := h.facts p _ i at_p rfl
  obtain ⟨on_disk, old_rows⟩ := disk mem
  apply h.upserted mem (.inr (h.lock_of at_p rfl))
  · intro qc j at_q mid
    obtain rfl := Option.some.inj (at_p.symm.trans at_q)
    exact (Option.some.inj mid).symm
  · exact fun a route => serves_of_rows mem old_rows (kept a route)
  · exact h.fresh_of at_p fun _ holds => .inl holds
  · intro qc j at_next at_j
    obtain rfl := Option.some.inj at_next
    obtain rfl := Option.some.inj at_j
    exact ⟨rfl, clean, same, rows, fun _ => ⟨on_disk, rfl⟩⟩
  · exact ⟨new, on_disk, rfl, rfl⟩
  · intro qc at_next
    obtain rfl := Option.some.inj at_next
    rfl

/-- The manifest is put back over rows that serve the alias that it has. -/
theorem restoreSnapshot (h : Inv s) {old snapshot : Manifest} {oldRows : Rows} (at_p : s.calls p = some pc)
    (locked : pc.locked = some i) (mid : ∀ j, pc.midway = some j → j = i)
    (keeps : ∀ l, (Pc.updateRestored i old oldRows).holds l = true → pc.holds l = true)
    (clean : snapshot.Clean (s.entry i).cleared) (same : snapshot.SameRoute old) (rows : oldRows = old.rows)
    (served : i ∈ s.instances → ∃ m : Manifest, (s.entry i).rows = m.rows ∧ m.routeHost = old.routeHost) :
    Inv ((s.save i snapshot).become p (some (.updateRestored i old oldRows))) := by
  apply h.saveHeld at_p locked mid clean
  · exact keeps
  · intro qc j at_next at_j
    obtain rfl := Option.some.inj at_next
    obtain rfl := Option.some.inj at_j
    refine ⟨rfl, rows, ?_⟩
    intro mem
    obtain ⟨m, has, route⟩ := served mem
    exact ⟨snapshot, m, rfl, same, has, route⟩
  · exact fun _ => .inr ⟨_, rfl, rfl⟩
  · intro next at_next
    obtain rfl := Option.some.inj at_next
    rfl

theorem undoUpdate (h : Inv s) {old : Manifest} {oldRows : Rows}
    (at_p : s.calls p = some (.updateRestored i old oldRows)) (mem : i ∈ s.instances) :
    Inv ((s.upsertFromManifest i old).become p (some (.updateUndone i oldRows))) := by
  obtain ⟨rows, disk⟩ := h.facts p _ i at_p rfl
  obtain ⟨snapshot, m, on_disk, same, has, route⟩ := disk mem
  apply h.upserted mem (.inr (h.lock_of at_p rfl))
  · intro qc j at_q mid
    obtain rfl := Option.some.inj (at_p.symm.trans at_q)
    exact (Option.some.inj mid).symm
  · exact fun a old_route => serves_of_rows mem has (route.trans old_route)
  · exact h.fresh_of at_p fun _ holds => .inl holds
  · intro qc j at_next at_j
    obtain rfl := Option.some.inj at_next
    obtain rfl := Option.some.inj at_j
    exact ⟨rfl, fun _ => rows.symm⟩
  · exact ⟨snapshot, on_disk, same⟩
  · intro qc at_next
    obtain rfl := Option.some.inj at_next
    rfl

/-- The rows that are written back are there already. -/
theorem rewriteRow (h : Inv s) {oldRows : Rows} {table : Runtime} {row : Option Slug}
    (at_p : s.calls p = some (.updateUndone i oldRows)) (mem : i ∈ s.instances) (had : oldRows table = some row) :
    Inv ((s.upsertRow i table row).become p (some (.updateUndone i oldRows))) := by
  have rows : (s.entry i).rows = oldRows := h.facts p _ i at_p rfl mem
  have same : s.upsertRow i table row = s := by
    have unchanged : Function.update (s.entry i).rows table (some row) = (s.entry i).rows := by
      rw [rows, ← had, Function.update_eq_self]
    simp [State.upsertRow, State.put, unchanged]
  rw [same]
  apply h.walk at_p rfl
  · exact fun _ holds => .inl holds
  · intro j at_j
    obtain rfl := Option.some.inj at_j
    exact fun _ => rows
  · rfl

/-! ### `confirm_instance_shape` -/

theorem saveConfirmed (h : Inv s) {old : Manifest} {runtime : Runtime}
    (at_p : s.calls p = some (.confirmLoaded i old)) :
    Inv ((s.save i (old.confirmed runtime)).become p (some (.confirmSaved i old runtime))) := by
  obtain ⟨clean, disk⟩ := h.facts p _ i at_p rfl
  have rows (mem : i ∈ s.instances) : (s.entry i).rows = old.rows :=
    rows_of_sameRoute (h.settled_held at_p rfl rfl mem) (disk mem) ⟨rfl, rfl⟩
  apply h.saveHeld at_p rfl (fun _ mid => by cases mid)
  · exact clean.of_sub (fun a route => Manifest.confirmed_routeHost route) rfl
  · exact fun _ holds => holds
  · intro qc j at_next at_j
    obtain rfl := Option.some.inj at_next
    obtain rfl := Option.some.inj at_j
    exact ⟨rfl, fun mem => ⟨rfl, rows mem⟩⟩
  · exact fun _ => .inr ⟨_, rfl, rfl⟩
  · intro next at_next
    obtain rfl := Option.some.inj at_next
    rfl

theorem registerConfirmed (h : Inv s) {old : Manifest} {runtime : Runtime}
    (at_p : s.calls p = some (.confirmSaved i old runtime)) (mem : i ∈ s.instances) :
    Inv ((s.upsertFromManifest i (old.confirmed runtime)).become p none) := by
  obtain ⟨on_disk, rows⟩ := h.facts p _ i at_p rfl mem
  apply h.upserted mem (.inr (h.lock_of at_p rfl))
  · intro qc j at_q mid
    obtain rfl := Option.some.inj (at_p.symm.trans at_q)
    exact (Option.some.inj mid).symm
  · exact fun a route => serves_of_rows mem rows (Manifest.confirmed_routeHost route)
  · intro l holds
    cases holds
  · intro qc j at_next
    cases at_next
  · exact ⟨_, on_disk, rfl, rfl⟩
  · intro qc at_next
    cases at_next

/-! ### The failure branch of a restore -/

theorem settled_free (h : Inv s) (mem : i ∈ s.instances) (free : s.locks (.instance i) = none) :
    (s.entry i).Settled := by
  apply h.settled_of_lock mem
  intro q pc lock
  cases free.symm.trans lock

theorem saveFailed (h : Inv s) {latest : Manifest} (at_p : s.calls p = some (.restoreFailed i latest))
    (ok : Allowed s p (.restoreFailed i latest)) :
    Inv ((s.save i latest).become p (some (.restoreSaved i latest))) := by
  obtain ⟨⟨mem, m, on_disk, same, wish⟩, free⟩ := ok
  have clean := (h.clean i m on_disk).of_sub (fun a route => same.2.trans route) wish.symm
  have rows := rows_of_sameRoute (h.settled_free mem free) on_disk same
  apply h.putManifest
  · rfl
  · exact fun _ mem => mem
  · intro m' eq
    obtain rfl := Option.some.inj eq
    exact clean
  · intro l holds
    cases l <;> cases holds
  · exact not_midway at_p rfl
  · exact h.others_of_lock (.inl free) id _
  · intro qc j at_next at_j
    obtain rfl := Option.some.inj at_next
    cases at_j
  · exact fun _ => .inl ⟨latest, rfl, rows⟩
  · intro qc ev a at_next pledged
    obtain rfl := Option.some.inj at_next
    cases pledged

theorem registerFailed (h : Inv s) {latest : Manifest} (at_p : s.calls p = some (.restoreSaved i latest))
    (ok : Allowed s p (.restoreSaved i latest)) : Inv ((s.upsertFromManifest i latest).become p none) := by
  obtain ⟨⟨mem, m, on_disk, same, -⟩, free⟩ := ok
  apply h.upserted mem (.inl free)
  · exact not_midway at_p rfl
  · exact fun a route => serves_of_rows mem (rows_of_sameRoute (h.settled_free mem free) on_disk same) route
  · intro l holds
    cases holds
  · intro qc j at_next
    cases at_next
  · exact ⟨m, on_disk, same⟩
  · intro qc at_next
    cases at_next

/-! ### Removals -/

theorem delete (h : Inv s) (at_p : s.calls p = some (.removeEntered i)) :
    Inv ((s.deleteInstance i).become p (some (.removed i))) := by
  apply h.delisted (t := s.deleteInstance i) (i := i) rfl rfl
  · intro j ne
    simp [State.deleteInstance, State.put, ne]
  · simp [State.deleteInstance]
  · simp [State.deleteInstance, State.put]
  · intro m on_disk
    simpa [State.deleteInstance, State.put] using on_disk
  · exact h.fresh_of at_p fun _ holds => .inl holds
  · exact not_midway at_p rfl
  · intro qc j at_next at_j
    obtain rfl := Option.some.inj at_next
    exact ⟨(Option.some.inj at_j).symm, id⟩
  · intro qc at_next
    obtain rfl := Option.some.inj at_next
    rfl

theorem purged (h : Inv s) (at_p : s.calls p = some (.removed i)) : Inv ((s.purge i).become p none) := by
  have gone : i ∉ s.instances := h.facts p _ i at_p rfl
  apply h.putManifest
  · rfl
  · exact fun _ mem => mem
  · intro m eq
    cases eq
  · intro l holds
    cases holds
  · exact not_midway at_p rfl
  · exact h.others_of_unlisted gone fun _ mem => mem
  · intro qc j at_next
    cases at_next
  · exact fun mem => absurd mem gone
  · intro qc ev a at_next
    cases at_next

/-- `_cleanup_failed`. -/
theorem cleanedUp (h : Inv s) (still : ∀ pc j, s.calls p = some pc → pc.midway ≠ some j) :
    Inv (((s.purge i).deleteInstance i).become p none) := by
  apply h.delisted (t := (s.purge i).deleteInstance i) (i := i) rfl rfl
  · intro j ne
    simp [State.deleteInstance, State.purge, State.put, ne]
  · simp [State.deleteInstance]
  · simp [State.deleteInstance, State.purge, State.put]
  · intro m on_disk
    simp [State.deleteInstance, State.purge, State.put] at on_disk
  · intro l holds
    cases holds
  · exact fun qc j at_q mid => absurd mid (still qc j at_q)
  · intro qc j at_next
    cases at_next
  · intro qc at_next
    cases at_next

/-! ### Every step -/

theorem acquires {pc next : Pc} {lock : Lock} (free : s.free lock = true)
    (gain : ∀ l, next.holds l = true → pc.holds l = true ∨ l = lock) :
    ∀ l, next.holds l = true → pc.holds l = true ∨ s.free l = true := by
  intro l holds
  rcases gain l holds with kept | rfl
  · exact .inl kept
  · exact .inr free

theorem begin_inv (h : Inv s) (idle : s.calls p = none) {operation : Operation}
    (taken : begin s p operation = some t) : Inv t := by
  cases operation with
  | importZip a =>
    obtain ⟨free, ⟨⟩⟩ := Option.ite_none_right_eq_some.mp taken
    apply h.start idle
    · intro l holds
      cases l with
      | importActivity => exact free
      | pathAlias | «instance» => cases holds
    · intro j listed e at_j
      cases at_j
    · rfl
  | setInstancePathAlias i target =>
    obtain ⟨free, ⟨⟩⟩ := Option.ite_none_right_eq_some.mp taken
    apply h.start idle
    · intro l holds
      cases l with
      | pathAlias => exact free
      | importActivity | «instance» => cases holds
    · intro j listed e at_j
      cases at_j
    · rfl
  | updateZip i =>
    obtain ⟨-, ⟨⟩⟩ := Option.ite_none_right_eq_some.mp taken
    apply h.start idle
    · intro l holds
      cases l <;> cases holds
    · intro j listed e at_j
      cases at_j
    · rfl
  | maybeRestoreDesiredAlias i handed =>
    obtain ⟨-, ⟨⟩⟩ := Option.ite_none_right_eq_some.mp taken
    apply h.start idle
    · intro l holds
      cases l <;> cases holds
    · intro j listed e at_j
      cases at_j
    · rfl
  | confirmInstanceShape i | removeInstance i =>
    obtain ⟨free, ⟨⟩⟩ := Option.ite_none_right_eq_some.mp taken
    apply h.start idle
    · intro l holds
      cases l with
      | «instance» j =>
        obtain rfl : i = j := by simpa [Pc.holds, Pc.locked] using holds
        exact free
      | importActivity | pathAlias => cases holds
    · exact fun _ _ _ _ => trivial
    · rfl

theorem advance_inv (h : Inv s) {o : Observed} (at_p : s.calls p = some pc) (ok : Allowed s p pc)
    (taken : advance s p o pc = some t) : Inv t := by
  cases pc with
  | importEntered a =>
    obtain ⟨untaken, ⟨⟩⟩ := Option.ite_none_left_eq_some.mp taken
    exact h.checkImport at_p ok untaken
  | importChecked a =>
    obtain ⟨new_id, ⟨⟩⟩ := Option.ite_none_left_eq_some.mp taken
    exact h.claimId at_p fun mem => new_id (.inl mem)
  | importClaimed i a =>
    cases taken
    exact h.saveImport at_p
  | importSaved i m =>
    cases taken
    exact h.register at_p ok
  | importRegistered i =>
    cases taken
    exact h.finish at_p (mayEnd_of_still rfl)
  | setCalled i r =>
    obtain ⟨free, ⟨⟩⟩ := Option.ite_none_right_eq_some.mp taken
    apply h.walk at_p rfl
    · apply acquires free
      intro l holds
      cases l with
      | «instance» j =>
        obtain rfl : i = j := by simpa [Pc.holds, Pc.locked] using holds
        exact .inr rfl
      | importActivity | pathAlias => exact .inl holds
    · exact fun _ _ => trivial
    · rfl
  | setEntered i r =>
    cases on_disk : (s.entry i).manifest with
    | none => simp [advance, on_disk] at taken
    | some m =>
      simp only [advance, on_disk, Option.some.injEq] at taken
      subst taken
      split
      · exact h.finish at_p (mayEnd_of_still rfl)
      · rename_i agrees
        apply h.walk at_p rfl
        · exact fun _ holds => .inl holds
        · intro j at_j
          obtain rfl := Option.some.inj at_j
          exact ⟨h.clean i m on_disk, Bool.eq_false_iff.mpr agrees, fun _ => ⟨m, on_disk, rfl, rfl⟩⟩
        · rfl
  | setLoaded i r m => exact h.afterLoad_inv at_p ok taken
  | setChecked i r m => exact h.afterCheck_inv at_p taken
  | setSaved i r m => exact h.afterSave_inv at_p taken
  | updateCalled i =>
    obtain ⟨free, ⟨⟩⟩ := Option.ite_none_right_eq_some.mp taken
    apply h.walk at_p rfl
    · apply acquires free
      intro l holds
      cases l with
      | «instance» j =>
        obtain rfl : i = j := by simpa [Pc.holds, Pc.locked] using holds
        exact .inr rfl
      | importActivity | pathAlias => exact .inl holds
    · exact fun _ _ => trivial
    · rfl
  | updateEntered i =>
    obtain ⟨old, -, rfl⟩ := Option.map_eq_some_iff.mp taken
    apply h.walk at_p rfl
    · intro l holds
      cases l <;> cases holds
    · intro j at_j
      cases at_j
    · rfl
  | updateRead i old =>
    obtain ⟨free, ⟨⟩⟩ := Option.ite_none_right_eq_some.mp taken
    apply h.walk at_p rfl
    · apply acquires free
      intro l holds
      cases l with
      | «instance» j =>
        obtain rfl : i = j := by simpa [Pc.holds, Pc.locked] using holds
        exact .inr rfl
      | importActivity | pathAlias => exact .inl holds
    · exact fun _ _ => trivial
    · rfl
  | updateLocked i old =>
    obtain ⟨snapshot, on_disk, rfl⟩ := Option.map_eq_some_iff.mp taken
    exact h.openUpdate at_p ok on_disk
  | updateOpened i old snapshot oldRows =>
    cases taken
    exact h.saveUpdate at_p
  | updateSaved i old snapshot oldRows new =>
    cases taken
    exact h.registerUpdate at_p ok
  | updateRegistered i old snapshot oldRows new =>
    cases taken
    exact h.finish at_p (mayEnd_of_still rfl)
  | updateRestored i old oldRows =>
    cases taken
    exact h.undoUpdate at_p ok
  | updateUndone i oldRows =>
    cases had : oldRows o.runtime with
    | none => simp [advance, had] at taken
    | some row =>
      simp only [advance, had] at taken
      obtain ⟨mem, ⟨⟩⟩ := Option.ite_none_right_eq_some.mp taken
      exact h.rewriteRow at_p mem had
  | confirmEntered i =>
    obtain ⟨-, found⟩ := Option.ite_none_right_eq_some.mp taken
    obtain ⟨old, pending, rfl⟩ := Option.map_eq_some_iff.mp found
    have on_disk := (Option.filter_eq_some_iff.mp pending).1
    apply h.walk at_p rfl
    · exact fun _ holds => .inl holds
    · intro j at_j
      obtain rfl := Option.some.inj at_j
      exact ⟨h.clean i old on_disk, fun _ => on_disk⟩
    · rfl
  | confirmLoaded i old =>
    cases taken
    exact h.saveConfirmed at_p
  | confirmSaved i old runtime =>
    cases taken
    exact h.registerConfirmed at_p ok
  | restoreReady i latest =>
    obtain ⟨free, ⟨⟩⟩ := Option.ite_none_right_eq_some.mp taken
    apply h.walk at_p rfl
    · apply acquires free
      intro l holds
      cases l with
      | pathAlias => exact .inr rfl
      | importActivity | «instance» => cases holds
    · intro j at_j
      cases at_j
    · rfl
  | restoreFailed i latest =>
    cases taken
    split
    · exact h.saveFailed at_p ok
    · apply h.walk at_p rfl
      · exact fun _ holds => .inl holds
      · intro j at_j
        cases at_j
      · rfl
  | restoreSaved i latest =>
    cases taken
    exact h.registerFailed at_p ok
  | removeEntered i =>
    cases taken
    exact h.delete at_p
  | removed i =>
    cases taken
    split
    · exact h.purged at_p
    · exact h.finish at_p (mayEnd_of_still rfl)

theorem raise_inv (h : Inv s) (at_p : s.calls p = some pc) (ok : MayRaise s pc) (taken : raise s p pc = some t) :
    Inv t := by
  have only {qc : Pc} (at_q : s.calls p = some qc) : pc = qc := Option.some.inj (at_p.symm.trans at_q)
  cases pc with
  | importClaimed i _ | importSaved i _ | importRegistered i =>
    cases taken
    apply h.cleanedUp
    intro qc j at_q mid
    obtain rfl := only at_q
    cases mid
  | setCalled i r | setEntered i r | setLoaded i r _ | setChecked i r _ =>
    cases taken
    exact h.raised at_p r (mayEnd_of_still rfl)
  | setSaved i r m =>
    cases taken
    apply h.raised at_p r
    intro j mid
    obtain rfl := Option.some.inj mid
    exact ok
  | updateOpened i old snapshot oldRows =>
    cases taken
    obtain ⟨-, clean, same, rows, disk⟩ := h.facts p _ i at_p rfl
    exact h.restoreSnapshot at_p rfl (fun _ mid => by cases mid) (fun _ holds => holds) clean same rows
      fun mem => ⟨old, (disk mem).2, rfl⟩
  | updateSaved i old snapshot oldRows new =>
    cases taken
    obtain ⟨clean, same, rows, -, disk⟩ := h.facts p _ i at_p rfl
    exact h.restoreSnapshot at_p rfl (fun _ mid => (Option.some.inj mid).symm) (fun _ holds => holds) clean same rows
      fun mem => ⟨old, (disk mem).2, rfl⟩
  | updateRegistered i old snapshot oldRows new =>
    cases taken
    obtain ⟨clean, same, rows, disk⟩ := h.facts p _ i at_p rfl
    exact h.restoreSnapshot at_p rfl (fun _ mid => by cases mid) (fun _ holds => holds) clean same rows
      fun mem => ⟨new, (disk mem).2, ok⟩
  | restoreReady i latest =>
    cases taken
    apply h.walk at_p rfl
    · exact fun _ holds => .inl holds
    · intro j at_j
      cases at_j
    · rfl
  | _ => cases taken

theorem step_inv (h : Inv s) {a : Action} (ok : Guard s a) (taken : step s a = some t) : Inv t := by
  cases a with
  | called p operation =>
    obtain ⟨idle, begun⟩ := Option.ite_none_right_eq_some.mp taken
    exact h.begin_inv (Option.isNone_iff_eq_none.mp idle) begun
  | proceeds p o =>
    obtain ⟨pc, at_p, advanced⟩ := Option.bind_eq_some_iff.mp taken
    exact h.advance_inv at_p (ok pc at_p) advanced
  | raises p =>
    obtain ⟨pc, at_p, raised⟩ := Option.bind_eq_some_iff.mp taken
    exact h.raise_inv at_p (ok pc at_p) raised
  | ends p =>
    obtain ⟨pc, at_p, rfl⟩ := Option.map_eq_some_iff.mp taken
    exact h.finish at_p (ok pc at_p)

end Inv

/-- In every run whose steps meet the guard no two instances have one alias, and what was cleared stays away
until a later call sets it. -/
theorem alias_has_one_owner {trace : List Action} {s : State} (run : Run step Guard .initial trace s) :
    s.OneOwner ∧ s.ClearedAway := by
  have inv : Inv s := run.invariant (P := Inv) Inv.initial fun _ _ _ h guard taken => h.step_inv guard taken
  refine ⟨inv.oneOwner, ?_⟩
  intro i a mem
  exact ⟨inv.cleanRows i a mem, fun m on_disk => (inv.clean i m on_disk a mem).1⟩

/-- A static site that is recognised at once; every save succeeds and the live check passes. -/
def smoothly (i : InstanceId) : Observed := ⟨i, .sharedStatic, false, true, true, false⟩

/-- Call 0 imports instance 1 with alias 5. -/
def importFirst : List Action :=
  [.called 0 (.importZip 5), .proceeds 0 (smoothly 1), .proceeds 0 (smoothly 1), .proceeds 0 (smoothly 1),
    .proceeds 0 (smoothly 1), .proceeds 0 (smoothly 1)]

/-- Call 0 clears the alias of instance 1. -/
def clearFirst : List Action :=
  [.called 0 (.setInstancePathAlias 1 none), .proceeds 0 (smoothly 1), .proceeds 0 (smoothly 1),
    .proceeds 0 (smoothly 1), .proceeds 0 (smoothly 1), .proceeds 0 (smoothly 1), .proceeds 0 (smoothly 1)]

/-- Instance 1 gives its alias up and instance 2 takes it. -/
theorem alias_has_one_owner_handover : ∃ trace s, Run step Guard .initial trace s ∧
    5 ∈ (s.entry 1).cleared ∧ s.Serves 2 5 ∧ s.OneOwner ∧ s.ClearedAway := by
  have ran : ∃ trace s, Run step Guard .initial trace s ∧ 5 ∈ (s.entry 1).cleared ∧ s.Serves 2 5 := by
    refine ⟨importFirst ++ clearFirst ++ [.called 0 (.importZip 5), .proceeds 0 (smoothly 2),
      .proceeds 0 (smoothly 2), .proceeds 0 (smoothly 2), .proceeds 0 (smoothly 2), .proceeds 0 (smoothly 2)], _,
      .cons trivial rfl <| .cons ?_ rfl <| .cons ?_ rfl <| .cons ?_ rfl <| .cons ?_ rfl <| .cons ?_ rfl <|
      .cons trivial rfl <| .cons ?_ rfl <| .cons ?_ rfl <| .cons ?_ rfl <| .cons ?_ rfl <| .cons ?_ rfl <| .cons ?_ rfl <|
      .cons trivial rfl <| .cons ?_ rfl <| .cons ?_ rfl <| .cons ?_ rfl <| .cons ?_ rfl <| .cons ?_ rfl <| .refl _,
      List.mem_cons_self, List.mem_cons_self, .sharedStatic, rfl⟩
    all_goals
      intro pc at_p
      cases at_p
    all_goals first
      | trivial
      | exact ⟨rfl, rfl⟩
      | intro q pc ne at_q
        simp [State.become, State.put, State.saveSet, State.save, State.upsertFromManifest, State.upsertRow,
          State.initial, smoothly, ne] at at_q
      | intro a target
        cases target
  obtain ⟨trace, s, run, cleared, serves⟩ := ran
  exact ⟨trace, s, run, cleared, serves, alias_has_one_owner run⟩

/-- Without the guard: an import that has found alias 6 free registers it after a user gave it to instance 1;
and an update of instance 1 that has read the manifest brings back the alias that is cleared before it takes
the lock again. -/
theorem unguarded_aliases :
    (∃ trace s, Run step anyStep .initial trace s ∧ ¬ s.OneOwner) ∧
      ∃ trace s, Run step anyStep .initial trace s ∧ ¬ s.ClearedAway := by
  constructor
  · have ran : ∃ s, exec step .initial (importFirst ++
        [.called 1 (.importZip 6), .proceeds 1 (smoothly 2), .called 0 (.setInstancePathAlias 1 (some 6)),
          .proceeds 0 (smoothly 1), .proceeds 0 (smoothly 1), .proceeds 0 (smoothly 1), .proceeds 0 (smoothly 1),
          .proceeds 0 (smoothly 1), .proceeds 1 (smoothly 2), .proceeds 1 (smoothly 2), .proceeds 1 (smoothly 2)]) =
          some s ∧ s.Serves 1 6 ∧ s.Serves 2 6 :=
      ⟨_, rfl, ⟨by decide, .sharedStatic, rfl⟩, ⟨by decide, .sharedStatic, rfl⟩⟩
    obtain ⟨s, exec, first, second⟩ := ran
    exact ⟨_, s, .of_exec exec, fun one => absurd (one 1 2 6 first second) (by decide)⟩
  · have ran : ∃ s, exec step .initial (importFirst ++
        [.called 1 (.updateZip 1), .proceeds 1 (smoothly 1), .proceeds 1 (smoothly 1)] ++ clearFirst ++
        [.proceeds 1 (smoothly 1), .proceeds 1 (smoothly 1), .proceeds 1 (smoothly 1), .proceeds 1 (smoothly 1)]) =
          some s ∧ 5 ∈ (s.entry 1).cleared ∧ s.Serves 1 5 :=
      ⟨_, rfl, List.mem_cons_self, ⟨by decide, .sharedStatic, rfl⟩⟩
    obtain ⟨s, exec, cleared, serves⟩ := ran
    exact ⟨_, s, .of_exec exec, fun away => (away 1 5 cleared).1 serves⟩

end LocalWebAccess.PathAliases
