import LocalWebAccess.RegistrySchemas
import LocalWebAccess.GuardedRuns

/-!
# Migrations of the registry

`migrate` reads the version of the schema in a transaction and runs the script of the next one in it.
Several processes may do so at once. A statement may fail, and its failure may end the transaction, so
that what follows a failed reading of the version is committed statement by statement.
-/
namespace LocalWebAccess.SchemaMigrations
open GuardedRuns KeyedTables VersionedSchemas RegistrySchemas

abbrev Pid := ℕ

/-- `versions` are the rows of `schema_version`, each with its `applied_at`. -/
structure Database where
  schema : Schema
  versions : Table ℕ String

namespace Database

def empty : Database := ⟨Schema.empty, ∅⟩

/-- `get_schema_version`; a missing table is an `OperationalError`, and gives 0 as no row does. -/
def getSchemaVersion (d : Database) : ℕ :=
  if d.schema.hasTable "schema_version" then d.versions.keys.max?.getD 0 else 0

/-- `INSERT OR REPLACE INTO schema_version`. -/
def record (version : ℕ) (appliedAt : String) (d : Database) : Database :=
  { d with versions := d.versions.upsert version appliedAt fun _ => appliedAt }

end Database

/-- How the environment lets a statement go. -/
inductive Outcome where
  | done
  /-- It raises, maybe an `OperationalError`, and the transaction may be rolled back. -/
  | fails (operational rolledBack : Bool)
  deriving DecidableEq, Repr

/-- Where a call of `init_db` stands: at `BEGIN IMMEDIATE`, at a statement of `migrate`, at the `COMMIT` or
`ROLLBACK` of `transaction`, or at the `conn.close()` of its handler. -/
inductive Phase where
  | beginning
  | reading
  | applying (version : ℕ) (rest : List Statement)
  | committing (answer : Option ℕ)
  | undoing
  | closing
  | returned (version : ℕ)
  | raised
  deriving DecidableEq, Repr

/-- `writer` is the process whose transaction is open, with what it reads there. -/
structure State where
  committed : Database
  writer : Option (Pid × Database)
  calls : Pid → Option Phase

inductive Action where
  | called (p : Pid)
  | dies (p : Pid)
  | proceeds (p : Pid) (now : String) (outcome : Outcome)
  deriving DecidableEq, Repr

namespace State

def setPhase (s : State) (p : Pid) (phase : Option Phase) : State :=
  { s with calls := Function.update s.calls p phase }

def working (s : State) (p : Pid) : Option Database :=
  match s.writer with
  | some (q, d) => if q = p then some d else none
  | none => none

/-- What the connection of a process reads. -/
def contents (s : State) (p : Pid) : Database := (s.working p).getD s.committed

/-- No other process keeps this one from writing. -/
def free (s : State) (p : Pid) : Bool :=
  match s.writer with
  | some (q, _) => q = p
  | none => true

def write (s : State) (p : Pid) (d : Database) : State :=
  match s.working p with
  | some _ => { s with writer := some (p, d) }
  | none => { s with committed := d }

/-- The transaction of a process is rolled back, if one is open. -/
def drop (s : State) (p : Pid) : State :=
  match s.working p with
  | some _ => { s with writer := none }
  | none => s

def lose (s : State) (p : Pid) (rolledBack : Bool) : State := if rolledBack then s.drop p else s

/-- What `migrate` goes on with once it has a version. -/
def afterReading (s : State) (p : Pid) (current : ℕ) : State :=
  if target ≤ current then s.setPhase p (some (.committing (some current)))
  else s.setPhase p (some (.applying (current + 1) (script (current + 1))))

end State

/-- The next step of a call. A statement that has to wait for another process's transaction is not enabled. -/
def migrateStep (s : State) (p : Pid) (now : String) (outcome : Outcome) : Phase → Option State
  | .beginning =>
    match outcome, s.writer with
    | .fails _ _, _ => some (s.setPhase p (some .closing))
    | .done, none => some ({ s with writer := some (p, s.committed) }.setPhase p (some .reading))
    | .done, some (q, _) => if q = p then some (s.setPhase p (some .closing)) else none
  | .reading =>
    match outcome with
    | .done => some (s.afterReading p (s.contents p).getSchemaVersion)
    | .fails true rolledBack => some ((s.lose p rolledBack).afterReading p 0)
    | .fails false rolledBack => some ((s.lose p rolledBack).setPhase p (some .undoing))
  | .applying version (stmt :: rest) =>
    match outcome with
    | .fails _ rolledBack => some ((s.lose p rolledBack).setPhase p (some .undoing))
    | .done =>
      if s.free p then
        match stmt.apply (s.contents p).schema with
        | none => some (s.setPhase p (some .undoing))
        | some schema =>
          some ((s.write p { s.contents p with schema := schema }).setPhase p (some (.applying version rest)))
      else none
  | .applying version [] =>
    match outcome with
    | .fails _ rolledBack => some ((s.lose p rolledBack).setPhase p (some .undoing))
    | .done =>
      if s.free p then
        if (s.contents p).schema.hasTable "schema_version" then
          some ((s.write p ((s.contents p).record version now)).setPhase p (some (.committing none)))
        else some (s.setPhase p (some .undoing))
      else none
  | .committing answer =>
    match outcome, s.working p with
    | .fails _ rolledBack, _ => some ((s.lose p rolledBack).setPhase p (some .undoing))
    | .done, none => some (s.setPhase p (some .undoing))
    | .done, some d =>
      some ({ s with committed := d, writer := none }.setPhase p (some (answer.elim .beginning .returned)))
  | .undoing =>
    match outcome with
    | .done => some ((s.drop p).setPhase p (some .closing))
    | .fails _ rolledBack => some ((s.lose p rolledBack).setPhase p (some .closing))
  | .closing => some ((s.drop p).setPhase p (some .raised))
  | .returned _ | .raised => none

def step (s : State) : Action → Option State
  | .called p =>
    match s.calls p with
    | none | some .raised | some (.returned _) => some (s.setPhase p (some .beginning))
    | _ => none
  | .dies p => some ((s.drop p).setPhase p none)
  | .proceeds p now outcome => (s.calls p).bind (migrateStep s p now outcome)

/-- No process is at the database. -/
def State.initial (d : Database) : State := ⟨d, none, fun _ => none⟩

/-! ## Databases between two versions -/

/-- The schema is the one of the version recorded. -/
structure Migrated (d : Database) (version : ℕ) : Prop where
  positive : 1 ≤ version
  known : version ≤ target
  schema : schemaOf version = some d.schema
  recorded : ∀ n, n ∈ d.versions ↔ 1 ≤ n ∧ n ≤ version

/-- No version is recorded, and part of the first script has been run. -/
structure Unfinished (d : Database) : Prop where
  begun : Begun Statement.apply (script 1) Schema.empty d.schema
  recorded : ∀ n, n ∉ d.versions

def Consistent (d : Database) : Prop := (∃ version, Migrated d version) ∨ Unfinished d

/-- In the script of a later version, with some of it still to be run. -/
structure Midway (d : Database) (version : ℕ) (rest : List Statement) : Prop where
  later : 1 < version
  known : version ≤ target
  ran : ∃ done before, done ++ rest = script version ∧ schemaOf (version - 1) = some before ∧
    runAll Statement.apply done before = some d.schema
  recorded : ∀ n, n ∈ d.versions ↔ 1 ≤ n ∧ n < version

/-- Nothing that was in the database is missing. -/
structure Grown (c d : Database) : Prop where
  present : ∀ stmt : Statement, stmt.Present c.schema → stmt.Present d.schema
  recorded : ∀ n, n ∈ c.versions → n ∈ d.versions

variable {c d : Database} {version n : ℕ} {stmt : Statement} {rest : List Statement} {schema : Schema}
  {now : String}

theorem Grown.refl (d : Database) : Grown d d := ⟨fun _ h => h, fun _ h => h⟩

theorem Grown.trans {e : Database} (h : Grown c d) (h' : Grown d e) : Grown c e :=
  ⟨fun stmt there => h'.present stmt (h.present stmt there), fun n known => h'.recorded n (h.recorded n known)⟩

theorem grown_apply (taken : stmt.apply d.schema = some schema) : Grown d { d with schema := schema } :=
  ⟨fun _ there => stays_present there taken, fun _ h => h⟩

theorem mem_record : n ∈ (d.record version now).versions ↔ n = version ∨ n ∈ d.versions := by
  rw [← AList.lookup_isSome, ← AList.lookup_isSome]
  by_cases here : n = version
  · simp [Database.record, Table.lookup_upsert, here]
  · simp [Database.record, Table.lookup_upsert, here]

theorem grown_record : Grown d (d.record version now) :=
  ⟨fun _ h => h, fun _ known => mem_record.mpr (.inr known)⟩

theorem consistent_empty : Consistent Database.empty :=
  .inr ⟨Begun.start _ _, fun n => AList.notMem_empty n⟩

theorem Midway.recorded_record (h : Midway d version rest) :
    ∀ n, n ∈ (d.record version now).versions ↔ 1 ≤ n ∧ n ≤ version := by
  have later := h.later
  intro n
  rw [mem_record, h.recorded n]
  omega

/-- Some first statement of the scripts creates the table of the versions. -/
theorem hasTable_of_present (there : ∀ stmt ∈ script 1, stmt.Present schema) :
    schema.hasTable "schema_version" = true := by
  have among : .createTable "schema_version" ["version", "applied_at"] ∈ script 1 := by decide
  exact there _ among

theorem schemaOf_present (positive : 1 ≤ version) (reached : schemaOf version = some schema) :
    ∀ stmt ∈ script 1, stmt.Present schema := by
  obtain ⟨before, rfl⟩ := Nat.exists_eq_add_of_le' positive
  exact lasting.present_schemaAt reached

theorem Migrated.getSchemaVersion_eq (h : Migrated d version) : d.getSchemaVersion = version := by
  have table : d.schema.hasTable "schema_version" = true :=
    hasTable_of_present (schemaOf_present h.positive h.schema)
  have greatest : d.versions.keys.max? = some version := by
    rw [List.max?_eq_some_iff]
    refine ⟨AList.mem_keys.mp ((h.recorded version).mpr ⟨h.positive, le_refl version⟩), fun n among => ?_⟩
    exact ((h.recorded n).mp (AList.mem_keys.mpr among)).2
  rw [Database.getSchemaVersion, if_pos table, greatest, Option.getD_some]

theorem Unfinished.getSchemaVersion_eq (h : Unfinished d) : d.getSchemaVersion = 0 := by
  have none_recorded : d.versions.keys = [] :=
    List.eq_nil_iff_forall_not_mem.mpr fun n among => h.recorded n (AList.mem_keys.mpr among)
  rw [Database.getSchemaVersion, none_recorded]
  split_ifs
  · rfl
  · rfl

/-- A database in which a version is recorded is of the target's version as soon as that one is recorded. -/
theorem Consistent.migrated_of_mem (h : Consistent d) (known : target ∈ d.versions) : Migrated d target := by
  cases h with
  | inl h =>
    obtain ⟨version, migrated⟩ := h
    have upper := migrated.known
    have lower := ((migrated.recorded target).mp known).2
    obtain rfl : version = target := le_antisymm upper lower
    exact migrated
  | inr unfinished => exact absurd known (unfinished.recorded target)

theorem Migrated.target_mem (h : Migrated d target) : target ∈ d.versions :=
  (h.recorded target).mpr ⟨h.positive, le_refl target⟩

/-! ## What the statements of a script make of a database -/

/-- A statement of the first script, run by whoever has run those before it. -/
theorem Consistent.apply_first {done : List Statement} (h : Consistent d) (split : done ++ stmt :: rest = script 1)
    (there : ∀ stmt ∈ done, stmt.Present d.schema) :
    ∃ schema, stmt.apply d.schema = some schema ∧ Consistent { d with schema := schema } := by
  cases h with
  | inl h =>
    obtain ⟨version, migrated⟩ := h
    have among : stmt ∈ script 1 := split ▸ List.mem_append_right done List.mem_cons_self
    have present := schemaOf_present migrated.positive migrated.schema stmt among
    exact ⟨d.schema, guarded_first stmt among d.schema present, .inl ⟨version, migrated⟩⟩
  | inr unfinished =>
    obtain ⟨schema, taken, begun⟩ := Begun.next lasting guarded_first unfinished.begun split first_complete there
    exact ⟨schema, taken, .inr ⟨begun, unfinished.recorded⟩⟩

/-- The record of the first version, made by whoever has run its whole script. -/
theorem Consistent.record_first (h : Consistent d) (there : ∀ stmt ∈ script 1, stmt.Present d.schema) :
    Consistent (d.record 1 now) := by
  cases h with
  | inl h =>
    obtain ⟨version, migrated⟩ := h
    have positive := migrated.positive
    refine .inl ⟨version, positive, migrated.known, migrated.schema, fun n => ?_⟩
    rw [mem_record, migrated.recorded n]
    omega
  | inr unfinished =>
    have whole : runAll Statement.apply (script 1) Schema.empty = some d.schema :=
      unfinished.begun.finished guarded_first there
    refine .inl ⟨1, le_refl 1, Nat.succ_le_of_lt (by decide), (schemaAt_one ..).trans whole, fun n => ?_⟩
    have absent := unfinished.recorded n
    rw [mem_record]
    constructor
    · rintro (rfl | known)
      · exact ⟨le_refl 1, le_refl 1⟩
      · exact absurd known absent
    · rintro ⟨lower, upper⟩
      exact .inl (le_antisymm upper lower)

theorem Migrated.midway (h : Migrated d version) (below : version < target) :
    Midway d (version + 1) (script (version + 1)) where
  later := Nat.lt_succ_of_le h.positive
  known := below
  ran := ⟨[], d.schema, rfl, h.schema, rfl⟩
  recorded n := by
    rw [h.recorded n]
    omega

/-- A statement of a later script is not refused. -/
theorem Midway.apply_next (h : Midway d version (stmt :: rest)) :
    ∃ schema, stmt.apply d.schema = some schema ∧ Midway { d with schema := schema } version rest := by
  obtain ⟨done, before, split, reached, ran⟩ := h.ran
  have later := h.later
  obtain ⟨previous, rfl⟩ : ∃ previous, version = previous + 1 := ⟨version - 1, by omega⟩
  obtain ⟨after, whole, -⟩ := script_complete h.known reached
  rw [← split, runAll_append, ran] at whole
  have ahead : (stmt.apply d.schema).bind (runAll Statement.apply rest) = some after := whole
  obtain ⟨schema, taken, -⟩ := Option.bind_eq_some_iff.mp ahead
  refine ⟨schema, taken, later, h.known, ⟨done ++ [stmt], before, ?_, reached, runAll_snoc ran taken⟩, h.recorded⟩
  rw [List.append_assoc]
  exact split

theorem Midway.migrated_record (h : Midway d version []) : Migrated (d.record version now) version := by
  obtain ⟨done, before, split, reached, ran⟩ := h.ran
  have later := h.later
  obtain ⟨previous, rfl⟩ : ∃ previous, version = previous + 1 := ⟨version - 1, by omega⟩
  obtain ⟨after, whole, reached'⟩ := script_complete h.known reached
  rw [List.append_nil] at split
  obtain rfl : after = d.schema := Option.some.inj (by rw [← whole, ← split, ran])
  exact ⟨by omega, h.known, reached', h.recorded_record⟩

theorem Midway.hasTable (h : Midway d version rest) : d.schema.hasTable "schema_version" = true := by
  obtain ⟨done, before, -, reached, ran⟩ := h.ran
  have later := h.later
  refine hasTable_of_present fun stmt among => lasting.stays_runAll ?_ ran
  exact schemaOf_present (by omega) reached stmt among

/-! ## The invariant -/

/-- Whether the call's next statement finds the database as `migrate` takes it to be. -/
def Holds (s : State) (p : Pid) : Option Phase → Prop
  | none | some .beginning | some .raised => s.working p = none
  | some .reading => s.working p = some s.committed
  | some (.applying version rest) =>
    (version = 1 ∧ Consistent (s.contents p) ∧
      ∃ done, done ++ rest = script 1 ∧ ∀ stmt ∈ done, stmt.Present (s.contents p).schema) ∨
    ∃ d, s.working p = some d ∧ Midway d version rest
  | some (.committing none) => ∀ d, s.working p = some d → Consistent d
  | some (.committing (some version)) =>
    version = target ∧ Migrated s.committed target ∧ s.working p = some s.committed
  | some .undoing | some .closing => True
  | some (.returned version) => s.working p = none ∧ version = target ∧ Migrated s.committed target

structure Inv (s : State) : Prop where
  consistent : Consistent s.committed
  grown : ∀ p d, s.working p = some d → Grown s.committed d
  holds : ∀ p, Holds s p (s.calls p)

/-- What a step of a process does to the database and to its transaction. -/
inductive Moves (p : Pid) (s : State) : State → Prop where
  | stays : Moves p s s
  | opens (closed : s.writer = none) : Moves p s { s with writer := some (p, s.committed) }
  | writes {c d : Database} (own : s.working p = some c) (grown : Grown c d) :
      Moves p s { s with writer := some (p, d) }
  | autocommits {d : Database} (closed : s.writer = none) (grown : Grown s.committed d) (consistent : Consistent d) :
    Moves p s { s with committed := d }
  | commits {d : Database} (own : s.working p = some d) (consistent : Consistent d) :
    Moves p s { s with committed := d, writer := none }
  | drops {d : Database} (own : s.working p = some d) : Moves p s { s with writer := none }

variable {s t : State} {p q : Pid} {phase : Option Phase}

theorem calls_setPhase : (s.setPhase p phase).calls q = if q = p then phase else s.calls q := by
  simp [State.setPhase, Function.update_apply]

theorem working_eq_some_iff : s.working p = some d ↔ s.writer = some (p, d) := by
  cases opened : s.writer with
  | none => simp [State.working, opened]
  | some entry =>
    obtain ⟨q, e⟩ := entry
    by_cases same : q = p
    · simp [State.working, opened, same]
    · simp [State.working, opened, same]

theorem working_of_writer (opened : s.writer = some (p, d)) :
    s.working q = if q = p then some d else none := by
  simp only [State.working, opened]
  split_ifs with same other other
  · rfl
  · exact absurd same.symm other
  · exact absurd other.symm same
  · rfl

theorem working_of_closed (closed : s.writer = none) : s.working q = none := by
  simp only [State.working, closed]

theorem contents_of_working (opened : s.working p = some d) : s.contents p = d := by
  rw [State.contents, opened, Option.getD_some]

theorem contents_of_alone (alone : s.working p = none) : s.contents p = s.committed := by
  rw [State.contents, alone, Option.getD_none]

theorem Moves.calls_eq (h : Moves p s t) : t.calls = s.calls := by
  cases h <;> rfl

theorem Moves.consistent (h : Moves p s t) (before : Consistent s.committed) : Consistent t.committed := by
  cases h with
  | autocommits _ _ consistent => exact consistent
  | commits _ consistent => exact consistent
  | _ => exact before

/-- Other processes find their transactions as they were, and more in the database only if they have none. -/
theorem Moves.beside (h : Moves p s t) (grown : ∀ p d, s.working p = some d → Grown s.committed d) :
    Grown s.committed t.committed ∧
    ∀ q, q ≠ p → t.working q = s.working q ∧ (t.committed = s.committed ∨ t.working q = none) := by
  cases h with
  | stays => exact ⟨.refl _, fun q _ => ⟨rfl, .inl rfl⟩⟩
  | opens closed =>
    refine ⟨.refl _, fun q other => ⟨?_, .inl rfl⟩⟩
    rw [working_of_writer rfl, if_neg other, working_of_closed closed]
  | writes own =>
    refine ⟨.refl _, fun q other => ⟨?_, .inl rfl⟩⟩
    rw [working_of_writer rfl, if_neg other, working_of_writer (working_eq_some_iff.mp own), if_neg other]
  | autocommits closed more =>
    exact ⟨more, fun q _ => ⟨rfl, .inr (working_of_closed closed)⟩⟩
  | commits own =>
    refine ⟨grown _ _ own, fun q other => ?_⟩
    have closed : s.working q = none := by rw [working_of_writer (working_eq_some_iff.mp own), if_neg other]
    exact ⟨(working_of_closed rfl).trans closed.symm, .inr (working_of_closed rfl)⟩
  | drops own =>
    refine ⟨.refl _, fun q other => ⟨?_, .inl rfl⟩⟩
    rw [working_of_closed rfl, working_of_writer (working_eq_some_iff.mp own), if_neg other]

/-- What a transaction has written has grown from what is committed, whoever has moved. -/
theorem Moves.grown (h : Moves p s t) (before : ∀ p d, s.working p = some d → Grown s.committed d) :
    ∀ q d, t.working q = some d → Grown t.committed d := by
  intro q d opened
  cases h with
  | stays => exact before q d opened
  | opens closed =>
    rw [working_of_writer rfl] at opened
    split_ifs at opened
    cases opened
    exact .refl _
  | writes own more =>
    rw [working_of_writer rfl] at opened
    split_ifs at opened
    cases opened
    exact (before p _ own).trans more
  | autocommits closed =>
    have none_open := working_of_closed (q := q) closed
    exact absurd (none_open.symm.trans opened) (by simp)
  | commits own => exact absurd ((working_of_closed rfl).symm.trans opened) (by simp)
  | drops own => exact absurd ((working_of_closed rfl).symm.trans opened) (by simp)

/-- What a call relies on is not touched by what others do. -/
theorem Holds.frame (h : Holds s p phase) (same : t.working p = s.working p)
    (kept : t.committed = s.committed ∨ t.working p = none) (more : Grown s.committed t.committed)
    (consistent : Consistent t.committed) : Holds t p phase := by
  have migrated : Migrated s.committed target → Migrated t.committed target := fun before =>
    consistent.migrated_of_mem (more.recorded target before.target_mem)
  match phase with
  | none | some .beginning | some .raised => exact same.trans h
  | some .undoing | some .closing => trivial
  | some .reading =>
    cases kept with
    | inl kept => exact same.trans (Eq.trans h (congrArg some kept.symm))
    | inr closed => exact absurd ((closed.symm.trans same).trans h) (by simp)
  | some (.committing none) => exact fun d opened => h d (same.symm.trans opened)
  | some (.committing (some version)) =>
    obtain ⟨answer, before, opened⟩ := h
    cases kept with
    | inl kept => exact ⟨answer, migrated before, same.trans (opened.trans (congrArg some kept.symm))⟩
    | inr closed => exact absurd ((closed.symm.trans same).trans opened) (by simp)
  | some (.returned version) => exact ⟨same.trans h.1, h.2.1, migrated h.2.2⟩
  | some (.applying version rest) =>
    cases h with
    | inr later => exact .inr (later.imp fun d within => ⟨same.trans within.1, within.2⟩)
    | inl first =>
      obtain ⟨version_eq, before, done, split, there⟩ := first
      have contents : Grown (s.contents p) (t.contents p) ∧ Consistent (t.contents p) := by
        cases opened : s.working p with
        | none =>
          rw [contents_of_alone opened, contents_of_alone (same.trans opened)]
          exact ⟨more, consistent⟩
        | some d =>
          have here := contents_of_working opened
          rw [here] at before ⊢
          rw [contents_of_working (same.trans opened)]
          exact ⟨.refl d, before⟩
      exact .inl ⟨version_eq, contents.2, done, split, fun stmt among => contents.1.present stmt (there stmt among)⟩

/-- What a step leads to. -/
structure Next (s t : State) : Prop where
  inv : Inv t
  grown : Grown s.committed t.committed

/-- A step of a process keeps the invariant if the process finds what it relies on next. -/
theorem Inv.move (inv : Inv s) (moved : Moves p s t) (own : Holds t p phase) : Next s (t.setPhase p phase) := by
  have consistent := moved.consistent inv.consistent
  obtain ⟨more, others⟩ := moved.beside inv.grown
  refine ⟨⟨consistent, moved.grown inv.grown, fun q => ?_⟩, more⟩
  rw [calls_setPhase]
  split_ifs with same
  · subst same
    exact own
  · obtain ⟨untouched, kept⟩ := others q same
    rw [moved.calls_eq]
    exact (inv.holds q).frame untouched kept more consistent

/-! ## Steps -/

theorem moves_drop : Moves p s (s.drop p) := by
  cases opened : s.working p with
  | none =>
    rw [State.drop, opened]
    exact .stays
  | some d =>
    rw [State.drop, opened]
    exact .drops opened

theorem working_drop : (s.drop p).working p = none := by
  cases opened : s.working p with
  | none =>
    rw [State.drop, opened]
    exact opened
  | some d =>
    rw [State.drop, opened]
    exact working_of_closed rfl

theorem committed_drop : (s.drop p).committed = s.committed := by
  unfold State.drop
  split
  · rfl
  · rfl

theorem moves_lose (rolledBack : Bool) : Moves p s (s.lose p rolledBack) := by
  cases rolledBack with
  | true => exact moves_drop
  | false => exact .stays

theorem closed_of_free (free : s.free p = true) (alone : s.working p = none) : s.writer = none := by
  cases opened : s.writer with
  | none => rfl
  | some entry =>
    obtain ⟨q, d⟩ := entry
    have same : q = p := by simpa [State.free, opened] using free
    rw [working_of_writer opened, if_pos same.symm] at alone
    cases alone

/-- What a call writes it also reads, and outside a transaction everybody does. -/
theorem moves_write (free : s.free p = true) (more : Grown (s.contents p) d)
    (consistent : s.working p = none → Consistent d) :
    Moves p s (s.write p d) ∧ (s.write p d).contents p = d ∧
    ((s.write p d).working p = none ∨ (s.write p d).working p = some d) ∧
    ((s.write p d).working p = none → s.working p = none) := by
  cases opened : s.working p with
  | none =>
    have closed := closed_of_free free opened
    have same : s.write p d = { s with committed := d } := by rw [State.write, opened]
    have still : ({ s with committed := d } : State).working p = none := working_of_closed closed
    rw [contents_of_alone opened] at more
    rw [same]
    exact ⟨.autocommits closed more (consistent opened), contents_of_alone still, .inl still, fun _ => rfl⟩
  | some c =>
    have same : s.write p d = { s with writer := some (p, d) } := by rw [State.write, opened]
    have still : ({ s with writer := some (p, d) } : State).working p = some d := by
      rw [working_of_writer rfl, if_pos rfl]
    rw [contents_of_working opened] at more
    rw [same, contents_of_working still, still]
    exact ⟨.writes opened more, rfl, .inr rfl, fun lost => absurd lost (by simp)⟩

/-- After a reading that failed the first script is begun in whatever database there is. -/
theorem Inv.afterReading_zero (inv : Inv s) (moved : Moves p s t)
    (left : t.committed = s.committed ∧ (t.working p = none ∨ t.working p = some s.committed)) :
    Next s (t.afterReading p 0) := by
  have unknown : ¬ target ≤ 0 := by decide
  rw [State.afterReading, if_neg unknown]
  refine inv.move moved (.inl ⟨rfl, ?_, [], rfl, fun stmt among => absurd among (by simp)⟩)
  have contents : t.contents p = s.committed := by
    cases left.2 with
    | inl closed => exact (contents_of_alone closed).trans left.1
    | inr opened => exact contents_of_working opened
  rw [contents]
  exact inv.consistent

theorem Inv.reading (inv : Inv s) (before : s.working p = some s.committed) :
    Next s (s.afterReading p (s.contents p).getSchemaVersion) := by
  rw [contents_of_working before]
  cases inv.consistent with
  | inr unfinished =>
    rw [unfinished.getSchemaVersion_eq]
    exact inv.afterReading_zero .stays ⟨rfl, .inr before⟩
  | inl h =>
    obtain ⟨version, migrated⟩ := h
    rw [migrated.getSchemaVersion_eq, State.afterReading]
    split_ifs with reached
    · obtain rfl : version = target := le_antisymm migrated.known reached
      exact inv.move .stays ⟨rfl, migrated, before⟩
    · exact inv.move .stays (.inr ⟨s.committed, before, migrated.midway (Nat.lt_of_not_le reached)⟩)

/-- A statement of a script is not refused in the state that its call finds. -/
theorem Holds.apply_next (h : Holds s p (some (.applying version (stmt :: rest)))) :
    ∃ schema, stmt.apply (s.contents p).schema = some schema ∧
      (s.free p = true →
        Moves p s (s.write p { s.contents p with schema := schema }) ∧
        Holds (s.write p { s.contents p with schema := schema }) p (some (.applying version rest))) := by
  cases h with
  | inl first =>
    obtain ⟨rfl, consistent, done, split, there⟩ := first
    obtain ⟨schema, taken, after⟩ := consistent.apply_first split there
    refine ⟨schema, taken, fun free => ?_⟩
    have written := moves_write (d := { s.contents p with schema := schema }) free (grown_apply taken) fun _ => after
    refine ⟨written.1, .inl ⟨rfl, ?_, done ++ [stmt], ?_, fun other among => ?_⟩⟩
    · rw [written.2.1]
      exact after
    · rw [List.append_assoc]
      exact split
    · rw [written.2.1]
      cases List.mem_append.mp among with
      | inl early => exact stays_present (there other early) taken
      | inr last =>
        obtain rfl : other = stmt := List.mem_singleton.mp last
        exact leaves_present taken
  | inr later =>
    obtain ⟨d, opened, within⟩ := later
    have here := contents_of_working opened
    obtain ⟨schema, taken, after⟩ := within.apply_next
    rw [here]
    refine ⟨schema, taken, fun free => ?_⟩
    have more : Grown (s.contents p) { d with schema := schema } := by
      rw [here]
      exact grown_apply taken
    have written := moves_write free more fun closed => absurd (closed.symm.trans opened) (by simp)
    refine ⟨written.1, .inr ⟨_, ?_, after⟩⟩
    cases written.2.2.1 with
    | inl closed => exact absurd ((written.2.2.2 closed).symm.trans opened) (by simp)
    | inr still => exact still

/-- Neither is the record of the version. -/
theorem Holds.record_next (h : Holds s p (some (.applying version []))) (now : String) :
    (s.contents p).schema.hasTable "schema_version" = true ∧
      (s.free p = true →
        Moves p s (s.write p ((s.contents p).record version now)) ∧
        Holds (s.write p ((s.contents p).record version now)) p (some (.committing none))) := by
  cases h with
  | inl first =>
    obtain ⟨rfl, consistent, done, split, there⟩ := first
    rw [List.append_nil] at split
    rw [split] at there
    refine ⟨hasTable_of_present there, fun free => ?_⟩
    have after : Consistent ((s.contents p).record 1 now) := consistent.record_first there
    have written := moves_write free grown_record fun _ => after
    refine ⟨written.1, fun d opened => ?_⟩
    cases written.2.2.1 with
    | inl closed => exact absurd (closed.symm.trans opened) (by simp)
    | inr still =>
      obtain rfl := Option.some.inj (still.symm.trans opened)
      exact after
  | inr later =>
    obtain ⟨d, opened, within⟩ := later
    have here := contents_of_working opened
    rw [here]
    refine ⟨within.hasTable, fun free => ?_⟩
    have more : Grown (s.contents p) (d.record version now) := by
      rw [here]
      exact grown_record
    have written := moves_write free more
      fun closed => absurd (closed.symm.trans opened) (by simp)
    refine ⟨written.1, fun e reads => ?_⟩
    cases written.2.2.1 with
    | inl closed => exact absurd (closed.symm.trans reads) (by simp)
    | inr still =>
      obtain rfl := Option.some.inj (still.symm.trans reads)
      exact .inl ⟨version, within.migrated_record⟩

theorem working_lose (rolledBack : Bool) :
    (s.lose p rolledBack).committed = s.committed ∧
    ((s.lose p rolledBack).working p = none ∨ (s.lose p rolledBack).working p = s.working p) := by
  cases rolledBack with
  | true => exact ⟨committed_drop, .inl working_drop⟩
  | false => exact ⟨rfl, .inr rfl⟩

theorem inv_migrateStep {outcome : Outcome} {stage : Phase} (inv : Inv s) (call : s.calls p = some stage)
    (taken : migrateStep s p now outcome stage = some t) : Next s t := by
  have holds := inv.holds p
  rw [call] at holds
  have undone (rolledBack : Bool) : Next s ((s.lose p rolledBack).setPhase p (some .undoing)) :=
    inv.move (moves_lose rolledBack) trivial
  cases stage with
  | beginning =>
    cases outcome with
    | fails => exact Option.some.inj taken ▸ inv.move .stays trivial
    | done =>
      cases opened : s.writer with
      | none =>
        simp only [migrateStep, opened, Option.some.injEq] at taken
        subst taken
        refine inv.move (.opens opened) ?_
        exact (working_of_writer rfl).trans (if_pos rfl)
      | some entry =>
        simp only [migrateStep, opened] at taken
        split_ifs at taken
        exact Option.some.inj taken ▸ inv.move .stays trivial
  | reading =>
    cases outcome with
    | done => exact Option.some.inj taken ▸ inv.reading holds
    | fails operational rolledBack =>
      cases operational with
      | false => exact Option.some.inj taken ▸ undone rolledBack
      | true =>
        obtain ⟨same, lost⟩ := working_lose (s := s) (p := p) rolledBack
        exact Option.some.inj taken ▸ inv.afterReading_zero (moves_lose rolledBack)
          ⟨same, lost.imp id fun still => still.trans holds⟩
  | applying version rest =>
    cases rest with
    | cons stmt rest =>
      cases outcome with
      | fails operational rolledBack => exact Option.some.inj taken ▸ undone rolledBack
      | done =>
        obtain ⟨schema, accepted, after⟩ := Holds.apply_next holds
        simp only [migrateStep, accepted] at taken
        split_ifs at taken with free
        obtain ⟨moved, own⟩ := after free
        exact Option.some.inj taken ▸ inv.move moved own
    | nil =>
      cases outcome with
      | fails operational rolledBack => exact Option.some.inj taken ▸ undone rolledBack
      | done =>
        obtain ⟨accepted, after⟩ := holds.record_next now
        simp only [migrateStep, accepted, if_true] at taken
        split_ifs at taken with free
        obtain ⟨moved, own⟩ := after free
        exact Option.some.inj taken ▸ inv.move moved own
  | committing answer =>
    cases outcome with
    | fails operational rolledBack => exact Option.some.inj taken ▸ undone rolledBack
    | done =>
      cases opened : s.working p with
      | none =>
        simp only [migrateStep, opened, Option.some.injEq] at taken
        exact taken ▸ inv.move .stays trivial
      | some d =>
        simp only [migrateStep, opened, Option.some.injEq] at taken
        subst taken
        cases answer with
        | none => exact inv.move (.commits opened (holds d opened)) (working_of_closed rfl)
        | some version =>
          obtain ⟨answered, migrated, same⟩ := holds
          obtain rfl := Option.some.inj (opened.symm.trans same)
          exact inv.move (.commits opened inv.consistent) ⟨working_of_closed rfl, answered, migrated⟩
  | undoing =>
    cases outcome with
    | done => exact Option.some.inj taken ▸ inv.move moves_drop trivial
    | fails operational rolledBack => exact Option.some.inj taken ▸ inv.move (moves_lose rolledBack) trivial
  | closing => exact Option.some.inj taken ▸ inv.move moves_drop working_drop
  | returned version => cases taken
  | raised => cases taken

theorem inv_step {a : Action} (inv : Inv s) (taken : step s a = some t) : Next s t := by
  cases a with
  | called p =>
    have alone : Holds s p (s.calls p) := inv.holds p
    simp only [step] at taken
    split at taken
    case h_1 call =>
      rw [call] at alone
      exact Option.some.inj taken ▸ inv.move .stays alone
    case h_2 call =>
      rw [call] at alone
      exact Option.some.inj taken ▸ inv.move .stays alone
    case h_3 call =>
      rw [call] at alone
      exact Option.some.inj taken ▸ inv.move .stays alone.1
    case h_4 => cases taken
  | dies p => exact Option.some.inj taken ▸ inv.move moves_drop working_drop
  | proceeds p now outcome =>
    obtain ⟨stage, call, taken⟩ := Option.bind_eq_some_iff.mp taken
    exact inv_migrateStep inv call taken

/-! ## Runs -/

theorem inv_initial (start : Consistent d) : Inv (State.initial d) where
  consistent := start
  grown := fun p c opened => absurd ((working_of_closed rfl).symm.trans opened) (by simp)
  holds := fun p => working_of_closed rfl

variable {as bs : List Action}

theorem inv_exec (inv : Inv s) (run : exec step s as = some t) : Next s t := by
  induction as generalizing s with
  | nil =>
    obtain rfl : s = t := Option.some.inj run
    exact ⟨inv, .refl s.committed⟩
  | cons a as ih =>
    obtain ⟨next, taken, run⟩ := Option.bind_eq_some_iff.mp run
    obtain ⟨inv, first⟩ := inv_step inv taken
    obtain ⟨inv, later⟩ := ih inv run
    exact ⟨inv, first.trans later⟩

theorem contents_of_writer (opened : s.writer = some (p, d)) : s.contents p = d :=
  contents_of_working (working_eq_some_iff.mpr opened)

theorem free_of_writer (opened : s.writer = some (p, d)) : s.free p = true := by
  simp only [State.free, opened, decide_true]

theorem write_of_writer (opened : s.writer = some (p, c)) : s.write p d = { s with writer := some (p, d) } := by
  rw [State.write, working_of_writer opened, if_pos rfl]

section

variable (opened : s.writer = some (p, d)) (now : String)

include opened

theorem step_apply (call : s.calls p = some (.applying version (stmt :: rest)))
    (accepted : stmt.apply d.schema = some schema) :
    step s (.proceeds p now .done) =
      some ({ s with writer := some (p, { d with schema := schema }) }.setPhase p (some (.applying version rest))) := by
  simp only [step, call, Option.bind_some, migrateStep, free_of_writer opened, contents_of_writer opened, accepted,
    write_of_writer opened, if_true]

theorem step_record (call : s.calls p = some (.applying version []))
    (accepted : d.schema.hasTable "schema_version" = true) :
    step s (.proceeds p now .done) =
      some ({ s with writer := some (p, d.record version now) }.setPhase p (some (.committing none))) := by
  simp only [step, call, Option.bind_some, migrateStep, free_of_writer opened, contents_of_writer opened, accepted,
    write_of_writer opened, if_true]

theorem step_commit (answer : Option ℕ) (call : s.calls p = some (.committing answer)) :
    step s (.proceeds p now .done) =
      some ({ s with committed := d, writer := none }.setPhase p (some (answer.elim .beginning .returned))) := by
  have working : s.working p = some d := working_eq_some_iff.mpr opened
  simp only [step, call, Option.bind_some, migrateStep, working]

theorem step_read (call : s.calls p = some .reading) :
    step s (.proceeds p now .done) = some (s.afterReading p d.getSchemaVersion) := by
  simp only [step, call, Option.bind_some, migrateStep, contents_of_writer opened]

end

theorem step_begin (call : s.calls p = some .beginning) (closed : s.writer = none) (now : String) :
    step s (.proceeds p now .done) =
      some ({ s with writer := some (p, s.committed) }.setPhase p (some .reading)) := by
  simp only [step, call, Option.bind_some, migrateStep, closed]

theorem exec_cons {a : Action} {z : State} (taken : step s a = some t) (run : exec step t as = some z) :
    exec step s (a :: as) = some z := by
  rw [exec, taken, Option.bind_some]
  exact run

theorem own_call (s : State) (p : Pid) (phase : Option Phase) : (s.setPhase p phase).calls p = phase := by
  rw [calls_setPhase, if_pos rfl]

/-- The rest of a script, the record of its version and the commit. -/
theorem rest_of_script (inv : Inv s) (call : s.calls p = some (.applying version rest))
    (opened : s.writer = some (p, d)) (now : String) :
    ∃ t, exec step s (List.replicate (rest.length + 2) (.proceeds p now .done)) = some t ∧
      t.calls p = some .beginning ∧ t.writer = none ∧ version ∈ t.committed.versions := by
  have holds := inv.holds p
  rw [call] at holds
  have here := contents_of_writer opened
  induction rest generalizing s d with
  | nil =>
    obtain ⟨accepted, -⟩ := holds.record_next now
    rw [here] at accepted
    have recorded := step_record opened now call accepted
    have committed := step_commit rfl now none
      (own_call { s with writer := some (p, d.record version now) } p _)
    exact ⟨_, exec_cons recorded (exec_cons committed rfl), own_call _ p _, rfl, mem_record.mpr (.inl rfl)⟩
  | cons stmt rest ih =>
    obtain ⟨schema, accepted, -⟩ := Holds.apply_next holds
    rw [here] at accepted
    have applied := step_apply opened now call accepted
    obtain ⟨inv', -⟩ := inv_step inv applied
    have call' := own_call { s with writer := some (p, { d with schema := schema }) } p (some (.applying version rest))
    have holds' := inv'.holds p
    rw [call'] at holds'
    obtain ⟨t, run, reached⟩ := ih inv' call' rfl holds' (contents_of_writer rfl)
    exact ⟨t, exec_cons applied run, reached⟩

/-- One transaction brings the database to the next version, or finds it at the newest. -/
theorem undisturbed_round (inv : Inv s) (call : s.calls p = some .beginning) (closed : s.writer = none)
    (now : String) :
    ∃ n t, exec step s (List.replicate n (.proceeds p now .done)) = some t ∧
      (t.calls p = some (.returned target) ∨
        t.calls p = some .beginning ∧ t.writer = none ∧
          s.committed.getSchemaVersion < t.committed.getSchemaVersion) := by
  have begun := step_begin call closed now
  have read := step_read (s := { s with writer := some (p, s.committed) }.setPhase p (some .reading)) rfl now
    (own_call _ p _)
  have inv' := (inv_step (inv_step inv begun).inv read).inv
  by_cases newest : target ≤ s.committed.getSchemaVersion
  · rw [State.afterReading, if_pos newest] at read inv'
    have holds := inv'.holds p
    rw [own_call] at holds
    obtain ⟨same, -⟩ := holds
    have committed := step_commit rfl now (some s.committed.getSchemaVersion)
      (own_call ({ s with writer := some (p, s.committed) }.setPhase p (some .reading)) p _)
    refine ⟨3, _, exec_cons begun (exec_cons read (exec_cons committed rfl)), .inl ?_⟩
    rw [own_call, same]
    rfl
  · rw [State.afterReading, if_neg newest] at read inv'
    obtain ⟨t, run, call', closed', recorded⟩ := rest_of_script inv' (own_call _ p _) rfl now
    refine ⟨(script (s.committed.getSchemaVersion + 1)).length + 2 + 1 + 1, t,
      exec_cons begun (exec_cons read run), .inr ⟨call', closed', ?_⟩⟩
    cases (inv_exec inv' run).inv.consistent with
    | inr unfinished => exact absurd recorded (unfinished.recorded _)
    | inl h =>
      obtain ⟨version, migrated⟩ := h
      rw [migrated.getSchemaVersion_eq]
      exact ((migrated.recorded _).mp recorded).2

theorem call_returns (inv : Inv s) (call : s.calls p = some .beginning) (closed : s.writer = none) (now : String) :
    ∃ n t, exec step s (List.replicate n (.proceeds p now .done)) = some t ∧ t.calls p = some (.returned target) := by
  -- Each round that does not return leaves fewer versions to go.
  obtain ⟨missing, enough⟩ : ∃ missing, target < s.committed.getSchemaVersion + missing :=
    ⟨target + 1, by omega⟩
  induction missing generalizing s with
  | zero =>
    cases inv.consistent with
    | inr unfinished =>
      rw [unfinished.getSchemaVersion_eq] at enough
      omega
    | inl h =>
      obtain ⟨version, migrated⟩ := h
      have known := migrated.known
      rw [migrated.getSchemaVersion_eq] at enough
      omega
  | succ missing ih =>
    obtain ⟨n, t, round, ended | ⟨call', closed', further⟩⟩ := undisturbed_round inv call closed now
    · exact ⟨n, t, round, ended⟩
    · obtain ⟨m, z, rounds, ended⟩ := ih (inv_exec inv round).inv call' closed' (by omega)
      refine ⟨n + m, z, ?_, ended⟩
      rw [← List.replicate_append_replicate]
      exact ((Run.of_exec round).append (Run.of_exec rounds)).exec_eq

/-! ## Whatever processes migrate a database at once -/

/-- Once a call has returned, the database has the newest schema for ever. -/
theorem returned_is_migrated (start : Consistent d) (run : exec step (State.initial d) as = some s)
    (answered : s.calls p = some (.returned version)) (later : exec step s bs = some t) :
    version = target ∧ Migrated t.committed target := by
  obtain ⟨inv, -⟩ := inv_exec (inv_initial start) run
  obtain ⟨inv', more⟩ := inv_exec inv later
  have holds := inv.holds p
  rw [answered] at holds
  obtain ⟨-, same, migrated⟩ := holds
  exact ⟨same, inv'.consistent.migrated_of_mem (more.recorded target migrated.target_mem)⟩

theorem returned_is_migrated_empty :
    ∃ as s, exec step (State.initial Database.empty) as = some s ∧ s.calls 1 = some (.returned target) ∧
      target = target ∧ Migrated s.committed target := by
  have start := inv_initial consistent_empty
  have called : step (State.initial Database.empty) (.called 1) =
      some ((State.initial Database.empty).setPhase 1 (some .beginning)) := rfl
  obtain ⟨n, t, run, answered⟩ := call_returns (inv_step start called).inv (own_call _ 1 _) rfl "now"
  have whole := exec_cons called run
  exact ⟨_, t, whole, answered, returned_is_migrated consistent_empty whole answered (rfl : exec step t [] = some t)⟩

/-- Whatever the others have done meanwhile, the schema never refuses the next statement of a call. -/
theorem statements_not_refused (start : Consistent d) (run : exec step (State.initial d) as = some s)
    (call : s.calls p = some (.applying version rest)) :
    (∀ stmt remaining, rest = stmt :: remaining → (stmt.apply (s.contents p).schema).isSome = true) ∧
    (rest = [] → (s.contents p).schema.hasTable "schema_version" = true) := by
  obtain ⟨inv, -⟩ := inv_exec (inv_initial start) run
  have holds := inv.holds p
  rw [call] at holds
  constructor
  · rintro stmt remaining rfl
    obtain ⟨schema, accepted, -⟩ := Holds.apply_next holds
    rw [accepted]
    rfl
  · rintro rfl
    exact (holds.record_next "").1

theorem statements_not_refused_first :
    (∀ stmt remaining, script 1 = stmt :: remaining → (stmt.apply Schema.empty).isSome = true) ∧
      (script 1 = [] → Schema.empty.hasTable "schema_version" = true) :=
  statements_not_refused (p := 1) consistent_empty
    (rfl : exec step (State.initial Database.empty)
      [.called 1, .proceeds 1 "now" .done, .proceeds 1 "now" .done] = some _) rfl

/-- A call that nothing fails and nobody disturbs returns, whatever has happened before. -/
theorem undisturbed_returns (start : Consistent d) (run : exec step (State.initial d) as = some s)
    (call : s.calls p = some .beginning) (closed : s.writer = none) (now : String) :
    ∃ n t, exec step s (List.replicate n (.proceeds p now .done)) = some t ∧
      t.calls p = some (.returned target) ∧ Migrated t.committed target := by
  obtain ⟨inv, -⟩ := inv_exec (inv_initial start) run
  obtain ⟨n, t, alone, ended⟩ := call_returns inv call closed now
  have holds := (inv_exec inv alone).inv.holds p
  rw [ended] at holds
  exact ⟨n, t, alone, ended, holds.2.2⟩

theorem undisturbed_returns_empty :
    ∃ n t, exec step ((State.initial Database.empty).setPhase 1 (some .beginning))
        (List.replicate n (.proceeds 1 "now" .done)) = some t ∧
      t.calls 1 = some (.returned target) ∧ Migrated t.committed target :=
  undisturbed_returns consistent_empty (rfl : exec step (State.initial Database.empty) [.called 1] = some _) rfl rfl
    "now"

end LocalWebAccess.SchemaMigrations
