import LocalWebAccess.VersionedSchemas
import LocalWebAccess.KeyedTables

/-!
# The schema scripts of the registry

`_SCHEMAS` holds for each version the statements that bring the registry's database to it. Of a table
its columns are kept, of an index the columns of the table that it covers.
-/
namespace LocalWebAccess.RegistrySchemas
open KeyedTables VersionedSchemas

structure Index where
  table : String
  columns : List String
  deriving DecidableEq, Repr

structure Schema where
  tables : Table String (List String)
  indexes : Table String Index

namespace Schema

def empty : Schema := ⟨∅, ∅⟩

def hasTable (name : String) (s : Schema) : Bool := (s.tables.lookup name).isSome

def hasIndex (name : String) (s : Schema) : Bool := (s.indexes.lookup name).isSome

def hasColumn (table column : String) (s : Schema) : Bool :=
  match s.tables.lookup table with
  | none => false
  | some columns => columns.contains column

end Schema

inductive Statement where
  /-- `CREATE TABLE IF NOT EXISTS`. -/
  | createTable (table : String) (columns : List String)
  /-- `CREATE INDEX IF NOT EXISTS`. -/
  | createIndex (index table : String) (columns : List String)
  /-- `ALTER TABLE … ADD COLUMN`. -/
  | addColumn (table column : String)
  deriving DecidableEq, Repr

/-- What SQLite makes of a statement, or `none` where it raises. -/
def Statement.apply : Statement → Schema → Option Schema
  | .createTable table columns, s =>
    if s.hasTable table then some s
    else if s.hasIndex table then none
    else some { s with tables := s.tables.upsert table columns id }
  | .createIndex index table columns, s =>
    if s.hasTable table = false then none
    else if s.hasTable index then none
    else if s.hasIndex index then some s
    else if columns.all (s.hasColumn table) then some { s with indexes := s.indexes.upsert index ⟨table, columns⟩ id }
    else none
  | .addColumn table column, s =>
    if s.hasTable table = false then none
    else if s.hasColumn table column then none
    else some { s with tables := s.tables.update table (· ++ [column]) }

/-- The object of a statement is in the schema. -/
def Statement.Present : Statement → Schema → Prop
  | .createTable table _, s => s.hasTable table
  | .createIndex index table _, s => s.hasTable table ∧ s.hasTable index = false ∧ s.hasIndex index
  | .addColumn table column, s => s.hasColumn table column

/-- The statement says `IF NOT EXISTS`. -/
def Statement.ifNotExists : Statement → Bool
  | .createTable .. | .createIndex .. => true
  | .addColumn .. => false

open Statement

def _SCHEMAS : List (List Statement) := [
  [createTable "schema_version" ["version", "applied_at"],
    createTable "instances" ["id", "name", "version", "kind", "runtime", "serving_mode", "resource_profile",
      "stack_json", "has_database", "database_type", "database_json", "desired_state", "status", "app_path",
      "source_zip_path", "created_at", "updated_at", "last_started_at", "last_health_check_at", "last_error"],
    createTable "containers" ["instance_id", "compose_project", "service_name", "image", "image_id",
      "container_id", "internal_port", "host_port", "route_mode", "route_host", "compose_path",
      "dockerfile_path", "memory_limit", "cpu_limit"],
    createTable "static_sites" ["instance_id", "root_path", "gateway", "route_mode", "host_port", "route_host",
      "gateway_config_path", "enabled"],
    createTable "ports" ["port", "instance_id", "status", "created_at"],
    createTable "events" ["id", "instance_id", "event_type", "message", "created_at"],
    createTable "builds" ["id", "instance_id", "status", "started_at", "finished_at", "log_path",
      "error_summary"],
    createTable "resources" ["instance_id", "source_size_bytes", "public_size_bytes", "data_size_bytes",
      "image_size_bytes", "last_memory_bytes", "last_cpu_percent", "updated_at"],
    createIndex "idx_instances_status" "instances" ["status"],
    createIndex "idx_events_instance" "events" ["instance_id"],
    createIndex "idx_builds_instance" "builds" ["instance_id"],
    createIndex "idx_ports_instance" "ports" ["instance_id"]],
  [addColumn "instances" "observed_state", addColumn "instances" "observation_error",
    addColumn "instances" "last_trusted_state", addColumn "instances" "last_observed_at",
    addColumn "instances" "runtime_access"],
  [createTable "workspace_meta" ["key", "value"],
    createTable "agent_plans" ["plan_id", "principal_id", "workspace_id", "intent", "source_json",
      "source_digest", "target_instance_id", "expected_revision", "display_name", "options_json",
      "policy_version", "request_hash", "created_at", "expires_at"],
    createTable "agent_operations" ["operation_id", "principal_id", "workspace_id", "action",
      "target_instance_id", "request_hash", "idempotency_key", "plan_id", "status", "phase", "created_at",
      "updated_at", "worker_identity", "lease_until", "build_token", "result_json", "error_json"],
    createIndex "idx_agent_operations_plan" "agent_operations" ["plan_id"]],
  [addColumn "instances" "revision", addColumn "agent_plans" "risks_json",
    addColumn "agent_plans" "required_capabilities_json"],
  [addColumn "agent_operations" "payload_json",
    createIndex "idx_agent_operations_status" "agent_operations" ["status"]],
  [addColumn "instances" "last_operation_json"],
  [addColumn "builds" "image_ref", addColumn "builds" "image_id", addColumn "builds" "source_hash",
    addColumn "builds" "config_snapshot"],
  [addColumn "events" "source"]]

/-- `_SCHEMAS[version]`. -/
def script (version : ℕ) : List Statement := _SCHEMAS.getD (version - 1) []

/-- `max(_SCHEMAS)`. -/
def target : ℕ := _SCHEMAS.length

/-- The schema of a version. -/
abbrev schemaOf : ℕ → Option Schema := schemaAt Statement.apply script Schema.empty

/-! ## What the statements do -/

variable {s t : Schema} {stmt : Statement} {name table column : String}

theorem hasTable_upsert (columns : List String) :
    ({ s with tables := s.tables.upsert table columns id } : Schema).hasTable name =
      (decide (name = table) || s.hasTable name) := by
  by_cases here : name = table
  · simp [Schema.hasTable, Table.lookup_upsert, here]
  · simp [Schema.hasTable, Table.lookup_upsert, here]

theorem hasTable_update (change : List String → List String) :
    ({ s with tables := s.tables.update table change } : Schema).hasTable name = s.hasTable name := by
  simp [Schema.hasTable]

theorem hasIndex_upsert (i : Index) :
    ({ s with indexes := s.indexes.upsert table i id } : Schema).hasIndex name =
      (decide (name = table) || s.hasIndex name) := by
  by_cases here : name = table
  · simp [Schema.hasIndex, Table.lookup_upsert, here]
  · simp [Schema.hasIndex, Table.lookup_upsert, here]

/-- What a statement that is not refused does. -/
theorem apply_cases (taken : stmt.apply s = some t) :
    t = s ∨
    (∃ table columns, stmt = .createTable table columns ∧ s.hasTable table = false ∧ s.hasIndex table = false ∧
      t = { s with tables := s.tables.upsert table columns id }) ∨
    (∃ index table columns, stmt = .createIndex index table columns ∧ s.hasTable table = true ∧
      s.hasTable index = false ∧ t = { s with indexes := s.indexes.upsert index ⟨table, columns⟩ id }) ∨
    (∃ table column, stmt = .addColumn table column ∧ s.hasTable table = true ∧
      t = { s with tables := s.tables.update table (· ++ [column]) }) := by
  cases stmt with
  | createTable table columns =>
    simp only [Statement.apply] at taken
    split_ifs at taken with there clash
    · exact .inl (Option.some.inj taken).symm
    · exact .inr (.inl ⟨table, columns, rfl, by simpa using there, by simpa using clash,
        (Option.some.inj taken).symm⟩)
  | createIndex index table columns =>
    simp only [Statement.apply] at taken
    split_ifs at taken with missing clash there covered
    · exact .inl (Option.some.inj taken).symm
    · exact .inr (.inr (.inl ⟨index, table, columns, rfl, by simpa using missing, by simpa using clash,
        (Option.some.inj taken).symm⟩))
  | addColumn table column =>
    simp only [Statement.apply] at taken
    split_ifs at taken with missing there
    exact .inr (.inr (.inr ⟨table, column, rfl, by simpa using missing, (Option.some.inj taken).symm⟩))

theorem hasColumn_iff :
    s.hasColumn table column = true ↔ ∃ columns, s.tables.lookup table = some columns ∧ column ∈ columns := by
  cases found : s.tables.lookup table with
  | none => simp [Schema.hasColumn, found]
  | some columns => simp [Schema.hasColumn, found]

/-- No statement removes a table, an index or a column. -/
theorem apply_grows (taken : stmt.apply s = some t) :
    (∀ name, s.hasTable name = true → t.hasTable name = true) ∧
    (∀ name, s.hasIndex name = true → t.hasIndex name = true) ∧
    ∀ table column, s.hasColumn table column = true → t.hasColumn table column = true := by
  obtain rfl | ⟨table, columns, -, missing, -, rfl⟩ | ⟨index, table, columns, -, -, -, rfl⟩ |
      ⟨table, column, -, -, rfl⟩ := apply_cases taken
  · exact ⟨fun _ h => h, fun _ h => h, fun _ _ h => h⟩
  · refine ⟨fun name there => ?_, fun _ h => h, fun name column there => ?_⟩
    · rw [hasTable_upsert, there, Bool.or_true]
    · obtain ⟨known, found, among⟩ := hasColumn_iff.mp there
      have other : name ≠ table := by
        rintro rfl
        simp [Schema.hasTable, found] at missing
      refine hasColumn_iff.mpr ⟨known, ?_, among⟩
      rw [Table.lookup_upsert, if_neg other]
      exact found
  · refine ⟨fun _ h => h, fun name there => ?_, fun _ _ h => h⟩
    rw [hasIndex_upsert, there, Bool.or_true]
  · refine ⟨fun name there => ?_, fun _ h => h, fun name column' there => ?_⟩
    · rw [hasTable_update]
      exact there
    · obtain ⟨known, found, among⟩ := hasColumn_iff.mp there
      refine hasColumn_iff.mpr ⟨if name = table then known ++ [column] else known, ?_, ?_⟩
      · rw [Table.lookup_update, found, Option.map_some]
      · split_ifs
        · exact List.mem_append_left _ among
        · exact among

/-- No statement gives a table the name of an index. -/
theorem apply_keeps_index (taken : stmt.apply s = some t) (indexed : s.hasIndex name = true)
    (free : s.hasTable name = false) : t.hasTable name = false := by
  obtain rfl | ⟨table, columns, -, -, clash, rfl⟩ | ⟨index, table, columns, -, -, -, rfl⟩ |
      ⟨table, column, -, -, rfl⟩ := apply_cases taken
  · exact free
  · rw [hasTable_upsert, free, Bool.or_false, decide_eq_false_iff_not]
    rintro rfl
    exact Bool.false_ne_true (clash.symm.trans indexed)
  · exact free
  · rw [hasTable_update]
    exact free

theorem leaves_present (taken : stmt.apply s = some t) : stmt.Present t := by
  cases stmt with
  | createTable table columns =>
    simp only [Statement.apply] at taken
    split_ifs at taken with there
    · cases taken
      exact there
    · cases taken
      change ({ s with tables := s.tables.upsert table columns id } : Schema).hasTable table = true
      simp [hasTable_upsert]
  | createIndex index table columns =>
    simp only [Statement.apply] at taken
    split_ifs at taken with missing clash there covered
    · cases taken
      exact ⟨by simpa using missing, by simpa using clash, there⟩
    · cases taken
      have known : s.hasTable table = true := by simpa using missing
      have free : s.hasTable index = false := by simpa using clash
      exact ⟨known, free, by simp [hasIndex_upsert]⟩
  | addColumn table column =>
    simp only [Statement.apply] at taken
    split_ifs at taken with missing there
    cases taken
    have known : s.hasTable table = true := by simpa using missing
    obtain ⟨columns, found⟩ : ∃ columns, s.tables.lookup table = some columns := Option.isSome_iff_exists.mp known
    refine hasColumn_iff.mpr ⟨columns ++ [column], ?_, ?_⟩
    · rw [Table.lookup_update, found, Option.map_some, if_pos rfl]
    · exact List.mem_append_right columns List.mem_cons_self

theorem stays_present {other : Statement} (there : stmt.Present s) (taken : other.apply s = some t) :
    stmt.Present t := by
  obtain ⟨tables, indexes, columns⟩ := apply_grows taken
  cases stmt with
  | createTable table _ => exact tables table there
  | createIndex index table _ =>
    obtain ⟨known, free, indexed⟩ := there
    exact ⟨tables table known, apply_keeps_index taken indexed free, indexes index indexed⟩
  | addColumn table column => exact columns table column there

theorem lasting : Lasting Statement.apply Statement.Present := ⟨leaves_present, stays_present⟩

/-- A statement with `IF NOT EXISTS` does nothing where its object is there already. -/
theorem guarded_of_ifNotExists (conditional : stmt.ifNotExists = true) :
    Guarded Statement.apply Statement.Present stmt := by
  intro s there
  cases stmt with
  | createTable table columns => exact if_pos there
  | createIndex index table columns =>
    obtain ⟨known, free, indexed⟩ := there
    simp only [Statement.apply, known, free, indexed, Bool.true_eq_false, Bool.false_eq_true, if_false, if_true]
  | addColumn table column => cases conditional

/-! ## The scripts -/

theorem guarded_first : ∀ stmt ∈ script 1, Guarded Statement.apply Statement.Present stmt := by
  intro stmt among
  refine guarded_of_ifNotExists ?_
  have all : (script 1).all Statement.ifNotExists = true := by decide
  exact List.all_eq_true.mp all stmt among

/-- Every version up to the target is reached from an empty database. -/
theorem schemaOf_isSome {version : ℕ} (known : version ≤ target) : (schemaOf version).isSome = true := by
  have last : (schemaOf target).isSome = true := by decide
  induction known using Nat.decreasingInduction with
  | self => exact last
  | of_succ n below ih => exact Option.isSome_of_isSome_bind ih

theorem first_complete : (runAll Statement.apply (script 1) Schema.empty).isSome = true := by
  rw [← schemaAt_one]
  exact schemaOf_isSome (by decide)

theorem script_complete {version : ℕ} (known : version + 1 ≤ target) (reached : schemaOf version = some s) :
    ∃ t, runAll Statement.apply (script (version + 1)) s = some t ∧ schemaOf (version + 1) = some t := by
  obtain ⟨t, whole⟩ := Option.isSome_iff_exists.mp (schemaOf_isSome known)
  have next : (schemaOf version).bind (runAll Statement.apply (script (version + 1))) = some t := whole
  rw [reached] at next
  exact ⟨t, next, whole⟩

end LocalWebAccess.RegistrySchemas
