import LocalWebAccess.GuardedRuns
import Mathlib.Data.List.Basic
import Mathlib.Data.Nat.Notation

/-!
# The writers of local-web.yml

`write_build_proxy` edits the text under a lock and renames a new file into place;
`migrate_config_defaults` and `switch_gateway` truncate the file and write it again, the one from
the text it has read, the other from the `Config` that its process has loaded earlier, or from its
snapshot when it rolls back. Readers take no lock.

A text is the list of its top-level sections. The value of a section is what `Config` makes of it,
so that filling in nested defaults does not change it.
-/
namespace LocalWebAccess.ConfigFile
open GuardedRuns

abbrev Key := String
abbrev Value := String
abbrev Text := List (Key × Value)
abbrev Config := Key → Value
abbrev FileId := ℕ
abbrev OpId := ℕ
abbrev LoadId := ℕ
abbrev ProcId := ℕ

def buildProxyKey : Key := "buildProxy"

def staticGatewayKey : Key := "staticGateway"

/-- The top-level fields of the model, with their defaults. -/
structure Schema where
  fields : List Key
  default : Key → Value

/-! ## Texts -/

/-- The value of a section; the last one of several counts. -/
def valueOn (text : Text) (key : Key) : Option Value := ((text.filter (·.1 = key)).map Prod.snd).getLast?

section
variable (schema : Schema)

/-- What `load_config` makes of a text. -/
def meaning (text : Text) : Config := fun key => (valueOn text key).getD (schema.default key)

/-- `_replace_block`: the first section of the proxy is replaced, or a new one is appended. -/
def replaceBlock (value : Value) : Text → Text
  | [] => [(buildProxyKey, value)]
  | entry :: text => if entry.1 = buildProxyKey then
      (buildProxyKey, value) :: text else entry :: replaceBlock value text

/-- `Config.to_yaml` after the backend is set. -/
def dump (config : Config) (backend : Value) : Text :=
  schema.fields.map fun key => (key, if key = staticGatewayKey then backend else config key)

/-- The fields that a text lacks. -/
def missing (text : Text) : List Key := schema.fields.filter fun key => key ∉ text.map Prod.fst

def addMissing (text : Text) : Text := text ++ (missing schema text).map fun key => (key, schema.default key)

end

/-! ## The operations -/

inductive Kind
  /-- `write_build_proxy` -/
  | proxy (value : Value)
  /-- `switch_gateway` with the `Config` that its caller holds -/
  | switch (backend : Value) (config : Config)
  /-- `migrate_config_defaults` -/
  | migrate

/-- The key that an operation sets; a migration only adds what is missing. -/
def Kind.key : Kind → Option Key
  | proxy _ => some buildProxyKey
  | switch _ _ => some staticGatewayKey
  | migrate => none

/-- Where an operation stands. From `writing` on its file is truncated. -/
inductive Pc
  | starting
  | locked
  | ready (text : Text)
  | writing (file : FileId) (text : Text)
  | written
  | restoring (text : Text)
  | done (after : Text)

/-- `before` is the text of the file when the operation began, and `given` are the values that
other operations have set which completed since. -/
structure Op where
  kind : Kind
  before : Text
  given : List (Key × Option Value)
  snapshot : Option Text
  failed : Bool
  pc : Pc

/-- `text` is the last complete text of the file and `texts` are all it has had. -/
structure State where
  current : Option FileId
  contents : FileId → Text
  fresh : FileId
  text : Text
  texts : List Text
  lock : Option OpId
  ops : OpId → Option Op
  loads : LoadId → Option (ProcId × Option FileId)
  memory : ProcId → Option Config

/-- A workspace whose file holds a text, or has none. -/
def State.initial (text : Option Text) : State where
  current := text.map fun _ => 0
  contents := fun _ => text.getD []
  fresh := 1
  text := text.getD []
  texts := [text.getD []]
  lock := none
  ops := fun _ => none
  loads := fun _ => none
  memory := fun _ => none

namespace State

/-- What reading the path yields. -/
def read (s : State) : Option Text := s.current.map s.contents

def setPc (s : State) (o : OpId) (op : Op) (pc : Pc) : State :=
  { s with ops := fun p => if p = o then some { op with pc := pc } else s.ops p }

def drop (s : State) (o : OpId) : State := { s with ops := fun p => if p = o then none else s.ops p }

def release (s : State) (o : OpId) : State := { s with lock := if s.lock = some o then none else s.lock }

/-- A file that is not there yet takes the place of the current one. -/
def install (s : State) (text : Text) : State :=
  { s with
    current := some s.fresh
    contents := fun f => if f = s.fresh then text else s.contents f
    fresh := s.fresh + 1
    text := text
    texts := text :: s.texts }

def setContents (s : State) (file : FileId) (text : Text) : State :=
  { s with contents := fun f => if f = file then text else s.contents f }

/-- The file that is truncated, or created. -/
def opened (s : State) : FileId := s.current.getD s.fresh

def truncate (s : State) : State :=
  { s.setContents s.opened [] with current := some s.opened, fresh := max s.fresh (s.opened + 1) }

/-- The whole text has been written: the file has it, unless another file has taken its place. -/
def finish (s : State) (file : FileId) (text : Text) : State :=
  if s.current = some file then { s.setContents file text with text := text, texts := text :: s.texts }
  else s.setContents file text

/-- An operation completes: the others in progress are given what it has set. -/
def complete (s : State) (o : OpId) (op : Op) : State :=
  { s with
    ops := fun p =>
      if p = o then some { op with pc := .done s.text }
      else (s.ops p).map fun other =>
        { other with given := (op.kind.key.toList.map fun key => (key, valueOn s.text key)) ++ other.given } }

end State

inductive Request
  | proxy (value : Value)
  | switch (p : ProcId) (backend : Value)
  | migrate

inductive Action
  | begin (o : OpId) (request : Request)
  | acquire (o : OpId)
  | read (o : OpId)
  | write (o : OpId)
  /-- A part of the text reaches the file: its first sections, and a section that may be cut. -/
  | flush (o : OpId) (sections : ℕ) (cut : Option (Key × Value))
  | finish (o : OpId)
  | fail (o : OpId)
  | complete (o : OpId)
  | abort (o : OpId)
  | edit (text : Text)
  | openLoad (l : LoadId) (p : ProcId)
  | readLoad (l : LoadId)

def Request.kind (s : State) : Request → Option Kind
  | proxy value => some (.proxy value)
  | switch p backend => (s.memory p).map fun config => .switch backend config
  | migrate => some .migrate

section
variable (schema : Schema)

/-- An operation reads the file and prepares the text that it is going to write. -/
def readStep (s : State) (o : OpId) (op : Op) : Option State :=
  match op.kind, op.pc with
  | .proxy value, .locked =>
    let text := replaceBlock value (s.read.getD [])
    if valueOn text buildProxyKey = some value then some (s.setPc o op (.ready text)) else some ((s.release o).drop o)
  | .migrate, .starting =>
    match s.read with
    | none => some (s.drop o)
    | some text => if missing schema text = [] then some (s.drop o) else some
        (s.setPc o op (.ready (addMissing schema text)))
  | .switch backend config, .starting =>
    some (s.setPc o { op with snapshot := s.read } (.ready (dump schema config backend)))
  | _, _ => none

/-- The rename, or the truncation. -/
def writeStep (s : State) (o : OpId) (op : Op) : Option State :=
  match op.pc with
  | .ready text | .restoring text =>
    match op.kind with
    | .proxy _ => some ((s.install text).setPc o op .written)
    | _ => some (s.truncate.setPc o op (.writing s.opened text))
  | _ => none

/-- A switch fails before or after its write and begins to roll back. -/
def failStep (s : State) (o : OpId) (op : Op) : Option State :=
  match op.kind, op.pc, op.failed, op.snapshot with
  | .switch _ _, .ready _, false, some text => some (s.setPc o { op with failed := true } (.ready text))
  | .switch _ _, .ready _, false, none => some (s.drop o)
  | .switch _ _, .written, false, some text => some (s.setPc o { op with failed := true } (.restoring text))
  | _, _, _, _ => none

def step (s : State) : Action → Option State
  | .begin o request =>
    match s.ops o, request.kind s with
    | none, some kind => some (s.setPc o ⟨kind, s.text, [], none, false, .starting⟩ .starting)
    | _, _ => none
  | .acquire o => (s.ops o).bind fun op =>
    match op.kind, op.pc with
    | .proxy _, .starting => if s.lock = none then some ({ s with lock := some o }.setPc o op .locked) else none
    | _, _ => none
  | .read o => (s.ops o).bind fun op => readStep schema s o op
  | .write o => (s.ops o).bind fun op => writeStep s o op
  | .flush o sections cut => (s.ops o).bind fun op =>
    match op.pc with
    | .writing file text => some (s.setContents file (text.take sections ++ cut.toList))
    | _ => none
  | .finish o => (s.ops o).bind fun op =>
    match op.pc with
    | .writing file text => some ((s.finish file text).setPc o op .written)
    | _ => none
  | .fail o => (s.ops o).bind fun op => failStep s o op
  | .complete o => (s.ops o).bind fun op =>
    match op.pc with
    | .written => some ((s.release o).complete o op)
    | _ => none
  | .abort o => (s.ops o).bind fun op =>
    match op.kind, op.pc with
    | .switch _ _, _ => none
    | _, .starting | _, .locked | _, .ready _ => some ((s.release o).drop o)
    | _, _ => none
  | .edit text => some (s.install text)
  | .openLoad l p =>
    match s.loads l with
    | none => some { s with loads := fun m => if m = l then some (p, s.current) else s.loads m }
    | some _ => none
  | .readLoad l => (s.loads l).map fun (p, file) =>
    { s with
      loads := fun m => if m = l then none else s.loads m
      memory := fun q => if q = p then some (meaning schema ((file.map s.contents).getD [])) else s.memory q }

end

/-! ## What the file must not lose -/

/-- The file is being written in place. -/
def Torn (s : State) (file : FileId) : Prop := ∃ o op text, s.ops o = some op ∧ op.pc = .writing file text

/-- Between its first write and its end. -/
def Pc.active : Pc → Bool
  | writing _ _ | written | restoring _ => true
  | _ => false

/-- A key keeps its value, or it has none and is given its default. -/
def KeepsValue (schema : Schema) (key : Key) (old new : Option Value) : Prop :=
  new = old ∨ old = none ∧ new = some (schema.default key)

/-- A key has in a text the value it had when an operation began, or one that another operation
has set which completed since. -/
def Kept (schema : Schema) (op : Op) (text : Text) (key : Key) : Prop :=
  ∃ value, (value = valueOn op.before key ∨ (key, value) ∈ op.given) ∧ KeepsValue schema key value (valueOn text key)

structure Faithful (schema : Schema) (s : State) : Prop where
  /-- What a process has loaded is the meaning of a complete text. -/
  loads : ∀ p config, s.memory p = some config → ∃ text ∈ s.texts, config = meaning schema text
  /-- An operation that has completed has kept the keys that it does not set. -/
  keeps : ∀ o op after, s.ops o = some op → op.pc = .done after → ∀ key, op.kind.key ≠ some key →
    Kept schema op after key

/-- Manual edits are made while no operation goes on. -/
def EditsBetween (s : State) : Action → Prop
  | .edit _ => ∀ o op, s.ops o = some op → ∃ after, op.pc = .done after
  | _ => True

/-- Nobody reads a file that is being written in place. An operation writes only while no other one
is between its first write and its end, and what it writes has for the keys that it does not set
the values of the file. -/
def Guard (schema : Schema) (s : State) : Action → Prop
  | .read _ => ∀ file, s.current = some file → ¬ Torn s file
  | .readLoad l => ∀ p file, s.loads l = some (p, some file) → ¬ Torn s file
  | .write o => ∀ op text, s.ops o = some op → op.pc = .ready text ∨ op.pc = .restoring text →
      (∀ p other, p ≠ o → s.ops p = some other → other.pc.active = false) ∧
      ∀ key, op.kind.key ≠ some key → KeepsValue schema key (valueOn s.text key) (valueOn text key)
  | _ => True

/-! ## What the prepared texts keep -/

variable {schema : Schema} {text : Text} {key : Key}

theorem valueOn_cons (entry : Key × Value) (text : Text) (key : Key) :
    valueOn (entry :: text) key = (valueOn text key).or (if entry.1 = key then some entry.2 else none) := by
  unfold valueOn
  by_cases here : entry.1 = key
  · rw [List.filter_cons_of_pos (by simp [here]), List.map_cons, List.getLast?_cons, if_pos here]
    generalize ((text.filter (·.1 = key)).map Prod.snd).getLast? = later
    cases later <;> rfl
  · rw [List.filter_cons_of_neg (by simp [here]), if_neg here, Option.or_none]

theorem valueOn_append (text more : Text) (key : Key) : valueOn (text ++ more) key =
    (valueOn more key).or (valueOn text key) := by
  induction text with
  | nil => simp [valueOn]
  | cons entry text ih => rw [List.cons_append, valueOn_cons, ih, valueOn_cons, Option.or_assoc]

theorem valueOn_map_of_not_mem (keys : List Key) (f : Key → Value) (absent : key ∉ keys) :
    valueOn (keys.map fun k => (k, f k)) key = none := by
  induction keys with
  | nil => rfl
  | cons k keys ih =>
    rw [List.mem_cons, not_or] at absent
    rw [List.map_cons, valueOn_cons, ih absent.2, if_neg (Ne.symm absent.1)]
    rfl

theorem valueOn_map_of_mem (keys : List Key) (f : Key → Value) (mem : key ∈ keys) :
    valueOn (keys.map fun k => (k, f k)) key = some (f key) := by
  induction keys with
  | nil => cases mem
  | cons k keys ih =>
    rw [List.map_cons, valueOn_cons]
    by_cases later : key ∈ keys
    · rw [ih later]
      rfl
    · obtain rfl : key = k := (List.mem_cons.mp mem).resolve_right later
      rw [valueOn_map_of_not_mem keys f later, if_pos rfl]
      rfl

theorem valueOn_of_not_mem (absent : key ∉ text.map Prod.fst) : valueOn text key = none := by
  induction text with
  | nil => rfl
  | cons entry text ih =>
    rw [List.map_cons, List.mem_cons, not_or] at absent
    rw [valueOn_cons, ih absent.2, if_neg (Ne.symm absent.1)]
    rfl

/-- A migration only adds defaults. -/
theorem addMissing_keeps : KeepsValue schema key (valueOn text key) (valueOn (addMissing schema text) key) := by
  unfold addMissing
  rw [valueOn_append]
  by_cases lacks : key ∈ missing schema text
  · have absent : key ∉ text.map Prod.fst := by simpa using (List.mem_filter.mp lacks).2
    rw [valueOn_map_of_mem _ _ lacks]
    exact .inr ⟨valueOn_of_not_mem absent, rfl⟩
  · rw [valueOn_map_of_not_mem _ _ lacks]
    exact .inl rfl

/-- A `Config` that means the text dumps into a text that keeps it, where every key is a field. -/
theorem dump_keeps (known : ∀ k ∈ text.map Prod.fst, k ∈ schema.fields) (backend : Value)
    (other : key ≠ staticGatewayKey) :
    KeepsValue schema key (valueOn text key) (valueOn (dump schema (meaning schema text) backend) key) := by
  unfold dump
  by_cases field : key ∈ schema.fields
  · rw [valueOn_map_of_mem _ _ field, if_neg other, meaning]
    rcases valueOn text key with _ | value
    · exact .inr ⟨rfl, rfl⟩
    · exact .inl rfl
  · have absent : key ∉ text.map Prod.fst := fun mem => field (known key mem)
    rw [valueOn_map_of_not_mem _ _ field, valueOn_of_not_mem absent]
    exact .inl rfl

end LocalWebAccess.ConfigFile
