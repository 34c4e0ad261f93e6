import LocalWebAccess.GuardedRuns
import Mathlib.Data.Nat.Notation

/-!
# Edits of the manifest

Every operation that changes `local-web.json` loads the whole document, sets some
fields and saves the whole document again. The operations are scripts of loads,
saves and lock steps, run by any number of processes. Two operations hold
`instance_lock` from a load to a save of what they have loaded; an update saves
in a second lock section what it has loaded in a first one, and the write-backs
and refreshes hold no lock at all.
-/
namespace LocalWebAccess.ManifestEdits
open GuardedRuns

inductive Instr where
  | acquire
  | load
  | save
  | release
  deriving DecidableEq, Repr

inductive Operation where
  | stopInstance
  | updateInstanceSettings
  | rebuildInstance
  | setPathAlias
  | updateZip
  | updateFromDir
  | importFromDir
  | refreshNetworkEntries
  deriving DecidableEq, Repr

open Instr in
/-- The scripts of an operation, by the way it takes. Saves that a run leaves out are steps of
their own. -/
def Operation.scripts : Operation → List (List Instr)
  | stopInstance => [[acquire, load, save, release]]
  | updateInstanceSettings => [[acquire, load, save, release]]
  | setPathAlias => [[acquire, load, save, save, release]]
  | rebuildInstance =>
    -- `host_container` loads the manifest again; a desired alias is looked at behind the lock
    let locked := [acquire, load, save, save, load, save, save, save, save, save, release]
    [locked ++ [load], locked ++ [load, save], locked ++ [load, load]]
  | updateZip =>
    -- unchanged, dry run, and the swap with the manifest of the first section
    [[load, acquire, load, release], [load, acquire, load, release, acquire, save, release]]
  | updateFromDir =>
    [[load], [load, acquire, load, release], [load, acquire, load, release, load, save],
      [load, acquire, load, release, acquire, save, release, load, save]]
  | importFromDir => [[load, save]]
  | refreshNetworkEntries => [[load], [load, save]]

variable {Field Value : Type}

abbrev Doc (Field Value : Type) := Field → Value

/-- The fields that a save sets, with their values. -/
abbrev Change (Field Value : Type) := Field → Option Value

def Change.apply (change : Change Field Value) (doc : Doc Field Value) : Doc Field Value :=
  fun field => (change field).getD (doc field)

/-- The changes of all saves in their order, the last one first. -/
def replay (initial : Doc Field Value) (commits : List (Change Field Value)) : Doc Field Value :=
  commits.foldr Change.apply initial

/-- An operation that is under way. -/
structure Proc (Field Value : Type) where
  script : List Instr
  writes : Field → Bool
  memory : Option (Doc Field Value)
  /-- It holds the lock since its last load. -/
  sheltered : Bool

structure State (Field Value : Type) where
  initial : Doc Field Value
  doc : Doc Field Value
  commits : List (Change Field Value)
  lock : Option ℕ
  procs : ℕ → Option (Proc Field Value)

inductive Action (Field Value : Type) where
  | call (p : ℕ) (operation : Operation) (script : List Instr) (writes : Field → Bool)
  | act (p : ℕ) (values : Doc Field Value)
  | skip (p : ℕ)
  | abort (p : ℕ)

def start (doc : Doc Field Value) : State Field Value where
  initial := doc
  doc := doc
  commits := []
  lock := none
  procs := fun _ => none

def changeOf (writes : Field → Bool) (values : Doc Field Value) : Change Field Value :=
  fun field => if writes field then some (values field) else none

namespace State

def setProc (s : State Field Value) (p : ℕ) (proc : Proc Field Value) : State Field Value :=
  { s with procs := Function.update s.procs p (some proc) }

def endProc (s : State Field Value) (p : ℕ) : State Field Value :=
  { s with procs := Function.update s.procs p none, lock := s.lock.filter (· ≠ p) }

/-- `manifest.save` of the document in memory, with the values that the operation sets. -/
def save (s : State Field Value) (p : ℕ) (proc : Proc Field Value) (rest : List Instr)
    (memory values : Doc Field Value) : State Field Value :=
  let change := changeOf proc.writes values
  { s.setProc p { proc with script := rest, memory := some (change.apply memory) } with
    doc := change.apply memory
    commits := change :: s.commits }

end State

/-- The next instruction of an operation. -/
def act (s : State Field Value) (p : ℕ) (proc : Proc Field Value) (values : Doc Field Value) :
    Option (State Field Value) :=
  match proc.script with
  | [] => some (s.endProc p)
  | .acquire :: rest =>
    if s.lock = none then some { s.setProc p { proc with script := rest } with lock := some p } else none
  | .load :: rest =>
    some (s.setProc p { proc with
      script := rest, memory := some s.doc, sheltered := s.lock = some p })
  | .save :: rest => proc.memory.map (fun memory => s.save p proc rest memory values)
  | .release :: rest =>
    if s.lock = some p then
      some { s.setProc p { proc with script := rest, sheltered := false } with lock := none }
    else none

def step (s : State Field Value) : Action Field Value → Option (State Field Value)
  | .call p operation script writes =>
    if (s.procs p).isNone ∧ script ∈ operation.scripts then some (s.setProc p ⟨script, writes, none, false⟩)
    else none
  | .act p values => (s.procs p).bind (fun proc => act s p proc values)
  | .skip p =>
    match s.procs p with
    | some proc =>
      match proc.script with
      | .save :: rest => some (s.setProc p { proc with script := rest })
      | _ => none
    | none => none
  | .abort p => some (s.endProc p)

/-- The document in memory is saved before another one is loaded. -/
def savesNext : List Instr → Bool
  | [] => false
  | .load :: _ => false
  | .save :: _ => true
  | _ :: rest => savesNext rest

/-- An operation between a load and a save of what it has loaded. -/
def Proc.midway (proc : Proc Field Value) : Bool := proc.memory.isSome && savesNext proc.script

/-- A save takes place between the load and the save of another operation only if both hold the
lock since they have loaded. -/
def Separate (s : State Field Value) : Action Field Value → Prop
  | .act p _ => ∀ proc, s.procs p = some proc → proc.script.head? = some .save →
      ∀ q proc', q ≠ p → s.procs q = some proc' → proc'.midway → proc.sheltered ∧ proc'.sheltered
  | _ => True

/-- The manifest is the result of all changes in the order in which they were saved. -/
def Kept (s : State Field Value) : Prop := s.doc = replay s.initial s.commits

/-! ## The invariant -/

structure ProcInv (s : State Field Value) (p : ℕ) (proc : Proc Field Value) : Prop where
  holder : proc.sheltered → s.lock = some p
  fresh : savesNext proc.script → ∀ {memory}, proc.memory = some memory → memory = s.doc

structure Inv (s : State Field Value) : Prop where
  kept : Kept s
  procs : ∀ {p proc}, s.procs p = some proc → ProcInv s p proc

theorem start_inv (doc : Doc Field Value) : Inv (start doc) := ⟨rfl, nofun⟩

section steps

variable {s t : State Field Value} {p : ℕ} {proc : Proc Field Value}

/-- A step that leaves the document and the locks of the others keeps the invariant if it keeps
that of its own operation. -/
theorem Inv.frame (h : Inv s) (doc : t.doc = s.doc) (initial : t.initial = s.initial)
    (commits : t.commits = s.commits) (others : ∀ q, q ≠ p → t.procs q = s.procs q)
    (lock : ∀ q, q ≠ p → s.lock = some q → t.lock = some q)
    (own : ∀ {proc}, t.procs p = some proc → ProcInv t p proc) : Inv t where
  kept := by
    rw [Kept, doc, initial, commits]
    exact h.kept
  procs := by
    intro q proc found
    by_cases same : q = p
    · subst same
      exact own found
    · rw [others q same] at found
      have before := h.procs found
      refine ⟨fun sheltered => lock q same (before.holder sheltered), fun saves => ?_⟩
      rw [doc]
      exact before.fresh saves

/-- The operation goes on to a later part of its script. -/
theorem advance_inv {proc' : Proc Field Value} (h : Inv s) (lock : Option ℕ)
    (others : ∀ q, q ≠ p → s.lock = some q → lock = some q)
    (holder : proc'.sheltered → lock = some p)
    (fresh : savesNext proc'.script → ∀ {memory}, proc'.memory = some memory → memory = s.doc) :
    Inv { s.setProc p proc' with lock := lock } := by
  refine h.frame (p := p) rfl rfl rfl (fun q other => Function.update_of_ne other _ _) others
    (fun {proc} found => ?_)
  obtain rfl : proc' = proc := by simpa [State.setProc] using found
  exact ⟨holder, fresh⟩

theorem endProc_inv (h : Inv s) (p : ℕ) : Inv (s.endProc p) := by
  refine h.frame (p := p) rfl rfl rfl (fun q other => Function.update_of_ne other _ _)
    (fun q other held => by simp [State.endProc, held, other]) (fun found => ?_)
  simp [State.endProc] at found

/-- Nobody else is between a load and a save: the lock rules out the case that is allowed. -/
theorem save_inv (h : Inv s) (found : s.procs p = some proc) {rest : List Instr}
    (script : proc.script = .save :: rest) {memory : Doc Field Value} (loaded : proc.memory = some memory)
    (separate : ∀ q proc', q ≠ p → s.procs q = some proc' → proc'.midway → proc.sheltered ∧ proc'.sheltered)
    (values : Doc Field Value) : Inv (s.save p proc rest memory values) := by
  have own := h.procs found
  have current : memory = s.doc := own.fresh (by rw [script]; rfl) loaded
  have closed : ∀ q proc', q ≠ p → s.procs q = some proc' → proc'.midway = false := by
    intro q proc' other found'
    by_contra midway
    rw [Bool.not_eq_false] at midway
    obtain ⟨mine, theirs⟩ := separate q proc' other found' midway
    have held := own.holder mine
    rw [(h.procs found').holder theirs] at held
    exact other (Option.some.inj held)
  constructor
  · have before := h.kept
    unfold Kept at before ⊢
    simp only [State.save, replay, List.foldr_cons]
    rw [current, before]
    rfl
  · intro q proc' found'
    by_cases same : q = p
    · subst same
      obtain rfl : { proc with script := rest, memory := some ((changeOf proc.writes values).apply memory) } =
          proc' := by simpa [State.save, State.setProc] using found'
      refine ⟨own.holder, fun _ {memory'} loaded' => ?_⟩
      obtain rfl := Option.some.inj loaded'
      rfl
    · have before : s.procs q = some proc' := by simpa [State.save, State.setProc, same] using found'
      refine ⟨(h.procs before).holder, fun saves {memory'} loaded' => ?_⟩
      have shut := closed q proc' same before
      simp [Proc.midway, saves, loaded'] at shut

theorem act_inv (h : Inv s) (found : s.procs p = some proc) {values : Doc Field Value}
    (separate : Separate s (.act p values)) (taken : act s p proc values = some t) : Inv t := by
  have own := h.procs found
  unfold act at taken
  split at taken
  · obtain rfl := Option.some.inj taken
    exact endProc_inv h p
  · rename_i rest script
    simp only [Option.ite_none_right_eq_some, Option.some.injEq] at taken
    obtain ⟨free, rfl⟩ := taken
    refine advance_inv h (some p) (fun q _ held => by simp [free] at held) (fun _ => rfl) (fun saves => ?_)
    exact own.fresh (by rw [script]; exact saves)
  · rename_i rest script
    obtain rfl := Option.some.inj taken
    refine advance_inv h s.lock (fun _ _ held => held) (fun sheltered => of_decide_eq_true sheltered)
      (fun _ {memory} loaded => ?_)
    exact (Option.some.inj loaded).symm
  · rename_i rest script
    obtain ⟨memory, loaded, rfl⟩ := Option.map_eq_some_iff.mp taken
    exact save_inv h found script loaded (separate proc found (by rw [script]; rfl)) values
  · rename_i rest script
    simp only [Option.ite_none_right_eq_some, Option.some.injEq] at taken
    obtain ⟨held, rfl⟩ := taken
    refine advance_inv h none (fun q other held' => ?_) (fun sheltered => by simp at sheltered) (fun saves => ?_)
    · rw [held] at held'
      exact absurd (Option.some.inj held').symm other
    · exact own.fresh (by rw [script]; exact saves)

end steps

theorem step_inv {s t : State Field Value} {a : Action Field Value} (h : Inv s) (separate : Separate s a)
    (taken : step s a = some t) : Inv t := by
  cases a with
  | call p operation script writes =>
    simp only [step, Option.ite_none_right_eq_some, Option.some.injEq] at taken
    obtain ⟨-, rfl⟩ := taken
    exact advance_inv h s.lock (fun _ _ held => held) (fun sheltered => by simp at sheltered)
      (fun _ {memory} loaded => by simp at loaded)
  | act p values =>
    obtain ⟨proc, found, taken⟩ := Option.bind_eq_some_iff.mp taken
    exact act_inv h found separate taken
  | skip p =>
    cases found : s.procs p with
    | none => simp [step, found] at taken
    | some proc =>
      have own := h.procs found
      simp only [step, found] at taken
      split at taken
      · rename_i rest script
        obtain rfl := Option.some.inj taken
        refine advance_inv h s.lock (fun _ _ held => held) own.holder (fun _ => ?_)
        exact own.fresh (by rw [script]; rfl)
      · cases taken
  | abort p =>
    obtain rfl := Option.some.inj taken
    exact endProc_inv h p

end LocalWebAccess.ManifestEdits
