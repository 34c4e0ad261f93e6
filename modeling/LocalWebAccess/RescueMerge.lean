import LocalWebAccess.RaisingPrograms
import Mathlib.Data.List.Basic
import Mathlib.Data.Nat.Notation
import Mathlib.Logic.Function.Basic

/-!
# The rescue of a directory of a container

`_merge_tree_keep_host` copies the files of a container that the host does not have, and
those that the host has as its sources had them. Everything is prepared in
`.lwa-rescue-pending`, committed by renames and rolled back where a step fails.

The trees have regular files and directories only. Directories that the merge creates
are not recorded, and a directory that cannot be created is a fault of its step.
-/
namespace LocalWebAccess.RescueMerge
open RaisingPrograms Prog

abbrev Bytes := List UInt8
abbrev Name := List Char

/-- A path below the directory. -/
structure Rel where
  dir : List Name
  name : Name
  deriving DecidableEq, Repr

inductive Node where
  | file (content : Bytes)
  | dir
  deriving DecidableEq, Repr

abbrev Tree := Rel → Option Node

def sidecars : List Name := [['-', 'w', 'a', 'l'], ['-', 's', 'h', 'm'], ['-', 'j', 'o', 'u', 'r', 'n', 'a', 'l']]

def transactionName : Name :=
  ['.', 'l', 'w', 'a', '-', 'r', 'e', 's', 'c', 'u', 'e', '-', 'p', 'e', 'n', 'd', 'i', 'n', 'g']

namespace Rel

def parts (rel : Rel) : List Name := rel.dir ++ [rel.name]

def sidecar (base : Rel) (suffix : Name) : Rel := ⟨base.dir, base.name ++ suffix⟩

def base (rel : Rel) (suffix : Name) : Rel := ⟨rel.dir, rel.name.take (rel.name.length - suffix.length)⟩

/-- A database and the sidecars that belong to it. -/
def family (base : Rel) : List Rel := base :: sidecars.map base.sidecar

end Rel

/-- The regular files of the staged tree, in the order in which they are enumerated. -/
structure Staged where
  files : List (Rel × Bytes)
  nodup : (files.map Prod.fst).Nodup

namespace Staged

def paths (staged : Staged) : List Rel := staged.files.map Prod.fst

end Staged

section decision

variable (host : Tree) (staged : Staged) (seed : Option Tree)

/-- The host has the file as the seed has it, and no sidecar of it. -/
def replaceable (rel : Rel) : Bool :=
  staged.paths.contains rel &&
    match seed, host rel with
    | some seed, some (.file content) =>
      decide (seed rel = some (.file content)) && sidecars.all (fun suffix => (host (rel.sidecar suffix)).isNone)
    | _, _ => false

/-- The main file stays that of the host. -/
def blocked (rel : Rel) : Bool :=
  sidecars.any (fun suffix => suffix.isSuffixOf rel.name && (host (rel.base suffix)).isSome &&
    !replaceable host staged seed (rel.base suffix))

def taken (rel : Rel) : Bool :=
  !blocked host staged seed rel && ((host rel).isNone || replaceable host staged seed rel)

def pending : List (Rel × Bytes) := staged.files.filter (fun file => taken host staged seed file.1)

def conflicts : List Rel := staged.paths.filter (fun rel => !taken host staged seed rel)

end decision

inductive Exn where
  | dockerError
  | osError
  | valueError
  | interrupted
  deriving DecidableEq, Repr

/-- How a step of the file system goes; an interrupt may come before or after its effect. -/
inductive Fault where
  | none
  | error
  | interrupt (done : Bool)
  deriving DecidableEq, Repr

/-- How `shutil.rmtree(transaction)` goes: it may stop with some of the backups removed, or be interrupted
when everything is gone. -/
inductive Cleanup where
  | finished
  | stopped (removed : Rel → Bool)
  | interruptedAfter

structure Env where
  mkdir : Fault
  prepare : Rel → Fault
  parent : Rel → Fault
  backUp : Rel → Fault
  replace : Rel → Fault
  restore : Rel → Fault
  cleanup : Cleanup

/-- The host directory; `transaction` says that `.lwa-rescue-pending` exists, `new` and `old` are in it.
`written` is the local variable of the call. -/
structure State where
  tree : Tree
  transaction : Bool
  new : Rel → Option Bytes
  old : Rel → Option Node
  written : List (Rel × Bool)

namespace State

def begin (s : State) : State :=
  { s with transaction := true, new := fun _ => none, old := fun _ => none, written := [] }

def prepared (s : State) (file : Rel × Bytes) : State := { s with new := Function.update s.new file.1 (some file.2) }

def registered (s : State) (rel : Rel) (backup : Bool) : State := { s with written := (rel, backup) :: s.written }

def backedUp (s : State) (rel : Rel) : State :=
  { s with tree := Function.update s.tree rel none, old := Function.update s.old rel (s.tree rel) }

def replaced (s : State) (rel : Rel) : State :=
  { s with
    tree := Function.update s.tree rel ((s.new rel).map Node.file)
    new := Function.update s.new rel none }

def unlinked (s : State) (rel : Rel) : State := { s with tree := Function.update s.tree rel none }

def restored (s : State) (rel : Rel) : State :=
  { s with tree := Function.update s.tree rel (s.old rel), old := Function.update s.old rel none }

def withoutTransaction (s : State) : State :=
  { s with transaction := false, new := fun _ => none, old := fun _ => none }

def partlyRemoved (s : State) (removed : Rel → Bool) : State :=
  { s with
    new := fun rel => if removed rel then none else s.new rel
    old := fun rel => if removed rel then none else s.old rel }

end State

def act (fault : Fault) (effect : State → State) : Prog Exn State Unit :=
  match fault with
  | .none => modify effect
  | .error => raise .osError
  | .interrupt false => raise .interrupted
  | .interrupt true => modify effect >>= fun _ => raise .interrupted

section program

variable (env : Env)

def prepareFile (file : Rel × Bytes) : Prog Exn State Unit := act (env.prepare file.1) (·.prepared file)

def backUpFile (rel : Rel) (backup : Bool) : Prog Exn State Unit :=
  if backup then act (env.backUp rel) (·.backedUp rel) else pure ()

/-- A file is registered before it is moved, so that an interrupt finds the original. -/
def commitFile (file : Rel × Bytes) : Prog Exn State Unit := do
  act (env.parent file.1) id
  let s ← get
  let backup := (s.tree file.1).isSome
  modify (·.registered file.1 backup)
  backUpFile env file.1 backup
  act (env.replace file.1) (·.replaced file.1)

def commit (files : List (Rel × Bytes)) : Prog Exn State Unit := do
  forEach (prepareFile env) files
  forEach (commitFile env) files

def restoreFile (rel : Rel) (backup : Bool) : Prog Exn State Unit := do
  let s ← get
  if backup then
    if (s.old rel).isSome then act (env.restore rel) (·.restored rel) else pure ()
  else act (env.restore rel) (·.unlinked rel)

/-- Whether the rollback of some file has failed with an `OSError`. -/
def rollback : List (Rel × Bool) → Prog Exn State Bool
  | [] => pure false
  | (rel, backup) :: rest => do
    let failed ← (restoreFile env rel backup >>= fun _ => pure false).handle
      (fun e => if e = .osError then pure true else raise e)
    let others ← rollback rest
    pure (failed || others)

def removeTransaction : Prog Exn State Unit :=
  match env.cleanup with
  | .finished => modify State.withoutTransaction
  | .stopped removed => modify (·.partlyRemoved removed) >>= fun _ => raise .osError
  | .interruptedAfter => modify State.withoutTransaction >>= fun _ => raise .interrupted

/-- The handler of the transaction; an exception of its own keeps the backups. -/
def recover (e : Exn) : Prog Exn State Unit := do
  let s ← get
  let failed ← rollback env s.written
  if failed then raise .dockerError
  else removeTransaction env >>= fun _ => raise e

/-- A staged path that the merge refuses. -/
def refused (staged : Staged) : Option Exn :=
  if staged.paths.any (fun rel => rel.parts.head? = some transactionName) then some .dockerError
  else if staged.paths.any (fun rel => sidecars.contains rel.name) then some .valueError
  else none

/-- `_merge_tree_keep_host`: how many files were copied, and the conflicts. -/
def mergeTreeKeepHost (staged : Staged) (seed : Option Tree) : Prog Exn State (ℕ × List Rel) := do
  let s ← get
  if s.transaction then raise .dockerError
  else
    check (refused staged)
    let files := pending s.tree staged seed
    if files.isEmpty then pure (0, conflicts s.tree staged seed)
    else
      act env.mkdir State.begin
      (commit env files).handle (recover env)
      removeTransaction env
      pure (files.length, conflicts s.tree staged seed)

end program

section specification

variable (env : Env) (s t : State) (staged : Staged) (seed : Option Tree)

def FromContainer (conflicts : List Rel) (rel : Rel) : Prop := rel ∈ staged.paths ∧ rel ∉ conflicts

/-- What the files of a database and its sidecars come from afterwards. -/
def OneSided (conflicts : List Rel) (base : Rel) : Prop :=
  (∀ rel ∈ base.family, ∀ b, t.tree rel = some (.file b) → FromContainer staged conflicts rel) ∨
    ∀ rel ∈ base.family, ∀ b, t.tree rel = some (.file b) → ¬ FromContainer staged conflicts rel

/-- The host has the file as the seed has it, and no sidecar. -/
def OnlySeed (rel : Rel) : Prop :=
  ∃ sources b, seed = some sources ∧ sources rel = some (.file b) ∧ s.tree rel = some (.file b) ∧
    ∀ suffix ∈ sidecars, s.tree (rel.sidecar suffix) = none

/-- The merge has returned. -/
structure Settled (conflicts : List Rel) : Prop where
  kept : ∀ rel b, s.tree rel = some (.file b) → t.tree rel = some (.file b) ∨ OnlySeed s seed rel
  accounted : ∀ file ∈ staged.files, t.tree file.1 = some (.file file.2) ∨ file.1 ∈ conflicts
  oneSided : ∀ base, OneSided t staged conflicts base

/-- Every file has its previous bytes, and no new file remains. -/
def Restored : Prop := ∀ rel b, t.tree rel = some (.file b) ↔ s.tree rel = some (.file b)

/-- The transaction has the original of every displaced file, and every later call raises at once. -/
structure Preserved : Prop where
  transaction : t.transaction = true
  originals : ∀ rel b, s.tree rel = some (.file b) → t.tree rel = some (.file b) ∨ t.old rel = some (.file b)
  later : ∀ env staged seed, mergeTreeKeepHost env staged seed t = (.error .dockerError, t)

def Safe (run : Except Exn (ℕ × List Rel) × State) : Prop :=
  match run with
  | (.ok (_, conflicts), t) => Settled s t staged seed conflicts
  | (.error _, t) => Restored s t ∨ Preserved s t

/-- Another enumeration of the staged tree, and steps that go otherwise, come to the same where both return. -/
def OrderFree : Prop :=
  ∀ env' (staged' : Staged) copied copied' conflicts conflicts' t t', staged'.files.Perm staged.files →
    mergeTreeKeepHost env staged seed s = (.ok (copied, conflicts), t) →
    mergeTreeKeepHost env' staged' seed s = (.ok (copied', conflicts'), t') →
    t'.tree = t.tree ∧ copied' = copied ∧ conflicts'.Perm conflicts

/-- Every step of the preparation and of the commit goes well. -/
def Clean (host : Tree) (files : List (Rel × Bytes)) : Prop :=
  ∀ file ∈ files, env.prepare file.1 = .none ∧ env.parent file.1 = .none ∧
    ((host file.1).isSome → env.backUp file.1 = .none) ∧ env.replace file.1 = .none

/-- The merge has something to commit, and no step fails before everything is committed. -/
structure Commits : Prop where
  closed : s.transaction = false
  accepted : refused staged = none
  something : pending s.tree staged seed ≠ []
  mkdir : env.mkdir = .none
  clean : Clean env s.tree (pending s.tree staged seed)

def Written (rel : Rel) : Prop := rel ∈ staged.paths ∧ taken s.tree staged seed rel = true

/-- Where the host has a sidecar without its main file, either that is written too or nothing of the database
is; and a seed file that stays because it is itself a sidecar has none written beside it. -/
structure Unmixed : Prop where
  orphans : ∀ base, s.tree base = none → ∀ suffix ∈ sidecars, ∀ b, s.tree (base.sidecar suffix) = some (.file b) →
    ¬ Written s staged seed (base.sidecar suffix) → ∀ rel ∈ base.family, ¬ Written s staged seed rel
  chains : ∀ base, replaceable s.tree staged seed base = true → blocked s.tree staged seed base = true →
    ∀ suffix ∈ sidecars, ¬ Written s staged seed (base.sidecar suffix)

/-- Every file that is written was there with the same bytes. -/
def Unchanged : Prop := ∀ file ∈ pending s.tree staged seed, s.tree file.1 = some (.file file.2)

/-- After the commit the databases are not mixed, or the cleanup fails before it has removed an original. -/
def Harmless : Prop :=
  match env.cleanup with
  | .finished => Unmixed s staged seed
  | .stopped removed => ∀ file ∈ pending s.tree staged seed, removed file.1 = true →
      s.tree file.1 = none ∨ s.tree file.1 = some (.file file.2)
  | .interruptedAfter => Unchanged s staged seed

end specification

section steps

variable {env : Env} {host : Tree} {files done : List (Rel × Bytes)} {file : Rel × Bytes} {rel : Rel} {s t : State}

theorem triple_act {fault : Fault} {effect : State → State} {P : State → Prop} {Q : Unit → State → Prop}
    {E : Exn → State → Prop} (goes : fault = .none → ∀ s, P s → Q () (effect s))
    (fails : fault ≠ .none → ∀ e s, P s → E e s ∧ E e (effect s)) : Triple P (act fault effect) Q E := by
  intro s start
  cases fault with
  | none => exact goes rfl s start
  | error => exact (fails (by simp) _ s start).1
  | interrupt done =>
    cases done with
    | false => exact (fails (by simp) _ s start).1
    | true => exact (fails (by simp) _ s start).2

/-! ## The commit -/

/-- Nothing has happened to the path. -/
def Untouched (host : Tree) (t : State) (rel : Rel) : Prop := t.tree rel = host rel ∧ t.old rel = none

/-- Every path is untouched, or registered with its original in the transaction. -/
structure Recoverable (host : Tree) (t : State) : Prop where
  transaction : t.transaction = true
  written : ∀ w ∈ t.written, w.2 = (host w.1).isSome
  paths : ∀ rel, Untouched host t rel ∨ ((rel, (host rel).isSome) ∈ t.written ∧ t.old rel = host rel)

structure Preparing (env : Env) (host : Tree) (done : List (Rel × Bytes)) (t : State) : Prop where
  transaction : t.transaction = true
  written : t.written = []
  untouched : ∀ rel, Untouched host t rel
  new : ∀ file ∈ done, t.new file.1 = some file.2
  clean : ∀ file ∈ done, env.prepare file.1 = .none

/-- The files that are done are replaced, and the others are prepared. -/
structure Committing (env : Env) (host : Tree) (files done : List (Rel × Bytes)) (t : State) : Prop where
  transaction : t.transaction = true
  written : ∀ w ∈ t.written, w.2 = (host w.1).isSome
  replaced : ∀ file ∈ done, t.tree file.1 = some (.file file.2) ∧ t.old file.1 = host file.1 ∧
    (file.1, (host file.1).isSome) ∈ t.written
  untouched : ∀ rel ∉ done.map Prod.fst, Untouched host t rel
  new : ∀ file ∈ files, file.1 ∉ done.map Prod.fst → t.new file.1 = some file.2
  clean : Clean env host done
  prepared : ∀ file ∈ files, env.prepare file.1 = .none

theorem Preparing.recoverable (h : Preparing env host done t) : Recoverable host t :=
  ⟨h.transaction, by simp [h.written], fun rel => .inl (h.untouched rel)⟩

theorem Committing.recoverable (h : Committing env host files done t) : Recoverable host t := by
  refine ⟨h.transaction, h.written, fun rel => ?_⟩
  by_cases mem : rel ∈ done.map Prod.fst
  · obtain ⟨file, among, rfl⟩ := List.mem_map.mp mem
    obtain ⟨-, old, written⟩ := h.replaced file among
    exact .inr ⟨written, old⟩
  · exact .inl (h.untouched rel mem)

/-- What is known of the files that are done and of the one that follows. -/
theorem forall_append_singleton {P : Rel × Bytes → Prop} (h : ∀ other ∈ done, P other) (last : P file) :
    ∀ other ∈ done ++ [file], P other := by
  intro other mem
  rcases List.mem_append.mp mem with mem | mem
  · exact h other mem
  · obtain rfl := List.mem_singleton.mp mem
    exact last

/-- A path that is done is another one than a path that is not. -/
theorem path_ne {other : Rel × Bytes} (fresh : file.1 ∉ done.map Prod.fst) (mem : other ∈ done) :
    other.1 ≠ file.1 := by
  intro same
  exact fresh (same ▸ List.mem_map_of_mem (f := Prod.fst) mem)

theorem prepareFile_spec (among : file ∈ files) (fresh : file.1 ∉ done.map Prod.fst) :
    Triple (Preparing env host done) (prepareFile env file) (fun _ => Preparing env host (done ++ [file]))
      (fun _ t => Recoverable host t ∧ ¬ Clean env host files) := by
  refine triple_act (fun good s h => ?_) (fun bad e s h => ?_)
  · refine ⟨h.transaction, h.written, h.untouched, forall_append_singleton (fun other mem => ?_) ?_,
      forall_append_singleton h.clean good⟩
    · exact (Function.update_of_ne (path_ne fresh mem) _ _).trans (h.new other mem)
    · exact Function.update_self ..
  · have unclean : ¬ Clean env host files := fun clean => bad (clean file among).1
    exact ⟨⟨h.recoverable, unclean⟩, ⟨h.transaction, h.recoverable.written, h.recoverable.paths⟩, unclean⟩

/-- A file registered with its backup flag can still be rolled back. -/
theorem Committing.registered (h : Committing env host files done t) (rel : Rel) :
    Recoverable host (t.registered rel (host rel).isSome) := by
  refine ⟨h.transaction, fun w mem => ?_, fun rel' => ?_⟩
  · rcases List.mem_cons.mp mem with rfl | mem
    · rfl
    · exact h.written w mem
  · rcases h.recoverable.paths rel' with untouched | ⟨written, old⟩
    · exact .inl untouched
    · exact .inr ⟨List.mem_cons_of_mem _ written, old⟩

/-- So can one whose original has been moved to the transaction. -/
theorem Committing.backedUp (h : Committing env host files done t) (fresh : rel ∉ done.map Prod.fst) :
    Recoverable host ((t.registered rel (host rel).isSome).backedUp rel) := by
  have before := h.registered rel
  refine ⟨h.transaction, before.written, fun rel' => ?_⟩
  by_cases same : rel' = rel
  · subst same
    refine .inr ⟨List.mem_cons_self .., ?_⟩
    exact (Function.update_self ..).trans (h.untouched rel' fresh).1
  · rcases before.paths rel' with ⟨tree, old⟩ | ⟨written, old⟩
    · exact .inl ⟨(Function.update_of_ne same _ _).trans tree, (Function.update_of_ne same _ _).trans old⟩
    · exact .inr ⟨written, (Function.update_of_ne same _ _).trans old⟩

theorem Recoverable.replaced (h : Recoverable host t) (written : (rel, (host rel).isSome) ∈ t.written)
    (old : t.old rel = host rel) : Recoverable host (t.replaced rel) := by
  refine ⟨h.transaction, h.written, fun rel' => ?_⟩
  by_cases same : rel' = rel
  · subst same
    exact .inr ⟨written, old⟩
  · rcases h.paths rel' with ⟨tree, before⟩ | recorded
    · exact .inl ⟨(Function.update_of_ne same _ _).trans tree, before⟩
    · exact .inr recorded

/-- A file that is registered, and in the transaction where the host has it. -/
def backed (t : State) (rel : Rel) (backup : Bool) : State :=
  if backup then (t.registered rel backup).backedUp rel else t.registered rel backup

theorem backed_new (backup : Bool) : (backed t rel backup).new = t.new := by
  unfold backed
  split_ifs <;> rfl

theorem backed_written (backup : Bool) : (backed t rel backup).written = (rel, backup) :: t.written := by
  unfold backed
  split_ifs <;> rfl

theorem backed_transaction (backup : Bool) : (backed t rel backup).transaction = t.transaction := by
  unfold backed
  split_ifs <;> rfl

theorem backed_others (backup : Bool) {other : Rel} (apart : other ≠ rel) :
    (backed t rel backup).tree other = t.tree other ∧ (backed t rel backup).old other = t.old other := by
  unfold backed
  split_ifs
  · exact ⟨Function.update_of_ne apart _ _, Function.update_of_ne apart _ _⟩
  · exact ⟨rfl, rfl⟩

theorem Committing.backed_old (h : Committing env host files done t) (fresh : rel ∉ done.map Prod.fst) :
    (backed t rel (host rel).isSome).old rel = host rel := by
  have before := h.untouched rel fresh
  unfold backed
  split_ifs with backup
  · exact (Function.update_self ..).trans before.1
  · rw [Option.isSome_iff_ne_none, not_not] at backup
    exact before.2.trans backup.symm

theorem Committing.backed (h : Committing env host files done t) (fresh : rel ∉ done.map Prod.fst) :
    Recoverable host (backed t rel (host rel).isSome) := by
  unfold RescueMerge.backed
  split_ifs with backup
  · exact h.backedUp fresh
  · exact h.registered rel

theorem Committing.replaced_file (h : Committing env host files done t) (among : file ∈ files)
    (fresh : file.1 ∉ done.map Prod.fst) (clean : Clean env host (done ++ [file])) :
    Committing env host files (done ++ [file]) ((RescueMerge.backed t file.1 (host file.1).isSome).replaced file.1) :=
      by
  refine ⟨(backed_transaction _).trans h.transaction, ?_, forall_append_singleton (fun other mem => ?_) ?_,
    fun rel left => ?_, fun other mem left => ?_, clean, h.prepared⟩
  · intro w mem
    have listed : w ∈ (file.1, (host file.1).isSome) :: t.written := by
      rw [← backed_written]
      exact mem
    rcases List.mem_cons.mp listed with rfl | mem
    · rfl
    · exact h.written w mem
  · have apart := path_ne fresh mem
    obtain ⟨others, olds⟩ := backed_others (t := t) (host file.1).isSome apart
    obtain ⟨tree, before, listed⟩ := h.replaced other mem
    refine ⟨?_, olds.trans before, ?_⟩
    · exact (Function.update_of_ne apart _ _).trans (others.trans tree)
    · exact (backed_written _).symm ▸ List.mem_cons_of_mem _ listed
  · refine ⟨?_, h.backed_old fresh, (backed_written _).symm ▸ List.mem_cons_self ..⟩
    refine (Function.update_self ..).trans ?_
    rw [backed_new, h.new file among fresh]
    rfl
  · rw [List.map_append, List.mem_append, not_or] at left
    have apart : rel ≠ file.1 := by simpa using left.2
    obtain ⟨others, olds⟩ := backed_others (t := t) (host file.1).isSome apart
    obtain ⟨tree, before⟩ := h.untouched rel left.1
    exact ⟨(Function.update_of_ne apart _ _).trans (others.trans tree), olds.trans before⟩
  · rw [List.map_append, List.mem_append, not_or] at left
    have apart : other.1 ≠ file.1 := by simpa using left.2
    refine (Function.update_of_ne apart _ _).trans ?_
    rw [backed_new]
    exact h.new other mem left.1

theorem commitFile_spec (among : file ∈ files) (fresh : file.1 ∉ done.map Prod.fst) :
    Triple (Committing env host files done) (commitFile env file) (fun _ => Committing env host files (done ++ [file]))
      (fun _ t => Recoverable host t ∧ ¬ Clean env host files) := by
  refine Triple.bind (Q := fun _ s => Committing env host files done s ∧ env.parent file.1 = .none) ?_ (fun _ => ?_)
  · refine triple_act (fun good s h => ⟨h, good⟩) (fun bad e s h => ?_)
    have unclean : ¬ Clean env host files := fun clean => bad (clean file among).2.1
    exact ⟨⟨h.recoverable, unclean⟩, h.recoverable, unclean⟩
  refine triple_get (fun s start => ?_)
  obtain ⟨h, parent⟩ := start
  have backup : (s.tree file.1).isSome = (host file.1).isSome := by rw [(h.untouched file.1 fresh).1]
  simp only [backup]
  refine Triple.bind (Q := fun _ t => t = s.registered file.1 (host file.1).isSome) ?_ (fun _ => ?_)
  · exact triple_modify (fun t same => by rw [same])
  refine Triple.bind (Q := fun _ t => t = backed s file.1 (host file.1).isSome ∧
    ((host file.1).isSome → env.backUp file.1 = .none)) ?_ (fun _ => ?_)
  · unfold backUpFile backed
    refine Triple.ite (fun exists_ => ?_) (fun missing => ?_)
    · rw [if_pos exists_]
      refine triple_act (fun good t same => ⟨by rw [same], fun _ => good⟩) (fun bad e t same => ?_)
      have unclean : ¬ Clean env host files := fun clean => bad ((clean file among).2.2.1 exists_)
      rw [same]
      exact ⟨⟨h.registered file.1, unclean⟩, h.backedUp fresh, unclean⟩
    · rw [if_neg missing]
      exact triple_pure (fun t same => ⟨same, fun exists_ => absurd exists_ missing⟩)
  · refine triple_act (fun good t state => ?_) (fun bad e t state => ?_)
    · obtain ⟨rfl, saved⟩ := state
      exact h.replaced_file among fresh
        (forall_append_singleton h.clean ⟨h.prepared file among, parent, saved, good⟩)
    · obtain ⟨rfl, -⟩ := state
      have unclean : ¬ Clean env host files := fun clean => bad (clean file among).2.2.2
      have written : (file.1, (host file.1).isSome) ∈ (RescueMerge.backed s file.1 (host file.1).isSome).written := by
        rw [backed_written]
        exact List.mem_cons_self ..
      exact ⟨⟨h.backed fresh, unclean⟩, (h.backed fresh).replaced written (h.backed_old fresh), unclean⟩

theorem fresh_of_nodup {rest : List (Rel × Bytes)} (nodup : (files.map Prod.fst).Nodup)
    (split : files = done ++ file :: rest) : file.1 ∉ done.map Prod.fst := by
  intro mem
  rw [split, List.map_append, List.map_cons] at nodup
  have apart := (List.nodup_append.mp nodup).2.2 file.1 mem file.1 (List.mem_cons_self ..)
  exact apart rfl

/-- The commit replaces everything, or stops where everything can be rolled back. -/
theorem commit_spec (nodup : (files.map Prod.fst).Nodup) :
    Triple (Preparing env host []) (commit env files) (fun _ => Committing env host files files)
      (fun _ t => Recoverable host t ∧ ¬ Clean env host files) := by
  refine Triple.bind (Q := fun _ => Preparing env host files) ?_ (fun _ => ?_)
  · refine Triple.forEach (fun done file rest split => ?_)
    exact prepareFile_spec (by simp [split]) (fresh_of_nodup nodup split)
  · have loop : Triple (Committing env host files []) (forEach (commitFile env) files)
        (fun _ => Committing env host files files) (fun _ t => Recoverable host t ∧ ¬ Clean env host files) := by
      refine Triple.forEach (fun done file rest split => ?_)
      exact commitFile_spec (by simp [split]) (fresh_of_nodup nodup split)
    refine loop.consequence (fun s h => ?_) (fun _ _ h => h) (fun _ _ h => h)
    exact ⟨h.transaction, by simp [h.written], by simp, fun rel _ => h.untouched rel, fun file mem _ => h.new file mem,
      by simp [Clean], h.clean⟩

/-! ## The rollback -/

theorem Recoverable.restored (h : Recoverable host t) (old : t.old rel = host rel) :
    Recoverable host (t.restored rel) := by
  refine ⟨h.transaction, h.written, fun rel' => ?_⟩
  by_cases same : rel' = rel
  · subst same
    exact .inl ⟨(Function.update_self ..).trans old, Function.update_self ..⟩
  · rcases h.paths rel' with ⟨tree, before⟩ | ⟨written, before⟩
    · exact .inl ⟨(Function.update_of_ne same _ _).trans tree, (Function.update_of_ne same _ _).trans before⟩
    · exact .inr ⟨written, (Function.update_of_ne same _ _).trans before⟩

theorem Recoverable.unlinked (h : Recoverable host t) (missing : host rel = none) :
    Recoverable host (t.unlinked rel) := by
  refine ⟨h.transaction, h.written, fun rel' => ?_⟩
  by_cases same : rel' = rel
  · subst same
    refine .inl ⟨(Function.update_self ..).trans missing.symm, ?_⟩
    rcases h.paths rel' with ⟨-, old⟩ | ⟨-, old⟩
    · exact old
    · exact old.trans missing
  · rcases h.paths rel' with ⟨tree, before⟩ | recorded
    · exact .inl ⟨(Function.update_of_ne same _ _).trans tree, before⟩
    · exact .inr recorded

/-- What the rollback keeps: the transaction, and the paths that are as they were. -/
def Rolling (host : Tree) (fixed : Rel → Prop) (t : State) : Prop :=
  Recoverable host t ∧ ∀ rel, fixed rel → Untouched host t rel

theorem restoreFile_spec (fixed : Rel → Prop) :
    Triple (Rolling host fixed) (restoreFile env rel (host rel).isSome)
      (fun _ => Rolling host (fun rel' => rel' = rel ∨ fixed rel'))
      (fun _ => Rolling host fixed) := by
  refine triple_get (fun s start => ?_)
  obtain ⟨h, done⟩ := start
  refine Triple.ite (fun backup => Triple.ite (fun saved => ?_) (fun gone => ?_)) (fun missing => ?_)
  · have old : s.old rel = host rel := by
      rcases h.paths rel with ⟨-, old⟩ | ⟨-, old⟩
      · rw [old] at saved
        cases saved
      · exact old
    have after : Rolling host (fun rel' => rel' = rel ∨ fixed rel') (s.restored rel) := by
      refine ⟨h.restored old, fun rel' mem => ?_⟩
      by_cases same : rel' = rel
      · subst same
        exact ⟨(Function.update_self ..).trans old, Function.update_self ..⟩
      · obtain ⟨tree, before⟩ := done rel' (mem.resolve_left same)
        exact ⟨(Function.update_of_ne same _ _).trans tree, (Function.update_of_ne same _ _).trans before⟩
    refine triple_act (fun _ t same => ?_) (fun _ e t same => ?_)
    · rw [same]
      exact after
    · rw [same]
      exact ⟨⟨h, done⟩, after.1, fun rel' mem => after.2 rel' (.inr mem)⟩
  · refine triple_pure (fun t same => ?_)
    rw [same]
    refine ⟨h, fun rel' mem => ?_⟩
    rcases mem with rfl | mem
    · rcases h.paths rel' with untouched | ⟨-, old⟩
      · exact untouched
      · rw [old] at gone
        exact absurd backup gone
    · exact done rel' mem
  · rw [Option.isSome_iff_ne_none, not_not] at missing
    have after : Rolling host (fun rel' => rel' = rel ∨ fixed rel') (s.unlinked rel) := by
      refine ⟨h.unlinked missing, fun rel' mem => ?_⟩
      by_cases same : rel' = rel
      · subst same
        refine ⟨(Function.update_self ..).trans missing.symm, ?_⟩
        rcases h.paths rel' with ⟨-, old⟩ | ⟨-, old⟩
        · exact old
        · exact old.trans missing
      · obtain ⟨tree, before⟩ := done rel' (mem.resolve_left same)
        exact ⟨(Function.update_of_ne same _ _).trans tree, before⟩
    refine triple_act (fun _ t same => ?_) (fun _ e t same => ?_)
    · rw [same]
      exact after
    · rw [same]
      exact ⟨⟨h, done⟩, after.1, fun rel' mem => after.2 rel' (.inr mem)⟩

/-- A rollback without a failure leaves what is registered as it was. -/
theorem rollback_spec (written : List (Rel × Bool)) (flags : ∀ w ∈ written, w.2 = (host w.1).isSome)
    (fixed : Rel → Prop) :
    Triple (Rolling host fixed) (rollback env written)
      (fun failed t => Recoverable host t ∧ (failed = false →
        Rolling host (fun rel => rel ∈ written.map Prod.fst ∨ fixed rel) t))
      (fun _ => Recoverable host) := by
  induction written generalizing fixed with
  | nil => exact triple_pure (fun t h => ⟨h.1, fun _ => ⟨h.1, fun rel mem => h.2 rel (mem.resolve_left (by simp))⟩⟩)
  | cons w rest ih =>
    obtain ⟨rel, backup⟩ := w
    obtain rfl : backup = (host rel).isSome := flags _ (List.mem_cons_self ..)
    have ih := ih (fun w mem => flags w (List.mem_cons_of_mem _ mem))
    refine Triple.bind (Q := fun failed t => Rolling host fixed t ∧
      (failed = false → Rolling host (fun rel' => rel' = rel ∨ fixed rel') t)) ?_ (fun failed => ?_)
    · refine Triple.handle (F := fun _ => Rolling host fixed) ?_ (fun e => ?_)
      · refine Triple.bind (restoreFile_spec fixed) (fun _ => triple_pure (fun t h => ?_))
        exact ⟨⟨h.1, fun rel' mem => h.2 rel' (.inr mem)⟩, fun _ => h⟩
      · refine Triple.ite (fun _ => ?_) (fun _ => ?_)
        · exact triple_pure (fun t h => ⟨h, fun nothing => by cases nothing⟩)
        · exact triple_raise (fun t h => h.1)
    · cases failed with
      | true =>
        refine Triple.bind ((ih fixed).consequence (fun t h => h.1) (fun _ _ h => h.1) (fun _ _ h => h)) (fun _ => ?_)
        exact triple_pure (fun t h => ⟨h, fun nothing => by cases nothing⟩)
      | false =>
        refine Triple.bind ((ih _).consequence (fun t h => h.2 rfl) (fun _ _ h => h) (fun _ _ h => h))
          (fun others => ?_)
        refine triple_pure (fun t h => ⟨h.1, fun none => ?_⟩)
        obtain ⟨recoverable, same⟩ := h.2 (by simpa using none)
        refine ⟨recoverable, fun rel' mem => same rel' ?_⟩
        rcases mem with mem | mem
        · rcases List.mem_cons.mp mem with rfl | mem
          · exact .inr (.inl rfl)
          · exact .inl mem
        · exact .inr (.inr mem)

/-- The transaction is removed, or some of it. -/
theorem removeTransaction_tree (s : State) : (removeTransaction env s).2.tree = s.tree := by
  unfold removeTransaction
  cases env.cleanup <;> rfl

/-- The handler leaves the files as they were, or what is needed to restore them. -/
theorem recover_spec (e : Exn) :
    Triple (Recoverable host) (recover env e) (fun _ _ => False) (fun _ t => t.tree = host ∨ Recoverable host t) := by
  refine triple_get (fun s h => ?_)
  -- what is not registered is untouched from the start
  have start : ∀ t, t = s → Rolling host (fun rel => rel ∉ s.written.map Prod.fst) t := by
    rintro t rfl
    refine ⟨h, fun rel missing => ?_⟩
    rcases h.paths rel with untouched | ⟨written, -⟩
    · exact untouched
    · exact absurd (List.mem_map_of_mem (f := Prod.fst) written) missing
  refine Triple.bind (Q := fun failed t => Recoverable host t ∧ (failed = false → t.tree = host)) ?_ (fun failed => ?_)
  · refine (rollback_spec s.written h.written _).consequence start (fun failed t after => ?_) (fun _ _ h => .inr h)
    refine ⟨after.1, fun none => funext fun rel => ?_⟩
    exact ((after.2 none).2 rel (Decidable.em _)).1
  · refine Triple.ite (fun _ => triple_raise (fun t h => .inr h.1)) (fun succeeded => ?_)
    refine Triple.bind (Q := fun _ t => t.tree = host) (fun t after => ?_) (fun _ => triple_raise (fun _ h => .inl h))
    have tree : (removeTransaction env t).2.tree = host :=
      (removeTransaction_tree t).trans (after.2 (by simpa using succeeded))
    rcases run : removeTransaction env t with ⟨_ | _, u⟩
    all_goals rw [run] at tree
    · exact .inl tree
    · exact tree

/-- How the call ends where it commits everything. -/
def Committed (env : Env) (host : Tree) (files : List (Rel × Bytes)) (t : State) : Prop :=
  ∃ u, Committing env host files files u ∧
    match env.cleanup with
    | .finished => t = u.withoutTransaction
    | .stopped removed => t = u.partlyRemoved removed
    | .interruptedAfter => t = u.withoutTransaction

theorem removeTransaction_spec {Q : Unit → State → Prop} {E : Exn → State → Prop} {P : State → Prop}
    (finished : env.cleanup = .finished → ∀ s, P s → Q () s.withoutTransaction)
    (stopped : ∀ removed e, env.cleanup = .stopped removed → ∀ s, P s → E e (s.partlyRemoved removed))
    (interrupted : ∀ e, env.cleanup = .interruptedAfter → ∀ s, P s → E e s.withoutTransaction) :
    Triple P (removeTransaction env) Q E := by
  unfold removeTransaction
  cases cleanup : env.cleanup with
  | finished => exact triple_modify (finished cleanup)
  | stopped removed =>
    exact Triple.bind (Q := fun _ t => ∃ s, P s ∧ t = s.partlyRemoved removed) (triple_modify fun s h => ⟨s, h, rfl⟩)
      (fun _ => triple_raise fun t ⟨s, h, same⟩ => by rw [same]; exact stopped removed _ cleanup s h)
  | interruptedAfter =>
    exact Triple.bind (Q := fun _ t => ∃ s, P s ∧ t = s.withoutTransaction) (triple_modify fun s h => ⟨s, h, rfl⟩)
      (fun _ => triple_raise fun t ⟨s, h, same⟩ => by rw [same]; exact interrupted _ cleanup s h)

theorem pending_nodup (host : Tree) (staged : Staged) (seed : Option Tree) :
    ((pending host staged seed).map Prod.fst).Nodup :=
  staged.nodup.sublist (List.filter_sublist.map Prod.fst)

/-- How a call of `_merge_tree_keep_host` ends. -/
theorem merge_spec (env : Env) (staged : Staged) (seed : Option Tree) (s : State) :
    Triple (· = s) (mergeTreeKeepHost env staged seed)
      (fun result t => result = ((pending s.tree staged seed).length, conflicts s.tree staged seed) ∧
        ((pending s.tree staged seed = [] ∧ t = s) ∨
          Commits env s staged seed ∧ env.cleanup = .finished ∧ Committed env s.tree (pending s.tree staged seed) t))
      (fun _ t => (¬ Commits env s staged seed ∧ (t.tree = s.tree ∨ Recoverable s.tree t)) ∨
        (Commits env s staged seed ∧ env.cleanup ≠ .finished ∧
        Committed env s.tree (pending s.tree staged seed) t)) := by
  refine triple_get (fun s' start => ?_)
  rw [start]
  refine Triple.ite (fun busy => ?_) (fun closed => ?_)
  · refine triple_raise (fun t same => .inl ⟨fun commits => ?_, .inl (by rw [same])⟩)
    rw [commits.closed] at busy
    cases busy
  refine Triple.bind (Q := fun _ t => t = s ∧ refused staged = none) ?_ (fun _ => ?_)
  · refine triple_check (fun accepted t same => ⟨same, accepted⟩) (fun e refuses t same => ?_)
    refine .inl ⟨fun commits => ?_, .inl (by rw [same])⟩
    rw [commits.accepted] at refuses
    cases refuses
  refine Triple.ite (fun nothing => ?_) (fun something => ?_)
  · refine triple_pure (fun t h => ⟨?_, .inl ⟨List.isEmpty_iff.mp nothing, h.1⟩⟩)
    rw [List.isEmpty_iff.mp nothing]
    rfl
  have nonempty : pending s.tree staged seed ≠ [] := fun empty => something (List.isEmpty_iff.mpr empty)
  refine Triple.bind (Q := fun _ t => (Preparing env s.tree [] t ∧ env.mkdir = .none) ∧ refused staged = none) ?_
    (fun _ => ?_)
  · refine triple_act (fun good t h => ?_) (fun bad e t h => ?_)
    · rw [h.1]
      exact ⟨⟨⟨rfl, rfl, fun _ => ⟨rfl, rfl⟩, by simp, by simp⟩, good⟩, h.2⟩
    · have unmade : ¬ Commits env s staged seed := fun commits => bad commits.mkdir
      rw [h.1]
      exact ⟨.inl ⟨unmade, .inl rfl⟩, .inl ⟨unmade, .inl rfl⟩⟩
  refine Triple.bind (Q := fun _ t => Committing env s.tree (pending s.tree staged seed)
    (pending s.tree staged seed) t ∧
    Commits env s staged seed) ?_ (fun _ => ?_)
  · intro t start
    obtain ⟨⟨preparing, made⟩, accepted⟩ := start
    refine Triple.handle (P := Preparing env s.tree []) (F := fun _ t => Recoverable s.tree t ∧
      ¬ Clean env s.tree (pending s.tree staged seed)) ?_ (fun e u stopped => ?_) t preparing
    · refine (commit_spec (pending_nodup s.tree staged seed)).consequence (fun _ h => h) (fun _ u h => ⟨h, ?_⟩)
        (fun _ _ h => h)
      exact ⟨by simpa using closed, accepted, nonempty, made, h.clean⟩
    · have unclean : ¬ Commits env s staged seed := fun commits => stopped.2 commits.clean
      exact ((recover_spec e).consequence (fun _ h => h) (fun _ _ h => h.elim)
        (fun _ _ h => .inl ⟨unclean, h⟩)) u stopped.1
  · refine Triple.bind (Q := fun _ t => Commits env s staged seed ∧ env.cleanup = .finished ∧
      Committed env s.tree (pending s.tree staged seed) t) ?_ (fun _ => triple_pure (fun t h => ⟨rfl, .inr h⟩))
    refine removeTransaction_spec (fun cleanup u h => ⟨h.2, cleanup, u, h.1, ?_⟩)
      (fun removed e cleanup u h => .inr ⟨h.2, ?_, u, h.1, ?_⟩) (fun e cleanup u h => .inr ⟨h.2, ?_, u, h.1, ?_⟩)
    all_goals rw [cleanup]
    all_goals simp

end steps

section outcome

variable {env : Env} {host : Tree} {staged staged' : Staged} {seed : Option Tree} {rel base : Rel} {s t u : State}

/-! ## Which files are written -/

theorem mem_pending {file : Rel × Bytes} :
    file ∈ pending host staged seed ↔ file ∈ staged.files ∧ taken host staged seed file.1 = true := List.mem_filter

theorem mem_pending_paths : rel ∈ (pending s.tree staged seed).map Prod.fst ↔ Written s staged seed rel := by
  constructor
  · intro mem
    obtain ⟨file, among, rfl⟩ := List.mem_map.mp mem
    obtain ⟨listed, chosen⟩ := mem_pending.mp among
    exact ⟨List.mem_map_of_mem listed, chosen⟩
  · rintro ⟨listed, chosen⟩
    obtain ⟨file, among, rfl⟩ := List.mem_map.mp listed
    exact List.mem_map_of_mem (mem_pending.mpr ⟨among, chosen⟩)

theorem fromContainer_iff : FromContainer staged (conflicts s.tree staged seed) rel ↔ Written s staged seed rel := by
  unfold FromContainer Written conflicts
  simp only [List.mem_filter]
  constructor
  · rintro ⟨listed, unreported⟩
    exact ⟨listed, by simpa [listed] using unreported⟩
  · rintro ⟨listed, chosen⟩
    exact ⟨listed, by simp [chosen]⟩

theorem replaceable_spec (h : replaceable host staged seed rel = true) : rel ∈ staged.paths ∧
    ∃ sources b, seed = some sources ∧ sources rel = some (.file b) ∧ host rel = some (.file b) ∧
      ∀ suffix ∈ sidecars, host (rel.sidecar suffix) = none := by
  unfold replaceable at h
  obtain ⟨listed, same⟩ := Bool.and_eq_true_iff.mp h
  refine ⟨by simpa using listed, ?_⟩
  split at same
  case h_1 sources b found =>
    obtain ⟨equal, alone⟩ := Bool.and_eq_true_iff.mp same
    refine ⟨sources, b, rfl, by simpa using equal, found, fun suffix mem => ?_⟩
    exact Option.isNone_iff_eq_none.mp (List.all_eq_true.mp alone suffix mem)
  case h_2 => cases same

/-- What is written and was there is a file that the host has as the seed has it. -/
theorem Written.replaceable (h : Written s staged seed rel) (there : s.tree rel ≠ none) :
    replaceable s.tree staged seed rel = true := by
  obtain ⟨-, free⟩ := Bool.and_eq_true_iff.mp h.2
  rcases Bool.or_eq_true_iff.mp free with missing | same
  · exact absurd (Option.isNone_iff_eq_none.mp missing) there
  · exact same

theorem base_sidecar (base : Rel) (suffix : Name) : (base.sidecar suffix).base suffix = base := by
  simp [Rel.sidecar, Rel.base]

/-- A sidecar stays that of the host where its main file does. -/
theorem blocked_sidecar {suffix : Name} (known : suffix ∈ sidecars) (there : host base ≠ none)
    (kept : replaceable host staged seed base = false) : blocked host staged seed (base.sidecar suffix) = true := by
  refine List.any_eq_true.mpr ⟨suffix, known, ?_⟩
  rw [base_sidecar, kept]
  have ending : suffix.isSuffixOf (base.sidecar suffix).name = true :=
    List.isSuffixOf_iff_suffix.mpr (List.suffix_append base.name suffix)
  rw [ending, Option.isSome_iff_ne_none.mpr there]
  rfl

/-! ## What is left of the trees -/

/-- The files that are written are those of the container, and all else is as it was. -/
structure Merged (s : State) (staged : Staged) (seed : Option Tree) (t : State) : Prop where
  written : ∀ file ∈ pending s.tree staged seed, t.tree file.1 = some (.file file.2)
  others : ∀ rel, ¬ Written s staged seed rel → t.tree rel = s.tree rel

theorem Committing.merged (h : Committing env s.tree (pending s.tree staged seed) (pending s.tree staged seed) u)
    (same : t.tree = u.tree) : Merged s staged seed t where
  written := fun file mem => by rw [same]; exact (h.replaced file mem).1
  others := fun rel unwritten => by
    rw [same]
    exact (h.untouched rel (fun mem => unwritten (mem_pending_paths.mp mem))).1

theorem merged_of_nothing (nothing : pending s.tree staged seed = []) : Merged s staged seed s where
  written := fun file mem => by rw [nothing] at mem; cases mem
  others := fun _ _ => rfl

theorem Merged.file (h : Merged s staged seed t) (written : Written s staged seed rel) :
    ∃ b, t.tree rel = some (.file b) := by
  obtain ⟨file, mem, rfl⟩ := List.mem_map.mp (mem_pending_paths.mpr written)
  exact ⟨file.2, h.written file mem⟩

/-- Where a file of the host stays, nothing of its database is written. -/
def Apart (s : State) (staged : Staged) (seed : Option Tree) (base : Rel) : Prop :=
  ∀ rel ∈ base.family, ∀ b, s.tree rel = some (.file b) → ¬ Written s staged seed rel →
    ∀ rel' ∈ base.family, ¬ Written s staged seed rel'

theorem Merged.oneSided_iff (h : Merged s staged seed t) :
    OneSided t staged (conflicts s.tree staged seed) base ↔ Apart s staged seed base := by
  unfold OneSided Apart
  simp only [fromContainer_iff]
  constructor
  · rintro (container | host) rel mem b file kept rel' mem' written
    · exact kept (container rel mem b ((h.others rel kept).trans file))
    · obtain ⟨b', file'⟩ := h.file written
      exact host rel' mem' b' file' written
  · intro apart
    by_cases stays : ∃ rel ∈ base.family, (∃ b, s.tree rel = some (.file b)) ∧ ¬ Written s staged seed rel
    · obtain ⟨rel, mem, ⟨b, file⟩, kept⟩ := stays
      exact .inr (fun rel' mem' _ _ => apart rel mem b file kept rel' mem')
    · refine .inl (fun rel mem b file => ?_)
      by_contra kept
      exact stays ⟨rel, mem, ⟨b, (h.others rel kept).symm.trans file⟩, kept⟩

theorem unmixed_iff : Unmixed s staged seed ↔ ∀ base, Apart s staged seed base := by
  constructor
  · intro unmixed base rel mem b file kept rel' mem' written
    by_cases there : s.tree base = none
    · rcases List.mem_cons.mp mem with rfl | sidecar
      · rw [there] at file
        cases file
      · obtain ⟨suffix, known, rfl⟩ := List.mem_map.mp sidecar
        exact unmixed.orphans base there suffix known b file kept rel' mem' written
    cases replaced : replaceable s.tree staged seed base with
    | false =>
      rcases List.mem_cons.mp mem' with rfl | sidecar
      · rw [written.replaceable there] at replaced
        cases replaced
      · obtain ⟨suffix, known, rfl⟩ := List.mem_map.mp sidecar
        have stays := written.2
        unfold taken at stays
        rw [blocked_sidecar known there replaced] at stays
        cases stays
    | true =>
      -- the host has no sidecar of it, so that the file that stays is the main file itself
      obtain ⟨listed, _, _, _, _, _, alone⟩ := replaceable_spec replaced
      rcases List.mem_cons.mp mem with rfl | sidecar
      · have stays : blocked s.tree staged seed rel = true := by
          by_contra free
          refine kept ⟨listed, ?_⟩
          unfold taken
          rw [replaced, Bool.eq_false_iff.mpr free]
          simp
        rcases List.mem_cons.mp mem' with rfl | sidecar
        · exact kept written
        · obtain ⟨suffix, known, rfl⟩ := List.mem_map.mp sidecar
          exact unmixed.chains rel replaced stays suffix known written
      · obtain ⟨suffix, known, rfl⟩ := List.mem_map.mp sidecar
        rw [alone suffix known] at file
        cases file
  · intro apart
    refine ⟨fun base there suffix known b file kept => ?_, fun base replaced stays suffix known => ?_⟩
    · exact apart base _ (List.mem_cons_of_mem _ (List.mem_map_of_mem known)) b file kept
    · obtain ⟨-, _, b, -, -, file, -⟩ := replaceable_spec replaced
      refine apart base base (List.mem_cons_self ..) b file (fun written => ?_) _
        (List.mem_cons_of_mem _ (List.mem_map_of_mem known))
      have free := written.2
      unfold taken at free
      rw [stays] at free
      cases free

theorem Merged.settled_iff (h : Merged s staged seed t) :
    Settled s t staged seed (conflicts s.tree staged seed) ↔ Unmixed s staged seed := by
  rw [unmixed_iff]
  constructor
  · intro settled base
    exact h.oneSided_iff.mp (settled.oneSided base)
  · intro apart
    refine ⟨fun rel b file => ?_, fun file mem => ?_, fun base => h.oneSided_iff.mpr (apart base)⟩
    · by_cases written : Written s staged seed rel
      · obtain ⟨-, sources, b', same, seeded, found, alone⟩ :=
          replaceable_spec (written.replaceable (by rw [file]; simp))
        exact .inr ⟨sources, b', same, seeded, found, alone⟩
      · exact .inl ((h.others rel written).trans file)
    · cases chosen : taken s.tree staged seed file.1 with
      | true => exact .inl (h.written file (mem_pending.mpr ⟨mem, chosen⟩))
      | false => exact .inr (List.mem_filter.mpr ⟨List.mem_map_of_mem mem, by rw [chosen]; rfl⟩)

/-! ## What is left by a call that raises -/

theorem Recoverable.preserved (h : Recoverable s.tree t) : Preserved s t := by
  refine ⟨h.transaction, fun rel b file => ?_, fun env staged seed => ?_⟩
  · rcases h.paths rel with ⟨tree, -⟩ | ⟨-, old⟩
    · exact .inl (tree.trans file)
    · exact .inr (old.trans file)
  · have busy := h.transaction
    simp [mergeTreeKeepHost, bind_apply, busy]

theorem restored_of_tree (same : t.tree = s.tree) : Restored s t := fun rel b => by rw [same]

/-- What was there with other bytes is a file. -/
theorem file_of_pending {file : Rel × Bytes} (mem : file ∈ pending s.tree staged seed) :
    s.tree file.1 = none ∨ ∃ b, s.tree file.1 = some (.file b) := by
  by_cases there : s.tree file.1 = none
  · exact .inl there
  · have written : Written s staged seed file.1 := mem_pending_paths.mp (List.mem_map_of_mem mem)
    obtain ⟨-, _, b, -, -, found, -⟩ := replaceable_spec (written.replaceable there)
    exact .inr ⟨b, found⟩

theorem raised_harmless_iff (unfinished : env.cleanup ≠ .finished)
    (h : Committed env s.tree (pending s.tree staged seed) t) :
    (Restored s t ∨ Preserved s t) ↔ Harmless env s staged seed := by
  obtain ⟨u, committing, state⟩ := h
  unfold Harmless
  cases cleanup : env.cleanup with
  | finished => exact absurd cleanup unfinished
  | stopped removed =>
    rw [cleanup] at state
    have merged : Merged s staged seed t := committing.merged (by rw [state]; rfl)
    constructor
    · intro safe file mem gone
      rcases file_of_pending mem with missing | ⟨b, found⟩
      · exact .inl missing
      have now := merged.written file mem
      rcases safe with restored | preserved
      · exact .inr ((restored file.1 file.2).mp now)
      · rcases preserved.originals file.1 b found with kept | old
        · rw [now] at kept
          exact .inr (kept ▸ found)
        · rw [state] at old
          simp [State.partlyRemoved, gone] at old
    · intro harmless
      have later := (committing.recoverable.preserved).later
      refine .inr ⟨by rw [state]; exact committing.transaction, fun rel b file => ?_, fun env staged seed => ?_⟩
      · by_cases written : Written s staged seed rel
        · obtain ⟨pend, mem, rfl⟩ := List.mem_map.mp (mem_pending_paths.mpr written)
          cases gone : removed pend.1 with
          | true =>
            rcases harmless pend mem gone with missing | same
            · rw [missing] at file
              cases file
            · exact .inl ((merged.written pend mem).trans (same.symm.trans file))
          | false =>
            refine .inr ?_
            rw [state]
            simp only [State.partlyRemoved, gone]
            exact (committing.replaced pend mem).2.1.trans file
        · exact .inl ((merged.others rel written).trans file)
      · have busy : t.transaction = true := by rw [state]; exact committing.transaction
        simp [mergeTreeKeepHost, bind_apply, busy]
  | interruptedAfter =>
    rw [cleanup] at state
    have merged : Merged s staged seed t := committing.merged (by rw [state]; rfl)
    constructor
    · intro safe file mem
      rcases safe with restored | preserved
      · exact (restored file.1 file.2).mp (merged.written file mem)
      · have busy := preserved.transaction
        rw [state] at busy
        cases busy
    · intro unchanged
      refine .inl (restored_of_tree (funext fun rel => ?_))
      by_cases written : Written s staged seed rel
      · obtain ⟨pend, mem, rfl⟩ := List.mem_map.mp (mem_pending_paths.mpr written)
        exact (merged.written pend mem).trans (unchanged pend mem).symm
      · exact merged.others rel written

/-! ## The order of the enumeration -/

theorem replaceable_perm (same : staged'.files.Perm staged.files) :
    replaceable host staged' seed = replaceable host staged seed := by
  funext rel
  have listed : staged'.paths.contains rel = staged.paths.contains rel :=
    (same.map Prod.fst).contains_eq
  simp only [replaceable, listed]

theorem taken_perm (same : staged'.files.Perm staged.files) : taken host staged' seed = taken host staged seed := by
  funext rel
  simp only [taken, blocked, replaceable_perm same]

theorem pending_perm (same : staged'.files.Perm staged.files) :
    (pending host staged' seed).Perm (pending host staged seed) := by
  unfold pending
  rw [taken_perm same]
  exact same.filter _

theorem conflicts_perm (same : staged'.files.Perm staged.files) :
    (conflicts host staged' seed).Perm (conflicts host staged seed) := by
  unfold conflicts
  rw [taken_perm same]
  exact (same.map Prod.fst).filter _

theorem Merged.perm (h : Merged s staged seed t) (h' : Merged s staged' seed u)
    (same : staged'.files.Perm staged.files) : u.tree = t.tree := by
  have written (rel : Rel) : Written s staged' seed rel ↔ Written s staged seed rel := by
    unfold Written
    rw [taken_perm same]
    exact and_congr_left (fun _ => (same.map Prod.fst).mem_iff)
  funext rel
  by_cases chosen : Written s staged seed rel
  · obtain ⟨file, mem, rfl⟩ := List.mem_map.mp (mem_pending_paths.mpr chosen)
    exact (h'.written file ((pending_perm same).mem_iff.mpr mem)).trans (h.written file mem).symm
  · exact (h'.others rel (fun other => chosen ((written rel).mp other))).trans (h.others rel chosen).symm

theorem merged_of_returned {result : ℕ × List Rel} (returned : mergeTreeKeepHost env staged seed s = (.ok result, t)) :
    result = ((pending s.tree staged seed).length, conflicts s.tree staged seed) ∧ Merged s staged seed t ∧
      (Commits env s staged seed → env.cleanup = .finished) ∧
      (¬ Commits env s staged seed → pending s.tree staged seed = []) := by
  have ended := merge_spec env staged seed s s rfl
  rw [returned] at ended
  obtain ⟨same, ⟨nothing, rfl⟩ | ⟨commits, cleanup, u, committing, state⟩⟩ := ended
  · exact ⟨same, merged_of_nothing nothing, fun commits => absurd nothing commits.something, fun _ => nothing⟩
  · rw [cleanup] at state
    exact ⟨same, committing.merged (by rw [state]; rfl), fun _ => cleanup, fun stopped => absurd commits stopped⟩

theorem orderFree (env : Env) (s : State) (staged : Staged) (seed : Option Tree) : OrderFree env s staged seed := by
  intro env' staged' copied copied' reported reported' t t' same returned returned'
  obtain ⟨result, merged, -⟩ := merged_of_returned returned
  obtain ⟨result', merged', -⟩ := merged_of_returned returned'
  obtain ⟨rfl, rfl⟩ := Prod.mk.inj result
  obtain ⟨rfl, rfl⟩ := Prod.mk.inj result'
  exact ⟨merged.perm merged' same, (pending_perm same).length_eq, conflicts_perm same⟩

/-- Nothing is mixed where nothing is written. -/
theorem unmixed_of_nothing (nothing : pending s.tree staged seed = []) : Unmixed s staged seed := by
  refine unmixed_iff.mpr (fun base rel mem b file kept rel' mem' written => ?_)
  have among := mem_pending_paths.mpr written
  rw [nothing] at among
  cases among

end outcome

/-- The merge does what it is for exactly where, once everything is committed, no database is mixed and the
cleanup removes no original before it fails. -/
theorem merge_safe_iff (env : Env) (staged : Staged) (seed : Option Tree) (s : State) :
    (Safe s staged seed (mergeTreeKeepHost env staged seed s) ∧ OrderFree env s staged seed) ↔
      (Commits env s staged seed → Harmless env s staged seed) := by
  rw [and_iff_left (orderFree env s staged seed)]
  rcases run : mergeTreeKeepHost env staged seed s with ⟨exc | result, t⟩
  · have ended := merge_spec env staged seed s s rfl
    rw [run] at ended
    change Restored s t ∨ Preserved s t ↔ _
    rcases ended with ⟨stopped, same | recoverable⟩ | ⟨commits, unfinished, committed⟩
    · exact iff_of_true (.inl (restored_of_tree same)) (fun commits => absurd commits stopped)
    · exact iff_of_true (.inr recoverable.preserved) (fun commits => absurd commits stopped)
    · rw [raised_harmless_iff unfinished committed]
      exact ⟨fun harmless _ => harmless, fun harmless => harmless commits⟩
  · obtain ⟨rfl, merged, finished, nothing⟩ := merged_of_returned run
    change Settled s t staged seed (conflicts s.tree staged seed) ↔ _
    rw [merged.settled_iff]
    constructor
    · intro unmixed commits
      unfold Harmless
      rw [finished commits]
      exact unmixed
    · intro harmless
      by_cases commits : Commits env s staged seed
      · have unmixed := harmless commits
        unfold Harmless at unmixed
        rwa [finished commits] at unmixed
      · exact unmixed_of_nothing (nothing commits)

def calm : Env where
  mkdir := .none
  prepare := fun _ => .none
  parent := fun _ => .none
  backUp := fun _ => .none
  replace := fun _ => .none
  restore := fun _ => .none
  cleanup := .finished

def database : Rel := ⟨[], ['a', 'p', 'p', '.', 'd', 'b']⟩

/-- The host has the write-ahead log of a database that it does not have. -/
def orphaned : State where
  tree := fun rel => if rel = database.sidecar ['-', 'w', 'a', 'l'] then some (.file [1]) else none
  transaction := false
  new := fun _ => none
  old := fun _ => none
  written := []

def rescued : Staged where
  files := [(database, [2])]
  nodup := by decide

theorem orphaned_log_mixed : ¬ ∀ (env : Env) (staged : Staged) (seed : Option Tree) (s : State),
    Safe s staged seed (mergeTreeKeepHost env staged seed s) ∧ OrderFree env s staged seed := by
  intro claim
  obtain ⟨safe, -⟩ := claim calm rescued none orphaned
  have ran : ∃ t, mergeTreeKeepHost calm rescued none orphaned = (.ok (1, []), t) ∧
      t.tree database = some (.file [2]) ∧ t.tree (database.sidecar ['-', 'w', 'a', 'l']) = some (.file [1]) :=
    ⟨_, rfl, rfl, rfl⟩
  obtain ⟨t, run, main, log⟩ := ran
  rw [run] at safe
  rcases safe.oneSided database with container | host
  · have staged := container (database.sidecar ['-', 'w', 'a', 'l']) (by decide) [1] log
    exact absurd staged.1 (by decide)
  · exact host database (by decide) [2] main ⟨by decide, by decide⟩

end LocalWebAccess.RescueMerge
