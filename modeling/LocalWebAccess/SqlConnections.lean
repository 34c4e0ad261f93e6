import LocalWebAccess.RaisingPrograms

/-!
# Connections to a transactional database

A connection writes to its open transaction, or to the database itself where it has none. The
environment decides how each statement goes: it may fail, and its failure may end the transaction.
The rules say what a transaction makes of the database whatever way its statements go.
-/
namespace LocalWebAccess.SqlConnections

open RaisingPrograms RaisingPrograms.Prog

variable {ε δ α β : Type}

/-- A statement that fails raises, and leaves its transaction open or rolled back. -/
structure Failure (ε : Type) where
  raised : ε
  rolledBack : Bool

/-- A connection to a database with contents `δ`. The statements beyond its outlook succeed. -/
structure Connection (ε δ : Type) where
  committed : δ
  working : Option δ
  outlook : List (Option (Failure ε))

namespace Connection

def idle (d : δ) (outlook : List (Option (Failure ε))) : Connection ε δ := ⟨d, none, outlook⟩

/-- What the connection reads. -/
def contents (c : Connection ε δ) : δ := c.working.getD c.committed

def write (change : δ → δ) (c : Connection ε δ) : Connection ε δ :=
  match c.working with
  | some d => { c with working := some (change d) }
  | none => { c with committed := change c.committed }

end Connection

/-- One statement fails, or is about to take effect. -/
def attempt : Prog ε (Connection ε δ) Unit := fun c =>
  match c.outlook with
  | [] => (.ok (), c)
  | none :: rest => (.ok (), { c with outlook := rest })
  | some failure :: rest =>
    (.error failure.raised,
      { c with working := if failure.rolledBack then none else c.working, outlook := rest })

/-- A statement that writes. -/
def execute (change : δ → δ) : Prog ε (Connection ε δ) Unit := do
  attempt
  modify fun c => c.write change

/-- A statement that reads. -/
def select (query : δ → α) : Prog ε (Connection ε δ) α := do
  attempt
  let c ← get
  pure (query c.contents)

/-- A statement that writes, and reports on what it has found. -/
def executeReporting (report : δ → α) (change : δ → δ) : Prog ε (Connection ε δ) α := do
  attempt
  let c ← get
  modify fun c => c.write change
  pure (report c.contents)

def inTransaction : Prog ε (Connection ε δ) Bool := do
  let c ← get
  pure c.working.isSome

/-- `BEGIN IMMEDIATE`; a transaction that is open already makes it raise. -/
def beginImmediate (misuse : ε) : Prog ε (Connection ε δ) Unit := do
  attempt
  if ← inTransaction then raise misuse
  else modify fun c => { c with working := some c.committed }

/-- `COMMIT`; without a transaction it raises. -/
def commit (misuse : ε) : Prog ε (Connection ε δ) Unit := do
  attempt
  if ← inTransaction then modify fun c => { c with committed := c.contents, working := none }
  else raise misuse

/-- `ROLLBACK`; it ends every open transaction, and raises without one. -/
def rollback (misuse : ε) : Prog ε (Connection ε δ) Unit := do
  if ← inTransaction then modify fun c => { c with working := none }
  else raise misuse

/-! ## The states of a connection -/

/-- No transaction is open on the database with these contents. -/
def Idle (d : δ) (c : Connection ε δ) : Prop := c.committed = d ∧ c.working = none

/-- A transaction is open on the database with these contents, and has written these ones. -/
def Within (before d : δ) (c : Connection ε δ) : Prop := c.committed = before ∧ c.working = some d

/-- Nothing has been committed to the database with these contents. -/
def Uncommitted (before : δ) (c : Connection ε δ) : Prop := c.committed = before

theorem idle_idle (d : δ) (outlook : List (Option (Failure ε))) : Idle d (Connection.idle d outlook) := ⟨rfl, rfl⟩

/-- In a transaction that has written `d`, the program returns `a` and has written `d'`, or it raises
and has committed nothing. -/
def Writes (p : Prog ε (Connection ε δ) α) (d : δ) (a : α) (d' : δ) : Prop :=
  ∀ before, Triple (Within before d) p (fun r c => r = a ∧ Within before d' c) (fun _ => Uncommitted before)

variable {before d d' d'' : δ} {a : α} {b : β}

/-! ## The rules of the statements -/

theorem writes_pure (a : α) (d : δ) : Writes (pure a : Prog ε (Connection ε δ) α) d a d := by
  intro before
  exact triple_pure fun _ within => ⟨rfl, within⟩

theorem Writes.bind {p : Prog ε (Connection ε δ) α} {f : α → Prog ε (Connection ε δ) β}
    (first : Writes p d a d') (second : Writes (f a) d' b d'') : Writes (p >>= f) d b d'' := by
  intro before
  refine (first before).bind fun r => ?_
  rintro c ⟨rfl, within⟩
  exact second before c within

/-- Only what is returned has to be written. -/
theorem writes_ofExcept {result : Except ε α} {f : α → Prog ε (Connection ε δ) β}
    (rest : ∀ a, result = .ok a → Writes (f a) d b d') : Writes (ofExcept result >>= f) d b d' := fun before =>
  triple_ofExcept_bind (fun a returned => rest a returned before) fun _ _ within => within.1

/-- A loop writes what its rounds write one after the other. -/
theorem writes_forEach {f : α → Prog ε (Connection ε δ) Unit} {written : δ → α → δ}
    (each : ∀ a d, Writes (f a) d () (written d a)) (all : List α) (d : δ) :
    Writes (forEach f all) d () (all.foldl written d) := by
  induction all generalizing d with
  | nil => exact writes_pure () d
  | cons a rest ih => exact (each a d).bind (ih (written d a))

/-- A statement that fails commits nothing, whether or not it ends the transaction. -/
theorem writes_attempt (d : δ) : Writes (attempt : Prog ε (Connection ε δ) Unit) d () d := by
  rintro before ⟨committed, working, outlook⟩ ⟨same, opened⟩
  rcases outlook with _ | ⟨_ | failure, rest⟩
  · exact ⟨rfl, same, opened⟩
  · exact ⟨rfl, same, opened⟩
  · exact same

theorem writes_execute (change : δ → δ) (d : δ) :
    Writes (execute change : Prog ε (Connection ε δ) Unit) d () (change d) := by
  refine (writes_attempt d).bind fun before => triple_modify ?_
  rintro ⟨committed, working, outlook⟩ ⟨same, rfl⟩
  exact ⟨rfl, same, rfl⟩

theorem writes_select (query : δ → α) (d : δ) :
    Writes (select query : Prog ε (Connection ε δ) α) d (query d) d := by
  refine (writes_attempt d).bind fun before => triple_get ?_
  rintro ⟨committed, working, outlook⟩ ⟨same, rfl⟩
  apply triple_pure
  rintro _ rfl
  exact ⟨rfl, same, rfl⟩

theorem writes_executeReporting (report : δ → α) (change : δ → δ) (d : δ) :
    Writes (executeReporting report change : Prog ε (Connection ε δ) α) d (report d) (change d) := by
  refine (writes_attempt d).bind fun before => triple_get ?_
  rintro ⟨committed, working, outlook⟩ ⟨same, rfl⟩
  rintro _ rfl
  exact ⟨rfl, same, rfl⟩

theorem writes_inTransaction (d : δ) : Writes (inTransaction : Prog ε (Connection ε δ) Bool) d true d := by
  rintro before ⟨committed, working, outlook⟩ ⟨same, rfl⟩
  exact ⟨rfl, same, rfl⟩

/-- A handler that only raises again changes nothing. -/
theorem Writes.handle_raise {p : Prog ε (Connection ε δ) α} (written : Writes p d a d') :
    Writes (handle p fun e => raise e) d a d' := by
  intro before
  exact (written before).handle fun e => triple_raise fun _ uncommitted => uncommitted

/-! ## The rules of a transaction -/

theorem inTransaction_idle : Triple (Idle before) (inTransaction : Prog ε (Connection ε δ) Bool)
    (fun opened c => opened = false ∧ Idle before c) (fun _ => Idle before) := by
  rintro ⟨committed, working, outlook⟩ ⟨same, rfl⟩
  exact ⟨rfl, same, rfl⟩

theorem attempt_idle : Triple (Idle before) (attempt : Prog ε (Connection ε δ) Unit)
    (fun _ => Idle before) (fun _ => Idle before) := by
  rintro ⟨committed, working, outlook⟩ ⟨same, closed⟩
  rcases outlook with _ | ⟨_ | failure, rest⟩
  · exact ⟨same, closed⟩
  · exact ⟨same, closed⟩
  · refine ⟨same, ?_⟩
    change (if failure.rolledBack then none else working) = none
    split
    · rfl
    · exact closed

theorem beginImmediate_idle (misuse : ε) :
    Triple (Idle before) (beginImmediate misuse : Prog ε (Connection ε δ) Unit)
      (fun _ => Within before before) (fun _ => Idle before) := by
  refine attempt_idle.bind fun _ => ?_
  rintro ⟨committed, working, outlook⟩ ⟨rfl, rfl⟩
  exact ⟨rfl, rfl⟩

theorem commit_within (misuse : ε) : Triple (Within before d) (commit misuse : Prog ε (Connection ε δ) Unit)
    (fun _ => Idle d) (fun _ => Uncommitted before) := by
  refine Triple.bind (Q := fun _ => Within before d) ?_ fun _ => ?_
  · exact (writes_attempt d before).consequence (fun _ h => h) (fun _ _ h => h.2) (fun _ _ h => h)
  · rintro ⟨committed, working, outlook⟩ ⟨same, rfl⟩
    exact ⟨rfl, rfl⟩

/-- Whether or not the transaction is still open, its handler leaves the database as it was before. -/
theorem rollback_inTransaction {Q : α → Connection ε δ → Prop} (misuse e : ε) :
    Triple (Uncommitted before)
      (do
        if ← inTransaction then rollback misuse
        raise e : Prog ε (Connection ε δ) α) Q (fun _ => Idle before) := by
  rintro ⟨committed, working, outlook⟩ rfl
  cases working <;> exact ⟨rfl, rfl⟩

/-- So does a handler that does not ask whether the transaction is still open. -/
theorem rollback_raise {Q : α → Connection ε δ → Prop} (misuse e : ε) :
    Triple (Uncommitted before)
      (do
        rollback misuse
        raise e : Prog ε (Connection ε δ) α) Q (fun _ => Idle before) := by
  rintro ⟨committed, working, outlook⟩ rfl
  cases working <;> exact ⟨rfl, rfl⟩

/-- A transaction whose handler rolls it back commits all that its body has written, or nothing. -/
theorem transaction {body : Prog ε (Connection ε δ) α} {handler : ε → Prog ε (Connection ε δ) α} (misuse : ε)
    (written : Writes body before a d)
    (undone : ∀ e, Triple (Uncommitted before) (handler e) (fun r c => r = a ∧ Idle d c) (fun _ => Idle before)) :
    Triple (Idle before)
      (do
        beginImmediate misuse
        handle
          (do
            let r ← body
            commit misuse
            pure r)
          handler : Prog ε (Connection ε δ) α)
      (fun r c => r = a ∧ Idle d c) (fun _ => Idle before) := by
  refine (beginImmediate_idle misuse).bind fun _ => Triple.handle ?_ undone
  refine (written before).bind fun r => ?_
  rintro c ⟨rfl, within⟩
  exact Triple.bind (commit_within misuse) (fun _ => triple_pure fun _ closed => ⟨rfl, closed⟩) c within

/-- A transaction that returns nothing. -/
theorem transaction_unit {body : Prog ε (Connection ε δ) Unit} {handler : ε → Prog ε (Connection ε δ) Unit}
    (misuse : ε) (written : Writes body before () d)
    (undone : ∀ e, Triple (Uncommitted before) (handler e) (fun _ => Idle d) (fun _ => Idle before)) :
    Triple (Idle before)
      (do
        beginImmediate misuse
        handle
          (do
            body
            commit misuse)
          handler : Prog ε (Connection ε δ) Unit)
      (fun _ => Idle d) (fun _ => Idle before) := by
  have whole := transaction misuse written fun e => (undone e).consequence (fun _ h => h)
    (fun _ _ closed => ⟨rfl, closed⟩) (fun _ _ h => h)
  simp only [bind_pure_unit] at whole
  exact whole.consequence (fun _ h => h) (fun _ _ h => h.2) (fun _ _ h => h)

end LocalWebAccess.SqlConnections
