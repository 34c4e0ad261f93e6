import LocalWebAccess.DatabaseFile

/-!
# When a regenerated env file keeps the database

`generate_env` writes file names into URLs as they are, it looks for quotes but not for comments
in an old value, and it copies the database of the source before it looks at the data directory.
-/
namespace LocalWebAccess.DatabaseFile
open PythonText EnvLines SqliteUrls

variable {i : Instance} {text : List Char} {data : DataDir} {old url query : List Char} {name found : Name}

/-! ## What is written -/

/-- What becomes of a URL. -/
inductive Choice
  | keeps
  | moves (found : Name)
  | refuses
  deriving DecidableEq

/-- The decision table, for a reading of a URL. -/
def choice (data : DataDir) (reading : Option (Name × List Char)) : Choice :=
  match reading with
  | none => .keeps
  | some (name, _) =>
    match resolveDbFilename data name with
    | none => .refuses
    | some found => if found = name then .keeps else .moves found

/-- The decision that the program makes is the one for the file that the container is given:
the tables agree on the two readings, or the table moves to the very file of the value. -/
def Agrees (data : DataDir) (old : List Char) : Prop :=
  choice data (dotenvReading old) = choice data (codeReading old) ∨
    ∃ name query found, codeReading old = some (name, query) ∧ resolveDbFilename data name = some found ∧
      found ≠ name ∧ dotenvReading old = some (found, rstrip query)

/-- The database that is copied from the source has data only where there is no other database. -/
def CopiesAlone (i : Instance) (data : DataDir) : Prop :=
  ∀ size, i.source = some size → 0 < size → defaultName i ∉ data.map Prod.fst → others data (defaultName i) = []

/-- What the copy changes. -/
theorem copySource_cases (i : Instance) (data : DataDir) :
    copySource i data = data ∨ ∃ size, i.source = some size ∧ defaultName i ∉ data.map Prod.fst ∧
      copySource i data = (defaultName i, some size) :: data := by
  unfold copySource
  split
  · next size sourced =>
    split_ifs with there
    · exact .inl rfl
    · exact .inr ⟨size, sourced, there, rfl⟩
  · exact .inl rfl

theorem nonEmpty_cons {size : ℕ} :
    NonEmpty ((found, some size) :: data) name ↔ found = name ∧ 0 < size ∨ NonEmpty data name := by
  simp [NonEmpty]

theorem others_cons_self (size : Option ℕ) : others ((name, size) :: data) name = others data name := by
  unfold others scanExistingDbFiles
  rw [List.filter_cons]
  split_ifs <;> simp

/-- Where the copy is alone the inventory decides as before it. -/
theorem CopiesAlone.resolve (alone : CopiesAlone i data) (empty : ¬ NonEmpty data (defaultName i))
    (some : others data (defaultName i) ≠ []) :
    resolveDbFilename (copySource i data) (defaultName i) = resolveDbFilename data (defaultName i) := by
  rcases copySource_cases i data with same | ⟨size, sourced, absent, copied⟩
  · rw [same]
  · have nothing : ¬ 0 < size := fun filled => some (alone size sourced filled absent)
    have still : ¬ NonEmpty (copySource i data) (defaultName i) := by
      rw [copied, nonEmpty_cons]
      rintro (⟨-, filled⟩ | filled)
      · exact nothing filled
      · exact empty filled
    rw [resolveDbFilename, resolveDbFilename, if_neg still, if_neg empty, copied, others_cons_self]

end LocalWebAccess.DatabaseFile
