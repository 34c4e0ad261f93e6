import LocalWebAccess.RegistryStore
import Mathlib.Algebra.GroupWithZero.Nat

/-!
# Orphans in the registry

A row of a child table is an orphan if its instance is not there. Over connections with foreign keys no call
makes one, so that neither the deletion of an instance nor what comes after it leaves rows to a later instance
of the same name.
-/
namespace LocalWebAccess.RegistryStore
open GuardedRuns KeyedTables OwnedRows UpdateTransaction

variable {Json : Type} {s t : Store Json} {id : String} {table : ChildTable} {as : List (Action Json)}

/-- Known instances stay known, and no row refers to an unknown one that did not before. -/
structure Tends (s t : Store Json) : Prop where
  known : ∀ id, s.instanceExists id = true → t.instanceExists id = true
  owners : ∀ table, Tended t.instanceExists (s.owners table) (t.owners table)

/-- No table has more orphans than before. -/
def NoMoreOrphans (s t : Store Json) : Prop :=
  ∀ table, (orphans t.instanceExists (t.owners table)).Sublist (orphans s.instanceExists (s.owners table))

theorem NoMoreOrphans.refl (s : Store Json) : NoMoreOrphans s s := fun _ => List.Sublist.refl _

/-- Only `upsert_from_manifest` adds an instance. -/
def Call.adds (id : String) : Call Json → Prop
  | .upsertFromManifest _ manifest => manifest.id = id
  | _ => False

/-- Calls that do not delete by owner tend the rows, over a connection with foreign keys. -/
inductive Effect (foreignKeys : Bool) (s : Store Json) (call : Call Json) : Store Json → Prop
  | tends {t : Store Json} (absent : ∀ id, ¬call.adds id → s.instanceExists id = false → t.instanceExists id = false)
      (tends : foreignKeys = true → Tends s t) : Effect foreignKeys s call t
  | forgets (id : String) : Effect foreignKeys s call (s.forget id)
  | purges : Effect foreignKeys s call (s.without s.orphaned)

section

variable {foreignKeys : Bool} {call : Call Json} {now : String} {answer : Answer}

end

/-! ## Orphans -/

end LocalWebAccess.RegistryStore
