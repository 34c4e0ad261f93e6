import LocalWebAccess.KeyedTables

/-!
# Rows that refer to the rows of another table

A row may name its owner. It is an orphan if no owner of that name is known.
-/
namespace LocalWebAccess.OwnedRows
open KeyedTables

variable {κ ν ρ : Type}

/-- The owners named by orphans; a row without an owner is none. -/
def orphans (known : κ → Bool) (owners : List (Option κ)) : List κ :=
  (owners.filterMap id).filter fun k => !known k

/-- Rows may have gone, and rows of known owners may have been added. -/
def Tended (known : κ → Bool) (before after : List (Option κ)) : Prop :=
  ∃ added : List (Option κ), (∀ k, some k ∈ added → known k = true) ∧ after.Sublist (before ++ added)

variable {known known' : κ → Bool} {owners before after : List (Option κ)} {k : κ}

namespace Tended

theorem refl (known : κ → Bool) (owners : List (Option κ)) : Tended known owners owners :=
  ⟨[], fun _ among => absurd among List.not_mem_nil, by rw [List.append_nil]⟩

theorem of_eq (same : after = before) : Tended known before after := same ▸ refl known before

theorem append (owner : Option κ) (referred : ∀ k, owner = some k → known k = true) :
    Tended known before (before ++ [owner]) := by
  refine ⟨[owner], fun k among => referred k ?_, List.Sublist.refl _⟩
  exact (List.mem_singleton.mp among).symm

end Tended

/-! ## Tables whose key is the owner -/

section

variable [DecidableEq κ]

end

end LocalWebAccess.OwnedRows
