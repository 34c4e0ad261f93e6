import Mathlib.Data.Finset.Card
import Mathlib.Data.List.Sort

/-!
# Pages that go on after a key

The rows are sorted by their keys, and a page takes the first ones after the key that the page before has ended
with. Each page is read from the rows that there are at that time.
-/
namespace LocalWebAccess.KeysetPages

variable {κ ρ : Type} [LinearOrder κ] (key : ρ → κ)

/-- A page, and the key after which the next one goes on. -/
structure Page (κ ρ : Type) where
  rows : List ρ
  next : Option κ

def sorted (rows : List ρ) : List ρ := rows.insertionSort fun a b => key a ≤ key b

/-- The sorted rows after a key. -/
def rest (after : Option κ) (rows : List ρ) : List ρ :=
  (sorted key rows).filter fun row => after.all (· < key row)

def page (limit : ℕ) (after : Option κ) (rows : List ρ) : Page κ ρ :=
  let rest := rest key after rows
  { rows := rest.take limit
    next := if limit < rest.length then (rest.take limit).getLast?.map key else none }

/-- The pages one after the other, each read from the rows of its time; `none` if the last page is not at the last
time. -/
def walk (limit : ℕ) : Option κ → List (List ρ) → Option (List ρ)
  | _, [] => none
  | after, rows :: later =>
    match (page key limit after rows).next with
    | none => if later.isEmpty then some (page key limit after rows).rows else none
    | some k => (walk limit (some k) later).map ((page key limit after rows).rows ++ ·)

variable {key} {limit : ℕ} {after : Option κ} {rows out : List ρ} {times : List (List ρ)} {k : κ} {row : ρ}

/-- Rows of distinct keys. -/
def Keyed (key : ρ → κ) (rows : List ρ) : Prop := (rows.map key).Nodup

end LocalWebAccess.KeysetPages
