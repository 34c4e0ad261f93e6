import Mathlib.Data.Fintype.Card
import Mathlib.Data.Fintype.Sets
import Mathlib.Data.Fintype.EquivFin
import Mathlib.Order.WellFounded
import Mathlib.Logic.Relation

/-!
# Orders of a graph

A list in which the successors of every vertex stand before it. A finite set of vertices that all have a
successor in the set has a cycle.
-/
namespace LocalWebAccess.GraphOrders

open Relation

variable {ν μ : Type*} {E : ν → ν → Prop} {order : List ν}

/-- `b` stands before `a`. -/
def Before (order : List ν) (b a : ν) : Prop :=
  ∃ before after, order = before ++ a :: after ∧ b ∈ before

/-- All successors of a vertex stand before it. -/
def Settled (E : ν → ν → Prop) (order : List ν) : Prop :=
  ∀ before a after, order = before ++ a :: after → ∀ b, E a b → b ∈ before

theorem Settled.nil : Settled E [] := by
  intro before a after split
  simp at split

theorem Settled.concat {a : ν} (settled : Settled E order) (closed : ∀ b, E a b → b ∈ order) :
    Settled E (order ++ [a]) := by
  intro before x after split b edge
  obtain rfl | ⟨after, last, rfl⟩ := List.eq_nil_or_concat after
  · obtain ⟨rfl, same⟩ := List.append_inj' split rfl
    obtain rfl : a = x := by simpa using same
    exact closed b edge
  · rw [List.concat_eq_append, ← List.cons_append, ← List.append_assoc] at split
    exact settled before x after (List.append_inj' split rfl).1 b edge

theorem Before.mem {a b : ν} (stands : Before order b a) : b ∈ order ∧ a ∈ order := by
  obtain ⟨before, after, rfl, mem⟩ := stands
  exact ⟨List.mem_append_left _ mem, by simp⟩

theorem Before.ne {a b : ν} (nodup : order.Nodup) (stands : Before order b a) : b ≠ a := by
  obtain ⟨before, after, rfl, mem⟩ := stands
  rintro rfl
  exact List.disjoint_of_nodup_append nodup mem List.mem_cons_self

/-- Dropping some vertices and renaming the others keeps the order. -/
theorem Before.filterMap {f : ν → Option μ} {a b : ν} {x y : μ} (stands : Before order b a) (hb : f b = some y)
    (ha : f a = some x) : Before (order.filterMap f) y x := by
  obtain ⟨before, after, rfl, mem⟩ := stands
  refine ⟨before.filterMap f, after.filterMap f, ?_, List.mem_filterMap.mpr ⟨b, mem, hb⟩⟩
  rw [List.filterMap_append, List.filterMap_cons_some ha]

/-- Whatever a vertex leads to stands before it. -/
theorem Settled.before {a b : ν} (settled : Settled E order) (mem : a ∈ order) (leads : TransGen E a b) :
    Before order b a := by
  induction leads with
  | single edge =>
    obtain ⟨before, after, split⟩ := List.append_of_mem mem
    exact ⟨before, after, split, settled before a after split _ edge⟩
  | tail _ edge ih =>
    obtain ⟨before, after, split, found⟩ := ih
    obtain ⟨front, back, rfl⟩ := List.append_of_mem found
    refine ⟨front ++ _ :: back, after, split, List.mem_append_left _ ?_⟩
    exact settled front _ (back ++ a :: after) (by simp [split]) _ edge

theorem Settled.acyclic {a : ν} (settled : Settled E order) (nodup : order.Nodup) (mem : a ∈ order) :
    ¬TransGen E a a :=
  fun leads => (settled.before mem leads).ne nodup rfl

/-- A finite set in which every vertex has a successor has a cycle. -/
theorem exists_cycle {rest : Finset ν} (filled : rest.Nonempty) (next : ∀ a ∈ rest, ∃ b ∈ rest, E a b) :
    ∃ a ∈ rest, TransGen E a a := by
  by_contra none
  push Not at none
  let below : rest → rest → Prop := fun b a => TransGen E a.1 b.1
  have trans : IsTrans rest below := ⟨fun _ _ _ first second => second.trans first⟩
  have irrefl : Std.Irrefl below := ⟨fun a => none a.1 a.2⟩
  obtain ⟨start, mem⟩ := filled
  obtain ⟨least, -, minimal⟩ :=
    (Finite.wellFounded_of_trans_of_irrefl below).has_min Set.univ ⟨⟨start, mem⟩, trivial⟩
  obtain ⟨b, inside, edge⟩ := next least.1 least.2
  exact minimal ⟨b, inside⟩ trivial (.single edge)

/-- A cycle without loops has two vertices. -/
theorem exists_two_of_cycle {a : ν} (irrefl : ∀ x, ¬E x x) (leads : TransGen E a a) :
    ∃ b, a ≠ b ∧ ReflTransGen E a b ∧ ReflTransGen E b a := by
  obtain ⟨b, edge, back⟩ := TransGen.head'_iff.mp leads
  refine ⟨b, ?_, .single edge, back⟩
  rintro rfl
  exact irrefl a edge

/-- Loops are not needed to come from one vertex to another. -/
theorem transGen_of_ne {a b : ν} (leads : ReflTransGen E a b) (apart : a ≠ b) :
    TransGen (fun x y => E x y ∧ ReflTransGen E a x ∧ y ≠ x) a b := by
  induction leads with
  | refl => exact absurd rfl apart
  | @tail x y leads edge ih =>
    by_cases loop : y = x
    · subst loop
      exact ih apart
    · by_cases start : a = x
      · subst start
        exact .single ⟨edge, leads, loop⟩
      · exact (ih start).tail ⟨edge, leads, loop⟩

end LocalWebAccess.GraphOrders
