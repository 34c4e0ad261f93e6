import Mathlib.Data.Finset.Card
import Mathlib.Data.Finset.SDiff

/-!
# Chains of parents

Every node is a root with a value, or lost, or has a parent and a label. A search that goes up from parent to
parent, and gives up when it meets a node it has been at, arrives exactly at the nodes that a finite chain
connects to a root. Parents may form cycles.
-/

namespace LocalWebAccess.ParentChains

inductive Link (κ ρ ℓ : Type) where
  | root (value : ρ)
  | lost
  | up (parent : κ) (label : ℓ)

variable {κ ρ ℓ : Type} {link : κ → Link κ ρ ℓ} {join : ρ → ℓ → ρ}

/-- A chain of parents goes from the node up to a root; the labels on it make up the value. -/
inductive Arrives (link : κ → Link κ ρ ℓ) (join : ρ → ℓ → ρ) : κ → ρ → Prop
  | root {k : κ} {value : ρ} (here : link k = .root value) : Arrives link join k value
  | up {k parent : κ} {label : ℓ} {value : ρ} (here : link k = .up parent label)
      (above : Arrives link join parent value) : Arrives link join k (join value label)

/-- What a search with the nodes that it has seen gives: a value, and whether it has got to a root. -/
structure Climbs (link : κ → Link κ ρ ℓ) (join : ρ → ℓ → ρ) (search : List κ → κ → ρ × Bool) : Prop where
  seen : ∀ {seen k}, k ∈ seen → (∀ value, link k ≠ .root value) → (search seen k).2 = false
  root : ∀ {seen k value}, k ∉ seen → link k = .root value → search seen k = (value, true)
  lost : ∀ {seen k}, k ∉ seen → link k = .lost → (search seen k).2 = false
  up : ∀ {seen k parent label}, k ∉ seen → link k = .up parent label →
    (search seen k).2 = (search (k :: seen) parent).2 ∧
    ((search (k :: seen) parent).2 = true → (search seen k).1 = join (search (k :: seen) parent).1 label)

variable {search : List κ → κ → ρ × Bool} {k : κ} {value : ρ}

/-- The chain above a node is as long as it is. -/
inductive Height (link : κ → Link κ ρ ℓ) : κ → ℕ → Prop
  | root {k : κ} {value : ρ} (here : link k = .root value) : Height link k 0
  | up {k parent : κ} {label : ℓ} {n : ℕ} (here : link k = .up parent label) (above : Height link parent n) :
      Height link k (n + 1)

theorem Height.unique {n m : ℕ} (h : Height link k n) (h' : Height link k m) : n = m := by
  induction h generalizing m with
  | root here =>
    cases h' with
    | root _ => rfl
    | up other _ => exact absurd (here.symm.trans other) (by simp)
  | up here _ ih =>
    cases h' with
    | root other => exact absurd (here.symm.trans other) (by simp)
    | up other above =>
      have same := here.symm.trans other
      cases same
      rw [ih above]

/-- A search arrives if it has seen none of the nodes above the one it begins at. -/
theorem Climbs.arrives (h : Climbs link join search) (arrives : Arrives link join k value) :
    ∀ seen, (∃ n, Height link k n ∧ ∀ j ∈ seen, ∀ m, Height link j m → n < m) → search seen k = (value, true) := by
  induction arrives with
  | root here =>
    intro seen low
    obtain ⟨n, height, above⟩ := low
    have unseen : _ ∉ seen := fun inside => Nat.lt_irrefl n (above _ inside n height)
    exact h.root unseen here
  | up here _ ih =>
    intro seen low
    obtain ⟨n, height, above⟩ := low
    have unseen : _ ∉ seen := fun inside => Nat.lt_irrefl n (above _ inside n height)
    cases height with
    | root other => exact absurd (here.symm.trans other) (by simp)
    | @up _ _ _ n other height' =>
      have same := here.symm.trans other
      cases same
      have found := ih (_ :: seen) ⟨n, height', fun j inside m tall => by
        cases inside with
        | head => rw [tall.unique (.up here height')]; omega
        | tail _ inside =>
          have := above j inside m tall
          omega⟩
      obtain ⟨arrived, joined⟩ := h.up unseen here
      rw [found] at arrived joined
      exact Prod.ext (joined rfl) arrived

theorem Arrives.height (h : Arrives link join k value) : ∃ n, Height link k n := by
  induction h with
  | root here => exact ⟨0, .root here⟩
  | up here _ ih =>
    obtain ⟨n, height⟩ := ih
    exact ⟨n + 1, .up here height⟩

variable [DecidableEq κ]

theorem card_sdiff_cons_lt {nodes seen : List κ} (among : k ∈ nodes) (unseen : k ∉ seen) :
    (nodes.toFinset \ (k :: seen).toFinset).card < (nodes.toFinset \ seen.toFinset).card := by
  refine Finset.card_lt_card ((Finset.ssubset_iff_of_subset ?_).mpr ⟨k, ?_, ?_⟩)
  · intro j inside
    simp only [Finset.mem_sdiff, List.mem_toFinset, List.mem_cons, not_or] at inside ⊢
    exact ⟨inside.1, inside.2.2⟩
  · simp only [Finset.mem_sdiff, List.mem_toFinset]
    exact ⟨among, unseen⟩
  · simp

/-- Where a search says that it has arrived, there is a chain. -/
theorem Climbs.chain (h : Climbs link join search) (nodes : List κ)
    (listed : ∀ {k parent label}, link k = .up parent label → k ∈ nodes) (seen : List κ)
    (passed : ∀ j ∈ seen, ∀ value, link j ≠ .root value) (arrived : search seen k = (value, true)) :
    Arrives link join k value := by
  induction left : (nodes.toFinset \ seen.toFinset).card using Nat.strong_induction_on generalizing seen k value with
  | _ n ih =>
    have unseen : k ∉ seen := by
      intro inside
      have stopped := h.seen inside (passed k inside)
      rw [arrived] at stopped
      cases stopped
    cases here : link k with
    | root own =>
      have found := (h.root unseen here).symm.trans arrived
      cases found
      exact .root here
    | lost =>
      have stopped := h.lost unseen here
      rw [arrived] at stopped
      cases stopped
    | up parent label =>
      obtain ⟨same, joined⟩ := h.up unseen here
      rw [arrived] at same joined
      have fewer := card_sdiff_cons_lt (listed here) unseen
      have above := ih _ (left ▸ fewer) (k :: seen) (fun j inside own => by
        cases inside with
        | head => rw [here]; simp
        | tail _ inside => exact passed j inside own) (Prod.ext rfl same.symm) rfl
      rw [show value = join _ label from joined same.symm]
      exact .up here above

/-- From a fresh start, a search arrives exactly where a chain does. -/
theorem Climbs.iff (h : Climbs link join search) (nodes : List κ)
    (listed : ∀ {k parent label}, link k = .up parent label → k ∈ nodes) :
    search [] k = (value, true) ↔ Arrives link join k value := by
  constructor
  · intro arrived
    exact h.chain nodes listed [] (fun j inside => absurd inside List.not_mem_nil) arrived
  · intro arrives
    obtain ⟨n, height⟩ := arrives.height
    exact h.arrives arrives [] ⟨n, height, fun j inside => absurd inside List.not_mem_nil⟩

theorem Climbs.not_arrived_iff (h : Climbs link join search) (nodes : List κ)
    (listed : ∀ {k parent label}, link k = .up parent label → k ∈ nodes) :
    (search [] k).2 = false ↔ ∀ value, ¬Arrives link join k value := by
  constructor
  · intro stopped value arrives
    rw [(h.iff nodes listed).mpr arrives] at stopped
    cases stopped
  · intro none_arrives
    refine Bool.eq_false_iff.mpr fun arrived => none_arrives (search [] k).1 ?_
    exact (h.iff nodes listed).mp (Prod.ext rfl arrived)

end LocalWebAccess.ParentChains
