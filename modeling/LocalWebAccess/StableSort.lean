import Mathlib.Data.List.Sort

/-!
# Stable sorting by a key

A stable sort keeps the entries of one key in their order. So what has been sorted still tells, key by
key, the list it came from, and the whole list once the sequence of its keys is known.
-/
namespace LocalWebAccess.StableSort

variable {α κ : Type} {r : α → α → Prop} [DecidableRel r] {key : α → κ} [DecidableEq κ]

/-- Entries that may stand in either order stay in theirs. -/
theorem filter_insertionSort {p : α → Bool} (free : ∀ a b, p a = true → p b = true → r a b) (l : List α) :
    (l.insertionSort r).filter p = l.filter p := by
  have sorted : (l.filter p).Pairwise r := by
    apply List.pairwise_filter.mpr
    exact List.pairwise_of_forall fun a b inside inside' => free a b inside inside'
  have inside := (List.sublist_insertionSort sorted List.filter_sublist).filter p
  rw [List.filter_filter] at inside
  simp only [Bool.and_self] at inside
  exact (inside.eq_of_length ((List.perm_insertionSort r l).filter p).length_eq.symm).symm

/-- Lists that are the same after a stable sort have the same entries under every key. -/
theorem filter_eq_of_insertionSort_eq (ties : ∀ a b, key a = key b → r a b) {l l' : List α}
    (same : l.insertionSort r = l'.insertionSort r) (k : κ) :
    l.filter (fun a => key a = k) = l'.filter fun a => key a = k := by
  have free : ∀ a b, decide (key a = k) = true → decide (key b = k) = true → r a b := fun a b mine other =>
    ties a b ((of_decide_eq_true mine).trans (of_decide_eq_true other).symm)
  rw [← filter_insertionSort free l, same, filter_insertionSort free l']

/-- The entries under every key tell a list as far as the sequence of its keys is known. -/
theorem take_eq_of_filter_eq {l l' : List α} {n : ℕ} (keys : (l.map key).take n = (l'.map key).take n)
    (same : ∀ k, l.filter (fun a => key a = k) = l'.filter fun a => key a = k) : l.take n = l'.take n := by
  induction n generalizing l l' with
  | zero => rfl
  | succ n ih =>
    cases l with
    | nil =>
      cases l' with
      | nil => rfl
      | cons b l' => cases keys
    | cons a l =>
      cases l' with
      | nil => cases keys
      | cons b l' =>
        obtain ⟨first, others⟩ := List.cons.inj keys
        have mine := same (key a)
        rw [List.filter_cons_of_pos (by simp), List.filter_cons_of_pos (by simp [first])] at mine
        obtain ⟨rfl, -⟩ := List.cons.inj mine
        refine congrArg (a :: ·) (ih others fun k => ?_)
        have all := same k
        by_cases under : key a = k
        · rw [List.filter_cons_of_pos (by simp [under]), List.filter_cons_of_pos (by simp [under])] at all
          exact (List.cons.inj all).2
        · rwa [List.filter_cons_of_neg (by simp [under]), List.filter_cons_of_neg (by simp [under])] at all

/-- So does the list after a stable sort. -/
theorem take_eq_of_insertionSort_eq (ties : ∀ a b, key a = key b → r a b) {l l' : List α} {n : ℕ}
    (keys : (l.map key).take n = (l'.map key).take n) (same : l.insertionSort r = l'.insertionSort r) :
    l.take n = l'.take n :=
  take_eq_of_filter_eq keys (filter_eq_of_insertionSort_eq ties same)

theorem insertionSort_eq_iff (ties : ∀ a b, key a = key b → r a b) {l l' : List α}
    (keys : l.map key = l'.map key) : l.insertionSort r = l'.insertionSort r ↔ l = l' := by
  constructor
  · intro same
    have lengths : l'.length = l.length := by simpa using (congrArg List.length keys).symm
    have all := take_eq_of_insertionSort_eq (n := l.length) ties (by rw [keys]) same
    rwa [List.take_length, ← lengths, List.take_length] at all
  · intro same
    rw [same]

end LocalWebAccess.StableSort
