import Mathlib.Data.List.AList

/-!
# Tables with a primary key

The rows of a table are found under their keys, and new rows come last. The tables of a database and
the dictionaries of a program are both of this kind.
-/
namespace LocalWebAccess.KeyedTables

/-- Rows under their keys. -/
abbrev Table (κ ν : Type) : Type := AList fun _ : κ => ν

namespace Table

variable {κ ν : Type} [DecidableEq κ]

/-- Change the row of a key, if there is one. -/
def update (key : κ) (change : ν → ν) (t : Table κ ν) : Table κ ν where
  entries := t.entries.map (Sigma.map id fun k row => if k = key then change row else row)
  nodupKeys := t.nodupKeys.map₂ _ _

/-- Merge into the row of a key, or add one where there is none. -/
def upsert (key : κ) (fresh : ν) (merge : ν → ν) (t : Table κ ν) : Table κ ν :=
  if known : key ∈ t then t.update key merge
  else
    { entries := t.entries ++ [⟨key, fresh⟩]
      nodupKeys := by
        rw [List.NodupKeys, List.keys_append, List.nodup_append]
        refine ⟨t.nodupKeys, by simp, ?_⟩
        rintro k among k' last rfl
        obtain rfl : k = key := by simpa using last
        exact known (AList.mem_keys.mpr among) }

/-- Remove the rows of some keys. -/
def deleteWhere (doomed : κ → Bool) (t : Table κ ν) : Table κ ν where
  entries := t.entries.filter fun row => !doomed row.1
  nodupKeys := t.nodupKeys.sublist List.filter_sublist

/-- Move the row of a key to a key that has none. -/
def rename (old new : κ) (t : Table κ ν) : Table κ ν :=
  if known : new ∈ t then t
  else
    { entries := t.entries.map fun row => if row.1 = old then ⟨new, row.2⟩ else row
      nodupKeys := by
        rw [List.nodupKeys_iff_pairwise, List.pairwise_map]
        refine (List.nodupKeys_iff_pairwise.mp t.nodupKeys).imp_of_mem fun {a b} inside inside' apart => ?_
        have fresh : ∀ row ∈ t.entries, row.1 ≠ new := by
          rintro row among rfl
          exact known (AList.mem_keys.mpr (List.mem_map_of_mem among))
        split_ifs with here there there
        · exact absurd (here.trans there.symm) apart
        · exact (fresh b inside').symm
        · exact fresh a inside
        · exact apart }

@[simp] theorem lookup_update (key k : κ) (change : ν → ν) (t : Table κ ν) :
    (t.update key change).lookup k = (t.lookup k).map fun row => if k = key then change row else row :=
  List.dlookup_map₂ k

theorem lookup_upsert (key k : κ) (fresh : ν) (merge : ν → ν) (t : Table κ ν) :
    (t.upsert key fresh merge).lookup k =
      if k = key then some ((t.lookup key).elim fresh merge) else t.lookup k := by
  unfold upsert
  split_ifs with known here here
  · obtain ⟨row, found⟩ := Option.isSome_iff_exists.mp (AList.lookup_isSome.mpr known)
    subst here
    simp [found]
  · cases h : t.lookup k <;> simp [here, h]
  · subst here
    have absent : t.entries.dlookup k = none := AList.lookup_eq_none.mpr known
    simp [AList.lookup, List.dlookup_append, absent]
  · have other : List.dlookup k [(⟨key, fresh⟩ : Sigma fun _ : κ => ν)] = none :=
      List.dlookup_eq_none.mpr (by simpa using here)
    simp [AList.lookup, List.dlookup_append, other]

theorem lookup_deleteWhere (doomed : κ → Bool) (k : κ) (t : Table κ ν) :
    (t.deleteWhere doomed).lookup k = if doomed k then none else t.lookup k := by
  split_ifs with gone
  · refine AList.lookup_eq_none.mpr fun known => ?_
    obtain ⟨row, among⟩ := List.mem_keys.mp (AList.mem_keys.mp known)
    have kept := (List.mem_filter.mp among).2
    simp [gone] at kept
  · ext row
    rw [← Option.mem_def, AList.mem_lookup_iff, ← Option.mem_def, AList.mem_lookup_iff]
    simp [deleteWhere, gone]

theorem lookup_rename {old new : κ} {t : Table κ ν} (fresh : t.lookup new = none) (moved : old ≠ new) (k : κ) :
    (t.rename old new).lookup k = if k = new then t.lookup old else if k = old then none else t.lookup k := by
  have absent : new ∉ t := AList.lookup_eq_none.mp fresh
  ext row
  rw [← Option.mem_def, AList.mem_lookup_iff, rename, dif_neg absent]
  dsimp only
  rw [List.mem_map]
  constructor
  · rintro ⟨entry, inside, moves⟩
    have found : t.lookup entry.1 = some entry.2 := AList.mem_lookup_iff.mpr inside
    split_ifs at moves with mine
    · cases moves
      rw [if_pos rfl, ← mine, found]
    · cases moves
      have other : k ≠ new := by
        rintro rfl
        rw [fresh] at found
        cases found
      rwa [if_neg other, if_neg mine]
  · intro found
    split_ifs at found with here there
    · exact ⟨⟨old, row⟩, AList.mem_lookup_iff.mp found, by simp [here]⟩
    · exact ⟨⟨k, row⟩, AList.mem_lookup_iff.mp found, by simp [there]⟩

/-! ## Rows that summarize groups -/

variable {α : Type} {R : ν → List α → Prop} {t : Table κ ν} {groups : κ → List α}

/-- There is no row for an empty group, and another one has a row with what is required of it. -/
def Summary (R : ν → List α → Prop) : Option ν → List α → Prop
  | none, group => group = []
  | some row, group => R row group

/-- Every group has its summary in the table. -/
def Summarizes (R : ν → List α → Prop) (t : Table κ ν) (groups : κ → List α) : Prop :=
  ∀ k, Summary R (t.lookup k) (groups k)

theorem summarizes_empty : Summarizes R (∅ : Table κ ν) fun _ => [] := fun _ => rfl

theorem Summarizes.row {k : κ} {row : ν} (h : Summarizes R t groups) (found : t.lookup k = some row) :
    R row (groups k) := by
  have holds := h k
  rwa [found] at holds

theorem Summarizes.congr {groups' : κ → List α} (h : Summarizes R t groups) (same : ∀ k, groups k = groups' k) :
    Summarizes R t groups' := by
  obtain rfl : groups = groups' := funext same
  exact h

/-- A merge that appends to the group of its key. -/
theorem Summarizes.upsert (h : Summarizes R t groups) (key : κ) (fresh : ν) (merge : ν → ν) {added : List α}
    (first : R fresh added) (merged : ∀ row group, R row group → R (merge row) (group ++ added)) :
    Summarizes R (t.upsert key fresh merge) fun k => if k = key then groups k ++ added else groups k := by
  intro k
  have holds := h k
  simp only [lookup_upsert]
  by_cases here : k = key
  · subst here
    simp only [if_pos]
    cases found : t.lookup k with
    | none =>
      rw [found] at holds
      rw [show groups k = [] from holds]
      exact first
    | some row =>
      rw [found] at holds
      exact merged row (groups k) holds
  · simpa [here] using holds

/-- A change that no group notices. -/
theorem Summarizes.update (h : Summarizes R t groups) (key : κ) {change : ν → ν}
    (same : ∀ row group, R row group → R (change row) group) : Summarizes R (t.update key change) groups := by
  intro k
  have holds := h k
  rw [lookup_update]
  cases found : t.lookup k with
  | none => rwa [found] at holds
  | some row =>
    rw [found] at holds
    rw [Option.map_some]
    split_ifs
    · exact same row (groups k) holds
    · exact holds

theorem Summarizes.deleteWhere (h : Summarizes R t groups) (doomed : κ → Bool) :
    Summarizes R (t.deleteWhere doomed) fun k => if doomed k then [] else groups k := by
  intro k
  have holds := h k
  simp only [lookup_deleteWhere]
  split_ifs
  · rfl
  · exact holds

/-- A loop over the rows of a table adds their groups to the groups that it accounts for. -/
theorem Summarizes.foldl_entries {σ : Type} (h : Summarizes R t groups) (I : σ → (κ → List α) → Prop)
    {round : σ → (Sigma fun _ : κ => ν) → σ}
    (each : ∀ s account k row, R row (groups k) → I s account →
      I (round s ⟨k, row⟩) fun j => if j = k then account j ++ groups k else account j)
    {s : σ} (account : κ → List α) (start : I s account) :
    I (t.entries.foldl round s) fun k => account k ++ groups k := by
  have loop (rest : List (Sigma fun _ : κ => ν)) (fits : ∀ entry ∈ rest, R entry.2 (groups entry.1))
      (distinct : rest.NodupKeys) (s : σ) (account : κ → List α) (start : I s account) :
      I (rest.foldl round s) fun k => if k ∈ rest.keys then account k ++ groups k else account k := by
    induction rest generalizing s account with
    | nil => simpa using start
    | cons entry rest ih =>
      obtain ⟨fresh, distinct⟩ := List.nodupKeys_cons.mp distinct
      have next := ih (fun other among => fits other (List.mem_cons_of_mem _ among)) distinct _ _
        (each s account entry.1 entry.2 (fits entry List.mem_cons_self) start)
      have same : (fun k => if k ∈ (entry :: rest).keys then account k ++ groups k else account k) = fun k =>
          if k ∈ rest.keys then (if k = entry.1 then account k ++ groups entry.1 else account k) ++ groups k
          else if k = entry.1 then account k ++ groups entry.1 else account k := by
        funext k
        by_cases here : k = entry.1
        · subst here
          simp [fresh]
        · simp [here]
      rw [same]
      exact next
  have fits : ∀ entry ∈ t.entries, R entry.2 (groups entry.1) := fun entry among =>
    h.row (AList.mem_lookup_iff.mpr among)
  have same : (fun k => account k ++ groups k) = fun k =>
      if k ∈ t.entries.keys then account k ++ groups k else account k := by
    funext k
    split_ifs with known
    · rfl
    · have absent : t.lookup k = none := AList.lookup_eq_none.mpr fun among => known (AList.mem_keys.mp among)
      have empty := h k
      rw [absent] at empty
      rw [show groups k = [] from empty, List.append_nil]
  rw [same]
  exact loop t.entries fits t.nodupKeys s account start

end Table

end LocalWebAccess.KeyedTables
