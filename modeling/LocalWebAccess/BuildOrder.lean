import LocalWebAccess.GraphOrders
import Mathlib.Data.Finset.Sort
import Mathlib.Data.List.Sort

/-!
# The workspace build order

The packages that the primary package needs are collected with a work list and ordered with ready lists, the
packages that others depend on first.
-/
namespace LocalWebAccess.BuildOrder

open GraphOrders Relation

/-- What `package.json` gives: the keys of `dependencies`, and whether `scripts` has `build`. -/
structure Manifest (ν : Type*) where
  dependencies : List ν
  build : Bool

/-- A classified package. -/
structure Package (ν π : Type*) where
  name : ν
  path : π

variable {ν π : Type*} [LinearOrder ν] (read : π → Manifest ν) (packages : List (Package ν π))

def names : List ν := packages.map (·.name)

/-- `by_name.get(name)`; of several packages with a name the last one stays. -/
def byName (name : ν) : Option (Package ν π) := packages.reverse.find? (·.name = name)

/-- The dependencies in the `package.json` of a name. -/
def dependenciesOf (name : ν) : List ν :=
  match byName packages name with
  | some package => (read package.path).dependencies
  | none => []

/-- `if dep in by_name and dep not in seen` -/
def enqueue (state : List ν × Finset ν) (dep : ν) : List ν × Finset ν :=
  if dep ∈ names packages ∧ dep ∉ state.2 then (dep :: state.1, insert dep state.2) else state

/-- The primary package and what it needs, with the end of the queue at the head of the list. -/
def relevantNames : ℕ → List ν → Finset ν → Finset ν → Option (Finset ν)
  | 0, _, _, _ => none
  | _ + 1, [], _, relevant => some relevant
  | fuel + 1, current :: queue, seen, relevant =>
    let state := (dependenciesOf read packages current).foldl (enqueue packages) (queue, seen)
    relevantNames fuel state.1 state.2 (insert current relevant)

/-- The set of `edges[name]`; the name is one of the packages, as the primary package is. -/
def edgesOf (relevant : Finset ν) (name : ν) : Finset ν :=
  (dependenciesOf read packages name).toFinset.filter fun dep => dep ∈ relevant ∧ dep ≠ name

/-- One turn of the inner loop. -/
def discharge (name : ν) (state : (ν → Finset ν) × List ν) (other : ν) : (ν → Finset ν) × List ν :=
  if name ∈ state.1 other then
    (Function.update state.1 other ((state.1 other).erase name),
      if (state.1 other).erase name = ∅ then state.2 ++ [other] else state.2)
  else state

/-- The loop over `ready`. -/
def sortReady (relevant : Finset ν) : ℕ → (ν → Finset ν) → List ν → List ν → Option (List ν)
  | 0, _, _, _ => none
  | _ + 1, _, [], ordered => some ordered
  | fuel + 1, edges, name :: ready, ordered =>
    let ordered := ordered ++ [name]
    let state := ((relevant \ ordered.toFinset).sort).foldl (discharge name) (edges, ready)
    sortReady relevant fuel state.1 (state.2.insertionSort (· ≤ ·)) ordered

/-- `buildable`, of names that are in the workspace. -/
def buildable (ordered : List ν) : List (ν × π) :=
  ordered.filterMap fun name => (byName packages name).bind fun package =>
    if (read package.path).build then some (name, package.path) else none

/-- `_workspace_build_order`, with a number of turns that the loops stay below. -/
def workspaceBuildOrder (fuel : ℕ) (primary : Package ν π) : Option (List (ν × π) × Bool) :=
  (relevantNames read packages fuel [primary.name] (singleton primary.name) ∅).bind fun relevant =>
    let edges := edgesOf read packages relevant
    (sortReady relevant fuel edges (relevant.filter fun name => edges name = ∅).sort []).map fun ordered =>
      if ordered.length ≠ relevant.card then (buildable read packages relevant.sort, true)
      else (buildable read packages ordered, false)

/-! ## What the primary package needs -/

/-- A workspace dependency. -/
def Depends (name dep : ν) : Prop := dep ∈ names packages ∧ dep ∈ dependenciesOf read packages name

abbrev Reaches : ν → ν → Prop := ReflTransGen (Depends read packages)

theorem foldl_enqueue (deps : List ν) (queue : List ν) (seen : Finset ν) :
    ∃ fresh : List ν, fresh.Nodup ∧ (∀ name, name ∈ fresh ↔ name ∈ names packages ∧ name ∈ deps ∧ name ∉ seen) ∧
      deps.foldl (enqueue packages) (queue, seen) = (fresh ++ queue, seen ∪ fresh.toFinset) := by
  induction deps generalizing queue seen with
  | nil => exact ⟨[], by simp⟩
  | cons dep deps ih =>
    rw [List.foldl_cons, enqueue]
    split_ifs with new
    · obtain ⟨fresh, nodup, mem, result⟩ := ih (dep :: queue) (insert dep seen)
      refine ⟨fresh ++ [dep], ?_, fun name => ?_, ?_⟩
      · rw [List.nodup_append_comm]
        exact List.nodup_cons.mpr ⟨fun found => ((mem dep).mp found).2.2 (Finset.mem_insert_self _ _), nodup⟩
      · rw [List.mem_append, mem, List.mem_singleton, List.mem_cons, Finset.mem_insert]
        by_cases same : name = dep
        · subst same
          simpa using new
        · simp [same]
      · rw [result]
        ext <;> simp
    · obtain ⟨fresh, nodup, mem, result⟩ := ih queue seen
      refine ⟨fresh, nodup, fun name => ?_, result⟩
      rw [mem, List.mem_cons]
      by_cases same : name = dep
      · subst same
        simp only [true_or, true_and]
        exact ⟨fun found => absurd ⟨found.1, found.2.2⟩ new, fun found => absurd found new⟩
      · simp [same]

/-- The state of the search for the names that `primary` needs. -/
structure Searching (primary : ν) (queue : List ν) (seen relevant : Finset ν) : Prop where
  start : primary ∈ seen
  nodup : queue.Nodup
  split : ∀ name, name ∈ seen ↔ name ∈ queue ∨ name ∈ relevant
  apart : ∀ name ∈ queue, name ∉ relevant
  known : ∀ name ∈ seen, name ∈ names packages
  reached : ∀ name ∈ seen, Reaches read packages primary name
  closed : ∀ name ∈ relevant, ∀ dep, Depends read packages name dep → dep ∈ seen

variable {read packages} {primary : ν} {queue : List ν} {seen relevant : Finset ν}

theorem Searching.initial (mem : primary ∈ names packages) : Searching read packages primary [primary] {primary} ∅ where
  start := Finset.mem_singleton_self primary
  nodup := List.nodup_singleton primary
  split name := by simp
  apart name _ := Finset.notMem_empty name
  known name found := Finset.mem_singleton.mp found ▸ mem
  reached name found := Finset.mem_singleton.mp found ▸ .refl
  closed name found := absurd found (Finset.notMem_empty name)

theorem Searching.turn {current : ν} (searching : Searching read packages primary (current :: queue) seen relevant) :
    let state := (dependenciesOf read packages current).foldl (enqueue packages) (queue, seen)
    Searching read packages primary state.1 state.2 (insert current relevant) := by
  obtain ⟨fresh, nodup, mem, result⟩ := foldl_enqueue packages (dependenciesOf read packages current) queue seen
  have here : current ∈ seen := (searching.split current).mpr (.inl List.mem_cons_self)
  have old : ∀ name ∈ queue, name ∈ seen := fun name found =>
    (searching.split name).mpr (.inl (List.mem_cons_of_mem _ found))
  obtain ⟨notMem, rest⟩ := List.nodup_cons.mp searching.nodup
  dsimp only
  rw [result]
  constructor
  · exact Finset.mem_union_left _ searching.start
  · refine List.nodup_append.mpr ⟨nodup, rest, fun a new b found => ?_⟩
    rintro rfl
    exact ((mem a).mp new).2.2 (old a found)
  · intro name
    rw [Finset.mem_union, searching.split, List.mem_toFinset, List.mem_append, List.mem_cons, Finset.mem_insert]
    tauto
  · intro name found
    rw [Finset.mem_insert, not_or]
    obtain new | found := List.mem_append.mp found
    · have unseen := ((mem name).mp new).2.2
      exact ⟨fun same => unseen (same ▸ here), fun done => unseen ((searching.split name).mpr (.inr done))⟩
    · exact ⟨fun same => notMem (same ▸ found), searching.apart name (List.mem_cons_of_mem _ found)⟩
  · intro name found
    obtain found | new := Finset.mem_union.mp found
    · exact searching.known name found
    · exact ((mem name).mp (List.mem_toFinset.mp new)).1
  · intro name found
    obtain found | new := Finset.mem_union.mp found
    · exact searching.reached name found
    · obtain ⟨known, edge, -⟩ := (mem name).mp (List.mem_toFinset.mp new)
      exact (searching.reached current here).tail ⟨known, edge⟩
  · intro name found dep edge
    rw [Finset.mem_union, List.mem_toFinset, mem]
    obtain rfl | found := Finset.mem_insert.mp found
    · exact or_iff_not_imp_left.mpr fun unseen => ⟨edge.1, edge.2, unseen⟩
    · exact .inl (searching.closed name found dep edge)

theorem Searching.mem_iff (searching : Searching read packages primary [] seen relevant) (name : ν) :
    name ∈ relevant ↔ Reaches read packages primary name := by
  have all : ∀ name, name ∈ seen ↔ name ∈ relevant := by simpa using searching.split
  constructor
  · exact fun found => searching.reached name ((all name).mpr found)
  · intro leads
    induction leads with
    | refl => exact (all primary).mp searching.start
    | tail _ edge ih => exact (all _).mp (searching.closed _ ih _ edge)

theorem Searching.card_le (searching : Searching read packages primary queue seen relevant) :
    relevant.card ≤ packages.length := by
  have known : relevant ⊆ (names packages).toFinset := fun name found =>
    List.mem_toFinset.mpr (searching.known name ((searching.split name).mpr (.inr found)))
  calc relevant.card ≤ (names packages).toFinset.card := Finset.card_le_card known
    _ ≤ (names packages).length := List.toFinset_card_le _
    _ = packages.length := List.length_map _

/-- The search ends, after a turn for each package at most, with what the primary package reaches. -/
theorem relevantNames_spec (searching : Searching read packages primary queue seen relevant) :
    ∃ found, (∀ fuel, packages.length < fuel + relevant.card →
        relevantNames read packages fuel queue seen relevant = some found) ∧
      found.card ≤ packages.length ∧ ∀ name, name ∈ found ↔ Reaches read packages primary name := by
  induction turns : packages.length - relevant.card using Nat.strong_induction_on
    generalizing queue seen relevant with | _ turns ih =>
  have within := searching.card_le
  cases queue with
  | nil =>
    refine ⟨relevant, fun fuel enough => ?_, within, searching.mem_iff⟩
    obtain ⟨fuel, rfl⟩ : ∃ more, fuel = more + 1 := ⟨fuel - 1, by omega⟩
    rfl
  | cons current queue =>
    have next := searching.turn
    have more : (insert current relevant).card = relevant.card + 1 :=
      Finset.card_insert_of_notMem (searching.apart current List.mem_cons_self)
    have room := next.card_le
    obtain ⟨found, ends, result⟩ := ih _ (by omega) next rfl
    refine ⟨found, fun fuel enough => ?_, result⟩
    obtain ⟨fuel, rfl⟩ : ∃ more, fuel = more + 1 := ⟨fuel - 1, by omega⟩
    exact ends fuel (by omega)

/-! ## Their order -/

/-- What the turn of `name` makes ready. -/
abbrev Readied (name : ν) (edges : ν → Finset ν) (other : ν) : Prop :=
  name ∈ edges other ∧ (edges other).erase name = ∅

theorem discharge_eq (name other : ν) (edges : ν → Finset ν) (ready : List ν) :
    discharge name (edges, ready) other =
      (Function.update edges other ((edges other).erase name), ready ++ [other].filter (Readied name edges)) := by
  rw [discharge]
  split_ifs with found empty
  · simp [Readied, found, empty]
  · simp [Readied, empty]
  · rw [Finset.erase_eq_of_notMem found, Function.update_eq_self]
    simp [Readied, found]

theorem foldl_discharge (name : ν) (others : List ν) (nodup : others.Nodup) (edges : ν → Finset ν) (ready : List ν) :
    others.foldl (discharge name) (edges, ready) =
      (fun other => if other ∈ others then (edges other).erase name else edges other,
        ready ++ others.filter (Readied name edges)) := by
  induction others generalizing edges ready with
  | nil => simp
  | cons first others ih =>
    obtain ⟨notMem, nodup⟩ := List.nodup_cons.mp nodup
    have apart : ∀ other ∈ others, other ≠ first := fun other found same => notMem (same ▸ found)
    rw [List.foldl_cons, discharge_eq, ih nodup]
    have passed : ∀ other ∈ others,
        decide (Readied name (Function.update edges first ((edges first).erase name)) other) =
          decide (Readied name edges other) := by
      intro other found
      simp only [Readied, Function.update_of_ne (apart other found)]
    refine Prod.ext (funext fun other => ?_) ?_
    · by_cases same : other = first
      · subst same
        simp [notMem]
      · simp [same]
    · rw [List.filter_congr passed, List.append_assoc, ← List.filter_append, List.singleton_append]

/-- The state of the loop over `ready`, where `edges` are what `full` has besides the names in the order. -/
structure Sorting (relevant : Finset ν) (full edges : ν → Finset ν) (ready ordered : List ν) : Prop where
  nodup : ordered.Nodup
  within : ∀ name ∈ ordered, name ∈ relevant
  unique : ready.Nodup
  left : ∀ name ∈ relevant, name ∉ ordered → edges name = full name \ ordered.toFinset
  ready_iff : ∀ name, name ∈ ready ↔ name ∈ relevant ∧ name ∉ ordered ∧ edges name = ∅
  settled : Settled (fun name dep => dep ∈ full name) ordered

variable {full edges : ν → Finset ν} {ready ordered : List ν}

theorem Sorting.initial (relevant : Finset ν) (full : ν → Finset ν) :
    Sorting relevant full full (relevant.filter fun name => full name = ∅).sort [] where
  nodup := List.nodup_nil
  within name found := absurd found List.not_mem_nil
  unique := Finset.sort_nodup _ _
  left name _ _ := by simp
  ready_iff name := by simp
  settled := .nil

theorem Sorting.turn {name : ν} (sorting : Sorting relevant full edges (name :: ready) ordered) :
    let state := ((relevant \ (ordered ++ [name]).toFinset).sort).foldl (discharge name) (edges, ready)
    Sorting relevant full state.1 (state.2.insertionSort (· ≤ ·)) (ordered ++ [name]) := by
  obtain ⟨inside, fresh, empty⟩ := (sorting.ready_iff name).mp List.mem_cons_self
  obtain ⟨notMem, unique⟩ := List.nodup_cons.mp sorting.unique
  have free : full name ⊆ ordered.toFinset := by
    rw [← Finset.sdiff_eq_empty_iff_subset, ← sorting.left name inside fresh, empty]
  have rest : ∀ other, other ∈ (relevant \ (ordered ++ [name]).toFinset).sort ↔
      other ∈ relevant ∧ other ∉ ordered ∧ other ≠ name := by
    intro other
    rw [Finset.mem_sort, Finset.mem_sdiff, List.mem_toFinset, List.mem_append, List.mem_singleton, not_or]
  have once : (relevant \ (ordered ++ [name]).toFinset).sort.Nodup := Finset.sort_nodup _ _
  generalize (relevant \ (ordered ++ [name]).toFinset).sort = others at rest once ⊢
  rw [foldl_discharge _ _ once]
  constructor
  · exact List.nodup_append.mpr ⟨sorting.nodup, List.nodup_singleton name, fun a found b same => by
      rintro rfl
      exact fresh (List.mem_singleton.mp same ▸ found)⟩
  · intro other found
    obtain found | same := List.mem_append.mp found
    · exact sorting.within other found
    · exact List.mem_singleton.mp same ▸ inside
  · rw [(List.perm_insertionSort _ _).nodup_iff]
    refine List.nodup_append.mpr ⟨unique, once.filter _, fun a found b new => ?_⟩
    rintro rfl
    have empty := ((sorting.ready_iff a).mp (List.mem_cons_of_mem _ found)).2.2
    simp [Readied, empty] at new
  · intro other known absent
    have apart : other ∉ ordered ∧ other ≠ name := by simpa using absent
    dsimp only
    rw [if_pos ((rest other).mpr ⟨known, apart⟩), sorting.left other known apart.1]
    ext dep
    simp only [Finset.mem_erase, Finset.mem_sdiff, List.mem_toFinset, List.mem_append, List.mem_singleton, not_or]
    exact ⟨fun ⟨other, mem, new⟩ => ⟨mem, new, other⟩, fun ⟨mem, new, other⟩ => ⟨other, mem, new⟩⟩
  · intro other
    dsimp only
    rw [List.mem_insertionSort, List.mem_append, List.mem_filter, decide_eq_true_iff, List.mem_append,
      List.mem_singleton, not_or]
    constructor
    · rintro (found | ⟨found, made⟩)
      · obtain ⟨known, absent, empty⟩ := (sorting.ready_iff other).mp (List.mem_cons_of_mem _ found)
        have apart : other ≠ name := fun same => notMem (same ▸ found)
        exact ⟨known, ⟨absent, apart⟩, by rw [if_pos ((rest other).mpr ⟨known, absent, apart⟩), empty]; rfl⟩
      · obtain ⟨known, apart⟩ := (rest other).mp found
        exact ⟨known, apart, by rw [if_pos found, made.2]⟩
    · rintro ⟨known, ⟨absent, apart⟩, empty⟩
      have mem : other ∈ others := (rest other).mpr ⟨known, absent, apart⟩
      rw [if_pos mem] at empty
      by_cases found : name ∈ edges other
      · exact .inr ⟨mem, found, empty⟩
      · rw [Finset.erase_eq_of_notMem found] at empty
        exact .inl (List.mem_of_ne_of_mem apart ((sorting.ready_iff other).mpr ⟨known, absent, empty⟩))
  · exact sorting.settled.concat fun dep edge => List.mem_toFinset.mp (free edge)

theorem Sorting.card_le (sorting : Sorting relevant full edges ready ordered) : ordered.length ≤ relevant.card := by
  have within : ordered.toFinset ⊆ relevant := fun name found => sorting.within name (List.mem_toFinset.mp found)
  calc ordered.length = ordered.toFinset.card := (List.toFinset_card_of_nodup sorting.nodup).symm
    _ ≤ relevant.card := Finset.card_le_card within

theorem Sorting.mem_iff (sorting : Sorting relevant full edges ready ordered)
    (complete : ordered.length = relevant.card) (name : ν) : name ∈ ordered ↔ name ∈ relevant := by
  have within : ordered.toFinset ⊆ relevant := fun name found => sorting.within name (List.mem_toFinset.mp found)
  have all : ordered.toFinset = relevant := Finset.eq_of_subset_of_card_le within
    (by rw [List.toFinset_card_of_nodup sorting.nodup, complete])
  rw [← all, List.mem_toFinset]

/-- The loop ends, after a turn for each name at most. -/
theorem sortReady_spec (sorting : Sorting relevant full edges ready ordered) :
    ∃ sorted left, (∀ fuel, relevant.card < fuel + ordered.length →
        sortReady relevant fuel edges ready ordered = some sorted) ∧ Sorting relevant full left [] sorted := by
  induction turns : relevant.card - ordered.length using Nat.strong_induction_on
    generalizing edges ready ordered with | _ turns ih =>
  have within := sorting.card_le
  cases ready with
  | nil =>
    refine ⟨ordered, edges, fun fuel enough => ?_, sorting⟩
    obtain ⟨fuel, rfl⟩ : ∃ more, fuel = more + 1 := ⟨fuel - 1, by omega⟩
    rfl
  | cons name ready =>
    have next := sorting.turn
    have room := next.card_le
    have more : (ordered ++ [name]).length = ordered.length + 1 := List.length_append
    obtain ⟨sorted, left, ends, result⟩ := ih _ (by omega) next rfl
    refine ⟨sorted, left, fun fuel enough => ?_, result⟩
    obtain ⟨fuel, rfl⟩ : ∃ more, fuel = more + 1 := ⟨fuel - 1, by omega⟩
    exact ends fuel (by omega)

/-- The names left over depend on each other. -/
theorem Sorting.cycle_iff (sorting : Sorting relevant full edges [] ordered) (inner : ∀ name, full name ⊆ relevant) :
    ordered.length ≠ relevant.card ↔ ∃ name ∈ relevant, TransGen (fun name dep => dep ∈ full name) name name := by
  constructor
  · intro short
    have filled : (relevant \ ordered.toFinset).Nonempty := by
      rw [Finset.sdiff_nonempty]
      intro all
      have size := Finset.card_le_card all
      rw [List.toFinset_card_of_nodup sorting.nodup] at size
      exact short (Nat.le_antisymm sorting.card_le size)
    obtain ⟨name, mem, leads⟩ := exists_cycle (E := fun name dep => dep ∈ full name) filled fun name mem => by
      obtain ⟨known, absent⟩ := Finset.mem_sdiff.mp mem
      have absent : name ∉ ordered := fun found => absent (List.mem_toFinset.mpr found)
      have some : edges name ≠ ∅ := fun empty =>
        List.not_mem_nil ((sorting.ready_iff name).mpr ⟨known, absent, empty⟩)
      obtain ⟨dep, mem⟩ := Finset.nonempty_iff_ne_empty.mpr some
      rw [sorting.left name known absent, Finset.mem_sdiff] at mem
      exact ⟨dep, Finset.mem_sdiff.mpr ⟨inner name mem.1, mem.2⟩, mem.1⟩
    exact ⟨name, (Finset.mem_sdiff.mp mem).1, leads⟩
  · rintro ⟨name, known, leads⟩ complete
    have mem : name ∈ ordered := (sorting.mem_iff complete name).mpr known
    exact sorting.settled.acyclic sorting.nodup mem leads

/-! ## The order of the packages -/

/-- A cycle of two packages or more among what the primary package needs. -/
def Cyclic (read : π → Manifest ν) (packages : List (Package ν π)) (primary : ν) : Prop :=
  ∃ a b, a ≠ b ∧ Reaches read packages primary a ∧ Reaches read packages a b ∧ Reaches read packages b a

theorem reaches_known {name : ν} (mem : primary ∈ names packages) (leads : Reaches read packages primary name) :
    name ∈ names packages := by
  induction leads with
  | refl => exact mem
  | tail _ edge _ => exact edge.1

theorem depends_of_edge {name dep : ν} (mem : primary ∈ names packages)
    (known : ∀ name, name ∈ relevant ↔ Reaches read packages primary name)
    (edge : dep ∈ edgesOf read packages relevant name) : Depends read packages name dep ∧ dep ≠ name := by
  rw [edgesOf, Finset.mem_filter, List.mem_toFinset, known] at edge
  exact ⟨⟨reaches_known mem edge.2.1, edge.1⟩, edge.2.2⟩

/-- What a relevant package reaches, it reaches through the edges. -/
theorem edges_of_reaches {a b : ν} (known : ∀ name, name ∈ relevant ↔ Reaches read packages primary name)
    (start : Reaches read packages primary a) (leads : Reaches read packages a b) (apart : a ≠ b) :
    TransGen (fun name dep => dep ∈ edgesOf read packages relevant name) a b := by
  refine TransGen.mono (fun x y step => ?_) _ _ (transGen_of_ne leads apart)
  obtain ⟨edge, there, apart⟩ := step
  rw [edgesOf, Finset.mem_filter, List.mem_toFinset, known]
  exact ⟨edge.2, (start.trans there).tail edge, apart⟩

theorem cyclic_iff (mem : primary ∈ names packages)
    (known : ∀ name, name ∈ relevant ↔ Reaches read packages primary name) :
    Cyclic read packages primary ↔
      ∃ name ∈ relevant, TransGen (fun name dep => dep ∈ edgesOf read packages relevant name) name name := by
  constructor
  · rintro ⟨a, b, apart, start, there, back⟩
    have first := edges_of_reaches known start there apart
    have second := edges_of_reaches known (start.trans there) back apart.symm
    exact ⟨a, (known a).mpr start, first.trans second⟩
  · rintro ⟨a, here, leads⟩
    obtain ⟨b, apart, there, back⟩ := exists_two_of_cycle
      (fun x found => (depends_of_edge mem known found).2 rfl) leads
    have depends : ∀ x y, y ∈ edgesOf read packages relevant x → Depends read packages x y :=
      fun x y found => (depends_of_edge mem known found).1
    exact ⟨a, b, apart, (known a).mp here, ReflTransGen.mono depends _ _ there, ReflTransGen.mono depends _ _ back⟩

section Distinct

variable (distinct : (names packages).Nodup)
include distinct

theorem byName_iff (name : ν) (package : Package ν π) :
    byName packages name = some package ↔ package ∈ packages ∧ package.name = name := by
  constructor
  · intro found
    exact ⟨List.mem_reverse.mp (List.mem_of_find?_eq_some found), by simpa using List.find?_some found⟩
  · rintro ⟨mem, rfl⟩
    obtain ⟨other, found⟩ : ∃ other, byName packages package.name = some other :=
      Option.isSome_iff_exists.mp (List.find?_isSome.mpr ⟨package, List.mem_reverse.mpr mem, decide_eq_true rfl⟩)
    have same : other.name = package.name := by simpa using List.find?_some found
    have mem' : other ∈ packages := List.mem_reverse.mp (List.mem_of_find?_eq_some found)
    rw [found, List.inj_on_of_nodup_map distinct mem' mem same]

theorem buildable_entry {name : ν} {entry : ν × π} :
    ((byName packages name).bind fun package =>
        if (read package.path).build then some (name, package.path) else none) = some entry ↔
      ∃ package ∈ packages, package.name = name ∧ entry = (package.name, package.path) ∧
        (read package.path).build = true := by
  rw [Option.bind_eq_some_iff]
  constructor
  · rintro ⟨package, found, taken⟩
    obtain ⟨mem, rfl⟩ := (byName_iff distinct name package).mp found
    split_ifs at taken with build
    exact ⟨package, mem, rfl, (Option.some_inj.mp taken).symm, build⟩
  · rintro ⟨package, mem, rfl, rfl, build⟩
    exact ⟨package, (byName_iff distinct _ package).mpr ⟨mem, rfl⟩, if_pos build⟩

theorem mem_buildable {entry : ν × π} :
    entry ∈ buildable read packages ordered ↔ ∃ package ∈ packages, package.name ∈ ordered ∧
      entry = (package.name, package.path) ∧ (read package.path).build = true := by
  rw [buildable, List.mem_filterMap]
  constructor
  · rintro ⟨name, found, taken⟩
    obtain ⟨package, mem, rfl, rest⟩ := (buildable_entry distinct).mp taken
    exact ⟨package, mem, found, rest⟩
  · rintro ⟨package, mem, found, rest⟩
    exact ⟨package.name, found, (buildable_entry distinct).mpr ⟨package, mem, rfl, rest⟩⟩

theorem nodup_buildable (nodup : ordered.Nodup) : (buildable read packages ordered).Nodup := by
  refine nodup.filterMap fun a b entry first second => ?_
  obtain ⟨package, mem, rfl, same, build⟩ := (buildable_entry distinct).mp first
  obtain ⟨other, mem', rfl, same', build'⟩ := (buildable_entry distinct).mp second
  exact congrArg Prod.fst (same.symm.trans same')

theorem before_of_reaches {a b : ν × π} (known : ∀ name, name ∈ relevant ↔ Reaches read packages primary name)
    (sorting : Sorting relevant (edgesOf read packages relevant) edges ready ordered)
    (ha : a ∈ buildable read packages ordered) (hb : b ∈ buildable read packages ordered)
    (leads : Reaches read packages a.1 b.1) (apart : a ≠ b) : Before (buildable read packages ordered) b a := by
  obtain ⟨p, memp, foundp, rfl, buildp⟩ := (mem_buildable distinct).mp ha
  obtain ⟨q, memq, foundq, rfl, buildq⟩ := (mem_buildable distinct).mp hb
  have other : p.name ≠ q.name := by
    intro same
    obtain rfl := List.inj_on_of_nodup_map distinct memp memq same
    exact apart rfl
  have path := edges_of_reaches known ((known _).mp (sorting.within _ foundp)) leads other
  exact (sorting.settled.before foundp path).filterMap
    ((buildable_entry distinct).mpr ⟨q, memq, rfl, rfl, buildq⟩)
    ((buildable_entry distinct).mpr ⟨p, memp, rfl, rfl, buildp⟩)

/-- The build order ends. It has the packages with a build script that the primary package needs, once each,
says whether some of them depend on each other, and if not has every package after those that it needs. -/
theorem workspaceBuildOrder_spec (start : Package ν π) (mem : start ∈ packages) :
    ∃ order cycle, (∀ fuel, packages.length < fuel →
        workspaceBuildOrder read packages fuel start = some (order, cycle)) ∧
      order.Nodup ∧
      (∀ entry, entry ∈ order ↔ ∃ package ∈ packages, entry = (package.name, package.path) ∧
        (read package.path).build = true ∧ Reaches read packages start.name package.name) ∧
      (cycle = true ↔ Cyclic read packages start.name) ∧
      (cycle = false → ∀ a ∈ order, ∀ b ∈ order, Reaches read packages a.1 b.1 → a ≠ b → Before order b a) := by
  have here : start.name ∈ names packages := List.mem_map_of_mem mem
  have begun : Searching read packages start.name [start.name] (singleton start.name) ∅ := .initial here
  obtain ⟨relevant, searched, size, known⟩ := relevantNames_spec begun
  obtain ⟨ordered, left, sorted, sorting⟩ :=
    sortReady_spec (Sorting.initial relevant (edgesOf read packages relevant))
  have inner : ∀ name, edgesOf read packages relevant name ⊆ relevant := fun name dep found =>
    (Finset.mem_filter.mp found).2.1
  have flag : ordered.length ≠ relevant.card ↔ Cyclic read packages start.name :=
    (sorting.cycle_iff inner).trans (cyclic_iff here known).symm
  have ends : ∀ fuel, packages.length < fuel → workspaceBuildOrder read packages fuel start =
      if ordered.length ≠ relevant.card then some (buildable read packages relevant.sort, true)
      else some (buildable read packages ordered, false) := by
    intro fuel enough
    rw [workspaceBuildOrder, searched fuel enough, Option.bind_some]
    dsimp only
    rw [sorted fuel (size.trans_lt enough), Option.map_some]
    split_ifs <;> rfl
  have entries : ∀ names : List ν, (∀ name, name ∈ names ↔ name ∈ relevant) → ∀ entry : ν × π,
      entry ∈ buildable read packages names ↔ ∃ package ∈ packages, entry = (package.name, package.path) ∧
        (read package.path).build = true ∧ Reaches read packages start.name package.name := by
    intro names all entry
    rw [mem_buildable distinct]
    refine exists_congr fun package => and_congr_right fun _ => ?_
    rw [all, known]
    exact ⟨fun ⟨leads, same, build⟩ => ⟨same, build, leads⟩, fun ⟨same, build, leads⟩ => ⟨leads, same, build⟩⟩
  by_cases short : ordered.length ≠ relevant.card
  · refine ⟨_, true, fun fuel enough => (ends fuel enough).trans (if_pos short), ?_, ?_, ?_, nofun⟩
    · exact nodup_buildable distinct (Finset.sort_nodup _ _)
    · exact entries _ fun name => Finset.mem_sort _
    · exact ⟨fun _ => flag.mp short, fun _ => rfl⟩
  · refine ⟨_, false, fun fuel enough => (ends fuel enough).trans (if_neg short), ?_, ?_, ?_, ?_⟩
    · exact nodup_buildable distinct sorting.nodup
    · exact entries _ (sorting.mem_iff (not_not.mp short))
    · exact ⟨nofun, fun cyclic => absurd (flag.mpr cyclic) short⟩
    · intro _ a ha b hb leads apart
      exact before_of_reaches distinct known sorting ha hb leads apart

end Distinct

/-- `app` needs `ui` through `kit`, which has no build script; `ui` also names itself. -/
def shop : ℕ → Manifest ℕ
  | 0 => ⟨[1, 7], true⟩
  | 1 => ⟨[2], false⟩
  | _ => ⟨[2], true⟩

def shopPackages : List (Package ℕ ℕ) := [⟨0, 0⟩, ⟨1, 1⟩, ⟨2, 2⟩, ⟨3, 3⟩]

theorem shop_spec : (names shopPackages).Nodup ∧ ⟨0, 0⟩ ∈ shopPackages ∧
    ∃ order cycle, (∀ fuel, shopPackages.length < fuel →
        workspaceBuildOrder shop shopPackages fuel ⟨0, 0⟩ = some (order, cycle)) ∧
      order.Nodup ∧
      (∀ entry, entry ∈ order ↔ ∃ package ∈ shopPackages, entry = (package.name, package.path) ∧
        (shop package.path).build = true ∧ Reaches shop shopPackages 0 package.name) ∧
      (cycle = true ↔ Cyclic shop shopPackages 0) ∧
      (cycle = false → ∀ a ∈ order, ∀ b ∈ order, Reaches shop shopPackages a.1 b.1 → a ≠ b → Before order b a) :=
  ⟨by decide, List.mem_cons_self, workspaceBuildOrder_spec (by decide) ⟨0, 0⟩ List.mem_cons_self⟩

end LocalWebAccess.BuildOrder
