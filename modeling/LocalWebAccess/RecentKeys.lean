import Mathlib.Data.List.DropRight
import Mathlib.Data.List.Nodup
import Mathlib.Data.List.Perm.Subperm

/-!
# Recent keys

A list of keys is extended by the keys that it does not have yet, and cut to its newest ones. Where the
keys come from the last lines of a growing log, and the list has room for the lines of two windows,
it has the key of every line that has been counted and can come again.
-/
namespace LocalWebAccess.RecentKeys

variable {κ α β : Type*} {key : κ} {keys : List κ}

section keys

variable [DecidableEq κ]

def note (key : κ) (keys : List κ) : List κ := if key ∈ keys then keys else keys ++ [key]

def noteAll (pairs : List (κ × α)) (keys : List κ) : List κ := pairs.foldl (fun keys pair => note pair.1 keys) keys

/-- What comes with the keys that are new. -/
def fresh : List (κ × α) → List κ → List α
  | [], _ => []
  | (key, a) :: pairs, keys => if key ∈ keys then fresh pairs (note key keys) else a :: fresh pairs (note key keys)

theorem note_of_mem (known : key ∈ keys) : note key keys = keys := if_pos known

theorem note_of_not_mem (unknown : key ∉ keys) : note key keys = keys ++ [key] := if_neg unknown

theorem fresh_map (f : α → β) (pairs : List (κ × α)) (keys : List κ) :
    fresh (pairs.map fun pair => (pair.1, f pair.2)) keys = (fresh pairs keys).map f := by
  induction pairs generalizing keys with
  | nil => rfl
  | cons pair pairs ih =>
    obtain ⟨key, a⟩ := pair
    rw [List.map_cons, fresh, fresh, ih]
    split_ifs <;> rfl

theorem noteAll_map (f : α → β) (pairs : List (κ × α)) (keys : List κ) :
    noteAll (pairs.map fun pair => (pair.1, f pair.2)) keys = noteAll pairs keys := by
  rw [noteAll, List.foldl_map]
  rfl

end keys

/-! ## Windows of a log -/

/-- The keys of the lines that have been counted are known while a window of this width can reach them,
and behind them stand keys of lines nearby only. -/
structure Remembers (width : ℕ) (log keys : List κ) (counted : List ℕ) : Prop where
  distinct : keys.Nodup
  known : ∀ p ∈ counted, p < log.length
  once : counted.Nodup
  recent : ∀ p ∈ counted, log.length ≤ p + width → ∃ older key newer, keys = older ++ key :: newer ∧
    log[p]? = some key ∧ ∀ other ∈ newer, ∃ q, p < q + width ∧ log[q]? = some other

variable {width : ℕ} {log : List κ} {counted : List ℕ}

theorem remembers_nothing (distinct : keys.Nodup) : Remembers width log keys [] :=
  ⟨distinct, by simp, List.nodup_nil, by simp⟩

/-- A longer log has fewer lines that can come again. -/
theorem Remembers.append (h : Remembers width log keys counted) (more : List κ) :
    Remembers width (log ++ more) keys counted := by
  have still : ∀ {q : ℕ} {key : κ}, log[q]? = some key → (log ++ more)[q]? = some key := by
    intro q key found
    rw [List.getElem?_append_left (List.getElem?_eq_some_iff.mp found).1, found]
  refine ⟨h.distinct, fun p mem => ?_, h.once, fun p mem near => ?_⟩
  · have := h.known p mem
    rw [List.length_append]
    omega
  · rw [List.length_append] at near
    obtain ⟨older, key, newer, split, here, close⟩ := h.recent p mem (by omega)
    refine ⟨older, key, newer, split, still here, fun other among => ?_⟩
    obtain ⟨q, beside, there⟩ := close other among
    exact ⟨q, beside, still there⟩

/-- A line is counted where its key is new. -/
theorem Remembers.note (h : Remembers width log keys counted) {p : ℕ} (line : log[p]? = some key)
    (near : log.length ≤ p + width) (unknown : key ∉ keys) :
    Remembers width log (keys ++ [key]) (counted ++ [p]) := by
  have inside : p < log.length := (List.getElem?_eq_some_iff.mp line).1
  have new : p ∉ counted := by
    intro mem
    obtain ⟨older, key', newer, rfl, here, -⟩ := h.recent p mem near
    rw [line, Option.some.injEq] at here
    exact unknown (by simp [here])
  constructor
  · exact List.nodup_append.mpr ⟨h.distinct, List.nodup_singleton key, by
      rintro a mem b single rfl
      exact unknown (List.mem_singleton.mp single ▸ mem)⟩
  · intro p' mem
    rcases List.mem_append.mp mem with mem | mem
    · exact h.known p' mem
    · rwa [List.mem_singleton.mp mem]
  · exact List.nodup_append.mpr ⟨h.once, List.nodup_singleton p, by
      rintro a mem b single rfl
      exact new (List.mem_singleton.mp single ▸ mem)⟩
  · intro p' mem near'
    rcases List.mem_append.mp mem with mem | mem
    · obtain ⟨older, key', newer, rfl, here, close⟩ := h.recent p' mem near'
      refine ⟨older, key', newer ++ [key], by simp, here, fun other among => ?_⟩
      rcases List.mem_append.mp among with among | among
      · exact close other among
      · have before := h.known p' mem
        rw [List.mem_singleton.mp among]
        exact ⟨p, by omega, line⟩
    · rw [List.mem_singleton.mp mem]
      exact ⟨keys, key, [], rfl, line, by simp⟩

theorem Remembers.noteAll [DecidableEq κ] {pairs : List (κ × ℕ)} (h : Remembers width log keys counted)
    (window : ∀ pair ∈ pairs, log[pair.2]? = some pair.1 ∧ log.length ≤ pair.2 + width) :
    Remembers width log (noteAll pairs keys) (counted ++ fresh pairs keys) := by
  induction pairs generalizing keys counted with
  | nil => rwa [fresh, List.append_nil]
  | cons pair pairs ih =>
    obtain ⟨key, p⟩ := pair
    have later := fun pair mem => window pair (List.mem_cons_of_mem _ mem)
    obtain ⟨line, near⟩ := window (key, p) List.mem_cons_self
    rw [RecentKeys.noteAll, List.foldl_cons, fresh]
    by_cases known : key ∈ keys
    · rw [if_pos known, note_of_mem known]
      exact ih h later
    · rw [if_neg known, note_of_not_mem known]
      have rest := ih (h.note line near known) later
      rwa [List.append_assoc] at rest

/-- Two windows have room for all keys behind the one of a line that can come again. -/
theorem Remembers.newer_length (h : Remembers width log keys counted) {p : ℕ} {older newer : List κ}
    (inside : p < log.length) (near : log.length ≤ p + width) (split : keys = older ++ key :: newer)
    (close : ∀ other ∈ newer, ∃ q, p < q + width ∧ log[q]? = some other) : newer.length < 2 * width := by
  have distinct : newer.Nodup := by
    have all := h.distinct
    rw [split, List.nodup_append] at all
    exact (List.nodup_cons.mp all.2.1).2
  have among : newer ⊆ log.drop (p + 1 - width) := by
    intro other mem
    obtain ⟨q, beside, there⟩ := close other mem
    apply List.mem_of_getElem? (i := q - (p + 1 - width))
    rw [List.getElem?_drop, ← there]
    congr 1
    omega
  have bound := (distinct.subperm among).length_le
  rw [List.length_drop] at bound
  omega

/-- The newest keys are enough. -/
theorem Remembers.rtake (h : Remembers width log keys counted) {limit : ℕ} (room : 2 * width ≤ limit) :
    Remembers width log (keys.rtake limit) counted := by
  refine ⟨h.distinct.sublist (List.drop_sublist _ _), h.known, h.once, fun p mem near => ?_⟩
  obtain ⟨older, key, newer, split, line, close⟩ := h.recent p mem near
  have few := h.newer_length (h.known p mem) near split close
  refine ⟨older.drop (keys.length - limit), key, newer, ?_, line, close⟩
  have behind : keys.length - limit ≤ older.length := by
    rw [split, List.length_append, List.length_cons]
    omega
  have cut : keys.rtake limit = (older ++ key :: newer).drop (keys.length - limit) := by
    rw [← split]
    rfl
  rw [cut, List.drop_append_of_le_length behind]

end LocalWebAccess.RecentKeys
