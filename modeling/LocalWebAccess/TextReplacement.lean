import Mathlib.Data.List.Infix
import Mathlib.Data.List.Shortlex
import Mathlib.Logic.Function.Basic
import Mathlib.Data.Nat.Notation

/-!
# Replacing the occurrences of a text

The occurrences are found in one pass from the left and do not overlap. An occurrence
counts where the text after it is one that may follow. A replacement moves every text it
changes in one direction, so that no later replacement in this direction undoes it.
-/
namespace LocalWebAccess.TextReplacement

variable {α : Type*}

/-! ## Occurrences -/

section occurrences

variable (needle : List α) (follows : List α → Bool)

/-- The text starts with an occurrence. -/
def Hit (text : List α) : Prop := needle <+: text ∧ follows (text.drop needle.length) = true

def Occurs (text : List α) : Prop := ∃ tail ∈ text.tails, Hit needle follows tail

variable [DecidableEq α]

instance : DecidablePred (Hit needle follows) := fun _ => inferInstanceAs (Decidable (_ ∧ _))

instance : DecidablePred (Occurs needle follows) := fun _ => inferInstanceAs (Decidable (∃ _ ∈ _, _))

end occurrences

variable {needle : List α} {follows : List α → Bool} {text rest : List α} {c : α}

theorem hit_append : Hit needle follows (needle ++ rest) ↔ follows rest = true := by
  simp [Hit]

theorem Hit.eq_append (hit : Hit needle follows text) : ∃ rest, text = needle ++ rest ∧ follows rest = true := by
  obtain ⟨⟨rest, rfl⟩, ends⟩ := hit
  exact ⟨rest, rfl, by simpa using ends⟩

theorem occurs_cons : Occurs needle follows (c :: text) ↔
    Hit needle follows (c :: text) ∨ Occurs needle follows text := by
  simp [Occurs]

theorem not_occurs_nil (filled : needle ≠ []) : ¬ Occurs needle follows [] := by
  simp [Occurs, Hit, filled]

theorem occurs_of_suffix {tail : List α} (suffix : tail <:+ text) (occurs : Occurs needle follows tail) :
    Occurs needle follows text := by
  obtain ⟨found, mem, hit⟩ := occurs
  exact ⟨found, (List.mem_tails _ _).mpr (((List.mem_tails _ _).mp mem).trans suffix), hit⟩

theorem occurs_append (needle front : List α) (ends : follows rest = true) :
    Occurs needle follows (front ++ (needle ++ rest)) :=
  occurs_of_suffix (List.suffix_append _ _)
    ⟨needle ++ rest, (List.mem_tails _ _).mpr (List.suffix_refl _), hit_append.mpr ends⟩

/-- A text with marked places of several kinds. -/
abbrev Marked (α κ : Type*) : Type _ := List (α ⊕ κ)

variable {κ : Type*} {f g : κ → List α} {m : Marked α κ}

/-- The text with its marked places filled. -/
def fill (f : κ → List α) : Marked α κ → List α
  | [] => []
  | .inl c :: m => c :: fill f m
  | .inr k :: m => f k ++ fill f m

theorem fill_append (f : κ → List α) (m m' : Marked α κ) : fill f (m ++ m') = fill f m ++ fill f m' := by
  induction m with
  | nil => rfl
  | cons token m ih => cases token <;> simp [fill, ih]

/-- A place in a text: at one of its characters, or within one of its marks. -/
def SplitAt (f : κ → List α) (m : Marked α κ) (front back : List α) : Prop :=
  (∃ A c B, m = A ++ .inl c :: B ∧ fill f A = front ∧ c :: fill f B = back) ∨
    ∃ A k B p tail, m = A ++ .inr k :: B ∧ f k = p ++ tail ∧ tail ≠ [] ∧ fill f A ++ p = front ∧
      tail ++ fill f B = back

theorem SplitAt.cons (token : α ⊕ κ) {front back : List α} (place : SplitAt f m front back) :
    SplitAt f (token :: m) (fill f [token] ++ front) back := by
  rcases place with ⟨A, c, B, rfl, rfl, rest⟩ | ⟨A, k, B, p, tail, rfl, filling, inked, rfl, rest⟩
  · exact .inl ⟨token :: A, c, B, rfl, fill_append f [token] A, rest⟩
  · refine .inr ⟨token :: A, k, B, p, tail, rfl, filling, inked, ?_, rest⟩
    rw [← List.append_assoc, ← fill_append]
    rfl

/-- The occurrences are found at the marks of one kind, and nowhere else. -/
def FoundAt (needle : List α) (follows : List α → Bool) (k : κ) (f : κ → List α) : Marked α κ → Prop
  | [] => True
  | .inl c :: m => ¬ Hit needle follows (c :: fill f m) ∧ FoundAt needle follows k f m
  | .inr j :: m =>
    (j = k → follows (fill f m) = true) ∧
      (j ≠ k → ∀ tail, tail <:+ f j → tail ≠ [] → ¬ Hit needle follows (tail ++ fill f m)) ∧
      FoundAt needle follows k f m

/-! ## Texts that do not overlap -/

/-- No text of a list overlaps another one or itself. -/
structure Solitary (roots : List (List α)) : Prop where
  overlap : ∀ x ∈ roots, ∀ y ∈ roots, ∀ s ∈ x.tails, s ≠ [] → s <+: y → s = x ∧ s = y
  contained : ∀ x ∈ roots, ∀ y ∈ roots, x <:+: y → x = y

instance [DecidableEq α] (roots : List (List α)) : Decidable (Solitary roots) :=
  decidable_of_iff ((∀ x ∈ roots, ∀ y ∈ roots, ∀ s ∈ x.tails, s ≠ [] → s <+: y → s = x ∧ s = y) ∧
    ∀ x ∈ roots, ∀ y ∈ roots, x <:+: y → x = y) ⟨fun both => ⟨both.1, both.2⟩, fun h => ⟨h.overlap, h.contained⟩⟩

variable {roots : List (List α)}

/-- A strict order that holds in every context. -/
structure Contextual (R : List α → List α → Prop) : Prop where
  irrefl : ∀ s, ¬ R s s
  trans : ∀ s t u, R s t → R t u → R s u
  context : ∀ p q s t, R s t → R (p ++ s ++ q) (p ++ t ++ q)

variable {R : List α → List α → Prop}

theorem Contextual.swap (order : Contextual R) : Contextual fun s t => R t s where
  irrefl := order.irrefl
  trans s t u st tu := order.trans u t s tu st
  context p q s t st := order.context p q t s st

theorem lex_append_right [LinearOrder α] {s t : List α} (size : s.length = t.length)
    (lex : List.Lex (· < ·) s t) (q : List α) : List.Lex (· < ·) (s ++ q) (t ++ q) := by
  induction lex with
  | nil => simp at size
  | cons _ ih => exact .cons (ih (Nat.succ.inj size))
  | rel less => exact .rel less

theorem shortlex_contextual [LinearOrder α] : Contextual (List.Shortlex fun a b : α => a < b) where
  irrefl s less := List.Shortlex.asymm.asymm s s less less
  trans s t u st tu := by
    rw [List.shortlex_def] at *
    rcases st with st | ⟨size, st⟩ <;> rcases tu with tu | ⟨size', tu⟩
    · exact .inl (st.trans tu)
    · exact .inl (by omega)
    · exact .inl (by omega)
    · exact .inr ⟨size.trans size', List.lt_trans st tu⟩
  context p q s t st := by
    rw [List.append_assoc, List.append_assoc]
    apply List.Shortlex.append_left
    rw [List.shortlex_def] at *
    simp only [List.length_append]
    rcases st with st | ⟨size, st⟩
    · exact .inl (by omega)
    · exact .inr ⟨by omega, lex_append_right size st q⟩

/-- Different texts are in some order. -/
theorem exists_contextual [LinearOrder α] {s t : List α} (differ : s ≠ t) : ∃ R, Contextual R ∧ R s t := by
  by_cases less : List.Shortlex (· < ·) s t
  · exact ⟨_, shortlex_contextual, less⟩
  · by_cases more : List.Shortlex (· < ·) t s
    · exact ⟨_, shortlex_contextual.swap, more⟩
    · exact absurd (List.Shortlex.trichotomous.trichotomous s t less more) differ

/-! ## The pass -/

variable [DecidableEq α]

section pass

variable (needle : List α) (follows : List α → Bool) (repl : List α)

/-- The pass over a text whose first `skip` characters belong to an occurrence that has been replaced. -/
def replaceFrom : (skip : ℕ) → List α → List α
  | _, [] => []
  | skip + 1, _ :: text => replaceFrom skip text
  | 0, c :: text =>
    if Hit needle follows (c :: text) then repl ++ replaceFrom (needle.length - 1) text
    else c :: replaceFrom 0 text

def replace (text : List α) : List α := replaceFrom needle follows repl 0 text

end pass

variable {repl : List α}

theorem replaceFrom_eq (skip : ℕ) (text : List α) :
    replaceFrom needle follows repl skip text = replace needle follows repl (text.drop skip) := by
  induction text generalizing skip with
  | nil => cases skip <;> rfl
  | cons c text ih =>
    cases skip with
    | zero => rfl
    | succ skip => exact ih skip

@[simp]
theorem replace_nil : replace needle follows repl [] = [] := rfl

/-- The pass goes on behind an occurrence. -/
theorem replace_append (repl : List α) (filled : needle ≠ []) (ends : follows rest = true) :
    replace needle follows repl (needle ++ rest) = repl ++ replace needle follows repl rest := by
  obtain ⟨c, front, rfl⟩ := List.exists_cons_of_ne_nil filled
  have hit : Hit (c :: front) follows (c :: (front ++ rest)) := hit_append.mpr ends
  rw [List.cons_append, replace, replaceFrom, if_pos hit, replaceFrom_eq]
  simp

theorem replace_cons (miss : ¬ Hit needle follows (c :: text)) :
    replace needle follows repl (c :: text) = c :: replace needle follows repl text := by
  rw [replace, replaceFrom, if_neg miss]
  rfl

/-- The induction along the pass. -/
theorem pass_induction {P : List α → Prop} (follows : List α → Bool) (filled : needle ≠ []) (nil : P [])
    (hit : ∀ rest, follows rest = true → P rest → P (needle ++ rest))
    (miss : ∀ c text, ¬ Hit needle follows (c :: text) → P text → P (c :: text)) (text : List α) : P text := by
  induction size : text.length using Nat.strong_induction_on generalizing text with
  | _ n ih =>
    rcases text with _ | ⟨c, text⟩
    · exact nil
    · by_cases found : Hit needle follows (c :: text)
      · obtain ⟨rest, eq, ends⟩ := found.eq_append
        have shorter : rest.length < n := by
          have := List.length_pos_of_ne_nil filled
          rw [← size, eq, List.length_append]
          omega
        rw [eq]
        exact hit rest ends (ih _ shorter rest rfl)
      · exact miss c text found (ih _ (by rw [← size]; exact Nat.lt_succ_self _) text rfl)

theorem replace_eq_self (absent : ¬ Occurs needle follows text) : replace needle follows repl text = text := by
  induction text with
  | nil => rfl
  | cons c text ih =>
    rw [occurs_cons, not_or] at absent
    rw [replace_cons absent.1, ih absent.2]

/-- Every occurrence moves the text in the direction of the replacement. -/
theorem replace_moves (order : Contextual R) (filled : needle ≠ []) (moves : R needle repl)
    (occurs : Occurs needle follows text) : R text (replace needle follows repl text) := by
  induction text using pass_induction follows filled with
  | nil => exact absurd occurs (not_occurs_nil filled)
  | hit rest ends ih =>
    rw [replace_append repl filled ends]
    have first : R (needle ++ rest) (repl ++ rest) := order.context [] rest _ _ moves
    by_cases again : Occurs needle follows rest
    · have later := order.context repl [] _ _ (ih again)
      rw [List.append_nil, List.append_nil] at later
      exact order.trans _ _ _ first later
    · rwa [replace_eq_self again]
  | miss c text miss ih =>
    rw [replace_cons miss]
    have later := order.context [c] [] _ _ (ih ((occurs_cons.mp occurs).resolve_left miss))
    simpa using later

theorem replace_toward (order : Contextual R) (filled : needle ≠ []) (moves : R needle repl) (text : List α) :
    replace needle follows repl text = text ∨ R text (replace needle follows repl text) := by
  by_cases occurs : Occurs needle follows text
  · exact .inr (replace_moves order filled moves occurs)
  · exact .inl (replace_eq_self occurs)

/-! ## A pass over a marked text -/

end LocalWebAccess.TextReplacement
