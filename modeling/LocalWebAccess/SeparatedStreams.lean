import Mathlib.Logic.Basic

/-!
# Streams of labelled contents

A stream is made of labels, each with a separator behind it, and of contents with
nothing behind them. Labels can be read back from it, the end of a content cannot:
two lists have one stream exactly if they are equal, or if in one of them a content
goes on with bytes that the other one has in the entries after it. A separator behind
the contents too leaves those of them apart in which it does not occur.
-/
namespace LocalWebAccess.SeparatedStreams

variable {β : Type} {sep : β}

def encode (sep : β) : List (List β × List β) → List β
  | [] => []
  | (label, content) :: rest => label ++ sep :: (content ++ encode sep rest)

/-- Behind equal entries, the second list has in a content what the first one has in the entries
that follow. -/
def Shifted (sep : β) (l l' : List (List β × List β)) : Prop :=
  ∃ common label content extra rest rest', extra ≠ [] ∧ l = common ++ (label, content) :: rest ∧
    l' = common ++ (label, content ++ extra) :: rest' ∧ encode sep rest = extra ++ encode sep rest'

/-- No label has a separator. -/
def Labelled (sep : β) (l : List (List β × List β)) : Prop := ∀ entry ∈ l, sep ∉ entry.1

theorem append_sep_inj {a b c d : List β} (ha : sep ∉ a) (hc : sep ∉ c) (h : a ++ sep :: b = c ++ sep :: d) :
    a = c ∧ b = d := by
  induction a generalizing c with
  | nil =>
    cases c with
    | nil => exact ⟨rfl, (List.cons.inj h).2⟩
    | cons x c =>
      obtain ⟨rfl, -⟩ := List.cons.inj h
      exact absurd List.mem_cons_self hc
  | cons x a ih =>
    cases c with
    | nil =>
      obtain ⟨rfl, -⟩ := List.cons.inj h
      exact absurd List.mem_cons_self ha
    | cons y c =>
      obtain ⟨rfl, tail⟩ := List.cons.inj h
      obtain ⟨rfl, same⟩ := ih (fun listed => ha (List.mem_cons_of_mem _ listed))
        (fun listed => hc (List.mem_cons_of_mem _ listed)) tail
      exact ⟨rfl, same⟩

theorem encode_append (l l' : List (List β × List β)) : encode sep (l ++ l') = encode sep l ++ encode sep l' := by
  induction l with
  | nil => rfl
  | cons entry l ih =>
    obtain ⟨label, content⟩ := entry
    simp [encode, ih]

theorem Shifted.encode_eq {l l' : List (List β × List β)} (h : Shifted sep l l') : encode sep l = encode sep l' := by
  obtain ⟨common, label, content, extra, rest, rest', -, rfl, rfl, same⟩ := h
  simp [encode_append, encode, same]

theorem Shifted.ne {l l' : List (List β × List β)} (h : Shifted sep l l') : l ≠ l' := by
  obtain ⟨common, label, content, extra, rest, rest', some', rfl, rfl, -⟩ := h
  intro same
  have := List.append_cancel_left same
  simp only [List.cons.injEq, Prod.mk.injEq, true_and] at this
  exact some' (List.self_eq_append_right.mp this.1)

theorem Shifted.cons {l l' : List (List β × List β)} (entry : List β × List β) (h : Shifted sep l l') :
    Shifted sep (entry :: l) (entry :: l') := by
  obtain ⟨common, label, content, extra, rest, rest', some', rfl, rfl, same⟩ := h
  exact ⟨entry :: common, label, content, extra, rest, rest', some', rfl, rfl, same⟩

theorem encode_cons_ne_nil (entry : List β × List β) (l : List (List β × List β)) : encode sep (entry :: l) ≠ [] := by
  simp [encode]

/-- Equal or shifted: nothing else makes two streams the same. -/
theorem encode_eq_iff {l l' : List (List β × List β)} (h : Labelled sep l) (h' : Labelled sep l') :
    encode sep l = encode sep l' ↔ l = l' ∨ Shifted sep l l' ∨ Shifted sep l' l := by
  constructor
  · intro same
    induction l generalizing l' with
    | nil =>
      cases l' with
      | nil => exact .inl rfl
      | cons entry l' => exact absurd same.symm (encode_cons_ne_nil entry l')
    | cons entry l ih =>
      cases l' with
      | nil => exact absurd same (encode_cons_ne_nil entry l)
      | cons entry' l' =>
        obtain ⟨label, content⟩ := entry
        obtain ⟨label', content'⟩ := entry'
        obtain ⟨rfl, tail⟩ := append_sep_inj (h _ List.mem_cons_self) (h' _ List.mem_cons_self) same
        have rest : Labelled sep l := fun entry listed => h entry (List.mem_cons_of_mem _ listed)
        have rest' : Labelled sep l' := fun entry listed => h' entry (List.mem_cons_of_mem _ listed)
        -- one of the two contents is the beginning of the other
        rcases List.append_eq_append_iff.mp tail with ⟨extra, rfl, shift⟩ | ⟨extra, rfl, shift⟩
        · cases extra with
          | nil =>
            rw [List.append_nil]
            rcases ih rest rest' shift with rfl | shifted | shifted
            · exact .inl rfl
            · exact .inr (.inl (shifted.cons _))
            · exact .inr (.inr (shifted.cons _))
          | cons b extra =>
            exact .inr (.inl ⟨[], label, content, b :: extra, l, l', by simp, rfl, rfl, shift⟩)
        · cases extra with
          | nil =>
            rw [List.append_nil]
            rcases ih rest rest' shift.symm with rfl | shifted | shifted
            · exact .inl rfl
            · exact .inr (.inl (shifted.cons _))
            · exact .inr (.inr (shifted.cons _))
          | cons b extra =>
            exact .inr (.inr ⟨[], label, content', b :: extra, l', l, by simp, rfl, rfl, shift⟩)
  · rintro (rfl | shifted | shifted)
    · rfl
    · exact shifted.encode_eq
    · exact shifted.encode_eq.symm

/-! ## Separators behind the contents -/

/-- A stream whose contents have a separator behind them too. -/
def encodeClosed (sep : β) (l : List (List β × List β)) : List β :=
  l.flatMap fun entry => entry.1 ++ sep :: (entry.2 ++ [sep])

/-- Behind equal entries, a content of the second list goes on, after a separator, with what the first
one has in the entries that follow. -/
def Continued (sep : β) (l l' : List (List β × List β)) : Prop :=
  ∃ common label content more rest rest', l = common ++ (label, content) :: rest ∧
    l' = common ++ (label, content ++ sep :: more) :: rest' ∧
    encodeClosed sep rest = more ++ sep :: encodeClosed sep rest'

theorem encodeClosed_append (l l' : List (List β × List β)) :
    encodeClosed sep (l ++ l') = encodeClosed sep l ++ encodeClosed sep l' :=
  List.flatMap_append ..

theorem encodeClosed_cons (label content : List β) (l : List (List β × List β)) :
    encodeClosed sep ((label, content) :: l) = label ++ sep :: (content ++ sep :: encodeClosed sep l) := by
  simp [encodeClosed]

theorem Continued.encode_eq {l l' : List (List β × List β)} (h : Continued sep l l') :
    encodeClosed sep l = encodeClosed sep l' := by
  obtain ⟨common, label, content, more, rest, rest', rfl, rfl, same⟩ := h
  simp [encodeClosed_append, encodeClosed_cons, same]

theorem Continued.cons {l l' : List (List β × List β)} (entry : List β × List β) (h : Continued sep l l') :
    Continued sep (entry :: l) (entry :: l') := by
  obtain ⟨common, label, content, more, rest, rest', rfl, rfl, same⟩ := h
  exact ⟨entry :: common, label, content, more, rest, rest', rfl, rfl, same⟩

/-- Contents without separators go on with nothing. -/
theorem not_continued_of_plain {l l' : List (List β × List β)} (plain : ∀ entry ∈ l', sep ∉ entry.2) :
    ¬Continued sep l l' := by
  rintro ⟨common, label, content, more, rest, rest', -, rfl, -⟩
  exact plain _ (List.mem_append_right _ List.mem_cons_self) (List.mem_append_right _ List.mem_cons_self)

/-- One of two contents with a separator behind it begins what the other one begins. -/
theorem closed_append_cases {a b c d : List β} (h : a ++ sep :: b = c ++ sep :: d) :
    (a = c ∧ b = d) ∨ (∃ more, c = a ++ sep :: more ∧ b = more ++ sep :: d) ∨
      ∃ more, a = c ++ sep :: more ∧ d = more ++ sep :: b := by
  rcases List.append_eq_append_iff.mp h with ⟨extra, rfl, shift⟩ | ⟨extra, rfl, shift⟩
  · cases extra with
    | nil => exact .inl ⟨(List.append_nil a).symm, (List.cons.inj shift).2⟩
    | cons x more =>
      obtain ⟨rfl, tail⟩ := List.cons.inj shift
      exact .inr (.inl ⟨more, rfl, tail⟩)
  · cases extra with
    | nil => exact .inl ⟨List.append_nil c, (List.cons.inj shift).2.symm⟩
    | cons x more =>
      obtain ⟨rfl, tail⟩ := List.cons.inj shift
      exact .inr (.inr ⟨more, rfl, tail⟩)

theorem encodeClosed_eq_iff {l l' : List (List β × List β)} (h : Labelled sep l) (h' : Labelled sep l') :
    encodeClosed sep l = encodeClosed sep l' ↔ l = l' ∨ Continued sep l l' ∨ Continued sep l' l := by
  constructor
  · intro same
    induction l generalizing l' with
    | nil =>
      cases l' with
      | nil => exact .inl rfl
      | cons entry l' => simp [encodeClosed] at same
    | cons entry l ih =>
      cases l' with
      | nil => simp [encodeClosed] at same
      | cons entry' l' =>
        obtain ⟨label, content⟩ := entry
        obtain ⟨label', content'⟩ := entry'
        rw [encodeClosed_cons, encodeClosed_cons] at same
        obtain ⟨rfl, tail⟩ := append_sep_inj (h _ List.mem_cons_self) (h' _ List.mem_cons_self) same
        have rest : Labelled sep l := fun entry listed => h entry (List.mem_cons_of_mem _ listed)
        have rest' : Labelled sep l' := fun entry listed => h' entry (List.mem_cons_of_mem _ listed)
        rcases closed_append_cases tail with ⟨rfl, equal⟩ | ⟨more, rfl, goes⟩ | ⟨more, rfl, goes⟩
        · rcases ih rest rest' equal with rfl | continued | continued
          · exact .inl rfl
          · exact .inr (.inl (continued.cons _))
          · exact .inr (.inr (continued.cons _))
        · exact .inr (.inl ⟨[], label, content, more, l, l', rfl, rfl, goes⟩)
        · exact .inr (.inr ⟨[], label, content', more, l', l, rfl, rfl, goes⟩)
  · rintro (rfl | continued | continued)
    · rfl
    · exact continued.encode_eq
    · exact continued.encode_eq.symm

/-- Contents with a separator behind each. -/
def terminated (sep : β) (contents : List (List β)) : List β := contents.flatMap (fun content => content ++ [sep])

theorem terminated_inj {l l' : List (List β)} (h : ∀ content ∈ l, sep ∉ content) (h' : ∀ content ∈ l', sep ∉ content)
    (same : terminated sep l = terminated sep l') : l = l' := by
  induction l generalizing l' with
  | nil =>
    cases l' with
    | nil => rfl
    | cons content l' => simp [terminated] at same
  | cons content l ih =>
    cases l' with
    | nil => simp [terminated] at same
    | cons content' l' =>
      simp only [terminated, List.flatMap_cons, List.append_assoc, List.singleton_append] at same
      obtain ⟨rfl, tail⟩ := append_sep_inj (h _ List.mem_cons_self) (h' _ List.mem_cons_self) same
      rw [ih (fun c listed => h c (List.mem_cons_of_mem _ listed))
        (fun c listed => h' c (List.mem_cons_of_mem _ listed)) tail]

end LocalWebAccess.SeparatedStreams
