import LocalWebAccess.ConfigFile

/-!
# Writers of local-web.yml that do not overlap

The invariant of the writers and readers of `ConfigFile`, for runs in which nobody reads a torn
file and nobody writes back what another operation has changed.
-/
namespace LocalWebAccess.ConfigFile
open GuardedRuns

variable {schema : Schema} {s t : State} {o p : OpId} {op other : Op} {pc : Pc} {key : Key} {text : Text}

theorem KeepsValue.refl (value : Option Value) : KeepsValue schema key value value := .inl rfl

theorem KeepsValue.trans {a b c : Option Value} (h : KeepsValue schema key a b) (h' : KeepsValue schema key b c) :
    KeepsValue schema key a c := by
  rcases h with rfl | ⟨none, default⟩
  · exact h'
  · rcases h' with rfl | ⟨none', -⟩
    · exact .inr ⟨none, default⟩
    · cases none'.symm.trans default

theorem Kept.onward {next : Text} (h : Kept schema op text key)
    (keeps : KeepsValue schema key (valueOn text key) (valueOn next key)) : Kept schema op next key := by
  obtain ⟨value, source, kept⟩ := h
  exact ⟨value, source, kept.trans keeps⟩

/-- What an operation relies on where it stands. -/
def Fact (schema : Schema) (s : State) (o : OpId) (op : Op) : Prop :=
  match op.pc with
  | .done after => ∀ key, op.kind.key ≠ some key → Kept schema op after key
  | .writing file text => s.current = some file ∧ ∀ key, op.kind.key ≠ some key →
      Kept schema op text key ∧ KeepsValue schema key (valueOn s.text key) (valueOn text key)
  | .written | .restoring _ => ∀ key, op.kind.key ≠ some key → Kept schema op s.text key
  | _ => ∀ key, Kept schema op s.text key ∨
      ∃ p other, p ≠ o ∧ s.ops p = some other ∧ other.pc.active = true ∧ other.kind.key = some key

/-- What the files and the readers rely on. -/
structure Base (schema : Schema) (s : State) : Prop where
  known : s.text ∈ s.texts
  absent : s.current = none → s.text = []
  current_lt : ∀ file, s.current = some file → file < s.fresh
  load_lt : ∀ l q file, s.loads l = some (q, some file) → file < s.fresh
  load_none : ∀ l q, s.loads l = some (q, none) → [] ∈ s.texts
  memory : ∀ q config, s.memory q = some config → ∃ text ∈ s.texts, config = meaning schema text

structure Inv (schema : Schema) (s : State) : Prop where
  base : Base schema s
  files : ∀ file, file < s.fresh → Torn s file ∨ s.contents file ∈ s.texts
  alone : ∀ o p op other, s.ops o = some op → s.ops p = some other → op.pc.active = true → other.pc.active = true →
    o = p
  fact : ∀ o op, s.ops o = some op → Fact schema s o op

theorem initial (text : Option Text) : Inv schema (State.initial text) := by
  refine ⟨⟨List.mem_singleton_self _, ?_, ?_, ?_, ?_, ?_⟩, fun _ _ => .inr (List.mem_singleton_self _), ?_, ?_⟩
  · intro none
    rcases text with _ | text
    · rfl
    · cases none
  · intro file current
    rcases text with _ | text
    · cases current
    · obtain rfl : (0 : FileId) = file := Option.some.inj current
      exact Nat.zero_lt_one
  · intro l q file opened
    cases opened
  · intro l q opened
    cases opened
  · intro q config held
    cases held
  · intro o p op other mine
    cases mine
  · intro o op mine
    cases mine

namespace Pc

def waiting : Pc → Bool
  | starting | locked | ready _ => true
  | _ => false

theorem inactive_of_waiting (h : pc.waiting = true) : pc.active = false := by
  cases pc with
  | starting | locked | ready _ => rfl
  | writing _ _ | written | restoring _ | done _ => cases h

end Pc

/-- The keys of an operation that waits have kept their values, up to what an active one sets. -/
def Waits (schema : Schema) (s : State) (o : OpId) (op : Op) : Prop :=
  ∀ key, Kept schema op s.text key ∨
    ∃ p other, p ≠ o ∧ s.ops p = some other ∧ other.pc.active = true ∧ other.kind.key = some key

theorem fact_waiting (waiting : op.pc.waiting = true) : Fact schema s o op ↔ Waits schema s o op := by
  rcases op with ⟨kind, before, given, snapshot, failed, pc⟩
  cases pc with
  | starting | locked | ready _ => exact Iff.rfl
  | writing _ _ | written | restoring _ | done _ => cases waiting

theorem Inv.relock (h : Inv schema s) (lock : Option OpId) : Inv schema { s with lock := lock } :=
  ⟨⟨h.base.known, h.base.absent, h.base.current_lt, h.base.load_lt, h.base.load_none, h.base.memory⟩, h.files,
    h.alone, h.fact⟩

/-! ## An operation moves on -/

section
variable {op' : Op}

theorem setPc_ops_self : (t.setPc o op' pc).ops o = some { op' with pc := pc } := if_pos rfl

theorem setPc_ops_of_ne (differs : p ≠ o) : (t.setPc o op' pc).ops p = t.ops p := if_neg differs

/-- The facts of the others, where the text stays and the operation stays active if it was. -/
theorem Fact.beside (h : Fact schema s p other) (ops : t.ops = s.ops) (text : t.text = s.text)
    (current : t.current = s.current)
    (stays : ∀ op, s.ops o = some op → op.pc.active = true → pc.active = true ∧ op'.kind = op.kind) :
    Fact schema (t.setPc o op' pc) p other := by
  have text' : (t.setPc o op' pc).text = s.text := text
  have waits : Waits schema s p other → Waits schema (t.setPc o op' pc) p other := by
    intro waits key
    rw [text']
    rcases waits key with kept | ⟨q, another, differs, theirs, active, sets⟩
    · exact .inl kept
    · refine .inr ?_
      by_cases same : q = o
      · subst same
        obtain ⟨active, kind⟩ := stays another theirs active
        exact ⟨q, _, differs, setPc_ops_self, active, by rw [← sets, ← kind]⟩
      · exact ⟨q, another, differs, (setPc_ops_of_ne same).trans (by rw [ops, theirs]), active, sets⟩
  rcases other with ⟨kind, before, given, snapshot, failed, pc'⟩
  cases pc' with
  | done after => exact h
  | writing file next =>
    refine ⟨current.trans h.1, fun key free => ⟨(h.2 key free).1, ?_⟩⟩
    rw [text']
    exact (h.2 key free).2
  | written | restoring _ =>
    intro key free
    rw [text']
    exact h key free
  | starting | locked | ready _ => exact waits h

/-- The facts of the others, where the operation is active and has changed only its own key. -/
theorem Fact.changed (h : Fact schema s p other) (differs : p ≠ o) (mine : s.ops o = some op)
    (kind : op'.kind = op.kind) (active : pc.active = true)
    (quiet : ∀ q another, q ≠ o → s.ops q = some another → another.pc.active = false) (theirs : s.ops p = some other)
    (keeps : ∀ key, op.kind.key ≠ some key → KeepsValue schema key (valueOn s.text key) (valueOn t.text key)) :
    Fact schema (t.setPc o op' pc) p other := by
  have inactive := quiet p other differs theirs
  have waits : Waits schema s p other → Waits schema (t.setPc o op' pc) p other := by
    intro waits key
    by_cases sets : op.kind.key = some key
    · exact .inr ⟨o, _, differs.symm, setPc_ops_self, active, by rw [← sets, ← kind]⟩
    · rcases waits key with kept | ⟨q, another, -, named, active', sets'⟩
      · exact .inl (kept.onward (keeps key sets))
      · by_cases same : q = o
        · subst same
          obtain rfl := Option.some.inj (mine.symm.trans named)
          exact absurd sets' sets
        · cases (quiet q another same named).symm.trans active'
  rcases other with ⟨kind, before, given, snapshot, failed, pc'⟩
  cases pc' with
  | done after => exact h
  | writing _ _ | written | restoring _ => cases inactive
  | starting | locked | ready _ => exact waits h

/-- An operation moves on: what must be shown of the state it leaves. -/
theorem Inv.put (h : Inv schema s) (ops : t.ops = s.ops) (base : Base schema t)
    (files : ∀ file, file < t.fresh → (∃ text, pc = .writing file text) ∨
      (∃ p other text, p ≠ o ∧ s.ops p = some other ∧ other.pc = .writing file text) ∨ t.contents file ∈ t.texts)
    (quiet : pc.active = true → ∀ p other, p ≠ o → s.ops p = some other → other.pc.active = false)
    (others : ∀ p other, p ≠ o → s.ops p = some other → Fact schema (t.setPc o op' pc) p other)
    (own : Fact schema (t.setPc o op' pc) o { op' with pc := pc }) : Inv schema (t.setPc o op' pc) := by
  have theirs : ∀ p other, p ≠ o → (t.setPc o op' pc).ops p = some other → s.ops p = some other := by
    intro p other differs found
    rw [← ops]
    exact (setPc_ops_of_ne differs).symm.trans found
  refine ⟨⟨base.known, base.absent, base.current_lt, base.load_lt, base.load_none, base.memory⟩, ?_, ?_, ?_⟩
  · intro file below
    rcases files file below with ⟨text, writing⟩ | ⟨p, other, text, differs, found, writing⟩ | clean
    · exact .inl ⟨o, _, text, setPc_ops_self, writing⟩
    · exact .inl ⟨p, other, text, (setPc_ops_of_ne differs).trans (by rw [ops, found]), writing⟩
    · exact .inr clean
  · intro p q first second left right active active'
    by_cases one : p = o
    · by_cases two : q = o
      · rw [one, two]
      · subst one
        obtain rfl := Option.some.inj (setPc_ops_self.symm.trans left)
        cases (quiet active q second two (theirs q second two right)).symm.trans active'
    · by_cases two : q = o
      · subst two
        obtain rfl := Option.some.inj (setPc_ops_self.symm.trans right)
        cases (quiet active' p first one (theirs p first one left)).symm.trans active
      · exact h.alone p q first second (theirs p first one left) (theirs q second two right) active active'
  · intro p other found
    by_cases one : p = o
    · subst one
      obtain rfl := Option.some.inj (setPc_ops_self.symm.trans found)
      exact own
    · exact others p other one (theirs p other one found)

/-- The files that are torn by others, or clean. -/
theorem Inv.torn_others (h : Inv schema s) (idle : ∀ op, s.ops o = some op → ∀ file text, op.pc ≠ .writing file text) :
    ∀ file, file < s.fresh → (∃ p other text, p ≠ o ∧ s.ops p = some other ∧ other.pc = .writing file text) ∨
      s.contents file ∈ s.texts := by
  intro file below
  rcases h.files file below with ⟨p, other, text, found, writing⟩ | clean
  · refine .inl ⟨p, other, text, ?_, found, writing⟩
    rintro rfl
    exact idle other found file text writing
  · exact .inr clean

theorem not_writing_of_waiting (waiting : pc.waiting = true) (file : FileId) (text : Text) :
    pc ≠ .writing file text := by
  rintro rfl
  cases waiting

/-- An operation that waits goes on waiting, or an operation begins. -/
theorem Inv.waits (h : Inv schema s) (was : ∀ op, s.ops o = some op → op.pc.waiting = true) (enters : pc.waiting = true)
    (own : Waits schema s o op') : Inv schema (s.setPc o op' pc) := by
  have inactive : ∀ op, s.ops o = some op → op.pc.active = true → pc.active = true ∧ op'.kind = op.kind := by
    intro op mine active
    cases (Pc.inactive_of_waiting (was op mine)).symm.trans active
  refine h.put rfl h.base (fun file below => .inr (h.torn_others
    (fun op mine => not_writing_of_waiting (was op mine)) file below))
    (fun active => ?_) (fun p other _ theirs => (h.fact p other theirs).beside rfl rfl rfl inactive)
    ((fact_waiting enters).mpr fun key => ?_)
  · cases (Pc.inactive_of_waiting enters).symm.trans active
  · rcases own key with kept | ⟨q, another, differs, theirs, active⟩
    · exact .inl kept
    · exact .inr ⟨q, another, differs, (setPc_ops_of_ne differs).trans theirs, active⟩

/-- An operation that waits ends without having written. -/
theorem Inv.drop (h : Inv schema s) (was : ∀ op, s.ops o = some op → op.pc.waiting = true) : Inv schema (s.drop o) := by
  have theirs : ∀ p other, (s.drop o).ops p = some other → p ≠ o ∧ s.ops p = some other := by
    intro p other found
    by_cases same : p = o
    · subst same
      have gone : (s.drop p).ops p = none := if_pos rfl
      cases gone.symm.trans found
    · exact ⟨same, (if_neg same).symm.trans found⟩
  have stays : ∀ p other, p ≠ o → s.ops p = some other → (s.drop o).ops p = some other := fun p other differs found =>
    (if_neg differs).trans found
  refine ⟨⟨h.base.known, h.base.absent, h.base.current_lt, h.base.load_lt, h.base.load_none, h.base.memory⟩, ?_, ?_, ?_⟩
  · intro file below
    rcases h.torn_others (fun op mine => not_writing_of_waiting (was op mine)) file below with
      ⟨p, other, text, differs, found, writing⟩ | clean
    · exact .inl ⟨p, other, text, stays p other differs found, writing⟩
    · exact .inr clean
  · intro p q first second left right
    exact h.alone p q first second (theirs p first left).2 (theirs q second right).2
  · intro p other found
    obtain ⟨differs, found⟩ := theirs p other found
    have fact := h.fact p other found
    have waits : Waits schema s p other → Waits schema (s.drop o) p other := by
      intro waits key
      rcases waits key with kept | ⟨q, another, other', named, active, sets⟩
      · exact .inl kept
      · refine .inr ⟨q, another, other', stays q another ?_ named, active, sets⟩
        rintro rfl
        cases (Pc.inactive_of_waiting (was another named)).symm.trans active
    rcases other with ⟨kind, before, given, snapshot, failed, pc'⟩
    cases pc' with
    | done after => exact fact
    | writing file next => exact fact
    | written | restoring _ => exact fact
    | starting | locked | ready _ => exact waits fact

/-! ## Writing -/

/-- The text that an active operation writes keeps what the operation must keep. -/
theorem Inv.kept_next (h : Inv schema s) (mine : s.ops o = some op)
    (shape : op.pc = .ready text ∨ op.pc = .restoring text)
    (quiet : ∀ p other, p ≠ o → s.ops p = some other → other.pc.active = false)
    (keeps : ∀ key, op.kind.key ≠ some key → KeepsValue schema key (valueOn s.text key) (valueOn text key)) :
    ∀ key, op.kind.key ≠ some key → Kept schema op text key := by
  intro key free
  have fact := h.fact o op mine
  have current : Kept schema op s.text key := by
    rcases op with ⟨kind, before, given, snapshot, failed, pc⟩
    rcases shape with rfl | rfl
    · rcases fact key with kept | ⟨p, other, differs, theirs, active, -⟩
      · exact kept
      · cases (quiet p other differs theirs).symm.trans active
    · exact fact key free
  exact current.onward (keeps key free)

/-- Where no operation is active every file is clean. -/
theorem Inv.clean (h : Inv schema s) (quiet : ∀ p other, s.ops p = some other → other.pc.active = false) :
    ∀ file, file < s.fresh → s.contents file ∈ s.texts := by
  intro file below
  rcases h.files file below with ⟨p, other, text, found, writing⟩ | clean
  · have inactive := quiet p other found
    rw [writing] at inactive
    cases inactive
  · exact clean

/-- The same beside one operation that does not write in place. -/
theorem Inv.clean_beside (h : Inv schema s) (mine : s.ops o = some op) (idle : ∀ file text, op.pc ≠ .writing file text)
    (quiet : ∀ p other, p ≠ o → s.ops p = some other → other.pc.active = false) :
    ∀ file, file < s.fresh → s.contents file ∈ s.texts := by
  intro file below
  have unwritten : ∀ other, s.ops o = some other → ∀ file text, other.pc ≠ .writing file text := by
    intro other theirs
    obtain rfl := Option.some.inj (mine.symm.trans theirs)
    exact idle
  rcases h.torn_others unwritten file below with ⟨p, other, text, differs, found, writing⟩ | clean
  · have inactive := quiet p other differs found
    rw [writing] at inactive
    cases inactive
  · exact clean

theorem Base.install (h : Base schema s) (text : Text) : Base schema (s.install text) where
  known := List.mem_cons_self
  absent := by
    intro none
    cases none
  current_lt := by
    intro file current
    obtain rfl := Option.some.inj current
    exact Nat.lt_succ_self _
  load_lt := fun l q file opened => Nat.lt_succ_of_lt (h.load_lt l q file opened)
  load_none := fun l q opened => List.mem_cons_of_mem _ (h.load_none l q opened)
  memory := by
    intro q config held
    obtain ⟨known, mem, eq⟩ := h.memory q config held
    exact ⟨known, List.mem_cons_of_mem _ mem, eq⟩

theorem install_clean (clean : ∀ file, file < s.fresh → s.contents file ∈ s.texts) :
    ∀ file, file < (s.install text).fresh → (s.install text).contents file ∈ (s.install text).texts := by
  intro file below
  by_cases new : file = s.fresh
  · have held : (s.install text).contents file = text := if_pos new
    rw [held]
    exact List.mem_cons_self
  · have held : (s.install text).contents file = s.contents file := if_neg new
    rw [held]
    exact List.mem_cons_of_mem _ (clean file (Nat.lt_of_le_of_ne (Nat.le_of_lt_succ below) new))

theorem ready_not_writing (shape : op.pc = .ready text ∨ op.pc = .restoring text) (file : FileId) (next : Text) :
    op.pc ≠ .writing file next := by
  rcases shape with ready | restoring
  · rw [ready]
    exact nofun
  · rw [restoring]
    exact nofun

/-- The proxy is renamed into place. -/
theorem Inv.renamed (h : Inv schema s) (mine : s.ops o = some op)
    (shape : op.pc = .ready text ∨ op.pc = .restoring text)
    (quiet : ∀ p other, p ≠ o → s.ops p = some other → other.pc.active = false)
    (keeps : ∀ key, op.kind.key ≠ some key → KeepsValue schema key (valueOn s.text key) (valueOn text key)) :
    Inv schema ((s.install text).setPc o op .written) := by
  have clean : ∀ file, file < (s.install text).fresh → (s.install text).contents file ∈ (s.install text).texts :=
    install_clean (h.clean_beside mine (ready_not_writing shape) quiet)
  have kept := h.kept_next mine shape quiet keeps
  exact h.put rfl (h.base.install text) (fun file below => .inr (.inr (clean file below))) (fun _ => quiet)
    (fun p other differs theirs => (h.fact p other theirs).changed differs mine rfl rfl quiet theirs keeps)
    fun key free => kept key free

/-- The file is truncated. -/
theorem Inv.truncated (h : Inv schema s) (mine : s.ops o = some op)
    (shape : op.pc = .ready text ∨ op.pc = .restoring text)
    (quiet : ∀ p other, p ≠ o → s.ops p = some other → other.pc.active = false)
    (keeps : ∀ key, op.kind.key ≠ some key → KeepsValue schema key (valueOn s.text key) (valueOn text key)) :
    Inv schema (s.truncate.setPc o op (.writing s.opened text)) := by
  have clean := h.clean_beside mine (ready_not_writing shape) quiet
  have kept := h.kept_next mine shape quiet keeps
  have base : Base schema s.truncate := by
    refine ⟨h.base.known, nofun, ?_, ?_, h.base.load_none, h.base.memory⟩
    · intro file current
      obtain rfl := Option.some.inj current
      exact Nat.lt_of_lt_of_le (Nat.lt_succ_self _) (Nat.le_max_right _ _)
    · intro l q file opened
      exact Nat.lt_of_lt_of_le (h.base.load_lt l q file opened) (Nat.le_max_left _ _)
  refine h.put rfl base (fun file below => ?_) (fun _ => quiet)
    (fun p other differs theirs => (h.fact p other theirs).changed differs mine rfl rfl quiet theirs fun _ _ => .refl _)
    ⟨rfl, fun key free => ⟨kept key free, keeps key free⟩⟩
  by_cases opened : file = s.opened
  · exact .inl ⟨text, by rw [opened]⟩
  · have older : file < s.fresh := by
      rcases Nat.lt_or_ge file s.fresh with older | newer
      · exact older
      · have bound : s.opened < s.fresh ∨ s.opened = s.fresh := by
          rcases current : s.current with _ | held
          · exact .inr (by simp [State.opened, current])
          · exact .inl (by simpa [State.opened, current] using h.base.current_lt held current)
        have below : file < max s.fresh (s.opened + 1) := below
        rcases bound with less | same
        · rw [Nat.max_eq_left less] at below
          exact below
        · rw [same, Nat.max_eq_right (Nat.le_succ _)] at below
          exact absurd (Nat.le_antisymm (Nat.le_of_lt_succ below) newer) (by rwa [same] at opened)
    have held : s.truncate.contents file = s.contents file := if_neg opened
    exact .inr (.inr (by rw [held]; exact clean file older))

theorem Inv.quiet (h : Inv schema s) (mine : s.ops o = some op) (active : op.pc.active = true) :
    ∀ p other, p ≠ o → s.ops p = some other → other.pc.active = false := by
  intro p other differs theirs
  by_contra there
  exact differs (h.alone p o other op theirs mine (by simpa using there) active)

/-- The text is complete. -/
theorem Inv.finished {file : FileId} (h : Inv schema s) (mine : s.ops o = some op)
    (writing : op.pc = .writing file text) :
    Inv schema ((s.finish file text).setPc o op .written) := by
  have quiet := h.quiet mine (by rw [writing]; rfl)
  obtain ⟨current, kept⟩ : s.current = some file ∧ ∀ key, op.kind.key ≠ some key →
      Kept schema op text key ∧ KeepsValue schema key (valueOn s.text key) (valueOn text key) := by
    have fact := h.fact o op mine
    rcases op with ⟨kind, before, given, snapshot, failed, pc⟩
    obtain rfl : pc = .writing file text := writing
    exact fact
  have done : s.finish file text = { s.setContents file text with text := text, texts := text :: s.texts } :=
      if_pos current
  rw [done]
  have base : Base schema { s.setContents file text with text := text, texts := text :: s.texts } := by
    refine ⟨List.mem_cons_self, ?_, h.base.current_lt, h.base.load_lt,
      fun l q opened => List.mem_cons_of_mem _ (h.base.load_none l q opened), ?_⟩
    · intro none
      cases current.symm.trans none
    · intro q config held
      obtain ⟨known, mem, eq⟩ := h.base.memory q config held
      exact ⟨known, List.mem_cons_of_mem _ mem, eq⟩
  refine h.put rfl base (fun other below => ?_) (fun _ => quiet)
    (fun p other differs theirs => (h.fact p other theirs).changed differs mine rfl rfl quiet theirs
      fun key free => (kept key free).2)
    fun key free => (kept key free).1
  by_cases same : other = file
  · have held : (s.setContents file text).contents other = text := if_pos same
    exact .inr (.inr (by show (s.setContents file text).contents other ∈ _; rw [held]; exact List.mem_cons_self))
  · rcases h.files other below with ⟨p, op', text', found, writing'⟩ | clean
    · by_cases mine' : p = o
      · subst mine'
        obtain rfl := Option.some.inj (mine.symm.trans found)
        cases writing.symm.trans writing'
        exact absurd rfl same
      · have inactive := quiet p op' mine' found
        rw [writing'] at inactive
        cases inactive
    · have held : (s.setContents file text).contents other = s.contents other := if_neg same
      exact .inr (.inr (by show (s.setContents file text).contents other ∈ _; rw [held]; exact List.mem_cons_of_mem _ clean))

end

/-! ## The other steps -/

theorem Kept.more (h : Kept schema op text key) (new : List (Key × Option Value)) :
    Kept schema { op with given := new ++ op.given } text key := by
  obtain ⟨value, source, kept⟩ := h
  exact ⟨value, source.imp_right (List.mem_append_right new), kept⟩

/-- An operation completes: what it has set is given to the others. -/
theorem Inv.completed (h : Inv schema s) (mine : s.ops o = some op) (written : op.pc = .written) :
    Inv schema (s.complete o op) := by
  have quiet := h.quiet mine (by rw [written]; rfl)
  have kept : ∀ key, op.kind.key ≠ some key → Kept schema op s.text key := by
    have fact := h.fact o op mine
    rcases op with ⟨kind, before, given, snapshot, failed, pc⟩
    obtain rfl : pc = .written := written
    exact fact
  generalize new : (op.kind.key.toList.map fun key => (key, valueOn s.text key)) = given
  have shape : s.complete o op = { s with
      ops := fun p =>
        if p = o then some { op with pc := .done s.text }
        else (s.ops p).map fun other => { other with given := given ++ other.given } } := by
    rw [← new]
    rfl
  rw [shape]
  have found : ∀ p other, (if p = o then some { op with pc := .done s.text }
      else (s.ops p).map fun other => { other with given := given ++ other.given }) = some other →
      p = o ∧ other = { op with pc := .done s.text } ∨
        p ≠ o ∧ ∃ old, s.ops p = some old ∧ other = { old with given := given ++ old.given } := by
    intro p other theirs
    split_ifs at theirs with same
    · exact .inl ⟨same, (Option.some.inj theirs).symm⟩
    · obtain ⟨old, theirs, eq⟩ := Option.map_eq_some_iff.mp theirs
      exact .inr ⟨same, old, theirs, eq.symm⟩
  have idle : ∀ p other, (if p = o then some { op with pc := .done s.text }
      else (s.ops p).map fun other => { other with given := given ++ other.given }) = some other → other.pc.active =
        false := by
    intro p other theirs
    rcases found p other theirs with ⟨-, rfl⟩ | ⟨differs, old, earlier, rfl⟩
    · rfl
    · exact quiet p old differs earlier
  have base : Base schema s := h.base
  refine ⟨⟨base.known, base.absent, base.current_lt, base.load_lt, base.load_none, base.memory⟩,
    fun file below => .inr (h.clean_beside mine (by rw [written]; exact nofun) quiet file below), ?_, ?_⟩
  · intro p q first second left _ active
    cases (idle p first left).symm.trans active
  · intro p other theirs
    have inactive := idle p other theirs
    rcases found p other theirs with ⟨-, rfl⟩ | ⟨differs, old, named, rfl⟩
    · exact fun key free => kept key free
    · have fact := h.fact p old named
      have waits : Waits schema s p old → ∀ key, Kept schema { old with given := given ++ old.given } s.text key := by
        intro waits key
        rcases waits key with kept | ⟨q, another, -, named, active, sets⟩
        · exact kept.more given
        · have same : q = o := by
            by_contra other
            cases (quiet q another other named).symm.trans active
          subst same
          obtain rfl := Option.some.inj (mine.symm.trans named)
          refine ⟨valueOn s.text key, .inr (List.mem_append_left _ ?_), .refl _⟩
          rw [← new, sets]
          exact List.mem_singleton_self _
      rcases old with ⟨kind, before, older, snapshot, failed, pc⟩
      cases pc with
      | done after => exact fun key free => (fact key free).more given
      | writing _ _ | written | restoring _ => cases inactive
      | starting | locked | ready _ => exact fun key => .inl (waits fact key)

/-- A switch that has written begins to roll back. -/
theorem Inv.restores {op' : Op} (h : Inv schema s) (mine : s.ops o = some op) (written : op.pc = .written)
    (kind : op'.kind = op.kind) (before : op'.before = op.before) (given : op'.given = op.given) :
    Inv schema (s.setPc o op' (.restoring text)) := by
  have fact := h.fact o op mine
  have stays : ∀ other, s.ops o = some other → other.pc.active = true →
      Pc.active (.restoring text) = true ∧ op'.kind = other.kind := by
    intro other theirs _
    obtain rfl := Option.some.inj (mine.symm.trans theirs)
    exact ⟨rfl, kind⟩
  have idle : ∀ other, s.ops o = some other → ∀ file text, other.pc ≠ .writing file text := by
    intro other theirs
    obtain rfl := Option.some.inj (mine.symm.trans theirs)
    rw [written]
    exact nofun
  refine h.put rfl h.base (fun file below => .inr (h.torn_others idle file below))
    (fun _ => h.quiet mine (by rw [written]; rfl)) (fun p other _ theirs =>
    (h.fact p other theirs).beside rfl rfl rfl stays) ?_
  have kept : ∀ key, op.kind.key ≠ some key → Kept schema op s.text key := by
    rcases op with ⟨kind, before, given, snapshot, failed, pc⟩
    obtain rfl : pc = .written := written
    exact fact
  intro key free
  obtain ⟨value, source, keeps⟩ := kept key (by rw [← kind]; exact free)
  exact ⟨value, by rwa [← before, ← given] at source, keeps⟩

theorem Waits.congr {op' : Op} (h : Waits schema s o op) (before : op'.before = op.before)
    (given : op'.given = op.given) :
    Waits schema s o op' := by
  intro key
  refine (h key).imp_left ?_
  rintro ⟨value, source, keeps⟩
  exact ⟨value, by rwa [before, given], keeps⟩

/-- An operation that waits prepares something else to write. -/
theorem Inv.prepares {op' : Op} (h : Inv schema s) (mine : s.ops o = some op) (was : op.pc.waiting = true)
    (enters : pc.waiting = true) (before : op'.before = op.before) (given : op'.given = op.given) :
    Inv schema (s.setPc o op' pc) := by
  refine h.waits (fun other theirs => ?_) enters (((fact_waiting was).mp (h.fact o op mine)).congr before given)
  obtain rfl := Option.some.inj (mine.symm.trans theirs)
  exact was

theorem Inv.drops (h : Inv schema s) (mine : s.ops o = some op) (was : op.pc.waiting = true) :
    Inv schema (s.drop o) := by
  refine h.drop fun other theirs => ?_
  obtain rfl := Option.some.inj (mine.symm.trans theirs)
  exact was

theorem readStep_inv (h : Inv schema s) (mine : s.ops o = some op) (taken : readStep schema s o op = some t) :
    Inv schema t := by
  rcases op with ⟨kind, before, given, snapshot, failed, pc⟩
  cases kind with
  | proxy value =>
    cases pc with
    | locked =>
      simp only [readStep] at taken
      split_ifs at taken <;> cases taken
      · exact h.prepares mine rfl rfl rfl rfl
      · exact (h.relock _).drops mine rfl
    | starting | ready _ | writing _ _ | written | restoring _ | done _ => cases taken
  | migrate =>
    cases pc with
    | starting =>
      simp only [readStep] at taken
      split at taken
      · cases taken
        exact h.drops mine rfl
      · split_ifs at taken <;> cases taken
        · exact h.drops mine rfl
        · exact h.prepares mine rfl rfl rfl rfl
    | locked | ready _ | writing _ _ | written | restoring _ | done _ => cases taken
  | switch backend config =>
    cases pc with
    | starting =>
      cases taken
      exact h.prepares mine rfl rfl rfl rfl
    | locked | ready _ | writing _ _ | written | restoring _ | done _ => cases taken

theorem writeStep_inv (h : Inv schema s) (mine : s.ops o = some op) (guard : Guard schema s (.write o))
    (taken : writeStep s o op = some t) : Inv schema t := by
  have writes : ∀ text, op.pc = .ready text ∨ op.pc = .restoring text →
      writeStep s o op = some t → Inv schema t := by
    intro text shape taken
    obtain ⟨quiet, keeps⟩ := guard op text mine shape
    cases kind : op.kind with
    | proxy _ =>
      have renamed : writeStep s o op = some ((s.install text).setPc o op .written) := by
        rcases shape with at_pc | at_pc <;> simp only [writeStep, at_pc, kind]
      cases renamed.symm.trans taken
      exact h.renamed mine shape quiet keeps
    | switch _ _ | migrate =>
      have truncated : writeStep s o op = some (s.truncate.setPc o op (.writing s.opened text)) := by
        rcases shape with at_pc | at_pc <;> simp only [writeStep, at_pc, kind]
      cases truncated.symm.trans taken
      exact h.truncated mine shape quiet keeps
  rcases shape : op.pc with _ | _ | text | ⟨file, text⟩ | _ | text | after
  · simp [writeStep, shape] at taken
  · simp [writeStep, shape] at taken
  · exact writes text (.inl shape) taken
  · simp [writeStep, shape] at taken
  · simp [writeStep, shape] at taken
  · exact writes text (.inr shape) taken
  · simp [writeStep, shape] at taken

theorem failStep_inv (h : Inv schema s) (mine : s.ops o = some op) (taken : failStep s o op = some t) :
    Inv schema t := by
  unfold failStep at taken
  split at taken
  · next ready _ _ =>
    cases taken
    exact h.prepares mine (by rw [ready]; rfl) rfl rfl rfl
  · next ready _ _ =>
    cases taken
    exact h.drops mine (by rw [ready]; rfl)
  · next written _ _ =>
    cases taken
    exact h.restores mine written rfl rfl rfl
  · cases taken

theorem Inv.flushed {file : FileId} {part : Text} (h : Inv schema s) (mine : s.ops o = some op)
    (writing : op.pc = .writing file text) : Inv schema (s.setContents file part) := by
  refine ⟨⟨h.base.known, h.base.absent, h.base.current_lt, h.base.load_lt, h.base.load_none, h.base.memory⟩, ?_,
    h.alone, h.fact⟩
  intro other below
  by_cases same : other = file
  · subst same
    exact .inl ⟨o, op, text, mine, writing⟩
  · have held : (s.setContents file part).contents other = s.contents other := if_neg same
    rw [held]
    exact h.files other below

/-- A manual edit, while no operation goes on. -/
theorem Inv.edited (h : Inv schema s) (idle : ∀ o op, s.ops o = some op → ∃ after, op.pc = .done after) :
    Inv schema (s.install text) := by
  have quiet : ∀ o op, s.ops o = some op → op.pc.active = false := by
    intro o op mine
    obtain ⟨after, done⟩ := idle o op mine
    rw [done]
    rfl
  refine ⟨h.base.install text, fun file below => .inr (install_clean (h.clean quiet) file below), ?_, ?_⟩
  · intro p q first second left right active
    cases (quiet p first left).symm.trans active
  · intro o op mine
    have fact := h.fact o op mine
    obtain ⟨after, done⟩ := idle o op mine
    rcases op with ⟨kind, before, given, snapshot, failed, pc⟩
    obtain rfl : pc = .done after := done
    exact fact

theorem Inv.opensLoad {loads : LoadId → Option (ProcId × Option FileId)} (h : Inv schema s)
    (known : ∀ l q file, loads l = some (q, file) → file = s.current ∨ s.loads l = some (q, file)) :
    Inv schema { s with loads := loads } := by
  refine ⟨⟨h.base.known, h.base.absent, h.base.current_lt, ?_, ?_, h.base.memory⟩, h.files, h.alone, h.fact⟩
  · intro l q file opened
    rcases known l q (some file) opened with current | older
    · exact h.base.current_lt file current.symm
    · exact h.base.load_lt l q file older
  · intro l q opened
    rcases known l q none opened with current | older
    · have nothing := h.base.absent current.symm
      have mem := h.base.known
      rwa [nothing] at mem
    · exact h.base.load_none l q older

/-- A load returns what a complete text means. -/
theorem Inv.readsLoad {l : LoadId} {q : ProcId} {file : Option FileId} (h : Inv schema s)
    (opened : s.loads l = some (q, file))
    (whole : ∀ f, file = some f → ¬ Torn s f) :
    ∃ text ∈ s.texts, meaning schema ((file.map s.contents).getD []) = meaning schema text := by
  rcases file with _ | f
  · exact ⟨[], h.base.load_none l q opened, rfl⟩
  · rcases h.files f (h.base.load_lt l q f opened) with torn | clean
    · exact absurd torn (whole f rfl)
    · exact ⟨s.contents f, clean, rfl⟩

theorem step_inv {a : Action} (h : Inv schema s) (between : EditsBetween s a) (guard : Guard schema s a)
    (taken : step schema s a = some t) : Inv schema t := by
  cases a with
  | begin o request =>
    simp only [step] at taken
    split at taken <;> cases taken
    next kind new _ =>
    refine h.waits (fun op mine => ?_) rfl fun key => .inl ⟨valueOn s.text key, .inl rfl, .refl _⟩
    cases new.symm.trans mine
  | acquire o =>
    obtain ⟨op, mine, taken⟩ := Option.bind_eq_some_iff.mp taken
    split at taken
    · next starting =>
      split_ifs at taken
      cases taken
      exact (h.relock _).prepares mine (by rw [starting]; rfl) rfl rfl rfl
    · cases taken
  | read o =>
    obtain ⟨op, mine, taken⟩ := Option.bind_eq_some_iff.mp taken
    exact readStep_inv h mine taken
  | write o =>
    obtain ⟨op, mine, taken⟩ := Option.bind_eq_some_iff.mp taken
    exact writeStep_inv h mine guard taken
  | flush o sections cut =>
    obtain ⟨op, mine, taken⟩ := Option.bind_eq_some_iff.mp taken
    split at taken <;> cases taken
    next writing => exact h.flushed mine writing
  | finish o =>
    obtain ⟨op, mine, taken⟩ := Option.bind_eq_some_iff.mp taken
    split at taken <;> cases taken
    next writing => exact h.finished mine writing
  | fail o =>
    obtain ⟨op, mine, taken⟩ := Option.bind_eq_some_iff.mp taken
    exact failStep_inv h mine taken
  | complete o =>
    obtain ⟨op, mine, taken⟩ := Option.bind_eq_some_iff.mp taken
    split at taken <;> cases taken
    next written => exact (h.relock _).completed mine written
  | abort o =>
    obtain ⟨op, mine, taken⟩ := Option.bind_eq_some_iff.mp taken
    rcases op with ⟨kind, before, given, snapshot, failed, pc⟩
    cases kind with
    | switch backend config => cases taken
    | proxy _ | migrate =>
      cases pc with
      | starting | locked | ready _ =>
        cases taken
        exact (h.relock _).drops mine rfl
      | writing _ _ | written | restoring _ | done _ => cases taken
  | edit text =>
    cases taken
    exact h.edited between
  | openLoad l p =>
    simp only [step] at taken
    split at taken <;> cases taken
    refine h.opensLoad fun m q file opened => ?_
    split_ifs at opened
    · exact .inl (Prod.mk.inj (Option.some.inj opened)).2.symm
    · exact .inr opened
  | readLoad l =>
    obtain ⟨⟨p, file⟩, opened, rfl⟩ := Option.map_eq_some_iff.mp taken
    obtain ⟨known, mem, means⟩ := h.readsLoad opened fun f eq => guard p f (by rw [opened, eq])
    have later : Inv schema { s with loads := fun m => if m = l then none else s.loads m } := by
      refine h.opensLoad fun m q file opened => ?_
      split_ifs at opened
      exact .inr opened
    refine ⟨⟨later.base.known, later.base.absent, later.base.current_lt, later.base.load_lt, later.base.load_none, ?_⟩,
      later.files, later.alone, later.fact⟩
    intro q config held
    dsimp only at held
    split_ifs at held
    · exact ⟨known, mem, by rw [← means]; exact (Option.some.inj held).symm⟩
    · exact h.base.memory q config held

/-! ## Nothing is lost -/

end LocalWebAccess.ConfigFile
