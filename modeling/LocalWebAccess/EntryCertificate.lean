import LocalWebAccess.GuardedRuns
import Mathlib.Data.List.Perm.Basic
import Mathlib.Data.Nat.Notation

/-!
# The certificate of the TLS entry

`ensure_entry_tls_cert` signs a key pair under a lock and renames the key, the certificate and the
record of what was signed into place, one after another. A later call decides from the record
alone whether the files can be used again.
-/
namespace LocalWebAccess.EntryCertificate
open GuardedRuns

abbrev San := String
abbrev Key := ℕ
abbrev Root := ℕ
abbrev CallId := ℕ

/-- `cert.pem`: the public key, the root that signed it and the alternative names. -/
structure Cert where
  key : Key
  root : Root
  sans : List San
  deriving DecidableEq, Repr

/-- `meta.json`; a root is known by its fingerprint. -/
structure Record where
  sans : List San
  rootFingerprint : Root
  deriving DecidableEq, Repr

/-- `root.crt` and `root.key`. -/
inductive RootFiles
  | missing
  | incomplete
  | ready (root : Root)
  deriving DecidableEq, Repr

/-- Where a call stands. It holds the lock from `rooting` to `releasing`. -/
inductive Pc
  | waiting
  | rooting
  | bootstrapping
  | checking (root : Root)
  | signing (root : Root)
  | replacingKey (leaf : Cert)
  | replacingCert (leaf : Cert)
  | recording (leaf : Cert)
  | releasing
  | returning
  deriving DecidableEq, Repr

structure Call where
  sans : List San
  pc : Pc
  deriving DecidableEq, Repr

/-- `list(dict.fromkeys(sans))`. -/
def Call.names (call : Call) : List San := call.sans.eraseDups

structure State where
  rootFiles : RootFiles
  keyFile : Option Key
  certFile : Option Cert
  metaFile : Option Record
  lock : Option CallId
  calls : CallId → Option Call
  freshKey : Key
  freshRoot : Root

def State.initial (rootFiles : RootFiles) (freshRoot : Root) : State :=
  ⟨rootFiles, none, none, none, none, fun _ => none, 0, freshRoot⟩

/-- `_entry_cert_current`; `expiring` tells that the certificate is to be renewed anyway. -/
def entryCertCurrent (s : State) (names : List San) (root : Root) (expiring : Bool) : Bool :=
  match s.metaFile with
  | some record =>
    s.certFile.isSome && s.keyFile.isSome && decide (record.sans.Perm names) && decide
      (record.rootFingerprint = root) &&
      !expiring
  | none => false

inductive Action
  /-- `ensure_entry_tls_cert` is called. -/
  | begin (c : CallId) (sans : List San)
  /-- A call takes its next step. -/
  | advance (c : CallId) (expiring : Bool)
  /-- A call raises or is killed: it ends without key material. -/
  | abandon (c : CallId)
  | replaceRoot (root : Root)
  deriving DecidableEq, Repr

def State.setPc (s : State) (c : CallId) (call : Call) (pc : Pc) : State :=
  { s with calls := fun d => if d = c then some { call with pc := pc } else s.calls d }

def State.drop (s : State) (c : CallId) : State :=
  { s with calls := fun d => if d = c then none else s.calls d }

def State.release (s : State) (c : CallId) : State :=
  { s with lock := if s.lock = some c then none else s.lock }

def advance (s : State) (c : CallId) (call : Call) (expiring : Bool) : Option State :=
  match call.pc with
  | .waiting => if s.lock = none then some ({ s with lock := some c }.setPc c call .rooting) else none
  | .rooting =>
    match s.rootFiles with
    | .ready root => some (s.setPc c call (.checking root))
    | .missing => some ({ s with rootFiles := .incomplete }.setPc c call .bootstrapping)
    | .incomplete => none
  | .bootstrapping =>
    some ({ s with rootFiles := .ready s.freshRoot, freshRoot := s.freshRoot + 1 }.setPc c call (.checking s.freshRoot))
  | .checking root =>
    some (s.setPc c call (if entryCertCurrent s call.names root expiring = true then .releasing else .signing root))
  | .signing root =>
    some ({ s with freshKey := s.freshKey + 1 }.setPc c call (.replacingKey ⟨s.freshKey, root, call.names⟩))
  | .replacingKey leaf => some ({ s with keyFile := some leaf.key }.setPc c call (.replacingCert leaf))
  | .replacingCert leaf => some ({ s with certFile := some leaf }.setPc c call (.recording leaf))
  | .recording leaf => some ({ s with metaFile := some ⟨leaf.sans, leaf.root⟩ }.setPc c call .releasing)
  | .releasing => some ((s.release c).setPc c call .returning)
  | .returning => some (s.drop c)

def step (s : State) : Action → Option State
  | .begin c sans =>
    match s.calls c with
    | none => some { s with calls := fun d => if d = c then some ⟨sans, .waiting⟩ else s.calls d }
    | some _ => none
  | .advance c expiring => (s.calls c).bind fun call => advance s c call expiring
  | .abandon c => (s.calls c).map fun _ => (s.release c).drop c
  | .replaceRoot root => some { s with rootFiles := .ready root }

/-- The key material that a call returns fits together and covers what was asked for. -/
def Matches (s : State) (sans : List San) : Prop :=
  ∃ key cert, s.keyFile = some key ∧ s.certFile = some cert ∧ cert.key = key ∧ s.rootFiles = .ready cert.root ∧
    ∀ san, san ∈ cert.sans ↔ san ∈ sans

/-- Every call that returns key material returns material that matches. -/
def ReturnsMatching (s : State) : Prop :=
  ∀ c call, s.calls c = some call → call.pc = .returning → Matches s call.sans

/-- The root is replaced only while no call works. -/
def RootBetweenCalls (s : State) : Action → Prop
  | .replaceRoot _ => ∀ c call, s.calls c = some call → call.pc = .waiting
  | _ => True

/-- A call may end here without leaving a record of something else than the files hold. -/
def MayEnd (s : State) (call : Call) : Prop :=
  match call.pc with
  | .replacingCert _ => s.metaFile = none
  | .recording leaf => ∀ record, s.metaFile = some record → record.sans.Perm leaf.sans ∧ record.rootFingerprint =
      leaf.root
  | _ => True

/-- No call ends between its renames beside a record that its files do not fit any more, and no
call renames its key or certificate while another one is about to return. -/
def Guard (s : State) : Action → Prop
  | .abandon c => ∀ call, s.calls c = some call → MayEnd s call
  | .advance c _ => ∀ call leaf, s.calls c = some call → call.pc = .replacingKey leaf ∨ call.pc = .replacingCert leaf →
      ∀ d other, s.calls d = some other → other.pc ≠ .returning
  | _ => True

/-! ## The files between two calls -/

/-- The files fit their record. -/
def Recorded (s : State) : Prop :=
  ∀ record, s.metaFile = some record → ∃ key cert, s.keyFile = some key ∧ s.certFile = some cert ∧ cert.key = key ∧
    cert.root = record.rootFingerprint ∧ cert.sans.Perm record.sans

namespace Pc

/-- In the body of `_entry_tls_lock`. -/
def inside : Pc → Bool
  | waiting | returning => false
  | _ => true

/-- Between the first and the last rename. -/
def midway : Pc → Bool
  | replacingCert _ | recording _ => true
  | _ => false

theorem inside_of_midway {pc : Pc} (h : pc.midway = true) : pc.inside = true := by
  cases pc with
  | replacingCert leaf | recording leaf => rfl
  | waiting | rooting | bootstrapping | checking _ | signing _ | replacingKey _ | releasing | returning => cases h

end Pc

/-- What a call relies on where it stands. -/
def Fact (s : State) (call : Call) : Prop :=
  match call.pc with
  | .bootstrapping => s.rootFiles = .incomplete
  | .checking root | .signing root => s.rootFiles = .ready root
  | .replacingKey leaf => s.rootFiles = .ready leaf.root ∧ leaf.sans = call.names
  | .replacingCert leaf => s.rootFiles = .ready leaf.root ∧ leaf.sans = call.names ∧ s.keyFile = some leaf.key
  | .recording leaf =>
    s.rootFiles = .ready leaf.root ∧ leaf.sans = call.names ∧ s.keyFile = some leaf.key ∧ s.certFile = some leaf
  | .releasing | .returning => Matches s call.sans
  | _ => True

structure Inv (s : State) : Prop where
  holds : ∀ c call, s.calls c = some call → call.pc.inside = true → s.lock = some c
  fact : ∀ c call, s.calls c = some call → Fact s call
  recorded : (∀ c call, s.calls c = some call → call.pc.midway = false) → Recorded s

variable {s t : State} {c : CallId} {call : Call}

theorem initial (rootFiles : RootFiles) (freshRoot : Root) : Inv (State.initial rootFiles freshRoot) := by
  refine ⟨?_, ?_, ?_⟩
  · intro c call mine
    cases mine
  · intro c call mine
    cases mine
  · intro _ record found
    cases found

theorem Fact.frame (h : Fact s call) (roots : t.rootFiles = s.rootFiles) (keys : t.keyFile = s.keyFile)
    (certs : t.certFile = s.certFile) : Fact t call := by
  unfold Fact Matches at *
  rwa [roots, keys, certs]

/-- A call moves on: what it changes must leave the others what they rely on. -/
theorem turn {pc : Pc} (same : t.calls = s.calls) (lock : pc.inside = true → t.lock = some c)
    (others : ∀ d other, d ≠ c → s.calls d = some other → (other.pc.inside = true → t.lock = some d) ∧ Fact t other)
    (own : Fact t { call with pc := pc })
    (recorded : pc.midway = false → (∀ d other, d ≠ c → s.calls d = some other → other.pc.midway = false) →
    Recorded t) :
    Inv (t.setPc c call pc) := by
  have at_c : (t.setPc c call pc).calls c = some { call with pc := pc } := if_pos rfl
  have at_d : ∀ d, d ≠ c → (t.setPc c call pc).calls d = s.calls d :=
      fun d differs => (if_neg differs).trans (by rw [same])
  refine ⟨?_, ?_, ?_⟩
  · intro d other theirs inside
    by_cases differs : d = c
    · subst differs
      obtain rfl := Option.some.inj (at_c.symm.trans theirs)
      exact lock inside
    · rw [at_d d differs] at theirs
      exact (others d other differs theirs).1 inside
  · intro d other theirs
    by_cases differs : d = c
    · subst differs
      obtain rfl := Option.some.inj (at_c.symm.trans theirs)
      exact own.frame rfl rfl rfl
    · rw [at_d d differs] at theirs
      exact (others d other differs theirs).2.frame rfl rfl rfl
  · intro still
    have mine : pc.midway = false := still c _ at_c
    have rest : ∀ d other, d ≠ c → s.calls d = some other → other.pc.midway = false := fun d other differs theirs =>
      still d other ((at_d d differs).trans theirs)
    exact recorded mine rest

/-- A call that holds the lock is alone inside. -/
theorem Inv.alone (h : Inv s) (mine : s.calls c = some call) (inside : call.pc.inside = true) {d : CallId}
    {other : Call}
    (differs : d ≠ c) (theirs : s.calls d = some other) : other.pc.inside = false := by
  by_contra there
  rw [Bool.not_eq_false] at there
  exact differs (Option.some.inj ((h.holds d other theirs there).symm.trans (h.holds c call mine inside)))

/-- The facts of the calls outside, where a call inside changes only the record. -/
theorem Inv.beside (h : Inv s) (mine : s.calls c = some call) (inside : call.pc.inside = true)
    (roots : t.rootFiles = s.rootFiles) (keys : t.keyFile = s.keyFile) (certs : t.certFile = s.certFile) :
    ∀ d other, d ≠ c → s.calls d = some other → (other.pc.inside = true → t.lock = some d) ∧ Fact t other := by
  intro d other differs theirs
  refine ⟨fun there => ?_, (h.fact d other theirs).frame roots keys certs⟩
  rw [h.alone mine inside differs theirs] at there
  cases there

/-- The calls outside rely on nothing where none of them is about to return. -/
theorem Inv.beside_waiting (h : Inv s) (mine : s.calls c = some call) (inside : call.pc.inside = true)
    (quiet : ∀ d other, s.calls d = some other → other.pc ≠ .returning) :
    ∀ d other, d ≠ c → s.calls d = some other → (other.pc.inside = true → t.lock = some d) ∧ Fact t other := by
  intro d other differs theirs
  have outside := h.alone mine inside differs theirs
  have unreturned := quiet d other theirs
  rcases other with ⟨sans, pc⟩
  cases pc with
  | waiting => exact ⟨nofun, trivial⟩
  | returning => exact absurd rfl unreturned
  | rooting | bootstrapping | checking _ | signing _ | replacingKey _ | replacingCert _ | recording _ | releasing =>
    cases outside

/-- Nothing is returned before there is a root. -/
theorem Inv.quiet_of_unready (h : Inv s) (unready : ∀ root, s.rootFiles ≠ .ready root) {d : CallId} {other : Call}
    (theirs : s.calls d = some other) : other.pc ≠ .returning := by
  rcases other with ⟨sans, pc⟩
  rintro rfl
  obtain ⟨key, cert, -, -, -, ready, -⟩ : Matches s sans := h.fact d _ theirs
  exact unready cert.root ready

theorem Inv.still (h : Inv s) (mine : s.calls c = some call) (settled : call.pc.midway = false)
    (rest : ∀ d other, d ≠ c → s.calls d = some other → other.pc.midway = false) : Recorded s := by
  refine h.recorded fun d other theirs => ?_
  by_cases same : d = c
  · subst same
    obtain rfl := Option.some.inj (mine.symm.trans theirs)
    exact settled
  · exact rest d other same theirs

theorem Inv.recorded_alone (h : Inv s) (mine : s.calls c = some call) (inside : call.pc.inside = true)
    (settled : call.pc.midway = false) : Recorded s := by
  refine h.still mine settled fun d other differs theirs => ?_
  have outside := h.alone mine inside differs theirs
  by_contra midway
  rw [Bool.not_eq_false] at midway
  cases outside.symm.trans (Pc.inside_of_midway midway)

/-- A call ends: the others keep the lock, and the files must fit their record unless another
call is between its renames. -/
theorem dropped (same : t.calls = s.calls)
    (others : ∀ d other, d ≠ c → s.calls d = some other → (other.pc.inside = true → t.lock = some d) ∧ Fact t other)
    (recorded : (∀ d other, d ≠ c → s.calls d = some other → other.pc.midway = false) → Recorded t) :
    Inv (t.drop c) := by
  have gone : (t.drop c).calls c = none := if_pos rfl
  have at_d : ∀ d, d ≠ c → (t.drop c).calls d = s.calls d := fun d differs => (if_neg differs).trans (by rw [same])
  have other : ∀ d other, (t.drop c).calls d = some other → d ≠ c ∧ s.calls d = some other := by
    intro d other theirs
    by_cases differs : d = c
    · subst differs
      cases gone.symm.trans theirs
    · exact ⟨differs, (at_d d differs).symm.trans theirs⟩
  refine ⟨fun d call theirs inside => ?_, fun d call theirs => ?_, fun still => ?_⟩
  · obtain ⟨differs, theirs⟩ := other d call theirs
    exact (others d call differs theirs).1 inside
  · obtain ⟨differs, theirs⟩ := other d call theirs
    exact (others d call differs theirs).2.frame rfl rfl rfl
  · exact recorded fun d call differs theirs => still d call ((at_d d differs).trans theirs)

theorem mem_names {san : San} : san ∈ call.names ↔ san ∈ call.sans := by
  simp [Call.names]

/-- Files that are current match the request. -/
theorem matches_of_current {root : Root} {expiring : Bool} (recorded : Recorded s)
    (ready : s.rootFiles = .ready root) (current : entryCertCurrent s call.names root expiring = true) :
    Matches s call.sans := by
  unfold entryCertCurrent at current
  split at current
  · next record found =>
    simp only [Bool.and_eq_true, decide_eq_true_eq] at current
    obtain ⟨⟨⟨⟨-, -⟩, covers⟩, fingerprint⟩, -⟩ := current
    obtain ⟨key, cert, keyed, certified, pair, signed, listed⟩ := recorded record found
    refine ⟨key, cert, keyed, certified, pair, ?_, fun san => ?_⟩
    · rw [ready, signed, fingerprint]
    · rw [(listed.trans covers).mem_iff, mem_names]
  · cases current

theorem advance_inv {expiring : Bool} (h : Inv s) (mine : s.calls c = some call) (guard : Guard s (.advance c expiring))
    (taken : advance s c call expiring = some t) : Inv t := by
  have fact := h.fact c call mine
  have holds := h.holds c call mine
  have beside := fun inside => h.beside (t := s) mine inside rfl rfl rfl
  have quiet := fun leaf renames => guard call leaf mine renames
  rcases call with ⟨sans, pc⟩
  cases pc with
  | waiting =>
    simp only [advance] at taken
    split at taken <;> cases taken
    next free =>
    refine turn rfl (fun _ => rfl) (fun d other _ theirs =>
      ⟨fun inside => ?_, (h.fact d other theirs).frame rfl rfl rfl⟩)
      trivial fun _ rest => h.still mine rfl rest
    cases free.symm.trans (h.holds d other theirs inside)
  | rooting =>
    simp only [advance] at taken
    split at taken <;> cases taken
    · next root ready => exact turn rfl (fun _ => holds rfl) (beside rfl) ready fun _ rest => h.still mine rfl rest
    · next missing =>
      refine turn rfl (fun _ => holds rfl) (h.beside_waiting mine rfl fun d other theirs => ?_) rfl
        fun _ rest => h.still mine rfl rest
      exact h.quiet_of_unready (by simp [missing]) theirs
  | bootstrapping =>
    cases taken
    have incomplete : s.rootFiles = .incomplete := fact
    refine turn rfl (fun _ => holds rfl) (h.beside_waiting mine rfl fun d other theirs => ?_) rfl
      fun _ rest => h.still mine rfl rest
    exact h.quiet_of_unready (by simp [incomplete]) theirs
  | checking root =>
    cases taken
    by_cases current : entryCertCurrent s (Call.names ⟨sans, .checking root⟩) root expiring = true
    · rw [if_pos current]
      have returns := matches_of_current (h.recorded_alone mine rfl rfl) fact current
      exact turn rfl (fun _ => holds rfl) (beside rfl) returns fun _ rest => h.still mine rfl rest
    · rw [if_neg current]
      exact turn rfl (fun _ => holds rfl) (beside rfl) fact fun _ rest => h.still mine rfl rest
  | signing root =>
    cases taken
    exact turn rfl (fun _ => holds rfl) (h.beside mine rfl rfl rfl rfl) ⟨fact, rfl⟩ fun _ rest => h.still mine rfl rest
  | replacingKey leaf =>
    cases taken
    exact turn rfl (fun _ => holds rfl) (h.beside_waiting mine rfl (quiet leaf (.inl rfl))) ⟨fact.1, fact.2, rfl⟩ nofun
  | replacingCert leaf =>
    cases taken
    exact turn rfl (fun _ => holds rfl) (h.beside_waiting mine rfl (quiet leaf (.inr rfl)))
      ⟨fact.1, fact.2.1, fact.2.2, rfl⟩ nofun
  | recording leaf =>
    cases taken
    obtain ⟨ready, named, keyed, certified⟩ := fact
    refine turn rfl (fun _ => holds rfl) (h.beside mine rfl rfl rfl rfl) ?_ fun _ _ record found => ?_
    · refine ⟨leaf.key, leaf, keyed, certified, rfl, ready, fun san => ?_⟩
      rw [named, mem_names]
    · cases found
      exact ⟨leaf.key, leaf, keyed, certified, rfl, rfl, .refl _⟩
  | releasing =>
    cases taken
    refine turn rfl nofun ?_ fact fun _ rest => h.still mine rfl rest
    intro d other differs theirs
    refine ⟨fun there => ?_, (h.fact d other theirs).frame rfl rfl rfl⟩
    rw [h.alone mine rfl differs theirs] at there
    cases there
  | returning =>
    cases taken
    exact dropped rfl (fun d other _ theirs => ⟨h.holds d other theirs, h.fact d other theirs⟩)
      fun rest => h.still mine rfl rest

theorem release_lock {d : CallId} (differs : d ≠ c) (held : s.lock = some d) : (s.release c).lock = some d := by
  have another : s.lock ≠ some c := fun eq => differs (Option.some.inj (held.symm.trans eq))
  exact (if_neg another).trans held

theorem abandon_inv (h : Inv s) (mine : s.calls c = some call) (ends : MayEnd s call) : Inv ((s.release c).drop c) := by
  have others : ∀ d other, d ≠ c → s.calls d = some other →
      (other.pc.inside = true → (s.release c).lock = some d) ∧ Fact (s.release c) other := fun d other differs theirs =>
    ⟨fun inside => release_lock differs (h.holds d other theirs inside), (h.fact d other theirs).frame rfl rfl rfl⟩
  have fact := h.fact c call mine
  refine dropped rfl others fun rest => ?_
  rcases call with ⟨sans, pc⟩
  cases pc with
  | replacingCert leaf =>
    have unrecorded : s.metaFile = none := ends
    intro record found
    cases unrecorded.symm.trans found
  | recording leaf =>
    obtain ⟨-, -, keyed, certified⟩ := fact
    intro record found
    obtain ⟨listed, signed⟩ := ends record found
    exact ⟨leaf.key, leaf, keyed, certified, rfl, signed.symm, listed.symm⟩
  | waiting | rooting | bootstrapping | checking _ | signing _ | replacingKey _ | releasing | returning =>
    exact h.still mine rfl rest

theorem step_inv {a : Action} (h : Inv s) (between : RootBetweenCalls s a) (guard : Guard s a)
    (taken : step s a = some t) :
    Inv t := by
  cases a with
  | begin c sans =>
    simp only [step] at taken
    split at taken <;> cases taken
    next free =>
    have known : ∀ d other, (if d = c then some ⟨sans, .waiting⟩ else s.calls d) = some other →
        other = ⟨sans, .waiting⟩ ∨ s.calls d = some other := by
      intro d other theirs
      split_ifs at theirs with same
      · exact .inl (Option.some.inj theirs).symm
      · exact .inr theirs
    refine ⟨fun d other theirs inside => ?_, fun d other theirs => ?_, fun still record found => ?_⟩
    · rcases known d other theirs with rfl | theirs
      · cases inside
      · exact h.holds d other theirs inside
    · rcases known d other theirs with rfl | theirs
      · trivial
      · exact (h.fact d other theirs).frame rfl rfl rfl
    · refine h.recorded (fun d other theirs => still d other ?_) record found
      have differs : d ≠ c := by
        rintro rfl
        cases free.symm.trans theirs
      exact (if_neg differs).trans theirs
  | advance c expiring =>
    obtain ⟨call, mine, taken⟩ := Option.bind_eq_some_iff.mp taken
    exact advance_inv h mine guard taken
  | abandon c =>
    obtain ⟨call, mine, rfl⟩ := Option.map_eq_some_iff.mp taken
    exact abandon_inv h mine (guard call mine)
  | replaceRoot root =>
    cases taken
    refine ⟨h.holds, fun c call mine => ?_, h.recorded⟩
    have waits := between c call mine
    rcases call with ⟨sans, pc⟩
    obtain rfl : pc = .waiting := waits
    trivial

/-! ## The material that is returned -/

/-- While no call ends beside a record that its files do not fit, and none renames files under
another one that is about to return, every call returns material that matches its request. -/
theorem guarded_material_matches (rootFiles : RootFiles) (freshRoot : Root) {as : List Action} {s : State}
    (run : Run step (fun s a => RootBetweenCalls s a ∧ Guard s a) (State.initial rootFiles freshRoot) as s) :
    ReturnsMatching s := by
  have inv : Inv s := run.invariant (initial rootFiles freshRoot) fun _ _ _ h ok taken => step_inv h ok.1 ok.2 taken
  intro c call mine returns
  have fact := inv.fact c call mine
  rcases call with ⟨sans, pc⟩
  obtain rfl : pc = .returning := returns
  exact fact

theorem guarded_material_matches_signed :
    ∃ s, s.calls 0 = some ⟨["10.0.0.2"], .returning⟩ ∧ ReturnsMatching s := by
  have ran : ∃ s, Run step (fun s a => RootBetweenCalls s a ∧ Guard s a) (State.initial (.ready 0) 1)
      (.begin 0 ["10.0.0.2"] :: List.replicate 8 (.advance 0 false)) s ∧ s.calls 0 = some ⟨["10.0.0.2"], .returning⟩ := by
    refine ⟨_, .cons ⟨trivial, trivial⟩ rfl <| .cons ⟨trivial, ?_⟩ rfl <| .cons ⟨trivial, ?_⟩ rfl <|
      .cons ⟨trivial, ?_⟩ rfl <| .cons ⟨trivial, ?_⟩ rfl <| .cons ⟨trivial, ?_⟩ rfl <| .cons ⟨trivial, ?_⟩ rfl <|
      .cons ⟨trivial, ?_⟩ rfl <| .cons ⟨trivial, ?_⟩ rfl <| .refl _, rfl⟩
    all_goals
      intro call leaf mine renames d other theirs
      rcases eq_or_ne d 0 with rfl | far
      · obtain rfl := Option.some.inj theirs
        exact nofun
      · simp [State.setPc, State.initial, far] at theirs
  obtain ⟨s, run, mine⟩ := ran
  exact ⟨s, mine, guarded_material_matches _ _ run⟩

/-- A second call is killed after it has renamed its key; the next call for the names of the
first one takes the old record for the files. -/
theorem killed_call_mixes_files : ¬ ∀ (rootFiles : RootFiles) (freshRoot : Root) (as : List Action) (s : State),
    Run step RootBetweenCalls (State.initial rootFiles freshRoot) as s → ReturnsMatching s := by
  intro all
  let first : List Action := .begin 0 ["10.0.0.2"] :: List.replicate 9 (.advance 0 false)
  let second : List Action := .begin 1 ["10.0.0.3"] :: List.replicate 5 (.advance 1 false) ++ [.abandon 1]
  let third : List Action := .begin 2 ["10.0.0.2"] :: List.replicate 4 (.advance 2 false)
  have ran : ∃ s, exec step (State.initial (.ready 0) 1) (first ++ second ++ third) = some s ∧
      s.calls 2 = some ⟨["10.0.0.2"], .returning⟩ ∧ s.keyFile = some 1 ∧ s.certFile = some ⟨0, 0, ["10.0.0.2"]⟩ :=
    ⟨_, rfl, rfl, rfl, rfl⟩
  obtain ⟨s, ran, mine, keyed, certified⟩ := ran
  have run : Run step RootBetweenCalls (State.initial (.ready 0) 1) (first ++ second ++ third) s := by
    refine Run.of_exec_of_forall ran fun a among x => ?_
    cases a with
    | replaceRoot root => simp [first, second, third] at among
    | begin _ _ | advance _ _ | abandon _ => trivial
  obtain ⟨key, cert, keyed', certified', pair, -⟩ := all _ _ _ s run 2 _ mine rfl
  cases keyed.symm.trans keyed'
  cases certified.symm.trans certified'
  cases pair

end LocalWebAccess.EntryCertificate
