import LocalWebAccess.AgentExecutedOnce
import Mathlib.Data.Set.Function

/-!
# Idempotency keys

A key stands for one operation from its first acceptance until the sweep of that operation. The
fields of a request are compared before the volatile checks, the digest of the request inside of the
acceptance; the two agree as long as no two digested texts collide.
-/
namespace LocalWebAccess.AgentOperations
open GuardedRuns CanonicalJson

variable {host : Host} {s t : State} {a : Action} {as : List Action} {op : String} {r r' : OperationRow}

/-! ## What a digest says -/

theorem plain_digits (n : ℕ) : ∀ c ∈ Nat.toDigits 10 n, isPlain c = true := by
  intro c among
  have digit := Nat.isDigit_of_mem_toDigits (by decide) (by decide) among
  have other : ∀ d : Char, d.isDigit = false → c ≠ d := fun d no same => by rw [same, no] at digit; cases digit
  simp [isPlain, other '"' rfl, other '[' rfl, other ']' rfl, other '{' rfl, other '}' rfl, other ',' rfl,
    other ':' rfl, other ' ' rfl]

theorem digits_inj {m n : ℕ} (h : Nat.toDigits 10 m = Nat.toDigits 10 n) : m = n := by
  calc
    m = Nat.ofDigitChars 10 (Nat.toDigits 10 m) 0 := Nat.ofDigitChars_ten_toDigits.symm
    _ = Nat.ofDigitChars 10 (Nat.toDigits 10 n) 0 := by rw [h]
    _ = n := Nat.ofDigitChars_ten_toDigits

theorem ends_fieldsText (fields : List (String × Field)) : Ends (fieldsText fields) := by
  intro c first
  cases fields with
  | nil =>
    cases first
    rfl
  | cons f fs =>
    cases first
    rfl

theorem Field.text_inj {f g : Field} {u v : List Char} (hu : Ends u) (hv : Ends v) (h : f.text ++ u = g.text ++ v) :
    f = g ∧ u = v := by
  have quoted : ∀ {value : String} {t w z : List Char}, (∀ c ∈ t, isPlain c = true) → t ≠ [] →
      quote value.toList ++ w ≠ t ++ z := by
    intro value t w z plain nonempty same
    cases t with
    | nil => exact nonempty rfl
    | cons c t =>
      obtain rfl := (List.cons.inj same).1
      cases plain '"' List.mem_cons_self
  have null : ∀ c ∈ "null".toList, isPlain c = true := List.all_eq_true.mp (by decide)
  have number : ∀ n, Nat.toDigits 10 n ≠ "null".toList := by
    intro n same
    have among : 'n' ∈ Nat.toDigits 10 n := by rw [same]; decide
    cases Nat.isDigit_of_mem_toDigits (by decide) (by decide) among
  cases f with
  | str x =>
    cases g with
    | str y =>
      obtain ⟨value, rest⟩ := quote_inj h
      exact ⟨congrArg Field.str (String.toList_inj.mp value), rest⟩
    | int n => exact absurd h (quoted (plain_digits n) Nat.toDigits_ne_nil)
    | null => exact absurd h (quoted null (by decide))
  | int m =>
    cases g with
    | str y => exact absurd h.symm (quoted (plain_digits m) Nat.toDigits_ne_nil)
    | int n =>
      obtain ⟨value, rest⟩ := plain_inj (plain_digits m) (plain_digits n) hu hv h
      exact ⟨congrArg Field.int (digits_inj value), rest⟩
    | null =>
      exact absurd (plain_inj (plain_digits m) null hu hv h).1 (number m)
  | null =>
    cases g with
    | str y => exact absurd h.symm (quoted null (by decide))
    | int n =>
      exact absurd (plain_inj null (plain_digits n) hu hv h).1.symm (number n)
    | null => exact ⟨rfl, List.append_cancel_left h⟩

theorem fieldsText_inj {fs gs : List (String × Field)} (h : fieldsText fs = fieldsText gs) : fs = gs := by
  induction fs generalizing gs with
  | nil =>
    cases gs with
    | nil => rfl
    | cons g gs => cases h
  | cons f fs ih =>
    cases gs with
    | nil => cases h
    | cons g gs =>
      simp only [fieldsText, List.cons.injEq, true_and] at h
      obtain ⟨key, rest⟩ := quote_inj h
      obtain ⟨value, tail⟩ := Field.text_inj (ends_fieldsText fs) (ends_fieldsText gs) (List.cons.inj rest).2
      rw [ih tail]
      congr 1
      exact Prod.ext (String.toList_inj.mp key) value

theorem canonicalJson_inj {fs gs : List (String × Field)} (h : canonicalJson fs = canonicalJson gs) : fs = gs := by
  cases fs with
  | nil =>
    cases gs with
    | nil => rfl
    | cons g gs => simp [canonicalJson, quote] at h
  | cons f fs =>
    cases gs with
    | nil => simp [canonicalJson, quote] at h
    | cons g gs =>
      simp only [canonicalJson, List.cons.injEq, true_and] at h
      obtain ⟨key, rest⟩ := quote_inj h
      obtain ⟨value, tail⟩ := Field.text_inj (ends_fieldsText fs) (ends_fieldsText gs) (List.cons.inj rest).2
      rw [fieldsText_inj tail]
      congr 1
      exact Prod.ext (String.toList_inj.mp key) value

/-- What `_accept` is called with for a request. -/
def Describes : Request → Acceptance → Prop
  | .apply planId, acc => ∃ plan : PlanRecord, plan.planId = planId ∧ acc = planAcceptance plan
  | .lifecycle action instanceId expectedRevision, acc =>
    (lifecycleScope action).isSome ∧ acc = lifecycleAcceptance action instanceId expectedRevision

/-- Requests with one digest agree in all the fields that a key is compared by. -/
theorem Describes.eq_of_digest {x y : Request} {acc acc' : Acceptance} (hx : Describes x acc) (hy : Describes y acc')
    (same : acc.digest = acc'.digest) : x = y := by
  cases x with
  | apply planId =>
    obtain ⟨plan, rfl, rfl⟩ := hx
    cases y with
    | apply planId' =>
      obtain ⟨plan', rfl, rfl⟩ := hy
      simp only [planAcceptance, planDigest, List.cons.injEq, Prod.mk.injEq, Field.str.injEq] at same
      rw [same.2.2.1.2]
    | lifecycle action instanceId expectedRevision =>
      obtain ⟨-, rfl⟩ := hy
      simp [planAcceptance, planDigest, lifecycleAcceptance, lifecycleDigest] at same
  | lifecycle action instanceId expectedRevision =>
    obtain ⟨-, rfl⟩ := hx
    cases y with
    | apply planId' =>
      obtain ⟨plan', rfl, rfl⟩ := hy
      simp [planAcceptance, planDigest, lifecycleAcceptance, lifecycleDigest] at same
    | lifecycle action' instanceId' expectedRevision' =>
      obtain ⟨-, rfl⟩ := hy
      simp only [lifecycleAcceptance, lifecycleDigest, List.cons.injEq, Prod.mk.injEq, Field.str.injEq,
        Field.int.injEq, true_and, and_true] at same
      rw [OperationAction.value_injective same.1, same.2.1, same.2.2]

/-! ## Stored requests -/

/-- The principal may submit the request. -/
def Permitted (host : Host) (principalId : String) : Request → Prop
  | .apply _ => True
  | .lifecycle action _ _ => ∃ scope ∈ lifecycleScope action, scope ∈ host.scopes principalId

/-- The row stores the request, under the digest of what it was accepted with. -/
structure Stores (host : Host) (texts : Set (List Char)) (request : Request) (row : OperationRequest) : Prop where
  permitted : Permitted host row.principalId request
  action : row.action = request.action
  payload : row.payload = some request
  digest : ∃ acc, Describes request acc ∧ canonicalJson acc.digest ∈ texts ∧ row.planId = acc.planId ∧
    row.requestHash = requestHash host.sha256 acc.digest

/-- A call whose fields agree with the stored ones repeats the stored request. -/
theorem Stores.eq_of_replays {texts : Set (List Char)} {request other : Request}
    (h : Stores host texts request r.toOperationRequest) (same : replays other r = true) : other = request := by
  obtain ⟨acc, describes, -, planId, -⟩ := h.digest
  unfold replays at same
  rw [h.action, h.payload, planId] at same
  cases other with
  | apply id =>
    cases request with
    | apply id' =>
      obtain ⟨plan, rfl, rfl⟩ := describes
      simp only [planAcceptance, Bool.and_eq_true, decide_eq_true_eq, Option.some.injEq] at same
      rw [same.2]
    | lifecycle action instanceId expectedRevision =>
      obtain ⟨-, rfl⟩ := describes
      simp [lifecycleAcceptance] at same
  | lifecycle action instanceId expectedRevision =>
    cases request with
    | apply id' => simp at same
    | lifecycle action' instanceId' expectedRevision' =>
      simp only [Request.action, Bool.and_eq_true, decide_eq_true_eq] at same
      rw [of_decide_eq_true same.1, same.2.1, same.2.2]

theorem Stores.replays {texts : Set (List Char)} {request : Request} (h : Stores host texts request r.toOperationRequest) :
    replays request r = true := by
  obtain ⟨acc, describes, -, planId, -⟩ := h.digest
  unfold AgentOperations.replays
  rw [h.action, h.payload, planId]
  cases request with
  | apply id =>
    obtain ⟨plan, rfl, rfl⟩ := describes
    simp [planAcceptance]
  | lifecycle action instanceId expectedRevision => simp

/-! ## Calls under way -/

/-- What a call relies on. -/
def CallFact (host : Host) (texts : Set (List Char)) (s : State) (c : Submission) : Prop :=
  match c.pc with
  | .replaying | .loading | .revising => Permitted host c.principalId c.request
  | .permitting plan | .capabilities plan =>
    Permitted host c.principalId c.request ∧ c.request = .apply plan.planId
  | .looking acc | .counting acc | .inserting acc | .conflicted acc =>
    Permitted host c.principalId c.request ∧ Describes c.request acc
  | .inserted id =>
    id ∈ s.issued ∧ ∀ row ∈ s.operations.rows, row.operationId = id →
      row.key = c.key host ∧ Stores host texts c.request row.toOperationRequest
  | .requiring | .returned _ | .refused _ | .broken => True

/-- The acceptance that a call has under way. -/
def SubmitPc.acceptance : SubmitPc → Option Acceptance
  | .looking acc | .counting acc | .inserting acc | .conflicted acc => some acc
  | _ => none

/-- What the calls digest are texts among the given ones. -/
def Digested (texts : Set (List Char)) (s : State) (_ : Action) : Prop :=
  ∀ u c acc, s.submissions u = some c → c.pc.acceptance = some acc → canonicalJson acc.digest ∈ texts

/-- Every row stores a request, and every call knows what it is about. -/
structure Keyed (host : Host) (texts : Set (List Char)) (s : State) : Prop where
  sound : Sound s
  stored : ∀ row ∈ s.operations.rows, ∃ request, Stores host texts request row.toOperationRequest
  calls : ∀ u c, s.submissions u = some c → CallFact host texts s c

theorem setSubmission_self (s : State) (u : CallId) (c : Submission) : (s.setSubmission u c).submissions u = some c := by
  unfold State.setSubmission
  exact Function.update_self u (some c) s.submissions

theorem setSubmission_of_ne {u v : CallId} (differs : v ≠ u) (s : State) (c : Submission) :
    (s.setSubmission u c).submissions v = s.submissions v := by
  unfold State.setSubmission
  exact Function.update_of_ne differs (some c) s.submissions

/-- A call stands where it stood, or took the step. -/
theorem step_submission (u : CallId) (taken : step host s a = some t) :
    t.submissions u = s.submissions u ∨ ∃ act, a = .submit u act ∧ SubmitMove host s u act t := by
  cases stepMove_of_step taken with
  | worker w act taken => exact .inl (congrFun (workerStep_frame taken).submissions u)
  | beat h act taken =>
    obtain ⟨b, -, -, move⟩ := beatMove_of_step taken
    exact .inl (by cases move <;> rfl)
  | submit v act taken =>
    by_cases same : u = v
    · subst same
      exact .inr ⟨act, rfl, submitMove_of_step taken⟩
    · refine .inl ?_
      cases submitMove_of_step taken <;> exact setSubmission_of_ne same _ _
  | cancel v act taken => exact .inl (by cases cancelMove_of_step taken <;> rfl)
  | _ => exact .inl rfl

/-! ## The requests in the table -/

theorem Change.request {drawn drawn' : List String} {does : Writes} {ops ops' : Table}
    (h : Change drawn drawn' does ops ops') (later : r' ∈ ops'.rows) :
    (∃ r ∈ ops.rows, r'.toOperationRequest = r.toOperationRequest) ∨ (r'.operationId ∉ drawn ∧ r'.operationId ∈ drawn') := by
  have updated : ∀ (hit : OperationRow → Bool) (f : OperationRow → OperationProgress), r' ∈ (ops.update hit f).rows →
      ∃ r ∈ ops.rows, r'.toOperationRequest = r.toOperationRequest := by
    intro hit f later
    obtain ⟨r, among, rfl⟩ := List.mem_map.mp later
    exact ⟨r, among, Table.updated_request hit f r⟩
  cases h with
  | kept => exact .inl ⟨r', later, rfl⟩
  | touched hit f => exact .inl (updated hit f later)
  | claimed identity now lease claimant claimed =>
    obtain ⟨-, rfl⟩ := Table.claim_cases claimed
    exact .inl (updated _ _ later)
  | withdrawn id now => exact .inl (updated _ _ later)
  | requested id now => exact .inl (updated _ _ later)
  | settled now writes => exact .inl (updated _ _ later)
  | inserted queued idle fresh known stored =>
    rw [(Table.insert_cases stored).1] at later
    rcases List.mem_append.mp later with old | new
    · exact .inl ⟨r', old, rfl⟩
    · obtain rfl := List.mem_singleton.mp new
      exact .inr ⟨fresh, known⟩
  | removed => exact .inl ⟨r', List.mem_of_mem_filter later, rfl⟩

theorem Change.keeps {drawn drawn' : List String} {does : Writes} {ops ops' : Table}
    (h : Change drawn drawn' does ops ops') (among : r ∈ ops.rows) (spared : r.operationId ∉ does.sweeps) :
    ∃ r' ∈ ops'.rows, r'.toOperationRequest = r.toOperationRequest := by
  have updated : ∀ (hit : OperationRow → Bool) (f : OperationRow → OperationProgress),
      ∃ r' ∈ (ops.update hit f).rows, r'.toOperationRequest = r.toOperationRequest :=
    fun hit f => ⟨_, List.mem_map_of_mem among, Table.updated_request hit f r⟩
  cases h with
  | kept => exact ⟨r, among, rfl⟩
  | touched hit f => exact updated hit f
  | claimed identity now lease claimant claimed =>
    obtain ⟨-, rfl⟩ := Table.claim_cases claimed
    exact updated _ _
  | withdrawn id now => exact updated _ _
  | requested id now => exact updated _ _
  | settled now writes => exact updated _ _
  | inserted queued idle fresh known stored =>
    exact ⟨r, (Table.insert_cases stored).1 ▸ List.mem_append_left _ among, rfl⟩
  | removed => exact ⟨r, List.mem_filter.mpr ⟨among, by simpa using spared⟩, rfl⟩

/-- A row was in the table before, up to its progress, or has just been accepted. -/
theorem row_of_step (sound : Sound s) (taken : step host s a = some t) (later : r' ∈ t.operations.rows) :
    (∃ r ∈ s.operations.rows, r'.toOperationRequest = r.toOperationRequest) ∨
      ∃ u c acc id now, s.submissions u = some c ∧ c.pc = .inserting acc ∧ id ∉ s.issued ∧
        r' = newRow host c acc id now ∧ t.submissions u = some (c.goto (.inserted id)) := by
  have kept : t.issued = s.issued → (∃ r ∈ s.operations.rows, r'.toOperationRequest = r.toOperationRequest) := by
    intro issued
    rcases (step_change sound taken).change.request later with old | ⟨fresh, known⟩
    · exact old
    · exact absurd (issued ▸ known) fresh
  cases stepMove_of_step taken with
  | worker w act taken => exact .inl (kept (workerStep_frame taken).issued)
  | beat h act taken =>
    obtain ⟨b, -, -, move⟩ := beatMove_of_step taken
    exact .inl (kept (by cases move <;> rfl))
  | submit u act taken =>
    cases submitMove_of_step taken with
    | @inserted c acc id ops now at_ pc fresh stored =>
      change r' ∈ ops.rows at later
      rw [(Table.insert_cases stored).1] at later
      rcases List.mem_append.mp later with old | new
      · exact .inl ⟨r', old, rfl⟩
      · exact .inr ⟨u, _, _, _, now, at_, pc, fresh, List.mem_singleton.mp new, setSubmission_self _ _ _⟩
    | _ => exact .inl ⟨r', later, rfl⟩
  | cancel u act taken => exact .inl (kept (by cases cancelMove_of_step taken <;> rfl))
  | _ => exact .inl (kept rfl)

/-! ## Steps -/

theorem permitted_of_scope {principalId scope : String} {request : Request}
    (known : lifecycleScope request.action = some scope) (mine : scope ∈ host.scopes principalId) :
    Permitted host principalId request := by
  cases request with
  | apply => trivial
  | lifecycle action => exact ⟨scope, known, mine⟩

/-- A call goes on with what it knows. -/
theorem CallFact.next {texts : Set (List Char)} {c : Submission} {now : ℕ} {pc : SubmitPc} (fact : CallFact host texts s c)
    (next : submitNext host s c now = some pc) : CallFact host texts s (c.goto pc) := by
  unfold CallFact at fact
  unfold submitNext at next
  split at next
  case h_1 at_ =>
    split at next
    case h_1 => cases next; trivial
    case h_2 scope known =>
      split at next
      case isTrue mine => cases next; exact permitted_of_scope known mine
      case isFalse => cases next; trivial
  case h_2 at_ =>
    rw [at_] at fact
    split at next
    case h_1 => split at next <;> (cases next; trivial)
    case h_2 => cases next; exact fact
    case h_3 => cases next; exact fact
  case h_3 at_ =>
    rw [at_] at fact
    split at next
    case h_1 planId request =>
      split at next
      case h_1 => cases next; trivial
      case h_2 plan found =>
        cases next
        have same := List.find?_some (p := fun p : PlanRecord => p.planId = planId) found
        exact ⟨fact, by rw [of_decide_eq_true same]; exact request⟩
    case h_2 => cases next
  case h_4 at_ =>
    rw [at_] at fact
    split at next
    case h_1 => cases next; trivial
    case h_2 => cases next; exact fact
  case h_5 at_ =>
    rw [at_] at fact
    split at next
    case h_1 => cases next
    case h_2 action instanceId expectedRevision request =>
      split at next
      case h_1 => cases next; trivial
      case h_2 =>
        split at next
        case isTrue => cases next; trivial
        case isFalse =>
          cases next
          refine ⟨fact, ?_⟩
          change Describes c.request _
          rw [request] at fact ⊢
          obtain ⟨scope, known, -⟩ := fact
          exact ⟨Option.isSome_of_mem known, rfl⟩
  case h_6 at_ =>
    rw [at_] at fact
    split at next
    case h_1 row _ =>
      cases next
      unfold bound
      split <;> trivial
    case h_2 => cases next; exact fact
  case h_7 at_ =>
    rw [at_] at fact
    split at next
    case isTrue => cases next; trivial
    case isFalse => cases next; exact fact
  case h_8 at_ =>
    split at next
    case h_1 row _ =>
      cases next
      unfold bound
      split <;> trivial
    case h_2 => cases next; trivial
  case h_9 at_ =>
    split at next <;> (cases next; trivial)
  case h_10 => cases next

/-- What others do leaves a call what it relies on. -/
theorem CallFact.frame {texts : Set (List Char)} {c : Submission} (fact : CallFact host texts s c)
    (drawn : ∀ id ∈ s.issued, id ∈ t.issued)
    (rows : ∀ id ∈ s.issued, ∀ r' ∈ t.operations.rows, r'.operationId = id →
      ∃ r ∈ s.operations.rows, r'.toOperationRequest = r.toOperationRequest) : CallFact host texts t c := by
  unfold CallFact at fact ⊢
  cases at_ : c.pc with
  | inserted id =>
    rw [at_] at fact
    refine ⟨drawn id fact.1, fun r' later same => ?_⟩
    obtain ⟨r, among, request⟩ := rows id fact.1 r' later same
    obtain ⟨key, stores⟩ := fact.2 r among ((congrArg OperationRequest.operationId request).symm.trans same)
    exact ⟨(congrArg OperationRequest.key request).trans key, request ▸ stores⟩
  | _ =>
    rw [at_] at fact
    exact fact

/-- The row that a call inserts stores its request. -/
theorem stores_newRow {texts : Set (List Char)} {c : Submission} {acc : Acceptance} {id : String} {now : ℕ}
    (permitted : Permitted host c.principalId c.request) (describes : Describes c.request acc)
    (among : canonicalJson acc.digest ∈ texts) : Stores host texts c.request (newRow host c acc id now).toOperationRequest where
  permitted := permitted
  action := rfl
  payload := rfl
  digest := ⟨acc, describes, among, rfl, rfl⟩

theorem Keyed.onward {texts : Set (List Char)} (h : Keyed host texts s) (meets : Digested texts s a)
    (taken : step host s a = some t) : Keyed host texts t := by
  have moves := step_change h.sound taken
  have inserting : ∀ {u c acc}, s.submissions u = some c → c.pc = .inserting acc →
      Permitted host c.principalId c.request ∧ Describes c.request acc ∧ canonicalJson acc.digest ∈ texts := by
    intro u c acc at_ pc
    have fact := h.calls u c at_
    unfold CallFact at fact
    rw [pc] at fact
    exact ⟨fact.1, fact.2, meets u c acc at_ (by rw [pc]; rfl)⟩
  refine ⟨h.sound.step taken, fun r' later => ?_, fun u c' at_ => ?_⟩
  · rcases row_of_step h.sound taken later with ⟨r, among, same⟩ | ⟨u, c, acc, id, now, at_, pc, -, rfl, -⟩
    · rw [same]
      exact h.stored r among
    · obtain ⟨permitted, describes, digest⟩ := inserting at_ pc
      exact ⟨c.request, stores_newRow permitted describes digest⟩
  · have old : ∀ id ∈ s.issued, ∀ r' ∈ t.operations.rows, r'.operationId = id →
        ∃ r ∈ s.operations.rows, r'.toOperationRequest = r.toOperationRequest := by
      intro id known r' later same
      rcases row_of_step h.sound taken later with kept | ⟨u, c, acc, id', now, -, -, fresh, rfl, -⟩
      · exact kept
      · obtain rfl : id' = id := same
        exact absurd known fresh
    rcases step_submission u taken with same | ⟨act, rfl, move⟩
    · exact (h.calls u c' (same ▸ at_)).frame moves.drawn old
    · cases move with
      | called principalId request key =>
        cases (setSubmission_self s u _).symm.trans at_
        cases request with
        | apply planId => exact trivial
        | lifecycle => exact trivial
      | went now place next =>
        cases (setSubmission_self s u _).symm.trans at_
        exact ((h.calls u _ place).next next).frame moves.drawn old
      | incapable dockerReady error place =>
        cases (setSubmission_self s u _).symm.trans at_
        exact trivial
      | capable dockerReady place pc =>
        cases (setSubmission_self s u _).symm.trans at_
        have fact := h.calls u _ place
        unfold CallFact at fact
        rw [pc] at fact
        exact ⟨fact.1, (congrArg (fun request => Describes request _) fact.2).mpr ⟨_, rfl, rfl⟩⟩
      | @inserted c acc id ops now place pc fresh stored =>
        cases (setSubmission_self _ u _).symm.trans at_
        obtain ⟨permitted, describes, digest⟩ := inserting place pc
        obtain ⟨rows, others, -⟩ := Table.insert_cases stored
        refine ⟨List.mem_cons_self, fun row later same => ?_⟩
        change row ∈ ops.rows at later
        rw [rows] at later
        rcases List.mem_append.mp later with old | new
        · exact absurd same (others row old)
        · obtain rfl := List.mem_singleton.mp new
          exact ⟨rfl, stores_newRow permitted describes digest⟩
      | conflicted now place pc fresh held =>
        cases (setSubmission_self _ u _).symm.trans at_
        exact ⟨(inserting place pc).1, (inserting place pc).2.1⟩
      | unstored place pc =>
        cases (setSubmission_self s u _).symm.trans at_
        exact ⟨(inserting place pc).1, (inserting place pc).2.1⟩
      | failed place =>
        cases (setSubmission_self s u _).symm.trans at_
        exact trivial

/-! ## A key in use -/

/-- The row found under a key. -/
theorem row_of_key (among : r ∈ s.operations.rows) (among' : r' ∈ s.operations.rows) (same : r'.key = r.key) : r' = r :=
  List.inj_on_of_nodup_map s.operations.unique among' among same

/-- Where a call that returns has read the row it answers with. -/
theorem returned_of_next {c : Submission} {now : ℕ} {acc : OperationAccepted}
    (next : submitNext host s c now = some (.returned acc)) :
    ∃ row ∈ s.operations.rows, acc = accepted row ∧
      ((row.key = c.key host ∧ replays c.request row = true) ∨
        (∃ p, c.pc.acceptance = some p ∧ row.key = c.key host ∧ row.requestHash = requestHash host.sha256 p.digest) ∨
        c.pc = .inserted row.operationId) := by
  have bound_ : ∀ {p row}, s.operations.getAgentOperationByIdempotency (c.key host) = some row →
      bound host c p row = .returned acc → c.pc.acceptance = some p →
      ∃ row ∈ s.operations.rows, acc = accepted row ∧
        ((row.key = c.key host ∧ replays c.request row = true) ∨
          (∃ p, c.pc.acceptance = some p ∧ row.key = c.key host ∧ row.requestHash = requestHash host.sha256 p.digest) ∨
          c.pc = .inserted row.operationId) := by
    intro p row found answer at_
    obtain ⟨among, key⟩ := Table.getByIdempotency_iff.mp found
    unfold bound at answer
    split at answer
    case isTrue => cases answer
    case isFalse same =>
      cases answer
      exact ⟨row, among, rfl, .inr (.inl ⟨p, at_, key, not_not.mp same⟩)⟩
  unfold submitNext at next
  split at next
  case h_1 => split at next <;> (try split at next) <;> cases next
  case h_2 at_ =>
    split at next
    case h_1 row found =>
      split at next
      case isTrue same =>
        cases next
        obtain ⟨among, key⟩ := Table.getByIdempotency_iff.mp found
        exact ⟨row, among, rfl, .inl ⟨key, same⟩⟩
      case isFalse => cases next
    case h_2 => cases next
    case h_3 => cases next
  case h_3 => split at next <;> (try split at next) <;> cases next
  case h_4 => split at next <;> cases next
  case h_5 => split at next <;> (try split at next) <;> (try split at next) <;> cases next
  case h_6 at_ =>
    split at next
    case h_1 row found => exact bound_ found (Option.some.inj next) (by rw [at_]; rfl)
    case h_2 => cases next
  case h_7 => split at next <;> cases next
  case h_8 at_ =>
    split at next
    case h_1 row found => exact bound_ found (Option.some.inj next) (by rw [at_]; rfl)
    case h_2 => cases next
  case h_9 id at_ =>
    split at next
    case h_1 row found =>
      cases next
      obtain ⟨among, rfl⟩ := Table.get_iff.mp found
      exact ⟨row, among, rfl, .inr (.inr at_)⟩
    case h_2 => cases next
  case h_10 => cases next

/-- A call that returns answers with the row under its key, which stores its request. -/
theorem Keyed.answers {texts : Set (List Char)} (h : Keyed host texts s) (free : Set.InjOn host.sha256 texts)
    (meets : Digested texts s a) {u : CallId} {c : Submission} {now : ℕ} {acc : OperationAccepted}
    (at_ : s.submissions u = some c) (next : submitNext host s c now = some (.returned acc)) :
    ∃ row ∈ s.operations.rows, row.key = c.key host ∧ acc = accepted row ∧ replays c.request row = true := by
  obtain ⟨row, among, same, cases_⟩ := returned_of_next next
  obtain ⟨request, stores⟩ := h.stored row among
  rcases cases_ with ⟨key, same'⟩ | ⟨p, pc, key, hash⟩ | pc
  · exact ⟨row, among, key, same, same'⟩
  · refine ⟨row, among, key, same, ?_⟩
    obtain ⟨q, describes, digest, -, hash'⟩ := stores.digest
    have one := canonicalJson_inj (free digest (meets u c p at_ pc) (hash'.symm.trans hash))
    have mine : Describes c.request p := by
      have fact := h.calls u c at_
      unfold CallFact at fact
      unfold SubmitPc.acceptance at pc
      split at pc
      case h_5 => cases pc
      all_goals
        rename_i at_'
        rw [at_'] at fact
        cases pc
        exact fact.2
    rw [mine.eq_of_digest describes one.symm]
    exact stores.replays
  · have fact := h.calls u c at_
    unfold CallFact at fact
    rw [pc] at fact
    obtain ⟨key, mine⟩ := fact.2 row among rfl
    exact ⟨row, among, key, same, mine.replays⟩

/-- A call made alone: it is submitted and proceeds to its answer. -/
def retry (u : CallId) (principalId : String) (request : Request) (key : String) (now : ℕ) : List Action :=
  .submit u (.call principalId request key) ::
    match request with
    | .apply _ => [.submit u (.proceed now)]
    | .lifecycle _ _ _ => [.submit u (.proceed now), .submit u (.proceed now)]

theorem called_step {u : CallId} {principalId key : String} {request : Request} (fresh : s.submissions u = none) :
    step host s (.submit u (.call principalId request key)) =
      some (s.setSubmission u ⟨principalId, request, key, request.first⟩) := by
  simp only [step, submitStep, fresh]
  cases request <;> rfl

theorem went_step {u : CallId} {c : Submission} {pc : SubmitPc} {now : ℕ} (at_ : s.submissions u = some c)
    (next : submitNext host s c now = some pc) :
    step host s (.submit u (.proceed now)) = some (s.setSubmission u (c.goto pc)) := by
  simp only [step, submitStep, at_, next, Option.map_some]

theorem Keyed.retried {texts : Set (List Char)} (h : Keyed host texts s) (among : r ∈ s.operations.rows)
    (ours : r.workspaceId = host.workspaceId) {u : CallId} (fresh : s.submissions u = none) {request : Request}
    (same : replays request r = true) (now : ℕ) :
    ∃ t c, exec (step host) s (retry u r.principalId request r.idempotencyKey now) = some t ∧
      t.submissions u = some c ∧ c.pc = .returned (accepted r) := by
  obtain ⟨stored, stores⟩ := h.stored r among
  obtain rfl := stores.eq_of_replays same
  have found : s.operations.getAgentOperationByIdempotency (r.principalId, host.workspaceId, r.idempotencyKey) = some r :=
    Table.getByIdempotency_iff.mpr ⟨among, by rw [← ours]; rfl⟩
  have answer : ∀ v : State, v.operations = s.operations → ∀ now,
      submitNext host v ⟨r.principalId, request, r.idempotencyKey, .replaying⟩ now = some (.returned (accepted r)) := by
    intro v table now
    simp only [submitNext, Submission.key, table, found, same, if_true]
  have permitted := stores.permitted
  cases request with
  | apply planId =>
    refine ⟨_, ⟨r.principalId, .apply planId, r.idempotencyKey, .returned (accepted r)⟩, ?_,
      setSubmission_self (s.setSubmission u ⟨r.principalId, .apply planId, r.idempotencyKey, .replaying⟩) u _, rfl⟩
    simp only [retry, exec, called_step fresh, Option.bind_some]
    rw [went_step (setSubmission_self s u _) (answer _ rfl now)]
    rfl
  | lifecycle action instanceId expectedRevision =>
    obtain ⟨scope, known, mine⟩ := permitted
    have requires : submitNext host
        (s.setSubmission u ⟨r.principalId, .lifecycle action instanceId expectedRevision, r.idempotencyKey, .requiring⟩)
        ⟨r.principalId, .lifecycle action instanceId expectedRevision, r.idempotencyKey, .requiring⟩ now =
          some .replaying := by
      simp only [submitNext, Request.action, Option.mem_def.mp known, mine, if_true]
    refine ⟨_, ⟨r.principalId, .lifecycle action instanceId expectedRevision, r.idempotencyKey, .returned (accepted r)⟩,
      ?_, setSubmission_self ((s.setSubmission u
        ⟨r.principalId, .lifecycle action instanceId expectedRevision, r.idempotencyKey, .requiring⟩).setSubmission u
        ⟨r.principalId, .lifecycle action instanceId expectedRevision, r.idempotencyKey, .replaying⟩) u _, rfl⟩
    simp only [retry, exec, called_step fresh, Option.bind_some, Request.first]
    rw [went_step (setSubmission_self s u _) requires, Option.bind_some]
    simp only [Submission.goto]
    rw [went_step (setSubmission_self _ u _) (answer _ rfl now)]
    rfl

/-- Only the INSERT of a call itself creates a row. -/
theorem not_inserted_of_next {c : Submission} {now : ℕ} {id : String} : submitNext host s c now ≠ some (.inserted id) := by
  intro next
  unfold submitNext at next
  split at next
  case h_6 => split at next <;> (try unfold bound at next) <;> (try split at next) <;> cases next
  case h_8 => split at next <;> (try unfold bound at next) <;> (try split at next) <;> cases next
  all_goals (try split at next) <;> (try split at next) <;> (try split at next) <;> cases next

theorem replays_congr {request : Request} (same : r'.toOperationRequest = r.toOperationRequest) :
    replays request r' = replays request r := by
  unfold replays
  rw [congrArg OperationRequest.action same, congrArg OperationRequest.planId same,
    congrArg OperationRequest.payload same]

/-- While the operation `r` stands, its key stands for it: no other row has the key, a call with the
key answers with `r` or raises, a call with other fields only raises, no call creates another row, and a
call repeated alone answers with `r` whatever has become of the plan, the revision and the queue. -/
structure KeyBinds (host : Host) (texts : Set (List Char)) (r : OperationRow) (s : State) : Prop where
  one : ∀ row ∈ s.operations.rows, ∀ row' ∈ s.operations.rows, row.key = row'.key → row = row'
  held : ∃ row ∈ s.operations.rows, row.toOperationRequest = r.toOperationRequest
  returns : ∀ {a t u c c' acc}, Digested texts s a → step host s a = some t → s.submissions u = some c →
    c.key host = r.key → c.pc.open_ = true → t.submissions u = some c' → c'.pc = .returned acc →
    acc.operationId = r.operationId ∧ replays c.request r = true
  creates : ∀ {a t u c c' id}, step host s a = some t → s.submissions u = some c → c.key host = r.key →
    t.submissions u = some c' → c'.pc = .inserted id → c.pc = .inserted id
  retries : r.workspaceId = host.workspaceId → ∀ u request now, s.submissions u = none → replays request r = true →
    ∃ t c acc, exec (step host) s (retry u r.principalId request r.idempotencyKey now) = some t ∧
      t.submissions u = some c ∧ c.pc = .returned acc ∧ acc.operationId = r.operationId

theorem Keyed.binds {texts : Set (List Char)} (h : Keyed host texts s) (free : Set.InjOn host.sha256 texts)
    (held : ∃ row ∈ s.operations.rows, row.toOperationRequest = r.toOperationRequest) : KeyBinds host texts r s := by
  obtain ⟨row, among, same⟩ := held
  have key : row.key = r.key := congrArg OperationRequest.key same
  refine ⟨fun x inside y inside' same => row_of_key inside' inside same, ⟨row, among, same⟩, ?_, ?_, ?_⟩
  · intro a t u c c' acc digested taken at_ mine running at_' returned
    rcases step_submission u taken with kept | ⟨act, rfl, move⟩
    · rw [kept, at_] at at_'
      cases at_'
      rw [returned] at running
      cases running
    · cases move with
      | called _ _ _ fresh => cases fresh.symm.trans at_
      | went now place next =>
        cases place.symm.trans at_
        cases (setSubmission_self s u _).symm.trans at_'
        obtain rfl : _ = SubmitPc.returned acc := returned
        obtain ⟨row', among', key', rfl, same'⟩ := h.answers free digested at_ next
        obtain rfl := row_of_key among among' (key'.trans (mine.trans key.symm))
        exact ⟨congrArg OperationRequest.operationId same, (replays_congr same).symm.trans same'⟩
      | _ =>
        cases (setSubmission_self _ u _).symm.trans at_'
        cases returned
  · intro a t u c c' id taken at_ mine at_' inserted
    rcases step_submission u taken with kept | ⟨act, rfl, move⟩
    · rw [kept, at_] at at_'
      cases at_'
      exact inserted
    · cases move with
      | called _ _ _ fresh => cases fresh.symm.trans at_
      | went now place next =>
        cases (setSubmission_self s u _).symm.trans at_'
        obtain rfl : _ = SubmitPc.inserted id := inserted
        exact absurd next not_inserted_of_next
      | inserted now place pc fresh stored =>
        cases place.symm.trans at_
        exact absurd (key.trans mine.symm) ((Table.insert_cases stored).2.2 row among)
      | _ =>
        cases (setSubmission_self _ u _).symm.trans at_'
        cases inserted
  · intro ours u request now fresh replayed
    obtain ⟨t, c, ran, at_, returned⟩ := h.retried among ((congrArg OperationRequest.workspaceId same).trans ours) fresh
      ((replays_congr same).trans replayed) now
    rw [congrArg OperationRequest.principalId same, congrArg OperationRequest.idempotencyKey same] at ran
    exact ⟨t, c, _, ran, at_, returned, congrArg OperationRequest.operationId same⟩

/-- From the acceptance of an operation to its sweep its key stands for it. -/
theorem key_binds_operation {texts : Set (List Char)} {s₀ : State} {pre : List Action} (init : Initial host s₀)
    (rows : ∀ row ∈ s₀.operations.rows, ∃ request, Stores host texts request row.toOperationRequest)
    (free : Set.InjOn host.sha256 texts) (before : Run (step host) (Digested texts) s₀ pre s)
    (accepted : r ∈ s.operations.rows)
    (run : Run (step host) (fun s a => Digested texts s a ∧ r.operationId ∉ sweeping s a) s as t) :
    KeyBinds host texts r t := by
  have start : Keyed host texts s₀ := ⟨init.sound, rows, fun u c at_ => by rw [init.submissions u] at at_; cases at_⟩
  have keyed := before.invariant start fun _ _ _ h meets taken => h.onward meets taken
  have inv := run.invariant
    (P := fun s => Keyed host texts s ∧ ∃ row ∈ s.operations.rows, row.toOperationRequest = r.toOperationRequest)
    ⟨keyed, r, accepted, rfl⟩ ?_
  · exact inv.1.binds free inv.2
  · rintro s a t ⟨h, row, among, same⟩ ⟨digested, spared⟩ taken
    refine ⟨h.onward digested taken, ?_⟩
    have kept := (step_change h.sound taken).change.keeps among (congrArg OperationRequest.operationId same ▸ spared)
    obtain ⟨row', among', same'⟩ := kept
    exact ⟨row', among', same'.trans same⟩

/-! ## A run -/

def noOperations : State := .initial .empty [] fun _ => some 1

theorem noOperations_initial : Initial soloHost noOperations :=
  State.initial_of_unclaimed _ _ _ fun r among => by cases among

/-- A restart is submitted and has been counted in. -/
def counted (u : CallId) (key : String) : List Action :=
  [.submit u (.call "local-owner" (.lifecycle .restart "site" 1) key), .submit u (.proceed 5), .submit u (.proceed 5),
    .submit u (.proceed 5), .submit u (.proceed 5), .submit u (.proceed 5)]

/-- After its acceptance the revision of the instance moves on. -/
theorem key_binds_operation_restart : ∃ r t, r.operationId = "op" ∧ t.revisions "site" = some 7 ∧
    KeyBinds soloHost Set.univ r t := by
  have ran : ∃ s r t, exec (step soloHost) noOperations (counted 0 "key" ++ [.submit 0 (.insert "op" 5)]) = some s ∧
      s.operations.getAgentOperation "op" = some r ∧
      exec (step soloHost) s [.revise "site" (some 7)] = some t ∧ t.revisions "site" = some 7 :=
    ⟨_, _, _, rfl, rfl, rfl, rfl⟩
  obtain ⟨s, r, t, front, found, back, revision⟩ := ran
  obtain ⟨among, same⟩ := Table.get_iff.mp found
  have meets : ∀ x a, Digested Set.univ x a := fun x a u c acc _ _ => Set.mem_univ _
  refine ⟨r, t, same, revision, key_binds_operation noOperations_initial (fun row inside => by cases inside)
    (fun x _ y _ h => String.ofList_injective h) (.of_exec_of_forall front fun a _ x => meets x a) among
    (.of_exec_of_forall back fun a inside x => ?_)⟩
  obtain rfl := List.mem_singleton.mp inside
  exact ⟨meets x _, List.not_mem_nil⟩

end LocalWebAccess.AgentOperations
