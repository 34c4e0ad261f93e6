import LocalWebAccess.GuardedRuns
import Mathlib.Data.Nat.Notation

/-!
# The admin ports of the workspaces

`ensure_admin_port` looks for a port that nobody listens on, creates the port file of its
workspace exclusively and then writes the port into it. Readers fall back to the legacy port
where the file holds none.
-/
namespace LocalWebAccess.AdminPorts
open GuardedRuns

abbrev Port := ℕ
abbrev WorkspaceId := ℕ
abbrev CallId := ℕ

def adminPortFirst : Port := 20201

def adminPortSpan : ℕ := 300

/-- `run/admin-port`, between its creation and its write or after both. -/
inductive PortFile
  | empty
  | recorded (port : Port)
  deriving DecidableEq, Repr

def Valid (port : Port) : Prop := 0 < port ∧ port ≤ 65535

instance (port : Port) : Decidable (Valid port) := inferInstanceAs (Decidable (_ ∧ _))

/-- `read_admin_port`; the callers take the legacy port for `none`. -/
def readAdminPort : Option PortFile → Option Port
  | some (.recorded port) => if Valid port then some port else none
  | _ => none

/-- `_candidate_ports` for the first byte of the hash of the workspace's path. -/
def candidatePorts (byte : ℕ) : List Port :=
  let start := adminPortFirst + byte % adminPortSpan
  (List.range adminPortSpan).map fun i => (start - adminPortFirst + i) % adminPortSpan + adminPortFirst

/-- Where a call of `ensure_admin_port` stands, or what a call has returned. The answer of a
reader comes with whether an allocation for its workspace had begun. -/
inductive Pc
  | reading
  | probing (ports : List Port)
  | creating (port : Port) (rest : List Port)
  | rereading (rest : List Port)
  | writing (port : Port)
  | returned (port : Port)
  | raised
  | answered (port : Option Port) (begun : Bool)
  deriving DecidableEq, Repr

/-- The port that a call is about to record. -/
def Pc.claims : Pc → Option Port
  | creating port _ => some port
  | writing port => some port
  | _ => none

/-- `known` is the port that was recorded when the call began. -/
structure Call where
  workspace : WorkspaceId
  known : Option Port
  pc : Pc
  deriving DecidableEq, Repr

/-- `begun` tells for which workspaces a call has found no port and begun to allocate one. -/
structure State where
  files : WorkspaceId → Option PortFile
  listening : Port → Bool
  begun : WorkspaceId → Bool
  calls : CallId → Option Call

def State.initial (listening : Port → Bool) : State := ⟨fun _ => none, listening, fun _ => false, fun _ => none⟩

def State.read (s : State) (w : WorkspaceId) : Option Port := readAdminPort (s.files w)

def State.setPc (s : State) (c : CallId) (call : Call) (pc : Pc) : State :=
  { s with calls := fun d => if d = c then some { call with pc := pc } else s.calls d }

def State.setFile (s : State) (w : WorkspaceId) (file : PortFile) : State :=
  { s with files := fun v => if v = w then some file else s.files v }

inductive Action
  /-- `ensure_admin_port` is called. -/
  | ensure (c : CallId) (w : WorkspaceId)
  | advance (c : CallId)
  /-- `read_admin_port` is called; it reads once. -/
  | readPort (c : CallId) (w : WorkspaceId)
  /-- The process of a call dies, or its write raises. -/
  | die (c : CallId)
  /-- Some process begins or stops to listen on a port. -/
  | listen (port : Port) (listens : Bool)
  deriving DecidableEq, Repr

section
variable (byte : WorkspaceId → ℕ)

def advance (s : State) (c : CallId) (call : Call) : Option State :=
  let w := call.workspace
  match call.pc with
  | .reading =>
    match s.read w with
    | some port => some (s.setPc c call (.returned port))
    | none =>
      some ({ s with begun := fun v => decide (v = w) || s.begun v }.setPc c call (.probing (candidatePorts (byte w))))
  | .probing [] => some (s.setPc c call .raised)
  | .probing (port :: rest) =>
    some (s.setPc c call (if s.listening port = true then .probing rest else .creating port rest))
  | .creating port rest =>
    match s.files w with
    | none => some ((s.setFile w .empty).setPc c call (.writing port))
    | some _ => some (s.setPc c call (.rereading rest))
  | .rereading rest =>
    match s.read w with
    | some port => some (s.setPc c call (.returned port))
    | none => some (s.setPc c call (.probing rest))
  | .writing port => some ((s.setFile w (.recorded port)).setPc c call (.returned port))
  | .returned _ | .raised | .answered _ _ => none

def step (s : State) : Action → Option State
  | .ensure c w => if s.calls c = none then some (s.setPc c ⟨w, s.read w, .reading⟩ .reading) else none
  | .advance c => (s.calls c).bind fun call => advance byte s c call
  | .readPort c w =>
    if s.calls c = none then some (s.setPc c ⟨w, s.read w, .reading⟩ (.answered (s.read w) (s.begun w))) else none
  | .die c => (s.calls c).map fun _ => { s with calls := fun d => if d = c then none else s.calls d }
  | .listen port listens => some { s with listening := fun p => if p = port then listens else s.listening p }

/-! ## Each workspace has its own, stable port -/

/-- No allocation of a workspace stands between creating its file and writing the port. -/
def Unwritten (s : State) (w : WorkspaceId) : Prop :=
  ∀ c call port, s.calls c = some call → call.workspace = w → call.pc ≠ .writing port

/-- The call has returned the port. -/
def Returned (s : State) (c : CallId) (port : Port) : Prop := (s.calls c).map Call.pc = some (.returned port)

structure OwnPorts (s : State) : Prop where
  /-- No two workspaces record one port. -/
  distinct : ∀ w v port, s.files w = some (.recorded port) → s.files v = some (.recorded port) → w = v
  /-- What an allocation returns is recorded. -/
  agreed : ∀ c call port, s.calls c = some call → call.pc = .returned port →
    s.files call.workspace = some (.recorded port)
  /-- A call returns the port that was recorded when it began. -/
  stable : ∀ c call port, s.calls c = some call → call.known = some port →
    call.pc = .reading ∨ call.pc = .returned port ∨ ∃ begun, call.pc = .answered (some port) begun
  /-- No reader falls back to the legacy port after an allocation has begun. -/
  noLegacy : ∀ c call begun, s.calls c = some call → call.pc = .answered none begun → begun = false
  /-- A new call succeeds on its own, where some candidate is free and no call is writing. -/
  recovers : ∀ w c, s.calls c = none → Unwritten s w → (∃ port ∈ candidatePorts (byte w), s.listening port = false) →
    ∃ n t port, exec (step byte) s (.ensure c w :: List.replicate n (.advance c)) = some t ∧ Returned t c port

/-- The workspace has recorded the port, or an allocation of it is about to record it. -/
def Holds (s : State) (w : WorkspaceId) (port : Port) : Prop :=
  s.files w = some (.recorded port) ∨
    ∃ c call, s.calls c = some call ∧ call.workspace = w ∧ call.pc.claims = some port

/-- A port on which nobody listens is probed only while no other workspace holds it; no call dies
or raises between creating the file and writing the port; and nobody reads the file of a workspace
while its first allocation goes on. -/
def Guard (s : State) : Action → Prop
  | .advance c => ∀ call port rest, s.calls c = some call → call.pc = .probing (port :: rest) →
      s.listening port = false → ∀ v, v ≠ call.workspace → ¬ Holds s v port
  | .die c => ∀ call port, s.calls c = some call → call.pc ≠ .writing port
  | .readPort _ w => s.begun w = true → ∃ port, s.files w = some (.recorded port)
  | _ => True

end

/-! ## The port files and the calls -/

theorem readAdminPort_eq_some {file : Option PortFile} {port : Port} (h : readAdminPort file = some port) :
    file = some (.recorded port) := by
  rcases file with _ | (_ | other)
  · cases h
  · cases h
  · simp only [readAdminPort] at h
    split_ifs at h
    rw [Option.some.inj h]

theorem readAdminPort_recorded {port : Port} (valid : Valid port) : readAdminPort (some (.recorded port)) = some port :=
  if_pos valid

theorem valid_candidate {byte : ℕ} {port : Port} (mem : port ∈ candidatePorts byte) : Valid port := by
  obtain ⟨i, -, rfl⟩ := List.mem_map.mp mem
  have below (start : ℕ) : (0 : ℕ) < start % 300 + 20201 ∧ start % 300 + 20201 ≤ 65535 := by omega
  exact below _

/-- What holds of a call where it stands. -/
def Fact (s : State) (call : Call) : Prop :=
  match call.pc with
  | .reading => ∀ port, call.known = some port → s.files call.workspace = some (.recorded port)
  | .probing ports => call.known = none ∧ ∀ port ∈ ports, Valid port
  | .creating port rest => call.known = none ∧ Valid port ∧ ∀ port ∈ rest, Valid port
  | .rereading rest => call.known = none ∧ ∀ port ∈ rest, Valid port
  | .writing port => call.known = none ∧ Valid port ∧ s.files call.workspace = some .empty
  | .returned port => s.files call.workspace = some (.recorded port) ∧ ∀ known, call.known = some known → known = port
  | .raised => call.known = none
  | .answered port begun => call.known = port ∧ (port = none → begun = false)

structure Inv (s : State) : Prop where
  one : ∀ w v port, Holds s w port → Holds s v port → w = v
  writer : ∀ w, s.files w = some .empty →
    ∃ c call port, s.calls c = some call ∧ call.workspace = w ∧ call.pc = .writing port
  single : ∀ c d call other port port', s.calls c = some call → s.calls d = some other →
    call.workspace = other.workspace → call.pc = .writing port → other.pc = .writing port' → c = d
  valid : ∀ w port, s.files w = some (.recorded port) → Valid port
  fact : ∀ c call, s.calls c = some call → Fact s call

variable {s t : State} {c : CallId} {call : Call} {pc : Pc} {port : Port} {w : WorkspaceId}

theorem initial (listening : Port → Bool) : Inv (State.initial listening) := by
  refine ⟨?_, ?_, ?_, ?_, ?_⟩
  · rintro w v port (recorded | ⟨c, call, mine, -⟩)
    · cases recorded
    · cases mine
  · intro w empty
    cases empty
  · intro c d call other port port' mine
    cases mine
  · intro w port recorded
    cases recorded
  · intro c call mine
    cases mine

theorem Inv.read_eq_some_iff (h : Inv s) : s.read w = some port ↔ s.files w = some (.recorded port) :=
  ⟨readAdminPort_eq_some, fun recorded => by rw [State.read, recorded,
    readAdminPort_recorded (h.valid w port recorded)]⟩

theorem Fact.frame (h : Fact s call) (files : t.files call.workspace = s.files call.workspace) : Fact t call := by
  unfold Fact at *
  rwa [files]

/-- What is held after a call has moved on. -/
theorem holds_turn (calls : t.calls = s.calls) (kept : ∀ v port, t.files v = some (.recorded port) → Holds s v port)
    (held : Holds (t.setPc c call pc) w port) : Holds s w port ∨ w = call.workspace ∧ pc.claims = some port := by
  rcases held with recorded | ⟨d, other, theirs, named, claims⟩
  · exact .inl (kept w port recorded)
  · simp only [State.setPc, calls] at theirs
    split_ifs at theirs
    · cases theirs
      exact .inr ⟨named.symm, claims⟩
    · exact .inl (.inr ⟨d, other, theirs, named, claims⟩)

theorem Inv.one_turn (h : Inv s) (calls : t.calls = s.calls)
    (kept : ∀ v port, t.files v = some (.recorded port) → Holds s v port)
    (claimed : ∀ port, pc.claims = some port →
      Holds s call.workspace port ∨ ∀ v, v ≠ call.workspace → ¬ Holds s v port) :
    ∀ w v port, Holds (t.setPc c call pc) w port → Holds (t.setPc c call pc) v port → w = v := by
  have new : ∀ v port, Holds s v port → pc.claims = some port → v = call.workspace := by
    intro v port held claims
    rcases claimed port claims with mine | nobody
    · exact h.one v call.workspace port held mine
    · by_contra differs
      exact nobody v differs held
  intro w v port left right
  rcases holds_turn calls kept left with held | ⟨rfl, claims⟩
  · rcases holds_turn calls kept right with held' | ⟨rfl, claims⟩
    · exact h.one w v port held held'
    · exact new w port held claims
  · rcases holds_turn calls kept right with held' | ⟨rfl, -⟩
    · exact (new v port held' claims).symm
    · rfl

/-- A call moves on without touching a file, from and to places where it does not write. -/
theorem Inv.turn (h : Inv s) (files : t.files = s.files) (calls : t.calls = s.calls)
    (left : ∀ other port, s.calls c = some other → other.pc ≠ .writing port) (enters : ∀ port, pc ≠ .writing port)
    (claimed : ∀ port, pc.claims = some port → ∀ v, v ≠ call.workspace → ¬ Holds s v port)
    (own : Fact t { call with pc := pc }) : Inv (t.setPc c call pc) := by
  have at_c : (t.setPc c call pc).calls c = some { call with pc := pc } := if_pos rfl
  have at_d : ∀ d, d ≠ c → (t.setPc c call pc).calls d = s.calls d :=
      fun d differs => (if_neg differs).trans (by rw [calls])
  have writes : ∀ d other port, (t.setPc c call pc).calls d = some other → other.pc = .writing port →
      d ≠ c ∧ s.calls d = some other := by
    intro d other port theirs writing
    by_cases same : d = c
    · subst same
      obtain rfl := Option.some.inj (at_c.symm.trans theirs)
      exact absurd writing (enters port)
    · exact ⟨same, (at_d d same).symm.trans theirs⟩
  refine ⟨h.one_turn calls (fun v port recorded => .inl (by rwa [← files]))
    fun port claims => .inr (claimed port claims),
    ?_, ?_, ?_, ?_⟩
  · intro w empty
    obtain ⟨d, other, port, theirs, named, writing⟩ := h.writer w (by rwa [← files])
    have differs : d ≠ c := by
      rintro rfl
      exact left other port theirs writing
    exact ⟨d, other, port, (at_d d differs).trans theirs, named, writing⟩
  · intro d e other another port port' theirs others same writing writing'
    exact h.single d e other another port port' (writes d other port theirs writing).2
      (writes e another port' others writing').2 same writing writing'
  · intro w port recorded
    exact h.valid w port (by rwa [← files])
  · intro d other theirs
    by_cases same : d = c
    · subst same
      obtain rfl := Option.some.inj (at_c.symm.trans theirs)
      exact own.frame rfl
    · rw [at_d d same] at theirs
      exact (h.fact d other theirs).frame (by rw [← files]; rfl)

/-- A call that does not write relies on no file that holds no port. -/
theorem Fact.unrecorded (h : Fact s call) (nothing : ∀ port, s.files call.workspace ≠ some (.recorded port))
    (idle : ∀ port, call.pc ≠ .writing port) : Fact t call := by
  rcases call with ⟨w, known, pc⟩
  cases pc with
  | reading => exact fun port found => absurd (h port found) (nothing port)
  | returned port => exact absurd h.1 (nothing port)
  | writing port => exact absurd rfl (idle port)
  | probing _ | creating _ _ | rereading _ | raised | answered _ _ => exact h

/-- A call creates or writes the file of its workspace. -/
theorem Inv.writes {file : PortFile} (h : Inv s) (mine : s.calls c = some call)
    (nothing : ∀ port, s.files call.workspace ≠ some (.recorded port))
    (alone : ∀ d other port, d ≠ c → s.calls d = some other → other.workspace = call.workspace →
    other.pc ≠ .writing port)
    (empty : file = .empty → ∃ port, pc = .writing port)
    (recorded : ∀ port, file = .recorded port → call.pc.claims = some port)
    (claims : ∀ port, pc.claims = some port → call.pc.claims = some port)
    (valid : ∀ port, call.pc.claims = some port → Valid port)
    (own : Fact (s.setFile call.workspace file) { call with pc := pc }) :
    Inv ((s.setFile call.workspace file).setPc c call pc) := by
  have holds : ∀ port, call.pc.claims = some port → Holds s call.workspace port := fun port claims =>
    .inr ⟨c, call, mine, rfl, claims⟩
  have file_w : ((s.setFile call.workspace file).setPc c call pc).files call.workspace = some file := if_pos rfl
  have file_v : ∀ v, v ≠ call.workspace → ((s.setFile call.workspace file).setPc c call pc).files v = s.files v :=
    fun v differs => if_neg differs
  have at_c : ((s.setFile call.workspace file).setPc c call pc).calls c = some { call with pc := pc } := if_pos rfl
  have at_d : ∀ d, d ≠ c → ((s.setFile call.workspace file).setPc c call pc).calls d = s.calls d :=
    fun d differs => if_neg differs
  refine ⟨h.one_turn rfl ?_ fun port claimed => .inl (holds port (claims port claimed)), ?_, ?_, ?_, ?_⟩
  · intro v port found
    by_cases same : v = call.workspace
    · subst same
      exact holds port (recorded port (Option.some.inj (file_w.symm.trans found)))
    · exact .inl ((file_v v same).symm.trans found)
  · intro v found
    by_cases same : v = call.workspace
    · subst same
      obtain ⟨port, writing⟩ := empty (Option.some.inj (file_w.symm.trans found))
      exact ⟨c, _, port, at_c, rfl, writing⟩
    · obtain ⟨d, other, port, theirs, named, writing⟩ := h.writer v ((file_v v same).symm.trans found)
      have differs : d ≠ c := by
        rintro rfl
        obtain rfl := Option.some.inj (mine.symm.trans theirs)
        exact same named.symm
      exact ⟨d, other, port, (at_d d differs).trans theirs, named, writing⟩
  · intro d e other another port port' theirs others same writing writing'
    by_cases first : d = c
    · by_cases second : e = c
      · rw [first, second]
      · subst first
        obtain rfl := Option.some.inj (at_c.symm.trans theirs)
        exact absurd writing' (alone e another port' second ((at_d e second).symm.trans others) same.symm)
    · by_cases second : e = c
      · subst second
        obtain rfl := Option.some.inj (at_c.symm.trans others)
        exact absurd writing (alone d other port first ((at_d d first).symm.trans theirs) same)
      · exact h.single d e other another port port' ((at_d d first).symm.trans theirs)
          ((at_d e second).symm.trans others)
          same writing writing'
  · intro v port found
    by_cases same : v = call.workspace
    · subst same
      exact valid port (recorded port (Option.some.inj (file_w.symm.trans found)))
    · exact h.valid v port ((file_v v same).symm.trans found)
  · intro d other theirs
    by_cases same : d = c
    · subst same
      obtain rfl := Option.some.inj (at_c.symm.trans theirs)
      exact own.frame rfl
    · rw [at_d d same] at theirs
      by_cases workspace : other.workspace = call.workspace
      · exact (h.fact d other theirs).unrecorded (by rwa [workspace])
          fun port => alone d other port same theirs workspace
      · exact (h.fact d other theirs).frame (file_v _ workspace)

/-! ## The steps -/

section
variable {byte : WorkspaceId → ℕ}

theorem advance_inv (h : Inv s) (mine : s.calls c = some call) (guard : Guard s (.advance c))
    (taken : advance byte s c call = some t) : Inv t := by
  have fact := h.fact c call mine
  have guard := fun port rest => guard call port rest mine
  have left : (∀ port, call.pc ≠ .writing port) → ∀ other port, s.calls c = some other → other.pc ≠ .writing port := by
    intro idle other port theirs
    obtain rfl := Option.some.inj (mine.symm.trans theirs)
    exact idle port
  rcases call with ⟨w, known, pc⟩
  cases pc with
  | reading =>
    simp only [advance] at taken
    split at taken <;> cases taken
    · next port found =>
      have recorded := readAdminPort_eq_some found
      refine h.turn rfl rfl (left nofun) nofun nofun ⟨recorded, fun q known => ?_⟩
      cases (fact q known).symm.trans recorded
      rfl
    · next unread =>
      refine h.turn rfl rfl (left nofun) nofun nofun ⟨?_, fun port mem => valid_candidate mem⟩
      rcases known with _ | q
      · rfl
      · cases unread.symm.trans (h.read_eq_some_iff.mpr (fact q rfl))
  | probing ports =>
    rcases ports with _ | ⟨port, rest⟩
    · cases taken
      exact h.turn rfl rfl (left nofun) nofun nofun fact.1
    · cases taken
      by_cases listens : s.listening port = true
      · rw [if_pos listens]
        exact h.turn rfl rfl (left nofun) nofun nofun ⟨fact.1, fun p mem => fact.2 p (List.mem_cons_of_mem port mem)⟩
      · rw [if_neg listens]
        refine h.turn rfl rfl (left nofun) nofun ?_
          ⟨fact.1, fact.2 port List.mem_cons_self, fun p mem => fact.2 p (List.mem_cons_of_mem port mem)⟩
        intro p claims
        cases claims
        exact guard port rest rfl (by simpa using listens)
  | creating port rest =>
    simp only [advance] at taken
    split at taken <;> cases taken
    · next absent =>
      refine h.writes mine (by simp [absent]) ?_ (fun _ => ⟨port, rfl⟩) nofun (fun p claims => claims)
        (fun p claims => ?_) ⟨fact.1, fact.2.1, if_pos rfl⟩
      · intro d other q _ theirs same writing
        rcases other with ⟨v, known', pc'⟩
        obtain rfl : pc' = .writing q := writing
        obtain rfl : v = w := same
        obtain ⟨-, -, empty⟩ := h.fact d _ theirs
        cases absent.symm.trans empty
      · cases claims
        exact fact.2.1
    · exact h.turn rfl rfl (left nofun) nofun nofun ⟨fact.1, fact.2.2⟩
  | rereading rest =>
    simp only [advance] at taken
    split at taken <;> cases taken
    · next port found =>
      refine h.turn rfl rfl (left nofun) nofun nofun ⟨readAdminPort_eq_some found, fun q recorded => ?_⟩
      cases fact.1.symm.trans recorded
    · exact h.turn rfl rfl (left nofun) nofun nofun fact
  | writing port =>
    cases taken
    obtain ⟨unknown, valid, empty⟩ := fact
    refine h.writes mine (by simp [empty]) ?_ nofun (fun p eq => ?_) nofun (fun p claims => ?_)
      ⟨if_pos rfl, fun q recorded => ?_⟩
    · intro d other q differs theirs same writing
      exact differs (h.single d c other _ q port theirs mine same writing rfl)
    · cases eq
      rfl
    · cases claims
      exact valid
    · cases unknown.symm.trans recorded
  | returned _ | raised | answered _ _ => cases taken

theorem step_inv {a : Action} (h : Inv s) (guard : Guard s a) (taken : step byte s a = some t) : Inv t := by
  cases a with
  | ensure c w =>
    simp only [step] at taken
    split at taken <;> cases taken
    next free =>
    refine h.turn rfl rfl (fun other port theirs => ?_) nofun nofun fun port known => readAdminPort_eq_some known
    cases free.symm.trans theirs
  | advance c =>
    obtain ⟨call, mine, taken⟩ := Option.bind_eq_some_iff.mp taken
    exact advance_inv h mine guard taken
  | readPort c w =>
    simp only [step] at taken
    split at taken <;> cases taken
    next free =>
    refine h.turn rfl rfl (fun other port theirs => ?_) nofun nofun ⟨rfl, fun unread => ?_⟩
    · cases free.symm.trans theirs
    · by_contra begun
      obtain ⟨port, recorded⟩ := guard (by simpa using begun)
      cases unread.symm.trans (h.read_eq_some_iff.mpr recorded)
  | die c =>
    obtain ⟨call, mine, rfl⟩ := Option.map_eq_some_iff.mp taken
    have kept : ∀ d other, (if d = c then none else s.calls d) = some other → d ≠ c ∧ s.calls d = some other := by
      intro d other theirs
      split_ifs at theirs with same
      exact ⟨same, theirs⟩
    have held : ∀ w port, Holds { s with calls := fun d => if d = c then none else s.calls d } w port →
        Holds s w port := by
      rintro w port (recorded | ⟨d, other, theirs, named, claims⟩)
      · exact .inl recorded
      · exact .inr ⟨d, other, (kept d other theirs).2, named, claims⟩
    refine ⟨fun w v port left right => h.one w v port (held w port left) (held v port right), ?_, ?_, h.valid, ?_⟩
    · intro w empty
      obtain ⟨d, other, port, theirs, named, writing⟩ := h.writer w empty
      have differs : d ≠ c := by
        rintro rfl
        exact guard other port theirs writing
      exact ⟨d, other, port, (if_neg differs).trans theirs, named, writing⟩
    · intro d e other another port port' theirs others
      exact h.single d e other another port port' (kept d other theirs).2 (kept e another others).2
    · intro d other theirs
      exact (h.fact d other (kept d other theirs).2).frame rfl
  | listen port listens =>
    cases taken
    exact ⟨h.one, h.writer, h.single, h.valid, fun c call mine => (h.fact c call mine).frame rfl⟩

/-! ## A call on its own -/

theorem exec_advance {n : ℕ} (mine : s.calls c = some call) (taken : advance byte s c call = some t) :
    exec (step byte) s (List.replicate (n + 1) (.advance c)) = exec (step byte) t (List.replicate n (.advance c)) := by
  simp [List.replicate_succ, exec, step, mine, taken]

/-- On its own, a call that probes with a free port ahead returns. -/
theorem solo_probing {known : Option Port} {ports : List Port} (mine : s.calls c = some ⟨w, known, .probing ports⟩)
    (absent : s.files w = none) (free : ∃ port ∈ ports, s.listening port = false) :
    ∃ n t port, exec (step byte) s (List.replicate n (.advance c)) = some t ∧ Returned t c port := by
  induction ports generalizing s with
  | nil =>
    obtain ⟨port, mem, -⟩ := free
    cases mem
  | cons port rest ih =>
    by_cases listens : s.listening port = true
    · obtain ⟨free, mem, silent⟩ := free
      have later : free ∈ rest := by
        rcases List.mem_cons.mp mem with rfl | later
        · cases silent.symm.trans listens
        · exact later
      obtain ⟨n, t, found, ran, returned⟩ := ih (s := s.setPc c ⟨w, known, .probing (port :: rest)⟩ (.probing rest))
        (if_pos rfl) absent ⟨free, later, silent⟩
      have first : advance byte s c ⟨w, known, .probing (port :: rest)⟩ =
          some (s.setPc c ⟨w, known, .probing (port :: rest)⟩ (.probing rest)) := by
        simp only [advance, if_pos listens]
      refine ⟨n + 1, t, found, ?_, returned⟩
      rw [exec_advance mine first, ran]
    · have first : advance byte s c ⟨w, known, .probing (port :: rest)⟩ =
          some (s.setPc c ⟨w, known, .probing (port :: rest)⟩ (.creating port rest)) := by
        simp only [advance, if_neg listens]
      let created := (s.setPc c ⟨w, known, .probing (port :: rest)⟩ (.creating port rest))
      let empty := (created.setFile w .empty).setPc c ⟨w, known, .creating port rest⟩ (.writing port)
      have third : advance byte empty c ⟨w, known, .writing port⟩ =
          some ((empty.setFile w (.recorded port)).setPc c ⟨w, known, .writing port⟩ (.returned port)) := rfl
      have second : advance byte created c ⟨w, known, .creating port rest⟩ = some empty := by
        have absent : created.files w = none := absent
        simp only [advance, absent]
        rfl
      refine ⟨3, (empty.setFile w (.recorded port)).setPc c ⟨w, known, .writing port⟩ (.returned port), port, ?_, ?_⟩
      · rw [exec_advance mine first, exec_advance (if_pos rfl) second,
          exec_advance (if_pos rfl) third]
        rfl
      · simp [Returned, State.setPc]

/-- A call succeeds on its own where some candidate is free. -/
theorem Inv.recovers (h : Inv s) (new : s.calls c = none) (unwritten : Unwritten s w)
    (free : ∃ port ∈ candidatePorts (byte w), s.listening port = false) :
    ∃ n t port, exec (step byte) s (.ensure c w :: List.replicate n (.advance c)) = some t ∧ Returned t c port := by
  have begun : step byte s (.ensure c w) = some (s.setPc c ⟨w, s.read w, .reading⟩ .reading) := if_pos new
  have mine : (s.setPc c ⟨w, s.read w, .reading⟩ .reading).calls c = some ⟨w, s.read w, .reading⟩ := if_pos rfl
  rcases file : s.files w with _ | (_ | port)
  · have unread : s.read w = none := by simp [State.read, file, readAdminPort]
    have first : advance byte (s.setPc c ⟨w, s.read w, .reading⟩ .reading) c ⟨w, s.read w, .reading⟩ = some
        ({ s.setPc c ⟨w, s.read w, .reading⟩ .reading with
          begun := fun v => decide (v = w) || s.begun v }.setPc c ⟨w, s.read w, .reading⟩
            (.probing (candidatePorts (byte w)))) := by
      have unread' : (s.setPc c ⟨w, s.read w, .reading⟩ .reading).read w = none := unread
      simp only [advance, unread']
      rfl
    let probing := { s.setPc c ⟨w, s.read w, .reading⟩ .reading with
      begun := fun v => decide (v = w) || s.begun v }.setPc c ⟨w, s.read w, .reading⟩
        (.probing (candidatePorts (byte w)))
    have mine' : probing.calls c = some ⟨w, s.read w, .probing (candidatePorts (byte w))⟩ := if_pos rfl
    obtain ⟨n, t, port, ran, returned⟩ := solo_probing mine' file free
    refine ⟨n + 1, t, port, ?_, returned⟩
    rw [exec, begun, Option.bind_some, exec_advance mine first, ran]
  · obtain ⟨d, other, port, theirs, named, writing⟩ := h.writer w file
    exact absurd writing (unwritten d other port theirs named)
  · have read : s.read w = some port := h.read_eq_some_iff.mpr file
    have read' : (s.setPc c ⟨w, s.read w, .reading⟩ .reading).read w = some port := read
    have first : advance byte (s.setPc c ⟨w, s.read w, .reading⟩ .reading) c ⟨w, s.read w, .reading⟩ = some
        ((s.setPc c ⟨w, s.read w, .reading⟩ .reading).setPc c ⟨w, s.read w, .reading⟩ (.returned port)) := by
      simp only [advance, read']
    refine ⟨1, (s.setPc c ⟨w, s.read w, .reading⟩ .reading).setPc c ⟨w, s.read w, .reading⟩ (.returned port), port,
      ?_, ?_⟩
    · rw [exec, begun, Option.bind_some, exec_advance mine first]
      rfl
    · simp [Returned, State.setPc]

/-! ## Each workspace has its own, stable port -/

theorem Inv.ownPorts (h : Inv s) : OwnPorts byte s := by
  refine ⟨fun w v port left right => h.one w v port (.inl left) (.inl right), ?_, ?_, ?_,
    fun w c new unwritten free => h.recovers new unwritten free⟩
  · intro c call port mine returns
    have fact := h.fact c call mine
    rcases call with ⟨w, known, pc⟩
    obtain rfl : pc = .returned port := returns
    exact fact.1
  · intro c call port mine knew
    have fact := h.fact c call mine
    rcases call with ⟨w, known, pc⟩
    obtain rfl : known = some port := knew
    cases pc with
    | reading => exact .inl rfl
    | returned found =>
      obtain rfl := fact.2 port rfl
      exact .inr (.inl rfl)
    | answered found begun =>
      obtain rfl : some port = found := fact.1
      exact .inr (.inr ⟨begun, rfl⟩)
    | probing _ => cases fact.1
    | creating _ _ => cases fact.1
    | rereading _ => cases fact.1
    | writing _ => cases fact.1
    | raised => cases fact
  · intro c call begun mine answers
    have fact := h.fact c call mine
    rcases call with ⟨w, known, pc⟩
    obtain rfl : pc = .answered none begun := answers
    exact fact.2 rfl

end

/-- While a port that another workspace holds is listened to whenever it is probed, no call ends
between creating a file and writing it, and nobody reads the file of a workspace during its first
allocation, each workspace has its own, stable port. -/
theorem guarded_ports_own (byte : WorkspaceId → ℕ) (listening : Port → Bool) {as : List Action} {s : State}
    (run : Run (step byte) Guard (State.initial listening) as s) : OwnPorts byte s := by
  have inv : Inv s := run.invariant (initial listening) fun _ _ _ h guard taken => step_inv h guard taken
  exact inv.ownPorts

theorem guarded_ports_own_first : ∃ s, s.files 0 = some (.recorded 20201) ∧ OwnPorts (fun _ => 0) s := by
  have ran : ∃ s, Run (step fun _ => 0) Guard (State.initial fun _ => false)
      (.ensure 0 0 :: List.replicate 4 (.advance 0)) s ∧ s.files 0 = some (.recorded 20201) := by
    refine ⟨_, .cons trivial rfl <| .cons ?_ rfl <| .cons ?_ rfl <| .cons ?_ rfl <| .cons ?_ rfl <| .refl _, rfl⟩
    · intro call port rest mine probes
      obtain rfl := Option.some.inj mine
      cases probes
    · intro call port rest mine _ _ v differs held
      obtain rfl := Option.some.inj mine
      rcases held with recorded | ⟨d, other, theirs, named, claims⟩
      · cases recorded
      · rcases eq_or_ne d 0 with rfl | far
        · obtain rfl := Option.some.inj theirs
          exact differs named.symm
        · simp [State.setPc, State.initial, far] at theirs
    · intro call port rest mine probes
      obtain rfl := Option.some.inj mine
      cases probes
    · intro call port rest mine probes
      obtain rfl := Option.some.inj mine
      cases probes
  obtain ⟨s, run, recorded⟩ := ran
  exact ⟨s, recorded, guarded_ports_own _ _ run⟩

/-- Two workspaces whose hashes begin alike record one port, where the first one's master does
not listen yet. -/
theorem silent_workspaces_share_port : ¬ ∀ (byte : WorkspaceId → ℕ) (listening : Port → Bool) (as : List Action)
    (s : State), Run (step byte) anyStep (State.initial listening) as s → OwnPorts byte s := by
  intro all
  let alloc (c : CallId) (w : WorkspaceId) : List Action := .ensure c w :: List.replicate 4 (.advance c)
  have ran : ∃ s, exec (step fun _ => 0) (State.initial fun _ => false) (alloc 0 0 ++ alloc 1 1) = some s ∧
      s.files 0 = some (.recorded 20201) ∧ s.files 1 = some (.recorded 20201) := ⟨_, rfl, rfl, rfl⟩
  obtain ⟨s, ran, first, second⟩ := ran
  have own := all _ _ _ s (Run.of_exec ran)
  cases own.distinct 0 1 _ first second

end LocalWebAccess.AdminPorts
