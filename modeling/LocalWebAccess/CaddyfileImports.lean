import LocalWebAccess.CaddyfilePrograms

/-!
# The main Caddyfile imports what is there

A main Caddyfile is right about every fragment for which no operation in progress is answerable. The
operations that end without bringing it up to date, or put a fragment back after another operation
has imported it, are the ones that leave an import of nothing behind.
-/

namespace LocalWebAccess.MainCaddyfile
open GuardedRuns

def importsOf : Option Imports → Imports
  | none => fun _ => 0
  | some text => text

/-- The file imports the fragment once if it is there, and else not. -/
def Agrees (text : Option Imports) (files : Files) (x : Fragment) : Prop :=
  importsOf text x = if (files x).isSome then 1 else 0

structure ImportsRight (s : State) : Prop where
  /-- No import of nothing, and every fragment is imported once. -/
  exact : (∀ c, s.calls c = none) → ∀ x, Agrees s.disk.main s.disk.files x
  removed : (∀ c, s.calls c = none) → ∀ x, s.removed x.owner = true → importsOf s.disk.main x = 0
  /-- A call whose reload has failed leaves everything as it was, other operations apart. -/
  restored : ∀ r ∈ s.raised, (∀ x, r.op.owns x = true → ¬ r.overlap x) → ∀ x, ¬ r.overlap x →
    r.after.files x = r.before.files x ∧ importsOf r.after.main x = importsOf r.before.main x

/-! ## The condition -/

/-- The main Caddyfile as it is, or as an operation in progress may yet write it. -/
def State.InPlay (s : State) (text : Option Imports) : Prop :=
  text = s.disk.main ∨ ∃ c call, s.calls c = some call ∧ text ∈ call.prog.texts

/-- A fragment is not written for an instance that has been removed, and a call whose reload has failed
puts back what it had found. -/
def ChangeAllowed (s : State) (role : Role) (x : Fragment) (v : Option Content) : Answer → Prop
  | .ok => role ≠ .invent ∧ (v.isSome = true → s.removed x.owner = false)
  | .fails => role ≠ .restore
  | .leaves _ => role ≠ .restore ∧ s.removed x.owner = false
  | .breaks => True

/-- A call ends with the fragments that it has made or removed right in the texts in play, the aliases
have one entry whenever a Caddyfile is written, and an instance is deleted without its fragments. -/
def Allowed (s : State) (call : Call) (answer : Answer) : Prop :=
  match call.prog with
  | .done _ => ∀ x ∈ call.unsettled, ∀ text, s.InPlay text → Agrees text s.disk.files x
  | .change role x v _ _ => ChangeAllowed s role x v answer
  | .regenerate _ _ _ _ => ∀ i, (s.disk.files (.aliasOf i)).isSome = true → s.config.aliasEntries = 1
  | .delete i _ => s.disk.files (.siteOf i) = none ∧ s.disk.files (.aliasOf i) = none
  | _ => True

def Guard (s : State) : Action → Prop
  | .advance c answer => ∀ call, s.calls c = some call → Allowed s call answer
  | _ => True

/-! ## The invariant -/

/-- What the file will be found to import if a reload that runs succeeds. -/
def Prog.content : Prog → Option Imports
  | .writing _ _ content _ _ _ | .reloading _ content _ _ _ => some content
  | _ => none

/-- The content that has been written already. -/
def Prog.loaded : Prog → Option Imports
  | .reloading _ content _ _ _ => some content
  | _ => none

theorem Prog.texts_of_loaded {prog : Prog} {content : Imports} (loaded : prog.loaded = some content) :
    prog.texts ≠ [] := by
  cases prog <;> cases loaded
  exact List.cons_ne_nil _ _

theorem Prog.mem_texts_of_content {prog : Prog} {content : Imports} (is : prog.content = some content) :
    some content ∈ prog.texts := by
  cases prog <;> cases is <;> exact List.mem_cons_of_mem _ (List.mem_singleton_self _)

theorem Prog.content_of_texts {prog : Prog} (idle : prog.texts = []) : prog.content = none ∧ prog.loaded = none := by
  cases prog <;> first | exact ⟨rfl, rfl⟩ | cases idle

/-- A call, other than this one, is answerable for the fragment. -/
def State.Answers (s : State) (but : CallId → Prop) (x : Fragment) : Prop :=
  ∃ c call, ¬ but c ∧ s.calls c = some call ∧ x ∈ call.unsettled

structure CallFact (s : State) (c : CallId) (call : Call) : Prop where
  unsettled : ∀ x ∈ call.unsettled, call.op.owns x = true
  fits : Fits call.op.owns call.prog
  restores : (∀ x, call.op.owns x = true → ¬ s.overlap c x) →
    Restores call.op.owns call.before.files call.prog s.disk.files
  before : ∀ x, ¬ s.overlap c x → Agrees call.before.main call.before.files x
  outside : ∀ x, call.op.owns x = false → ¬ s.overlap c x → s.disk.files x = call.before.files x
  others : ∀ d other, d ≠ c → s.calls d = some other → ∀ x, other.op.owns x = true → s.overlap c x
  holder : call.prog.texts ≠ [] → s.lock = some c
  loaded : ∀ content, call.prog.loaded = some content → s.disk.main = some content
  content : ∀ content, call.prog.content = some content →
    ∀ x, Agrees (some content) s.disk.files x ∨ s.Answers (· = c) x

structure Inv (s : State) : Prop where
  plays : ∀ text, s.InPlay text → ∀ x, Agrees text s.disk.files x ∨ s.Answers (fun _ => False) x
  call : ∀ c call, s.calls c = some call → CallFact s c call
  removed : ∀ x, s.removed x.owner = true → s.disk.files x = none
  raised : ∀ r ∈ s.raised, (∀ x, r.op.owns x = true → ¬ r.overlap x) → ∀ x, ¬ r.overlap x →
    r.after.files x = r.before.files x ∧ importsOf r.after.main x = importsOf r.before.main x

variable {s t : State} {c d : CallId} {call call' other : Call} {answer : Answer}

/-- A state with the same calls, fragments and main Caddyfile. -/
theorem Inv.locks (h : Inv s) {holder : Option CallId}
    (keeps : ∀ d other, s.calls d = some other → other.prog.texts ≠ [] → holder = some d) :
    Inv { s with lock := holder } := by
  refine ⟨h.plays, fun d other theirs => ?_, h.removed, h.raised⟩
  have fact := h.call d other theirs
  exact ⟨fact.unsettled, fact.fits, fact.restores, fact.before, fact.outside, fact.others, keeps d other theirs,
    fact.loaded, fact.content⟩

theorem Inv.acquires (h : Inv s) (free : s.lock = none) : Inv { s with lock := some c } := by
  refine h.locks fun d other theirs busy => ?_
  cases free.symm.trans ((h.call d other theirs).holder busy)

theorem Inv.releases (h : Inv s) (mine : s.calls c = some call) (held : s.lock = some c) (idle : call.prog.texts = []) :
    Inv { s with lock := none } := by
  refine h.locks fun d other theirs busy => ?_
  obtain rfl : c = d := Option.some.inj (held.symm.trans ((h.call d other theirs).holder busy))
  obtain rfl : call = other := Option.some.inj (mine.symm.trans theirs)
  exact absurd idle busy

/-- The holder of the lock writes one of the texts in play. -/
theorem Inv.writes (h : Inv s) {main : Option Imports} (held : s.lock = some c) (inPlay : s.InPlay main)
    (mine : s.calls c = some call) (unloaded : call.prog.loaded = none) : Inv (s.write main) := by
  refine ⟨fun text play => ?_, fun d other theirs => ?_, h.removed, h.raised⟩
  · rcases play with rfl | busy
    · exact h.plays _ inPlay
    · exact h.plays text (.inr busy)
  · have fact := h.call d other theirs
    refine ⟨fact.unsettled, fact.fits, fact.restores, fact.before, fact.outside, fact.others, fact.holder,
      fun content loaded => ?_, fact.content⟩
    obtain rfl : c = d := Option.some.inj (held.symm.trans (fact.holder (Prog.texts_of_loaded loaded)))
    obtain rfl : call = other := Option.some.inj (mine.symm.trans theirs)
    cases unloaded.symm.trans loaded

theorem Agrees.congr {text : Option Imports} {files files' : Files} {x : Fragment}
    (same : (files' x).isSome = (files x).isSome) (agrees : Agrees text files x) : Agrees text files' x := by
  unfold Agrees
  rw [same]
  exact agrees

/-- The call moves on, and the fragments are these. -/
def State.moves (s : State) (c : CallId) (files : Files) (call : Call) : State :=
  { s with disk := { s.disk with files := files } }.put c call

/-- One call moves on, and may change fragments of its own. -/
theorem Inv.put (h : Inv s) (mine : s.calls c = some call) {files : Files} (op : call'.op = call.op)
    (before : call'.before = call.before) (grows : ∀ x ∈ call.unsettled, x ∈ call'.unsettled)
    (seen : ∀ x, (files x).isSome = (s.disk.files x).isSome ∨ x ∈ call'.unsettled)
    (own : ∀ x, call.op.owns x = false → files x = s.disk.files x)
    (texts : ∀ text ∈ call'.prog.texts, s.InPlay text ∨ ∀ x, Agrees text s.disk.files x)
    (content : ∀ content, call'.prog.content = some content → files = s.disk.files ∧
      (call.prog.content = some content ∨ ∀ x, Agrees (some content) s.disk.files x))
    (removed : ∀ x, s.removed x.owner = true → files x = none)
    (unsettled : ∀ x ∈ call'.unsettled, call.op.owns x = true) (fits : Fits call.op.owns call'.prog)
    (restores : (∀ x, call.op.owns x = true → ¬ s.overlap c x) →
      Restores call.op.owns call.before.files call'.prog files)
    (holder : call'.prog.texts ≠ [] → s.lock = some c)
    (loaded : ∀ content, call'.prog.loaded = some content → s.disk.main = some content) :
    Inv (s.moves c files call') := by
  have split : ∀ {d other}, (s.moves c files call').calls d = some other →
      (d = c ∧ other = call') ∨ (d ≠ c ∧ s.calls d = some other) := entry_cases
  have here : (s.moves c files call').calls c = some call' := if_pos rfl
  have stays : ∀ {d other}, d ≠ c → s.calls d = some other → (s.moves c files call').calls d = some other :=
    fun far theirs => (if_neg far).trans theirs
  have answers {but : CallId → Prop} {x : Fragment} (answer : s.Answers but x) :
      (s.moves c files call').Answers but x := by
    obtain ⟨d, other, allowed, theirs, pending⟩ := answer
    by_cases same : d = c
    · subst same
      obtain rfl : call = other := Option.some.inj (mine.symm.trans theirs)
      exact ⟨d, call', allowed, here, grows x pending⟩
    · exact ⟨d, other, allowed, stays same theirs, pending⟩
  have agrees {but : CallId → Prop} {text : Option Imports} {x : Fragment} (counts : ¬ but c)
      (right : Agrees text s.disk.files x ∨ s.Answers but x) :
      Agrees text files x ∨ (s.moves c files call').Answers but x := by
    rcases seen x with same | pending
    · exact right.imp (.congr same) answers
    · exact .inr ⟨c, call', counts, here, pending⟩
  refine ⟨?_, ?_, removed, h.raised⟩
  · intro text play x
    refine agrees id ?_
    rcases play with rfl | ⟨d, other, theirs, among⟩
    · exact h.plays _ (.inl rfl) x
    · rcases split theirs with ⟨rfl, rfl⟩ | ⟨far, theirs⟩
      · rcases texts text among with play | right
        · exact h.plays _ play x
        · exact .inl (right x)
      · exact h.plays _ (.inr ⟨d, other, theirs, among⟩) x
  · intro d other theirs
    rcases split theirs with ⟨rfl, rfl⟩ | ⟨far, theirs⟩
    · have fact := h.call d call mine
      rw [← op] at own unsettled fits restores
      rw [← before] at restores
      have fact' := fact.before
      have outside := fact.outside
      have others := fact.others
      rw [← before] at fact' outside
      rw [← op] at outside
      refine ⟨unsettled, fits, restores, fact', ?_, ?_, holder, loaded, ?_⟩
      · intro x notMine alone
        exact (own x notMine).trans (outside x notMine alone)
      · intro e other far theirs
        rcases split theirs with ⟨rfl, rfl⟩ | ⟨_, theirs⟩
        · exact absurd rfl far
        · exact others e other far theirs
      · intro text is x
        obtain ⟨same, right⟩ := content text is
        have right : Agrees (some text) s.disk.files x ∨ s.Answers (· = d) x :=
          right.elim (fun old => fact.content text old x) fun new => .inl (new x)
        exact right.imp (.congr (congrArg (fun files : Files => (files x).isSome) same)) answers
    · have fact := h.call d other theirs
      -- whatever the call owns is no business of the other one
      have apart (x : Fragment) (alone : ¬ s.overlap d x) : files x = s.disk.files x := by
        refine own x (Bool.eq_false_iff.mpr fun owned => ?_)
        exact alone (fact.others c call far.symm mine x owned)
      refine ⟨fact.unsettled, fact.fits, fun alone => ?_, fact.before, ?_, ?_, fact.holder, fact.loaded, ?_⟩
      · exact (fact.restores alone).congr_fits fact.fits fun x owned => (apart x (alone x owned)).symm
      · intro x notMine alone
        exact (apart x alone).trans (fact.outside x notMine alone)
      · intro e third far' third'
        rcases split third' with ⟨rfl, rfl⟩ | ⟨_, third'⟩
        · rw [op]
          exact fact.others e call far' mine
        · exact fact.others e third far' third'
      · intro text is x
        exact agrees far.symm (fact.content text is x)

/-- The call moves on, and nothing on disk changes. -/
theorem Inv.goes {next : Prog} (h : Inv s) (mine : s.calls c = some call)
    (texts : ∀ text ∈ next.texts, s.InPlay text ∨ ∀ x, Agrees text s.disk.files x)
    (content : ∀ content, next.content = some content →
      call.prog.content = some content ∨ ∀ x, Agrees (some content) s.disk.files x)
    (fits : Fits call.op.owns next)
    (restores : Restores call.op.owns call.before.files call.prog s.disk.files →
      Restores call.op.owns call.before.files next s.disk.files)
    (holder : next.texts ≠ [] → s.lock = some c)
    (loaded : ∀ content, next.loaded = some content → s.disk.main = some content) : Inv (s.goto c call next) := by
  have fact := h.call c call mine
  have moved : Inv (s.moves c s.disk.files { call with prog := next }) :=
    h.put mine rfl rfl (fun _ among => among) (fun _ => .inl rfl) (fun _ _ => rfl) texts
      (fun text is => ⟨rfl, content text is⟩) h.removed fact.unsettled fits
      (fun alone => restores (fact.restores alone)) holder loaded
  exact moved

/-- The call moves on to a program at rest. -/
theorem Inv.rests {next : Prog} (h : Inv s) (mine : s.calls c = some call)
    (within : Within call.op.owns (fun _ => True) next)
    (restores : Restores call.op.owns call.before.files call.prog s.disk.files →
      Restores call.op.owns call.before.files next s.disk.files) : Inv (s.goto c call next) := by
  have idle := within.texts
  obtain ⟨noContent, unloaded⟩ := Prog.content_of_texts idle
  refine h.goes mine ?_ ?_ within.fits restores (fun busy => absurd idle busy) ?_
  · rw [idle]
    intro text among
    cases among
  · rw [noContent]
    intro text is
    cases is
  · rw [unloaded]
    intro text is
    cases is

/-- A fragment is written or removed. -/
theorem Inv.changes {next : Prog} {x : Fragment} {v : Option Content} (h : Inv s) (mine : s.calls c = some call)
    (owned : call.op.owns x = true) (kept : v.isSome = true → s.removed x.owner = false)
    (within : Within call.op.owns (fun _ => True) next)
    (restores : Restores call.op.owns call.before.files call.prog s.disk.files →
      Restores call.op.owns call.before.files next (edit s.disk.files x v)) : Inv (s.change c call x v next) := by
  have fact := h.call c call mine
  have idle := within.texts
  obtain ⟨noContent, unloaded⟩ := Prog.content_of_texts idle
  show Inv (s.moves c (edit s.disk.files x v) _)
  refine h.put mine rfl rfl ?_ ?_ ?_ ?_ ?_ ?_ ?_ within.fits (fun alone => restores (fact.restores alone))
    (fun busy => absurd idle busy) ?_
  · intro y among
    dsimp only
    split_ifs
    · exact among
    · exact List.mem_cons_of_mem _ among
  · intro y
    dsimp only [edit]
    split_ifs with same exists'
    · rw [same, exists']
      exact .inl rfl
    · rw [same]
      exact .inr List.mem_cons_self
    · exact .inl rfl
    · exact .inl rfl
  · intro y notMine
    refine if_neg fun same => ?_
    rw [same, owned] at notMine
    cases notMine
  · rw [idle]
    intro text among
    cases among
  · rw [noContent]
    intro text is
    cases is
  · intro y gone
    dsimp only [edit]
    split_ifs with same
    · rw [same] at gone
      cases v with
      | none => rfl
      | some v => cases (kept rfl).symm.trans gone
    · exact h.removed y gone
  · intro y among
    dsimp only at among
    split_ifs at among
    · exact fact.unsettled y among
    · rcases List.mem_cons.mp among with rfl | among
      · exact owned
      · exact fact.unsettled y among
  · rw [unloaded]
    intro text is
    cases is

/-- The file has been written from the fragments as the call knows them: the call is answerable for
nothing any more. -/
theorem Inv.settles {next : Prog} {content : Imports} (h : Inv s) (mine : s.calls c = some call)
    (held : s.lock = some c) (is : call.prog.content = some content) (main : s.disk.main = some content)
    (within : Within call.op.owns (fun _ => True) next)
    (restores : Restores call.op.owns call.before.files call.prog s.disk.files →
      Restores call.op.owns call.before.files next s.disk.files) : Inv (s.settle c call next) := by
  have fact := h.call c call mine
  have idle := within.texts
  obtain ⟨noContent, unloaded⟩ := Prog.content_of_texts idle
  have split : ∀ {d other}, (s.settle c call next).calls d = some other →
      (d = c ∧ other = { call with unsettled := [], prog := next }) ∨ (d ≠ c ∧ s.calls d = some other) :=
    entry_cases
  have free {d : CallId} {other : Call} (far : d ≠ c) (theirs : s.calls d = some other) : other.prog.texts = [] := by
    by_contra busy
    exact far (Option.some.inj (((h.call d other theirs).holder busy).symm.trans held))
  refine ⟨?_, ?_, h.removed, h.raised⟩
  · intro text play x
    have known : text = some content := by
      rcases play with rfl | ⟨d, other, theirs, among⟩
      · exact main
      · rcases split theirs with ⟨rfl, rfl⟩ | ⟨far, theirs⟩
        · rw [idle] at among
          cases among
        · rw [free far theirs] at among
          cases among
    rw [known]
    refine (fact.content content is x).imp id ?_
    rintro ⟨d, other, far, theirs, pending⟩
    exact ⟨d, other, id, (if_neg far).trans theirs, pending⟩
  · intro d other theirs
    rcases split theirs with ⟨rfl, rfl⟩ | ⟨far, theirs⟩
    · refine ⟨fun x among => (by cases among), within.fits, fun alone => restores (fact.restores alone), fact.before,
        fact.outside, ?_, fun busy => absurd idle busy, fun text loaded => ?_, fun text later => ?_⟩
      · intro e third far' third'
        rcases split third' with ⟨rfl, rfl⟩ | ⟨_, third'⟩
        · exact absurd rfl far'
        · exact fact.others e third far' third'
      · cases unloaded.symm.trans loaded
      · cases noContent.symm.trans later
    · have fact' := h.call d other theirs
      obtain ⟨noContent', unloaded'⟩ := Prog.content_of_texts (free far theirs)
      refine ⟨fact'.unsettled, fact'.fits, fact'.restores, fact'.before, fact'.outside, ?_, fact'.holder,
        fact'.loaded, ?_⟩
      · intro e third far' third'
        rcases split third' with ⟨rfl, rfl⟩ | ⟨_, third'⟩
        · exact fact'.others e call far' mine
        · exact fact'.others e third far' third'
      · intro text later
        cases noContent'.symm.trans later

/-- A call ends with nothing that the texts in play have wrong. -/
theorem Inv.finishes {outcome : Outcome} (h : Inv s) (mine : s.calls c = some call) (done : call.prog = .done outcome)
    (settled : ∀ x ∈ call.unsettled, ∀ text, s.InPlay text → Agrees text s.disk.files x) :
    Inv (s.finish c call outcome) := by
  have fact := h.call c call mine
  have others : ∀ {d other}, (s.finish c call outcome).calls d = some other → d ≠ c ∧ s.calls d = some other := by
    intro d other theirs
    by_cases same : d = c
    · cases (if_pos same).symm.trans theirs
    · exact ⟨same, (if_neg same).symm.trans theirs⟩
  have agrees {but : CallId → Prop} {text : Option Imports} {x : Fragment} (play : s.InPlay text)
      (right : Agrees text s.disk.files x ∨ s.Answers but x) :
      Agrees text s.disk.files x ∨ (s.finish c call outcome).Answers but x := by
    rcases right with right | ⟨d, other, allowed, theirs, pending⟩
    · exact .inl right
    · by_cases same : d = c
      · subst same
        obtain rfl : call = other := Option.some.inj (mine.symm.trans theirs)
        exact .inl (settled x pending text play)
      · exact .inr ⟨d, other, allowed, (if_neg same).trans theirs, pending⟩
  refine ⟨?_, ?_, h.removed, ?_⟩
  · intro text play x
    have play : s.InPlay text := by
      rcases play with rfl | ⟨d, other, theirs, among⟩
      · exact .inl rfl
      · exact .inr ⟨d, other, (others theirs).2, among⟩
    exact agrees play (h.plays text play x)
  · intro d other theirs
    obtain ⟨far, theirs⟩ := others theirs
    have fact' := h.call d other theirs
    refine ⟨fact'.unsettled, fact'.fits, fact'.restores, fact'.before, fact'.outside, ?_, fact'.holder,
      fact'.loaded, ?_⟩
    · intro e third far' third'
      exact fact'.others e third far' (others third').2
    · intro text is x
      exact agrees (.inr ⟨d, other, theirs, Prog.mem_texts_of_content is⟩) (fact'.content text is x)
  · intro r among
    unfold State.finish at among
    dsimp only at among
    split_ifs at among with failed
    · rcases List.mem_cons.mp among with rfl | earlier
      · intro alone x apart
        have restored := fact.restores alone
        rw [done] at restored
        have kept : s.disk.files x = call.before.files x := by
          cases owned : call.op.owns x
          · exact fact.outside x owned apart
          · exact restored failed x owned
        have now : Agrees s.disk.main s.disk.files x := by
          rcases h.plays s.disk.main (.inl rfl) x with right | ⟨d, other, -, theirs, pending⟩
          · exact right
          · by_cases same : d = c
            · subst same
              obtain rfl : call = other := Option.some.inj (mine.symm.trans theirs)
              exact settled x pending _ (.inl rfl)
            · exact absurd (fact.others d other same theirs x ((h.call d other theirs).unsettled x pending)) apart
        have start : Agrees call.before.main call.before.files x := fact.before x apart
        unfold Agrees at now start
        exact ⟨kept, now.trans ((congrArg (fun v : Option Content => if v.isSome then 1 else 0) kept).trans start.symm)⟩
      · exact h.raised r earlier
    · exact h.raised r among

theorem Inv.begins {op : Op} (h : Inv s) (fresh : s.calls c = none) : Inv (s.begin c op) := by
  have idle := op.within.texts
  obtain ⟨noContent, unloaded⟩ := Prog.content_of_texts idle
  have split : ∀ {d other}, (s.begin c op).calls d = some other →
      (d = c ∧ other = ⟨op, s.disk, [], op.prog⟩) ∨ (d ≠ c ∧ s.calls d = some other) := entry_cases
  have answers {but : CallId → Prop} {x : Fragment} (answer : s.Answers but x) : (s.begin c op).Answers but x := by
    obtain ⟨d, other, allowed, theirs, pending⟩ := answer
    refine ⟨d, other, allowed, (if_neg fun same => ?_).trans theirs, pending⟩
    rw [same, fresh] at theirs
    cases theirs
  refine ⟨?_, ?_, h.removed, h.raised⟩
  · intro text play x
    have play : s.InPlay text := by
      rcases play with rfl | ⟨d, other, theirs, among⟩
      · exact .inl rfl
      · rcases split theirs with ⟨rfl, rfl⟩ | ⟨far, theirs⟩
        · rw [idle] at among
          cases among
        · exact .inr ⟨d, other, theirs, among⟩
    exact (h.plays text play x).imp id answers
  · intro d other theirs
    rcases split theirs with ⟨rfl, rfl⟩ | ⟨far, theirs⟩
    · have overlap (x : Fragment) : (s.begin d op).overlap d x =
          ∃ e other, s.calls e = some other ∧ other.op.owns x = true := if_pos rfl
      refine ⟨fun x among => (by cases among), op.within.fits, fun _ => op.restores s.disk.files, ?_,
        fun _ _ _ => rfl, ?_, fun busy => absurd idle busy, fun text loaded => (by cases unloaded.symm.trans loaded),
        fun text is => (by cases noContent.symm.trans is)⟩
      · intro x alone
        rcases h.plays s.disk.main (.inl rfl) x with right | ⟨e, other, -, theirs, pending⟩
        · exact right
        · rw [overlap] at alone
          exact absurd ⟨e, other, theirs, (h.call e other theirs).unsettled x pending⟩ alone
      · intro e other far theirs x owned
        rcases split theirs with ⟨rfl, rfl⟩ | ⟨_, theirs⟩
        · exact absurd rfl far
        · rw [overlap]
          exact ⟨e, other, theirs, owned⟩
    · have fact := h.call d other theirs
      have overlap (x : Fragment) : (s.begin c op).overlap d x = (s.overlap d x ∨ op.owns x = true) := if_neg far
      have alone {x : Fragment} (apart : ¬ (s.begin c op).overlap d x) : ¬ s.overlap d x := by
        rw [overlap] at apart
        exact fun old => apart (.inl old)
      refine ⟨fact.unsettled, fact.fits, fun apart => fact.restores fun x owned => alone (apart x owned),
        fun x apart => fact.before x (alone apart), fun x notMine apart => fact.outside x notMine (alone apart), ?_,
        fact.holder, fact.loaded, fun text is x => (fact.content text is x).imp id answers⟩
      intro e third far' third' x owned
      rw [overlap]
      rcases split third' with ⟨rfl, rfl⟩ | ⟨_, third'⟩
      · exact .inr owned
      · exact .inl (fact.others e third far' third' x owned)

/-- Which instances have been removed. -/
theorem Inv.marks (h : Inv s) {removed : InstanceId → Bool}
    (gone : ∀ x, removed x.owner = true → s.disk.files x = none) : Inv { s with removed := removed } := by
  refine ⟨h.plays, fun d other theirs => ?_, gone, h.raised⟩
  have fact := h.call d other theirs
  exact ⟨fact.unsettled, fact.fits, fact.restores, fact.before, fact.outside, fact.others, fact.holder, fact.loaded,
    fact.content⟩

/-! ## The steps -/

theorem assembled_agrees (aliases : ∀ i, (s.disk.files (.aliasOf i)).isSome = true → s.config.aliasEntries = 1)
    (x : Fragment) : Agrees (some (assembleMainConfig s.config s.disk.files)) s.disk.files x := by
  unfold Agrees importsOf assembleMainConfig
  cases x with
  | siteOf i => rfl
  | aliasOf i =>
    dsimp only
    split_ifs with there
    · exact aliases i there
    · rfl

section
variable {op : Op} {before : Disk} {unsettled : List Fragment} {reload : Bool} {previous : Option Imports}
  {content : Imports} {next failed broken : Prog}

/-- The main Caddyfile is assembled from the fragments as they are. -/
theorem regenerate_inv (h : Inv s)
    (mine : s.calls c = some ⟨op, before, unsettled, .regenerate reload next failed broken⟩)
    (ok : ∀ i, (s.disk.files (.aliasOf i)).isSome = true → s.config.aliasEntries = 1)
    (taken : advance s c ⟨op, before, unsettled, .regenerate reload next failed broken⟩ answer = some t) : Inv t := by
  have fact := h.call c _ mine
  obtain ⟨next', failed', broken'⟩ := fact.fits
  cases answer <;> simp only [advance] at taken
  case ok =>
    split_ifs at taken with held
    cases taken
    refine h.goes mine ?_ ?_ ⟨next', failed', broken'⟩ id (fun _ => held) fun content is => (by cases is)
    · intro text among
      rcases List.mem_cons.mp among with rfl | among
      · exact .inl (.inl rfl)
      · obtain rfl := List.mem_singleton.mp among
        exact .inr (assembled_agrees ok)
    · intro content is
      obtain rfl := Option.some.inj is
      exact .inr (assembled_agrees ok)
  case fails =>
    cases taken
    exact h.rests mine failed' fun restores => restores.2.1
  case breaks =>
    cases taken
    exact h.rests mine broken' fun restores => restores.2.2
  all_goals cases taken

/-- It is written. -/
theorem writing_inv (h : Inv s)
    (mine : s.calls c = some ⟨op, before, unsettled, .writing reload previous content next failed broken⟩)
    (taken : advance s c ⟨op, before, unsettled, .writing reload previous content next failed broken⟩ answer = some t) :
    Inv t := by
  have fact := h.call c _ mine
  obtain ⟨next', failed', broken'⟩ := fact.fits
  have held := fact.holder (List.cons_ne_nil _ _)
  have play : ∀ text ∈ [previous, some content], s.InPlay text := fun text among => .inr ⟨c, _, mine, among⟩
  have written : Inv (s.write (some content)) :=
    h.writes held (play _ (List.mem_cons_of_mem _ (List.mem_singleton_self _))) mine rfl
  cases answer
  case ok =>
    cases reload <;> cases taken
    · exact written.settles mine held rfl rfl next' And.left
    · refine written.goes mine ?_ (fun _ is => .inl is) ⟨next', failed', broken'⟩ id (fun _ => held) fun text is => is
      intro text among
      exact .inl (.inr ⟨c, _, mine, among⟩)
  case breaks =>
    cases reload <;> cases taken <;> exact h.rests mine broken' fun restores => restores.2.2
  all_goals cases reload <;> cases taken

theorem reloading_inv (h : Inv s)
    (mine : s.calls c = some ⟨op, before, unsettled, .reloading previous content next failed broken⟩)
    (taken : advance s c ⟨op, before, unsettled, .reloading previous content next failed broken⟩ answer = some t) :
    Inv t := by
  have fact := h.call c _ mine
  obtain ⟨next', failed', broken'⟩ := fact.fits
  have held := fact.holder (List.cons_ne_nil _ _)
  cases answer <;> cases taken
  · exact h.settles mine held rfl (fact.loaded content rfl) next' And.left
  · refine h.goes mine ?_ (fun text is => (by cases is)) ⟨failed', broken'⟩ And.right (fun _ => held)
      fun text is => (by cases is)
    intro text among
    obtain rfl := List.mem_singleton.mp among
    exact .inl (.inr ⟨c, _, mine, List.mem_cons_self⟩)

/-- The previous text is put back. -/
theorem undoing_inv (h : Inv s) (mine : s.calls c = some ⟨op, before, unsettled, .undoing previous failed broken⟩)
    (taken : advance s c ⟨op, before, unsettled, .undoing previous failed broken⟩ answer = some t) : Inv t := by
  have fact := h.call c _ mine
  obtain ⟨failed', broken'⟩ := fact.fits
  have held := fact.holder (List.cons_ne_nil _ _)
  have restored : Inv (s.write previous) := h.writes held (.inr ⟨c, _, mine, List.mem_singleton_self _⟩) mine rfl
  cases answer
  case ok =>
    cases taken
    exact restored.rests mine failed' And.left
  case breaks =>
    cases previous <;> cases taken
    · exact h.rests mine failed' And.left
    · exact h.rests mine broken' And.right
  all_goals cases previous <;> cases taken

end

theorem advance_inv (h : Inv s) (mine : s.calls c = some call) (ok : Guard s (.advance c answer))
    (taken : advance s c call answer = some t) : Inv t := by
  have ok := ok call mine
  have fact := h.call c call mine
  rcases call with ⟨op, before, unsettled, prog⟩
  cases prog with
  | done outcome =>
    cases answer <;> cases taken
    exact h.finishes mine rfl ok
  | read x next =>
    cases answer <;> cases taken
    exact h.rests mine (fact.fits.2 _) id
  | list next =>
    cases answer <;> cases taken
    exact h.rests mine (fact.fits.2 _) id
  | change role x v next failed =>
    obtain ⟨owned, next', failed'⟩ := fact.fits
    cases answer with
    | ok =>
      cases taken
      exact h.changes mine owned ok.2 next' fun restores => restores.1 ok.1
    | fails =>
      cases taken
      exact h.rests mine failed' fun restores => (restores.2 ok).1
    | leaves left =>
      cases v <;> cases taken
      exact h.changes mine owned (fun _ => ok.2) failed' fun restores => (restores.2 ok.1).2 left
    | breaks => cases taken
  | ask yes no =>
    cases answer <;> cases taken
    · exact h.rests mine fact.fits.1 And.left
    · exact h.rests mine fact.fits.2 And.right
  | lock held timeout =>
    cases answer <;> simp only [advance] at taken
    case ok =>
      split_ifs at taken with free
      cases taken
      exact (h.acquires free).rests mine fact.fits.1 And.left
    case fails =>
      cases taken
      exact h.rests mine fact.fits.2 And.right
    all_goals cases taken
  | unlock next =>
    cases answer <;> simp only [advance] at taken
    case ok =>
      split_ifs at taken with held
      cases taken
      exact (h.releases mine held rfl).rests mine fact.fits id
    all_goals cases taken
  | delete i next =>
    cases answer <;> cases taken
    have marked : Inv { s with removed := fun j => if j = i then true else s.removed j } := by
      refine h.marks fun x gone => ?_
      split_ifs at gone with same
      · cases x <;> cases same
        · exact ok.1
        · exact ok.2
      · exact h.removed x gone
    exact marked.rests mine fact.fits id
  | regenerate reload next failed broken => exact regenerate_inv h mine ok taken
  | writing reload previous content next failed broken => exact writing_inv h mine taken
  | reloading previous content next failed broken => exact reloading_inv h mine taken
  | undoing previous failed broken => exact undoing_inv h mine taken

theorem step_inv {a : Action} (h : Inv s) (ok : Guard s a) (taken : step s a = some t) : Inv t := by
  cases a <;> simp only [step] at taken
  case begin c op =>
    split_ifs at taken with fresh
    cases taken
    exact h.begins (Option.isNone_iff_eq_none.mp fresh)
  case advance c answer =>
    split at taken
    · cases taken
    · rename_i call mine
      exact advance_inv h mine ok taken
  case create i =>
    cases taken
    refine h.marks fun x gone => ?_
    split_ifs at gone
    exact h.removed x gone

theorem initial_inv (config : Config) : Inv (.initial config) := by
  refine ⟨?_, ?_, fun _ _ => rfl, ?_⟩
  · rintro text (rfl | ⟨c, call, none', -⟩) x
    · exact .inl rfl
    · cases none'
  · intro c call none'
    cases none'
  · intro r among
    cases among

theorem Inv.right (h : Inv s) : ImportsRight s := by
  have exact' (idle : ∀ c, s.calls c = none) (x : Fragment) : Agrees s.disk.main s.disk.files x := by
    rcases h.plays s.disk.main (.inl rfl) x with right | ⟨c, call, -, busy, -⟩
    · exact right
    · cases (idle c).symm.trans busy
  refine ⟨exact', fun idle x gone => ?_, h.raised⟩
  have agrees := exact' idle x
  rw [Agrees, h.removed x gone] at agrees
  exact agrees

theorem guard_of (mine : s.calls c = some call) (allowed : Allowed s call answer) : Guard s (.advance c answer) := by
  intro call' is
  obtain rfl : call = call' := Option.some.inj (mine.symm.trans is)
  exact allowed

end LocalWebAccess.MainCaddyfile
