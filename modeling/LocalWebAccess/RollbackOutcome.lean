import LocalWebAccess.RollbackInstance

/-!
# What a rollback leaves

Before the stop nothing is touched. From then until the target has been verified every failure is compensated, and
the records name the original version only where its files, its image and its service are known to be back.
-/
namespace LocalWebAccess.RollbackInstance
open BuildArtifacts (Build given normalizeImageId)
open FailingEffects PythonText

/-! ## The port -/

/-- The lines of `.env` that are neither blank nor about the port. -/
def otherLines (text : List Char) : List (List Char) :=
  (text.splitOn '\n').filter fun line => line ≠ [] && !isPortLine line

/-- The text has the port, and only this one. -/
def HasPort (port : ℕ) (text : List Char) : Prop :=
  portLine port ∈ text.splitOn '\n' ∧ ∀ line ∈ text.splitOn '\n', isPortLine line = true → line = portLine port

theorem isPortLine_portLine (port : ℕ) : isPortLine (portLine port) = true :=
  List.isPrefixOf_iff_prefix.mpr (List.prefix_append _ _)

theorem portLine_plain {port : ℕ} {c : Char} (mem : c ∈ portLine port) : c ≠ '\n' ∧ c ≠ '\r' := by
  rcases List.mem_append.mp mem with mem | mem
  · have plain : ∀ c ∈ "HOST_PORT=".toList, c ≠ '\n' ∧ c ≠ '\r' := by simp
    exact plain c mem
  · rw [Nat.toString_eq_repr, Nat.toList_repr] at mem
    have digit : c.isDigit = true := Nat.isDigit_of_mem_toDigits (by decide) (by decide) mem
    constructor
    · rintro rfl
      cases digit
    · rintro rfl
      cases digit

theorem splitOn_portLine (port : ℕ) : (portLine port).splitOn '\n' = [portLine port] :=
  List.splitOn_eq_singleton fun mem => (portLine_plain mem).1 rfl

/-- The lines after a replacement. -/
theorem splitOn_alignText_of_any {port : ℕ} {text : List Char} (found : (text.splitOn '\n').any isPortLine = true) :
    (alignText port text).splitOn '\n' =
      (text.splitOn '\n').map fun line => if isPortLine line then portLine port else line := by
  rw [alignText, if_pos found]
  refine List.splitOn_intercalate '\n' ?_ (by simp)
  intro line mem
  obtain ⟨old, among, rfl⟩ := List.mem_map.mp mem
  split_ifs
  · exact fun mem => (portLine_plain mem).1 rfl
  · exact not_mem_of_mem_splitOn among

/-- The lines without the line feeds at the end of the text. -/
theorem splitOn_eq_trimmed (text : List Char) :
    ∃ n, text.splitOn '\n' = (text.rdropWhile (· = '\n')).splitOn '\n' ++ List.replicate n [] := by
  have feeds : text.rtakeWhile (· = '\n') = List.replicate (text.rtakeWhile (· = '\n')).length '\n' :=
    List.eq_replicate_of_mem fun c mem => by simpa using List.mem_rtakeWhile_imp mem
  refine ⟨(text.rtakeWhile (· = '\n')).length, ?_⟩
  rw [← splitOn_append_replicate, ← feeds, List.rdropWhile_append_rtakeWhile]

/-- The lines after an addition. -/
theorem splitOn_alignText_of_not_any {port : ℕ} {text : List Char}
    (missing : ¬(text.splitOn '\n').any isPortLine = true) :
    (alignText port text).splitOn '\n' =
      (text.rdropWhile (· = '\n')).splitOn '\n' ++ [portLine port, []] := by
  rw [alignText, if_neg missing, List.splitOn_append_cons_self, List.splitOn_append_cons_self, splitOn_portLine]
  rfl

theorem hasPort_alignText (port : ℕ) (text : List Char) : HasPort port (alignText port text) := by
  by_cases found : (text.splitOn '\n').any isPortLine = true
  · unfold HasPort
    rw [splitOn_alignText_of_any found]
    obtain ⟨line, among, mine⟩ := List.any_eq_true.mp found
    refine ⟨List.mem_map.mpr ⟨line, among, if_pos mine⟩, ?_⟩
    intro line mem about
    obtain ⟨old, among, rfl⟩ := List.mem_map.mp mem
    by_cases mine : isPortLine old = true
    · rw [if_pos mine]
    · rw [if_neg mine] at about
      exact absurd about mine
  · unfold HasPort
    rw [splitOn_alignText_of_not_any found]
    refine ⟨by simp, ?_⟩
    intro line mem about
    obtain ⟨n, lines⟩ := splitOn_eq_trimmed text
    rcases List.mem_append.mp mem with kept | added
    · have among : line ∈ text.splitOn '\n' := lines ▸ List.mem_append_left _ kept
      exact absurd (List.any_eq_true.mpr ⟨line, among, about⟩) found
    · rcases List.mem_pair.mp added with rfl | rfl
      · rfl
      · cases about

theorem otherLines_alignText (port : ℕ) (text : List Char) : otherLines (alignText port text) = otherLines text := by
  unfold otherLines
  by_cases found : (text.splitOn '\n').any isPortLine = true
  · rw [splitOn_alignText_of_any found]
    induction text.splitOn '\n' with
    | nil => rfl
    | cons line lines ih =>
      rw [List.map_cons, List.filter_cons, List.filter_cons, ih]
      by_cases mine : isPortLine line = true
      · simp [mine, isPortLine_portLine]
      · simp [mine]
  · obtain ⟨n, lines⟩ := splitOn_eq_trimmed text
    rw [splitOn_alignText_of_not_any found, lines, List.filter_append, List.filter_append]
    congr 1
    simp [isPortLine_portLine]

theorem alignText_clean {port : ℕ} {text : List Char} (clean : '\r' ∉ text) : '\r' ∉ alignText port text := by
  have plain : '\r' ∉ portLine port := fun mem => (portLine_plain mem).2 rfl
  unfold alignText
  split_ifs with found
  · intro mem
    rcases mem_of_mem_intercalate mem with mem | ⟨line, among, mem⟩
    · revert mem
      decide
    · obtain ⟨old, kept, rfl⟩ := List.mem_map.mp among
      split_ifs at mem
      · exact plain mem
      · have there : '\r' ∈ ['\n'].intercalate (text.splitOn '\n') := mem_intercalate_of_mem kept mem
        rw [List.intercalate_splitOn] at there
        exact clean there
  · intro mem
    rcases List.mem_append.mp mem with mem | mem
    · exact clean ((List.rdropWhile_prefix _ _).subset mem)
    · simp [plain] at mem

/-- A file that can be read has the port, and the other lines of what it was. -/
def SetsPort (port : ℕ) (old new : Option ByteArray) : Prop :=
  ∃ content text, new = some content ∧ readText content = some text ∧ HasPort port text.toList ∧
    otherLines text.toList = otherLines ((old.bind readText).elim [] String.toList)

theorem setsPort_aligned {port : ℕ} {old : Option ByteArray} {content : ByteArray}
    (aligned : aligned port old = some content) : SetsPort port old (some content) := by
  cases old with
  | none =>
    obtain rfl := Option.some.inj aligned
    have plain : '\r' ∉ portLine port := fun mem => (portLine_plain mem).2 rfl
    have lines : (portLine port ++ ['\n']).splitOn '\n' = [portLine port, []] := by
      rw [List.splitOn_append_cons_self, splitOn_portLine]
      rfl
    refine ⟨_, _, rfl, readText_writeText (by simpa using plain), ?_, ?_⟩
    · rw [String.toList_ofList, HasPort, lines]
      refine ⟨List.mem_cons_self .., fun line mem about => ?_⟩
      rcases List.mem_pair.mp mem with rfl | rfl
      · rfl
      · cases about
    · rw [String.toList_ofList, otherLines, lines]
      simp [isPortLine_portLine, otherLines]
  | some bytes =>
    obtain ⟨text, read, rfl⟩ := Option.map_eq_some_iff.mp aligned
    have clean : '\r' ∉ alignText port text.toList := alignText_clean (not_mem_of_readText read)
    refine ⟨_, _, rfl, readText_writeText (by rwa [String.toList_ofList]), ?_, ?_⟩
    · rw [String.toList_ofList]
      exact hasPort_alignText port text.toList
    · rw [String.toList_ofList, otherLines_alignText, Option.bind_some, read]
      rfl

/-! ## How each part ends -/

variable {env : Conditions} {req : Request} {s t : World} {phase : Phase} {files : Files} {plan : Plan} {m : Manifest}
  {F : World → Prop} {G : Failure → World → Prop}

/-- Nothing of the running version has changed. -/
structure Untouched (s t : World) : Prop where
  files : t.files = s.files
  latest : t.latest = s.latest
  container : t.container = s.container

@[simp]
theorem ends_run {step : Step} {post : Except Failure PUnit → World → Prop} : Ends (run env step) s post ↔
    (env.raises step = none → post (.ok ⟨⟩) s) ∧
      ∀ text, env.raises step = some text → post (.error (.raised step text)) s := by
  cases raises : env.raises step <;> simp [run, raises]

/-- Before the stop the call only reads. -/
structure Prepared (env : Conditions) (req : Request) (s : World) (plan : Plan) : Prop where
  manifest : plan.manifest = s.saved
  container : s.saved.container.isSome
  target : findTarget env req s = .ok plan.target
  files : plan.files = s.files
  image : plan.image = s.currentImage env

theorem ends_chooseTarget {F : Build → World → Prop}
    (ok : ∀ target, findTarget env req s = .ok target → F target s) (failed : ∀ e, G e s) :
    Ends (chooseTarget env req) s (onValue F G) := by
  unfold chooseTarget
  simp only [ends_bind, ends_run, ends_get, onValue_ok, onValue_error]
  refine ⟨fun _ => ?_, fun _ _ => failed _⟩
  cases found : findTarget env req s with
  | error e => exact failed e
  | ok target => exact ok target found

theorem ends_confirmMigrations {target : Build} (ok : F s) (failed : ∀ e, G e s) :
    Ends (confirmMigrations env req target) s (onValue (fun _ t => F t) G) := by
  unfold confirmMigrations
  simp only [ends_bind, ends_run, onValue_ok, onValue_error]
  refine ⟨fun _ => ?_, fun _ _ => failed _⟩
  rw [ends_ite]
  exact ⟨fun _ => failed _, fun _ => ok⟩

theorem ends_checkRevision {F : ℕ → World → Prop} (ok : ∀ revision, F revision s) (failed : ∀ e, G e s) :
    Ends (checkRevision env req) s (onValue F G) := by
  unfold checkRevision
  simp only [ends_bind, ends_run, ends_get, onValue_ok, onValue_error]
  refine ⟨fun _ => ?_, fun _ _ => failed _⟩
  rw [ends_ite]
  exact ⟨fun _ => failed _, fun _ => ok _⟩

theorem ends_prepare {F : Plan → World → Prop}
    (ok : ∀ plan, Prepared env req s plan → F plan { s with stopped := false })
    (failed : ∀ e, G e { s with stopped := false }) :
    Ends (prepare env req) s (onValue F G) := by
  unfold prepare
  simp only [ends_bind, ends_run, ends_get, ends_modify, onValue_ok, onValue_error]
  refine ⟨fun _ => ⟨fun _ => ?_, fun _ _ => failed _⟩, fun _ _ => failed _⟩
  rw [ends_ite]
  refine ⟨fun _ => failed _, fun container => ?_⟩
  rw [not_or, not_not] at container
  simp only [ends_bind]
  refine ends_chooseTarget (fun target found => ?_) failed
  refine ends_confirmMigrations ?_ failed
  refine ends_checkRevision (fun revision => ?_) failed
  simp only [ends_run, ends_get, ends_pure, onValue_ok, onValue_error]
  exact ⟨fun _ => ok _ ⟨rfl, Option.isSome_iff_ne_none.mpr container.2, found, rfl, rfl⟩, fun _ _ => failed _⟩

theorem ends_change {step : Step} {file : GeneratedFile} {content : Option ByteArray}
    (ok : F (s.put file content)) (failed : ∀ e files, G e { s with files := files }) :
    Ends (change env step file content) s (onValue (fun _ t => F t) G) := by
  unfold change
  cases env.raises step with
  | none => exact ok
  | some text => exact failed _ _

theorem ends_changeFile {file : GeneratedFile} (ok : F (s.put file (files file)))
    (failed : ∀ e files, G e { s with files := files }) :
    Ends (changeFile env phase files file) s (onValue (fun _ t => F t) G) := by
  unfold changeFile
  rw [ends_bind, ends_get, onValue_ok, ends_ite]
  refine ⟨fun _ => ends_change ok failed, fun missing => ?_⟩
  rw [not_or, Option.not_isSome_iff_eq_none, Option.not_isSome_iff_eq_none] at missing
  rw [ends_pure, onValue_ok]
  have same : s.put file (files file) = s := by
    rw [World.put, missing.1, ← missing.2, Function.update_eq_self]
  rwa [same] at ok

theorem ends_changeAll {list : List GeneratedFile}
    (ok : F { s with files := fun file => if file ∈ list then files file else s.files file })
    (failed : ∀ e files, G e { s with files := files }) :
    Ends (changeAll env phase files list) s (onValue (fun _ t => F t) G) := by
  induction list generalizing s with
  | nil => simpa [changeAll] using ok
  | cons file rest ih =>
    unfold changeAll
    rw [ends_bind]
    have same : (fun other => if other ∈ rest then files other else (s.put file (files file)).files other) =
        fun other => if other ∈ file :: rest then files other else s.files other := by
      funext other
      by_cases mine : other = file
      · simp [World.put, mine]
      · simp [World.put, mine]
    refine ends_changeFile (ih ?_ failed) failed
    rw [same]
    exact ok

theorem ends_changeAll_all (ok : F { s with files := files })
    (failed : ∀ e files, G e { s with files := files }) :
    Ends (changeAll env phase files GeneratedFile.all) s (onValue (fun _ t => F t) G) := by
  refine ends_changeAll ?_ failed
  convert ok using 3 with file
  cases file <;> rfl

theorem ends_restoreConfigSnapshot {target : Build}
    (ok : ∀ snapshot, env.snapshots target.id = some snapshot → F { s with files := snapshot })
    (failed : ∀ e files, G e { s with files := files }) :
    Ends (restoreConfigSnapshot env target) s (onValue (fun _ t => F t) G) := by
  unfold restoreConfigSnapshot
  cases found : env.snapshots target.id with
  | none => exact failed _ s.files
  | some snapshot =>
    simp only [ends_bind, ends_run, onValue_ok, onValue_error]
    exact ⟨fun _ => ends_changeAll_all (ok snapshot found) failed, fun _ _ => failed _ s.files⟩

/-- The files of a snapshot with the port. -/
def WithPort (port : Option ℕ) (snapshot files : Files) : Prop :=
  (∀ file, file ≠ .env → files file = snapshot file) ∧
    match port with
    | none => files .env = snapshot .env
    | some port => SetsPort port (snapshot .env) (files .env)

theorem ends_alignRestoredHostPort {port : Option ℕ}
    (ok : ∀ files, WithPort port s.files files → F { s with files := files })
    (failed : ∀ e files, G e { s with files := files }) :
    Ends (alignRestoredHostPort env port) s (onValue (fun _ t => F t) G) := by
  unfold alignRestoredHostPort
  cases port with
  | none => exact ok s.files ⟨fun _ _ => rfl, rfl⟩
  | some port =>
    simp only [ends_bind, ends_run, ends_get, onValue_ok, onValue_error]
    refine ⟨fun _ => ?_, fun _ _ => failed _ s.files⟩
    cases read : aligned port (s.files .env) with
    | none => exact failed _ s.files
    | some content =>
      refine ends_change (ok _ ⟨fun file other => Function.update_of_ne other _ _, ?_⟩) failed
      simpa using setsPort_aligned read

theorem ends_tagImage {ref : String}
    (ok : ∀ image, env.resolve ref = some image → F { s with latest := some image }) (failed : ∀ e, G e s) :
    Ends (tagImage env phase ref) s (onValue (fun _ t => F t) G) := by
  unfold tagImage
  simp only [ends_bind, ends_run, onValue_ok, onValue_error]
  refine ⟨fun _ => ?_, fun _ _ => failed _⟩
  cases found : env.resolve ref with
  | none => exact failed _
  | some image => exact ok image found

theorem ends_up
    (ok : F { s with latest := some (s.latest.getD env.built), container := some (env.launched phase s) })
    (failed : ∀ e container, G e { s with container := container }) :
    Ends (up env phase) s (onValue (fun _ t => F t) G) := by
  unfold up
  cases env.raises (.starting phase) with
  | none => exact ok
  | some text => exact failed _ _

theorem ends_down {step : Step} (ok : F { s with container := none }) (failed : ∀ e, G e s) :
    Ends (down env step) s (onValue (fun _ t => F t) G) := by
  unfold down
  simp only [ends_bind, ends_run, ends_modify, onValue_ok, onValue_error]
  exact ⟨fun _ => ok, fun _ _ => failed _⟩

theorem ends_stopOrAbort (ok : ∀ container, F { s with container := container }) (failed : ∀ e, G e s) :
    Ends (stopOrAbort env req) s (onValue (fun _ t => F t) G) := by
  unfold stopOrAbort
  simp only [ends_bind, ends_tryCatch, ends_run, ends_get, ends_throw, onValue_ok, onValue_error]
  refine ⟨fun _ => ?_, fun _ _ => failed _⟩
  rw [ends_ite]
  refine ⟨fun _ => ?_, fun _ => ok s.container⟩
  rw [ends_tryCatch]
  exact ends_down (ok none) fun e => failed _

/-- The target runs from its own image and the files of its snapshot. -/
def Launched (env : Conditions) (port : Option ℕ) (target : Build) (t : World) : Prop :=
  ∃ snapshot c, env.snapshots target.id = some snapshot ∧ t.container = some c ∧
    env.resolve target.ref = some c.image ∧ t.latest = some c.image ∧ c.files = t.files ∧ WithPort port snapshot t.files

/-- The target has passed its verification. -/
structure Verified (env : Conditions) : Prop where
  ran : env.raises (.verifying .target) = none
  passed : env.verification .target = none

theorem ends_replace
    (ok : ∀ t, Launched env plan.manifest.hostPort plan.target t → Verified env → t.stopped = true → F t)
    (failed : ∀ e t, (t.stopped = false → Untouched s t) → G e t) :
    Ends (replace env req plan) s (onValue (fun _ t => F t) G) := by
  unfold replace
  rw [ends_bind]
  refine ends_stopOrAbort (fun container => ?_) fun e => failed e s fun _ => ⟨rfl, rfl, rfl⟩
  rw [ends_bind, ends_modify, onValue_ok, ends_bind]
  refine ends_restoreConfigSnapshot (fun snapshot found => ?_) fun e files => failed e _ fun live => by cases live
  rw [ends_bind]
  refine ends_alignRestoredHostPort (fun files port => ?_) fun e files => failed e _ fun live => by cases live
  rw [ends_bind]
  refine ends_tagImage (fun image resolved => ?_) fun e => failed e _ fun live => by cases live
  rw [ends_bind]
  refine ends_up ?_ fun e container => failed e _ fun live => by cases live
  unfold evaluateContainerVerification
  simp only [ends_bind, ends_run, ends_pure, onValue_ok, onValue_error]
  refine ⟨fun ran => ?_, fun _ _ => failed _ _ fun live => by cases live⟩
  cases passed : env.verification .target with
  | some detail => exact failed _ _ fun live => by cases live
  | none =>
    exact ok _ ⟨snapshot, _, found, rfl, resolved, rfl, rfl, port⟩ ⟨ran, passed⟩ rfl

/-! ## The compensation -/

/-- The original version is served again from its image and its files. -/
structure Back (plan : Plan) (observed : Option String) (t : World) : Prop where
  files : t.files = plan.files
  container : ∃ c, t.container = some c ∧ t.latest = some c.image ∧ c.files = plan.files ∧ observed = some c.image

theorem ends_writeGenerated (ok : F { s with files := files })
    (failed : ∀ e files, G e { s with files := files }) :
    Ends (writeGenerated env files) s (onValue (fun _ t => F t) G) := by
  unfold writeGenerated
  simp only [ends_bind, ends_run, onValue_ok, onValue_error]
  exact ⟨fun _ => ends_changeAll_all ok failed, fun _ _ => failed _ s.files⟩

theorem generatedMatches_eq_true {files : Files}
    (same : (GeneratedFile.all.all fun file => s.files file = files file) = true) : s.files = files := by
  funext file
  refine of_decide_eq_true (List.all_eq_true.mp same file ?_)
  cases file <;> decide

theorem ends_restoreFiles {F : Bool × List String → World → Prop}
    (ok : ∀ found files, (found.1 = true → files = plan.files) → F found { s with files := files }) :
    Ends (restoreFiles env req plan) s (onValue F G) := by
  unfold restoreFiles tolerate
  rw [ends_tryCatch, ends_bind]
  refine ends_writeGenerated ?_ fun e files => ok _ files fun live => by cases live
  unfold generatedMatches
  simp only [ends_bind, ends_run, ends_get, ends_pure, onValue_ok, onValue_error]
  refine ⟨fun _ => ok _ plan.files fun _ => rfl, fun _ _ => ok _ plan.files fun live => by cases live⟩

theorem ends_retagImage {F : Bool × List String → World → Prop}
    (ok : ∀ found latest, F found { s with latest := latest }) :
    Ends (retagImage env req plan) s (onValue F G) := by
  unfold retagImage
  cases plan.image with
  | none => exact ok _ s.latest
  | some image =>
    unfold tolerate
    rw [ends_tryCatch, ends_bind]
    exact ends_tagImage (fun image _ => ok _ (some image)) fun e => ok _ s.latest

theorem ends_relaunch {F : Bool × List String → World → Prop}
    (ok : ∀ notes, F (true, notes) { s with
      latest := some (s.latest.getD env.built), container := some (env.launched .original s) })
    (failed : ∀ notes container, F (false, notes) { s with container := container }) :
    Ends (relaunch env req) s (onValue F G) := by
  unfold relaunch tolerate
  rw [ends_tryCatch, ends_bind]
  exact ends_up (ok _) fun e container => failed _ container

theorem ends_confirmService {F : Bool × List String → World → Prop}
    (ok : ∀ found, F found s) : Ends (confirmService env req) s (onValue F G) := by
  unfold confirmService tolerate evaluateContainerVerification
  simp only [ends_tryCatch, ends_bind, ends_run, ends_pure, onValue_ok, onValue_error]
  exact ⟨fun _ => ok _, fun _ _ => ok _⟩

/-- Docker names the image of the container, or the one it would be started from. -/
theorem imageId_eq {c : Container} (container : s.container = some c) (latest : s.latest = some c.image)
    {image : String} (observed : s.imageId env phase = some image) : image = c.image := by
  unfold World.imageId at observed
  rcases Option.or_eq_some_iff.mp observed with inspected | ⟨_, named⟩
  · split_ifs at inspected
    rw [container] at inspected
    exact (Option.some.inj inspected).symm
  · split_ifs at named
    exact Option.some.inj (named.symm.trans latest)

theorem ends_observe {F : Option String × Option String × Bool × List String → World → Prop}
   
    (ok : ∀ recovered, F (s.containerId env .original, s.imageId env .original, recovered) s) :
    Ends (observe env req true) s (onValue F G) := by
  unfold observe
  rw [if_pos rfl, ends_bind, ends_get, onValue_ok, ends_bind]
  exact ends_confirmService fun recovered => ok recovered

theorem observed_of_imageIdMatches {image observed : Option String} (same : imageIdMatches image observed = true) :
    ∃ id, observed = some id := by
  cases observed with
  | some id => exact ⟨id, rfl⟩
  | none =>
    obtain ⟨known, eq⟩ := Bool.and_eq_true_iff.mp same
    rw [← of_decide_eq_true eq] at known
    cases known

/-- What the compensation knows when it reports the original version. -/
theorem ends_putBack {F : Findings × List String → World → Prop}
    (ok : ∀ found residual t, t.stopped = s.stopped → (found.restored plan.image = true → Back plan found.observed t) →
      F (found, residual) t) : Ends (putBack env req plan) s (onValue F G) := by
  unfold putBack
  rw [ends_bind]
  refine ends_restoreFiles fun files content restored => ?_
  rw [ends_bind]
  refine ends_retagImage fun image latest => ?_
  rw [ends_bind]
  refine ends_relaunch (fun notes => ?_) fun notes container => ok _ _ _ rfl fun live => by cases live
  rw [ends_bind]
  refine ends_observe fun recovered => ok _ _ _ rfl fun all => ?_
  simp only [Findings.restored, Bool.and_eq_true] at all
  obtain ⟨⟨⟨_, written⟩, _⟩, same⟩ := all
  obtain ⟨id, observed⟩ := observed_of_imageIdMatches same
  obtain rfl := imageId_eq rfl rfl observed
  exact ⟨restored written, _, rfl, rfl, restored written, observed⟩

theorem ends_recover {F : Findings × List String → World → Prop}
    (ok : ∀ found residual t, t.stopped = s.stopped → (found.restored plan.image = true → Back plan found.observed t) →
      F (found, residual) t) : Ends (recover env req plan) s (onValue F G) := by
  unfold recover
  rw [ends_bind, ends_suppress]
  have next : ∀ container, Ends (putBack env req plan) { s with container := container } (onValue F G) :=
    fun container => ends_putBack ok
  exact ends_down (next none) fun e => next s.container

/-! ## The records -/

/-- The row has what the manifest has. -/
structure Agrees (row : Row) (m : Manifest) : Prop where
  status : row.status = m.status
  desiredState : row.desiredState = m.desiredState
  lastError : row.lastError = m.lastError
  lastOperation : row.lastOperation = m.lastOperation
  containerId : row.containerId = m.containerId
  imageId : row.imageId = m.imageId

/-- A manifest reaches the disk unless its save raises, and the row unless the upsert does. -/
def Recorded (env : Conditions) (m : Manifest) (t : World) : Prop :=
  (env.raises (.savingRecord .original) = none → t.saved = m) ∧
    (env.raises (.upserting .original) = none → Agrees t.row m)

theorem agrees_upsertFromManifest {row : Row} (container : m.container.isSome) :
    Agrees (row.upsertFromManifest m) m := by
  constructor <;> simp [Row.upsertFromManifest, container]

theorem ends_record {operation : Operation} {F : Manifest → World → Prop}
    (ok : ∀ saved lastOperation, (env.raises (.savingRecord phase) = none → saved = m.recorded operation) →
      (saved = s.saved ∨ saved = m.recorded operation) →
      F (m.recorded operation) { s with saved := saved, row := { s.row with lastOperation := lastOperation } }) :
    Ends (record env phase m operation) s (onValue F G) := by
  have saving : ∀ lastOperation, Ends
      (do
        suppress (save env (.savingRecord phase) (m.recorded operation))
        pure (m.recorded operation))
      { s with row := { s.row with lastOperation := lastOperation } } (onValue F G) := by
    intro lastOperation
    unfold save
    simp only [ends_suppress, ends_bind, ends_run, ends_modify, ends_pure, onValue_ok, onValue_error]
    refine ⟨fun _ => ok _ _ (fun _ => rfl) (Or.inr rfl), fun text raised => ok _ _ (fun saved => ?_) (Or.inl rfl)⟩
    rw [saved] at raised
    cases raised
  unfold record updateLastOperation
  rw [ends_bind, ends_suppress, ends_bind, ends_run]
  exact ⟨fun _ => saving _, fun _ _ => saving s.row.lastOperation⟩

theorem ends_noteResidual {residual : List String} (ok : F s) :
    Ends (noteResidual env residual) s (onValue (fun _ t => F t) G) := by
  unfold noteResidual
  rw [ends_ite]
  refine ⟨fun _ => ok, fun _ => ?_⟩
  rw [ends_suppress, ends_run]
  exact ⟨fun _ => ok, fun _ _ => ok⟩

theorem ends_syncRow (container : m.container.isSome)
    (running : m.desiredState = .running)
    (ok : ∀ row, (env.raises (.upserting .original) = none → Agrees row m) → F { s with row := row }) :
    Ends (syncRow env m) s (onValue (fun _ t => F t) G) := by
  have agrees : Agrees (s.row.upsertFromManifest m) m := agrees_upsertFromManifest container
  unfold syncRow upsertFromManifest updateStatus
  simp only [ends_suppress, ends_bind, ends_run, ends_modify, onValue_ok, onValue_error]
  refine ⟨fun _ => ⟨fun _ => ok _ fun _ => ?_, fun _ _ => ok _ fun _ => agrees⟩,
    fun _ raised => ok s.row fun upserted => ?_⟩
  · exact { agrees with status := rfl, desiredState := running.symm }
  · rw [upserted] at raised
    cases raised

/-! ## Manifests -/

theorem imageId_withImageId {id : Option String} (container : m.container.isSome) :
    (m.withImageId id).imageId = id := by
  obtain ⟨config, there⟩ := Option.isSome_iff_exists.mp container
  simp [Manifest.imageId, Manifest.withImageId, there]

theorem isSome_withContainerId {id : Option String} :
    (m.withContainerId id).container.isSome = m.container.isSome := Option.isSome_map

theorem abandoned_container :
    m.abandoned.container.isSome = m.container.isSome ∧ m.abandoned.containerId = none ∧
      m.abandoned.imageId = m.imageId := by
  cases there : m.container <;>
    simp [Manifest.abandoned, Manifest.withContainerId, Manifest.containerId, Manifest.imageId, there]

theorem given_of_imageIdMatches {image observed : Option String} (same : imageIdMatches image observed = true) :
    (given observed).isSome := by
  obtain ⟨known, eq⟩ := Bool.and_eq_true_iff.mp same
  rw [← of_decide_eq_true eq] at known
  cases there : given observed with
  | some id => rfl
  | none =>
    rw [normalizeImageId, there] at known
    cases known

theorem reinstated_image {cid observed : Option String} (container : m.container.isSome)
    (seen : (given observed).isSome) :
    (m.reinstated cid observed).container.isSome ∧ (m.reinstated cid observed).imageId = observed := by
  unfold Manifest.reinstated
  simp only [seen, if_true]
  split_ifs with named
  · have kept : (m.withContainerId cid).container.isSome := isSome_withContainerId.trans container
    exact ⟨Option.isSome_map.trans kept, imageId_withImageId kept⟩
  · exact ⟨Option.isSome_map.trans container, imageId_withImageId container⟩

theorem imageIdMatches_of_restored {found : Findings} {image : Option String} (restored : found.restored image = true) :
    imageIdMatches image found.observed = true := (Bool.and_eq_true_iff.mp restored).2

theorem compensated_of_restored {found : Findings} (container : plan.manifest.container.isSome)
    (restored : found.restored plan.image = true) :
    (plan.compensated found).container.isSome ∧ (plan.compensated found).status = .running ∧
      (plan.compensated found).desiredState = .running ∧ (plan.compensated found).imageId = found.observed := by
  have seen := given_of_imageIdMatches (imageIdMatches_of_restored restored)
  rw [Plan.compensated, if_pos restored]
  obtain ⟨there, image⟩ := reinstated_image container seen
  exact ⟨there, rfl, rfl, image⟩

theorem compensated_of_not_restored {found : Findings} (restored : found.restored plan.image = false) :
    plan.compensated found = plan.manifest.abandoned := by
  rw [Plan.compensated, restored, if_neg (by decide)]

theorem compensated_ready (found : Findings) (container : plan.manifest.container.isSome) :
    (plan.compensated found).container.isSome ∧ (plan.compensated found).desiredState = .running := by
  cases restored : found.restored plan.image with
  | true =>
    obtain ⟨there, _, running, _⟩ := compensated_of_restored container restored
    exact ⟨there, running⟩
  | false =>
    rw [compensated_of_not_restored restored]
    exact ⟨abandoned_container.1.trans container, rfl⟩

/-! ## The call -/

/-- The original version runs again, and it is what the records name. -/
def Reinstated (env : Conditions) (s t : World) : Prop :=
  t.files = s.files ∧ ∃ c m, t.container = some c ∧ t.latest = some c.image ∧ c.files = s.files ∧
    imageIdMatches (s.currentImage env) (some c.image) = true ∧ m.status = .running ∧ m.imageId = some c.image ∧
    Recorded env m t

/-- Whose version runs is not known, and the records name no container. -/
def Abandoned (env : Conditions) (s t : World) : Prop :=
  ∃ m, m.status = .failed ∧ m.containerId = none ∧ m.imageId = s.saved.imageId ∧ Recorded env m t

theorem ends_compensate {e : Failure}
    (prepared : Prepared env req s plan)
    (ok : ∀ restored residual u, u.stopped = t.stopped → (if restored then Reinstated env s u else Abandoned env s u) →
      G (.rolledBack plan.target.id e restored residual) u) :
    Ends (compensate env req plan e) t (onValue (fun _ t => F t) G) := by
  have container : plan.manifest.container.isSome := prepared.manifest ▸ prepared.container
  unfold compensate
  rw [ends_bind]
  refine ends_recover fun found residual u still back => ?_
  rw [ends_bind]
  refine ends_noteResidual ?_
  rw [ends_bind]
  refine ends_record fun saved lastOperation disk _ => ?_
  obtain ⟨there, running⟩ := compensated_ready found container
  rw [ends_bind]
  refine ends_syncRow there running fun row agrees => ?_
  rw [ends_throw]
  refine ok _ _ _ still ?_
  have recorded : Recorded env ((plan.compensated found).recorded
      (plan.operation req "failed" (some (e.text req.instanceId)))) { u with saved := saved, row := row } :=
    ⟨disk, agrees⟩
  cases restored : found.restored plan.image with
  | true =>
    obtain ⟨files, c, runs, latest, from', observed⟩ := back restored
    obtain ⟨_, status, _, image⟩ := compensated_of_restored container restored
    have same := imageIdMatches_of_restored restored
    rw [observed, prepared.image] at same
    rw [prepared.files] at files from'
    exact ⟨files, c, (plan.compensated found).recorded _, runs, latest, from', same, status, image.trans observed,
      recorded⟩
  | false =>
    rw [compensated_of_not_restored restored] at recorded
    obtain ⟨_, cleared, image⟩ := abandoned_container (m := plan.manifest)
    exact ⟨plan.manifest.abandoned.recorded _, rfl, cleared, image.trans (by rw [prepared.manifest]), recorded⟩

/-- What a failure leaves, by its exception. -/
def Left (env : Conditions) (req : Request) (s : World) : Failure → World → Prop
  | .rolledBack _ _ restored _, t => if restored then Reinstated env s t else Abandoned env s t
  | e, t =>
    Verified env ∧ (∃ target, findTarget env req s = .ok target ∧ Launched env s.saved.hostPort target t) ∧
      (e = .revisionConflict → t.saved.status = .running ∧ t.row.status = .running)

theorem ends_casIncrementRevision {revision : ℕ}
    (ok : F { s with row := { s.row with revision := revision + 1 } })
    (raised : ∀ step text, G (.raised step text) s) (conflict : G .revisionConflict s) :
    Ends (casIncrementRevision env revision) s (onValue (fun _ t => F t) G) := by
  unfold casIncrementRevision
  rw [ends_bind, ends_run]
  refine ⟨fun _ => ?_, fun _ _ => raised _ _⟩
  rw [onValue_ok, ends_ite]
  exact ⟨fun _ => conflict, fun _ => ok⟩

theorem ends_guardAlias (ok : ∀ saved, F { s with saved := saved })
    (raised : ∀ step text, G (.raised step text) s) :
    Ends (guardAlias env req m) s (onValue (fun _ t => F t) G) := by
  unfold guardAlias
  rw [ends_ite]
  refine ⟨fun _ => ?_, fun _ => ok s.saved⟩
  unfold save
  simp only [ends_suppress, ends_bind, ends_run, ends_modify, onValue_ok, onValue_error]
  exact ⟨fun _ => ⟨fun _ => ok m, fun _ _ => ok s.saved⟩, fun _ _ => raised _ _⟩

/-- After its verification the target is left running. -/
theorem ends_finish {F : Manifest → World → Prop}
    (ok : ∀ m t, Untouched s t → F m t)
    (raised : ∀ step text t, Untouched s t → t.stopped = s.stopped → G (.raised step text) t)
    (conflict : ∀ t, Untouched s t → t.stopped = s.stopped → t.saved.status = .running → t.row.status = .running →
      G .revisionConflict t) :
    Ends (finish env req plan) s (onValue F G) := by
  unfold finish save upsertFromManifest updateStatus
  simp only [ends_bind, ends_get, ends_run, ends_modify, onValue_ok, onValue_error]
  have same : ∀ {saved : Manifest} {row : Row}, Untouched s { s with saved := saved, row := row } := ⟨rfl, rfl, rfl⟩
  refine ⟨fun _ => ⟨fun _ => ⟨fun _ => ⟨fun _ => ?_, fun _ _ => ?_⟩, fun _ _ => ?_⟩, fun _ _ => ?_⟩, fun _ _ => ?_⟩
  · refine ends_record fun saved lastOperation _ either => ?_
    have running : saved.status = .running := by
      rcases either with rfl | rfl <;> rfl
    refine ⟨fun _ => ?_, fun _ _ => raised _ _ _ same rfl⟩
    refine ends_casIncrementRevision ?_ (fun _ _ => raised _ _ _ same rfl) (conflict _ same rfl running rfl)
    refine ends_guardAlias (fun saved => ok _ _ same) fun _ _ => raised _ _ _ same rfl
  all_goals exact raised _ _ _ same rfl

/-- A call that returns has launched the target; one that raises has not touched anything before the stop, and
leaves what its exception says after it. -/
def Outcome (env : Conditions) (req : Request) (s : World) : Except Failure Manifest → World → Prop :=
  onValue (fun _ t => ∃ target, findTarget env req s = .ok target ∧ Launched env s.saved.hostPort target t) fun e t =>
    (t.stopped = false → Untouched s t) ∧ (t.stopped = true → Left env req s e t)

theorem ends_handle {e : Failure} (prepared : Prepared env req s plan)
    (same : t.stopped = false → Untouched s t)
    (compensated : ∀ restored residual u, u.stopped = true →
      (if restored then Reinstated env s u else Abandoned env s u) →
        G (.rolledBack plan.target.id e restored residual) u)
    (running : ∀ u, u.stopped = false → Untouched s u → G e u) :
    Ends (handle env req plan e) t (onValue (fun _ t => F t) G) := by
  unfold handle
  rw [ends_bind, ends_get, onValue_ok, ends_ite]
  refine ⟨fun stopped => ends_compensate prepared fun restored residual u still =>
    compensated restored residual u (still.trans stopped), fun before => ?_⟩
  rw [Bool.not_eq_true] at before
  rw [ends_bind]
  refine ends_record fun saved lastOperation _ _ => ?_
  obtain ⟨files, latest, container⟩ := same before
  exact running _ before ⟨files, latest, container⟩

/-- Whatever raises, a failed rollback neither reports nor records a version that is not there. -/
theorem rollback_faithful (env : Conditions) (req : Request) (s : World) :
    Ends (rollbackInstance env req) s (Outcome env req s) := by
  unfold rollbackInstance Outcome
  rw [ends_bind]
  refine ends_prepare (fun plan prepared => ?_) fun e => ⟨fun _ => ⟨rfl, rfl, rfl⟩, fun live => by cases live⟩
  rw [ends_bind, ends_tryCatch]
  refine ends_replace (fun t launched verified stopped => ?_) fun e t same => ?_
  · have port : s.saved.hostPort = plan.manifest.hostPort := by rw [prepared.manifest]
    have kept : ∀ u, Untouched t u → ∃ target, findTarget env req s = .ok target ∧
        Launched env s.saved.hostPort target u := by
      rintro u ⟨files, latest, container⟩
      unfold Launched
      rw [files, latest, container, port]
      exact ⟨_, prepared.target, launched⟩
    refine ends_finish (fun m u same => kept u same) ?_ ?_
    · intro step text u same still
      rw [stopped] at still
      exact ⟨fun before => (nomatch still.symm.trans before), fun _ => ⟨verified, kept u same, nofun⟩⟩
    · intro u same still saved row
      rw [stopped] at still
      exact ⟨fun before => (nomatch still.symm.trans before), fun _ => ⟨verified, kept u same, fun _ => ⟨saved, row⟩⟩⟩
  · have untouched : t.stopped = false → Untouched s t := fun before =>
      ⟨(same before).files, (same before).latest, (same before).container⟩
    refine ends_handle prepared untouched ?_ ?_
    · exact fun restored residual u stopped left => ⟨fun before => (nomatch stopped.symm.trans before), fun _ => left⟩
    · exact fun u before kept => ⟨fun _ => kept, fun stopped => (nomatch before.symm.trans stopped)⟩

/-! ## Failures without a record -/

/-- A failed call has restored the original version, or its manifest and its row say that it has failed. -/
def Settled (env : Conditions) (s t : World) : Prop :=
  (t.saved.status = .running ∧ t.files = s.files ∧ ∃ c, t.container = some c ∧
    imageIdMatches (s.currentImage env) (some c.image) = true) ∨
  (t.saved.status = .failed ∧ t.saved.containerId = none ∧ Agrees t.row t.saved)

def oldFiles : Files
  | .compose => some ⟨#[1]⟩
  | .dockerfile => some ⟨#[70]⟩
  | .env => some ⟨#[]⟩
  | .helper => none

def newFiles : Files
  | .compose => some ⟨#[2]⟩
  | .dockerfile => some ⟨#[71]⟩
  | .env => some ⟨#[]⟩
  | .helper => none

/-- One archived build, and a second version that runs. -/
def served : World where
  files := newFiles
  latest := some "new"
  container := some ⟨"c", "new", newFiles, true⟩
  saved := ⟨.dockerCompose, some ⟨some "c", some "new", none⟩, .running, .running, none, none, none⟩
  row := ⟨.running, .running, none, none, some "c", some "new", 1⟩
  stopped := false

/-- Everything succeeds, and nobody else writes. -/
def calm : Conditions where
  raises := fun _ => none
  left := fun _ content => content
  broken := fun _ _ => none
  resolve := fun ref => if ref = "app:b1" then some "old" else some ref
  built := "built"
  newId := fun _ => "d"
  survives := fun _ => true
  answers := fun _ _ => true
  verification := fun _ => none
  builds :=
    { rows := [⟨1, "success", some "app:b1", some "old"⟩]
      descending := List.pairwise_singleton _ _
      tags := List.pairwise_singleton _ _ }
  images := ["app:b1"]
  snapshots := fun id => if id = 1 then some oldFiles else none
  currentMigration := false
  targetMigration := fun _ => false
  revisionThen := id

def back : Request where
  instanceId := "app"
  toBuildId := none
  yes := false
  expectedRevision := none
  source := "cli"
  runAliasGuard := false

/-- Another channel has changed the instance meanwhile. -/
def contended : Conditions := { calm with revisionThen := fun revision => revision + 1 }

/-- Nothing can be started, and the manifest cannot be written. -/
def unwritable : Conditions where
  __ := calm
  raises
    | .starting _ => some "no space left"
    | .savingRecord _ => some "no space left"
    | _ => none

/-- A late conflict leaves the target in service, and a manifest that cannot be saved stays what it was. -/
theorem failure_not_settled :
    ¬Ends (rollbackInstance contended back) served (onValue (fun _ _ => True) fun _ t =>
      t.stopped = true → Settled contended served t) ∧
    ¬Ends (rollbackInstance unwritable back) served (onValue (fun _ _ => True) fun _ t =>
      t.stopped = true → Settled unwritable served t) := by
  constructor
  · intro ends
    rcases ends rfl with ⟨_, files, _⟩ | ⟨failed, _⟩
    · exact absurd (congrFun files .compose) (by decide)
    · cases failed
  · intro ends
    rcases ends rfl with ⟨_, _, c, runs, _⟩ | ⟨failed, _⟩
    · cases runs
    · cases failed

end LocalWebAccess.RollbackInstance
