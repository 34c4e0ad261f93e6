import LocalWebAccess.InboxWatcher

/-!
# What becomes of the files in the inbox

The keys that the watcher has recorded belong to files that were imported or are
in conflict with an instance, no file in the archives is overwritten, and a file
that stays is tried again until it has left the inbox.
-/
namespace LocalWebAccess.InboxWatcher
open GuardedRuns

variable {Name Content : Type}

/-- The file was imported, or found to be in conflict with an instance. -/
def Accepted (log : List (Event Name Content)) (name : Name) (file : File Content) : Prop :=
  ∃ outcome repeated, outcome ≠ .failed ∧ .attempt name file outcome repeated ∈ log

theorem Accepted.mono {log : List (Event Name Content)} {name : Name} {file : File Content} (event : Event Name Content)
    (h : Accepted log name file) : Accepted (event :: log) name file := by
  obtain ⟨outcome, repeated, accepted, listed⟩ := h
  exact ⟨outcome, repeated, accepted, List.mem_cons_of_mem _ listed⟩

/-- The file that a recorded key belongs to. -/
def Known (s : State Name Content) (key : Key Name) : Prop :=
  ∀ name size mtimeNs, key = .stamped name size mtimeNs →
    ∃ file, (name, file) ∈ s.seen ∧ file.size = size ∧ file.mtimeNs = mtimeNs ∧ Accepted s.log name file

theorem Known.mono {s t : State Name Content} {key : Key Name} (h : Known s key) (seen : ∀ pair ∈ s.seen, pair ∈ t.seen)
    (log : ∀ event ∈ s.log, event ∈ t.log) : Known t key := by
  intro name size mtimeNs same
  obtain ⟨file, listed, size, mtimeNs, outcome, repeated, accepted, logged⟩ := h name size mtimeNs same
  exact ⟨file, seen _ listed, size, mtimeNs, outcome, repeated, accepted, log _ logged⟩

/-- The file whose import has just ended. -/
def Phase.attempting : Phase Name → Option Name
  | attempted name _ _ _ => some name
  | _ => none

theorem attempting_of_visiting {s : State Name Content} {name : Name} (free : s.visiting ≠ some name) :
    s.phase.attempting ≠ some name := by
  intro busy
  apply free
  unfold State.visiting
  cases phase : s.phase with
  | attempted visited key outcome rest =>
    rw [phase] at busy
    exact busy
  | _ =>
    rw [phase] at busy
    cases busy

theorem setFile_inbox_of_ne [DecidableEq Name] {s : State Name Content} {name other : Name}
    {change : Option (File Content)} (h : other ≠ name) :
    (s.setFile name change).inbox other = s.inbox other := Function.update_of_ne h _ _

@[simp] theorem dest_dir (s : State Name Content) (dir : Dir) (name : Name) (stamp : String) :
    (s.dest dir name stamp).dir = dir := by
  unfold State.dest
  split <;> rfl

@[simp] theorem dest_name (s : State Name Content) (dir : Dir) (name : Name) (stamp : String) :
    (s.dest dir name stamp).name = name := by
  unfold State.dest
  split <;> rfl

@[simp] theorem dest_stamp (s : State Name Content) (dir : Dir) (name : Name) (stamp : String) :
    (s.dest dir name stamp).stamp = stamp := by
  unfold State.dest
  split <;> rfl

theorem importOf_failCounts [DecidableEq Name] (s : State Name Content) (name : Name) (key key' : Key Name)
    (outcome : Outcome) (rest : List Name) :
    (s.importOf name key outcome rest).failCounts key' ≤
      s.failCounts key' + if key' = key ∧ outcome = .failed then 1 else 0 := by
  by_cases same : key' = key
  · subst same
    simp only [State.importOf, Function.update_self]
    split_ifs <;> simp_all
  · simp [State.importOf, same]

variable [DecidableEq Name] [DecidableEq Content]

namespace Event

def attempts (name : Name) (file : File Content) : Event Name Content → Bool
  | attempt name' file' _ _ => name' = name ∧ file' = file
  | archived _ _ => false

def fails (name : Name) (file : File Content) : Event Name Content → Bool
  | attempt name' file' outcome _ => name' = name ∧ file' = file ∧ outcome = .failed
  | archived _ _ => false

def moves (dir : Dir) (name : Name) (stamp : String) : Event Name Content → Bool
  | attempt _ _ _ _ => false
  | archived dest _ => dest.dir = dir ∧ dest.name = name ∧ dest.stamp = stamp

end Event

/-- A file is not touched while it is visited, its size and time tell it from the other files of its
name, `stat` finds it, and no name is archived three times in a second. -/
def Undisturbed (s : State Name Content) : Action Name Content → Prop
  | .put name file =>
    s.visiting ≠ some name ∧
      ∀ other, (name, other) ∈ s.seen → other.size = file.size → other.mtimeNs = file.mtimeNs → other = file
  | .remove name => s.visiting ≠ some name
  | .sampleKey stat => stat = true
  | .archiveDuplicate stamp _ | .settle stamp _ =>
    ∀ dir name, s.visiting = some name → s.log.countP (Event.moves dir name stamp) < 2
  | _ => True

structure Delivered (s : State Name Content) : Prop where
  /-- A file that stays is tried at every second visit, and leaves after the fifth try unless a step
  fails. -/
  tried : ∀ name file, s.visiting ≠ some name → s.inbox name = some file →
    s.lateVisits name ≤ 2 * s.attempts name + s.mishaps name + 1 ∧
      s.attempts name ≤ s.log.countP (Event.attempts name file) ∧ s.attempts name ≤ 5 * s.mishaps name + 4
  processed : ∀ dest file, .archived dest file ∈ s.log → dest.dir = .processed → Accepted s.log dest.name file
  failed : ∀ dest file, .archived dest file ∈ s.log → dest.dir = .failed →
    failedZipMaxAttempts ≤ s.log.countP (Event.fails dest.name file)
  kept : ∀ dest file, .archived dest file ∈ s.log → s.archive dest = some file
  once : ∀ name file outcome repeated, .attempt name file outcome repeated ∈ s.log → repeated = false

/-! ## The invariant -/

/-- What holds in every phase. -/
structure Core (s : State Name Content) : Prop where
  present : ∀ {name file}, s.inbox name = some file → (name, file) ∈ s.seen
  unique : ∀ {name file other}, (name, file) ∈ s.seen → (name, other) ∈ s.seen → other.size = file.size →
    other.mtimeNs = file.mtimeNs → other = file
  recorded : ∀ key ∈ s.recorded, Known s key
  memory : ∀ key ∈ s.processed, Known s key
  failCounts : ∀ name size mtimeNs, s.failCounts (.stamped name size mtimeNs) = 0 ∨
    ∃ file, (name, file) ∈ s.seen ∧ file.size = size ∧ file.mtimeNs = mtimeNs ∧
      s.failCounts (.stamped name size mtimeNs) ≤ s.log.countP (Event.fails name file)
  stored : ∀ {dest file}, s.archive dest = some file → .archived dest file ∈ s.log
  suffixed : ∀ {dir name stamp pid file}, .archived ⟨dir, name, stamp, some pid⟩ file ∈ s.log →
    2 ≤ s.log.countP (Event.moves dir name stamp)
  processed : ∀ dest file, .archived dest file ∈ s.log → dest.dir = .processed → Accepted s.log dest.name file
  failed : ∀ dest file, .archived dest file ∈ s.log → dest.dir = .failed →
    failedZipMaxAttempts ≤ s.log.countP (Event.fails dest.name file)
  kept : ∀ dest file, .archived dest file ∈ s.log → s.archive dest = some file
  once : ∀ name file outcome repeated, .attempt name file outcome repeated ∈ s.log → repeated = false

/-- The counts of a file between two of its visits. -/
structure Waiting (settings : Settings) (s : State Name Content) (name : Name) (file : File Content) : Prop where
  late : s.lateVisits name ≤ 2 * s.attempts name + s.mishaps name + 1
  unlooked : s.fingerprints name ≠ some (fingerprint settings (some file)) →
    s.lateVisits name ≤ 2 * s.attempts name + s.mishaps name
  logged : s.attempts name ≤ s.log.countP (Event.attempts name file)
  few : s.attempts name ≤ 5 * s.mishaps name + min (s.failCounts (.stamped name file.size file.mtimeNs)) 4

/-- The counts of a file after an attempt. -/
structure Attempted (s : State Name Content) (name : Name) (outcome : Outcome) (file : File Content) : Prop where
  late : s.lateVisits name ≤ 2 * s.attempts name + s.mishaps name
  logged : s.attempts name ≤ s.log.countP (Event.attempts name file)
  few : s.attempts name ≤ 5 * s.mishaps name + 5
  failed : outcome = .failed →
    s.attempts name ≤ 5 * s.mishaps name + s.failCounts (.stamped name file.size file.mtimeNs)
  accepted : outcome ≠ .failed → Accepted s.log name file

def PhaseInv (s : State Name Content) : Phase Name → Prop
  | .idle => True
  | .scanning _ => ∀ key ∈ s.recorded, key ∈ s.processed
  | .keyed name key _ => (∀ key ∈ s.recorded, key ∈ s.processed) ∧ key = processedKey name (s.inbox name)
  | .stable name key _ =>
    (∀ key ∈ s.recorded, key ∈ s.processed) ∧ key = processedKey name (s.inbox name) ∧ key ∉ s.processed
  | .attempted name key outcome _ =>
    (∀ key ∈ s.recorded, key ∈ s.processed) ∧ key = processedKey name (s.inbox name) ∧
      (s.inbox name = none → outcome = .failed) ∧ ∀ file, s.inbox name = some file → Attempted s name outcome file
  | .archived name key _ => (∀ key ∈ s.recorded, key ∈ s.processed) ∧ s.inbox name = none ∧ Known s key

structure Inv (settings : Settings) (s : State Name Content) : Prop where
  core : Core s
  phase : PhaseInv s s.phase
  waiting : ∀ {name file}, s.phase.attempting ≠ some name → s.inbox name = some file → Waiting settings s name file

theorem start_inv (settings : Settings) (pid : ℕ) : Inv settings (start pid : State Name Content) where
  core :=
    ⟨nofun, nofun, nofun, nofun, fun _ _ _ => .inl rfl, nofun, nofun, nofun, nofun, nofun, nofun⟩
  phase := trivial
  waiting := nofun

section steps

variable {settings : Settings} {s t : State Name Content} {name : Name} {file : File Content}

/-- A step that logs nothing and moves nothing. -/
theorem Core.frame (h : Core s) (inbox : ∀ {name file}, t.inbox name = some file → (name, file) ∈ s.seen)
    (archive : t.archive = s.archive) (recorded : ∀ key ∈ t.recorded, Known s key)
    (processed : ∀ key ∈ t.processed, Known s key)
    (failCounts : ∀ key, t.failCounts key ≤ s.failCounts key) (log : t.log = s.log) (seen : t.seen = s.seen) :
    Core t where
  present := fun found => by
    rw [seen]
    exact inbox found
  unique := by
    rw [seen]
    exact h.unique
  recorded := fun key listed => (recorded key listed).mono (by simp [seen]) (by simp [log])
  memory := fun key listed => (processed key listed).mono (by simp [seen]) (by simp [log])
  failCounts := by
    intro name size mtimeNs
    have less := failCounts (.stamped name size mtimeNs)
    rw [seen, log]
    rcases h.failCounts name size mtimeNs with zero | ⟨file, listed, size, mtimeNs, bound⟩
    · exact .inl (by omega)
    · exact .inr ⟨file, listed, size, mtimeNs, by omega⟩
  stored := by
    rw [archive, log]
    exact h.stored
  suffixed := by
    rw [log]
    exact h.suffixed
  processed := by
    rw [log]
    exact h.processed
  failed := by
    rw [log]
    exact h.failed
  kept := by
    rw [archive, log]
    exact h.kept
  once := by
    rw [log]
    exact h.once

/-- Files of one name with one size and time are the same. -/
theorem Core.failCounts_le (h : Core s) (found : s.inbox name = some file) :
    s.failCounts (.stamped name file.size file.mtimeNs) ≤ s.log.countP (Event.fails name file) := by
  rcases h.failCounts name file.size file.mtimeNs with zero | ⟨other, listed, size, mtimeNs, bound⟩
  · omega
  · obtain rfl := h.unique (h.present found) listed size mtimeNs
    exact bound

theorem Core.accepted (h : Core s) (found : s.inbox name = some file)
    (known : Known s (.stamped name file.size file.mtimeNs)) : Accepted s.log name file := by
  obtain ⟨other, listed, size, mtimeNs, accepted⟩ := known _ _ _ rfl
  obtain rfl := h.unique (h.present found) listed size mtimeNs
  exact accepted

/-! ### Files that come and go -/

theorem setFile_waiting {other : Name} {found : File Content} {change : Option (File Content)}
    (h : Inv settings s) (free : s.phase.attempting ≠ some other)
    (present : (s.setFile name change).inbox other = some found) :
    Waiting settings (s.setFile name change) other found := by
  by_cases same : other = name
  · subst same
    refine ⟨?_, fun _ => ?_, ?_, ?_⟩ <;> simp [State.setFile]
  · rw [setFile_inbox_of_ne same] at present
    have before := h.waiting free present
    refine ⟨?_, ?_, ?_, ?_⟩
    · simpa [State.setFile, same] using before.late
    · simpa [State.setFile, same] using before.unlooked
    · simpa [State.setFile, same] using before.logged
    · simpa [State.setFile, same] using before.few

/-- The file that is visited stays as it is. -/
theorem setFile_phase {change : Option (File Content)} {seen : List (Name × File Content)}
    (h : PhaseInv s s.phase) (free : s.visiting ≠ some name) (grows : ∀ pair ∈ s.seen, pair ∈ seen) :
    PhaseInv { s.setFile name change with seen := seen } s.phase := by
  unfold State.visiting at free
  cases phase : s.phase with
  | idle => trivial
  | scanning rest =>
    rw [phase] at h
    exact h
  | keyed visited key rest =>
    rw [phase] at h free
    have other : visited ≠ name := fun same => free (congrArg some same)
    exact ⟨h.1, h.2.trans (congrArg _ (setFile_inbox_of_ne other).symm)⟩
  | stable visited key rest =>
    rw [phase] at h free
    have other : visited ≠ name := fun same => free (congrArg some same)
    exact ⟨h.1, h.2.1.trans (congrArg _ (setFile_inbox_of_ne other).symm), h.2.2⟩
  | attempted visited key outcome rest =>
    rw [phase] at h free
    have other : visited ≠ name := fun same => free (congrArg some same)
    obtain ⟨recorded, sampled, missing, attempted⟩ := h
    refine ⟨recorded, sampled.trans (congrArg _ (setFile_inbox_of_ne other).symm), ?_, ?_⟩
    · intro absent
      exact missing ((setFile_inbox_of_ne other).symm.trans absent)
    · intro file found
      have before := attempted file ((setFile_inbox_of_ne other).symm.trans found)
      refine ⟨?_, ?_, ?_, fun failed => ?_, before.accepted⟩
      · simpa [State.setFile, other] using before.late
      · simpa [State.setFile, other] using before.logged
      · simpa [State.setFile, other] using before.few
      · simpa [State.setFile, other] using before.failed failed
  | archived visited key rest =>
    rw [phase] at h free
    have other : visited ≠ name := fun same => free (congrArg some same)
    exact ⟨h.1, (setFile_inbox_of_ne other).trans h.2.1, h.2.2.mono grows (fun _ logged => logged)⟩

theorem put_inv (h : Inv settings s) (free : s.visiting ≠ some name)
    (new : ∀ other, (name, other) ∈ s.seen → other.size = file.size → other.mtimeNs = file.mtimeNs → other = file) :
    Inv settings { s.setFile name (some file) with seen := (name, file) :: s.seen } where
  core := by
    have grows : ∀ pair ∈ s.seen, pair ∈ (name, file) :: s.seen := fun _ => List.mem_cons_of_mem _
    refine ⟨?_, ?_, ?_, ?_, ?_, h.core.stored, h.core.suffixed, h.core.processed, h.core.failed, h.core.kept,
      h.core.once⟩
    · intro name' file' found
      by_cases same : name' = name
      · subst same
        obtain rfl : file = file' := by simpa [State.setFile] using found
        exact List.mem_cons_self
      · have before : s.inbox name' = some file' := (setFile_inbox_of_ne same).symm.trans found
        exact List.mem_cons_of_mem _ (h.core.present before)
    · intro name' file' other listed listed' size mtimeNs
      rcases List.mem_cons.mp listed with same | before
      · obtain ⟨rfl, rfl⟩ := Prod.mk.inj same
        rcases List.mem_cons.mp listed' with same' | before'
        · exact (Prod.mk.inj same').2
        · exact new other before' size mtimeNs
      · rcases List.mem_cons.mp listed' with same' | before'
        · obtain ⟨rfl, rfl⟩ := Prod.mk.inj same'
          exact (new file' before size.symm mtimeNs.symm).symm
        · exact h.core.unique before before' size mtimeNs
    · exact fun key listed => (h.core.recorded key listed).mono grows (fun _ logged => logged)
    · exact fun key listed => (h.core.memory key listed).mono grows (fun _ logged => logged)
    · intro name' size mtimeNs
      rcases h.core.failCounts name' size mtimeNs with zero | ⟨other, listed, bound⟩
      · exact .inl zero
      · exact .inr ⟨other, grows _ listed, bound⟩
  phase := setFile_phase h.phase free (fun _ => List.mem_cons_of_mem _)
  waiting := fun busy found =>
    have before := setFile_waiting h busy found
    ⟨before.late, before.unlooked, before.logged, before.few⟩

theorem remove_inv (h : Inv settings s) (free : s.visiting ≠ some name) : Inv settings (s.setFile name none) where
  core := by
    refine h.core.frame ?_ rfl h.core.recorded h.core.memory (fun _ => Nat.le_refl _) rfl rfl
    intro name' file' found
    by_cases same : name' = name
    · subst same
      simp [State.setFile] at found
    · exact h.core.present ((setFile_inbox_of_ne same).symm.trans found)
  phase := setFile_phase h.phase free (fun _ listed => listed)
  waiting := setFile_waiting h

/-! ### Moves to the archives -/

/-- One of the two names is free for the first two files in a second. -/
theorem dest_free (h : Core s) {dir : Dir} {stamp : String} (few : s.log.countP (Event.moves dir name stamp) < 2) :
    s.archive (s.dest dir name stamp) = none := by
  unfold State.dest
  split
  · cases taken : s.archive ⟨dir, name, stamp, some s.pid⟩ with
    | none => rfl
    | some file =>
      have := h.suffixed (h.stored taken)
      omega
  · rename_i free
    simpa using free

theorem moved_core (h : Core s) (found : s.inbox name = some file) {dir : Dir} {stamp : String}
    (few : s.log.countP (Event.moves dir name stamp) < 2) (processed : dir = .processed → Accepted s.log name file)
    (failed : dir = .failed → failedZipMaxAttempts ≤ s.log.countP (Event.fails name file)) :
    Core (s.moved dir name stamp file) := by
  have free := dest_free h few
  have grows : ∀ event ∈ s.log, event ∈ (s.moved dir name stamp file).log := fun _ => List.mem_cons_of_mem _
  have fails : ∀ name' file', (s.moved dir name stamp file).log.countP (Event.fails name' file') =
      s.log.countP (Event.fails name' file') := fun _ _ => List.countP_cons_of_neg (by simp [Event.fails])
  refine ⟨?_, h.unique, fun key listed => (h.recorded key listed).mono (fun _ seen => seen) grows,
    fun key listed => (h.memory key listed).mono (fun _ seen => seen) grows, ?_, ?_, ?_, ?_, ?_, ?_, ?_⟩
  · intro name' file' found'
    by_cases same : name' = name
    · subst same
      simp [State.moved, State.setFile] at found'
    · exact h.present ((setFile_inbox_of_ne same).symm.trans found')
  · intro name' size mtimeNs
    simp only [fails]
    exact h.failCounts name' size mtimeNs
  · intro dest' file' stored
    by_cases same : dest' = s.dest dir name stamp
    · subst same
      obtain rfl : file = file' := by simpa [State.moved] using stored
      exact List.mem_cons_self
    · exact grows _ (h.stored (by simpa [State.moved, same] using stored))
  · intro dir' name' stamp' pid file' logged
    rcases List.mem_cons.mp logged with new | before
    · obtain ⟨suffixed, rfl⟩ := Event.archived.inj new
      unfold State.dest at suffixed
      split at suffixed
      · rename_i taken
        obtain ⟨rfl, rfl, rfl, -⟩ := ArchiveName.mk.inj suffixed
        obtain ⟨other, taken⟩ := Option.isSome_iff_exists.mp taken
        have first : 0 < s.log.countP (Event.moves dir' name' stamp') :=
          List.countP_pos_iff.mpr ⟨_, h.stored taken, by simp [Event.moves]⟩
        have : (s.moved dir' name' stamp' file').log.countP (Event.moves dir' name' stamp') =
            s.log.countP (Event.moves dir' name' stamp') + 1 :=
          List.countP_cons_of_pos (by simp [Event.moves])
        omega
      · simp at suffixed
    · exact Nat.le_trans (h.suffixed before) (List.Sublist.countP_le (List.sublist_cons_self _ _))
  · intro dest' file' logged inDir
    rcases List.mem_cons.mp logged with new | before
    · obtain ⟨rfl, rfl⟩ := Event.archived.inj new
      rw [dest_dir] at inDir
      rw [dest_name]
      exact (processed inDir).mono _
    · exact (h.processed dest' file' before inDir).mono _
  · intro dest' file' logged inDir
    rw [fails]
    rcases List.mem_cons.mp logged with new | before
    · obtain ⟨rfl, rfl⟩ := Event.archived.inj new
      rw [dest_dir] at inDir
      rw [dest_name]
      exact failed inDir
    · exact h.failed dest' file' before inDir
  · intro dest' file' logged
    rcases List.mem_cons.mp logged with new | before
    · obtain ⟨rfl, rfl⟩ := Event.archived.inj new
      exact Function.update_self _ _ _
    · have kept := h.kept dest' file' before
      have other : dest' ≠ s.dest dir name stamp := by
        intro same
        rw [same, free] at kept
        contradiction
      exact (Function.update_of_ne other _ _).trans kept
  · intro name' file' outcome repeated logged
    rcases List.mem_cons.mp logged with new | before
    · cases new
    · exact h.once name' file' outcome repeated before

theorem mishap_core (h : Core s) (name : Name) : Core (s.mishap name) :=
  h.frame h.present rfl h.recorded h.memory (fun _ => Nat.le_refl _) rfl rfl

theorem moved_waiting {dir : Dir} {stamp : String} {other : Name} {found : File Content}
    (waiting : other ≠ name → s.inbox other = some found → Waiting settings s other found)
    (present : (s.moved dir name stamp file).inbox other = some found) :
    Waiting settings (s.moved dir name stamp file) other found := by
  by_cases same : other = name
  · subst same
    simp [State.moved, State.setFile] at present
  · have before := waiting same ((setFile_inbox_of_ne same).symm.trans present)
    refine ⟨?_, ?_, ?_, ?_⟩
    · simpa [State.moved, State.setFile, same] using before.late
    · simpa [State.moved, State.setFile, same] using before.unlooked
    · refine Nat.le_trans ?_ (List.Sublist.countP_le (List.sublist_cons_self _ _))
      simpa [State.moved, State.setFile, same] using before.logged
    · simpa [State.moved, State.setFile, same] using before.few

theorem mishap_waiting {other : Name} (h : Waiting settings s other file) :
    Waiting settings (s.mishap name) other file := by
  by_cases same : other = name
  · subst same
    refine ⟨?_, fun unlooked => ?_, h.logged, ?_⟩
    all_goals simp only [State.mishap, Function.update_self]
    · have := h.late
      omega
    · have := h.unlooked unlooked
      omega
    · have := h.few
      omega
  · refine ⟨?_, ?_, h.logged, ?_⟩
    · simpa [State.mishap, same] using h.late
    · simpa [State.mishap, same] using h.unlooked
    · simpa [State.mishap, same] using h.few

/-! ### The steps of a visit -/

/-- The end of a visit, with the counts of the file where it is still there. -/
theorem leave_inv {rest : List Name} (core : Core s) (recorded : ∀ key ∈ s.recorded, key ∈ s.processed)
    (others : ∀ {other found}, other ≠ name → s.inbox other = some found → Waiting settings s other found)
    (own : ∀ found, s.inbox name = some found → s.lateVisits name ≤ 2 * s.attempts name + s.mishaps name ∧
      s.attempts name ≤ s.log.countP (Event.attempts name found) ∧
      s.attempts name ≤ 5 * s.mishaps name + min (s.failCounts (.stamped name found.size found.mtimeNs)) 4) :
    Inv settings (s.leave name rest) where
  core := core.frame core.present rfl core.recorded core.memory (fun _ => Nat.le_refl _) rfl rfl
  phase := recorded
  waiting := by
    intro other found _ present
    by_cases same : other = name
    · subst same
      obtain ⟨late, logged, few⟩ := own found present
      exact ⟨Nat.le_succ_of_le late, fun _ => late, logged, few⟩
    · have before := others same present
      refine ⟨before.late, ?_, before.logged, before.few⟩
      simpa [State.leave, same] using before.unlooked

theorem scanning_inv {rest : List Name} (core : Core s) (recorded : ∀ key ∈ s.recorded, key ∈ s.processed)
    (waiting : ∀ {other found}, s.inbox other = some found → Waiting settings s other found) :
    Inv settings { s with phase := .scanning rest } where
  core := core.frame core.present rfl core.recorded core.memory (fun _ => Nat.le_refl _) rfl rfl
  phase := recorded
  waiting := fun _ present =>
    have before := waiting present
    ⟨before.late, before.unlooked, before.logged, before.few⟩

theorem archiveDuplicate_inv (h : Inv settings s) {key : Key Name} {rest : List Name}
    (phase : s.phase = .keyed name key rest) (duplicate : key ∈ s.processed) {stamp : String}
    (few : ∀ dir, s.log.countP (Event.moves dir name stamp) < 2) (moves : Bool) :
    Inv settings { (s.moveZip .processed name stamp moves).1 with phase := .scanning rest } := by
  have own := h.phase
  rw [phase] at own
  obtain ⟨recorded, sampled⟩ := own
  have waiting : ∀ {other found}, s.inbox other = some found → Waiting settings s other found :=
    fun present => h.waiting (by rw [phase]; nofun) present
  unfold State.moveZip
  cases found : s.inbox name with
  | none => exact scanning_inv h.core recorded waiting
  | some file =>
    cases moves with
    | false =>
      exact scanning_inv (mishap_core h.core name) recorded (fun present => mishap_waiting (waiting present))
    | true =>
      have accepted : Accepted s.log name file := by
        rw [found] at sampled
        exact h.core.accepted found (by rw [sampled] at duplicate; exact h.core.memory _ duplicate)
      exact scanning_inv (moved_core h.core found (few _) (fun _ => accepted) nofun) recorded
        (fun present => moved_waiting (fun _ => waiting) present)

/-- A look at the file: a late one that does not find it stable has no look before it. -/
theorem look_inv (h : Inv settings s) {key : Key Name} {rest : List Name} (phase : s.phase = .keyed name key rest)
    (new : key ∉ s.processed) {stat : Option (File Content)} (there : ∀ found, stat = some found → s.inbox name = stat)
    (now : ℤ) : Inv settings (s.look settings name key rest stat now) := by
  have own := h.phase
  rw [phase] at own
  obtain ⟨recorded, sampled⟩ := own
  have waiting : ∀ {other found}, s.inbox other = some found → Waiting settings s other found :=
    fun present => h.waiting (by rw [phase]; nofun) present
  unfold State.look
  cases stat with
  | none =>
    refine ⟨h.core.frame h.core.present rfl h.core.recorded h.core.memory (fun _ => Nat.le_refl _) rfl rfl, recorded,
      ?_⟩
    intro other found _ present
    have before := waiting present
    by_cases same : other = name
    · subst same
      have late := before.late
      have few := before.few
      refine ⟨?_, fun _ => ?_, before.logged, ?_⟩
      all_goals
        simp only [State.mishap, Function.update_self]
        omega
    · refine ⟨?_, ?_, before.logged, ?_⟩
      · simpa [State.mishap, same] using before.late
      · simpa [State.mishap, same] using before.unlooked
      · simpa [State.mishap, same] using before.few
  | some file =>
    have present' := there file rfl
    dsimp only
    by_cases stable : isFileStable settings (some file) (s.fingerprints name) now = true
    · rw [if_pos stable]
      refine ⟨h.core.frame h.core.present rfl h.core.recorded h.core.memory (fun _ => Nat.le_refl _) rfl rfl,
        ⟨recorded, sampled, new⟩, ?_⟩
      intro other found _ present
      have before := waiting present
      by_cases same : other = name
      · subst same
        obtain rfl : file = found := Option.some.inj (present'.symm.trans present)
        exact ⟨before.late, fun unlooked => absurd (Function.update_self _ _ _) unlooked, before.logged, before.few⟩
      · refine ⟨before.late, ?_, before.logged, before.few⟩
        simpa [same] using before.unlooked
    · rw [if_neg stable]
      refine ⟨h.core.frame h.core.present rfl h.core.recorded h.core.memory (fun _ => Nat.le_refl _) rfl rfl,
        recorded, ?_⟩
      intro other found _ present
      have before := waiting present
      by_cases same : other = name
      · subst same
        obtain rfl : file = found := Option.some.inj (present'.symm.trans present)
        have counted : s.lateVisits other + (if isLate settings file now then 1 else 0) ≤
            2 * s.attempts other + s.mishaps other + 1 := by
          split_ifs with late
          · have unlooked : s.fingerprints other ≠ some (fingerprint settings (some file)) := by
              intro looked
              apply stable
              simp [isFileStable, looked, late]
            have := before.unlooked unlooked
            omega
          · exact before.late
        refine ⟨?_, fun unlooked => absurd (Function.update_self _ _ _) unlooked, before.logged, before.few⟩
        simpa using counted
      · refine ⟨?_, ?_, before.logged, before.few⟩
        · simpa [same] using before.late
        · simpa [same] using before.unlooked

theorem attempt_core (h : Core s) (found : s.inbox name = some file) {rest : List Name} (outcome : Outcome)
    (fresh : processedKey name (some file) ∉ s.recorded) (attempts lateVisits : Name → ℕ) :
    Core { s.importOf name (processedKey name (some file)) outcome rest with
      log := .attempt name file outcome (processedKey name (some file) ∈ s.recorded) :: s.log
      attempts := attempts
      lateVisits := lateVisits } := by
  have grows : ∀ event ∈ s.log,
      event ∈ .attempt name file outcome (processedKey name (some file) ∈ s.recorded) :: s.log :=
    fun _ => List.mem_cons_of_mem _
  have more : ∀ test : Event Name Content → Bool, s.log.countP test ≤
      (.attempt name file outcome (processedKey name (some file) ∈ s.recorded) :: s.log).countP test :=
    fun _ => List.Sublist.countP_le (List.sublist_cons_self _ _)
  have known : ∀ key, Known s key → Known { s.importOf name (processedKey name (some file)) outcome rest with
      log := .attempt name file outcome (processedKey name (some file) ∈ s.recorded) :: s.log
      attempts := attempts
      lateVisits := lateVisits } key := fun key known => known.mono (fun _ seen => seen) grows
  refine ⟨h.present, h.unique, fun key listed => known key (h.recorded key listed),
    fun key listed => known key (h.memory key listed), ?_, ?_, ?_, ?_, ?_, ?_, ?_⟩
  · intro name' size mtimeNs
    have counted := importOf_failCounts s name (processedKey name (some file))
        (.stamped name' size mtimeNs) outcome rest
    by_cases own : Key.stamped name' size mtimeNs = processedKey name (some file) ∧ outcome = .failed
    · obtain ⟨same, rfl⟩ := own
      obtain ⟨rfl, rfl, rfl⟩ := Key.stamped.inj same
      refine .inr ⟨file, h.present found, rfl, rfl, ?_⟩
      have before := h.failCounts_le found
      rw [if_pos ⟨same, rfl⟩] at counted
      refine Nat.le_trans counted ?_
      rw [List.countP_cons_of_pos (by simp [Event.fails])]
      omega
    · rw [if_neg own] at counted
      rcases h.failCounts name' size mtimeNs with zero | ⟨other, listed, size', mtimeNs', bound⟩
      · rw [zero] at counted
        exact .inl (Nat.le_zero.mp counted)
      · exact .inr ⟨other, listed, size', mtimeNs', Nat.le_trans counted (Nat.le_trans bound (more _))⟩
  · exact fun stored => grows _ (h.stored stored)
  · intro dir name' stamp pid file' logged
    rcases List.mem_cons.mp logged with new | before
    · cases new
    · exact Nat.le_trans (h.suffixed before) (more _)
  · intro dest file' logged inDir
    rcases List.mem_cons.mp logged with new | before
    · cases new
    · exact (h.processed dest file' before inDir).mono _
  · intro dest file' logged inDir
    rcases List.mem_cons.mp logged with new | before
    · cases new
    · exact Nat.le_trans (h.failed dest file' before inDir) (more _)
  · intro dest file' logged
    rcases List.mem_cons.mp logged with new | before
    · cases new
    · exact h.kept dest file' before
  · intro name' file' outcome' repeated logged
    rcases List.mem_cons.mp logged with new | before
    · obtain ⟨-, -, -, rfl⟩ := Event.attempt.inj new
      simpa using fresh
    · exact h.once name' file' outcome' repeated before

theorem importOf_others (settings : Settings) {key : Key Name} {other : Name} {found : File Content}
    (rest : List Name) (outcome : Outcome) (h : Waiting settings s other found)
    (mine : key = processedKey name (s.inbox name))
    (different : other ≠ name) {log : List (Event Name Content)} (grows : s.log.Sublist log) (attempts lateVisits : ℕ) :
    Waiting settings { s.importOf name key outcome rest with
      log := log
      attempts := Function.update s.attempts name attempts
      lateVisits := Function.update s.lateVisits name lateVisits } other found := by
  have keys : Key.stamped other found.size found.mtimeNs ≠ key := by
    subst mine
    cases s.inbox name <;> simp [processedKey, different]
  refine ⟨?_, ?_, ?_, ?_⟩
  · simpa [different, State.importOf] using h.late
  · simpa [different, State.importOf] using h.unlooked
  · refine Nat.le_trans ?_ grows.countP_le
    simpa [different] using h.logged
  · simpa [different, State.importOf, keys] using h.few

theorem importZip_inv (h : Inv settings s) {key : Key Name} {rest : List Name} (phase : s.phase = .stable name key rest)
    {outcome : Outcome} (taken : step settings s (.importZip outcome) = some t) : Inv settings t := by
  have own := h.phase
  rw [phase] at own
  obtain ⟨recorded, sampled, new⟩ := own
  have waiting : ∀ {other found}, s.inbox other = some found → Waiting settings s other found :=
    fun present => h.waiting (by rw [phase]; nofun) present
  simp only [step, phase] at taken
  cases found : s.inbox name with
  | none =>
    simp only [found, Option.some.injEq] at taken
    subst taken
    refine ⟨?_, ⟨recorded, sampled, fun _ => rfl, fun file there => by simp [State.importOf, found] at there⟩, ?_⟩
    · have bare : ∀ name' size mtimeNs, (s.importOf name key .failed rest).failCounts (.stamped name' size mtimeNs) =
          s.failCounts (.stamped name' size mtimeNs) := by
        intro name' size mtimeNs
        rw [sampled, found]
        simp [State.importOf, processedKey]
      refine ⟨h.core.present, h.core.unique, h.core.recorded, h.core.memory, ?_, h.core.stored, h.core.suffixed,
        h.core.processed, h.core.failed, h.core.kept, h.core.once⟩
      intro name' size mtimeNs
      rw [bare]
      exact h.core.failCounts name' size mtimeNs
    · intro other found' busy present
      have different : other ≠ name := by
        rintro rfl
        exact busy rfl
      have after := importOf_others settings rest .failed (waiting present) sampled different (List.Sublist.refl s.log)
        (s.attempts name) (s.lateVisits name)
      simp only [Function.update_eq_self] at after
      exact ⟨after.late, after.unlooked, after.logged, after.few⟩
  | some file =>
    simp only [found, Option.some.injEq] at taken
    subst taken
    rw [found] at sampled
    subst sampled
    have fresh : processedKey name (some file) ∉ s.recorded := fun listed => new (recorded _ listed)
    have before := waiting found
    refine ⟨attempt_core h.core found outcome fresh _ _, ⟨recorded, ?_, ?_, ?_⟩, ?_⟩
    · exact congrArg (processedKey name) found.symm
    · intro absent
      have : s.inbox name = none := absent
      simp [found] at this
    · intro file' there
      obtain rfl : file = file' := Option.some.inj (found.symm.trans there)
      have late := before.late
      have few := before.few
      refine ⟨?_, ?_, ?_, fun failed => ?_, fun accepted => ⟨outcome, _, accepted, List.mem_cons_self⟩⟩
      · simp only [Function.update_self, State.importOf]
        omega
      · rw [List.countP_cons_of_pos (by simp [Event.attempts])]
        simpa using before.logged
      · simp only [Function.update_self, State.importOf]
        omega
      · subst failed
        simp only [Function.update_self, State.importOf, processedKey, if_pos]
        omega
    · intro other found' busy present
      have different : other ≠ name := by
        rintro rfl
        exact busy rfl
      exact importOf_others settings rest outcome (waiting present)
        (by rw [found]) different (List.sublist_cons_self _ _) _ _

/-- The end of an attempt: a file that cannot be moved has cost a failed step. -/
theorem settle_inv (h : Inv settings s) {key : Key Name} {outcome : Outcome} {rest : List Name}
    (phase : s.phase = .attempted name key outcome rest) {stamp : String}
    (few : ∀ dir, s.log.countP (Event.moves dir name stamp) < 2) {moves : Bool}
    (taken : step settings s (.settle stamp moves) = some t) : Inv settings t := by
  have own := h.phase
  rw [phase] at own
  obtain ⟨recorded, sampled, missing, attempted⟩ := own
  have others : ∀ {other found}, other ≠ name → s.inbox other = some found → Waiting settings s other found := by
    intro other found different present
    refine h.waiting ?_ present
    rw [phase]
    intro same
    exact different (Option.some.inj same).symm
  -- after a failed move, or a failed attempt that is not the last one
  have stays : ∀ file, s.inbox name = some file → Inv settings ((s.mishap name).leave name rest) := by
    intro file found
    refine leave_inv (mishap_core h.core name) recorded
      (fun different present => mishap_waiting (others different present)) ?_
    intro file' found'
    have after := attempted file' found'
    have late := after.late
    have bound := after.few
    refine ⟨?_, after.logged, ?_⟩
    all_goals
      simp only [State.mishap, Function.update_self]
      omega
  have absent : s.inbox name = none → Inv settings (s.leave name rest) := by
    intro none'
    refine leave_inv h.core recorded others (fun found present => ?_)
    rw [none'] at present
    contradiction
  cases outcome with
  | failed =>
    simp only [step, phase] at taken
    split_ifs at taken with last
    · obtain rfl := Option.some.inj taken
      refine leave_inv h.core recorded others (fun found present => ?_)
      have after := attempted found present
      have failed := after.failed rfl
      rw [present] at sampled
      subst sampled
      have small : s.failCounts (processedKey name (some found)) < 5 := last
      simp only [processedKey] at small
      exact ⟨after.late, after.logged, by omega⟩
    · unfold State.moveZip at taken
      cases found : s.inbox name with
      | none =>
        simp only [found, Option.some.injEq] at taken
        subst taken
        exact absent found
      | some file =>
        cases moves with
        | false =>
          simp only [found, Bool.false_eq_true, if_false, Option.some.injEq] at taken
          subst taken
          exact stays file found
        | true =>
          simp only [found, if_true, Option.some.injEq] at taken
          subst taken
          rw [found] at sampled
          have dead : failedZipMaxAttempts ≤ s.log.countP (Event.fails name file) := by
            have bound := h.core.failCounts_le found
            rw [sampled, processedKey] at last
            omega
          have core := moved_core h.core found (few .failed) nofun (fun _ => dead)
          have reset : ∀ key', Function.update (s.moved .failed name stamp file).failCounts key 0 key' ≤
              (s.moved .failed name stamp file).failCounts key' := by
            intro key'
            by_cases same : key' = key
            · subst same
              simp
            · simp [same]
          refine ⟨core.frame core.present rfl core.recorded core.memory reset rfl rfl, recorded, ?_⟩
          intro other found' _ present
          have different : other ≠ name := by
            rintro rfl
            simp [State.leave, State.moved, State.setFile] at present
          have there : (s.moved .failed name stamp file).inbox other = some found' := present
          have after := moved_waiting (fun different present => others different present) there
          have keys : Key.stamped other found'.size found'.mtimeNs ≠ key := by
            rw [sampled, processedKey]
            simp [different]
          refine ⟨after.late, ?_, after.logged, ?_⟩
          · simpa [State.leave, different] using after.unlooked
          · simpa [State.leave, keys] using after.few
  | imported | conflict =>
    simp only [step, phase] at taken
    unfold State.moveZip at taken
    cases found : s.inbox name with
    | none =>
      have := missing found
      contradiction
    | some file =>
      cases moves with
      | false =>
        simp only [found, Bool.false_eq_true, if_false, Option.some.injEq] at taken
        subst taken
        exact stays file found
      | true =>
        simp only [found, if_true, Option.some.injEq] at taken
        subst taken
        have accepted : Accepted s.log name file := (attempted file found).accepted nofun
        have core := moved_core h.core found (few .processed) (fun _ => accepted) nofun
        rw [found] at sampled
        refine ⟨core.frame core.present rfl core.recorded core.memory (fun _ => Nat.le_refl _) rfl rfl,
          ⟨recorded, Function.update_self _ _ _, ?_⟩, ?_⟩
        · intro name' size mtimeNs same
          rw [sampled] at same
          obtain ⟨rfl, rfl, rfl⟩ := Key.stamped.inj same
          exact ⟨file, h.core.present found, rfl, rfl, accepted.mono _⟩
        · intro other found' _ present
          have there : (s.moved .processed name stamp file).inbox other = some found' := present
          have after := moved_waiting (fun different present => others different present) there
          exact ⟨after.late, after.unlooked, after.logged, after.few⟩

theorem record_inv (h : Inv settings s) {key : Key Name} {rest : List Name}
    (phase : s.phase = .archived name key rest) :
    Inv settings { s.leave name rest with
      processed := s.processed ++ [key, .bare name]
      recorded := saveProcessedSet (s.processed ++ [key, .bare name]) } := by
  have own := h.phase
  rw [phase] at own
  obtain ⟨-, absent, known⟩ := own
  have waiting : ∀ {other found}, s.inbox other = some found → Waiting settings s other found :=
    fun present => h.waiting (by rw [phase]; nofun) present
  have all : ∀ key' ∈ s.processed ++ [key, .bare name], Known s key' := by
    intro key' listed
    simp only [List.mem_append, List.mem_cons, List.not_mem_nil, or_false] at listed
    rcases listed with before | rfl | rfl
    · exact h.core.memory key' before
    · exact known
    · nofun
  have saved : ∀ key' ∈ saveProcessedSet (s.processed ++ [key, .bare name]),
      key' ∈ s.processed ++ [key, .bare name] := by
    intro key' listed
    rw [saveProcessedSet] at listed
    exact List.mem_dedup.mp (List.mem_of_mem_drop listed)
  generalize saveProcessedSet (s.processed ++ [key, .bare name]) = recorded at saved ⊢
  refine ⟨h.core.frame h.core.present rfl (fun key' listed => all key' (saved key' listed)) all (fun _ => Nat.le_refl _)
    rfl rfl, saved, ?_⟩
  intro other found _ present
  have before := waiting present
  have different : other ≠ name := by
    rintro rfl
    have : s.inbox other = some found := present
    simp [absent] at this
  refine ⟨before.late, ?_, before.logged, before.few⟩
  simpa [State.leave, different] using before.unlooked

end steps

theorem step_inv {settings : Settings} {s t : State Name Content} {a : Action Name Content} (h : Inv settings s)
    (calm : Undisturbed s a) (taken : step settings s a = some t) : Inv settings t := by
  cases a with
  | put name file =>
    obtain rfl := Option.some.inj taken
    exact put_inv h calm.1 calm.2
  | remove name =>
    obtain rfl := Option.some.inj taken
    exact remove_inv h calm
  | scan =>
    simp only [step] at taken
    split at taken
    · rename_i phase
      obtain rfl := Option.some.inj taken
      refine ⟨h.core.frame h.core.present rfl h.core.recorded ?_ (fun _ => Nat.le_refl _) rfl rfl, ?_, ?_⟩
      · exact fun key listed => h.core.recorded key (List.mem_dedup.mp listed)
      · exact fun key listed => List.mem_dedup.mpr listed
      · intro other found _ present
        have before := h.waiting (by rw [phase]; nofun) present
        exact ⟨before.late, before.unlooked, before.logged, before.few⟩
    · cases taken
  | finish =>
    simp only [step] at taken
    split at taken
    · rename_i phase
      obtain rfl := Option.some.inj taken
      refine ⟨h.core.frame h.core.present rfl h.core.recorded h.core.memory (fun _ => Nat.le_refl _) rfl rfl, trivial,
        ?_⟩
      intro other found _ present
      have before := h.waiting (by rw [phase]; nofun) present
      exact ⟨before.late, before.unlooked, before.logged, before.few⟩
    · cases taken
  | sampleKey stat =>
    simp only [step] at taken
    split at taken
    · rename_i name rest phase
      obtain rfl := Option.some.inj taken
      have recorded := h.phase
      rw [phase] at recorded
      have stat : stat = true := calm
      refine ⟨h.core.frame h.core.present rfl h.core.recorded h.core.memory (fun _ => Nat.le_refl _) rfl rfl,
        ⟨recorded, by rw [stat, if_pos rfl]⟩, ?_⟩
      intro other found _ present
      have before := h.waiting (by rw [phase]; nofun) present
      exact ⟨before.late, before.unlooked, before.logged, before.few⟩
    · cases taken
  | archiveDuplicate stamp moves =>
    simp only [step] at taken
    split at taken
    · rename_i name key rest phase
      split_ifs at taken with duplicate
      obtain rfl := Option.some.inj taken
      exact archiveDuplicate_inv h phase duplicate (fun dir => calm dir name (by rw [State.visiting, phase])) moves
    · cases taken
  | checkStable stat now =>
    simp only [step] at taken
    split at taken
    · rename_i name key rest phase
      by_cases duplicate : key ∈ s.processed
      · rw [if_pos duplicate] at taken
        cases taken
      · rw [if_neg duplicate] at taken
        obtain rfl := Option.some.inj taken
        refine look_inv h phase duplicate (fun found there => ?_) now
        cases stat with
        | true => rfl
        | false => cases there
    · cases taken
  | importZip outcome =>
    cases phase : s.phase with
    | stable name key rest => exact importZip_inv h phase taken
    | _ => simp [step, phase] at taken
  | settle stamp moves =>
    cases phase : s.phase with
    | attempted name key outcome rest =>
      exact settle_inv h phase (fun dir => calm dir name (by rw [State.visiting, phase])) taken
    | _ => simp [step, phase] at taken
  | record =>
    simp only [step] at taken
    split at taken
    · rename_i name key rest phase
      obtain rfl := Option.some.inj taken
      exact record_inv h phase
    · cases taken
  | restart pid =>
    obtain rfl := Option.some.inj taken
    refine ⟨h.core.frame h.core.present rfl h.core.recorded nofun (fun _ => Nat.zero_le _) rfl rfl, trivial, ?_⟩
    exact fun _ _ => ⟨Nat.zero_le _, fun _ => Nat.zero_le _, Nat.zero_le _, Nat.zero_le _⟩

/-- In runs that leave the files alone while they are visited, every file in the archive of the
processed ones was accepted, none is overwritten or taken twice, and none is left behind. -/
theorem undisturbed_inbox_delivered {settings : Settings} {pid : ℕ} {as : List (Action Name Content)}
    {s : State Name Content} (h : Run (step settings) Undisturbed (start pid) as s) : Delivered s := by
  have inv := h.invariant (start_inv settings pid) (fun _ _ _ inv calm taken => step_inv inv calm taken)
  refine ⟨?_, inv.core.processed, inv.core.failed, inv.core.kept, inv.core.once⟩
  intro name file free present
  have waiting := inv.waiting (attempting_of_visiting free) present
  have few := waiting.few
  exact ⟨waiting.late, waiting.logged, by omega⟩

/-- A file whose import is in conflict with an instance is archived, and was never imported. -/
theorem conflict_archived : ¬ ∀ settings pid as (s : State ℕ ℕ), exec (step settings) (start pid) as = some s →
    ∀ dest file, .archived dest file ∈ s.log → dest.dir = .processed →
      ∃ repeated, .attempt dest.name file .imported repeated ∈ s.log := by
  intro claim
  obtain ⟨s, run, log⟩ : ∃ s : State ℕ ℕ, exec (step ⟨fun _ => 0, 5⟩) (start 7)
      [.put 0 ⟨1, 10, 100⟩, .scan, .sampleKey true, .checkStable true 1, .finish, .scan, .sampleKey true,
        .checkStable true 6, .importZip .conflict, .settle "20260101-000000" true] = some s ∧
      s.log = [.archived ⟨.processed, 0, "20260101-000000", none⟩ ⟨1, 10, 100⟩,
        .attempt 0 ⟨1, 10, 100⟩ .conflict false] := ⟨_, rfl, rfl⟩
  have imported := claim _ _ _ s run
  rw [log] at imported
  obtain ⟨repeated, listed⟩ := imported _ _ List.mem_cons_self rfl
  simp at listed

/-- A file that is imported, archived and recorded. -/
theorem undisturbed_inbox_delivered_import : ∃ s : State ℕ ℕ, s.recorded = [.stamped 0 10 100, .bare 0] ∧
    s.inbox 0 = none ∧ Delivered s := by
  obtain ⟨s, run, recorded, gone⟩ : ∃ s : State ℕ ℕ, Run (step ⟨fun _ => 0, 5⟩) Undisturbed (start 7)
      [.put 0 ⟨1, 10, 100⟩, .scan, .sampleKey true, .checkStable true 1, .finish, .scan, .sampleKey true,
        .checkStable true 6, .importZip .imported, .settle "20260101-000000" true, .record] s ∧
      s.recorded = [.stamped 0 10 100, .bare 0] ∧ s.inbox 0 = none := by
    refine ⟨_, .cons ⟨nofun, nofun⟩ rfl <| .cons trivial rfl <| .cons rfl rfl <| .cons trivial rfl <|
      .cons trivial rfl <| .cons trivial rfl <| .cons rfl rfl <| .cons trivial rfl <| .cons trivial rfl <|
      .cons (fun dir name _ => ?_) rfl <| .cons trivial rfl <| .refl _, rfl, rfl⟩
    exact Nat.zero_lt_two
  exact ⟨s, recorded, gone, undisturbed_inbox_delivered run⟩

end LocalWebAccess.InboxWatcher
