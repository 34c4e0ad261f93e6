import Mathlib.Data.List.Basic
import Mathlib.Data.Nat.Notation

/-!
# The rescue of the data of a container

`rescue_container_data` tries the data directories of the old container in turn and
copies each into the same `data/`. Before a rebuild, and before the `down` of a start
that has found the mount drifted, it decides whether the container may go.

A copy may stop after any of its files. Every entry of `data/` has the copy that wrote
it last, which the code does not record.
-/
namespace LocalWebAccess.RescueCopies

abbrev Bytes := List UInt8
abbrev Path := String

inductive Node where
  | file (content : Bytes)
  | dir
  deriving DecidableEq, Repr

/-- How a `docker cp` ends. -/
inductive Report where
  | ok
  | failed
  | raised
  deriving DecidableEq, Repr

/-- A candidate directory of the container, and which of its entries a `docker cp` copies. -/
structure Copy where
  source : List (Path × Node)
  copied : Path → Bool
  report : Report

namespace Copy

def written (c : Copy) : List (Path × Node) := c.source.filter (fun e => c.copied e.1)

def paths (c : Copy) : List Path := c.written.map Prod.fst

end Copy

inductive Origin where
  | host
  | copy (i : ℕ) (report : Report)
  | bound
  deriving DecidableEq, Repr

structure Entry where
  path : Path
  node : Node
  origin : Origin
  deriving DecidableEq, Repr

/-- What is written replaces what has its path. -/
def overlay (origin : Origin) (written : List (Path × Node)) (data : List Entry) : List Entry :=
  written.map (fun e => ⟨e.1, e.2, origin⟩) ++ data.filter (fun e => !(written.map Prod.fst).contains e.path)

def isFile : Node → Bool
  | .file _ => true
  | .dir => false

def countFiles (data : List Entry) : ℕ := data.countP (fun e => isFile e.node)

/-- `any(host_data.iterdir())` -/
def hostHasData (data : List Entry) : Bool := !data.isEmpty

inductive Exn where
  | dockerError
  | hostingError
  deriving DecidableEq, Repr

/-- What a rescue meets. `bound` is how `rescue_bound_directory` ends where the instance has a Flask mount:
the files it writes below `data/instance`. -/
structure Attempt where
  sqlite : Bool
  drifted : Bool
  readable : Bool
  container : Bool
  data : List (Path × Node)
  copies : List Copy
  bound : Option (Except Exn (List (Path × Bytes)))
  stops : Bool

/-- The loop of `rescue_container_data`. -/
def copyLoop (i : ℕ) : List Copy → List Entry → Except Exn ℕ × List Entry
  | [], data => (.ok 0, data)
  | c :: rest, data =>
    let data := overlay (.copy i c.report) c.written data
    match c.report with
    | .raised => (.error .dockerError, data)
    | .failed => copyLoop (i + 1) rest data
    | .ok => if hostHasData data then (.ok (countFiles data), data) else copyLoop (i + 1) rest data

section program

variable (a : Attempt)

def rescueContainerData (data : List Entry) : Except Exn ℕ × List Entry :=
  if !a.readable || hostHasData data then (.ok 0, data)
  else if !a.container then (.ok 0, data)
  else copyLoop 0 a.copies data

/-- The files that the merge of the Flask directory writes. -/
def boundFiles : List (Path × Node) :=
  match a.bound with
  | some (.ok files) => files.map (fun e => (e.1, .file e.2))
  | _ => []

def rescueBoundDirectory (data : List Entry) : Except Exn ℕ × List Entry :=
  match a.bound with
  | some (.error e) => (.error e, data)
  | _ => (.ok (boundFiles a).length, overlay .bound (boundFiles a) data)

/-- `_rescue_container_data_before_rebuild` -/
def rescueContainerDataBeforeRebuild (strict : Bool) : Except Exn Unit × List Entry :=
  let data := a.data.map (fun e => ⟨e.1, e.2, .host⟩)
  if !a.sqlite && a.bound.isNone then (.ok (), data)
  else if strict && (!a.readable || hostHasData data) then (.error .hostingError, data)
  else
    match if a.sqlite then rescueContainerData a data else (.ok 0, data) with
    | (.error _, data) => (if strict || a.bound.isSome then .error .hostingError else .ok (), data)
    | (.ok copied, data) =>
      match rescueBoundDirectory a data with
      | (.error _, data) => (if strict || a.bound.isSome then .error .hostingError else .ok (), data)
      | (.ok merged, data) => (if strict && copied + merged = 0 then .error .hostingError else .ok (), data)

end program

/-- How a start with a drifted mount ends; `proceeded` says that it came to `stop_or_abort`. -/
structure Started where
  result : Except Exn Unit
  data : List Entry
  proceeded : Bool
  removed : Bool

/-- The branch of `start_container` for a drifted mount, up to the `down`. -/
def startContainerDrifted (a : Attempt) : Started :=
  match rescueContainerDataBeforeRebuild a true with
  | (.error e, data) => ⟨.error e, data, false, false⟩
  | (.ok _, data) => ⟨if a.stops then .ok () else .error .hostingError, data, true, a.stops⟩

/-! ## What the rescue is for -/

/-- `data/` has the files of one candidate directory, and no others. -/
def WholeCopy (copies : List Copy) (data : List Entry) : Prop :=
  ∃ before c after, copies = before ++ c :: after ∧
    (∀ e ∈ data, isFile e.node → e.origin = .copy before.length c.report) ∧
    ∀ p b, (p, .file b) ∈ c.source → ∃ e ∈ data, e.path = p ∧ e.node = .file b

/-- A file that a copy which did not succeed has left. -/
def Leftover (e : Entry) : Prop := isFile e.node ∧ ∃ i report, e.origin = .copy i report ∧ report ≠ .ok

/-- Where a later rebuild finds data, and so takes it for persisted, no file is left by a failed copy. -/
def Persisted (data : List Entry) : Prop := hostHasData data → ∀ e ∈ data, ¬ Leftover e

structure Safe (a : Attempt) : Prop where
  proceeds : a.sqlite → a.drifted → (startContainerDrifted a).proceeded = true →
    a.data = [] ∧ WholeCopy a.copies (startContainerDrifted a).data
  aborts : a.sqlite → a.drifted → (startContainerDrifted a).proceeded = false →
    (∃ e, (startContainerDrifted a).result = .error e) ∧ (startContainerDrifted a).removed = false
  drift : a.sqlite → a.drifted → Persisted (startContainerDrifted a).data
  rebuild : Persisted (rescueContainerDataBeforeRebuild a false).2

/-- The copies that are tried; `found` says that there is something in `data/`. -/
def tried (found : Bool) : List Copy → List Copy
  | [] => []
  | c :: rest =>
    match c.report with
    | .raised => [c]
    | .failed => c :: tried (found || !c.written.isEmpty) rest
    | .ok => if found || !c.written.isEmpty then [c] else c :: tried false rest

namespace Attempt

variable (a : Attempt)

def tried : List Copy := if a.container then RescueCopies.tried false a.copies else []

def BoundWrites (p : Path) : Prop := (∀ c ∈ a.tried, c.report ≠ .raised) ∧ p ∈ (boundFiles a).map Prod.fst

/-- Every file that a failed copy has written is written again. -/
def Rewritten : Prop :=
  ∀ before c after, a.tried = before ++ c :: after → c.report ≠ .ok → ∀ p b, (p, .file b) ∈ c.written →
    (∃ c' ∈ after, p ∈ c'.paths) ∨ a.BoundWrites p

/-- Some file is rescued, and nothing raises. -/
def Rescues : Prop :=
  (∀ c ∈ a.tried, c.report ≠ .raised) ∧ (∀ e, a.bound ≠ some (.error e)) ∧
    ((∃ c ∈ a.tried, c.report = .ok ∧ ∃ p b, (p, .file b) ∈ c.written) ∨ boundFiles a ≠ [])

/-- The Flask directory adds nothing, and the copy that succeeds has copied every file. -/
def Whole : Prop :=
  boundFiles a = [] ∧ ∀ c ∈ a.tried, c.report = .ok → (∃ p b, (p, .file b) ∈ c.written) →
    ∀ p b, (p, .file b) ∈ c.source → (p, .file b) ∈ c.written

/-- Whatever a failed copy leaves is written again, and what goes on has one whole directory. -/
def Sound : Prop :=
  a.sqlite → a.readable → a.data = [] → a.Rewritten ∧ (a.drifted → a.Rescues → a.Whole)

end Attempt

/-! ## What the loop leaves -/

/-- The copies one over the other. -/
def laid (i : ℕ) : List Copy → List Entry → List Entry
  | [], data => data
  | c :: rest, data => laid (i + 1) rest (overlay (.copy i c.report) c.written data)

variable {a : Attempt} {i : ℕ} {c : Copy} {copies : List Copy} {data : List Entry} {e : Entry}
  {written : List (Path × Node)} {origin : Origin}

theorem mem_overlay : e ∈ overlay origin written data ↔
    ((e.path, e.node) ∈ written ∧ e.origin = origin) ∨ (e ∈ data ∧ e.path ∉ written.map Prod.fst) := by
  unfold overlay
  rw [List.mem_append, List.mem_map, List.mem_filter]
  constructor
  · rintro (⟨w, mem, rfl⟩ | ⟨mem, other⟩)
    · exact .inl ⟨mem, rfl⟩
    · exact .inr ⟨mem, by simpa using other⟩
  · rintro (⟨mem, rfl⟩ | ⟨mem, other⟩)
    · exact .inl ⟨_, mem, rfl⟩
    · exact .inr ⟨mem, by simpa using other⟩

@[simp] theorem overlay_nil : overlay origin [] data = data := by
  simp [overlay]

theorem hostHasData_overlay (origin : Origin) :
    hostHasData (overlay origin written data) = (hostHasData data || !written.isEmpty) := by
  cases written with
  | nil => simp
  | cons w rest => simp [hostHasData, overlay]

/-- An entry is of the last copy that wrote its path, or was there before. -/
theorem mem_laid : e ∈ laid i copies data ↔ (e ∈ data ∧ ∀ c ∈ copies, e.path ∉ c.paths) ∨
    ∃ before c after, copies = before ++ c :: after ∧ (e.path, e.node) ∈ c.written ∧
      e.origin = .copy (i + before.length) c.report ∧ ∀ c' ∈ after, e.path ∉ c'.paths := by
  induction copies generalizing i data with
  | nil =>
    constructor
    · intro mem
      exact .inl ⟨mem, by simp⟩
    · rintro (⟨mem, -⟩ | ⟨before, c, after, split, -⟩)
      · exact mem
      · simp at split
  | cons c rest ih =>
    rw [laid, ih, mem_overlay]
    constructor
    · rintro (⟨⟨mem, origin⟩ | ⟨mem, other⟩, later⟩ | ⟨before, c', after, rfl, mem, origin, later⟩)
      · exact .inr ⟨[], c, rest, rfl, mem, origin, later⟩
      · refine .inl ⟨mem, fun c' among => ?_⟩
        rcases List.mem_cons.mp among with rfl | among
        · exact other
        · exact later c' among
      · refine .inr ⟨c :: before, c', after, rfl, mem, ?_, later⟩
        rw [origin, List.length_cons]
        congr 1
        omega
    · rintro (⟨mem, later⟩ | ⟨before, c', after, split, mem, origin, later⟩)
      · exact .inl ⟨.inr ⟨mem, later c (List.mem_cons_self ..)⟩,
          fun c' among => later c' (List.mem_cons_of_mem _ among)⟩
      · cases before with
        | nil =>
          cases split
          exact .inl ⟨.inl ⟨mem, origin⟩, later⟩
        | cons first before =>
          cases split
          refine .inr ⟨before, c', after, rfl, mem, ?_, later⟩
          rw [origin, List.length_cons]
          congr 1
          omega

theorem copyLoop_data : (copyLoop i copies data).2 = laid i (tried (hostHasData data) copies) data := by
  induction copies generalizing i data with
  | nil => rfl
  | cons c rest ih =>
    unfold copyLoop tried
    cases report : c.report with
    | raised => simp [laid, report]
    | failed =>
      simp only
      rw [ih, hostHasData_overlay, laid, report]
    | ok =>
      simp only [hostHasData_overlay]
      split_ifs with found
      · simp [laid, report]
      · rw [ih, hostHasData_overlay, laid, report]
        simp only [Bool.not_eq_true] at found
        rw [found]

/-- The loop raises where a copy that is tried does. -/
theorem copyLoop_error_iff : (∃ exc, (copyLoop i copies data).1 = .error exc) ↔
    ∃ c ∈ tried (hostHasData data) copies, c.report = .raised := by
  induction copies generalizing i data with
  | nil => simp [copyLoop, tried]
  | cons c rest ih =>
    unfold copyLoop tried
    cases report : c.report with
    | raised => simp [report]
    | failed =>
      simp only
      rw [ih, hostHasData_overlay]
      simp [report]
    | ok =>
      simp only [hostHasData_overlay]
      split_ifs with found
      · simp [report]
      · rw [ih, hostHasData_overlay]
        simp only [Bool.not_eq_true] at found
        rw [found]
        simp [report]

/-- A loop that counts files counts those it leaves. -/
theorem copyLoop_count {n : ℕ} (returned : (copyLoop i copies data).1 = .ok n) :
    n = 0 ∨ n = countFiles (copyLoop i copies data).2 := by
  induction copies generalizing i data with
  | nil =>
    cases returned
    exact .inl rfl
  | cons c rest ih =>
    unfold copyLoop at returned ⊢
    cases report : c.report with
    | raised =>
      rw [report] at returned
      cases returned
    | failed =>
      rw [report] at returned
      exact ih returned
    | ok =>
      rw [report] at returned
      simp only at returned ⊢
      split_ifs at returned ⊢ with found
      · cases returned
        exact .inr rfl
      · exact ih returned

/-- A copy that succeeds and writes something is the last one, and its files are counted. -/
theorem copyLoop_ended {before after : List Copy} (split : tried (hostHasData data) copies = before ++ c :: after)
    (succeeded : c.report = .ok) (nonempty : c.written ≠ []) :
    after = [] ∧ (copyLoop i copies data).1 = .ok (countFiles (copyLoop i copies data).2) := by
  induction copies generalizing i data before with
  | nil => simp [tried] at split
  | cons first rest ih =>
    unfold tried at split
    unfold copyLoop
    cases report : first.report with
    | raised =>
      rw [report] at split
      obtain ⟨-, rfl, -⟩ := List.append_eq_singleton_iff.mp split.symm |>.resolve_right
        (by simp) |>.imp id List.cons.inj
      rw [succeeded] at report
      cases report
    | failed =>
      rw [report] at split
      simp only at split ⊢
      cases before with
      | nil =>
        cases split
        rw [succeeded] at report
        cases report
      | cons head before =>
        obtain ⟨-, split⟩ := List.cons.inj split
        rw [← hostHasData_overlay (.copy i .failed)] at split
        exact ih split
    | ok =>
      rw [report] at split
      simp only [hostHasData_overlay] at split ⊢
      split_ifs at split ⊢ with found
      · cases before with
        | nil => exact ⟨(List.cons.inj split).2.symm, rfl⟩
        | cons head before => simp at split
      · simp only [Bool.not_eq_true] at found
        cases before with
        | nil =>
          obtain ⟨rfl, -⟩ := List.cons.inj split
          simp [nonempty] at found
        | cons head before =>
          obtain ⟨-, split⟩ := List.cons.inj split
          rw [← found, ← hostHasData_overlay (.copy i .ok)] at split
          exact ih split

/-- The copies that are tried come first. -/
theorem tried_prefix (found : Bool) : ∃ others, copies = tried found copies ++ others := by
  induction copies generalizing found with
  | nil => exact ⟨[], rfl⟩
  | cons c rest ih =>
    unfold tried
    split
    · exact ⟨rest, rfl⟩
    · obtain ⟨others, split⟩ := ih (found || !c.written.isEmpty)
      exact ⟨others, congrArg (c :: ·) split⟩
    · split_ifs
      · exact ⟨rest, rfl⟩
      · obtain ⟨others, split⟩ := ih false
        exact ⟨others, congrArg (c :: ·) split⟩

/-! ## What a rescue from an empty directory leaves -/

theorem rescue_data (readable : a.readable = true) : (rescueContainerData a []).2 = laid 0 a.tried [] := by
  unfold rescueContainerData Attempt.tried
  cases a.container
  · simp [laid, hostHasData]
  · have loop : (copyLoop 0 a.copies []).2 = laid 0 (tried (hostHasData []) a.copies) [] := copyLoop_data
    simpa [readable, hostHasData] using loop

theorem rescue_error_iff (readable : a.readable = true) :
    (∃ exc, (rescueContainerData a []).1 = .error exc) ↔ ∃ c ∈ a.tried, c.report = .raised := by
  unfold rescueContainerData Attempt.tried
  cases a.container
  · simp
  · have loop : (∃ exc, (copyLoop 0 a.copies []).1 = .error exc) ↔
        ∃ c ∈ tried (hostHasData []) a.copies, c.report = .raised := copyLoop_error_iff
    simpa [readable, hostHasData] using loop

theorem rescue_count (readable : a.readable = true) {n : ℕ} (returned : (rescueContainerData a []).1 = .ok n) :
    n = 0 ∨ n = countFiles (laid 0 a.tried []) := by
  rw [← rescue_data readable]
  unfold rescueContainerData at returned ⊢
  cases container : a.container
  · simp [container] at returned
    exact .inl returned.symm
  · simp only [readable, hostHasData, container] at returned ⊢
    exact copyLoop_count returned

theorem rescue_ended {before after : List Copy} (readable : a.readable = true)
    (split : a.tried = before ++ c :: after) (succeeded : c.report = .ok) (nonempty : c.written ≠ []) :
    after = [] ∧ (rescueContainerData a []).1 = .ok (countFiles (laid 0 a.tried [])) := by
  rw [← rescue_data readable]
  unfold rescueContainerData
  unfold Attempt.tried at split
  cases container : a.container
  · simp [container] at split
  · simp only [container, if_true] at split
    have start : tried (hostHasData []) a.copies = before ++ c :: after := split
    have loop := copyLoop_ended (i := 0) start succeeded nonempty
    simpa [readable, hostHasData] using loop

/-- What is in `data/` when the rescue of an empty directory has ended. -/
def Attempt.left (a : Attempt) : List Entry :=
  if ∃ c ∈ a.tried, c.report = .raised then laid 0 a.tried []
  else overlay .bound (boundFiles a) (laid 0 a.tried [])

theorem beforeRebuild_data (sqlite : a.sqlite = true) (readable : a.readable = true) (empty : a.data = [])
    (strict : Bool) : (rescueContainerDataBeforeRebuild a strict).2 = a.left := by
  have raises := rescue_error_iff readable
  unfold rescueContainerDataBeforeRebuild Attempt.left
  rw [← rescue_data readable]
  rcases run : rescueContainerData a [] with ⟨exc | n, data⟩
  · rw [if_pos (raises.mp ⟨exc, by rw [run]⟩)]
    simp [sqlite, readable, empty, hostHasData, run]
  · have goes : ¬ ∃ c ∈ a.tried, c.report = .raised := by
      intro stopped
      obtain ⟨exc, error⟩ := raises.mpr stopped
      rw [run] at error
      cases error
    rw [if_neg goes]
    rcases bound : a.bound with _ | (exc | files) <;>
      simp [sqlite, readable, empty, hostHasData, run, rescueBoundDirectory, boundFiles, bound]

/-- An entry of a copy, of those that are tried. -/
theorem mem_laid_tried : e ∈ laid 0 a.tried [] ↔ ∃ before c after, a.tried = before ++ c :: after ∧
    (e.path, e.node) ∈ c.written ∧ e.origin = .copy before.length c.report ∧ ∀ c' ∈ after, e.path ∉ c'.paths := by
  rw [mem_laid]
  simp

theorem mem_left_of_copy (mem : e ∈ laid 0 a.tried []) (kept : ¬ a.BoundWrites e.path) : e ∈ a.left := by
  unfold Attempt.left
  split_ifs with stopped
  · exact mem
  · refine mem_overlay.mpr (.inr ⟨mem, fun written => kept ⟨fun c among raised => stopped ⟨c, among, raised⟩, written⟩⟩)

theorem copy_of_mem_left (mem : e ∈ a.left) : (e ∈ laid 0 a.tried [] ∧ ¬ a.BoundWrites e.path) ∨
    (e.origin = .bound ∧ a.BoundWrites e.path) := by
  unfold Attempt.left at mem
  split_ifs at mem with stopped
  · obtain ⟨c, among, raised⟩ := stopped
    exact .inl ⟨mem, fun writes => writes.1 c among raised⟩
  · have goes : ∀ c ∈ a.tried, c.report ≠ .raised := fun c among raised => stopped ⟨c, among, raised⟩
    rcases mem_overlay.mp mem with ⟨written, origin⟩ | ⟨mem, other⟩
    · exact .inr ⟨origin, goes, List.mem_map_of_mem (f := Prod.fst) written⟩
    · exact .inl ⟨mem, fun writes => other writes.2⟩

/-- No file is left by a failed copy where every such file is written again. -/
theorem persisted_left_iff : Persisted a.left ↔ a.Rewritten := by
  constructor
  · intro persisted before c after split failed p b written
    by_contra kept
    rw [not_or] at kept
    obtain ⟨later, unbound⟩ := kept
    have mem : (⟨p, .file b, .copy before.length c.report⟩ : Entry) ∈ a.left := by
      refine mem_left_of_copy (mem_laid_tried.mpr ⟨before, c, after, split, written, rfl,
        fun c' among again => ?_⟩) unbound
      exact later ⟨c', among, again⟩
    have has : hostHasData a.left = true := by
      cases left : a.left with
      | nil =>
        rw [left] at mem
        cases mem
      | cons => rfl
    exact persisted has _ mem ⟨rfl, _, _, rfl, failed⟩
  · rintro rewritten - ⟨p, node, origin⟩ mem ⟨file, i, report, rfl, failed⟩
    rcases copy_of_mem_left mem with ⟨mem, unbound⟩ | ⟨bound, -⟩
    · obtain ⟨before, c, after, split, written, origin, later⟩ := mem_laid_tried.mp mem
      obtain ⟨-, rfl⟩ := Origin.copy.inj origin
      cases node with
      | dir => cases file
      | file b =>
        rcases rewritten before c after split failed p b written with ⟨c', among, again⟩ | writes
        · exact later c' among again
        · exact unbound writes
    · cases bound

/-- Nothing is copied into data that is there, or cannot be looked at. -/
theorem beforeRebuild_persisted (still : ¬ (a.sqlite = true ∧ a.readable = true ∧ a.data = [])) (strict : Bool) :
    Persisted (rescueContainerDataBeforeRebuild a strict).2 := by
  have untouched : (if a.sqlite then rescueContainerData a (a.data.map (fun e => ⟨e.1, e.2, .host⟩))
      else (.ok 0, a.data.map (fun e => ⟨e.1, e.2, .host⟩))) = (.ok 0, a.data.map (fun e => ⟨e.1, e.2, .host⟩)) := by
    split_ifs with sqlite
    · unfold rescueContainerData
      rw [if_pos]
      by_cases readable : a.readable = true
      · have nonempty : a.data ≠ [] := fun empty => still ⟨sqlite, readable, empty⟩
        simp [hostHasData, nonempty]
      · simp [readable]
    · rfl
  have origins : ∀ e ∈ (rescueContainerDataBeforeRebuild a strict).2, e.origin = .host ∨ e.origin = .bound := by
    have host : ∀ e ∈ a.data.map (fun e => (⟨e.1, e.2, .host⟩ : Entry)), e.origin = .host ∨ e.origin = .bound := by
      intro e mem
      obtain ⟨w, -, rfl⟩ := List.mem_map.mp mem
      exact .inl rfl
    have overlaid : ∀ e ∈ overlay .bound (boundFiles a) (a.data.map (fun e => (⟨e.1, e.2, .host⟩ : Entry))),
        e.origin = .host ∨ e.origin = .bound := by
      intro e mem
      rcases mem_overlay.mp mem with ⟨-, origin⟩ | ⟨mem, -⟩
      · exact .inr origin
      · exact host e mem
    unfold rescueContainerDataBeforeRebuild
    simp only [untouched, rescueBoundDirectory]
    rcases a.bound with _ | (exc | files)
    all_goals split_ifs <;> first | exact host | exact overlaid
  rintro - e mem ⟨-, i, report, origin, -⟩
  rcases origins e mem with host | bound
  · rw [origin] at host
    cases host
  · rw [origin] at bound
    cases bound

/-! ## The start with a drifted mount -/

theorem drifted_data : (startContainerDrifted a).data = (rescueContainerDataBeforeRebuild a true).2 := by
  unfold startContainerDrifted
  rcases rescueContainerDataBeforeRebuild a true with ⟨_ | _, _⟩ <;> rfl

theorem drifted_aborts (stopped : (startContainerDrifted a).proceeded = false) :
    (∃ e, (startContainerDrifted a).result = .error e) ∧ (startContainerDrifted a).removed = false := by
  unfold startContainerDrifted at stopped ⊢
  rcases run : rescueContainerDataBeforeRebuild a true with ⟨exc | _, data⟩
  · exact ⟨⟨exc, rfl⟩, rfl⟩
  · rw [run] at stopped
    cases stopped

/-- A start does not go on over data that is there, or cannot be looked at. -/
theorem drifted_stops (sqlite : a.sqlite = true) (still : ¬ (a.readable = true ∧ a.data = [])) :
    (startContainerDrifted a).proceeded = false := by
  have refuses : (rescueContainerDataBeforeRebuild a true).1 = .error .hostingError := by
    unfold rescueContainerDataBeforeRebuild
    by_cases readable : a.readable = true
    · have nonempty : a.data ≠ [] := fun empty => still ⟨readable, empty⟩
      simp [sqlite, hostHasData, nonempty]
    · simp [sqlite, readable]
  unfold startContainerDrifted
  rcases run : rescueContainerDataBeforeRebuild a true with ⟨exc | _, data⟩
  · rfl
  · rw [run] at refuses
    cases refuses

/-- The start goes on where nothing raises and some file is counted. -/
theorem drifted_proceeds_iff (sqlite : a.sqlite = true) (readable : a.readable = true) (empty : a.data = []) :
    (startContainerDrifted a).proceeded = true ↔ ∃ n, (rescueContainerData a []).1 = .ok n ∧
      (∀ e, a.bound ≠ some (.error e)) ∧ 0 < n + (boundFiles a).length := by
  unfold startContainerDrifted rescueContainerDataBeforeRebuild
  rcases run : rescueContainerData a [] with ⟨exc | n, data⟩
  · simp [sqlite, readable, empty, hostHasData, run]
  · rcases bound : a.bound with _ | (exc | files)
    · simp only [sqlite, readable, empty, hostHasData, run, rescueBoundDirectory, bound, boundFiles, List.map_nil]
      by_cases counted : n = 0 <;> simp [counted, Nat.pos_iff_ne_zero]
    · simp [sqlite, readable, empty, hostHasData, run, rescueBoundDirectory, bound]
    · simp only [sqlite, readable, empty, hostHasData, run, rescueBoundDirectory, bound, boundFiles, List.map_nil]
      by_cases counted : n + files.length = 0
      · have zero : n = 0 := by omega
        have nil : files = [] := List.length_eq_zero_iff.mp (by omega)
        simp [zero, nil]
      · have pos : 0 < n + files.length := Nat.pos_of_ne_zero counted
        have kept : ¬ (n = 0 ∧ files = []) := fun both => counted (by simp [both.1, both.2])
        simpa [kept] using pos

/-- A file that is left by a copy is of one that succeeded. -/
theorem succeeded_of_rewritten (rewritten : a.Rewritten) (mem : e ∈ laid 0 a.tried []) (file : isFile e.node = true)
    (unbound : ¬ a.BoundWrites e.path) : ∃ before c after, a.tried = before ++ c :: after ∧
      (e.path, e.node) ∈ c.written ∧ e.origin = .copy before.length c.report ∧ c.report = .ok := by
  obtain ⟨before, c, after, split, written, origin, later⟩ := mem_laid_tried.mp mem
  refine ⟨before, c, after, split, written, origin, ?_⟩
  by_contra failed
  cases node : e.node with
  | dir =>
    rw [node] at file
    cases file
  | file b =>
    rw [node] at written
    rcases rewritten before c after split failed e.path b written with ⟨c', among, again⟩ | writes
    · exact later c' among again
    · exact unbound writes

theorem exists_file_of_isFile {node : Node} (file : isFile node = true) : ∃ b, node = .file b := by
  cases node with
  | dir => cases file
  | file b => exact ⟨b, rfl⟩

theorem countFiles_pos : 0 < countFiles data ↔ ∃ e ∈ data, isFile e.node = true := List.countP_pos_iff

/-- The entry of a file that the last copy has written. -/
theorem mem_laid_last {before : List Copy} {p : Path} {node : Node} (split : a.tried = before ++ [c])
    (written : (p, node) ∈ c.written) : (⟨p, node, .copy before.length c.report⟩ : Entry) ∈ laid 0 a.tried [] :=
  mem_laid_tried.mpr ⟨before, c, [], split, written, rfl, fun _ among => by cases among⟩

/-- The start goes on where some file is rescued. -/
theorem drifted_proceeds_iff_rescues (sqlite : a.sqlite = true) (readable : a.readable = true) (empty : a.data = [])
    (rewritten : a.Rewritten) : (startContainerDrifted a).proceeded = true ↔ a.Rescues := by
  have raises := rescue_error_iff readable
  rw [drifted_proceeds_iff sqlite readable empty]
  constructor
  · rintro ⟨n, returned, unbroken, pos⟩
    refine ⟨fun c among raised => ?_, unbroken, ?_⟩
    · obtain ⟨exc, error⟩ := raises.mpr ⟨c, among, raised⟩
      rw [returned] at error
      cases error
    by_cases bound : boundFiles a = []
    · rw [bound, List.length_nil, Nat.add_zero] at pos
      rcases rescue_count readable returned with rfl | rfl
      · omega
      obtain ⟨e, mem, file⟩ := countFiles_pos.mp pos
      have unbound : ¬ a.BoundWrites e.path := by simp [Attempt.BoundWrites, bound]
      obtain ⟨before, c, after, split, written, -, succeeded⟩ := succeeded_of_rewritten rewritten mem file unbound
      obtain ⟨b, node⟩ := exists_file_of_isFile file
      exact .inl ⟨c, by simp [split], succeeded, e.path, b, node ▸ written⟩
    · exact .inr bound
  · rintro ⟨goes, unbroken, rescued⟩
    cases run : (rescueContainerData a []).1 with
    | error exc =>
      obtain ⟨c, among, raised⟩ := raises.mp ⟨exc, run⟩
      exact absurd raised (goes c among)
    | ok n =>
      refine ⟨n, rfl, unbroken, ?_⟩
      rcases rescued with ⟨c, among, succeeded, p, b, written⟩ | bound
      · have nonempty := List.ne_nil_of_mem written
        obtain ⟨before, after, split⟩ := List.append_of_mem among
        obtain ⟨rfl, counted⟩ := rescue_ended readable split succeeded nonempty
        rw [run] at counted
        obtain rfl := Except.ok.inj counted
        have pos := countFiles_pos.mpr ⟨_, mem_laid_last split written, rfl⟩
        omega
      · have pos := List.length_pos_iff.mpr bound
        omega

/-- Copies at the same place of a list are the same. -/
theorem split_unique {before before' after after' : List Copy} {c' : Copy}
    (split : copies = before ++ c :: after) (split' : copies = before' ++ c' :: after')
    (same : before.length = before'.length) : c = c' := by
  rw [split] at split'
  obtain ⟨-, rest⟩ := List.append_inj split' same
  exact (List.cons.inj rest).1

/-- What a rescue leaves is one whole directory where the last copy is whole and nothing is added to it. -/
theorem wholeCopy_iff (readable : a.readable = true) (rewritten : a.Rewritten) (rescues : a.Rescues) :
    WholeCopy a.copies a.left ↔ a.Whole := by
  have goes : ¬ ∃ c ∈ a.tried, c.report = .raised := fun ⟨c, among, raised⟩ => rescues.1 c among raised
  have leading : ∃ others, a.copies = a.tried ++ others := by
    unfold Attempt.tried
    split_ifs
    · exact tried_prefix false
    · exact ⟨a.copies, rfl⟩
  obtain ⟨others, leading⟩ := leading
  have left : a.left = overlay .bound (boundFiles a) (laid 0 a.tried []) := if_neg goes
  constructor
  · rintro ⟨before, c, after, split, origins, complete⟩
    have bound : boundFiles a = [] := by
      cases files : boundFiles a with
      | nil => rfl
      | cons f rest =>
        obtain ⟨p, node⟩ := f
        have file : isFile node = true := by
          have mem : (p, node) ∈ boundFiles a := by rw [files]; exact List.mem_cons_self ..
          unfold boundFiles at mem
          split at mem
          · obtain ⟨w, -, same⟩ := List.mem_map.mp mem
            cases same
            rfl
          · cases mem
        have mem : (⟨p, node, .bound⟩ : Entry) ∈ a.left := by
          rw [left, files]
          exact mem_overlay.mpr (.inl ⟨List.mem_cons_self .., rfl⟩)
        cases origins _ mem file
    rw [left, bound, overlay_nil] at origins complete
    refine ⟨bound, fun c' among succeeded ⟨p, b, written⟩ => ?_⟩
    have nonempty := List.ne_nil_of_mem written
    obtain ⟨before', after', split'⟩ := List.append_of_mem among
    obtain ⟨rfl, -⟩ := rescue_ended readable split' succeeded nonempty
    have origin := origins _ (mem_laid_last split' written) rfl
    have place : before'.length = before.length := (Origin.copy.inj origin).1
    have split'' : a.copies = before' ++ c' :: others := by rw [leading, split', List.append_assoc]; rfl
    obtain rfl : c' = c := split_unique split'' split place
    intro p b source
    obtain ⟨e, mem, rfl, node⟩ := complete p b source
    obtain ⟨before'', c'', after'', found, copied, origin, -⟩ := mem_laid_tried.mp mem
    have same := origins e mem (by rw [node]; rfl)
    rw [origin] at same
    have place' : before''.length = before'.length := (Origin.copy.inj same).1.trans place.symm
    obtain rfl : c'' = c' := split_unique found split' place'
    rw [← node]
    exact copied
  · rintro ⟨bound, complete⟩
    have unbound (p : Path) : ¬ a.BoundWrites p := by simp [Attempt.BoundWrites, bound]
    obtain ⟨c, among, succeeded, p, b, written⟩ := rescues.2.2.resolve_right (fun added => added bound)
    have nonempty := List.ne_nil_of_mem written
    obtain ⟨before, after, split⟩ := List.append_of_mem among
    obtain ⟨rfl, -⟩ := rescue_ended readable split succeeded nonempty
    refine ⟨before, c, others, by rw [leading, split, List.append_assoc]; rfl, ?_, ?_⟩
    all_goals rw [left, bound, overlay_nil]
    · intro e mem file
      obtain ⟨before', c', after', split', written', origin, succeeded'⟩ :=
        succeeded_of_rewritten rewritten mem file (unbound e.path)
      have nonempty' := List.ne_nil_of_mem written'
      -- a copy that succeeds with a file is the last one
      obtain ⟨rfl, -⟩ := rescue_ended readable split' succeeded' nonempty'
      obtain ⟨rfl, same⟩ := List.append_inj' (split.symm.trans split') rfl
      rw [origin, (List.cons.inj same).1]
    · intro p' b' source
      have copied := complete c among succeeded ⟨p, b, written⟩ p' b' source
      exact ⟨_, mem_laid_last split copied, rfl, rfl⟩

/-- The old container goes only with a whole copy, and no part of a copy is taken for persisted data, exactly
where every file of a failed copy is written again and what goes on has one whole directory. -/
theorem rescue_safe_iff (a : Attempt) : Safe a ↔ a.Sound := by
  by_cases copies : a.sqlite = true ∧ a.readable = true ∧ a.data = []
  · obtain ⟨sqlite, readable, empty⟩ := copies
    have drift : (startContainerDrifted a).data = a.left :=
      drifted_data.trans (beforeRebuild_data sqlite readable empty true)
    have rebuild : (rescueContainerDataBeforeRebuild a false).2 = a.left :=
        beforeRebuild_data sqlite readable empty false
    constructor
    · intro safe _ _ _
      have persisted := safe.rebuild
      rw [rebuild, persisted_left_iff] at persisted
      refine ⟨persisted, fun drifted rescues => ?_⟩
      have proceeds := (drifted_proceeds_iff_rescues sqlite readable empty persisted).mpr rescues
      have whole := (safe.proceeds sqlite drifted proceeds).2
      rw [drift] at whole
      exact (wholeCopy_iff readable persisted rescues).mp whole
    · intro sound
      obtain ⟨rewritten, whole⟩ := sound sqlite readable empty
      have persisted := persisted_left_iff.mpr rewritten
      refine ⟨fun _ drifted proceeds => ⟨empty, ?_⟩, fun _ _ => drifted_aborts, fun _ _ => by rwa [drift],
        by rwa [rebuild]⟩
      have rescues := (drifted_proceeds_iff_rescues sqlite readable empty rewritten).mp proceeds
      rw [drift]
      exact (wholeCopy_iff readable rewritten rescues).mpr (whole drifted rescues)
  · refine iff_of_true ⟨fun sqlite _ proceeds => ?_, fun _ _ => drifted_aborts, fun _ _ => ?_, ?_⟩ ?_
    · rw [drifted_stops sqlite (fun both => copies ⟨sqlite, both⟩)] at proceeds
      cases proceeds
    · rw [drifted_data]
      exact beforeRebuild_persisted copies true
    · exact beforeRebuild_persisted copies false
    · exact fun sqlite readable empty => absurd ⟨sqlite, readable, empty⟩ copies

/-- The first directory is copied in part before the copy fails, and the second one is empty. -/
def partialCopy : Attempt where
  sqlite := true
  drifted := true
  readable := true
  container := true
  data := []
  copies :=
    [⟨[("app.db", .file [1]), ("uploads.db", .file [2])], fun p => p == "app.db", .failed⟩, ⟨[], fun _ => true, .ok⟩]
  bound := none
  stops := true

theorem partial_copy_destroys : ¬ ∀ a, Safe a := by
  intro claim
  have proceeds : (startContainerDrifted partialCopy).proceeded = true := by decide
  have data : (startContainerDrifted partialCopy).data = [⟨"app.db", .file [1], .copy 0 .failed⟩] := by decide
  have persisted := (claim partialCopy).drift rfl rfl
  rw [data] at persisted
  exact persisted rfl _ (List.mem_cons_self ..) ⟨rfl, _, _, rfl, by decide⟩

end LocalWebAccess.RescueCopies
