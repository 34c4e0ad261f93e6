import LocalWebAccess.FileVolumes
import LocalWebAccess.GeneratedFiles
import LocalWebAccess.GuardedRuns
import Mathlib.Algebra.Group.Defs
import Mathlib.Data.UInt

/-!
# Saving the manifest

`InstanceManifest.save` writes the whole document to one temporary name beside
`local-web.json` and renames it. Any number of saves and loads go on at once,
each stops anywhere, and a save that stops leaves its temporary file behind. As
long as no save opens the temporary file of another one, every load reads one
complete document.
-/
namespace LocalWebAccess.ManifestSave
open FileVolumes GuardedRuns

/-- `local-web.json` and the temporary file that every save of it uses. -/
inductive Name where
  | manifest
  | tmp
  deriving DecidableEq, Repr

/-- A save that has opened the temporary file and has not renamed it. -/
structure Save where
  text : Bytes
  file : ℕ
  written : ℕ

/-- A load that has opened the manifest and has not reached its end. -/
structure Load where
  file : ℕ
  got : Bytes

structure State where
  volume : Volume Name UInt8
  saves : ℕ → Option Save
  loads : ℕ → Option Load
  /-- The texts of the saves that have returned, the last one first, and the first manifest. -/
  committed : List Bytes
  /-- What the finished loads have read. -/
  loaded : List Bytes

inductive Action where
  | openTmp (id : ℕ) (text : Bytes)
  | writeTmp (id : ℕ) (count : ℕ)
  | replace (id : ℕ)
  | stop (id : ℕ)
  | openManifest (id : ℕ)
  | readManifest (id : ℕ) (count : ℕ)
  | finishLoad (id : ℕ)

/-- A workspace with a manifest that nobody reads or writes. -/
def start (text : Bytes) : State where
  volume := {
    names := fun | .manifest => some 0 | .tmp => none
    contents := fun _ => text
    fresh := 1
    created := by
      intro name i named
      cases name <;> simp at named
      omega
    unshared := by
      intro a b i ha hb
      cases a <;> cases b <;> first | rfl | simp at ha hb }
  saves := fun _ => none
  loads := fun _ => none
  committed := [text]
  loaded := []

namespace State

def openTmp (s : State) (id : ℕ) (text : Bytes) : State := { s with
  volume := s.volume.openTruncate .tmp
  saves := Function.update s.saves id (some ⟨text, s.volume.opened .tmp, 0⟩) }

def writeTmp (s : State) (id : ℕ) (save : Save) (count : ℕ) : State :=
  let chunk := (save.text.drop save.written).take count
  { s with
    volume := s.volume.writeAt save.file save.written chunk
    saves := Function.update s.saves id (some { save with written := save.written + chunk.length }) }

def endSave (s : State) (id : ℕ) : State := { s with saves := Function.update s.saves id none }

/-- `os.replace`, which raises where another save has taken the temporary file away. -/
def replace (s : State) (id : ℕ) (save : Save) : State :=
  match s.volume.rename .tmp .manifest with
  | none => s.endSave id
  | some volume => { s.endSave id with volume := volume, committed := save.text :: s.committed }

def setLoad (s : State) (id : ℕ) (load : Load) : State :=
  { s with loads := Function.update s.loads id (some load) }

def finishLoad (s : State) (id : ℕ) (load : Load) : State :=
  { s with loads := Function.update s.loads id none, loaded := load.got :: s.loaded }

end State

/-- One step of a save or a load. A save renames once it has written its whole text; a load
ends where nothing is left to read. -/
def step (s : State) : Action → Option State
  | .openTmp id text => if (s.saves id).isNone then some (s.openTmp id text) else none
  | .writeTmp id count => (s.saves id).map (fun save => s.writeTmp id save count)
  | .replace id =>
    match s.saves id with
    | some save => if save.text.length ≤ save.written then some (s.replace id save) else none
    | none => none
  | .stop id => some (s.endSave id)
  | .openManifest id =>
    if (s.loads id).isNone then
      (s.volume.names .manifest).map (fun file => s.setLoad id ⟨file, []⟩)
    else none
  | .readManifest id count =>
    (s.loads id).map (fun load => s.setLoad id
      { load with got := load.got ++ ((s.volume.contents load.file).drop load.got.length).take count })
  | .finishLoad id =>
    match s.loads id with
    | some load =>
      if (s.volume.contents load.file).length ≤ load.got.length then some (s.finishLoad id load) else none
    | none => none

/-- No save opens the temporary file while another save has it open. -/
def Exclusive (s : State) : Action → Prop
  | .openTmp _ _ => ∀ id, s.saves id = none
  | _ => True

/-- The manifest is the text of the last save that has returned, and every load has read the
whole text of some save. -/
structure Intact (s : State) : Prop where
  visible : s.volume.read .manifest = s.committed.head?
  loaded : ∀ text ∈ s.loaded, text ∈ s.committed

/-! ## The invariant of exclusive saves -/

/-- The save that is under way, if any, has its text so far in a file of its own. -/
structure SaveInv (v : Volume Name UInt8) (saves : ℕ → Option Save) : Prop where
  single : ∀ {id id' save save'}, saves id = some save → saves id' = some save' → id = id'
  file : ∀ {id save}, saves id = some save → v.names .tmp = some save.file
  contents : ∀ {id save}, saves id = some save → v.contents save.file = save.text.take save.written
  written : ∀ {id save}, saves id = some save → save.written ≤ save.text.length

/-- A file that is opened for reading is not written any more. -/
structure LoadInv (v : Volume Name UInt8) (committed : List Bytes) (load : Load) : Prop where
  created : load.file < v.fresh
  apart : v.names .tmp ≠ some load.file
  whole : v.contents load.file ∈ committed
  got : load.got = (v.contents load.file).take load.got.length

structure Inv (s : State) : Prop where
  intact : Intact s
  saves : SaveInv s.volume s.saves
  loads : ∀ {id load}, s.loads id = some load → LoadInv s.volume s.committed load

theorem start_inv (text : Bytes) : Inv (start text) where
  intact := ⟨rfl, nofun⟩
  saves := ⟨nofun, nofun, nofun, nofun⟩
  loads := nofun

section steps

variable {s t : State} {id : ℕ}

theorem manifest_ne_opened {file : ℕ} (named : s.volume.names .manifest = some file) :
    file ≠ s.volume.opened .tmp := by
  refine Volume.ne_opened (fun clash => ?_) (s.volume.created named)
  have := s.volume.unshared named clash
  contradiction

theorem openTmp_inv (h : Inv s) (alone : ∀ id, s.saves id = none) (id : ℕ) (text : Bytes) :
    Inv (s.openTmp id text) where
  intact := by
    refine ⟨?_, h.intact.loaded⟩
    have visible := h.intact.visible
    simp only [State.openTmp, Volume.read, Volume.openTruncate_names_of_ne
      (by decide : Name.manifest ≠ Name.tmp)] at visible ⊢
    cases named : s.volume.names .manifest with
    | none => simpa [named] using visible
    | some file =>
      rw [named] at visible
      simp only [Option.map_some] at visible ⊢
      rw [Volume.openTruncate_contents_of_ne (manifest_ne_opened named), visible]
  saves := by
    have own : ∀ {id' save}, (s.openTmp id text).saves id' = some save →
        id' = id ∧ save = ⟨text, s.volume.opened .tmp, 0⟩ := by
      intro id' save active
      by_cases same : id' = id
      · subst same
        simp only [State.openTmp, Function.update_self] at active
        exact ⟨rfl, (Option.some.inj active).symm⟩
      · simp [State.openTmp, same, alone] at active
    refine ⟨fun a b => (own a).1.trans (own b).1.symm, fun a => ?_, fun a => ?_, fun a => ?_⟩
    · rw [(own a).2]
      exact Volume.openTruncate_names_self
    · rw [(own a).2]
      exact Volume.openTruncate_contents_opened
    · rw [(own a).2]
      exact Nat.zero_le _
  loads := by
    intro id' load active
    have old := h.loads active
    have other : load.file ≠ s.volume.opened .tmp := Volume.ne_opened old.apart old.created
    have contents : (s.openTmp id text).volume.contents load.file = s.volume.contents load.file :=
      Volume.openTruncate_contents_of_ne other
    refine ⟨Nat.lt_of_lt_of_le old.created Volume.fresh_le_openTruncate, ?_, ?_, ?_⟩
    · intro clash
      rw [State.openTmp, Volume.openTruncate_names_self] at clash
      exact other (Option.some.inj clash).symm
    · rw [contents]
      exact old.whole
    · rw [contents]
      exact old.got

/-- The next chunk of a text takes the beginning before it further. -/
theorem take_next_chunk (text : Bytes) (start count : ℕ) :
    text.take start ++ (text.drop start).take count =
      text.take (start + ((text.drop start).take count).length) := by
  have chunk : (text.drop start).take count = (text.drop start).take ((text.drop start).take count).length :=
    List.prefix_iff_eq_take.mp (List.take_prefix count (text.drop start))
  rw [List.take_add, ← chunk]

/-- A chunk is appended to what the save has written before. -/
theorem writeTmp_contents (h : Inv s) {save : Save} (active : s.saves id = some save) (count : ℕ) :
    (s.writeTmp id save count).volume.contents save.file =
      save.text.take (save.written + ((save.text.drop save.written).take count).length) := by
  have before := h.saves.contents active
  have offset : save.written = (s.volume.contents save.file).length := by
    rw [before, List.length_take]
    have := h.saves.written active
    omega
  have appended : (s.writeTmp id save count).volume.contents save.file =
      s.volume.contents save.file ++ (save.text.drop save.written).take count := by
    unfold State.writeTmp
    rw [offset]
    exact Volume.writeAt_end
  rw [appended, before, take_next_chunk]

theorem writeTmp_inv (h : Inv s) {save : Save} (active : s.saves id = some save) (count : ℕ) :
    Inv (s.writeTmp id save count) where
  intact := by
    refine ⟨?_, h.intact.loaded⟩
    have visible := h.intact.visible
    simp only [State.writeTmp, Volume.read, Volume.writeAt_names] at visible ⊢
    cases named : s.volume.names .manifest with
    | none => simpa [named] using visible
    | some file =>
      have other : file ≠ save.file := by
        intro clash
        have := s.volume.unshared named (clash ▸ h.saves.file active)
        contradiction
      rw [named] at visible
      simp only [Option.map_some] at visible ⊢
      rw [Volume.writeAt_contents_of_ne other, visible]
  saves := by
    have own : ∀ {id' save'}, (s.writeTmp id save count).saves id' = some save' →
        id' = id ∧ save' =
          { save with written := save.written + ((save.text.drop save.written).take count).length } := by
      intro id' save' found
      by_cases same : id' = id
      · subst same
        simp only [State.writeTmp, Function.update_self] at found
        exact ⟨rfl, (Option.some.inj found).symm⟩
      · simp only [State.writeTmp, Function.update_of_ne same] at found
        exact absurd (h.saves.single found active) same
    refine ⟨fun a b => (own a).1.trans (own b).1.symm, fun a => ?_, fun a => ?_, fun a => ?_⟩
    · rw [(own a).2]
      exact (h.saves.file active : s.volume.names .tmp = some save.file)
    · rw [(own a).2]
      exact writeTmp_contents h active count
    · rw [(own a).2]
      have := h.saves.written active
      simp only [List.length_take, List.length_drop]
      omega
  loads := by
    intro id' load found
    have old := h.loads found
    have other : load.file ≠ save.file := fun clash => old.apart (clash ▸ h.saves.file active)
    have contents : (s.writeTmp id save count).volume.contents load.file = s.volume.contents load.file :=
      Volume.writeAt_contents_of_ne other
    exact ⟨old.created, old.apart, contents ▸ old.whole, contents ▸ old.got⟩

theorem endSave_inv (h : Inv s) (id : ℕ) : Inv (s.endSave id) where
  intact := ⟨h.intact.visible, h.intact.loaded⟩
  saves := by
    have before : ∀ {id' save}, (s.endSave id).saves id' = some save → s.saves id' = some save := by
      intro id' save found
      by_cases same : id' = id
      · simp [State.endSave, same] at found
      · simpa [State.endSave, same] using found
    exact ⟨fun a b => h.saves.single (before a) (before b), fun a => h.saves.file (before a),
      fun a => h.saves.contents (before a), fun a => h.saves.written (before a)⟩
  loads := h.loads

/-- The temporary file that a save renames holds its whole text, and no other save has it open. -/
theorem replace_inv (h : Inv s) {save : Save} (active : s.saves id = some save)
    (complete : save.text.length ≤ save.written) : Inv (s.replace id save) := by
  cases renamed : s.volume.rename .tmp .manifest with
  | none =>
    simp only [State.replace, renamed]
    exact endSave_inv h id
  | some v =>
    simp only [State.replace, renamed]
    obtain ⟨file, named, names, contents, fresh⟩ := Volume.rename_eq_some renamed
    have own : file = save.file := Option.some.inj (named.symm.trans (h.saves.file active))
    have text : v.contents file = save.text := by
      rw [contents, own, h.saves.contents active, List.take_of_length_le complete]
    have ended : ∀ id', (s.endSave id).saves id' = none := by
      intro id'
      by_cases same : id' = id
      · simp [State.endSave, same]
      · cases found : s.saves id' with
        | none => simpa [State.endSave, same] using found
        | some save' => exact absurd (h.saves.single found active) same
    refine ⟨⟨?_, fun got found => List.mem_cons_of_mem _ (h.intact.loaded got found)⟩, ?_, ?_⟩
    · simp [Volume.read, names, text]
    · exact ⟨fun a => by simp [ended] at a, fun a => by simp [ended] at a, fun a => by simp [ended] at a,
        fun a => by simp [ended] at a⟩
    · intro id' load found
      have old := h.loads found
      refine ⟨?_, ?_, ?_, ?_⟩
      · exact fresh ▸ old.created
      · simp [names]
      · exact List.mem_cons_of_mem _ (contents ▸ old.whole)
      · exact contents ▸ old.got

theorem setLoad_inv (h : Inv s) {load : Load} (id : ℕ) (loadInv : LoadInv s.volume s.committed load) :
    Inv (s.setLoad id load) where
  intact := ⟨h.intact.visible, h.intact.loaded⟩
  saves := h.saves
  loads := by
    intro id' load' found
    by_cases same : id' = id
    · subst same
      simp only [State.setLoad, Function.update_self] at found
      exact Option.some.inj found ▸ loadInv
    · simp only [State.setLoad, Function.update_of_ne same] at found
      exact h.loads found

theorem openManifest_loadInv (h : Inv s) {file : ℕ} (named : s.volume.names .manifest = some file) :
    LoadInv s.volume s.committed ⟨file, []⟩ where
  created := s.volume.created named
  apart := fun clash => by
    have := s.volume.unshared named clash
    contradiction
  whole := by
    have visible := h.intact.visible
    simp only [Volume.read, named, Option.map_some] at visible
    exact List.mem_of_mem_head? (by simp [← visible])
  got := by simp

theorem readManifest_loadInv {load : Load} (old : LoadInv s.volume s.committed load) (count : ℕ) :
    LoadInv s.volume s.committed { load with
      got := load.got ++ ((s.volume.contents load.file).drop load.got.length).take count } := by
  refine ⟨old.created, old.apart, old.whole, ?_⟩
  simp only [List.length_append]
  rw [← take_next_chunk, ← old.got]

theorem finishLoad_inv (h : Inv s) {load : Load} (found : s.loads id = some load)
    (done : (s.volume.contents load.file).length ≤ load.got.length) : Inv (s.finishLoad id load) where
  intact := by
    refine ⟨h.intact.visible, fun text read => ?_⟩
    rcases List.mem_cons.mp read with rfl | before
    · have old := h.loads found
      rw [old.got, List.take_of_length_le done]
      exact old.whole
    · exact h.intact.loaded text before
  saves := h.saves
  loads := by
    intro id' load' found'
    by_cases same : id' = id
    · simp [State.finishLoad, same] at found'
    · simp only [State.finishLoad, Function.update_of_ne same] at found'
      exact h.loads found'

end steps

theorem step_inv {s t : State} {a : Action} (h : Inv s) (exclusive : Exclusive s a) (taken : step s a = some t) :
    Inv t := by
  cases a with
  | openTmp id text =>
    simp only [step, Option.ite_none_right_eq_some, Option.some.injEq] at taken
    exact taken.2 ▸ openTmp_inv h exclusive id text
  | writeTmp id count =>
    obtain ⟨save, active, rfl⟩ := Option.map_eq_some_iff.mp taken
    exact writeTmp_inv h active count
  | replace id =>
    cases active : s.saves id with
    | none => simp [step, active] at taken
    | some save =>
      simp only [step, active, Option.ite_none_right_eq_some, Option.some.injEq] at taken
      exact taken.2 ▸ replace_inv h active taken.1
  | stop id =>
    obtain rfl := Option.some.inj taken
    exact endSave_inv h id
  | openManifest id =>
    simp only [step, Option.ite_none_right_eq_some, Option.map_eq_some_iff] at taken
    obtain ⟨-, file, named, rfl⟩ := taken
    exact setLoad_inv h id (openManifest_loadInv h named)
  | readManifest id count =>
    obtain ⟨load, found, rfl⟩ := Option.map_eq_some_iff.mp taken
    exact setLoad_inv h id (readManifest_loadInv (h.loads found) count)
  | finishLoad id =>
    cases found : s.loads id with
    | none => simp [step, found] at taken
    | some load =>
      simp only [step, found, Option.ite_none_right_eq_some, Option.some.injEq] at taken
      exact taken.2 ▸ finishLoad_inv h found taken.1

/-- Saves that never share their temporary file keep the manifest one complete document. -/
theorem exclusive_saves_intact {text : Bytes} {as : List Action} {s : State}
    (h : Run step Exclusive (start text) as s) : Intact s :=
  (h.invariant (start_inv text) (fun _ _ _ inv exclusive taken => step_inv inv exclusive taken)).intact

/-- A save whose text another save has truncated is renamed over the manifest. -/
theorem shared_tmp_torn : ¬ ∀ text as s, exec step (start text) as = some s → Intact s := by
  intro claim
  have intact := claim [48]
    [.openTmp 1 [65, 66], .writeTmp 1 2, .openTmp 2 [67], .replace 1] _ rfl
  exact absurd intact.visible (by decide)

/-- A save that stops after its first byte, a complete one, and a load that reads in two parts. -/
theorem exclusive_saves_intact_stopped : ∃ s, s.loaded = [[67, 68]] ∧ Intact s := by
  have alone : ∀ id, ((start [48]).openTmp 1 [65, 66] |>.endSave 1).saves id = none := by
    intro id
    by_cases same : id = 1 <;> simp [State.endSave, State.openTmp, start, same]
  have run : Run step Exclusive (start [48])
      [.openTmp 1 [65, 66], .stop 1, .openTmp 2 [67, 68], .writeTmp 2 5, .replace 2, .openManifest 7,
        .readManifest 7 1, .readManifest 7 1, .finishLoad 7] _ :=
    .cons (fun _ => rfl) rfl <| .cons trivial rfl <| .cons alone rfl <| .cons trivial rfl <|
      .cons trivial rfl <| .cons trivial rfl <| .cons trivial rfl <| .cons trivial rfl <|
      .cons trivial rfl <| .refl _
  exact ⟨_, rfl, exclusive_saves_intact run⟩

end LocalWebAccess.ManifestSave
