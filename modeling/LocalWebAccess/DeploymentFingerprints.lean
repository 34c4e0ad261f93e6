import LocalWebAccess.CanonicalJson
import LocalWebAccess.SeparatedStreams
import Mathlib.Data.List.Sort

/-!
# Deployment fingerprints

A started container is started again without a build if the fingerprints of its
last deployment are those of the workspace. Each fingerprint is the digest of one
stream of labels and contents, so it is as good as the stream can be read back.
-/
namespace LocalWebAccess.DeploymentFingerprints
open SeparatedStreams CanonicalJson

abbrev Bytes := List UInt8

/-- Names are compared byte by byte. -/
instance lawfulBEqBytes : LawfulBEq Bytes := List.instLawfulBEq

def utf8 (s : String) : Bytes := s.toByteArray.data.toList

/-! ## The source tree -/

/-- A name in a directory. -/
abbrev Name := {name : Bytes // (0 : UInt8) ∉ name}

/-- What is listed in a directory, apart from other directories. -/
inductive Node where
  | regular (content : Bytes)
  | symlink
  | special
  deriving DecidableEq

inductive Tree where
  | node (files : List (Name × Node)) (dirs : List (Name × Tree))

def skipDirs : List Bytes := [".git", "node_modules", "__pycache__", ".venv", "venv", ".mypy_cache"].map utf8

def skipFiles : List Bytes := [".DS_Store", "Thumbs.db"].map utf8

def isOsMetadataName (name : Bytes) : Bool := name = utf8 ".DS_Store" ∨ (utf8 "._").isPrefixOf name

def kept : Name × Node → Option (List Name × Bytes)
  | (name, .regular content) =>
    if name.1 ∈ skipFiles ∨ isOsMetadataName name.1 then none else some ([name], content)
  | (_, .symlink) | (_, .special) => none

mutual

/-- `os.walk`: the files of a directory in the order of their names, then its directories. -/
def walk : Tree → List (List Name × Bytes)
  | .node files dirs =>
    (files.insertionSort (fun a b => a.1.1 ≤ b.1.1)).filterMap kept ++
      ((walkDirs dirs).insertionSort (fun a b => a.1.1 ≤ b.1.1)).flatMap (fun dir =>
        dir.2.map (fun file => (dir.1 :: file.1, file.2)))

def walkDirs : List (Name × Tree) → List (Name × List (List Name × Bytes))
  | [] => []
  | (name, tree) :: dirs => if name.1 ∈ skipDirs then walkDirs dirs else (name, walk tree) :: walkDirs dirs

end

/-- The path relative to the source directory, with slashes. -/
def arcname : List Name → Bytes
  | [] => []
  | [name] => name.1
  | name :: names => name.1 ++ 47 :: arcname names

/-- The relative paths and contents of the files that are hashed. -/
def sourceFiles (tree : Tree) : List (Bytes × Bytes) := (walk tree).map (fun file => (arcname file.1, file.2))

/-! ## The inputs of a deployment -/

/-- A package name as the manifest accepts it. -/
abbrev SystemDep := {name : Bytes // (0 : UInt8) ∉ name}

structure Inputs where
  /-- The directory under `appPath`. -/
  source : Option Tree
  deploymentPlans : List Json
  selectedPlanId : List Char
  dockerfile : Option Bytes
  /-- `lwa_static_wsgi.py` beside the Dockerfile. -/
  helper : Option Bytes
  systemDeps : List SystemDep
  compose : Option Bytes
  env : Option Bytes
  envLocal : Option Bytes
  imageId : String

def planId : Json → Option (List Char)
  | .obj fields =>
    match fields.lookup "planId".toList with
    | some (.str value) => some value
    | _ => none
  | _ => none

def Inputs.plan (d : Inputs) : Option Json :=
  let selected :=
    if d.selectedPlanId = [] then none else d.deploymentPlans.find? (fun plan => planId plan = some d.selectedPlanId)
  match selected.or d.deploymentPlans.head? with
  | some (.obj []) => none
  | plan => plan

/-- The sentinel of a file that is not there. -/
def missing : Bytes := utf8 "<missing>"

def text (file : Option Bytes) : Bytes := file.getD missing

def planStream (plan : Json) : Bytes := utf8 (String.ofList (dumps plan))

def configEntries (d : Inputs) : List (Bytes × Bytes) :=
  [(utf8 "compose", text d.compose), (utf8 "dockerfile", text d.dockerfile), (utf8 "env", text d.env)] ++
    d.helper.toList.map (fun content => (utf8 "static-wsgi", content))

def buildEntries (d : Inputs) : List (Bytes × Bytes) :=
  (utf8 "dockerfile", text d.dockerfile) :: (d.helper.toList.map (fun content => (utf8 "static-wsgi", content)) ++
    if d.systemDeps = [] then [] else [(utf8 "systemDeps", terminated 0 (d.systemDeps.map Subtype.val))])

/-- The Compose file without its `build` sections, as YAML is read and written again. -/
def runtimeEntries (runtimeComposeBytes : Bytes → Bytes) (d : Inputs) : List (Bytes × Bytes) :=
  [(utf8 "compose", text (d.compose.map runtimeComposeBytes)), (utf8 "env", text d.env),
    (utf8 "env-local", text d.envLocal)]

/-! ## Fingerprints -/

inductive Field where
  | sourceHash
  | planHash
  | buildConfigHash
  | runtimeConfigHash
  | configHash
  | imageId
  deriving DecidableEq, Repr

/-- A dictionary of fingerprints. -/
structure Fingerprints where
  values : Field → Option String
  rollbackBuildId : Option ℕ

def Fingerprints.get (fps : Fingerprints) (field : Field) : String := (fps.values field).getD ""

section computing

variable (sha256 : Bytes → String) (runtimeComposeBytes : Bytes → Bytes)

def computeSourceFingerprint (source : Option Tree) : String :=
  match source with
  | none => ""
  | some tree => sha256 (encode 0 (sourceFiles tree))

def computePlanFingerprint (plan : Option Json) : String :=
  match plan with
  | none => ""
  | some plan => sha256 (planStream plan)

def computeDeploymentFingerprints (d : Inputs) : Fingerprints where
  values
    | .sourceHash => some (computeSourceFingerprint sha256 d.source)
    | .planHash => some (computePlanFingerprint sha256 d.plan)
    | .configHash => some (sha256 (encode 0 (configEntries d)))
    | .buildConfigHash => some (sha256 (encode 0 (buildEntries d)))
    | .runtimeConfigHash => some (sha256 (encode 0 (runtimeEntries runtimeComposeBytes d)))
    | .imageId => some d.imageId
  rollbackBuildId := none

end computing

inductive StartAction where
  | none
  | runtimeRecreate
  | fullRebuild
  deriving DecidableEq, Repr

def Field.inBuild : Field → Bool
  | .runtimeConfigHash | .configHash => false
  | _ => true

def fields : List Field := [.sourceHash, .planHash, .buildConfigHash, .runtimeConfigHash, .configHash, .imageId]

def Fingerprints.newFormat (stored : Fingerprints) : Bool :=
  (stored.values .buildConfigHash).isSome ∨ (stored.values .runtimeConfigHash).isSome

def changedFields (stored current : Fingerprints) : List Field :=
  fields.filter (fun field => ¬ (stored.newFormat ∧ field = .configHash) ∧ stored.get field ≠ current.get field)

def fingerprintChangeAction (stored : Option Fingerprints) (current : Fingerprints) : StartAction × List Field :=
  match stored with
  | none => (.none, [])
  | some stored =>
    if stored.rollbackBuildId.any (· ≠ 0) then (.none, [])
    else
      let changed := changedFields stored current
      if changed = [] then (.none, [])
      else if ¬ stored.newFormat ∧ .configHash ∈ changed then (.fullRebuild, changed)
      else if changed.any Field.inBuild then (.fullRebuild, changed)
      else (.runtimeRecreate, changed)

/-- The decision on a start: whether the generated files were there, whether they could be rendered
again, and the workspace after that. -/
def deployedAction (sha256 : Bytes → String) (runtimeComposeBytes : Bytes → Bytes) (stored : Option Fingerprints)
    (artifacts rendered : Bool) (current : Inputs) : StartAction × List Field :=
  if stored.any (fun stored => stored.rollbackBuildId.any (· ≠ 0)) then (.none, [])
  else if ¬ artifacts ∨ ¬ rendered then (.fullRebuild, [])
  else fingerprintChangeAction stored (computeDeploymentFingerprints sha256 runtimeComposeBytes current)

/-! ## What the streams tell -/

/-- Everything that needs a build is the same. -/
structure SameBuild (d d' : Inputs) : Prop where
  source : d.source.map sourceFiles = d'.source.map sourceFiles
  plan : d.plan = d'.plan
  dockerfile : d.dockerfile = d'.dockerfile
  helper : d.helper = d'.helper
  systemDeps : d.systemDeps = d'.systemDeps
  imageId : d.imageId = d'.imageId

structure SameRuntime (runtimeComposeBytes : Bytes → Bytes) (d d' : Inputs) : Prop where
  compose : d.compose.map runtimeComposeBytes = d'.compose.map runtimeComposeBytes
  env : d.env = d'.env
  envLocal : d.envLocal = d'.envLocal

/-- One file is missing, and the other one holds the text that stands for that. -/
def Blurred (a b : Option Bytes) : Prop := a = none ∧ b = some missing ∨ a = some missing ∧ b = none

def ShiftedEither (l l' : List (Bytes × Bytes)) : Prop := Shifted 0 l l' ∨ Shifted 0 l' l

/-- The end of a source file has become the beginning of what is hashed after it. -/
def ConfusedSource (d d' : Inputs) : Prop :=
  ∃ tree tree', d.source = some tree ∧ d'.source = some tree' ∧ ShiftedEither (sourceFiles tree) (sourceFiles tree')

def ConfusedBuild (d d' : Inputs) : Prop :=
  ShiftedEither (buildEntries d) (buildEntries d') ∨
    Blurred d.dockerfile d'.dockerfile ∧ d.helper = d'.helper ∧ d.systemDeps = d'.systemDeps

def ConfusedRuntime (runtimeComposeBytes : Bytes → Bytes) (d d' : Inputs) : Prop :=
  ShiftedEither (runtimeEntries runtimeComposeBytes d) (runtimeEntries runtimeComposeBytes d') ∨
    ¬ SameRuntime runtimeComposeBytes d d' ∧
      (d.compose.map runtimeComposeBytes = d'.compose.map runtimeComposeBytes ∨
        Blurred (d.compose.map runtimeComposeBytes) (d'.compose.map runtimeComposeBytes)) ∧
      (d.env = d'.env ∨ Blurred d.env d'.env) ∧ (d.envLocal = d'.envLocal ∨ Blurred d.envLocal d'.envLocal)

/-- Inputs that differ in what one stream cannot tell apart, and in nothing else that needs a build. -/
structure Confounded (runtimeComposeBytes : Bytes → Bytes) (d d' : Inputs) : Prop where
  source : d.source.map sourceFiles = d'.source.map sourceFiles ∨ ConfusedSource d d'
  plan : d.plan = d'.plan
  build : d.dockerfile = d'.dockerfile ∧ d.helper = d'.helper ∧ d.systemDeps = d'.systemDeps ∨ ConfusedBuild d d'
  imageId : d.imageId = d'.imageId
  confused : ConfusedSource d d' ∨ ConfusedBuild d d' ∨ ConfusedRuntime runtimeComposeBytes d d'

/-- The streams of the two workspaces do not collide under the hash, whose digests are not empty. -/
structure CollisionFree (sha256 : Bytes → String) (runtimeComposeBytes : Bytes → Bytes) (d d' : Inputs) : Prop where
  digest : ∀ stream, sha256 stream ≠ ""
  source : ∀ tree tree', d.source = some tree → d'.source = some tree' →
    sha256 (encode 0 (sourceFiles tree)) = sha256 (encode 0 (sourceFiles tree')) →
    encode 0 (sourceFiles tree) = encode 0 (sourceFiles tree')
  plan : ∀ plan plan', d.plan = some plan → d'.plan = some plan' →
    sha256 (planStream plan) = sha256 (planStream plan') → planStream plan = planStream plan'
  build : sha256 (encode 0 (buildEntries d)) = sha256 (encode 0 (buildEntries d')) →
    encode 0 (buildEntries d) = encode 0 (buildEntries d')
  runtime : sha256 (encode 0 (runtimeEntries runtimeComposeBytes d)) =
      sha256 (encode 0 (runtimeEntries runtimeComposeBytes d')) →
    encode 0 (runtimeEntries runtimeComposeBytes d) = encode 0 (runtimeEntries runtimeComposeBytes d')

/-- A decision against a build is right about all that it is made of. -/
structure Faithful (runtimeComposeBytes : Bytes → Bytes) (d d' : Inputs) (action : StartAction) : Prop where
  none : action = .none → SameBuild d d' ∧ SameRuntime runtimeComposeBytes d d'
  runtimeRecreate : action = .runtimeRecreate → SameBuild d d'

theorem utf8_inj {s t : String} (h : utf8 s = utf8 t) : s = t := by
  apply String.toByteArray_inj.mp
  apply ByteArray.ext
  exact Array.toList_inj.mp h

theorem planStream_inj {plan plan' : Json} (h : planStream plan = planStream plan') : plan = plan' :=
  dumps_injective (String.ofList_inj.mp (utf8_inj h))

theorem text_eq_iff {a b : Option Bytes} : text a = text b ↔ a = b ∨ Blurred a b := by
  cases a with
  | none =>
    cases b with
    | none => simp
    | some content => simp [text, Blurred, eq_comm]
  | some content =>
    cases b with
    | none => simp [text, Blurred]
    | some content' => simp [text, Blurred]

theorem Blurred.ne {a b : Option Bytes} (h : Blurred a b) : a ≠ b := by
  rintro rfl
  rcases h with ⟨absent, present⟩ | ⟨present, absent⟩
  · rw [absent] at present
    contradiction
  · rw [absent] at present
    contradiction

theorem ShiftedEither.ne {l l' : List (Bytes × Bytes)} (h : ShiftedEither l l') : l ≠ l' := by
  rcases h with shifted | shifted
  · exact shifted.ne
  · exact shifted.ne.symm

/-! ### No label holds the separator -/

theorem arcname_labelled (path : List Name) : (0 : UInt8) ∉ arcname path := by
  induction path with
  | nil => exact List.not_mem_nil
  | cons name path ih =>
    cases path with
    | nil => exact name.2
    | cons next path =>
      simp only [arcname, List.mem_append, List.mem_cons, not_or]
      exact ⟨name.2, by decide, ih⟩

theorem sourceFiles_labelled (tree : Tree) : Labelled 0 (sourceFiles tree) := by
  intro entry listed
  obtain ⟨file, -, rfl⟩ := List.mem_map.mp listed
  exact arcname_labelled file.1

theorem labels_plain : ∀ label ∈ ["dockerfile", "static-wsgi", "systemDeps", "compose", "env", "env-local"],
    (0 : UInt8) ∉ utf8 label := by decide

theorem buildEntries_labelled (d : Inputs) : Labelled 0 (buildEntries d) := by
  intro entry listed
  simp only [buildEntries, List.mem_cons, List.mem_append, List.mem_map, Option.mem_toList] at listed
  rcases listed with rfl | ⟨content, -, rfl⟩ | listed
  · exact labels_plain "dockerfile" (by simp)
  · exact labels_plain "static-wsgi" (by simp)
  · split_ifs at listed
    · simp at listed
    · obtain rfl := List.mem_singleton.mp listed
      exact labels_plain "systemDeps" (by simp)

theorem runtimeEntries_labelled (runtimeComposeBytes : Bytes → Bytes) (d : Inputs) :
    Labelled 0 (runtimeEntries runtimeComposeBytes d) := by
  intro entry listed
  simp only [runtimeEntries, List.mem_cons, List.not_mem_nil, or_false] at listed
  rcases listed with rfl | rfl | rfl
  · exact labels_plain "compose" (by simp)
  · exact labels_plain "env" (by simp)
  · exact labels_plain "env-local" (by simp)

/-! ### Entries and inputs -/

theorem systemDeps_inj {deps deps' : List SystemDep}
    (h : terminated 0 (deps.map Subtype.val) = terminated 0 (deps'.map Subtype.val)) : deps = deps' := by
  have plain : ∀ deps : List SystemDep, ∀ name ∈ deps.map Subtype.val, (0 : UInt8) ∉ name := by
    intro deps name listed
    obtain ⟨dep, -, rfl⟩ := List.mem_map.mp listed
    exact dep.2
  exact List.map_injective_iff.mpr Subtype.val_injective (terminated_inj (plain deps) (plain deps') h)

theorem buildEntries_eq_iff {d d' : Inputs} : buildEntries d = buildEntries d' ↔
    text d.dockerfile = text d'.dockerfile ∧ d.helper = d'.helper ∧ d.systemDeps = d'.systemDeps := by
  constructor
  · intro same
    have labels : utf8 "static-wsgi" ≠ utf8 "systemDeps" := by decide
    simp only [buildEntries, List.cons.injEq, Prod.mk.injEq, true_and] at same
    obtain ⟨dockerfile, tail⟩ := same
    refine ⟨dockerfile, ?_⟩
    cases helper : d.helper with
    | none =>
      cases helper' : d'.helper with
      | none =>
        simp only [helper, helper', Option.toList_none, List.map_nil, List.nil_append] at tail
        refine ⟨rfl, ?_⟩
        split_ifs at tail with empty empty' empty'
        · rw [empty, empty']
        · simp only [List.cons.injEq, Prod.mk.injEq, true_and, and_true] at tail
          exact systemDeps_inj tail
      | some content =>
        simp only [helper, helper', Option.toList_none, Option.toList_some, List.map_nil, List.map_cons,
          List.nil_append, List.cons_append] at tail
        split_ifs at tail
        all_goals
          simp only [List.cons.injEq, Prod.mk.injEq] at tail
          exact absurd tail.1.1.symm labels
    | some content =>
      cases helper' : d'.helper with
      | none =>
        simp only [helper, helper', Option.toList_none, Option.toList_some, List.map_nil, List.map_cons,
          List.nil_append, List.cons_append] at tail
        split_ifs at tail
        all_goals
          simp only [List.cons.injEq, Prod.mk.injEq] at tail
          exact absurd tail.1.1 labels
      | some content' =>
        simp only [helper, helper', Option.toList_some, List.map_nil, List.map_cons, List.nil_append,
          List.cons_append, List.cons.injEq, Prod.mk.injEq, true_and] at tail
        obtain ⟨rfl, tail⟩ := tail
        refine ⟨rfl, ?_⟩
        split_ifs at tail with empty empty' empty'
        · rw [empty, empty']
        · simp only [List.cons.injEq, Prod.mk.injEq, true_and, and_true] at tail
          exact systemDeps_inj tail
  · rintro ⟨dockerfile, helper, deps⟩
    rw [buildEntries, buildEntries, dockerfile, helper, deps]

theorem runtimeEntries_eq_iff {runtimeComposeBytes : Bytes → Bytes} {d d' : Inputs} :
    runtimeEntries runtimeComposeBytes d = runtimeEntries runtimeComposeBytes d' ↔
      text (d.compose.map runtimeComposeBytes) = text (d'.compose.map runtimeComposeBytes) ∧
        text d.env = text d'.env ∧ text d.envLocal = text d'.envLocal := by
  simp [runtimeEntries]

section agreeing

variable {sha256 : Bytes → String} {runtimeComposeBytes : Bytes → Bytes} {d d' : Inputs}

theorem source_agrees (free : CollisionFree sha256 runtimeComposeBytes d d') :
    computeSourceFingerprint sha256 d.source = computeSourceFingerprint sha256 d'.source ↔
      d.source.map sourceFiles = d'.source.map sourceFiles ∨ ConfusedSource d d' := by
  unfold ConfusedSource
  cases source : d.source with
  | none =>
    cases source' : d'.source with
    | none => simp
    | some tree' => simpa [computeSourceFingerprint] using (free.digest _).symm
  | some tree =>
    cases source' : d'.source with
    | none => simpa [computeSourceFingerprint] using free.digest _
    | some tree' =>
      have read := encode_eq_iff (sourceFiles_labelled tree) (sourceFiles_labelled tree')
      simp only [computeSourceFingerprint, Option.map_some, Option.some.injEq]
      constructor
      · intro same
        rcases read.mp (free.source tree tree' source source' same) with files | shifted
        · exact .inl files
        · exact .inr ⟨tree, tree', rfl, rfl, shifted⟩
      · rintro (files | ⟨_, _, rfl, rfl, shifted⟩)
        · rw [files]
        · rw [read.mpr (.inr shifted)]

theorem plan_agrees (free : CollisionFree sha256 runtimeComposeBytes d d') :
    computePlanFingerprint sha256 d.plan = computePlanFingerprint sha256 d'.plan ↔ d.plan = d'.plan := by
  constructor
  · intro same
    cases found : d.plan with
    | none =>
      cases found' : d'.plan with
      | none => rfl
      | some plan' =>
        rw [found, found'] at same
        exact absurd same.symm (free.digest _)
    | some plan =>
      cases found' : d'.plan with
      | none =>
        rw [found, found'] at same
        exact absurd same (free.digest _)
      | some plan' =>
        rw [found, found'] at same
        exact congrArg some (planStream_inj (free.plan plan plan' found found' same))
  · intro same
    rw [same]

theorem build_agrees (free : CollisionFree sha256 runtimeComposeBytes d d') :
    sha256 (encode 0 (buildEntries d)) = sha256 (encode 0 (buildEntries d')) ↔
      (d.dockerfile = d'.dockerfile ∧ d.helper = d'.helper ∧ d.systemDeps = d'.systemDeps) ∨ ConfusedBuild d d' := by
  have read := encode_eq_iff (buildEntries_labelled d) (buildEntries_labelled d')
  rw [buildEntries_eq_iff, text_eq_iff] at read
  constructor
  · intro same
    rcases read.mp (free.build same) with ⟨dockerfile | blurred, others⟩ | shifted
    · exact .inl ⟨dockerfile, others⟩
    · exact .inr (.inr ⟨blurred, others⟩)
    · exact .inr (.inl shifted)
  · rintro (⟨dockerfile, others⟩ | shifted | ⟨blurred, others⟩)
    · rw [read.mpr (.inl ⟨.inl dockerfile, others⟩)]
    · rw [read.mpr (.inr shifted)]
    · rw [read.mpr (.inl ⟨.inr blurred, others⟩)]

theorem runtime_agrees (free : CollisionFree sha256 runtimeComposeBytes d d') :
    sha256 (encode 0 (runtimeEntries runtimeComposeBytes d)) =
        sha256 (encode 0 (runtimeEntries runtimeComposeBytes d')) ↔
      SameRuntime runtimeComposeBytes d d' ∨ ConfusedRuntime runtimeComposeBytes d d' := by
  have read := encode_eq_iff (runtimeEntries_labelled runtimeComposeBytes d)
    (runtimeEntries_labelled runtimeComposeBytes d')
  rw [runtimeEntries_eq_iff, text_eq_iff, text_eq_iff, text_eq_iff] at read
  constructor
  · intro same
    rcases read.mp (free.runtime same) with texts | shifted
    · by_cases equal : SameRuntime runtimeComposeBytes d d'
      · exact .inl equal
      · exact .inr (.inr ⟨equal, texts⟩)
    · exact .inr (.inl shifted)
  · rintro (⟨compose, env, envLocal⟩ | shifted | ⟨-, texts⟩)
    · rw [read.mpr (.inl ⟨.inl compose, .inl env, .inl envLocal⟩)]
    · rw [read.mpr (.inr shifted)]
    · rw [read.mpr (.inl texts)]

theorem ConfusedSource.ne (h : ConfusedSource d d') : d.source.map sourceFiles ≠ d'.source.map sourceFiles := by
  obtain ⟨tree, tree', source, source', shifted⟩ := h
  rw [source, source']
  simpa using shifted.ne

theorem ConfusedBuild.ne (h : ConfusedBuild d d') :
    ¬ (d.dockerfile = d'.dockerfile ∧ d.helper = d'.helper ∧ d.systemDeps = d'.systemDeps) := by
  rintro ⟨dockerfile, helper, deps⟩
  rcases h with shifted | ⟨blurred, -⟩
  · apply shifted.ne
    rw [buildEntries, buildEntries, dockerfile, helper, deps]
  · exact blurred.ne dockerfile

theorem ConfusedRuntime.ne (h : ConfusedRuntime runtimeComposeBytes d d') : ¬ SameRuntime runtimeComposeBytes d d' := by
  rcases h with shifted | ⟨different, -⟩
  · rintro ⟨compose, env, envLocal⟩
    apply shifted.ne
    rw [runtimeEntries, runtimeEntries, compose, env, envLocal]
  · exact different

end agreeing

/-! ### The decision -/

theorem mem_changedFields {stored current : Fingerprints} {field : Field} (format : stored.newFormat) :
    field ∈ changedFields stored current ↔ field ≠ .configHash ∧ stored.get field ≠ current.get field := by
  have listed : field ∈ fields := by cases field <;> decide
  simp [changedFields, listed, format]

/-- Fingerprints of the new format: a change that needs a build, another one, or none. -/
theorem fingerprintChangeAction_cases (stored current : Fingerprints) (format : stored.newFormat)
    (unpinned : stored.rollbackBuildId = none) :
    (∃ field, field.inBuild ∧ stored.get field ≠ current.get field) ∧
        (fingerprintChangeAction (some stored) current).1 = .fullRebuild ∨
      (∀ field, field.inBuild → stored.get field = current.get field) ∧
        (stored.get .runtimeConfigHash = current.get .runtimeConfigHash ∧
            (fingerprintChangeAction (some stored) current).1 = .none ∨
          stored.get .runtimeConfigHash ≠ current.get .runtimeConfigHash ∧
            (fingerprintChangeAction (some stored) current).1 = .runtimeRecreate) := by
  have config : ¬ (¬ stored.newFormat ∧ .configHash ∈ changedFields stored current) := fun old => old.1 format
  by_cases build : ∃ field, field.inBuild ∧ stored.get field ≠ current.get field
  · obtain ⟨field, inBuild, differs⟩ := build
    have changed : field ∈ changedFields stored current := by
      refine (mem_changedFields format).mpr ⟨?_, differs⟩
      rintro rfl
      contradiction
    have some' : changedFields stored current ≠ [] := List.ne_nil_of_mem changed
    have any : (changedFields stored current).any Field.inBuild = true := List.any_eq_true.mpr ⟨field, changed, inBuild⟩
    refine .inl ⟨⟨field, inBuild, differs⟩, ?_⟩
    simp [fingerprintChangeAction, unpinned, some', any]
  · have same : ∀ field, field.inBuild → stored.get field = current.get field := by
      intro field inBuild
      by_contra differs
      exact build ⟨field, inBuild, differs⟩
    have runtimeOnly : ∀ field ∈ changedFields stored current, field = .runtimeConfigHash := by
      intro field listed
      obtain ⟨notConfig, differs⟩ := (mem_changedFields format).mp listed
      cases field
      case runtimeConfigHash => rfl
      case configHash => contradiction
      all_goals exact absurd (same _ rfl) differs
    refine .inr ⟨same, ?_⟩
    by_cases runtime : stored.get .runtimeConfigHash = current.get .runtimeConfigHash
    · have nothing : changedFields stored current = [] := by
        rw [List.eq_nil_iff_forall_not_mem]
        intro field listed
        have differs := ((mem_changedFields format).mp listed).2
        rw [runtimeOnly field listed] at differs
        exact differs runtime
      refine .inl ⟨runtime, ?_⟩
      simp [fingerprintChangeAction, unpinned, nothing]
    · have changed : .runtimeConfigHash ∈ changedFields stored current :=
        (mem_changedFields format).mpr ⟨by decide, runtime⟩
      have some' : changedFields stored current ≠ [] := List.ne_nil_of_mem changed
      have none' : (changedFields stored current).any Field.inBuild = false := by
        rw [List.any_eq_false]
        intro field listed
        rw [runtimeOnly field listed]
        decide
      refine .inr ⟨runtime, ?_⟩
      simp [fingerprintChangeAction, unpinned, some', none', format]

section deciding

variable {sha256 : Bytes → String} {runtimeComposeBytes : Bytes → Bytes} {d d' : Inputs}

/-- Either all build inputs agree up to what their streams cannot tell, or there is a build. -/
theorem deployedAction_cases (free : CollisionFree sha256 runtimeComposeBytes d d') :
    let action := (deployedAction sha256 runtimeComposeBytes
      (some (computeDeploymentFingerprints sha256 runtimeComposeBytes d)) true true d').1
    let agree := (d.source.map sourceFiles = d'.source.map sourceFiles ∨ ConfusedSource d d') ∧ d.plan = d'.plan ∧
      ((d.dockerfile = d'.dockerfile ∧ d.helper = d'.helper ∧ d.systemDeps = d'.systemDeps) ∨ ConfusedBuild d d') ∧
      d.imageId = d'.imageId
    ¬ agree ∧ action = .fullRebuild ∨
      agree ∧ (SameRuntime runtimeComposeBytes d d' ∨ ConfusedRuntime runtimeComposeBytes d d') ∧ action = .none ∨
      agree ∧ ¬ (SameRuntime runtimeComposeBytes d d' ∨ ConfusedRuntime runtimeComposeBytes d d') ∧
        action = .runtimeRecreate := by
  intro action agree
  have cases' := fingerprintChangeAction_cases (computeDeploymentFingerprints sha256 runtimeComposeBytes d)
    (computeDeploymentFingerprints sha256 runtimeComposeBytes d') rfl rfl
  have agrees : agree ↔ ∀ field : Field, field.inBuild →
      (computeDeploymentFingerprints sha256 runtimeComposeBytes d).get field =
        (computeDeploymentFingerprints sha256 runtimeComposeBytes d').get field := by
    constructor
    · rintro ⟨source, plan, build, imageId⟩ field inBuild
      cases field with
      | sourceHash => exact (source_agrees free).mpr source
      | planHash => exact (plan_agrees free).mpr plan
      | buildConfigHash => exact (build_agrees free).mpr build
      | imageId => exact imageId
      | runtimeConfigHash | configHash => contradiction
    · intro same
      exact ⟨(source_agrees free).mp (same .sourceHash rfl), (plan_agrees free).mp (same .planHash rfl),
        (build_agrees free).mp (same .buildConfigHash rfl), same .imageId rfl⟩
  have runtime := runtime_agrees free
  rcases cases' with ⟨⟨field, inBuild, differs⟩, full⟩ | ⟨same, ⟨equal, none'⟩ | ⟨differs, recreate⟩⟩
  · exact .inl ⟨fun agree => differs (agrees.mp agree field inBuild), full⟩
  · exact .inr (.inl ⟨agrees.mpr same, runtime.mp equal, none'⟩)
  · exact .inr (.inr ⟨agrees.mpr same, fun agree => differs (runtime.mpr agree), recreate⟩)

end deciding

theorem faithful_iff {sha256 : Bytes → String} {runtimeComposeBytes : Bytes → Bytes} {d d' : Inputs}
    (free : CollisionFree sha256 runtimeComposeBytes d d') :
    Faithful runtimeComposeBytes d d' (deployedAction sha256 runtimeComposeBytes
        (some (computeDeploymentFingerprints sha256 runtimeComposeBytes d)) true true d').1 ↔
      ¬ Confounded runtimeComposeBytes d d' := by
  constructor
  · rintro faithful ⟨source, plan, build, imageId, confused⟩
    rcases deployedAction_cases free with ⟨disagree, -⟩ | ⟨-, runtime, none'⟩ | ⟨-, runtime, recreate⟩
    · exact disagree ⟨source, plan, build, imageId⟩
    · obtain ⟨same, sameRuntime⟩ := faithful.none none'
      rcases confused with source | build | runtime
      · exact source.ne same.source
      · exact build.ne ⟨same.dockerfile, same.helper, same.systemDeps⟩
      · exact runtime.ne sameRuntime
    · have same := faithful.runtimeRecreate recreate
      rcases confused with source | build | confused
      · exact source.ne same.source
      · exact build.ne ⟨same.dockerfile, same.helper, same.systemDeps⟩
      · exact runtime (.inr confused)
  · intro clear
    have sameBuild : ∀ (source : d.source.map sourceFiles = d'.source.map sourceFiles ∨ ConfusedSource d d')
        (_ : d.plan = d'.plan)
        (build : (d.dockerfile = d'.dockerfile ∧ d.helper = d'.helper ∧ d.systemDeps = d'.systemDeps) ∨
          ConfusedBuild d d') (_ : d.imageId = d'.imageId), SameBuild d d' := by
      intro source plan build imageId
      rcases source with files | confused
      · rcases build with ⟨dockerfile, helper, deps⟩ | confused
        · exact ⟨files, plan, dockerfile, helper, deps, imageId⟩
        · exact absurd ⟨.inl files, plan, .inr confused, imageId, .inr (.inl confused)⟩ clear
      · exact absurd ⟨.inr confused, plan, build, imageId, .inl confused⟩ clear
    rcases deployedAction_cases free with ⟨-, full⟩ | ⟨⟨source, plan, build, imageId⟩, runtime, none'⟩ |
      ⟨⟨source, plan, build, imageId⟩, -, recreate⟩
    · rw [full]
      exact ⟨nofun, nofun⟩
    · rw [none']
      refine ⟨fun _ => ⟨sameBuild source plan build imageId, ?_⟩, nofun⟩
      rcases runtime with same | confused
      · exact same
      · exact absurd ⟨source, plan, build, imageId, .inr (.inr confused)⟩ clear
    · rw [recreate]
      exact ⟨nofun, fun _ => sameBuild source plan build imageId⟩

/-- The decision on a start of a deployed container is right exactly if its inputs are not
confounded, where it comes to comparing them. -/
theorem deployedAction_faithful_iff {sha256 : Bytes → String} {runtimeComposeBytes : Bytes → Bytes} {d d' : Inputs}
    (free : CollisionFree sha256 runtimeComposeBytes d d') (artifacts rendered : Bool) :
    Faithful runtimeComposeBytes d d' (deployedAction sha256 runtimeComposeBytes
        (some (computeDeploymentFingerprints sha256 runtimeComposeBytes d)) artifacts rendered d').1 ↔
      (artifacts → rendered → ¬ Confounded runtimeComposeBytes d d') := by
  have rebuild : Faithful runtimeComposeBytes d d' .fullRebuild := ⟨nofun, nofun⟩
  cases artifacts with
  | false => exact iff_of_true rebuild nofun
  | true =>
    cases rendered with
    | false => exact iff_of_true rebuild (fun _ => nofun)
    | true => simpa using faithful_iff free

/-- A letter moves from the name of a file to the end of the one before it, and no hash tells. -/
theorem moved_letter_unnoticed : ¬ ∃ sha256 : Bytes → String, (∀ stream, sha256 stream ≠ "") ∧
    ∀ runtimeComposeBytes d d', CollisionFree sha256 runtimeComposeBytes d d' → Faithful runtimeComposeBytes d d'
      (deployedAction sha256 runtimeComposeBytes (some (computeDeploymentFingerprints sha256 runtimeComposeBytes d))
        true true d').1 := by
  rintro ⟨sha256, digest, claim⟩
  let a : Name := ⟨[97], by decide⟩
  let c : Name := ⟨[99], by decide⟩
  let bc : Name := ⟨[98, 99], by decide⟩
  let before : Tree := .node [(a, .regular [120]), (bc, .regular [121])] []
  let after : Tree := .node [(a, .regular [120, 98]), (c, .regular [121])] []
  let inputs (tree : Tree) : Inputs :=
    ⟨some tree, [], [], some (utf8 "FROM x\n"), none, [], some (utf8 "services:\n  web:\n    image: x\n"),
      some (utf8 "A=1\n"), none, "sha256:1"⟩
  have same : encode 0 (sourceFiles before) = encode 0 (sourceFiles after) := by decide
  have source : computeSourceFingerprint sha256 (inputs before).source =
      computeSourceFingerprint sha256 (inputs after).source := congrArg sha256 same
  have fps : ∀ field, (computeDeploymentFingerprints sha256 id (inputs before)).get field =
      (computeDeploymentFingerprints sha256 id (inputs after)).get field := by
    intro field
    cases field with
    | sourceHash => exact source
    | _ => rfl
  have nothing : (deployedAction sha256 id (some (computeDeploymentFingerprints sha256 id (inputs before)))
      true true (inputs after)).1 = .none := by
    rcases fingerprintChangeAction_cases (computeDeploymentFingerprints sha256 id (inputs before))
        (computeDeploymentFingerprints sha256 id (inputs after)) rfl rfl with
      ⟨⟨field, -, differs⟩, -⟩ | ⟨-, ⟨-, none'⟩ | ⟨differs, -⟩⟩
    · exact absurd (fps field) differs
    · exact none'
    · exact absurd (fps .runtimeConfigHash) differs
  have faithful := claim id (inputs before) (inputs after)
    ⟨digest, fun tree tree' found found' _ => ?_, nofun, fun _ => rfl, fun _ => rfl⟩
  · have files := (faithful.none nothing).1.source
    revert files
    decide
  · obtain rfl := Option.some.inj found
    obtain rfl := Option.some.inj found'
    exact same

theorem ofList_cons_ne_empty (c : Char) (text : List Char) : String.ofList (c :: text) ≠ "" := by
  intro empty
  have chars := congrArg String.toList empty
  rw [String.toList_ofList] at chars
  cases chars

theorem deployedAction_unchanged (sha256 : Bytes → String) (runtimeComposeBytes : Bytes → Bytes) (d : Inputs) :
    (deployedAction sha256 runtimeComposeBytes (some (computeDeploymentFingerprints sha256 runtimeComposeBytes d))
      true true d).1 = .none := by
  have same : changedFields (computeDeploymentFingerprints sha256 runtimeComposeBytes d)
      (computeDeploymentFingerprints sha256 runtimeComposeBytes d) = [] := by
    simp [changedFields]
  have unpinned : (computeDeploymentFingerprints sha256 runtimeComposeBytes d).rollbackBuildId = none := rfl
  simp only [deployedAction, fingerprintChangeAction, same, unpinned, Option.any_some, Option.any_none]
  rfl

/-- A start with nothing changed, under the digests of its streams. -/
theorem deployedAction_faithful_iff_unchanged : ∃ sha256 d, (deployedAction sha256 id
    (some (computeDeploymentFingerprints sha256 id d)) true true d).1 = .none ∧
    (Faithful id d d (deployedAction sha256 id (some (computeDeploymentFingerprints sha256 id d)) true true d).1 ↔
      (true → true → ¬ Confounded id d d)) := by
  let a : Name := ⟨[97], by decide⟩
  let d : Inputs :=
    ⟨some (.node [(a, .regular [120])] []), [], [], some (utf8 "FROM x\n"), none, [],
      some (utf8 "services:\n  web:\n    image: x\n"), some (utf8 "A=1\n"), none, "sha256:1"⟩
  let sha256 (stream : Bytes) : String :=
    if stream = utf8 "a\x00x" then
      "8b86bced10290476e3cbf7ec75ec99dc5afd02120997525be1c62db47aa5c524"
    else if stream = encode 0 (buildEntries d) then
      "b6a6178803b0089257df5d58d82dfc3c1f174a603dfc9e353092f40d74a67654"
    else if stream = encode 0 (runtimeEntries id d) then
      "66ff863e74481f73e824af26c4f53a745150427ed1fc55c57986ab22e2d38ed2"
    else "146b327d2d91c0178fbd346baa1aaa662c8fed30c4bed2bade6433aa159dfd04"
  have free : CollisionFree sha256 id d d := by
    refine ⟨fun stream => ?_, fun tree tree' found found' _ => ?_, nofun, fun _ => rfl, fun _ => rfl⟩
    · dsimp only [sha256]
      split_ifs <;> exact ofList_cons_ne_empty _ _
    · rw [Option.some.inj (found.symm.trans found')]
  exact ⟨sha256, d, deployedAction_unchanged sha256 id d, deployedAction_faithful_iff free true true⟩

end LocalWebAccess.DeploymentFingerprints
