import LocalWebAccess.RescanFrame

/-!
# Entries over rescans

Whether a command is the user's is not stored: a value is taken for one if it differs from what the last scan
found. Each scan replaces what was found, so a value of the user stays as long as no scan finds the same, and
a value that was found is replaced by the next one.
-/
namespace LocalWebAccess.RescanFrame

variable {Json : Type}

/-! ## One rescan -/

/-- A scan, and whether it may give a confirmed shape up. The workspace may differ from scan to scan. -/
structure Rescan (Json : Type) where
  importer : Importer Json
  detection : DetectionResult Json
  keepConfirmedShape : Bool

/-- What the scan finds for a field of the entry. -/
def Rescan.detected (scan : Rescan Json) (field : EntryField) : Option String := scan.detection.entry.value field

/-- The scan finds the shape of the manifest and returns a new one. -/
structure Rescan.Returns (scan : Rescan Json) (manifest new : InstanceManifest Json) : Prop where
  same : Importer.detectionShapeDiffers manifest (scan.importer.failClosed scan.detection) = false
  returned : scan.importer.applyDetectionToManifest manifest scan.detection scan.keepConfirmedShape = some new

variable {scan : Rescan Json} {manifest new : InstanceManifest Json}

theorem entry_failClosed (importer : Importer Json) (detection : DetectionResult Json) :
    (importer.failClosed detection).entry = detection.entry := by
  unfold Importer.failClosed
  split_ifs <;> rfl

/-- A scan of the same shape merges the entries. -/
theorem entry_of_returns (h : scan.Returns manifest new) :
    new.entry = manifest.entry.preserveUser (Importer.snapshotEntry scan.detection.entry) := by
  obtain ⟨kind, runtime, servingMode, -, rfl⟩ := applyDetection_cases h.returned
  have entry := entry_failClosed scan.importer scan.detection
  rw [if_neg (by simp [h.same])]
  unfold Importer.merge Importer.newManifest
  dsimp only
  rw [if_neg (by simp [h.same]), entry]

theorem value_of_returns (h : scan.Returns manifest new) (field : EntryField) :
    new.entry.value field =
      if manifest.entry.value field ≠ scan.detected field ∧ manifest.entry.overridden field then
        manifest.entry.value field
      else scan.detected field := by
  rw [entry_of_returns h]
  rfl

theorem detected_of_returns (h : scan.Returns manifest new) : new.entry.detected = some scan.detected := by
  rw [entry_of_returns h]
  rfl

/-! ## Values of the user and of the scans -/

/-- The value is the user's: it differs from what was found, and it is no command that is to be migrated. -/
structure Manual (entry : EntryConfig Json) (field : EntryField) (value : String) : Prop where
  current : entry.value field = some value
  filled : value ≠ ""
  other : ∃ snapshot, entry.detected = some snapshot ∧ snapshot field ≠ some value
  kept : field = .start → EntryConfig.legacyDbUrlStart value = false

/-- The value is what was found. -/
def Automatic (entry : EntryConfig Json) (field : EntryField) : Prop :=
  ∃ snapshot, entry.detected = some snapshot ∧ entry.value field = snapshot field

variable {field : EntryField} {value : String}

theorem Manual.overridden {entry : EntryConfig Json} (h : Manual entry field value) :
    entry.overridden field = true := by
  obtain ⟨snapshot, detected, other⟩ := h.other
  have kept := h.kept
  simp only [EntryConfig.overridden, present, h.current, detected, Option.any_some, Option.all_some, Option.getD_some,
    Bool.and_eq_true, Bool.not_eq_true', Bool.and_eq_false_iff, decide_eq_true_eq, decide_eq_false_iff_not]
  refine ⟨⟨h.filled, ?_⟩, other⟩
  by_cases start : field = .start
  · exact .inr (kept start)
  · exact .inl start

theorem Automatic.not_overridden {entry : EntryConfig Json} (h : Automatic entry field) :
    entry.overridden field = false := by
  obtain ⟨snapshot, detected, same⟩ := h
  simp [EntryConfig.overridden, detected, same]

theorem Manual.step (h : Manual manifest.entry field value) (returns : scan.Returns manifest new)
    (unfound : scan.detected field ≠ some value) : Manual new.entry field value where
  current := by
    rw [value_of_returns returns, if_pos ⟨by rw [h.current]; exact unfound.symm, h.overridden⟩, h.current]
  filled := h.filled
  other := ⟨_, detected_of_returns returns, unfound⟩
  kept := h.kept

theorem Automatic.step (h : Automatic manifest.entry field) (returns : scan.Returns manifest new) :
    new.entry.value field = scan.detected field := by
  rw [value_of_returns returns, if_neg (by simp [h.not_overridden])]

/-! ## Sequences of rescans -/

/-- Scans of the same shape, one after another, with the manifests that they return. -/
inductive Rescans : InstanceManifest Json → List (Rescan Json × InstanceManifest Json) → Prop
  | done (manifest : InstanceManifest Json) : Rescans manifest []
  | next {manifest new : InstanceManifest Json} {scan : Rescan Json} {rest : List (Rescan Json × InstanceManifest Json)}
    (returns : scan.Returns manifest new) (later : Rescans new rest) : Rescans manifest ((scan, new) :: rest)

variable {steps : List (Rescan Json × InstanceManifest Json)}

theorem manual_of_rescans (rescans : Rescans manifest steps) (h : Manual manifest.entry field value)
    (unfound : ∀ step ∈ steps, step.1.detected field ≠ some value) :
    ∀ step ∈ steps, step.2.entry.value field = some value := by
  induction rescans with
  | done => simp
  | next returns later ih =>
    obtain ⟨first, rest⟩ := List.forall_mem_cons.mp unfound
    have kept := h.step returns first
    exact List.forall_mem_cons.mpr ⟨kept.current, ih kept rest⟩

theorem automatic_of_rescans (rescans : Rescans manifest steps) (h : Automatic manifest.entry field) :
    ∀ step ∈ steps, step.2.entry.value field = step.1.detected field := by
  induction rescans with
  | done => simp
  | next returns later ih =>
    have follows := h.step returns
    exact List.forall_mem_cons.mpr ⟨follows, ih ⟨_, detected_of_returns returns, follows⟩⟩

/-- Over any scans of the same shape a value of the user stays that none of them finds, and a value that was found is
what the last scan has found. -/
theorem entry_over_rescans (manifest : InstanceManifest Json) (steps : List (Rescan Json × InstanceManifest Json))
    (field : EntryField) (rescans : Rescans manifest steps) :
    (∀ value, Manual manifest.entry field value → (∀ step ∈ steps, step.1.detected field ≠ some value) →
        ∀ step ∈ steps, step.2.entry.value field = some value) ∧
      (Automatic manifest.entry field → ∀ step ∈ steps, step.2.entry.value field = step.1.detected field) :=
  ⟨fun _ => manual_of_rescans rescans, automatic_of_rescans rescans⟩

/-! ## A page with a command of its own -/

/-- The user has set a build command for a page that was found without one. -/
def builtPage : InstanceManifest String :=
  { deployedPage with
    entry := {
      value := fun field => if field = .build then some "make" else none
      detected := some fun _ => none } }

/-- A scan of a page with an install command. -/
def pageScan : Rescan String where
  importer := workspace
  detection :=
    { pageDetection with
      entry := { value := fun field => if field = .install then some "npm ci" else none } }
  keepConfirmedShape := true

theorem entry_over_rescans_page : ∃ new,
    Rescans builtPage [(pageScan, new)] ∧ new.entry.value .build = some "make" ∧
      new.entry.value .install = some "npm ci" := by
  have rescans : Rescans builtPage [(pageScan, _)] := .next ⟨rfl, rfl⟩ (.done _)
  refine ⟨_, rescans, ?_, ?_⟩
  · exact (entry_over_rescans builtPage _ .build rescans).1 "make" ⟨rfl, by decide, ⟨_, rfl, nofun⟩, nofun⟩
      (by simp [Rescan.detected, pageScan]) _ (List.mem_singleton_self _)
  · exact (entry_over_rescans builtPage _ .install rescans).2 ⟨_, rfl, rfl⟩ _ (List.mem_singleton_self _)

end LocalWebAccess.RescanFrame
