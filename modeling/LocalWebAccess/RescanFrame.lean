import LocalWebAccess.InstanceManifest

/-!
# What a new scan leaves of a manifest

A scan of an instance builds its manifest anew and copies field by field what the
scan does not derive. The copy is complete only for manifests that have defaults
in the fields which nobody copies; the condition for that is exact.
-/
namespace LocalWebAccess.RescanFrame

variable {Json : Type}

/-! ## The fields that a detection derives -/

/-- A value that a user has set stays, and so do the fields of other programs. -/
def withDerivedEntry (entry source : EntryConfig Json) : EntryConfig Json where
  value field := if entry.overridden field then entry.value field else source.value field
  detected := source.detected
  extra := entry.extra

def withDerivedContainer (container source : ContainerConfig Json) : ContainerConfig Json :=
  { container with internalPort := source.internalPort, resourceLimits := source.resourceLimits }

def withDerivedNetwork (network source : NetworkConfig Json) : NetworkConfig Json :=
  { network with internalPort := source.internalPort }

/-- The manifest with what a detection derives, and the time of the change, taken from another one. -/
def withDerived (manifest source : InstanceManifest Json) : InstanceManifest Json :=
  { manifest with
    stack := source.stack
    resourceProfile := source.resourceProfile
    hasDatabase := source.hasDatabase
    database := source.database
    databaseConfig := source.databaseConfig
    entry := withDerivedEntry manifest.entry source.entry
    container := match manifest.container, source.container with
      | some container, some derived => some (withDerivedContainer container derived)
      | container, _ => container
    network := withDerivedNetwork manifest.network source.network
    sourceSubdir := source.sourceSubdir
    deploymentCandidates := source.deploymentCandidates
    deploymentPlans := source.deploymentPlans
    selectedPlanId := source.selectedPlanId
    selectedPlanHash := source.selectedPlanHash
    capabilityContract := source.capabilityContract
    preflightSummary := source.preflightSummary
    lastError := source.lastError
    updatedAt := source.updatedAt }

theorem withDerived_self (manifest : InstanceManifest Json) : withDerived manifest manifest = manifest := by
  have entry : withDerivedEntry manifest.entry manifest.entry = manifest.entry := by
    apply EntryConfig.ext
    · funext field
      exact ite_self _
    · rfl
    · rfl
  calc withDerived manifest manifest = { manifest with entry := manifest.entry } := by
        unfold withDerived
        congr 1
        cases manifest.container <;> rfl
    _ = manifest := rfl

def SameShape (manifest : InstanceManifest Json) (detection : DetectionResult Json) : Prop :=
  detection.kind = some manifest.kind ∧ detection.runtime = some manifest.runtime

/-! ## The manifests that nothing is lost of -/

/-- A route by port without a host, or an alias. -/
def RouteKept (mode : String) (host : Option String) : Prop :=
  mode = "name" ∧ present host ∨ mode = "port" ∧ host = none

structure StaticKept (config : StaticConfig Json) : Prop where
  root : config.root = "public"
  gateway : config.gateway = "caddy"
  route : RouteKept config.routeMode config.routeHost
  gatewayConfigPath : config.gatewayConfigPath = none
  hostPort : config.hostPort = none
  enabled : config.enabled = true
  extra : config.extra = Extra.none

structure ContainerKept (importer : Importer Json) (instanceId : String) (config : ContainerConfig Json) :
    Prop where
  composePath : config.composePath = importer.appComposePath instanceId
  dockerfilePath : config.dockerfilePath = importer.appDockerfilePath instanceId
  route : RouteKept config.routeMode config.routeHost
  extra : config.extra = Extra.none

structure NetworkKept (config : NetworkConfig Json) : Prop where
  host : config.host = "0.0.0.0"
  hostPort : config.hostPort = none
  routeMode : config.routeMode = "port"
  routeHost : config.routeHost = none
  routeUrl : config.routeUrl = none
  lanUrl : config.lanUrl = none
  healthUrl : config.healthUrl = none
  extra : config.extra = Extra.none

/-- The section of its runtime alone, with nothing in it that is not copied. -/
def SectionsKept (importer : Importer Json) (manifest : InstanceManifest Json) : Prop :=
  match manifest.runtime with
  | .sharedStatic =>
    (∃ config, manifest.static = some config ∧ StaticKept config) ∧ manifest.container = none ∧
      manifest.hostBuild = none ∧ manifest.preSync = none ∧ manifest.hostBuildPending = false
  | .dockerCompose =>
    (∃ config, manifest.container = some config ∧ ContainerKept importer manifest.id config) ∧
      manifest.static = none

/-- Every field that the scan neither derives nor copies has the value of a new manifest. -/
structure NothingLost (importer : Importer Json) (manifest : InstanceManifest Json)
    (detection : DetectionResult Json) : Prop where
  servingMode : detection.servingMode = some manifest.servingMode
  schemaVersion : manifest.schemaVersion = 1
  sections : SectionsKept importer manifest
  network : NetworkKept manifest.network
  entry : detection.entry.extra = manifest.entry.extra
  sourceKind : manifest.sourceKind ≠ ""
  verificationSummary : manifest.verificationSummary = none
  compatibilityFindings : manifest.compatibilityFindings = []
  compatibilityScanMeta : manifest.compatibilityScanMeta = none
  extra : ∀ key value, manifest.extra key = some value → key = "sourceZipHash" ∧ importer.truthy value

/-- A detection that is pending, or a container without plans, keeps nothing but a confirmed shape. -/
def Retained (importer : Importer Json) (manifest : InstanceManifest Json) (detection : DetectionResult Json)
    (keepConfirmedShape : Bool) : Prop :=
  if (importer.failClosed detection).unsettled then keepConfirmedShape = true
  else NothingLost importer manifest detection

/-! ## The copies of the sections -/

theorem preserveUser_eq (old new : EntryConfig Json) :
    old.preserveUser new = { withDerivedEntry old new with extra := new.extra } := by
  apply EntryConfig.ext
  · funext field
    by_cases same : old.value field = new.value field <;>
      simp [EntryConfig.preserveUser, withDerivedEntry, same]
  · rfl
  · rfl

theorem preserveUser_kept_iff (old new : EntryConfig Json) :
    old.preserveUser new = withDerivedEntry old (old.preserveUser new) ↔ new.extra = old.extra := by
  constructor
  · intro kept
    have extra := congrArg (·.extra) kept
    exact extra
  · intro extra
    apply EntryConfig.ext
    · funext field
      by_cases set : old.overridden field <;> simp [preserveUser_eq, withDerivedEntry, set]
    · rfl
    · exact extra

theorem route_kept_iff (mode : String) (host : Option String) :
    ((if mode = "name" ∧ present host then "name" else "port") = mode ∧
      (if mode = "name" ∧ present host then host else none) = host) ↔ RouteKept mode host := by
  by_cases named : mode = "name" ∧ present host
  · simp [RouteKept, named]
  · rw [if_neg named, if_neg named, RouteKept, or_iff_right named, eq_comm, @eq_comm _ none]

theorem mergeStatic_kept_iff (old : StaticConfig Json) :
    Importer.mergeStatic (some old) (Importer.newStatic none) = old ↔ StaticKept old := by
  have fields : Importer.mergeStatic (some old) (Importer.newStatic none) =
      { routeMode := if old.routeMode = "name" ∧ present old.routeHost then "name" else "port"
        routeHost := if old.routeMode = "name" ∧ present old.routeHost then old.routeHost else none } := by
    by_cases named : old.routeMode = "name" ∧ present old.routeHost <;>
      simp [Importer.mergeStatic, Importer.newStatic, named]
  have route := route_kept_iff old.routeMode old.routeHost
  rw [fields, StaticConfig.ext_iff]
  constructor
  · rintro ⟨root, gateway, mode, host, path, port, enabled, extra⟩
    exact ⟨root.symm, gateway.symm, route.mp ⟨mode, host⟩, path.symm, port.symm, enabled.symm, extra.symm⟩
  · rintro ⟨root, gateway, kept, path, port, enabled, extra⟩
    have ⟨mode, host⟩ := route.mpr kept
    exact ⟨root.symm, gateway.symm, mode, host, path.symm, port.symm, enabled.symm, extra.symm⟩

theorem mergeContainer_kept_iff (importer : Importer Json) (instanceId : String)
    (detection : DetectionResult Json) (old : ContainerConfig Json) :
    let new := Importer.mergeContainer (some old) detection (importer.newContainer instanceId detection none)
    new = withDerivedContainer old new ↔ ContainerKept importer instanceId old := by
  intro new
  have route := route_kept_iff old.routeMode old.routeHost
  rw [ContainerConfig.ext_iff]
  constructor
  · rintro ⟨-, -, -, -, -, -, -, compose, dockerfile, -, mode, host, -, -, -, extra⟩
    exact ⟨compose.symm, dockerfile.symm, route.mp ⟨mode, host⟩, extra.symm⟩
  · rintro ⟨compose, dockerfile, kept, extra⟩
    have ⟨mode, host⟩ := route.mpr kept
    exact ⟨rfl, rfl, rfl, rfl, rfl, rfl, rfl, compose.symm, dockerfile.symm, rfl, mode, host, rfl, rfl, rfl,
      extra.symm⟩

theorem network_kept_iff (old : NetworkConfig Json) (port : Option ℤ) :
    let new : NetworkConfig Json :=
      { internalPort := port, externalLanObservation := old.externalLanObservation }
    new = withDerivedNetwork old new ↔ NetworkKept old := by
  intro new
  rw [NetworkConfig.ext_iff]
  constructor
  · rintro ⟨host, -, hostPort, mode, routeHost, url, lan, health, -, extra⟩
    exact ⟨host.symm, hostPort.symm, mode.symm, routeHost.symm, url.symm, lan.symm, health.symm, extra.symm⟩
  · rintro ⟨host, hostPort, mode, routeHost, url, lan, health, extra⟩
    exact ⟨host.symm, rfl, hostPort.symm, mode.symm, routeHost.symm, url.symm, lan.symm, health.symm, rfl,
      extra.symm⟩

/-! ## The manifest of a scan -/

theorem shape_settled {detection : DetectionResult Json} {kind : Kind} {runtime : Runtime}
    {servingMode : ServingMode} (settled : detection.unsettled = false)
    (shape : detection.shape = some (kind, runtime, servingMode)) :
    detection.kind = some kind ∧ detection.runtime = some runtime ∧
      detection.servingMode = some servingMode := by
  rw [DetectionResult.shape, settled] at shape
  rcases detection with ⟨_ | kind, _ | runtime, _ | servingMode⟩ <;> simp at shape
  cases runtime <;> cases servingMode <;> simp_all

theorem failClosed_settled (importer : Importer Json) (detection : DetectionResult Json)
    (settled : (importer.failClosed detection).unsettled = false) :
    importer.failClosed detection = detection := by
  unfold Importer.failClosed at settled ⊢
  split at settled
  · simp [DetectionResult.unsettled] at settled
  · rw [if_neg ‹_›]

/-- The manifest of a scan that finds the shape of the old one. -/
def rescanned (importer : Importer Json) (manifest : InstanceManifest Json)
    (detection : DetectionResult Json) (servingMode : ServingMode) (keepConfirmedShape : Bool) :
    InstanceManifest Json :=
  Importer.merge manifest detection keepConfirmedShape
    (importer.newManifest manifest.id manifest.name detection (manifest.extra "sourceZipHash") none
      manifest.nameSource manifest.kind manifest.runtime servingMode)

/-- The fields that are not copied as they are. -/
structure FieldsSame (manifest new : InstanceManifest Json) : Prop where
  schemaVersion : new.schemaVersion = manifest.schemaVersion
  servingMode : new.servingMode = manifest.servingMode
  desiredState : new.desiredState = manifest.desiredState
  status : new.status = manifest.status
  static : new.static = manifest.static
  container : new.container = (withDerived manifest new).container
  network : new.network = withDerivedNetwork manifest.network new.network
  entry : new.entry = withDerivedEntry manifest.entry new.entry
  hostBuild : new.hostBuild = manifest.hostBuild
  preSync : new.preSync = manifest.preSync
  hostBuildPending : new.hostBuildPending = manifest.hostBuildPending
  sourceKind : new.sourceKind = manifest.sourceKind
  verificationSummary : new.verificationSummary = manifest.verificationSummary
  compatibilityFindings : new.compatibilityFindings = manifest.compatibilityFindings
  compatibilityScanMeta : new.compatibilityScanMeta = manifest.compatibilityScanMeta
  extra : new.extra = manifest.extra

theorem FieldsSame.of_eq {manifest new : InstanceManifest Json} (kept : new = withDerived manifest new) :
    FieldsSame manifest new where
  schemaVersion := congrArg (·.schemaVersion) kept
  servingMode := congrArg (·.servingMode) kept
  desiredState := congrArg (·.desiredState) kept
  status := congrArg (·.status) kept
  static := congrArg (·.static) kept
  container := congrArg (·.container) kept
  network := congrArg (·.network) kept
  entry := congrArg (·.entry) kept
  hostBuild := congrArg (·.hostBuild) kept
  preSync := congrArg (·.preSync) kept
  hostBuildPending := congrArg (·.hostBuildPending) kept
  sourceKind := congrArg (·.sourceKind) kept
  verificationSummary := congrArg (·.verificationSummary) kept
  compatibilityFindings := congrArg (·.compatibilityFindings) kept
  compatibilityScanMeta := congrArg (·.compatibilityScanMeta) kept
  extra := congrArg (·.extra) kept

section Rescan

variable {importer : Importer Json} {manifest : InstanceManifest Json} {detection : DetectionResult Json}
  {servingMode : ServingMode} {keepConfirmedShape : Bool}

/-- All other fields are copied or derived. -/
theorem FieldsSame.eq
    (same : FieldsSame manifest (rescanned importer manifest detection servingMode keepConfirmedShape)) :
    rescanned importer manifest detection servingMode keepConfirmedShape =
      withDerived manifest (rescanned importer manifest detection servingMode keepConfirmedShape) := by
  unfold rescanned Importer.merge Importer.newManifest withDerived
  congr 1
  case e_schemaVersion => exact same.schemaVersion
  case e_servingMode => exact same.servingMode
  case e_desiredState => exact same.desiredState
  case e_status => exact same.status
  case e_static => exact same.static
  case e_container => exact same.container
  case e_network => exact same.network
  case e_entry => exact same.entry
  case e_hostBuild => exact same.hostBuild
  case e_preSync => exact same.preSync
  case e_hostBuildPending => exact same.hostBuildPending
  case e_sourceKind => exact same.sourceKind
  case e_verificationSummary => exact same.verificationSummary
  case e_compatibilityFindings => exact same.compatibilityFindings
  case e_compatibilityScanMeta => exact same.compatibilityScanMeta
  case e_extra => exact same.extra

theorem section_static_iff (runtime : manifest.runtime = .sharedStatic) :
    (rescanned importer manifest detection servingMode keepConfirmedShape).static = manifest.static ↔
      ∃ config, manifest.static = some config ∧ StaticKept config := by
  have static : (rescanned importer manifest detection servingMode keepConfirmedShape).static =
      some (Importer.mergeStatic manifest.static (Importer.newStatic none)) := by
    simp [rescanned, Importer.merge, Importer.newManifest, runtime]
  rw [static]
  cases old : manifest.static with
  | none => simp
  | some config =>
    rw [Option.some_inj, mergeStatic_kept_iff]
    simp

theorem section_container_iff (runtime : manifest.runtime = .dockerCompose) :
    (rescanned importer manifest detection servingMode keepConfirmedShape).container =
        (withDerived manifest (rescanned importer manifest detection servingMode keepConfirmedShape)).container ↔
      ∃ config, manifest.container = some config ∧ ContainerKept importer manifest.id config := by
  have container : (rescanned importer manifest detection servingMode keepConfirmedShape).container =
      some (Importer.mergeContainer manifest.container detection
        (importer.newContainer manifest.id detection none)) := by
    simp [rescanned, Importer.merge, Importer.newManifest, runtime]
  simp only [withDerived]
  rw [container]
  cases old : manifest.container with
  | none => simp
  | some config =>
    have kept := mergeContainer_kept_iff importer manifest.id detection config
    simpa using kept

theorem sections_iff :
    let new := rescanned importer manifest detection servingMode keepConfirmedShape
    (new.static = manifest.static ∧ new.container = (withDerived manifest new).container ∧
      new.hostBuild = manifest.hostBuild ∧ new.preSync = manifest.preSync ∧
      new.hostBuildPending = manifest.hostBuildPending) ↔ SectionsKept importer manifest := by
  intro new
  unfold SectionsKept
  cases runtime : manifest.runtime with
  | sharedStatic =>
    have container : new.container = none := by
      simp [new, rescanned, Importer.merge, Importer.newManifest, runtime]
    have hooks : new.hostBuild = none ∧ new.preSync = none ∧ new.hostBuildPending = false := by
      simp [new, rescanned, Importer.merge, Importer.newManifest, runtime]
    have derived : (withDerived manifest new).container = manifest.container := by
      cases old : manifest.container <;> simp [withDerived, container, old]
    rw [section_static_iff runtime, derived, container, hooks.1, hooks.2.1, hooks.2.2]
    simp only [eq_comm]
  | dockerCompose =>
    have static : new.static = none := by
      simp [new, rescanned, Importer.merge, Importer.newManifest, runtime]
    have hooks : new.hostBuild = manifest.hostBuild ∧ new.preSync = manifest.preSync ∧
        new.hostBuildPending = manifest.hostBuildPending := by
      simp [new, rescanned, Importer.merge, Importer.newManifest, runtime]
    rw [section_container_iff runtime, static]
    constructor
    · rintro ⟨static, container, -⟩
      exact ⟨container, static.symm⟩
    · rintro ⟨container, static⟩
      exact ⟨static.symm, container, hooks⟩

/-- A scan copies of the fields beyond the schema the hash of the zip alone. -/
theorem extra_iff :
    (rescanned importer manifest detection servingMode keepConfirmedShape).extra = manifest.extra ↔
      ∀ key value, manifest.extra key = some value → key = "sourceZipHash" ∧ importer.truthy value := by
  have extra : (rescanned importer manifest detection servingMode keepConfirmedShape).extra = fun key =>
      if key = "sourceZipHash" then (manifest.extra "sourceZipHash").filter importer.truthy else none := rfl
  rw [extra]
  constructor
  · intro kept key value stored
    have here := congrFun kept key
    rw [stored] at here
    by_cases hash : key = "sourceZipHash"
    · subst hash
      simp only [if_pos, stored, Option.filter_eq_some_iff] at here
      exact ⟨rfl, here.2⟩
    · simp [hash] at here
  · intro kept
    funext key
    cases stored : manifest.extra key with
    | none =>
      by_cases hash : key = "sourceZipHash"
      · subst hash
        simp [stored]
      · simp [hash]
    | some value =>
      obtain ⟨rfl, truthy⟩ := kept key value stored
      simp [stored, truthy]

theorem rescanned_kept_iff (settled : detection.unsettled = false) (confirmed : manifest.status ≠ .pending)
    (kind : detection.kind = some manifest.kind) (runtime : detection.runtime = some manifest.runtime)
    (serves : detection.servingMode = some servingMode) :
    rescanned importer manifest detection servingMode keepConfirmedShape =
        withDerived manifest (rescanned importer manifest detection servingMode keepConfirmedShape) ↔
      NothingLost importer manifest detection := by
  have alike : Importer.detectionShapeDiffers manifest detection = false := by
    simp [Importer.detectionShapeDiffers, settled, kind, runtime]
  have entry : (rescanned importer manifest detection servingMode keepConfirmedShape).entry =
      manifest.entry.preserveUser (Importer.snapshotEntry detection.entry) := by
    simp [rescanned, Importer.merge, Importer.newManifest, alike]
  have entryKept := preserveUser_kept_iff manifest.entry (Importer.snapshotEntry detection.entry)
  have networkKept := network_kept_iff manifest.network detection.internalPort
  constructor
  · intro kept
    have same := FieldsSame.of_eq kept
    exact {
      servingMode := serves.trans (congrArg some same.servingMode)
      schemaVersion := same.schemaVersion.symm
      sections := sections_iff.mp
        ⟨same.static, same.container, same.hostBuild, same.preSync, same.hostBuildPending⟩
      network := networkKept.mp same.network
      entry := entryKept.mp (by rw [← entry]; exact same.entry)
      sourceKind := by
        intro empty
        have zip := same.sourceKind
        simp [rescanned, Importer.merge, empty] at zip
      verificationSummary := same.verificationSummary.symm
      compatibilityFindings := same.compatibilityFindings.symm
      compatibilityScanMeta := same.compatibilityScanMeta.symm
      extra := extra_iff.mp same.extra }
  · intro kept
    obtain ⟨static, container, hostBuild, preSync, hostBuildPending⟩ :=
      (@sections_iff Json importer manifest detection servingMode keepConfirmedShape).mpr kept.sections
    exact FieldsSame.eq {
      schemaVersion := kept.schemaVersion.symm
      servingMode := Option.some_inj.mp (serves.symm.trans kept.servingMode)
      desiredState := by simp [rescanned, Importer.merge, settled, confirmed]
      status := by simp [rescanned, Importer.merge, settled, confirmed]
      static := static
      container := container
      network := networkKept.mpr kept.network
      entry := by rw [entry]; exact entryKept.mpr kept.entry
      hostBuild := hostBuild
      preSync := preSync
      hostBuildPending := hostBuildPending
      sourceKind := if_neg kept.sourceKind
      verificationSummary := kept.verificationSummary.symm
      compatibilityFindings := kept.compatibilityFindings.symm
      compatibilityScanMeta := kept.compatibilityScanMeta.symm
      extra := extra_iff.mpr kept.extra }

end Rescan

/-! ## A scan of an instance -/

section Scan

variable {importer : Importer Json} {manifest : InstanceManifest Json} {detection : DetectionResult Json}
  {keepConfirmedShape : Bool} {new : InstanceManifest Json}

/-- A scan that returns has built a manifest; it keeps the old one where it has to keep its shape. -/
theorem applyDetection_cases
    (returned : importer.applyDetectionToManifest manifest detection keepConfirmedShape = some new) :
    ∃ kind runtime servingMode,
      (importer.failClosed detection).shape = some (kind, runtime, servingMode) ∧
      new = if keepConfirmedShape ∧ manifest.status ≠ .pending ∧
          Importer.detectionShapeDiffers manifest (importer.failClosed detection) then manifest
        else Importer.merge manifest (importer.failClosed detection) keepConfirmedShape
          (importer.newManifest manifest.id manifest.name (importer.failClosed detection)
            (manifest.extra "sourceZipHash") none manifest.nameSource kind runtime servingMode) := by
  simp only [Importer.applyDetectionToManifest, Importer.buildManifestFromDetection] at returned
  cases shape : (importer.failClosed detection).shape with
  | none => simp [shape] at returned
  | some found =>
    obtain ⟨kind, runtime, servingMode⟩ := found
    refine ⟨kind, runtime, servingMode, rfl, ?_⟩
    by_cases refused : Importer.refused manifest.id manifest.name (importer.failClosed detection)
    · simp [shape, refused] at returned
    · simp only [shape, if_neg refused] at returned
      split at returned
      · rw [if_pos ‹_›]
        exact (Option.some_inj.mp returned).symm
      · rw [if_neg ‹_›]
        exact (Option.some_inj.mp returned).symm

/-- A confirmed shape that the scan does not find again is kept with the whole manifest. -/
theorem applyDetection_differs (confirmed : manifest.status ≠ .pending)
    (differs : Importer.detectionShapeDiffers manifest (importer.failClosed detection) = true)
    (returned : importer.applyDetectionToManifest manifest detection true = some new) : new = manifest := by
  obtain ⟨kind, runtime, servingMode, -, rfl⟩ := applyDetection_cases returned
  exact if_pos ⟨rfl, confirmed, differs⟩

/-- Without a shape to keep, a pending detection makes a pending draft of the instance. -/
theorem applyDetection_unsettled (unsettled : (importer.failClosed detection).unsettled = true)
    (returned : importer.applyDetectionToManifest manifest detection false = some new) :
    new.status = .pending := by
  obtain ⟨kind, runtime, servingMode, -, rfl⟩ := applyDetection_cases returned
  simp [Importer.merge, unsettled]

theorem applyDetection_settled (settled : (importer.failClosed detection).unsettled = false)
    (same : SameShape manifest detection)
    (returned : importer.applyDetectionToManifest manifest detection keepConfirmedShape = some new) :
    ∃ servingMode, detection.servingMode = some servingMode ∧
      new = rescanned importer manifest detection servingMode keepConfirmedShape := by
  obtain ⟨kind, runtime, servingMode, shape, rfl⟩ := applyDetection_cases returned
  have plain := failClosed_settled importer detection settled
  rw [plain] at settled shape ⊢
  obtain ⟨kindFound, runtimeFound, serves⟩ := shape_settled settled shape
  have kindSame : kind = manifest.kind := Option.some_inj.mp (kindFound.symm.trans same.1)
  have runtimeSame : runtime = manifest.runtime := Option.some_inj.mp (runtimeFound.symm.trans same.2)
  have alike : Importer.detectionShapeDiffers manifest detection = false := by
    simp [Importer.detectionShapeDiffers, settled, same.1, same.2]
  refine ⟨servingMode, serves, ?_⟩
  rw [if_neg (by simp [alike]), kindSame, runtimeSame, rescanned]

/-- A scan that returns has found another shape wherever it has not found the old one. -/
theorem applyDetection_other (other : ¬SameShape manifest detection)
    (returned : importer.applyDetectionToManifest manifest detection keepConfirmedShape = some new) :
    Importer.detectionShapeDiffers manifest (importer.failClosed detection) = true := by
  obtain ⟨kind, runtime, servingMode, shape, -⟩ := applyDetection_cases returned
  cases settled : (importer.failClosed detection).unsettled with
  | true => simp [Importer.detectionShapeDiffers, settled]
  | false =>
    have plain := failClosed_settled importer detection settled
    rw [plain] at settled shape ⊢
    obtain ⟨kindFound, runtimeFound, -⟩ := shape_settled settled shape
    simp only [SameShape, kindFound, runtimeFound, Option.some_inj, not_and_or] at other
    simpa [Importer.detectionShapeDiffers, settled, kindFound, runtimeFound] using other

end Scan

/-- The manifest of an instance that is no longer pending loses nothing that a scan does not derive
exactly if it has defaults in the fields that nobody copies and the scan settles on its shape or
may not give it up. -/
theorem rescan_frame_iff (importer : Importer Json) (manifest new : InstanceManifest Json)
    (detection : DetectionResult Json) (keepConfirmedShape : Bool) (confirmed : manifest.status ≠ .pending)
    (returned : importer.applyDetectionToManifest manifest detection keepConfirmedShape = some new) :
    ((SameShape manifest detection → new = withDerived manifest new) ∧
        (¬SameShape manifest detection → keepConfirmedShape = true → new = manifest)) ↔
      (SameShape manifest detection → Retained importer manifest detection keepConfirmedShape) := by
  have other : ¬SameShape manifest detection → keepConfirmedShape = true → new = manifest := by
    rintro other rfl
    exact applyDetection_differs confirmed (applyDetection_other other returned) returned
  rw [and_iff_left other]
  apply imp_congr_right
  intro same
  unfold Retained
  cases unsettled : (importer.failClosed detection).unsettled with
  | false =>
    obtain ⟨servingMode, serves, rfl⟩ := applyDetection_settled unsettled same returned
    have plain := failClosed_settled importer detection unsettled
    rw [plain] at unsettled
    exact rescanned_kept_iff unsettled confirmed same.1 same.2 serves
  | true =>
    have differs : Importer.detectionShapeDiffers manifest (importer.failClosed detection) = true := by
      simp [Importer.detectionShapeDiffers, unsettled]
    cases keepConfirmedShape with
    | true =>
      have kept := applyDetection_differs confirmed differs returned
      rw [kept]
      exact iff_of_true (withDerived_self manifest).symm rfl
    | false =>
      have pending := applyDetection_unsettled unsettled returned
      simp only [if_pos, reduceCtorEq, iff_false]
      intro kept
      have status := congrArg (·.status) kept
      exact confirmed (status.symm.trans pending)

/-! ## Two instances -/

/-- A workspace without JSON values and plans. -/
def workspace : Importer String where
  truthy value := value ≠ ""
  generatePlans _ := .ok []
  dumpPlan plan := plan.planId
  dumpContract _ := ""
  appOriginalZip id := s!"/srv/lwa/apps/{id}/original.zip"
  appCurrent id := s!"/srv/lwa/apps/{id}/current"
  appComposePath id := s!"/srv/lwa/apps/{id}/docker/compose.yaml"
  appDockerfilePath id := s!"/srv/lwa/apps/{id}/docker/Dockerfile"
  nowIso := "2026-07-08T10:00:00Z"

/-- A container that runs under its own port. -/
def deployedContainer : InstanceManifest String where
  id := "api"
  name := "Api"
  version := "1"
  kind := .python
  runtime := .dockerCompose
  servingMode := .container
  desiredState := .running
  status := .running
  container := some {
    projectName := "lwa-api"
    containerId := some "4f1d"
    internalPort := 8000
    hostPort := some 21001
    composePath := workspace.appComposePath "api"
    dockerfilePath := workspace.appDockerfilePath "api" }
  createdAt := "2026-07-01T10:00:00Z"
  updatedAt := "2026-07-01T10:00:00Z"

def containerDetection : DetectionResult String where
  kind := some .python
  runtime := some .dockerCompose
  servingMode := some .container
  resourceProfile := .medium
  stack := ["fastapi"]
  internalPort := some 9000

theorem rescan_frame_container : ∃ new,
    workspace.applyDetectionToManifest deployedContainer containerDetection false = some new ∧
      new = withDerived deployedContainer new := by
  refine ⟨_, rfl, ?_⟩
  refine ((rescan_frame_iff workspace deployedContainer _ containerDetection false (by decide) rfl).mpr
    (fun _ => ?_)).1 ⟨rfl, rfl⟩
  exact {
    servingMode := rfl
    schemaVersion := rfl
    sections := ⟨⟨_, rfl, ⟨rfl, rfl, .inr ⟨rfl, rfl⟩, rfl⟩⟩, rfl⟩
    network := ⟨rfl, rfl, rfl, rfl, rfl, rfl, rfl, rfl⟩
    entry := rfl
    sourceKind := by decide
    verificationSummary := rfl
    compatibilityFindings := rfl
    compatibilityScanMeta := rfl
    extra := nofun }

/-- A page that runs under its own port. -/
def deployedPage : InstanceManifest String where
  id := "page"
  name := "Page"
  version := "1"
  kind := .static
  runtime := .sharedStatic
  servingMode := .sharedStatic
  desiredState := .running
  status := .running
  static := some { hostPort := some 20001 }
  createdAt := "2026-07-01T10:00:00Z"
  updatedAt := "2026-07-01T10:00:00Z"

def pageDetection : DetectionResult String where
  kind := some .static
  runtime := some .sharedStatic
  servingMode := some .sharedStatic
  resourceProfile := .tiny

/-- A scan of a page forgets the port that its gateway listens on. -/
theorem page_port_lost : ∃ new,
    workspace.applyDetectionToManifest deployedPage pageDetection true = some new ∧
      SameShape deployedPage pageDetection ∧ deployedPage.static.bind (·.hostPort) = some 20001 ∧
      new.static.bind (·.hostPort) = none ∧ new ≠ withDerived deployedPage new := by
  refine ⟨_, rfl, ⟨rfl, rfl⟩, rfl, rfl, ?_⟩
  intro kept
  have port := congrArg (fun manifest => manifest.static.bind (·.hostPort)) kept
  cases port

end LocalWebAccess.RescanFrame
