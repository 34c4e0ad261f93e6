import LocalWebAccess.FailingEffects
import LocalWebAccess.InstanceManifest
import LocalWebAccess.KeyedTables
import Mathlib.Data.List.Sort

/-!
# The imports

`import_zip`, `import_from_dir` and `import_from_git` on the directories of the instances and the registry.
What they read from elsewhere, and which of their steps raise, is given to them.
-/
namespace LocalWebAccess.ImportPipelines
open FailingEffects KeyedTables

abbrev InstanceId := String

/-- The exceptions that the handlers tell apart. An interrupt is no `Exception`. -/
inductive Raised where
  | zipImport | recognition | osError | other | interrupt
  deriving DecidableEq, Repr

/-! ## The registry -/

/-- A row of one of the `_CHILD_TABLES`. -/
inductive ChildRow where
  | container (instanceId : InstanceId) (routeMode : String) (routeHost : Option String)
  | staticSite (instanceId : InstanceId) (routeMode : String) (routeHost : Option String)
  | port (instanceId : InstanceId) (port : ℕ)
  | event (instanceId : Option InstanceId) (eventType message : String)
  | build (instanceId : InstanceId)
  | resources (instanceId : InstanceId) (sourceSizeBytes dataSizeBytes : ℕ)
  deriving DecidableEq, Repr

namespace ChildRow

def instanceId : ChildRow → Option InstanceId
  | container i _ _ | staticSite i _ _ | port i _ | build i | resources i _ _ => some i
  | event i _ _ => i

/-- The host of a row with route mode `name`. -/
def routeHost : ChildRow → Option String
  | container _ mode host | staticSite _ mode host => if mode = "name" then host else none
  | _ => none

/-- A row of `containers` or `static_sites`. -/
def isRouteOf (i : InstanceId) : ChildRow → Bool
  | container j _ _ | staticSite j _ _ => j = i
  | _ => false

def isResourcesOf (i : InstanceId) : ChildRow → Bool
  | resources j _ _ => j = i
  | _ => false

end ChildRow

/-- The ids of `instances`, and the rows that refer to them by a foreign key. -/
@[ext]
structure Registry where
  instances : List InstanceId
  children : List ChildRow
  referenced : ∀ row ∈ children, ∀ i, row.instanceId = some i → i ∈ instances

namespace Registry

def instanceExists (r : Registry) (i : InstanceId) : Bool := i ∈ r.instances

/-- The pairs of `list_route_hosts`. -/
def listRouteHosts (r : Registry) : List (String × InstanceId) :=
  r.children.filterMap fun row =>
    match row.routeHost, row.instanceId with
    | some host, some i => if r.instanceExists i then some (host, i) else none
    | _, _ => none

def register (i : InstanceId) (r : Registry) : Registry where
  instances := if i ∈ r.instances then r.instances else r.instances ++ [i]
  children := r.children
  referenced row mem j mine := by
    have known := r.referenced row mem j mine
    split_ifs
    · exact known
    · exact List.mem_append_left _ known

/-- The foreign key of a row holds. -/
def accepts (r : Registry) (row : ChildRow) : Bool := row.instanceId.all r.instanceExists

/-- A row in place of those that its primary key, or the statement, removes. -/
def put (replaced : ChildRow → Bool) (row : ChildRow) (r : Registry) : Registry where
  instances := r.instances
  children := if r.accepts row then r.children.filter (!replaced ·) ++ [row] else r.children
  referenced other mem j mine := by
    split_ifs at mem with known
    · rcases List.mem_append.mp mem with kept | added
      · exact r.referenced other (List.mem_of_mem_filter kept) j mine
      · rw [List.mem_singleton.mp added] at mine
        rw [accepts, mine] at known
        exact of_decide_eq_true known
    · exact r.referenced other mem j mine

/-- `delete_instance` -/
def deleteInstance (i : InstanceId) (r : Registry) : Registry where
  instances := r.instances.filter (· ≠ i)
  children := r.children.filter (·.instanceId ≠ some i)
  referenced row mem j mine := by
    obtain ⟨mem, other⟩ := List.mem_filter.mp mem
    refine List.mem_filter.mpr ⟨r.referenced row mem j mine, ?_⟩
    rw [mine] at other
    simpa using other

variable {Json : Type}

/-- `upsert_from_manifest` -/
def upsertFromManifest (m : InstanceManifest Json) (r : Registry) : Registry :=
  match m.container, m.static with
  | some c, _ => (r.register m.id).put (·.isRouteOf m.id) (.container m.id c.routeMode c.routeHost)
  | none, some s => (r.register m.id).put (·.isRouteOf m.id) (.staticSite m.id s.routeMode s.routeHost)
  | none, none => r.register m.id

end Registry

/-! ## The workspace -/

/-- The directories of the instances, each with the manifest in it, and the registry. -/
@[ext]
structure Workspace (Json : Type) where
  apps : Table InstanceId (Option (InstanceManifest Json))
  registry : Registry

namespace Workspace

variable {Json : Type} (w : Workspace Json)

def makeDir (i : InstanceId) : Workspace Json := { w with apps := w.apps.insert i none }

def removeDir (i : InstanceId) : Workspace Json := { w with apps := w.apps.erase i }

def save (i : InstanceId) (m : InstanceManifest Json) : Workspace Json :=
  { w with apps := w.apps.insert i (some m) }

def record (change : Registry → Registry) : Workspace Json := { w with registry := change w.registry }

/-- The id has a row or a directory. -/
def idTaken (i : InstanceId) : Bool := w.registry.instanceExists i || i ∈ w.apps

end Workspace

inductive OnConflict where
  | rename | error
  deriving DecidableEq, Repr

/-- What may raise. -/
inductive Step where
  | locking | releasing
  | validatingZip | hashing | listingHosts | validatingAlias | detectingBackend
  | looking (candidate : InstanceId)
  | making | ensuring | removingClaimed | starting
  | copying | extracting | scanning | locating | titling | building | guarding | checking | saving | upserting | sizing
  | recordingResources
  | event (n : ℕ)
  | finishing
  | removingDir | deletingRow
  | validatingSource | hashingSource | openingTemp | packing | unlinkingTemp
  | parsingUrl | validatingSubdir | cloning | resolvingRoot | leavingClone
  | loadingIdentity | savingIdentity | recordingIdentity | closing
  deriving DecidableEq, Repr

/-- `CompatibilityFinding`, as far as its event has it. -/
structure Finding where
  checkId : String
  severity : String
  title : String
  file : Option String
  line : Option ℤ

/-- `ZipSanitizeResult`, as far as its event has it. -/
structure ZipSanitizeResult where
  strippedNames : List String
  strippedSymlinkCount : ℕ
  categories : List (String × ℕ)

/-- What the steps meet: the exception of each, and whether one that raises has had its effect before; what the
functions that the imports call make of the source and of the arguments. -/
structure Conditions (Json : Type) where
  raises : Step → Option Raised
  done : Step → Bool
  importer : Importer Json
  slug : Option String → String → String
  titleize : String → String
  zipHash : String
  text : String → Json
  aliasAllowed : String → Bool
  caddy : Bool
  detection : DetectionResult Json
  form : DetectionResult Json → String
  pageTitle : Option String
  aliasExempt : Option String
  findings : List Finding
  dumpFinding : Finding → Json
  sourceSize : ℕ
  dataSize : ℕ
  envExample : Bool
  envFiles : List String
  sanitized : Option ZipSanitizeResult
  now : String

structure ImportResult (Json : Type) where
  instanceId : InstanceId
  manifest : InstanceManifest Json
  detection : DetectionResult Json
  zipHash : String
  sanitized : Option ZipSanitizeResult

/-- The arguments of `import_zip`; `stem` is the one of the path. -/
structure ZipRequest where
  stem : String
  name : Option String
  pathAlias : Option String
  onConflict : OnConflict
  idBasis : Option String

abbrev Effect (Json : Type) := FailingEffects.Effect (Workspace Json) Raised

section

variable {Json : Type} (env : Conditions Json)

/-- A step that changes nothing here. -/
def run (step : Step) : Effect Json PUnit := attempt (env.raises step)

/-- A step that changes the workspace, perhaps also where it raises. -/
def write (step : Step) (change : Workspace Json → Workspace Json) : Effect Json PUnit := do
  modify fun w => if env.raises step = none ∨ env.done step then change w else w
  run env step

/-- `shutil.rmtree(…, ignore_errors=True)` -/
def rmtree (step : Step) (i : InstanceId) : Effect Json PUnit :=
  match env.raises step with
  | none => modify (·.removeDir i)
  | some raised => if raised = .interrupt then throw raised else pure ⟨⟩

/-- An insertion, which raises where the foreign key does not hold. -/
def insertRow (step : Step) (replaced : ChildRow → Bool) (row : ChildRow) : Effect Json PUnit := do
  let w ← get
  if w.registry.accepts row then write env step (·.record (Registry.put replaced row)) else throw .other

def addEvent (step : Step) (i : InstanceId) (eventType message : String) : Effect Json PUnit :=
  insertRow env step (fun _ => false) (.event (some i) eventType message)

/-! ## The id -/

/-- The loop of `_claim_unique_id`, up to the directory that it makes. -/
def uniqueId (raises : Step → Option Raised) (w : Workspace Json) (baseSlug : InstanceId)
    (onConflict : OnConflict) : ℕ → InstanceId → ℕ → Except Raised InstanceId
  | 0, _, _ => .error .other
  | fuel + 1, candidate, n =>
    match raises (.looking candidate) with
    | some raised => .error raised
    | none =>
      if w.idTaken candidate then
        if onConflict = .error then .error .zipImport
        else uniqueId raises w baseSlug onConflict fuel (baseSlug ++ "-" ++ toString n) (n + 1)
      else .ok candidate

/-- The candidates are not more than those that are taken, and one. -/
def freeId (raises : Step → Option Raised) (w : Workspace Json) (baseSlug : InstanceId)
    (onConflict : OnConflict) : Except Raised InstanceId :=
  uniqueId raises w baseSlug onConflict (w.registry.instances.length + w.apps.keys.length + 1) baseSlug 2

/-- `_claim_unique_id` -/
def claimUniqueId (baseSlug : InstanceId) (onConflict : OnConflict) : Effect Json InstanceId := do
  let w ← get
  let candidate ← ofResult (freeId env.raises w baseSlug onConflict)
  write env .making (·.makeDir candidate)
  tryCatch (run env .ensuring) fun raised =>
    if raised = .interrupt then throw raised
    else do
      rmtree env .removingClaimed candidate
      throw raised
  pure candidate

/-! ## The import of an archive -/

/-- The checks of the alias before anything is written. -/
def checkAlias (pathAlias : Option String) : Effect Json PUnit :=
  match pathAlias with
  | none => pure ⟨⟩
  | some slug => do
    run env .listingHosts
    let w ← get
    run env .validatingAlias
    if env.aliasAllowed slug ∧ slug ∉ w.registry.listRouteHosts.map Prod.fst then do
      run env .detectingBackend
      if env.caddy then pure ⟨⟩ else throw .recognition
    else throw .other

/-- The title of the home page; an `OSError` of its text is suppressed. -/
def pageTitle : Effect Json (Option String) := do
  run env .locating
  tryCatch
    (do
      run env .titling
      pure env.pageTitle)
    fun raised => if raised = .osError then pure none else throw raised

/-- The display name with its `nameSource`, where no name is given. -/
def Conditions.titled (title : Option String) (slug : String) : String × String :=
  match title.filter (· ≠ "") with
  | some title => (title, "html_title")
  | none => (env.titleize slug, "slug")

def displayName (name : Option String) (slug : String) : Effect Json (String × String) :=
  match name.filter (· ≠ "") with
  | some name => pure (name, "user")
  | none => do
    let title ← pageTitle env
    pure (env.titled title slug)

/-- An alias is for a runtime that has one. -/
def checkRuntime (pathAlias : Option String) : Effect Json PUnit :=
  if pathAlias.isSome ∧ env.detection.runtime = none then throw .zipImport else pure ⟨⟩

/-- The detection after `_build_manifest` has looked at it. -/
def Conditions.settled : DetectionResult Json := env.importer.failClosed env.detection

def buildManifest (i : InstanceId) (display : String × String) (pathAlias : Option String) :
    Effect Json (InstanceManifest Json) := do
  run env .building
  match env.importer.buildManifestFromDetection i display.1 env.settled (some (env.text env.zipHash)) pathAlias
    (some display.2) with
  | none => throw .other
  | some manifest => pure manifest

/-- The alias that `_guard_import_path_alias` looks at. -/
def Conditions.guarded (pathAlias : Option String) : Bool := pathAlias.isSome && !env.settled.pending

def Conditions.exempt (pathAlias : Option String) : Option String :=
  if env.guarded pathAlias then env.aliasExempt else none

/-- `_guard_import_path_alias` -/
def guardImportPathAlias (pathAlias : Option String) (manifest : InstanceManifest Json) :
    Effect Json (InstanceManifest Json) :=
  if env.guarded pathAlias then do
    run env .guarding
    pure { manifest with buildBaseFromAlias := env.aliasExempt.isSome || manifest.buildBaseFromAlias }
  else pure manifest

/-- The compatibility findings; an exception is none of the import's. -/
def checkCompatibility : Effect Json (List Finding) :=
  tryCatch
    (do
      run env .checking
      pure env.findings)
    fun raised => if raised = .interrupt then throw raised else pure []

def withFindings (manifest : InstanceManifest Json) (findings : List Finding) : InstanceManifest Json :=
  if findings = [] then manifest
  else { manifest with compatibilityFindings := findings.map env.dumpFinding }

def shortHash (hash : String) : String := String.ofList (hash.toList.take 12)

def Finding.message (f : Finding) : String :=
  let place := f.file.filter (· ≠ "")
  let loc := place.elim "" fun file => " (" ++ file ++ ":" ++ f.line.elim "None" toString ++ ")"
  "[" ++ f.checkId ++ "/" ++ f.severity ++ "] " ++ f.title ++ loc

def ZipSanitizeResult.message (z : ZipSanitizeResult) : String :=
  let sorted := z.categories.insertionSort fun a b => a.2 ≥ b.2
  let parts := ", ".intercalate (sorted.map fun c => c.1 ++ "×" ++ toString c.2)
  "剥离冗余成员 " ++ toString z.strippedNames.length ++ " 项（含 symlink " ++ toString z.strippedSymlinkCount ++
    "）：" ++ parts

/-- `unknown_zip_risk_hint` -/
def unknownZipRiskHint : String :=
  "该 zip 来源未经信任确认。zip 内可能包含构建脚本（npm postinstall、" ++
    "pip install 脚本、Dockerfile RUN）、挂载声明或对外服务，存在供应链与" ++
    "运行时风险。请在确认来源可信后，再执行构建或启动；uncertain 实例默认" ++ "保持 pending，不会自动构建或启动。"

/-- The types and messages of the events of an import, in their order. -/
def importEvents (pathAlias : Option String) (findings : List Finding) : List (String × String) :=
  let imported := "导入完成，sha256=" ++ shortHash env.zipHash ++
    if env.settled.pending then "，未识别（pending）" else "，识别为 " ++ env.form env.settled
  let exempted := match env.exempt pathAlias, pathAlias with
    | some exempt, some slug => [("path-alias", "导入期别名守卫豁免（" ++ exempt ++ " 指向别名 /" ++ slug ++ "/，构建型前端）")]
    | _, _ => []
  let sanitized := env.sanitized.filter fun z => z.strippedNames ≠ []
  [("import", imported)] ++ exempted ++
    env.settled.preflightNotes.map (fun note => ("preflight", note)) ++
    findings.map (fun f => ("compatibility", f.message)) ++
    (if env.envExample then
      [("env_example_detected", "检测到 .env.example：部署后复制为 docker/.env.example，" ++
        "业务密钥请填入 docker/.env.local（compose 自动注入）")]
    else []) ++
    env.envFiles.map (fun rel => ("env_detected", "检测到源目录 " ++ rel ++
      "：被 .dockerignore 排除、不会进入镜像或容器；业务键请手动迁移到 docker/.env.local（compose 自动注入）")) ++
    sanitized.toList.map (fun z => ("security", z.message)) ++
    if env.settled.pending then [("security", unknownZipRiskHint)] else []

def recordEvents (i : InstanceId) : ℕ → List (String × String) → Effect Json PUnit
  | _, [] => pure ⟨⟩
  | n, event :: events => do
    addEvent env (.event n) i event.1 event.2
    recordEvents i (n + 1) events

/-- What is written of an import: the manifest, its rows and the events. -/
def register (i : InstanceId) (pathAlias : Option String) (manifest : InstanceManifest Json)
    (findings : List Finding) : Effect Json PUnit := do
  write env .saving (·.save i manifest)
  write env .upserting (·.record (Registry.upsertFromManifest manifest))
  run env .sizing
  insertRow env .recordingResources (·.isResourcesOf i) (.resources i env.sourceSize env.dataSize)
  recordEvents env i 0 (importEvents env pathAlias findings)

/-- The body of the `try` in `_import_zip_locked`. -/
def importInto (request : ZipRequest) (slug : String) (i : InstanceId) : Effect Json (ImportResult Json) := do
  run env .copying
  run env .extracting
  run env .scanning
  let display ← displayName env request.name slug
  checkRuntime env request.pathAlias
  let built ← buildManifest env i display request.pathAlias
  let guarded ← guardImportPathAlias env request.pathAlias built
  let findings ← checkCompatibility env
  register env i request.pathAlias (withFindings env guarded findings) findings
  run env .finishing
  pure ⟨i, withFindings env guarded findings, env.settled, env.zipHash, env.sanitized⟩

/-- `if app_dir.exists(): shutil.rmtree(app_dir, ignore_errors=True)` -/
def removeAppDir (i : InstanceId) : Effect Json PUnit := do
  let w ← get
  if i ∈ w.apps then rmtree env .removingDir i else pure ⟨⟩

/-- The row is deleted where there is one; an exception is only logged. -/
def removeRow (i : InstanceId) : Effect Json PUnit :=
  tryCatch
    (do
      run env .deletingRow
      modify fun w => if w.registry.instanceExists i then w.record (Registry.deleteInstance i) else w)
    fun raised => if raised = .interrupt then throw raised else pure ⟨⟩

/-- `_cleanup_failed` -/
def cleanupFailed (i : InstanceId) : Effect Json PUnit := do
  removeAppDir env i
  removeRow env i

/-- `slug_basis_for_id` is given `id_basis or src.stem`. -/
def ZipRequest.basis (request : ZipRequest) : String := (request.idBasis.filter (· ≠ "")).getD request.stem

/-- `_import_zip_locked` -/
def importZipLocked (request : ZipRequest) : Effect Json (ImportResult Json) := do
  run env .validatingZip
  run env .hashing
  checkAlias env request.pathAlias
  let i ← claimUniqueId env (env.slug request.name request.basis) request.onConflict
  run env .starting
  tryCatch (importInto env request (env.slug request.name request.basis) i) fun raised => do
    cleanupFailed env i
    throw (if raised = .recognition ∨ raised = .interrupt then raised else .zipImport)

/-- `import_activity_lock` -/
def withLock {α : Type} (body : Effect Json α) : Effect Json α := do
  run env .locking
  finalize body (run env .releasing)

/-- `import_zip` -/
def importZip (request : ZipRequest) : Effect Json (ImportResult Json) := withLock env (importZipLocked env request)

/-! ## Folders and repositories -/

/-- `tmp_zip.unlink(missing_ok=True)`; an `OSError` is suppressed. -/
def unlinkTemp : Effect Json PUnit :=
  tryCatch (run env .unlinkingTemp) fun raised => if raised = .osError then pure ⟨⟩ else throw raised

def loadManifest (i : InstanceId) : Effect Json (InstanceManifest Json) := do
  run env .loadingIdentity
  let w ← get
  match (w.apps.lookup i).join with
  | none => throw .other
  | some manifest => pure manifest

/-- The folder after `validate_source_dir`, with its fingerprint, and the arguments of `import_from_dir`. -/
structure FolderRequest where
  sourceDir : String
  dirName : String
  syncHash : String
  tempStem : String
  name : Option String
  pathAlias : Option String
  onConflict : OnConflict

def FolderRequest.zip (request : FolderRequest) : ZipRequest where
  stem := request.tempStem
  name := some ((request.name.filter (· ≠ "")).getD request.dirName)
  pathAlias := request.pathAlias
  onConflict := request.onConflict
  idBasis := some request.dirName

def FolderRequest.identity (request : FolderRequest) (now : String) (manifest : InstanceManifest Json) :
    InstanceManifest Json :=
  { manifest with
    sourceKind := "folder"
    sourceDirPath := some request.sourceDir
    sourceSyncHash := some request.syncHash
    updatedAt := now }

/-- `_import_from_dir_locked` -/
def importFromDirLocked (request : FolderRequest) : Effect Json (ImportResult Json) := do
  run env .validatingSource
  run env .hashingSource
  run env .openingTemp
  let result ← finalize
    (do
      run env .packing
      importZipLocked env request.zip)
    (unlinkTemp env)
  let manifest ← loadManifest env result.instanceId
  write env .savingIdentity (·.save result.instanceId (request.identity env.now manifest))
  addEvent env .recordingIdentity result.instanceId "import"
    ("文件夹源导入：" ++ request.sourceDir ++ "（指纹 " ++ shortHash request.syncHash ++ "）")
  run env .closing
  pure result

/-- `import_from_dir` -/
def importFromDir (request : FolderRequest) : Effect Json (ImportResult Json) :=
  withLock env (importFromDirLocked env request)

/-- The repository after `parse_github_url`, what `stage_git_clone` yields of it, and the arguments of
`import_from_git`. -/
structure GitRequest where
  url : String
  repo : String
  ref : String
  refKind : String
  commit : String
  subdir : Option String
  tempStem : String
  name : Option String
  pathAlias : Option String
  onConflict : OnConflict

def GitRequest.zip (request : GitRequest) : ZipRequest where
  stem := request.tempStem
  name := some ((request.name.filter (· ≠ "")).getD request.repo)
  pathAlias := request.pathAlias
  onConflict := request.onConflict
  idBasis := some request.repo

def GitRequest.identity (request : GitRequest) (now : String) (manifest : InstanceManifest Json) :
    InstanceManifest Json :=
  { manifest with
    sourceKind := "git"
    sourceDirPath := none
    sourceGitUrl := some request.url
    sourceGitRef := some request.ref
    sourceGitRefKind := some request.refKind
    sourceGitCommit := some request.commit
    sourceGitSubdir := request.subdir
    updatedAt := now }

def GitRequest.text (request : GitRequest) : String :=
  request.url ++ "（" ++ request.refKind ++ " " ++ request.ref ++ " @ " ++ shortHash request.commit ++ "）"

/-- The identity of the repository is written; where this fails the import is undone. -/
def writeGitIdentity (request : GitRequest) (result : ImportResult Json) : Effect Json (ImportResult Json) :=
  tryCatch
    (do
      let manifest ← loadManifest env result.instanceId
      write env .savingIdentity (·.save result.instanceId (request.identity env.now manifest))
      pure { result with manifest := request.identity env.now manifest })
    fun raised => do
      cleanupFailed env result.instanceId
      throw (if raised = .interrupt then raised else .zipImport)

/-- `_import_from_git_locked` -/
def importFromGitLocked (request : GitRequest) : Effect Json (ImportResult Json) := do
  run env .parsingUrl
  run env .validatingSubdir
  run env .openingTemp
  let result ← finalize
    (do
      run env .cloning
      finalize
        (do
          run env .resolvingRoot
          run env .packing
          let result ← importZipLocked env request.zip
          writeGitIdentity env request result)
        (run env .leavingClone))
    (unlinkTemp env)
  addEvent env .recordingIdentity result.instanceId "import" ("GitHub 源导入：" ++ request.text)
  run env .closing
  pure result

/-- `import_from_git` -/
def importFromGit (request : GitRequest) : Effect Json (ImportResult Json) :=
  withLock env (importFromGitLocked env request)

end

end LocalWebAccess.ImportPipelines
