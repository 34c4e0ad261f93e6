import LocalWebAccess.ParentChains
import LocalWebAccess.RoutePaths

/-!
# Routes of FastAPI applications

`compose_python_routes` collects the applications, routers, `include_router` calls and routes of all files, finds
out which call mounts which router, and then goes from the router of a route up through the mounts. A path gets a
high confidence exactly when the mounts lead to an application, and it then consists of the prefixes on the way.
-/

namespace LocalWebAccess.PythonRoutes

open ParentChains RoutePaths

/-- `<recv>.include_router(<target>, prefix=...)`; without a receiver the parent is `app`. -/
structure Include where
  parent : Text
  target : Text
  mountPrefix : Text

/-- What the patterns find in a file, in its order. -/
structure PythonFile where
  fastapiVars : List Text := []
  routers : List (Text × Text) := []
  includes : List Include := []
  routes : List Declared := []

/-- The dictionary of routers and their own prefixes; a later definition replaces an earlier one. -/
def PythonFile.routerPrefix (f : PythonFile) (var : Text) : Option Text := f.routers.reverse.lookup var

/-- The files in the order of `texts`. -/
abbrev Files := List (Path × PythonFile)

def Files.file (files : Files) (path : Path) : PythonFile := (files.lookup path).getD {}

/-- `resolve_module`; a module path without any name is a `ValueError`. -/
def resolveModule (scanRoot : Path) (files : Files) (includer : Path) (module : Text) : Except Unit (Option Path) :=
  match withSuffix ".py".toList ((module.splitOn '.').filter (· ≠ [])) with
  | none => .error ()
  | some rel =>
    match [scanRoot ++ rel, includer.dropLast ++ [rel.getLastD []]].find? (files.map Prod.fst).contains with
    | some candidate => .ok (some candidate)
    | none =>
      let last := (module.splitOn '.').getLastD []
      match (files.map Prod.fst).filter fun path => stem (path.getLastD []) = last with
      | [hit] => .ok (some hit)
      | _ => .ok none

/-- What a call mounts: a router variable (`mount_edges`) or a file as a whole (`file_mount_edges`). -/
inductive Target where
  | router (key : Key)
  | file (path : Path)
  deriving DecidableEq

/-- The file and variable that a router is mounted on, and the prefix. -/
structure Edge where
  file : Path
  parent : Text
  mountPrefix : Text

def targetOf (scanRoot : Path) (files : Files) (path : Path) (call : Include) : Except Unit (Option Target) :=
  if '.' ∈ call.target then do
    let parts := call.target.splitOn '.'
    let var := parts.getLastD []
    let resolved ← resolveModule scanRoot files path (['.'].intercalate parts.dropLast)
    pure (resolved.map fun found =>
      if ((files.file found).routerPrefix var).isSome then .router (found, var) else .file found)
  else if ((files.file path).routerPrefix call.target).isSome then
    .ok (some (.router (path, call.target)))
  else
    match (files.map Prod.fst).filter fun f => ((files.file f).routerPrefix call.target).isSome with
    | [holder] => .ok (some (.router (holder, call.target)))
    | _ => .ok none

/-- All mounts in the order in which they are declared. -/
def declaredMounts (scanRoot : Path) (files : Files) : Except Unit (List (Target × Edge)) := do
  let found ← files.mapM fun (path, file) => file.includes.mapM fun call => do
    let target ← targetOf scanRoot files path call
    pure (target.map fun t => (t, { file := path, parent := call.parent, mountPrefix := call.mountPrefix : Edge }))
  pure (found.flatten.filterMap id)

/-- `dict.setdefault`. -/
def setdefault (edges : List (Target × Edge)) (mount : Target × Edge) : List (Target × Edge) :=
  if (edges.lookup mount.1).isSome then edges else edges ++ [mount]

def mountEdges (mounts : List (Target × Edge)) : List (Target × Edge) := mounts.foldl setdefault []

/-- The mount of a router: its own or that of its file. -/
def edgeOf (edges : List (Target × Edge)) (key : Key) : Option Edge :=
  (edges.lookup (.router key)).or (edges.lookup (.file key.1))

/-- Every variable that some file defines as a router. -/
def Files.keys (files : Files) : List Key := files.flatMap fun (path, file) => file.routers.map fun r => (path, r.1)

theorem mem_keys {files : Files} {key : Key} {ctor : Text}
    (own : (files.file key.1).routerPrefix key.2 = some ctor) : key ∈ files.keys := by
  have among := List.mem_reverse.mp (mem_of_lookup own)
  cases known : files.lookup key.1 with
  | none =>
    rw [Files.file, known] at among
    cases among
  | some file =>
    rw [Files.file, known] at among
    exact List.mem_flatMap.mpr ⟨_, mem_of_lookup known, List.mem_map.mpr ⟨_, among, rfl⟩⟩

/-- `prefix_for`: the prefixes on the way up, and whether the way leads to an application. -/
def prefixFor (files : Files) (edges : List (Target × Edge)) (seen : List Key) (key : Key) : Text × Bool :=
  if _seen : key ∈ seen then ([], false)
  else if key.2 ∈ (files.file key.1).fastapiVars then ([], true)
  else
    match _own : (files.file key.1).routerPrefix key.2 with
    | none => ([], false)
    | some ctor =>
      match edgeOf edges key with
      | none => (ctor, false)
      | some edge =>
        let (base, ok) := prefixFor files edges (key :: seen) (edge.file, edge.parent)
        (joinPaths [base, edge.mountPrefix, ctor], ok)
  termination_by (files.keys.toFinset \ seen.toFinset).card
  decreasing_by exact card_sdiff_cons_lt (mem_keys ‹_›) ‹_›

def unmountedNote (var : Text) : Text :=
  "路由前缀合成：router 变量 ".toList ++ var ++ " 未在扫描到的 include_router 中挂载，挂载前缀未知".toList

def variableNote (var : Text) : Text :=
  "路由前缀合成：装饰器变量 ".toList ++ var ++ " 的挂载前缀无法静态解析".toList

/-- A route of the application itself. -/
def ofApp (file : PythonFile) (var : Text) : Prop := var ∈ file.fastapiVars ∨ var = "app".toList

instance (file : PythonFile) (var : Text) : Decidable (ofApp file var) :=
  inferInstanceAs (Decidable (_ ∨ _))

def composeRoute (files : Files) (edges : List (Target × Edge)) (path : Path) (d : Declared) : ComposedRoute :=
  if ofApp (files.file path) d.var then d.high d.route
  else
    match (files.file path).routerPrefix d.var with
    | some _ =>
      let (full, ok) := prefixFor files edges [] (path, d.var)
      if ok then d.high (joinPaths [full, d.route]) else d.low (joinPaths [full, d.route]) (unmountedNote d.var)
    | none => d.low d.route (variableNote d.var)

def composePythonRoutes (scanRoot : Path) (files : Files) : Except Unit (List ComposedRoute) := do
  let mounts ← declaredMounts scanRoot files
  pure (composeAll (files.map Prod.fst) (fun path => (files.file path).routes) (composeRoute files (mountEdges mounts)))

/-! ## Where the mounts lead -/

variable {files : Files} {mounts edges : List (Target × Edge)} {key : Key} {segs : List Text}

/-- The mount that a variable depends on is the first that is declared for it, or for its file. -/
def linkOf (files : Files) (mounts : List (Target × Edge)) (key : Key) : Link Key (List Text) (List Text) :=
  if key.2 ∈ (files.file key.1).fastapiVars then .root []
  else
    match (files.file key.1).routerPrefix key.2, edgeOf mounts key with
    | some ctor, some edge => .up (edge.file, edge.parent) (segments edge.mountPrefix ++ segments ctor)
    | _, _ => .lost

/-- From this variable the mounts lead to an application, with these segments on the way. -/
def Mounted (files : Files) (mounts : List (Target × Edge)) : Key → List Text → Prop :=
  Arrives (linkOf files mounts) (· ++ ·)

theorem lookup_setdefault (mount : Target × Edge) (t : Target) :
    (setdefault edges mount).lookup t = (edges.lookup t).or ([mount].lookup t) := by
  unfold setdefault
  split_ifs with there
  · cases found : edges.lookup t with
    | some edge => rfl
    | none =>
      have other : t ≠ mount.1 := by
        rintro rfl
        rw [found] at there
        cases there
      have nothing : [mount].lookup t = none := by
        rw [List.lookup_cons, beq_false_of_ne other]
        rfl
      exact nothing.symm
  · exact List.lookup_append

theorem lookup_foldl_setdefault (t : Target) :
    (mounts.foldl setdefault edges).lookup t = (edges.lookup t).or (mounts.lookup t) := by
  induction mounts generalizing edges with
  | nil => exact Option.or_none.symm
  | cons mount rest ih =>
    rw [List.foldl_cons, ih, lookup_setdefault, Option.or_assoc, ← List.lookup_append]
    rfl

theorem edgeOf_mountEdges (key : Key) : edgeOf (mountEdges mounts) key = edgeOf mounts key := by
  simp only [edgeOf, mountEdges, lookup_foldl_setdefault, List.lookup_nil, Option.none_or]

/-- `prefix_for` searches the chain of mounts. -/
theorem climbs_prefixFor : Climbs (linkOf files mounts) (· ++ ·) fun seen key =>
    (segments (prefixFor files (mountEdges mounts) seen key).1, (prefixFor files (mountEdges mounts) seen key).2) where
  seen {seen key} inside _ := by rw [prefixFor, dif_pos inside]
  root {seen key value} unseen here := by
    unfold linkOf at here
    split_ifs at here with app
    · cases here
      rw [prefixFor, dif_neg unseen, if_pos app]
      rfl
    · split at here <;> cases here
  lost {seen key} unseen here := by
    unfold linkOf at here
    split_ifs at here with app
    rw [prefixFor, dif_neg unseen, if_neg app, edgeOf_mountEdges]
    split
    case h_1 => rfl
    case h_2 ctor own =>
      rw [own] at here
      cases found : edgeOf mounts key with
      | none => rfl
      | some edge =>
        rw [found] at here
        cases here
  up {seen key parent label} unseen here := by
    unfold linkOf at here
    split_ifs at here with app
    split at here
    case h_2 => cases here
    case h_1 ctor edge own found =>
      cases here
      rw [prefixFor, dif_neg unseen, if_neg app, edgeOf_mountEdges]
      split
      case h_1 none_own => exact absurd (none_own.symm.trans own) (by simp)
      case h_2 ctor' own' =>
        have same := own'.symm.trans own
        cases same
        rw [found]
        refine ⟨rfl, fun _ => ?_⟩
        simp only [segments_joinPaths, List.flatMap_cons, List.flatMap_nil, List.append_nil]

theorem listed_of_up {parent : Key} {label : List Text} (here : linkOf files mounts key = .up parent label) :
    key ∈ files.keys := by
  unfold linkOf at here
  split_ifs at here
  split at here
  case h_1 own _ => exact mem_keys own
  case h_2 => cases here

/-! ## The composed routes -/

/-- Routes of the application are taken as they are. -/
def Composed (files : Files) (mounts : List (Target × Edge)) (path : Path) (d : Declared) (c : ComposedRoute) : Prop :=
  if ofApp (files.file path) d.var then c = d.high d.route else Below (Mounted files mounts (path, d.var)) d c

theorem composeRoute_composed (path : Path) (d : Declared) :
    Composed files mounts path d (composeRoute files (mountEdges mounts) path d) := by
  unfold Composed composeRoute
  by_cases own : ofApp (files.file path) d.var
  · rw [if_pos own, if_pos own]
  rw [if_neg own, if_neg own]
  cases defined : (files.file path).routerPrefix d.var with
  | none =>
    -- A variable that is no router of the file has no mount.
    have lost : linkOf files mounts (path, d.var) = .lost := by
      unfold linkOf
      rw [if_neg fun app => own (.inl app), defined]
    refine .low fun segs chain => ?_
    cases chain with
    | root here => exact absurd (lost.symm.trans here) (by simp)
    | up here _ => exact absurd (lost.symm.trans here) (by simp)
  | some ctor => exact below_of_climbs climbs_prefixFor files.keys listed_of_up (path, d.var) d _ _

/-- Every literal route of every file is composed: with a high confidence exactly if it belongs to an application or
the first declared mounts lead from its router to one, and then its path has the prefixes of these mounts. -/
theorem composed_follow_mounts {scanRoot : Path} {out : List ComposedRoute}
    (done : composePythonRoutes scanRoot files = .ok out) :
    ∃ mounts, declaredMounts scanRoot files = .ok mounts ∧
      Composes (files.map Prod.fst) (fun path => (files.file path).routes) (Composed files mounts) out := by
  cases declared : declaredMounts scanRoot files with
  | error raised =>
    rw [composePythonRoutes, declared] at done
    cases done
  | ok mounts =>
    rw [composePythonRoutes, declared] at done
    cases done
    exact ⟨mounts, rfl, composes_composeAll composeRoute_composed⟩

/-- The application of `m.py` includes the router of `u.py` below `/v`. -/
def users : Files :=
  [([['m', '.', 'p', 'y']],
      { fastapiVars := [['a']]
        includes := [⟨['a'], ['u', '.', 'r'], ['/', 'v']⟩] }),
    ([['u', '.', 'p', 'y']],
      { routers := [(['r'], ['/', 'u', '/'])]
        routes := [⟨['r'], ['g', 'e', 't'], ['/', 'h']⟩] })]

def usersMounts : List (Target × Edge) :=
  [(.router ([['u', '.', 'p', 'y']], ['r']), ⟨[['m', '.', 'p', 'y']], ['a'], ['/', 'v']⟩)]

def usersHealth : ComposedRoute := ⟨['G', 'E', 'T'], ['/', 'h'], ['/', 'v', '/', 'u', '/', 'h'], .high, []⟩

theorem users_composed : composePythonRoutes [] users = .ok [usersHealth] := by
  have app : prefixFor users (mountEdges usersMounts) [([['u', '.', 'p', 'y']], ['r'])]
      ([['m', '.', 'p', 'y']], ['a']) = ([], true) := by
    rw [prefixFor]
    rfl
  have router : prefixFor users (mountEdges usersMounts) [] ([['u', '.', 'p', 'y']], ['r']) =
      (['/', 'v', '/', 'u'], true) := by
    rw [prefixFor]
    exact congrArg (fun found : Text × Bool => (joinPaths [found.1, ['/', 'v'], ['/', 'u', '/']], found.2)) app
  have composed : composeRoute users (mountEdges usersMounts) [['u', '.', 'p', 'y']]
      ⟨['r'], ['g', 'e', 't'], ['/', 'h']⟩ = usersHealth := by
    rw [composeRoute, router]
    rfl
  exact congrArg (fun c => Except.ok [c]) composed

theorem composed_follow_mounts_users :
    ∃ mounts, declaredMounts [] users = .ok mounts ∧
      Composes (users.map Prod.fst) (fun path => (users.file path).routes) (Composed users mounts) [usersHealth] :=
  composed_follow_mounts users_composed

end LocalWebAccess.PythonRoutes
