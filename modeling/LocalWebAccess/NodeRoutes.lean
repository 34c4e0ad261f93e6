import LocalWebAccess.ParentChains
import LocalWebAccess.RoutePaths

/-!
# Routes of Express applications

`compose_node_routes` collects the routers, `use` calls, imported modules and routes of all files. A router that is
mounted in its own file has the routers above it there; one that another file mounts is taken to be on the
application. Each mount replaces an earlier one of the same router.
-/

namespace LocalWebAccess.NodeRoutes

open ParentChains RoutePaths

/-- `<parent>.use('<prefix>', <child>)`. -/
structure Use where
  parent : Text
  mountPrefix : Text
  child : Text

/-- What the patterns find in a file, in its order. -/
structure NodeFile where
  routerDefs : List Text := []
  uses : List Use := []
  requires : List (Text × Text) := []
  imports : List (Text × Text) := []
  routes : List Declared := []

abbrev Files := List (Path × NodeFile)

def Files.file (files : Files) (path : Path) : NodeFile := (files.lookup path).getD {}

def app : Text := "app".toList

def server : Text := "server".toList

/-- `direct`: the last assignment stays. -/
def direct (mounts : List (Key × Option Text × Text)) (key : Key) : Option (Option Text × Text) :=
  mounts.reverse.lookup key

theorem mem_of_direct {mounts : List (Key × Option Text × Text)} {key : Key} {entry : Option Text × Text}
    (found : direct mounts key = some entry) : key ∈ mounts.map Prod.fst := by
  exact List.mem_map.mpr ⟨_, List.mem_reverse.mp (mem_of_lookup found), rfl⟩

/-- `prefix_for`. -/
def prefixFor (mounts : List (Key × Option Text × Text)) (seen : List Key) (key : Key) : Text × Bool :=
  if key.2 = app ∨ key.2 = server then ([], true)
  else if _seen : key ∈ seen then ([], false)
  else
    match _found : direct mounts key with
    | none => ([], false)
    | some (none, mountPrefix) => (mountPrefix, true)
    | some (some parent, mountPrefix) =>
      let (parentPrefix, ok) := prefixFor mounts (key :: seen) (key.1, parent)
      if ok then (joinPaths [parentPrefix, mountPrefix], true) else ([], false)
  termination_by ((mounts.map Prod.fst).toFinset \ seen.toFinset).card
  decreasing_by exact card_sdiff_cons_lt (mem_of_direct ‹_›) ‹_›

def unmatchedNote (var : Text) : Text :=
  "路由前缀合成：Node 路由变量 ".toList ++ var ++ " 的挂载前缀无法静态解析（app.use 未匹配）".toList

def composeRoute (mounts : List (Key × Option Text × Text)) (path : Path) (d : Declared) : ComposedRoute :=
  let (found, ok) := prefixFor mounts [] (path, d.var)
  if ok then d.high (joinPaths [found, d.route]) else d.low d.route (unmatchedNote d.var)

variable {files : Files} {mounts : List (Key × Option Text × Text)} {key : Key}

/-- The application variables, and the routers on them, are the roots. -/
def linkOf (mounts : List (Key × Option Text × Text)) (key : Key) : Link Key (List Text) (List Text) :=
  if key.2 = app ∨ key.2 = server then .root []
  else
    match direct mounts key with
    | none => .lost
    | some (none, mountPrefix) => .root (segments mountPrefix)
    | some (some parent, mountPrefix) => .up (key.1, parent) (segments mountPrefix)

/-- From this variable the last assigned mounts lead to the application, with these segments on the way. -/
def Mounted (mounts : List (Key × Option Text × Text)) : Key → List Text → Prop := Arrives (linkOf mounts) (· ++ ·)

/-- `prefix_for` searches the chain of mounts. -/
theorem climbs_prefixFor : Climbs (linkOf mounts) (· ++ ·) fun seen key =>
    (segments (prefixFor mounts seen key).1, (prefixFor mounts seen key).2) where
  seen {seen key} inside unrooted := by
    have other : ¬(key.2 = app ∨ key.2 = server) := by
      intro own
      refine unrooted [] ?_
      rw [linkOf, if_pos own]
    rw [prefixFor, if_neg other, dif_pos inside]
  root {seen key value} unseen here := by
    unfold linkOf at here
    by_cases own : key.2 = app ∨ key.2 = server
    · rw [if_pos own] at here
      cases here
      rw [prefixFor, if_pos own]
      rfl
    · rw [if_neg own] at here
      rw [prefixFor, if_neg own, dif_neg unseen]
      split at here
      case h_2 mountPrefix found =>
        cases here
        split
        case h_1 none_found => exact absurd (none_found.symm.trans found) (by simp)
        case h_2 other found' =>
          have same := found'.symm.trans found
          cases same
          rfl
        case h_3 found' => exact absurd (found'.symm.trans found) (by simp)
      all_goals cases here
  lost {seen key} unseen here := by
    unfold linkOf at here
    split_ifs at here with own
    rw [prefixFor, if_neg own, dif_neg unseen]
    split at here
    case h_1 found =>
      split
      case h_1 => rfl
      case h_2 found' => exact absurd (found'.symm.trans found) (by simp)
      case h_3 found' => exact absurd (found'.symm.trans found) (by simp)
    all_goals cases here
  up {seen key parent label} unseen here := by
    unfold linkOf at here
    split_ifs at here with own
    split at here
    case h_3 above mountPrefix found =>
      cases here
      rw [prefixFor, if_neg own, dif_neg unseen]
      split
      case h_1 none_found => exact absurd (none_found.symm.trans found) (by simp)
      case h_2 found' => exact absurd (found'.symm.trans found) (by simp)
      case h_3 found' =>
        have same := found'.symm.trans found
        cases same
        cases arrived : (prefixFor mounts (key :: seen) (key.1, above)).2 with
        | false => simp [arrived]
        | true => simp [arrived, segments_joinPaths]
    all_goals cases here

theorem listed_of_up {parent : Key} {label : List Text} (here : linkOf mounts key = .up parent label) :
    key ∈ mounts.map Prod.fst := by
  unfold linkOf at here
  split_ifs at here
  split at here
  case h_3 found => exact mem_of_direct found
  all_goals cases here

/-! ## The composed routes -/

/-- The application of `i.js` mounts the first router of `r/u.js`, which has a second router below the first. -/
def shop : Files :=
  [([['i', '.', 'j', 's']],
      { imports := [(['u'], ['.', '/', 'r', '/', 'u'])]
        uses := [⟨app, ['/', 'v', '/'], ['u']⟩] }),
    ([['r'], ['u', '.', 'j', 's']],
      { routerDefs := [['r'], ['s']]
        uses := [⟨['r'], ['/', 'w'], ['s']⟩]
        routes := [⟨['s'], ['g', 'e', 't'], ['/', 'h']⟩] })]

end LocalWebAccess.NodeRoutes
