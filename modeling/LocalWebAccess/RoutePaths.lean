import LocalWebAccess.ParentChains
import LocalWebAccess.PythonText

/-!
# Paths of composed routes

`_join_paths` of `route_prefix` writes the nonempty segments of all its parts with one slash before each. A route
whose variable is mounted somewhere has the segments of the mounts before its own.
-/
namespace LocalWebAccess.RoutePaths
open ParentChains PythonText

abbrev Text := List Char

/-- The components of a file path below the root. -/
abbrev Path := List Text

/-- A variable of a file. -/
abbrev Key := Path × Text

/-- `[seg for seg in part.split("/") if seg]`. -/
def segments (part : Text) : List Text := (part.splitOn '/').filter (· ≠ [])

def written (segs : List Text) : Text := '/' :: ['/'].intercalate segs

/-- `_join_paths`. -/
def joinPaths (parts : List Text) : Text := written (parts.flatMap segments)

inductive Confidence where
  | high
  | low
  deriving DecidableEq, Repr

structure ComposedRoute where
  method : Text
  route : Text
  path : Text
  confidence : Confidence
  note : Text := []
  deriving DecidableEq, Repr

/-- A route as a decorator or a call declares it. -/
structure Declared where
  var : Text
  method : Text
  route : Text
  deriving DecidableEq, Repr

/-- Only routes without parameters are composed. -/
def Declared.literal (d : Declared) : Bool := d.route.head? = some '/' && '{' ∉ d.route && '<' ∉ d.route

def Declared.high (d : Declared) (path : Text) : ComposedRoute :=
  ⟨d.method.map Char.toUpper, d.route, path, .high, []⟩

def Declared.low (d : Declared) (path note : Text) : ComposedRoute :=
  ⟨d.method.map Char.toUpper, d.route, path, .low, note⟩

/-- The loop over the routes of all files. -/
def composeAll (paths : List Path) (routes : Path → List Declared) (compose : Path → Declared → ComposedRoute) :
    List ComposedRoute :=
  paths.flatMap fun path => ((routes path).filter Declared.literal).map (compose path)

/-- `Path.stem` of a last component. -/
def stem (name : Text) : Text :=
  match name.reverse.dropWhile (· ≠ '.') with
  | [] => name
  | _ :: rest => if rest = [] ∨ name.getLast? = some '.' then name else rest.reverse

/-- `Path.with_suffix`, which raises for a path without a name. -/
def withSuffix (suffix : Text) (path : Path) : Option Path :=
  path.getLast?.map fun name => path.dropLast ++ [stem name ++ suffix]

theorem mem_of_lookup {κ ν : Type} [BEq κ] [LawfulBEq κ] {entries : List (κ × ν)} {k : κ} {v : ν}
    (found : entries.lookup k = some v) : (k, v) ∈ entries := by
  obtain ⟨front, back, rfl, -⟩ := List.lookup_eq_some_iff.mp found
  exact List.mem_append_right front List.mem_cons_self

/-! ## Segments of joined paths -/

variable {segs : List Text}

theorem solid_of_mem_segments {part seg : Text} (among : seg ∈ segments part) : seg ≠ [] ∧ '/' ∉ seg := by
  obtain ⟨inside, filled⟩ := List.mem_filter.mp among
  exact ⟨of_decide_eq_true filled, not_mem_of_mem_splitOn inside⟩

theorem segments_written (solid : ∀ seg ∈ segs, seg ≠ [] ∧ '/' ∉ seg) : segments (written segs) = segs := by
  have first : segments (written segs) = segments (['/'].intercalate segs) := by
    simp only [segments, written, List.splitOn_cons_eq_if_modifyHead, beq_self_eq_true, if_true]
    exact List.filter_cons_of_neg (by simp)
  rw [first]
  cases segs with
  | nil => rfl
  | cons seg rest =>
    rw [segments, List.splitOn_intercalate '/' (fun other among => (solid other among).2) (by simp)]
    exact List.filter_eq_self.mpr fun other among => decide_eq_true (solid other among).1

/-- What is joined can be joined again with more. -/
theorem segments_joinPaths (parts : List Text) : segments (joinPaths parts) = parts.flatMap segments := by
  refine segments_written fun seg among => ?_
  obtain ⟨part, -, inside⟩ := List.mem_flatMap.mp among
  exact solid_of_mem_segments inside

/-! ## Routes below mounts -/

/-- A route has a high confidence exactly if its variable is mounted, and then the segments of the mounts in front
of its own. -/
inductive Below (mounted : List Text → Prop) (d : Declared) : ComposedRoute → Prop
  | high {segs : List Text} (chain : mounted segs) : Below mounted d (d.high (written (segs ++ segments d.route)))
  | low {path note : Text} (nowhere : ∀ segs, ¬mounted segs) : Below mounted d (d.low path note)

/-- What a search up the mounts says of a route. -/
theorem below_of_climbs {link : Key → Link Key (List Text) (List Text)} {search : List Key → Key → Text × Bool}
    (climbs : Climbs link (· ++ ·) fun seen key => (segments (search seen key).1, (search seen key).2))
    (nodes : List Key) (listed : ∀ {key parent label}, link key = .up parent label → key ∈ nodes) (key : Key)
    (d : Declared) (path note : Text) :
    Below (Arrives link (· ++ ·) key) d
      (if (search [] key).2 then d.high (joinPaths [(search [] key).1, d.route]) else d.low path note) := by
  cases arrived : (search [] key).2 with
  | true =>
    have chain := (climbs.iff nodes listed).mp (Prod.ext rfl arrived)
    have joined := Below.high (d := d) chain
    rw [if_pos rfl, joinPaths, List.flatMap_cons, List.flatMap_cons, List.flatMap_nil, List.append_nil]
    exact joined
  | false =>
    rw [if_neg (by simp)]
    exact .low ((climbs.not_arrived_iff nodes listed).mp arrived)

/-- The output has what is said of each literal route of each file, and nothing else. -/
structure Composes (paths : List Path) (routes : Path → List Declared)
    (said : Path → Declared → ComposedRoute → Prop) (out : List ComposedRoute) : Prop where
  sound : ∀ c ∈ out, ∃ path ∈ paths, ∃ d ∈ routes path, d.literal = true ∧ said path d c
  complete : ∀ path ∈ paths, ∀ d ∈ routes path, d.literal = true → ∃ c ∈ out, said path d c

theorem composes_composeAll {paths : List Path} {routes : Path → List Declared}
    {said : Path → Declared → ComposedRoute → Prop} {compose : Path → Declared → ComposedRoute}
    (each : ∀ path d, said path d (compose path d)) : Composes paths routes said (composeAll paths routes compose) where
  sound c among := by
    simp only [composeAll, List.mem_flatMap, List.mem_map, List.mem_filter] at among
    obtain ⟨path, known, d, ⟨inside, literal⟩, rfl⟩ := among
    exact ⟨path, known, d, inside, literal, each path d⟩
  complete path known d inside literal := by
    refine ⟨compose path d, ?_, each path d⟩
    exact List.mem_flatMap.mpr ⟨path, known, List.mem_map_of_mem (List.mem_filter.mpr ⟨inside, literal⟩)⟩

end LocalWebAccess.RoutePaths
