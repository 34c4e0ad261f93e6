import Mathlib.Data.List.Induction
import Mathlib.Tactic.Cases
import Mathlib.Tactic.SplitIfs

/-!
# Trees with links

Directories, files and symbolic links by their real paths, how a path is resolved through links, and
what a copy that follows links takes.
-/
namespace LocalWebAccess.LinkTrees

/-- Where a link leads: from the root, or from its own directory. -/
structure Target (ν : Type) where
  absolute : Bool
  steps : List ν
  deriving DecidableEq

inductive Node (ν : Type) where
  | dir
  | file
  | link (target : Target ν)
  deriving DecidableEq

/-- A path goes through at most `limit` links, one after the other. -/
structure Tree (ν : Type) where
  up : ν
  node : List ν → Option (Node ν)
  entries : List ν → List ν
  limit : ℕ
  root : node [] = some .dir
  above : ∀ path name, node (path ++ [name]) ≠ none → node path = some .dir ∧ name ∈ entries path
  below : ∀ path, ∀ name ∈ entries path, name ≠ up

section Real

variable {ν : Type} {tree : Tree ν} {here path rest : List ν} {name : ν}

theorem node_of_append (found : tree.node (path ++ rest) ≠ none) (filled : rest ≠ []) :
    tree.node path = some .dir := by
  induction rest using List.reverseRecOn with
  | nil => exact absurd rfl filled
  | append_singleton rest name ih =>
    rw [← List.append_assoc] at found
    have dir := (tree.above _ name found).1
    by_cases more : rest = []
    · rw [more, List.append_nil] at dir
      exact dir
    · exact ih (by rw [dir]; exact Option.some_ne_none _) more

theorem ne_up_of_node (found : tree.node (path ++ [name]) ≠ none) : name ≠ tree.up :=
  tree.below path name (tree.above path name found).2

theorem node_dropLast (dir : tree.node here = some .dir) : tree.node here.dropLast = some .dir := by
  rcases List.eq_nil_or_concat here with rfl | ⟨front, name, rfl⟩
  · exact dir
  · rw [List.concat_eq_append] at dir ⊢
    rw [List.dropLast_concat]
    exact (tree.above front name (by rw [dir]; exact Option.some_ne_none _)).1

/-- Directories and files that a real path leads to. -/
def Tree.Solid (tree : Tree ν) (real : List ν) : Prop := tree.node real = some .dir ∨ tree.node real = some .file

theorem node_ne_none (solid : tree.Solid path) : tree.node path ≠ none := by
  rcases solid with dir | file
  · rw [dir]
    exact Option.some_ne_none _
  · rw [file]
    exact Option.some_ne_none _

end Real

/-! ## Lists of results -/

/-- The results for the elements one after the other, where each has one. -/
def gather {α β : Type} (f : α → Option (List β)) : List α → Option (List β)
  | [] => some []
  | a :: rest => (f a).bind fun found => (gather f rest).map (found ++ ·)

theorem mem_gather {α β : Type} {f : α → Option (List β)} {l : List α} {found : List β} (all : gather f l = some found)
    {b : β} : b ∈ found ↔ ∃ a ∈ l, ∃ part, f a = some part ∧ b ∈ part := by
  induction l generalizing found with
  | nil =>
    obtain rfl := Option.some.inj all
    simp
  | cons a rest ih =>
    obtain ⟨first, here, all'⟩ := Option.bind_eq_some_iff.mp all
    obtain ⟨later, there, rfl⟩ := Option.map_eq_some_iff.mp all'
    rw [List.mem_append, ih there]
    simp [here]

theorem gather_isSome_iff {α β : Type} {f : α → Option (List β)} {l : List α} :
    (gather f l).isSome = true ↔ ∀ a ∈ l, (f a).isSome = true := by
  induction l with
  | nil => simp [gather]
  | cons a rest ih =>
    rw [List.forall_mem_cons, ← ih, gather]
    cases f a with
    | none => simp
    | some first => simp

variable {ν : Type} [DecidableEq ν] (tree : Tree ν)

/-! ## Resolution -/

/-- Resolution up to the next link. -/
def Tree.follow (next : List ν → List ν → Option (List ν)) : List ν → List ν → Option (List ν)
  | here, [] => some here
  | here, name :: rest =>
    if name = tree.up then Tree.follow next here.dropLast rest
    else
      match tree.node (here ++ [name]) with
      | none => none
      | some .dir => Tree.follow next (here ++ [name]) rest
      | some .file => if rest = [] then some (here ++ [name]) else none
      | some (.link target) => next (if target.absolute then [] else here) (target.steps ++ rest)

def Tree.walk : ℕ → List ν → List ν → Option (List ν)
  | 0 => tree.follow fun _ _ => none
  | links + 1 => tree.follow (Tree.walk links)

def Tree.real (path : List ν) : Option (List ν) := tree.walk tree.limit [] path

def Tree.isDir (path : List ν) : Bool :=
  match (tree.real path).bind tree.node with
  | some .dir => true
  | _ => false

/-- The last step of the path is a link. -/
def Tree.IsLink (path : List ν) : Prop :=
  ∃ front name real target, path = front ++ [name] ∧ tree.real front = some real ∧
    tree.node (real ++ [name]) = some (.link target)

/-! ## Real paths -/

variable {tree} {here path rest real : List ν} {name : ν}

theorem follow_solid {next : List ν → List ν → Option (List ν)}
    (later : ∀ here steps, tree.node here = some .dir → ∀ real, next here steps = some real → tree.Solid real)
    {steps : List ν} (dir : tree.node here = some .dir) (found : tree.follow next here steps = some real) :
    tree.Solid real := by
  induction steps generalizing here with
  | nil =>
    obtain rfl := Option.some.inj found
    exact Or.inl dir
  | cons name rest ih =>
    rw [Tree.follow] at found
    by_cases climbs : name = tree.up
    · rw [if_pos climbs] at found
      exact ih (node_dropLast dir) found
    · rw [if_neg climbs] at found
      rcases there : tree.node (here ++ [name]) with _ | _ | _ | target
      · rw [there] at found
        cases found
      · rw [there] at found
        exact ih there found
      · rw [there] at found
        dsimp only at found
        split_ifs at found
        obtain rfl := Option.some.inj found
        exact Or.inr there
      · rw [there] at found
        refine later _ _ ?_ real found
        split_ifs
        · exact tree.root
        · exact dir

theorem walk_solid {links : ℕ} {steps : List ν} (dir : tree.node here = some .dir)
    (found : tree.walk links here steps = some real) : tree.Solid real := by
  induction links generalizing here steps real with
  | zero => exact follow_solid (fun _ _ _ _ stuck => absurd stuck (Option.some_ne_none _).symm) dir found
  | succ links ih => exact follow_solid (fun _ _ dir' _ found' => ih dir' found') dir found

theorem real_solid (found : tree.real path = some real) : tree.Solid real := walk_solid tree.root found

/-- No link is met on a real path. -/
theorem follow_real {next : List ν → List ν → Option (List ν)} (solid : tree.Solid (here ++ rest)) :
    tree.follow next here rest = some (here ++ rest) := by
  induction rest generalizing here with
  | nil =>
    rw [List.append_nil]
    rfl
  | cons name rest ih =>
    have split : here ++ name :: rest = (here ++ [name]) ++ rest := List.append_cons here name rest
    rw [split] at solid ⊢
    have found := node_ne_none solid
    by_cases last : rest = []
    · subst last
      rw [List.append_nil] at solid found ⊢
      rw [Tree.follow, if_neg (ne_up_of_node found)]
      rcases solid with dir | file
      · rw [dir]
        rfl
      · rw [file]
        rfl
    · have dir := node_of_append found last
      have step : name ≠ tree.up := ne_up_of_node (by rw [dir]; exact Option.some_ne_none _)
      rw [Tree.follow, if_neg step, dir]
      exact ih solid

theorem follow_append {next : List ν → List ν → Option (List ν)} {steps : List ν}
    (later : ∀ here steps, next here steps = some real → next here (steps ++ rest) = some (real ++ rest))
    (solid : tree.Solid (real ++ rest)) (found : tree.follow next here steps = some real) :
    tree.follow next here (steps ++ rest) = some (real ++ rest) := by
  induction steps generalizing here with
  | nil =>
    obtain rfl := Option.some.inj found
    exact follow_real solid
  | cons name steps ih =>
    rw [Tree.follow] at found
    rw [List.cons_append, Tree.follow]
    by_cases climbs : name = tree.up
    · rw [if_pos climbs] at found ⊢
      exact ih found
    · rw [if_neg climbs] at found ⊢
      rcases there : tree.node (here ++ [name]) with _ | _ | _ | target
      · rw [there] at found
        cases found
      · rw [there] at found
        exact ih found
      · rw [there] at found
        dsimp only at found ⊢
        split_ifs at found with last
        obtain rfl := Option.some.inj found
        by_cases more : rest = []
        · simp [last, more]
        · rw [node_of_append (node_ne_none solid) more] at there
          cases there
      · rw [there] at found
        dsimp only
        rw [← List.append_assoc]
        exact later _ _ found

/-- What lies below a real path is reached through every path to it. -/
theorem real_append (found : tree.real path = some real) (solid : tree.Solid (real ++ rest)) :
    tree.real (path ++ rest) = some (real ++ rest) := by
  have walks : ∀ links here steps, tree.walk links here steps = some real →
      tree.walk links here (steps ++ rest) = some (real ++ rest) := by
    intro links
    induction links with
    | zero => exact fun here steps => follow_append (fun _ _ stuck => absurd stuck (Option.some_ne_none _).symm) solid
    | succ links ih => exact fun here steps => follow_append ih solid
  exact walks tree.limit [] path found

theorem follow_append_none {next : List ν → List ν → Option (List ν)} {steps : List ν}
    (later : ∀ here steps, next here steps = some real → next here (steps ++ [name]) = none)
    (below : name ≠ tree.up) (nothing : tree.node (real ++ [name]) = none)
    (found : tree.follow next here steps = some real) : tree.follow next here (steps ++ [name]) = none := by
  induction steps generalizing here with
  | nil =>
    obtain rfl := Option.some.inj found
    rw [List.nil_append, Tree.follow, if_neg below, nothing]
  | cons step steps ih =>
    rw [Tree.follow] at found
    rw [List.cons_append, Tree.follow]
    by_cases climbs : step = tree.up
    · rw [if_pos climbs] at found ⊢
      exact ih found
    · rw [if_neg climbs] at found ⊢
      rcases there : tree.node (here ++ [step]) with _ | _ | _ | target
      · rfl
      · rw [there] at found
        exact ih found
      · exact if_neg (List.append_ne_nil_of_right_ne_nil _ (List.cons_ne_nil _ _))
      · rw [there] at found
        dsimp only
        rw [← List.append_assoc]
        exact later _ _ found

theorem real_append_none (found : tree.real path = some real) (below : name ≠ tree.up)
    (nothing : tree.node (real ++ [name]) = none) : tree.real (path ++ [name]) = none := by
  have walks : ∀ links here steps, tree.walk links here steps = some real →
      tree.walk links here (steps ++ [name]) = none := by
    intro links
    induction links with
    | zero =>
      exact fun here steps =>
        follow_append_none (fun _ _ stuck => absurd stuck (Option.some_ne_none _).symm) below nothing
    | succ links ih => exact fun here steps => follow_append_none ih below nothing
  exact walks tree.limit [] path found

/-- A step that is no link stays below. -/
theorem real_step {inner : List ν} (found : tree.real path = some real) (below : name ≠ tree.up)
    (resolves : tree.real (path ++ [name]) = some inner) : tree.IsLink (path ++ [name]) ∨ inner = real ++ [name] := by
  have stays : tree.Solid (real ++ [name]) → inner = real ++ [name] := fun solid =>
    Option.some.inj (resolves.symm.trans (real_append found solid))
  rcases there : tree.node (real ++ [name]) with _ | _ | _ | target
  · rw [real_append_none found below there] at resolves
    cases resolves
  · exact Or.inr (stays (Or.inl there))
  · exact Or.inr (stays (Or.inr there))
  · exact Or.inl ⟨path, name, real, target, rfl, found, there⟩

/-! ## Copies that follow links -/

/-- The files that a copy takes below a path, by their steps from there, with their real paths. There is
none where something below does not resolve or lies deeper than `depth` directories. -/
def Tree.copy (tree : Tree ν) : ℕ → List ν → Option (List (List ν × List ν))
  | 0, _ => none
  | depth + 1, path =>
    (tree.real path).bind fun real =>
      match tree.node real with
      | some .dir =>
        gather (fun name => (Tree.copy tree depth (path ++ [name])).map (List.map fun file => (name :: file.1, file.2)))
          (tree.entries real)
      | _ => some [([], real)]

/-- The steps below a path by which a copy walks. -/
inductive Tree.Reached (tree : Tree ν) : List ν → List ν → Prop
  | here (path : List ν) : Tree.Reached tree path []
  | step {path real rest : List ν} {name : ν} : tree.real path = some real → tree.node real = some .dir →
      name ∈ tree.entries real → Tree.Reached tree (path ++ [name]) rest → Tree.Reached tree path (name :: rest)

/-- A file that a copy takes. -/
def Tree.Takes (tree : Tree ν) (path : List ν) (file : List ν × List ν) : Prop :=
  tree.Reached path file.1 ∧ tree.real (path ++ file.1) = some file.2 ∧ tree.node file.2 = some .file

theorem mem_copy {depth : ℕ} {files : List (List ν × List ν)} (copied : tree.copy depth path = some files)
    {file : List ν × List ν} : file ∈ files ↔ tree.Takes path file := by
  induction depth generalizing path files file with
  | zero => cases copied
  | succ depth ih =>
    rw [Tree.copy] at copied
    obtain ⟨real, found, below⟩ := Option.bind_eq_some_iff.mp copied
    obtain ⟨steps, target⟩ := file
    rcases real_solid found with dir | file
    · rw [dir] at below
      dsimp only at below
      rw [mem_gather below]
      constructor
      · rintro ⟨name, mem, part, inner, among⟩
        obtain ⟨files', copied', rfl⟩ := Option.map_eq_some_iff.mp inner
        obtain ⟨⟨rest, target'⟩, mem', same⟩ := List.mem_map.mp among
        obtain ⟨rfl, rfl⟩ := Prod.mk.inj same
        obtain ⟨reached, resolves, kind⟩ := (ih copied').mp mem'
        rw [List.append_assoc] at resolves
        exact ⟨.step found dir mem reached, resolves, kind⟩
      · rintro ⟨reached, resolves, kind⟩
        dsimp only at reached resolves kind
        cases reached with
        | here =>
          rw [List.append_nil, found] at resolves
          obtain rfl := Option.some.inj resolves
          rw [dir] at kind
          cases kind
        | @step _ real' rest name found' _ mem reached' =>
          obtain rfl := Option.some.inj (found.symm.trans found')
          have whole := gather_isSome_iff.mp (by rw [below]; rfl) name mem
          obtain ⟨part, inner⟩ := Option.isSome_iff_exists.mp whole
          obtain ⟨files', copied', rfl⟩ := Option.map_eq_some_iff.mp inner
          rw [List.append_cons] at resolves
          have among : (rest, target) ∈ files' := (ih copied').mpr ⟨reached', resolves, kind⟩
          exact ⟨name, mem, _, inner, List.mem_map.mpr ⟨(rest, target), among, rfl⟩⟩
    · rw [file] at below
      obtain rfl := Option.some.inj below
      rw [List.mem_singleton]
      constructor
      · rintro ⟨⟩
        exact ⟨.here _, by rw [List.append_nil]; exact found, file⟩
      · rintro ⟨reached, resolves, -⟩
        dsimp only at reached resolves
        cases reached with
        | here =>
          rw [List.append_nil, found] at resolves
          rw [Option.some.inj resolves]
        | step found' dir' _ _ =>
          obtain rfl := Option.some.inj (found.symm.trans found')
          rw [file] at dir'
          cases dir'

/-- The copy is made where all that it walks to resolves, within its depth. -/
theorem copy_isSome_iff {depth : ℕ} : (tree.copy depth path).isSome = true ↔
    ∀ rest, tree.Reached path rest → rest.length < depth ∧ (tree.real (path ++ rest)).isSome = true := by
  induction depth generalizing path with
  | zero =>
    refine iff_of_false (by simp [Tree.copy]) fun all => ?_
    exact absurd (all [] (.here _)).1 (Nat.not_lt_zero _)
  | succ depth ih =>
    rw [Tree.copy]
    cases found : tree.real path with
    | none =>
      refine iff_of_false (by simp) fun all => ?_
      have resolves := (all [] (.here _)).2
      rw [List.append_nil, found] at resolves
      cases resolves
    | some real =>
      rw [Option.bind_some]
      rcases real_solid found with dir | file
      · rw [dir]
        dsimp only
        rw [gather_isSome_iff]
        simp only [Option.isSome_map, ih]
        constructor
        · intro all rest reached
          cases reached with
          | here => exact ⟨Nat.succ_pos _, by rw [List.append_nil, found]; rfl⟩
          | @step _ real' rest name found' _ mem reached' =>
            obtain rfl := Option.some.inj (found.symm.trans found')
            obtain ⟨short, resolves⟩ := all name mem rest reached'
            rw [List.append_assoc] at resolves
            exact ⟨Nat.succ_lt_succ short, resolves⟩
        · intro all name mem rest reached
          obtain ⟨short, resolves⟩ := all (name :: rest) (.step found dir mem reached)
          rw [List.append_cons] at resolves
          exact ⟨Nat.lt_of_succ_lt_succ short, resolves⟩
      · rw [file]
        refine iff_of_true rfl fun rest reached => ?_
        cases reached with
        | here => exact ⟨Nat.succ_pos _, by rw [List.append_nil, found]; rfl⟩
        | step found' dir' _ _ =>
          obtain rfl := Option.some.inj (found.symm.trans found')
          rw [file] at dir'
          cases dir'

/-! ## Where the files come from -/

/-- A real path that the copy comes to at its start or through a link. -/
def Tree.Root (tree : Tree ν) (path root : List ν) : Prop :=
  ∃ steps, tree.Reached path steps ∧ tree.real (path ++ steps) = some root ∧ (steps = [] ∨ tree.IsLink (path ++ steps))

theorem reached_append {steps : List ν} (reached : tree.Reached path steps) (more : tree.Reached (path ++ steps) rest) :
    tree.Reached path (steps ++ rest) := by
  induction reached with
  | here path =>
    rw [List.append_nil] at more
    exact more
  | @step path real steps name found dir mem _ ih =>
    rw [List.append_cons] at more
    exact .step found dir mem (ih more)

theorem reached_real (found : tree.real path = some real) (solid : tree.Solid (real ++ rest)) :
    tree.Reached path rest := by
  induction rest generalizing path real with
  | nil => exact .here path
  | cons name rest ih =>
    have dir : tree.node real = some .dir := node_of_append (node_ne_none solid) (List.cons_ne_nil _ _)
    rw [List.append_cons] at solid
    have inner : tree.Solid (real ++ [name]) := by
      by_cases last : rest = []
      · subst last
        rw [List.append_nil] at solid
        exact solid
      · exact Or.inl (node_of_append (node_ne_none solid) last)
    exact .step found dir (tree.above real name (node_ne_none inner)).2 (ih (real_append found inner) solid)

/-- Every file that is taken lies really below a root. -/
theorem exists_root {file : List ν × List ν} (takes : tree.Takes path file) :
    ∃ root rest, tree.Root path root ∧ file.2 = root ++ rest := by
  obtain ⟨steps, target⟩ := file
  obtain ⟨reached, resolves, -⟩ := takes
  dsimp only at reached resolves ⊢
  induction reached generalizing target with
  | here path => exact ⟨target, [], ⟨[], .here path, resolves, Or.inl rfl⟩, (List.append_nil _).symm⟩
  | @step path real steps name found dir mem below ih =>
    rw [List.append_cons] at resolves
    obtain ⟨root, rest, ⟨steps', reached', resolves', start⟩, rfl⟩ := ih target resolves
    rw [← List.append_cons] at resolves'
    by_cases link : tree.IsLink (path ++ name :: steps')
    · exact ⟨root, rest, ⟨name :: steps', .step found dir mem reached', resolves', Or.inr link⟩, rfl⟩
    · have alone : steps' = [] := start.resolve_right (by rw [← List.append_cons]; exact link)
      subst alone
      have stays := (real_step found (tree.below real name mem) resolves').resolve_left link
      refine ⟨real, name :: rest, ⟨[], .here path, by rw [List.append_nil]; exact found, Or.inl rfl⟩, ?_⟩
      rw [stays, ← List.append_cons]

/-- And every file really below a root is taken. -/
theorem takes_of_root {root : List ν} (reached : tree.Root path root) (file : tree.node (root ++ rest) = some .file) :
    ∃ steps, tree.Takes path (steps, root ++ rest) := by
  obtain ⟨steps, reached, resolves, -⟩ := reached
  have solid : tree.Solid (root ++ rest) := Or.inr file
  refine ⟨steps ++ rest, reached_append reached (reached_real resolves solid), ?_, file⟩
  rw [← List.append_assoc]
  exact real_append resolves solid

end LocalWebAccess.LinkTrees
