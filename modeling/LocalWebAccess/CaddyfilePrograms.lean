import LocalWebAccess.MainCaddyfile

/-!
# The programs of the gateway's operations

Every operation only reads and changes fragments of its own, and one whose reload has failed puts back
what it had found.
-/

namespace LocalWebAccess.MainCaddyfile

/-- The contents of the main Caddyfile that an operation is about to write, or may put back. -/
def Prog.texts : Prog → List (Option Imports)
  | .writing _ previous content _ _ _ | .reloading previous content _ _ _ => [previous, some content]
  | .undoing previous _ _ => [previous]
  | _ => []

/-! ## Programs on fragments of their own -/

/-- A program at rest only reads and changes fragments of its operation, and ends in one of these ways. -/
def Within (owns : Fragment → Bool) (ends : Outcome → Prop) : Prog → Prop
  | .done outcome => ends outcome
  | .read x next => owns x = true ∧ ∀ v, Within owns ends (next v)
  | .list next => (∀ x, owns x = true) ∧ ∀ files, Within owns ends (next files)
  | .change _ x _ ok failed => owns x = true ∧ Within owns ends ok ∧ Within owns ends failed
  | .ask yes no => Within owns ends yes ∧ Within owns ends no
  | .lock held timeout => Within owns ends held ∧ Within owns ends timeout
  | .unlock next | .delete _ next => Within owns ends next
  | .regenerate _ ok failed broken => Within owns ends ok ∧ Within owns ends failed ∧ Within owns ends broken
  | .writing .. | .reloading .. | .undoing .. => False

/-- A program at any point. -/
def Fits (owns : Fragment → Bool) : Prog → Prop
  | .writing _ _ _ ok failed broken | .reloading _ _ ok failed broken =>
    Within owns (fun _ => True) ok ∧ Within owns (fun _ => True) failed ∧ Within owns (fun _ => True) broken
  | .undoing _ failed broken => Within owns (fun _ => True) failed ∧ Within owns (fun _ => True) broken
  | prog => Within owns (fun _ => True) prog

def edit (files : Files) (x : Fragment) (v : Option Content) : Files := fun y => if y = x then v else files y

/-- Where the program raises as its reload has failed, the fragments of its operation are as before, if
no one else changes them. -/
def Restores (owns : Fragment → Bool) (before : Files) : Prog → Files → Prop
  | .done outcome, files => outcome = .reloadFailed → ∀ x, owns x = true → files x = before x
  | .read x next, files => Restores owns before (next (files x)) files
  | .list next, files => Restores owns before (next files) files
  | .change role x v ok failed, files =>
    (role ≠ .invent → Restores owns before ok (edit files x v)) ∧
      (role ≠ .restore →
        Restores owns before failed files ∧ ∀ left, Restores owns before failed (edit files x (some left)))
  | .ask yes no, files => Restores owns before yes files ∧ Restores owns before no files
  | .lock held timeout, files => Restores owns before held files ∧ Restores owns before timeout files
  | .unlock next, files | .delete _ next, files => Restores owns before next files
  | .regenerate _ ok failed broken, files | .writing _ _ _ ok failed broken, files
  | .reloading _ _ ok failed broken, files =>
    Restores owns before ok files ∧ Restores owns before failed files ∧ Restores owns before broken files
  | .undoing _ failed broken, files => Restores owns before failed files ∧ Restores owns before broken files

variable {owns : Fragment → Bool} {ends : Outcome → Prop} {before files files' : Files} {prog : Prog}

theorem Within.fits (within : Within owns (fun _ => True) prog) : Fits owns prog := by
  cases prog <;> first | exact within | cases within

theorem Within.texts (within : Within owns ends prog) : prog.texts = [] := by
  cases prog <;> first | rfl | cases within

/-- The fragments of others do not matter. -/
theorem Restores.congr (within : Within owns ends prog) (same : ∀ x, owns x = true → files x = files' x)
    (restores : Restores owns before prog files) : Restores owns before prog files' := by
  have edit_same : ∀ {files files' : Files} (y : Fragment) (v : Option Content),
      (∀ x, owns x = true → files x = files' x) → ∀ x, owns x = true → edit files y v x = edit files' y v x := by
    intro files files' y v same x mine
    unfold edit
    split_ifs
    · rfl
    · exact same x mine
  induction prog generalizing files files' with
  | done outcome =>
    intro failed x mine
    exact (same x mine).symm.trans (restores failed x mine)
  | read x next ih =>
    have restores : Restores owns before (next (files x)) files := restores
    rw [same x within.1] at restores
    exact ih _ (within.2 _) same restores
  | list next ih =>
    obtain rfl : files = files' := funext fun x => same x (within.1 x)
    exact restores
  | change role x v ok failed ok_ih failed_ih =>
    refine ⟨fun role => ?_, fun role => ⟨?_, fun left => ?_⟩⟩
    · exact ok_ih within.2.1 (edit_same x v same) (restores.1 role)
    · exact failed_ih within.2.2 same (restores.2 role).1
    · exact failed_ih within.2.2 (edit_same x (some left) same) ((restores.2 role).2 left)
  | ask yes no yes_ih no_ih => exact ⟨yes_ih within.1 same restores.1, no_ih within.2 same restores.2⟩
  | lock held timeout held_ih timeout_ih =>
    exact ⟨held_ih within.1 same restores.1, timeout_ih within.2 same restores.2⟩
  | unlock next ih => exact ih within same restores
  | delete i next ih => exact ih within same restores
  | regenerate reload ok failed broken ok_ih failed_ih broken_ih =>
    exact ⟨ok_ih within.1 same restores.1, failed_ih within.2.1 same restores.2.1,
      broken_ih within.2.2 same restores.2.2⟩
  | writing | reloading | undoing => cases within

theorem Restores.congr_fits (fits : Fits owns prog) (same : ∀ x, owns x = true → files x = files' x)
    (restores : Restores owns before prog files) : Restores owns before prog files' := by
  cases prog
  case writing =>
    exact ⟨restores.1.congr fits.1 same, restores.2.1.congr fits.2.1 same, restores.2.2.congr fits.2.2 same⟩
  case reloading =>
    exact ⟨restores.1.congr fits.1 same, restores.2.1.congr fits.2.1 same, restores.2.2.congr fits.2.2 same⟩
  case undoing => exact ⟨restores.1.congr fits.1 same, restores.2.congr fits.2 same⟩
  all_goals
    have within : Within owns (fun _ => True) _ := fits
    exact restores.congr within same

/-! ## The programs of the source -/

section
variable {backend : Backend} {i : InstanceId} {ok failed broken raised reloadFailed : Prog}

theorem reloadAll_within (ok' : Within owns ends ok) (failed' : Within owns ends failed)
    (broken' : Within owns ends broken) : Within owns ends (reloadAll ok failed broken) :=
  ⟨⟨ok', failed', broken'⟩, failed'⟩

theorem writeMainConfig_within (ok' : Within owns ends ok) (failed' : Within owns ends failed) :
    Within owns ends (writeMainConfig ok failed) :=
  ⟨⟨ok', failed', failed'⟩, failed'⟩

theorem restoreAfterEnableFailure_within {prevSite prevAlias : Option Content} {role : Role}
    (site : owns (.siteOf i) = true) (route : owns (.aliasOf i) = true) (raised' : Within owns ends raised) :
    Within owns ends (restoreAfterEnableFailure backend i prevSite prevAlias role raised) := by
  cases backend
  case caddy =>
    cases prevSite
    · exact ⟨site, ⟨route, ⟨raised', raised', raised'⟩, raised'⟩, raised'⟩
    · exact ⟨site, ⟨route, ⟨⟨raised', raised', raised'⟩, raised', raised'⟩, raised'⟩, raised'⟩
  case builtin => exact ⟨⟨site, ⟨route, raised', raised'⟩, raised'⟩, raised'⟩

theorem enable_within {site : Content} {route : Option Content} (mine : owns (.siteOf i) = true)
    (mine' : owns (.aliasOf i) = true) (ok' : Within owns ends ok) (raised' : Within owns ends raised)
    (failed' : Within owns ends reloadFailed) :
    Within owns ends (enable backend i site route ok raised reloadFailed) := by
  refine ⟨⟨⟨mine, fun prevSite => ⟨mine', fun prevAlias => ?_⟩⟩, raised'⟩, raised'⟩
  have undo {role : Role} {raising : Prog} (raising' : Within owns ends raising) :
      Within owns ends (restoreAfterEnableFailure backend i prevSite prevAlias role raising) :=
    restoreAfterEnableFailure_within mine mine' raising'
  cases backend
  case caddy =>
    cases route
    · exact ⟨mine, ⟨ok', undo failed', undo raised'⟩, undo raised'⟩
    · exact ⟨mine, ⟨mine', ⟨ok', undo failed', undo raised'⟩, undo raised'⟩, undo raised'⟩
  case builtin => exact ⟨mine, ⟨ok', undo raised'⟩, undo raised'⟩

theorem disable_within (mine : owns (.siteOf i) = true) (mine' : owns (.aliasOf i) = true) (ok' : ends .ok)
    (raised' : ends .raised) : Within owns ends (disable backend i) := by
  cases backend
  · exact ⟨⟨⟨mine, ⟨mine', ⟨ok', raised', raised'⟩, raised'⟩, raised'⟩, raised'⟩, raised'⟩
  · exact ⟨⟨⟨mine, ⟨mine', ok', raised'⟩, raised'⟩, raised'⟩, raised'⟩

theorem rollbackAliasConfig_within {previousAlias previousFragment : Option Content} {undo remake : Role}
    (mine : owns (.aliasOf i) = true) (ok' : Within owns ends ok) (failed' : Within owns ends failed) :
    Within owns ends (rollbackAliasConfig i previousAlias previousFragment undo remake ok failed) := by
  cases previousFragment
  case some => exact ⟨mine, ok', failed'⟩
  case none =>
    refine ⟨mine, fun now => ?_⟩
    cases now
    case some => exact ⟨mine, ok', failed'⟩
    case none =>
      cases previousAlias
      · exact ok'
      · exact ⟨mine, ok', failed'⟩

theorem applyGatewayAlias_within {static : Bool} {route previousAlias : Option Content}
    (mine : owns (.siteOf i) = true) (mine' : owns (.aliasOf i) = true) (all : ∀ outcome, ends outcome) :
    Within owns ends (applyGatewayAlias backend static i route previousAlias) := by
  refine ⟨?_, all .raised⟩
  have caddy : Within owns ends (.read (.aliasOf i) fun previous =>
      .change .plain (.aliasOf i) route
        (reloadAll (.done .ok)
          (rollbackAliasConfig i previousAlias previous .restore .invent (.done .reloadFailed) (.done .raised))
          (.done .raised))
        (.done .raised)) :=
    ⟨mine', fun previous =>
      ⟨mine', reloadAll_within (all _) (rollbackAliasConfig_within mine' (all _) (all _)) (all _), all _⟩⟩
  cases static <;> cases backend
  case false.caddy => exact caddy
  case false.builtin => exact ⟨mine', all _, all _⟩
  case true.caddy =>
    refine ⟨mine, fun site => ?_⟩
    cases site
    · exact all .ok
    · exact caddy
  case true.builtin => exact ⟨⟨mine', all _, all _⟩, all _⟩

theorem rollbackAlias_within {previousAlias previousFragment : Option Content} (mine : owns (.aliasOf i) = true)
    (ok' : ends .ok) (raised' : ends .raised) : Within owns ends (rollbackAlias i previousAlias previousFragment) :=
  rollbackAliasConfig_within mine (reloadAll_within ok' ok' raised') raised'

theorem removeInstance_within (mine : owns (.aliasOf i) = true) (ok' : ends .ok) :
    Within owns ends (removeInstance backend i) := by
  have removed : Within owns ends (.delete i (.done .ok)) := ok'
  cases backend
  · exact ⟨mine, writeMainConfig_within removed removed, removed⟩
  · exact ⟨mine, removed, removed⟩

theorem startGateway_within (ok' : Within owns ends ok) (failed' : Within owns ends failed) :
    Within owns ends (startGateway ok failed) :=
  have verify : Within owns ends (.ask ok failed) := ⟨ok', failed'⟩
  ⟨writeMainConfig_within ⟨reloadAll_within verify verify verify, verify⟩ failed', failed'⟩

section
variable (all : ∀ x, owns x = true)
include all

theorem enableRunningBuiltin_within (ok' : Within owns ends ok) (failed' : Within owns ends failed)
    (sites : List (InstanceId × Content)) : Within owns ends (enableRunningBuiltin ok failed sites) := by
  induction sites with
  | nil => exact ok'
  | cons site rest ih => exact enable_within (all _) (all _) ih failed' failed'

theorem rebuildCaddyAliases_within (aliases : List (InstanceId × Content)) (ok' : Within owns ends ok)
    (failed' : Within owns ends failed) : Within owns ends (rebuildCaddyAliases aliases ok failed) := by
  have reloads {next : Prog} (next' : Within owns ends next) (routes : List (InstanceId × Content)) :
      Within owns ends (generateAliases next failed routes) := by
    induction routes with
    | nil => exact next'
    | cons route rest ih => exact ⟨all _, ih, failed'⟩
  have retry := writeMainConfig_within (reloadAll_within ok' failed' failed') failed'
  refine reloads ?_ aliases
  split
  · exact ok'
  · exact reloadAll_within ok' retry retry

theorem restoreSnapshot_within (snap : Files) (ok' : Within owns ends ok) (failed' : Within owns ends failed)
    (fragments : List Fragment) : Within owns ends (restoreSnapshot snap ok failed fragments) := by
  induction fragments with
  | nil => exact ok'
  | cons x rest ih =>
    refine ⟨all x, ih, ?_⟩
    split
    · exact failed'
    · exact ih

theorem rollbackSwitch_within (plan : SwitchPlan) (snap : Files) (ok' : ends .ok) :
    Within owns ends (rollbackSwitch plan snap) := by
  have finished : Within owns ends (.done .ok) := ok'
  refine restoreSnapshot_within all snap ?_ finished plan.fragments
  split
  · exact startGateway_within finished finished
  · exact ⟨enableRunningBuiltin_within all finished finished plan.sites, finished⟩

theorem switchGateway_within (plan : SwitchPlan) (ok' : ends .ok) : Within owns ends (switchGateway plan) := by
  refine ⟨all, fun snap => ?_⟩
  have back := rollbackSwitch_within all plan snap ok'
  have finish : Within owns ends (.ask (.done .ok) (rollbackSwitch plan snap)) := ⟨ok', back⟩
  split
  · exact ⟨enableRunningBuiltin_within all finish back plan.sites, back⟩
  · exact startGateway_within (rebuildCaddyAliases_within all plan.aliases finish back) back

end

theorem Op.owner_owned (i : InstanceId) : (i == i) = true := beq_self_eq_true i

theorem Op.within (op : Op) : Within op.owns (fun _ => True) op.prog := by
  cases op with
  | enable backend i site route => exact enable_within (owner_owned i) (owner_owned i) trivial trivial trivial
  | disable backend i => exact disable_within (owner_owned i) (owner_owned i) trivial trivial
  | apply backend static i route previousAlias =>
    exact applyGatewayAlias_within (owner_owned i) (owner_owned i) fun _ => trivial
  | rollback i previousAlias previousFragment => exact rollbackAlias_within (owner_owned i) trivial trivial
  | remove backend i => exact removeInstance_within (owner_owned i) trivial
  | switch plan => exact switchGateway_within (fun _ => rfl) plan trivial

/-! ## What is put back -/

/-- A program that never ends in this way has nothing to put back. -/
theorem Within.restores (within : Within owns (· ≠ .reloadFailed) prog) (before files : Files) :
    Restores owns before prog files := by
  induction prog generalizing files with
  | done outcome => exact fun failed => absurd failed within
  | read x next ih => exact ih _ (within.2 _) files
  | list next ih => exact ih _ (within.2 _) files
  | change role x v ok failed ok_ih failed_ih =>
    exact ⟨fun _ => ok_ih within.2.1 _, fun _ => ⟨failed_ih within.2.2 _, fun _ => failed_ih within.2.2 _⟩⟩
  | ask yes no yes_ih no_ih => exact ⟨yes_ih within.1 files, no_ih within.2 files⟩
  | lock held timeout held_ih timeout_ih => exact ⟨held_ih within.1 files, timeout_ih within.2 files⟩
  | unlock next ih => exact ih within files
  | delete i next ih => exact ih within files
  | regenerate reload ok failed broken ok_ih failed_ih broken_ih =>
    exact ⟨ok_ih within.1 files, failed_ih within.2.1 files, broken_ih within.2.2 files⟩
  | writing | reloading | undoing => cases within

theorem edit_undo (files : Files) (x : Fragment) (v : Option Content) : edit (edit files x v) x (files x) = files := by
  funext y
  unfold edit
  split_ifs with same
  · rw [same]
  · rfl

theorem edit_same (files : Files) (x : Fragment) : edit files x (files x) = files := by
  funext y
  unfold edit
  split_ifs with same
  · rw [same]
  · rfl

theorem edit_comm {x y : Fragment} (far : x ≠ y) (files : Files) (v w : Option Content) :
    edit (edit files x v) y w = edit (edit files y w) x v := by
  funext z
  unfold edit
  split_ifs with first second
  · exact absurd (second.symm.trans first) far
  · rfl
  · rfl
  · rfl

theorem restoreAfterEnableFailure_restores {prevSite prevAlias : Option Content}
    (undone : Restores owns before raised (edit (edit files (.siteOf i) prevSite) (.aliasOf i) prevAlias)) :
    Restores owns before (restoreAfterEnableFailure .caddy i prevSite prevAlias .restore raised) files := by
  refine ⟨fun _ => ⟨fun _ => ?_, fun plain => absurd rfl plain⟩, fun plain => absurd rfl plain⟩
  cases prevSite
  · exact ⟨undone, undone, undone⟩
  · exact ⟨⟨undone, undone, undone⟩, undone, undone⟩

theorem enable_restores {site : Content} {route : Option Content} (mine : owns (.siteOf i) = true)
    (mine' : owns (.aliasOf i) = true) (ok' : Within owns (· ≠ .reloadFailed) ok)
    (raised' : Within owns (· ≠ .reloadFailed) raised) (failed' : Restores owns before reloadFailed files) :
    Restores owns before (enable backend i site route ok raised reloadFailed) files := by
  have far : Fragment.siteOf i ≠ .aliasOf i := by
    intro same
    cases same
  have quiet {prevSite prevAlias : Option Content} (files : Files) :
      Restores owns before (restoreAfterEnableFailure backend i prevSite prevAlias .plain raised) files :=
    (restoreAfterEnableFailure_within mine mine' raised').restores before files
  refine ⟨⟨?_, raised'.restores before files⟩, raised'.restores before files⟩
  refine ⟨fun _ => ?_, fun _ => ⟨quiet files, fun _ => quiet _⟩⟩
  cases backend
  case builtin => exact ⟨ok'.restores before _, quiet _⟩
  case caddy =>
    cases route with
    | none =>
      refine ⟨ok'.restores before _, restoreAfterEnableFailure_restores ?_, quiet _⟩
      rw [edit_undo, edit_same]
      exact failed'
    | some route =>
      refine ⟨fun _ => ⟨ok'.restores before _, restoreAfterEnableFailure_restores ?_, quiet _⟩,
        fun _ => ⟨quiet _, fun _ => quiet _⟩⟩
      rw [edit_comm far.symm, edit_undo, edit_undo]
      exact failed'

theorem applyGatewayAlias_restores {static : Bool} {route previousAlias : Option Content} :
    Restores owns files (applyGatewayAlias backend static i route previousAlias) files := by
  have ends (files' : Files) : Restores owns files (.done .ok) files' := fun failed => by cases failed
  have raises (files' : Files) : Restores owns files (.done .raised) files' := fun failed => by cases failed
  have undone : Restores owns files (.done .reloadFailed) files := fun _ _ _ => rfl
  have undo : Restores owns files
      (rollbackAliasConfig i previousAlias (files (.aliasOf i)) .restore .invent (.done .reloadFailed) (.done .raised))
      (edit files (.aliasOf i) route) := by
    have back : edit (edit files (.aliasOf i) route) (.aliasOf i) (files (.aliasOf i)) = files :=
      edit_undo files _ route
    unfold rollbackAliasConfig
    split
    · rename_i fragment found
      rw [found] at back
      refine ⟨fun _ => ?_, fun plain => absurd rfl plain⟩
      rw [back]
      exact undone
    · rename_i found
      rw [found] at back
      have now : edit files (.aliasOf i) route (.aliasOf i) = route := if_pos rfl
      unfold Restores
      rw [now]
      cases route
      · cases previousAlias
        · have same : edit files (.aliasOf i) none = files := by rw [← found, edit_same]
          show Restores owns files (.done .reloadFailed) (edit files (.aliasOf i) none)
          rw [same]
          exact undone
        · exact ⟨fun remake => absurd rfl remake, fun _ => ⟨raises _, fun _ => raises _⟩⟩
      · refine ⟨fun _ => ?_, fun plain => absurd rfl plain⟩
        rw [back]
        exact undone
  have caddy : Restores owns files (.read (.aliasOf i) fun previous =>
      .change .plain (.aliasOf i) route
        (reloadAll (.done .ok)
          (rollbackAliasConfig i previousAlias previous .restore .invent (.done .reloadFailed) (.done .raised))
          (.done .raised))
        (.done .raised)) files :=
    ⟨fun _ => ⟨⟨ends _, undo, raises _⟩, undo⟩, fun _ => ⟨raises _, fun _ => raises _⟩⟩
  refine ⟨?_, raises _⟩
  have builtin : Restores owns files (.change .plain (.aliasOf i) none (.done .ok) (.done .raised)) files :=
    ⟨fun _ => ends _, fun _ => ⟨raises _, fun _ => raises _⟩⟩
  cases static <;> cases backend
  case false.caddy => exact caddy
  case false.builtin => exact builtin
  case true.builtin => exact ⟨builtin, ends _⟩
  case true.caddy =>
    show Restores owns files (if (files (.siteOf i)).isSome then _ else _) files
    split
    · exact caddy
    · exact ends _

theorem Op.restores (op : Op) (files : Files) : Restores op.owns files op.prog files := by
  have ok' : Outcome.ok ≠ .reloadFailed := by decide
  have raised' : Outcome.raised ≠ .reloadFailed := by decide
  cases op with
  | enable backend i site route =>
    exact enable_restores (owner_owned i) (owner_owned i) ok' raised' fun _ _ _ => rfl
  | disable backend i => exact (disable_within (owner_owned i) (owner_owned i) ok' raised').restores files files
  | apply backend static i route previousAlias => exact applyGatewayAlias_restores
  | rollback i previousAlias previousFragment =>
    exact (rollbackAlias_within (owner_owned i) ok' raised').restores files files
  | remove backend i => exact (removeInstance_within (owner_owned i) ok').restores files files
  | switch plan => exact (switchGateway_within (fun _ => rfl) plan ok').restores files files

end

end LocalWebAccess.MainCaddyfile
