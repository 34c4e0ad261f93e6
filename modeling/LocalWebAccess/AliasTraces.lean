import LocalWebAccess.AliasChange

/-!
# What a failed change of an alias leaves

Only a `GatewayError` of the gateway and a `RecognitionError` of the live verification take the new fragment back.
Any other exception after the fragment has been written, and any at all from the upsert on, leaves the stores in
disagreement or with the new alias.
-/
namespace LocalWebAccess.AliasChange
open FailingEffects

variable {env : Conditions} {s t : Stores} {m : Manifest} {step : Step}

def Manifest.Carries (m : Manifest) (slug : Option Alias) : Prop :=
  m.network = slug ∧
    match m.runtime with
    | .dockerCompose => m.container = slug ∧ m.static = none
    | .sharedStatic => m.static = slug ∧ m.container = none

/-- The gateway has an entry for the instance if it has an alias. -/
def served (env : Conditions) (m : Manifest) : Bool :=
  m.hostPort.isSome && env.caddy && (m.runtime = .dockerCompose || env.enabled)

def Fragment.alias? : Fragment → Option Alias
  | rendered slug _ => some slug
  | torn => none

/-- There is no fragment where the gateway does not serve the instance. -/
def FragmentCarries (env : Conditions) (m : Manifest) (file : Option Fragment) (slug : Option Alias) : Prop :=
  file.map Fragment.alias? = (if served env m then slug else none).map some

/-- All of the stores have the alias. -/
def Carries (env : Conditions) (s : Stores) (slug : Option Alias) : Prop :=
  s.manifest.Carries slug ∧ s.routeHost = slug ∧ FragmentCarries env s.manifest s.fragment slug

/-- What a write that raises leaves in its file. -/
def Conditions.left (env : Conditions) (step : Step) (file : Option Fragment) : Option Fragment :=
  if env.torn step then some .torn else file

/-- What a rollback leaves, also when it raises itself. -/
def Conditions.restored (env : Conditions) (step : Step) (file previous : Option Fragment) : Option Fragment :=
  if env.raises step = none then previous
  else if previous.isSome then env.left step file
  else file

/-! ## How each part ends -/

section

variable {F : Bool × Bool → Stores → Prop} {G G' : Stores → Prop}

@[simp]
theorem ends_run {post : Except Raised PUnit → Stores → Prop} : Ends (run env step) s post ↔
    (env.raises step = none → post (.ok ⟨⟩) s) ∧ ∀ e, env.raises step = some e → post (.error e) s := ends_attempt

@[simp]
theorem ends_writeText {content : Fragment} {post : Except Raised PUnit → Stores → Prop} :
    Ends (writeText env step content) s post ↔
      (env.raises step = none → post (.ok ⟨⟩) { s with fragment := some content }) ∧
        ∀ e, env.raises step = some e → post (.error e) { s with fragment := env.left step s.fragment } := by
  simp [writeText, Conditions.left]

theorem ends_unlink {post : Except Raised PUnit → Stores → Prop} (there : s.fragment.isSome) :
    Ends (unlink env step) s post ↔
      (env.raises step = none → post (.ok ⟨⟩) { s with fragment := none }) ∧
        ∀ e, env.raises step = some e → post (.error e) s := by
  simp [unlink, there]

theorem ends_unlink_of_none {post : Except Raised PUnit → Stores → Prop} (missing : s.fragment = none) :
    Ends (unlink env step) s post ↔ post (.ok ⟨⟩) s := by
  simp [unlink, missing]

@[simp]
theorem Manifest.wish_runtime {wish : Option Alias} : (m.wish wish).runtime = m.runtime := rfl

@[simp]
theorem Manifest.wish_hostPort {wish : Option Alias} : (m.wish wish).hostPort = m.hostPort := rfl

@[simp]
theorem Manifest.wish_currentAlias {wish : Option Alias} : (m.wish wish).currentAlias = m.currentAlias := rfl

/-- Whether it raises or not, a rollback only changes the fragment. -/
theorem ends_rollback {previousAlias : Option Alias} (hostPort : Option ℕ) {previous : Option Fragment}
    (bare : previous = none → previousAlias = none) :
    Ends (rollbackAliasConfig env step previousAlias hostPort previous) s (fun _ t => G t) ↔
      G { s with fragment := env.restored step s.fragment previous } := by
  obtain ⟨file, manifest, routeHost⟩ := s
  cases previous with
  | some content =>
    cases raises : env.raises step <;> simp [rollbackAliasConfig, Conditions.restored, raises]
  | none =>
    rw [bare rfl]
    cases file <;> cases raises : env.raises step <;>
      simp [rollbackAliasConfig, Conditions.restored, raises, ends_unlink]

/-- The fragment after an exception that is handled by a rollback or not. -/
def Conditions.caught (env : Conditions) (step : Step) (handled : Prop) [Decidable handled]
    (file previous : Option Fragment) : Option Fragment :=
  if handled then env.restored step file previous else file

theorem caught_iff {handled : Prop} [Decidable handled] {file previous : Option Fragment} :
    G { s with fragment := env.caught step handled file previous } ↔
      (handled → G { s with fragment := env.restored step file previous }) ∧
        (¬handled → G { s with fragment := file }) := by
  by_cases handled <;> simp [Conditions.caught, *]

def writingStep (slug : Option Alias) : Step := if slug.isSome then .generating else .removing

/-- The fragment after a write that raises; nothing is written of a removal. -/
def Conditions.written (env : Conditions) (slug : Option Alias) (file : Option Fragment) : Option Fragment :=
  if slug.isSome then env.left .generating file else file

theorem ends_writeAlias {slug : Option Alias} {port : ℕ} {post : Except Raised PUnit → Stores → Prop}
    (there : slug = none → s.fragment.isSome) : Ends (writeAlias env slug port) s post ↔
      (env.raises (writingStep slug) = none →
        post (.ok ⟨⟩) { s with fragment := slug.map fun slug => .rendered slug port }) ∧
      ∀ e, env.raises (writingStep slug) = some e →
        post (.error e) { s with fragment := env.written slug s.fragment } := by
  cases slug with
  | none => simp [writeAlias, writingStep, Conditions.written, ends_unlink (there rfl)]
  | some slug => simp [writeAlias, writingStep, Conditions.written, generateAliasConfig]

theorem ends_applyGatewayAlias {slug previousAlias : Option Alias} {port : ℕ} {runtime : Runtime}
    (caddy : env.caddy = true) (enabled : ¬(runtime = .sharedStatic ∧ env.enabled = false))
    (there : slug = none → s.fragment.isSome) (bare : s.fragment = none → previousAlias = none) :
    Ends (applyGatewayAlias env slug (some port) previousAlias runtime) s (onValue F fun _ t => G t) ↔
      (env.raises .preparing = none →
        (env.raises (writingStep slug) = none →
          (env.raises .reloading = none →
            F (slug.isSome, true) { s with fragment := slug.map fun slug => .rendered slug port }) ∧
          ∀ e, env.raises .reloading = some e → G { s with
            fragment := env.caught .restoring (e = .gateway) (slug.map fun slug => .rendered slug port) s.fragment }) ∧
        ∀ e, env.raises (writingStep slug) = some e → G { s with
          fragment := env.caught .restoring (e = .gateway) (env.written slug s.fragment) s.fragment }) ∧
      ∀ e, env.raises .preparing = some e → G s := by
  simp [applyGatewayAlias, enabled, caddy, ends_writeAlias there, ends_ite, ends_rollback _ bare, caught_iff]

/-- The gateway has nothing to do for an instance that it does not serve. -/
theorem ends_applyGatewayAlias_of_unserved {slug previousAlias : Option Alias} (unserved : served env m = false)
    (file : s.fragment = none) :
    Ends (applyGatewayAlias env slug m.hostPort previousAlias m.runtime) s (onValue F fun _ t => G t) ↔
      (env.raises .preparing = none → F (false, false) s) ∧ ∀ e, env.raises .preparing = some e → G s := by
  unfold served at unserved
  cases port : m.hostPort with
  | none => simp [applyGatewayAlias]
  | some port =>
    by_cases disabled : m.runtime = .sharedStatic ∧ env.enabled = false
    · simp [applyGatewayAlias, disabled]
    · have builtin : env.caddy = false := by
        cases runtime : m.runtime <;> simp_all
      simp [applyGatewayAlias, disabled, builtin, ends_unlink_of_none file]

theorem ends_suppress_save {post : Except Raised PUnit → Stores → Prop}
    (same : post (.ok ⟨⟩) { s with manifest := m } ↔ post (.ok ⟨⟩) s) :
    Ends (suppress (save env step m)) s post ↔ post (.ok ⟨⟩) s := by
  cases raises : env.raises step <;> simp [suppress, save, raises, same]

theorem ends_rollbackVerified {previousAlias : Option Alias} (hostPort : Option ℕ) {previous : Option Fragment}
    (bare : previous = none → previousAlias = none) :
    Ends (rollbackAliasAfterFailedLiveVerify env previousAlias hostPort previous) s (fun _ t => G t) ↔
      G { s with fragment := env.restored .restoringVerified s.fragment previous } := by
  refine Iff.trans ?_ (ends_rollback hostPort bare)
  unfold rollbackAliasAfterFailedLiveVerify
  simp only [ends_tryCatch, ends_bind]
  refine ends_congr fun r t => ?_
  cases r with
  | ok => cases raises : env.raises .reloadingVerified <;> simp [raises, ends_ite]
  | error e => simp [ends_ite]

theorem ends_verifyAlias {slug : Alias} {skip : Bool} {previous : Option Fragment}
    (bare : previous = none → m.currentAlias = none)
    (wish : ∀ file, G { s with fragment := file, manifest := m.wish (some slug) } ↔
      G { s with fragment := file }) :
    Ends (verifyAlias env m slug skip previous) s (onValue F fun _ t => G t) ↔
      if skip then (env.raises .noting = none → F (false, true) s) ∧ ∀ e, env.raises .noting = some e → G s
      else (env.raises .verifying = none → F (true, false) s) ∧ ∀ e, env.raises .verifying = some e → G { s with
        fragment := env.caught .restoringVerified (e = .recognition) s.fragment previous } := by
  have frame : Ends (rollbackAliasAfterFailedLiveVerify env m.currentAlias m.hostPort previous) s
      (fun _ t => ∃ file, t = { s with fragment := file }) :=
    (ends_rollbackVerified m.hostPort bare).mpr ⟨_, rfl⟩
  have rollback : Ends (rollbackAliasAfterFailedLiveVerify env m.currentAlias m.hostPort previous) s (onValue
      (fun _ t => Ends (suppress (save env .wishing (m.wish (some slug)))) t fun _ t => G t)
        fun _ t => G t) ↔ G { s with fragment := env.restored .restoringVerified s.fragment previous } := by
    refine Iff.trans ?_ (ends_rollbackVerified m.hostPort bare)
    refine frame.congr fun r t only => ?_
    obtain ⟨file, rfl⟩ := only
    cases r with
    | ok =>
      rw [onValue_ok]
      exact ends_suppress_save (wish file)
    | error => rfl
  cases skip
  · simp [verifyAlias, ends_ite, caught_iff, rollback]
  · simp [verifyAlias]

/-- The states that differ from `s` in the wished alias only. -/
def Unwished (s t : Stores) : Prop := ∃ wish, t = { s with manifest := s.manifest.wish wish }

theorem Unwished.carries_iff (h : Unwished s t) {slug : Option Alias} : Carries env t slug ↔ Carries env s slug := by
  obtain ⟨wish, rfl⟩ := h
  exact Iff.rfl

theorem carries_fragment_iff {a : Option Alias} (agrees : Carries env s a) (file : Option Fragment) :
    Carries env { s with fragment := file } a ↔ FragmentCarries env s.manifest file a :=
  ⟨fun h => h.2.2, fun h => ⟨agrees.1, agrees.2.1, h⟩⟩

theorem named_of_carries {a : Option Alias} (carries : m.Carries a) (wish slug : Option Alias) :
    ((m.wish wish).named slug).Carries slug ∧ ((m.wish wish).named slug).routeHost = slug ∧
      ∀ env, served env ((m.wish wish).named slug) = served env m := by
  unfold Manifest.Carries at carries ⊢
  cases runtime : m.runtime <;>
    simp_all [Manifest.named, Manifest.applyAlias, Manifest.wish, Manifest.routeHost, served]

/-- Nothing is kept of a change before its manifest is saved, and all of it once it has been recorded. -/
theorem ends_persistAlias {a slug : Option Alias} (agrees : Carries env s a) (changed : slug ≠ a)
    (wish : Option Alias) (file : Option Fragment) :
    Ends (persistAlias env (s.manifest.wish wish) slug) { s with fragment := file }
        (onValue (fun _ t => Carries env t slug) fun _ t => Carries env t a) ↔
      (env.raises .routing = none → env.raises .saving = none →
        env.raises .upserting = none ∧ env.raises .recording = none ∧ FragmentCarries env s.manifest file slug) ∧
      (env.raises .routing ≠ none ∨ env.raises .saving ≠ none → FragmentCarries env s.manifest file a) := by
  obtain ⟨carries, routeHost, frame⟩ := named_of_carries agrees.1 wish slug
  have new : Carries env ⟨file, (s.manifest.wish wish).named slug, ((s.manifest.wish wish).named slug).routeHost⟩ slug ↔
      FragmentCarries env s.manifest file slug := by
    unfold Carries FragmentCarries
    simp [carries, routeHost, frame]
  have other : ∀ row, ¬Carries env ⟨file, (s.manifest.wish wish).named slug, row⟩ a := by
    intro row keeps
    exact changed (carries.1.symm.trans keeps.1.1)
  have old := carries_fragment_iff agrees file
  cases routing : env.raises .routing
  · cases saving : env.raises .saving
    · cases upserting : env.raises .upserting
      · cases recording : env.raises .recording
        · simpa [persistAlias, save, routing, saving, upserting, recording] using new
        · simpa [persistAlias, save, routing, saving, upserting, recording] using other _
      · simpa [persistAlias, save, routing, saving, upserting] using other _
    · simpa [persistAlias, save, routing, saving] using old
  · simpa [persistAlias, save, routing] using old

end

/-! ## The steps that may raise -/

/-- What a call asks for: nothing, unless the wish is still the required one. -/
def target (m : Manifest) (slug requireDesiredAlias : Option Alias) : Option Alias :=
  if m.mismatches requireDesiredAlias then m.currentAlias else slug

/-- A new alias passes its checks and its guard. -/
def Admitted (env : Conditions) (slug : Option Alias) : Prop :=
  slug.isSome →
    env.caddy = true ∧ ∀ step ∈ [Step.validating, .detecting, .fetching, .guarding], env.raises step = none

/-- The call reaches the stores. -/
def Reaches (env : Conditions) (m : Manifest) (slug requireDesiredAlias : Option Alias) : Prop :=
  env.raises .loading = none ∧ m.mismatches requireDesiredAlias = false ∧ slug ≠ m.currentAlias ∧ Admitted env slug ∧
    env.raises .reading = none ∧ env.raises .preparing = none

/-- A handled exception is undone by a rollback that does not raise; else the fragment has to be as it was. -/
def Undone (env : Conditions) (rollback : Step) (handled : Prop) (file previous : Option Fragment) : Prop :=
  (handled ∧ env.raises rollback = none) ∨
    (file = previous ∧ (handled → previous.isSome → env.torn rollback = false))

def VerificationHarmless (env : Conditions) (slug : Option Alias) (skipCompatCheck : Bool) : Prop :=
  slug.isSome → if skipCompatCheck then env.raises .noting = none
    else ∀ e, env.raises .verifying = some e → e = .recognition ∧ env.raises .restoringVerified = none

/-- The write and the reload of a fragment have to succeed or to be undone, and what follows has to succeed, once
the verification has. -/
def ServedHarmless (env : Conditions) (slug : Option Alias) (skipCompatCheck : Bool) (previous : Option Fragment) :
    Prop :=
  (∀ e, env.raises (writingStep slug) = some e →
    Undone env .restoring (e = .gateway) (env.written slug previous) previous) ∧
  (env.raises (writingStep slug) = none →
    (∀ e, env.raises .reloading = some e → e = .gateway ∧ env.raises .restoring = none) ∧
    (env.raises .reloading = none →
      VerificationHarmless env slug skipCompatCheck ∧
      ((slug.isSome → skipCompatCheck = false → env.raises .verifying = none) →
        ∀ step ∈ [Step.routing, .saving, .upserting, .recording], env.raises step = none)))

/-- Without a fragment, what follows the save of the manifest. -/
def UnservedHarmless (env : Conditions) : Prop :=
  env.raises .routing = none → env.raises .saving = none → env.raises .upserting = none ∧ env.raises .recording = none

def Harmless (env : Conditions) (s : Stores) (slug : Option Alias) (skipCompatCheck : Bool)
    (requireDesiredAlias : Option Alias) : Prop :=
  Reaches env s.manifest slug requireDesiredAlias →
    if served env s.manifest then ServedHarmless env slug skipCompatCheck s.fragment else UnservedHarmless env

/-- A call that raises leaves the alias that was in force, and one that returns the one it asks for. -/
def Traceless (env : Conditions) (s : Stores) (slug : Option Alias) (skipCompatCheck : Bool)
    (requireDesiredAlias : Option Alias) : Prop :=
  Ends (setInstancePathAliasLocked env slug skipCompatCheck requireDesiredAlias) s
    (onValue (fun _ t => Carries env t (target s.manifest slug requireDesiredAlias))
      fun _ t => Carries env t s.manifest.currentAlias)

section

variable {a slug : Option Alias} {skip : Bool} {file previous : Option Fragment}

theorem currentAlias_of_carries (carries : m.Carries a) : m.currentAlias = a := by
  unfold Manifest.Carries at carries
  cases runtime : m.runtime <;> simp_all [Manifest.currentAlias]

theorem served_iff : served env m = true ↔ (∃ port, m.hostPort = some port) ∧ env.caddy = true ∧
    ¬(m.runtime = .sharedStatic ∧ env.enabled = false) := by
  unfold served
  cases runtime : m.runtime <;> simp [Option.isSome_iff_exists, and_assoc]

theorem fragmentCarries_iff (serves : served env m = true) :
    FragmentCarries env m file a ↔ file.map Fragment.alias? = a.map some := by
  unfold FragmentCarries
  rw [if_pos serves]

theorem isSome_of_carries (serves : served env m = true) (carries : FragmentCarries env m file a) :
    file.isSome = a.isSome := by
  have sizes := congrArg Option.isSome ((fragmentCarries_iff serves).mp carries)
  simpa using sizes

/-- A new fragment does not carry another alias, and neither does one that is torn. -/
theorem not_carries_rendered (serves : served env m = true) (port : ℕ) (changed : slug ≠ a) :
    ¬FragmentCarries env m (slug.map fun slug => .rendered slug port) a := by
  rw [fragmentCarries_iff serves]
  intro same
  refine changed ?_
  cases slug <;> cases a <;> simp_all [Fragment.alias?]

theorem not_carries_torn (serves : served env m = true) : ¬FragmentCarries env m (some .torn) a := by
  rw [fragmentCarries_iff serves]
  cases a <;> simp [Fragment.alias?]

/-- A fragment that is not as it was does not carry the previous alias, unless it has been restored. -/
theorem fragmentCarries_caught {handled : Prop} [Decidable handled] (serves : served env m = true)
    (carries : FragmentCarries env m previous a) (either : file = previous ∨ ¬FragmentCarries env m file a) :
    FragmentCarries env m (env.caught step handled file previous) a ↔ Undone env step handled file previous := by
  have same : FragmentCarries env m file a ↔ file = previous :=
    ⟨fun keeps => either.resolve_right (not_not.mpr keeps), fun same => same ▸ carries⟩
  have torn := not_carries_torn (a := a) serves
  unfold Conditions.caught Undone Conditions.restored Conditions.left
  split_ifs <;> simp_all

theorem undone_of_changed {handled : Prop} [Decidable handled] (serves : served env m = true)
    (carries : FragmentCarries env m previous a) (changed : ¬FragmentCarries env m file a) :
    FragmentCarries env m (env.caught step handled file previous) a ↔ handled ∧ env.raises step = none := by
  rw [fragmentCarries_caught serves carries (.inr changed)]
  have other : file ≠ previous := fun same => changed (same ▸ carries)
  simp [Undone, other]

/-- The rest of a change with its new fragment. -/
theorem ends_rest (agrees : Carries env s a) {wish : Option Alias} (changed : slug ≠ a)
    (serves : served env s.manifest = true) {port : ℕ} (bare : s.fragment = none → s.manifest.currentAlias = none) :
    Ends (verifyChanged env (s.manifest.wish wish) slug true skip s.fragment)
        { s with fragment := slug.map fun slug => .rendered slug port }
        (onValue (fun _ t => Ends (persistAlias env (s.manifest.wish wish) slug) t
          (onValue (fun _ t => Carries env t slug) fun _ t => Carries env t a)) fun _ t => Carries env t a) ↔
      VerificationHarmless env slug skip ∧
        ((slug.isSome → skip = false → env.raises .verifying = none) →
          ∀ step ∈ [Step.routing, .saving, .upserting, .recording], env.raises step = none) := by
  have old := not_carries_rendered serves port changed
  have new : FragmentCarries env s.manifest (slug.map fun slug => .rendered slug port) slug := by
    rw [fragmentCarries_iff serves]
    cases slug <;> rfl
  have persist : Ends (persistAlias env (s.manifest.wish wish) slug)
      { s with fragment := slug.map fun slug => .rendered slug port }
        (onValue (fun _ t => Carries env t slug) fun _ t => Carries env t a) ↔
      ∀ step ∈ [Step.routing, .saving, .upserting, .recording], env.raises step = none := by
    rw [ends_persistAlias agrees changed]
    constructor
    · rintro ⟨onward, back⟩
      have routing : env.raises .routing = none := not_not.mp fun fails => old (back (.inl fails))
      have saving : env.raises .saving = none := not_not.mp fun fails => old (back (.inr fails))
      obtain ⟨upserting, recording, -⟩ := onward routing saving
      simp [routing, saving, upserting, recording]
    · intro all
      refine ⟨fun _ _ => ⟨all _ (by simp), all _ (by simp), new⟩, fun fails => ?_⟩
      rcases fails with fails | fails
      · exact absurd (all .routing (by simp)) fails
      · exact absurd (all .saving (by simp)) fails
  cases slug with
  | none =>
    simp only [verifyChanged, ends_pure, onValue_ok, persist]
    simp [VerificationHarmless]
  | some slug =>
    simp only [verifyChanged, if_true]
    refine Iff.trans (ends_verifyAlias (m := s.manifest.wish wish) bare fun _ => Iff.rfl) ?_
    simp only [persist]
    have undone : ∀ e : Raised, Carries env { s with
        fragment := env.caught .restoringVerified (e = .recognition)
          (Option.map (fun slug => .rendered slug port) (some slug)) s.fragment } a ↔
          e = .recognition ∧ env.raises .restoringVerified = none := by
      intro e
      rw [carries_fragment_iff agrees]
      exact undone_of_changed serves agrees.2.2 old
    have lost : ¬Carries env { s with fragment := Option.map (fun slug => .rendered slug port) (some slug) } a := by
      rw [carries_fragment_iff agrees]
      exact old
    unfold VerificationHarmless
    cases skip
    · simp only [undone]
      simpa using and_comm
    · cases noting : env.raises .noting
      · simp
      · simpa using lost

theorem ends_changeAlias_served (agrees : Carries env s a) {wish : Option Alias} (changed : slug ≠ a)
    (serves : served env s.manifest = true) :
    Ends (changeAlias env (s.manifest.wish wish) slug skip) s
        (onValue (fun _ t => Carries env t slug) fun _ t => Carries env t a) ↔
      (env.raises .reading = none → env.raises .preparing = none → ServedHarmless env slug skip s.fragment) := by
  have current := currentAlias_of_carries agrees.1
  have sizes := isSome_of_carries serves agrees.2.2
  have there : slug = none → s.fragment.isSome := by
    rintro rfl
    rw [sizes]
    exact Option.isSome_iff_ne_none.mpr (Ne.symm changed)
  have bare : s.fragment = none → s.manifest.currentAlias = none := by
    intro missing
    rw [missing] at sizes
    rw [current]
    simpa using sizes.symm
  obtain ⟨⟨port, known⟩, caddy, enabled⟩ := served_iff.mp serves
  unfold changeAlias
  simp only [ends_bind, ends_run, ends_get, ends_pure, onValue_ok, onValue_error, Manifest.wish_runtime,
    Manifest.wish_hostPort, Manifest.wish_currentAlias, known]
  rw [ends_applyGatewayAlias caddy enabled there bare, ends_rest agrees changed serves bare]
  have writing : ∀ e : Raised, Carries env { s with
      fragment := env.caught .restoring (e = .gateway) (env.written slug s.fragment) s.fragment } a ↔
        Undone env .restoring (e = .gateway) (env.written slug s.fragment) s.fragment := by
    intro e
    rw [carries_fragment_iff agrees]
    refine fragmentCarries_caught serves agrees.2.2 ?_
    unfold Conditions.written Conditions.left
    split_ifs
    · exact .inr (not_carries_torn serves)
    · exact .inl rfl
    · exact .inl rfl
  have reloading : ∀ e : Raised, Carries env { s with
      fragment := env.caught .restoring (e = .gateway) (slug.map fun slug => .rendered slug port) s.fragment } a ↔
        e = .gateway ∧ env.raises .restoring = none := by
    intro e
    rw [carries_fragment_iff agrees]
    exact undone_of_changed serves agrees.2.2 (not_carries_rendered serves port changed)
  simp only [writing, reloading, agrees, implies_true, and_true]
  unfold ServedHarmless
  refine imp_congr_right fun _ => imp_congr_right fun _ => and_comm.trans (and_congr_right fun _ => ?_)
  exact imp_congr_right fun _ => and_comm

theorem ends_changeAlias_unserved (agrees : Carries env s a) {wish : Option Alias} (changed : slug ≠ a)
    (unserved : served env s.manifest = false) :
    Ends (changeAlias env (s.manifest.wish wish) slug skip) s
        (onValue (fun _ t => Carries env t slug) fun _ t => Carries env t a) ↔
      (env.raises .reading = none → env.raises .preparing = none → UnservedHarmless env) := by
  have file : s.fragment = none := by
    have carries := agrees.2.2
    unfold FragmentCarries at carries
    rw [unserved] at carries
    simpa using carries
  have unverified : verifyChanged env (s.manifest.wish wish) slug false skip s.fragment = pure (false, false) := by
    cases slug <;> rfl
  have carries : ∀ a, FragmentCarries env s.manifest s.fragment a := by
    intro a
    unfold FragmentCarries
    simp [unserved, file]
  have persist := ends_persistAlias agrees changed wish s.fragment
  unfold changeAlias
  simp only [ends_bind, ends_run, ends_get, ends_pure, onValue_ok, onValue_error, Manifest.wish_runtime,
    Manifest.wish_hostPort, Manifest.wish_currentAlias]
  rw [ends_applyGatewayAlias_of_unserved unserved file]
  simp only [unverified, ends_pure, onValue_ok]
  rw [persist]
  simp only [carries, agrees, implies_true, and_true]
  rfl

theorem Unwished.refl (s : Stores) : Unwished s s := ⟨s.manifest.desiredAlias, rfl⟩

theorem ends_forgetWish {post : Except Raised Manifest → Stores → Prop} {result : Prop}
    (same : ∀ t wish, Unwished s t → (post (.ok (s.manifest.wish wish)) t ↔ result)) :
    Ends (forgetWish env s.manifest slug) s post ↔ result := by
  unfold forgetWish
  split_ifs
  · have saved : Unwished s { s with manifest := s.manifest.wish none } := ⟨none, rfl⟩
    simp only [ends_bind, ends_pure]
    cases raises : env.raises .forgettingWish
    · simpa [suppress, save, raises] using same _ none saved
    · simpa [suppress, save, raises] using same s none (.refl s)
  · exact same s s.manifest.desiredAlias (.refl s)

theorem ends_keepAlias (agrees : Carries env s a) {wish : Option Alias} :
    Ends (keepAlias env (s.manifest.wish wish) slug) s
      (onValue (fun _ t => Carries env t a) fun _ t => Carries env t a) := by
  have saved : Carries env { s with manifest := (s.manifest.wish wish).wish slug } a := agrees
  unfold keepAlias
  split_ifs
  · cases raises : env.raises .keepingWish <;> simp [suppress, save, raises, agrees, saved]
  · simpa using agrees

theorem ends_admitAlias {post : Except Raised PUnit → Stores → Prop} (refused : ∀ e, post (.error e) s) :
    Ends (admitAlias env slug) s post ↔ (Admitted env slug → post (.ok ⟨⟩) s) := by
  unfold admitAlias Admitted
  cases slug with
  | none => simp
  | some slug =>
    cases caddy : env.caddy
    · simp [checkAlias, guardAlias, caddy, refused]
    · cases validating : env.raises .validating <;> cases detecting : env.raises .detecting <;>
        simp [checkAlias, guardAlias, caddy, refused, validating, detecting]

theorem ends_setAlias (agrees : Carries env s a) (wish : Option Alias) :
    Ends (setAlias env (s.manifest.wish wish) slug skip) s
        (onValue (fun _ t => Carries env t slug) fun _ t => Carries env t a) ↔
      (slug ≠ a → Admitted env slug → env.raises .reading = none → env.raises .preparing = none →
        if served env s.manifest then ServedHarmless env slug skip s.fragment else UnservedHarmless env) := by
  have current := currentAlias_of_carries agrees.1
  unfold setAlias
  rw [Manifest.wish_currentAlias, current]
  by_cases same : slug = a
  · subst same
    simpa using ends_keepAlias agrees
  · rw [if_neg same, ends_bind, ends_admitAlias fun _ => agrees]
    simp only [onValue_ok, ne_eq, same, not_false_eq_true, forall_const]
    refine imp_congr_right fun _ => ?_
    cases serves : served env s.manifest
    · exact ends_changeAlias_unserved agrees same serves
    · exact ends_changeAlias_served agrees same serves

end

/-- A change leaves no trace exactly where its failing steps are harmless. -/
theorem change_traceless_iff {slug requireDesiredAlias : Option Alias} {skip : Bool}
    (agrees : Carries env s s.manifest.currentAlias) :
    Traceless env s slug skip requireDesiredAlias ↔ Harmless env s slug skip requireDesiredAlias := by
  unfold Traceless setInstancePathAliasLocked
  simp only [ends_bind, ends_run, ends_get, onValue_ok, onValue_error]
  by_cases loading : env.raises .loading = none
  · cases mismatch : s.manifest.mismatches requireDesiredAlias
    · simp only [Harmless, Reaches, mismatch, loading, target, Bool.false_eq_true, if_false, true_and, forall_const,
        reduceCtorEq, false_implies, implies_true, and_true, and_imp]
      rw [ends_bind]
      refine ends_forgetWish fun t wish unwished => ?_
      obtain ⟨wish', rfl⟩ := unwished
      exact ends_setAlias (s := { s with manifest := s.manifest.wish wish' }) agrees wish
    · simp [mismatch, loading, target, agrees, Harmless, Reaches]
  · obtain ⟨e, raised⟩ := Option.ne_none_iff_exists'.mp loading
    simp [raised, agrees, Harmless, Reaches]

/-- A container behind Caddy, without an alias. -/
def container : Stores := ⟨none, ⟨.dockerCompose, none, none, none, some 8001, none⟩, none⟩

def failing (step : Step) (raised : Raised) : Conditions where
  raises := fun s => if s = step then some raised else none
  torn := fun _ => false
  caddy := true
  enabled := false

theorem container_carries (env : Conditions) : Carries env container none := by
  refine ⟨⟨rfl, rfl, rfl⟩, rfl, ?_⟩
  unfold FragmentCarries
  rw [ite_self]
  rfl

/-- The verification refuses the new alias. -/
theorem change_traceless_iff_refused :
    Traceless (failing .verifying .recognition) container (some "shop") false none := by
  refine (change_traceless_iff (container_carries _)).mpr fun _ => ?_
  simp [served, container, failing, ServedHarmless, VerificationHarmless, writingStep]

/-- The verification ends in an `HTTPException`, which is no `OSError`. -/
theorem change_keeps_fragment : Carries (failing .verifying .other) container none ∧
    ¬Traceless (failing .verifying .other) container (some "shop") false none := by
  refine ⟨container_carries _, fun traceless => ?_⟩
  have kept : Carries (failing .verifying .other) { container with fragment := some (.rendered "shop" 8001) } none :=
    traceless
  exact nomatch kept.2.2

end LocalWebAccess.AliasChange
