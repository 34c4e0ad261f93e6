import LocalWebAccess.ContainerVerification

/-!
# What a verdict depends on

Each probe contributes to a verdict on its own: it blocks, warns or proves the interface. The verdict reads
only whether there is a probe of each kind, so the order and the guesses do not matter, and a better answer
of one probe can take nothing away but the note about a protected path.
-/
namespace LocalWebAccess.ContainerVerification
open PythonText

/-! ## What one probe contributes -/

variable {env : Environment} {contract : CapabilityContract} {respond respond' : String → Option Answer}
  {spec : ProbeSpec} {found : Findings} {probes probes' : List ProbeSpec}

/-- The probe got a status that it accepts. -/
def passes (respond : String → Option Answer) (spec : ProbeSpec) : Bool :=
  (probePath respond spec.path spec.expectedStatus spec.automatic).1

/-- The answer is a page or a redirection, which says nothing about an interface. -/
def hollow (respond : String → Option Answer) (spec : ProbeSpec) : Bool :=
  match respond spec.path with
  | none => false
  | some (code, contentType) => isHtmlContentType contentType || redirects (some code)

/-- The path is there and asks for a login. -/
def guarded (respond : String → Option Answer) (spec : ProbeSpec) : Bool :=
  match respond spec.path with
  | none => false
  | some (code, _) => code = 401 || code = 403

def blocks (respond : String → Option Answer) (spec : ProbeSpec) : Bool := spec.gate && !passes respond spec

def proves (respond : String → Option Answer) (spec : ProbeSpec) : Bool :=
  spec.apiEligible && passes respond spec && !hollow respond spec

def warns (respond : String → Option Answer) (spec : ProbeSpec) : Bool :=
  !spec.gate && if passes respond spec then spec.apiEligible && hollow respond spec
    else !guarded respond spec && spec.source ≠ "guessed"

theorem probeStep_mandatory : (probeStep respond found spec).mandatoryAllPassed =
    (found.mandatoryAllPassed && !blocks respond spec) := by
  unfold probeStep blocks passes
  rcases probePath respond spec.path spec.expectedStatus spec.automatic with ⟨passed, code, contentType⟩
  simp only [apply_ite Findings.mandatoryAllPassed]
  split_ifs <;> simp_all

theorem probeStep_business : (probeStep respond found spec).successfulBusinessProbe =
    (found.successfulBusinessProbe || proves respond spec) := by
  unfold probeStep proves passes hollow probePath
  cases respond spec.path with
  | none =>
    simp only [apply_ite Findings.successfulBusinessProbe]
    split_ifs <;> simp_all
  | some answer =>
    simp only [apply_ite Findings.successfulBusinessProbe]
    cases spec.apiEligible <;> split_ifs <;> simp_all

theorem probeStep_warnings : ((probeStep respond found spec).optionalWarnings = [] ↔
    found.optionalWarnings = [] ∧ warns respond spec = false) := by
  unfold probeStep warns passes hollow guarded probePath
  cases respond spec.path with
  | none =>
    simp only [apply_ite Findings.optionalWarnings]
    split_ifs <;> simp_all
  | some answer =>
    obtain ⟨code, contentType⟩ := answer
    simp only [apply_ite Findings.optionalWarnings]
    cases spec.apiEligible <;> split_ifs <;> simp_all <;> omega

/-! ## The loop -/

/-- The loop blocks, warns and proves as its probes do. -/
theorem foldl_probeStep (probes : List ProbeSpec) (found : Findings) :
    ((probes.foldl (probeStep respond) found).mandatoryAllPassed = true ↔
      found.mandatoryAllPassed = true ∧ ∀ spec ∈ probes, blocks respond spec = false) ∧
    ((probes.foldl (probeStep respond) found).successfulBusinessProbe = true ↔
      found.successfulBusinessProbe = true ∨ ∃ spec ∈ probes, proves respond spec = true) ∧
    ((probes.foldl (probeStep respond) found).optionalWarnings = [] ↔
      found.optionalWarnings = [] ∧ ∀ spec ∈ probes, warns respond spec = false) := by
  induction probes generalizing found with
  | nil => simp
  | cons spec probes ih =>
    obtain ⟨mandatory, business, warnings⟩ := ih (probeStep respond found spec)
    rw [List.foldl_cons, mandatory, business, warnings, probeStep_mandatory, probeStep_business, probeStep_warnings]
    simp [and_assoc, or_assoc]

theorem probed_mandatory : (probed contract respond).mandatoryAllPassed = true ↔
    ∀ spec ∈ contract.requiredProbes, blocks respond spec = false := by
  rw [probed, (foldl_probeStep _ _).1]
  simp

theorem probed_business : (probed contract respond).successfulBusinessProbe = true ↔
    ∃ spec ∈ contract.requiredProbes, proves respond spec = true := by
  rw [probed, (foldl_probeStep _ _).2.1]
  simp

theorem probed_warnings : (probed contract respond).optionalWarnings = [] ↔
    ∀ spec ∈ contract.requiredProbes, warns respond spec = false := by
  rw [probed, (foldl_probeStep _ _).2.2]
  simp

/-! ## The verdict -/

/-- The interface is promised and there is no probe that could show it, or something is missing. -/
def Lacking (env : Environment) (contract : CapabilityContract) (respond : String → Option Answer) : Prop :=
  (contract.servesApi = true ∧ contract.hasApiEvidenceSource = false) ∨
    missingCapabilities env contract (probed contract respond) ≠ []

theorem warned_eq_nil_iff {p : Prop} [Decidable p] (warning : String) :
    (if p then [warning] else []) = [] ↔ ¬p := by
  by_cases h : p
  · rw [if_pos h]
    exact ⟨fun same => absurd same (List.cons_ne_nil _ _), fun other => absurd h other⟩
  · rw [if_neg h]
    exact ⟨fun _ => h, fun _ => rfl⟩

theorem closingWarnings_eq_nil :
    closingWarnings env contract (probed contract respond) = [] ↔ ¬Lacking env contract respond := by
  unfold closingWarnings Lacking
  rw [List.append_eq_nil_iff, warned_eq_nil_iff, ← ite_not, warned_eq_nil_iff, not_or, Bool.and_eq_true,
    Bool.not_eq_true']

theorem status_eq_failed_iff : (evaluateContainerVerification env contract respond).overallStatus = .failed ↔
    env.live = false ∨ ∃ spec ∈ contract.requiredProbes, blocks respond spec = true := by
  have blocked : (probed contract respond).mandatoryAllPassed = false ↔
      ∃ spec ∈ contract.requiredProbes, blocks respond spec = true := by
    rw [← Bool.not_eq_true, probed_mandatory]
    simp
  rw [← blocked]
  unfold evaluateContainerVerification
  cases env.live with
  | false => simp
  | true =>
    dsimp only
    split_ifs <;> simp_all

theorem status_eq_passed_iff : (evaluateContainerVerification env contract respond).overallStatus = .passed ↔
    env.live = true ∧ (∀ spec ∈ contract.requiredProbes, blocks respond spec = false) ∧
      (∀ spec ∈ contract.requiredProbes, warns respond spec = false) ∧ ¬Lacking env contract respond := by
  rw [← probed_mandatory, ← probed_warnings, ← closingWarnings_eq_nil]
  unfold evaluateContainerVerification
  cases env.live with
  | false => simp
  | true =>
    dsimp only
    split_ifs <;> simp_all

theorem mem_observed_iff (capability : Capability) :
    capability.value ∈ (evaluateContainerVerification env contract respond).observedCapabilities ↔
      env.live = true ∧ observes env contract (probed contract respond) capability = true := by
  have injective : ∀ other : Capability, other.value = capability.value → other = capability := by
    intro other
    cases other <;> cases capability <;> decide
  have listed : capability ∈ capabilities := by
    cases capability <;> decide
  unfold evaluateContainerVerification
  cases env.live with
  | false => simp
  | true =>
    rw [if_pos rfl]
    dsimp only
    rw [List.mem_map]
    constructor
    · rintro ⟨other, seen, same⟩
      obtain rfl := injective other same
      exact ⟨rfl, (List.mem_filter.mp seen).2⟩
    · rintro ⟨-, seen⟩
      exact ⟨capability, List.mem_filter.mpr ⟨listed, seen⟩, rfl⟩

/-! ## Order and guesses -/

/-- A guess neither blocks nor warns nor proves anything. -/
theorem neutral_of_guessed (guess : spec.source = "guessed") :
    blocks respond spec = false ∧ proves respond spec = false ∧ warns respond spec = false := by
  have ineligible : spec.apiEligible = false := by simp [ProbeSpec.apiEligible, guess]
  have open' : spec.gate = false := by simp [ProbeSpec.gate, guess]
  refine ⟨by simp [blocks, open'], by simp [proves, ineligible], ?_⟩
  simp [warns, ineligible, guess]

/-- The probes that are no guesses. -/
def evidence (probes : List ProbeSpec) : List ProbeSpec := probes.filter fun spec => spec.source ≠ "guessed"

theorem mem_evidence : spec ∈ evidence probes ↔ spec ∈ probes ∧ spec.source ≠ "guessed" := by
  simp [evidence]

/-- What holds of no guess holds in two lists with the same evidence alike. -/
theorem exists_evidence {f f' : ProbeSpec → Bool} (same : (evidence probes).Perm (evidence probes'))
    (guesses : ∀ spec, spec.source = "guessed" → f spec = false ∧ f' spec = false)
    (agree : ∀ spec ∈ evidence probes, f' spec = f spec) :
    (∃ spec ∈ probes, f spec = true) ↔ ∃ spec ∈ probes', f' spec = true := by
  constructor
  · rintro ⟨spec, inside, holds⟩
    have known : spec ∈ evidence probes := by
      refine mem_evidence.mpr ⟨inside, fun guess => ?_⟩
      rw [(guesses spec guess).1] at holds
      cases holds
    exact ⟨spec, (mem_evidence.mp (same.subset known)).1, (agree spec known).trans holds⟩
  · rintro ⟨spec, inside, holds⟩
    have known' : spec ∈ evidence probes' := by
      refine mem_evidence.mpr ⟨inside, fun guess => ?_⟩
      rw [(guesses spec guess).2] at holds
      cases holds
    have known := same.symm.subset known'
    exact ⟨spec, (mem_evidence.mp known).1, (agree spec known).symm.trans holds⟩

theorem contributions_congr (same : respond' spec.path = respond spec.path) :
    blocks respond' spec = blocks respond spec ∧ proves respond' spec = proves respond spec ∧
      warns respond' spec = warns respond spec := by
  have pass : passes respond' spec = passes respond spec := by simp only [passes, probePath, same]
  have empty : hollow respond' spec = hollow respond spec := by simp only [hollow, same]
  have login : guarded respond' spec = guarded respond spec := by simp only [guarded, same]
  simp only [blocks, proves, warns, pass, empty, login, and_self]

theorem observed_eq : (evaluateContainerVerification env contract respond).observedCapabilities =
    if env.live then (capabilities.filter (observes env contract (probed contract respond))).map Capability.value
    else [] := by
  unfold evaluateContainerVerification
  split_ifs <;> rfl

theorem OverallStatus.eq_of_iff {a b : OverallStatus} (failed : a = .failed ↔ b = .failed)
    (passed : a = .passed ↔ b = .passed) : a = b := by
  cases a <;> cases b <;> simp_all

/-- The findings matter for what is observed and what is missing by the interface alone. -/
theorem observes_congr {found found' : Findings} (env : Environment) (contract : CapabilityContract)
    (probes' : List ProbeSpec)
    (same : found'.successfulBusinessProbe = found.successfulBusinessProbe) :
    observes env { contract with requiredProbes := probes' } found' = observes env contract found := by
  funext capability
  cases capability
  · exact same
  all_goals rfl

/-- Two verifications with the same evidence come to the same verdict. -/
theorem verdict_of_evidence (same : (evidence contract.requiredProbes).Perm (evidence probes'))
    (agree : ∀ spec ∈ evidence contract.requiredProbes, respond' spec.path = respond spec.path) :
    (evaluateContainerVerification env { contract with requiredProbes := probes' } respond').overallStatus =
        (evaluateContainerVerification env contract respond).overallStatus ∧
      (evaluateContainerVerification env { contract with requiredProbes := probes' } respond').observedCapabilities =
        (evaluateContainerVerification env contract respond).observedCapabilities := by
  have blocked := exists_evidence same
    (fun spec guess => ⟨(neutral_of_guessed guess).1, (neutral_of_guessed guess).1⟩)
    (fun spec known => (contributions_congr (agree spec known)).1)
  have proved := exists_evidence same
    (fun spec guess => ⟨(neutral_of_guessed guess).2.1, (neutral_of_guessed guess).2.1⟩)
    (fun spec known => (contributions_congr (agree spec known)).2.1)
  have warned := exists_evidence same
    (fun spec guess => ⟨(neutral_of_guessed guess).2.2, (neutral_of_guessed guess).2.2⟩)
    (fun spec known => (contributions_congr (agree spec known)).2.2)
  have source : { contract with requiredProbes := probes' }.hasApiEvidenceSource = contract.hasApiEvidenceSource := by
    have ineligible : ∀ spec : ProbeSpec, spec.source = "guessed" → spec.apiEligible = false := by
      intro spec guess
      simp [ProbeSpec.apiEligible, guess]
    rw [Bool.eq_iff_iff, CapabilityContract.hasApiEvidenceSource, CapabilityContract.hasApiEvidenceSource,
      List.any_eq_true, List.any_eq_true]
    exact (exists_evidence same (fun spec guess => ⟨ineligible spec guess, ineligible spec guess⟩) fun _ _ => rfl).symm
  have business : (probed { contract with requiredProbes := probes' } respond').successfulBusinessProbe =
      (probed contract respond).successfulBusinessProbe := by
    rw [Bool.eq_iff_iff, probed_business, probed_business]
    exact proved.symm
  have seen := observes_congr env contract probes' business
  have missing : missingCapabilities env { contract with requiredProbes := probes' }
      (probed { contract with requiredProbes := probes' } respond') =
      missingCapabilities env contract (probed contract respond) := by
    unfold missingCapabilities
    rw [seen, source]
    rfl
  have lacking : Lacking env { contract with requiredProbes := probes' } respond' ↔ Lacking env contract respond := by
    unfold Lacking
    rw [missing, source]
  have unblocked := not_congr blocked
  have unwarned := not_congr warned
  simp only [not_exists, not_and, Bool.not_eq_true] at unblocked unwarned
  refine ⟨OverallStatus.eq_of_iff ?_ ?_, ?_⟩
  · rw [status_eq_failed_iff, status_eq_failed_iff]
    exact or_congr_right blocked.symm
  · rw [status_eq_passed_iff, status_eq_passed_iff, lacking, unblocked, unwarned]
  · rw [observed_eq, observed_eq, seen]

/-! ## Better answers -/

/-- The place of a status from the best to the worst. -/
def OverallStatus.rank : OverallStatus → ℕ
  | .passed => 0
  | .degraded => 1
  | .failed => 2

/-- What holds of a probe after one answer has changed held before, or it holds of the one that was answered. -/
theorem exists_of_other {f f' : ProbeSpec → Bool} {before after : List ProbeSpec}
    (list : probes = before ++ spec :: after) (others : ∀ other ∈ before ++ after, f' other = f other) (found : ∃ other ∈ probes, f' other = true) :
    f' spec = true ∨ ∃ other ∈ probes, f other = true := by
  obtain ⟨other, inside, holds⟩ := found
  by_cases mine : other = spec
  · exact .inl (mine ▸ holds)
  · have apart : other ∈ before ++ after := by
      rw [list, List.mem_append, List.mem_cons] at inside
      rw [List.mem_append]
      exact inside.imp_right fun later => later.resolve_left mine
    exact .inr ⟨other, inside, (others other apart).symm.trans holds⟩

/-- A probe that proves more leaves less to be missed. -/
theorem lacking_of_lacking (gains : (probed contract respond).successfulBusinessProbe = true →
    (probed contract respond').successfulBusinessProbe = true) (lacks : Lacking env contract respond') :
    Lacking env contract respond := by
  refine lacks.imp_right fun missing => ?_
  obtain ⟨capability, among⟩ := List.exists_mem_of_ne_nil _ missing
  obtain ⟨listed, wanted⟩ := List.mem_filter.mp among
  rw [Bool.and_eq_true] at wanted
  refine List.ne_nil_of_mem (List.mem_filter.mpr ⟨listed, ?_⟩)
  rw [Bool.and_eq_true]
  refine ⟨wanted.1, ?_⟩
  cases capability with
  | api =>
    have unseen := wanted.2
    simp only [observes, Bool.not_eq_true'] at unseen ⊢
    cases seen : (probed contract respond).successfulBusinessProbe with
    | false => rfl
    | true => exact absurd (gains seen) (by simp [unseen])
  | database => exact wanted.2
  | migrations => exact wanted.2
  | ui => exact wanted.2

theorem OverallStatus.rank_lt_iff {a b : OverallStatus} (fine : b ≠ .failed) :
    a.rank < b.rank ↔ a = .passed ∧ b ≠ .passed := by
  cases a <;> cases b <;> simp_all [OverallStatus.rank]

/-- An accepted answer to one more probe makes a verdict worse only where it replaces the request for a login by a page
or a redirection. -/
theorem worse_iff {before after : List ProbeSpec} (list : contract.requiredProbes = before ++ spec :: after)
    (others : ∀ other ∈ before ++ after, respond' other.path = respond other.path)
    (failing : passes respond spec = false) (passing : passes respond' spec = true) :
    (evaluateContainerVerification env contract respond).overallStatus.rank <
        (evaluateContainerVerification env contract respond').overallStatus.rank ↔
      (evaluateContainerVerification env contract respond).overallStatus = .passed ∧ spec.apiEligible = true ∧
        spec.gate = false ∧ guarded respond spec = true ∧ hollow respond' spec = true := by
  have among : spec ∈ contract.requiredProbes := by simp [list]
  have unproved : proves respond spec = false := by simp [proves, failing]
  have unblocked : blocks respond' spec = false := by simp [blocks, passing]
  have same := fun other apart => contributions_congr (others other apart)
  have gains : (probed contract respond).successfulBusinessProbe = true →
      (probed contract respond').successfulBusinessProbe = true := by
    rw [probed_business, probed_business]
    intro proved
    refine (exists_of_other list (fun other apart => (same other apart).2.1.symm) proved).resolve_left ?_
    rw [unproved]
    exact Bool.false_ne_true
  have blocked : (∃ other ∈ contract.requiredProbes, blocks respond' other = true) →
      ∃ other ∈ contract.requiredProbes, blocks respond other = true := by
    intro blocking
    refine (exists_of_other list (fun other apart => (same other apart).1) blocking).resolve_left ?_
    rw [unblocked]
    exact Bool.false_ne_true
  by_cases fine : (evaluateContainerVerification env contract respond').overallStatus = .failed
  · -- what fails now failed before
    have failed : (evaluateContainerVerification env contract respond).overallStatus = .failed :=
      status_eq_failed_iff.mpr ((status_eq_failed_iff.mp fine).imp_right blocked)
    rw [fine, failed]
    simp
  rw [OverallStatus.rank_lt_iff fine]
  refine and_congr_right fun passed => ?_
  obtain ⟨live, open', quiet, full⟩ := status_eq_passed_iff.mp passed
  have warned : (evaluateContainerVerification env contract respond').overallStatus ≠ .passed ↔
      warns respond' spec = true := by
    constructor
    · intro worse
      by_contra silent
      refine worse (status_eq_passed_iff.mpr ⟨live, ?_, ?_, fun lacks => full (lacking_of_lacking gains lacks)⟩)
      · intro other inside
        by_contra blocking
        obtain ⟨other', inside', blocking'⟩ := blocked ⟨other, inside, by simpa using blocking⟩
        rw [open' other' inside'] at blocking'
        cases blocking'
      · intro other inside
        by_contra warning
        obtain ⟨other', inside', warning'⟩ := (exists_of_other list (fun other apart => (same other apart).2.2)
          ⟨other, inside, by simpa using warning⟩).resolve_left silent
        rw [quiet other' inside'] at warning'
        cases warning'
    · intro warning now
      have silent := (status_eq_passed_iff.mp now).2.2.1 spec among
      rw [warning] at silent
      cases silent
  have before := quiet spec among
  rw [warned]
  simp only [warns, failing, passing, if_true, Bool.and_eq_true, Bool.not_eq_true'] at before ⊢
  constructor
  · rintro ⟨ungated, eligible, empty⟩
    have known : spec.source ≠ "guessed" := by
      intro guess
      rw [ProbeSpec.apiEligible, guess] at eligible
      exact absurd eligible (by decide)
    refine ⟨eligible, ungated, ?_, empty⟩
    simpa [ungated, known] using before
  · rintro ⟨eligible, ungated, -, empty⟩
    exact ⟨ungated, eligible, empty⟩

/-! ## The laws of a verdict -/

theorem blocks_iff : blocks respond spec = true ↔ spec.source = "declared" ∧ spec.isMandatory = true ∧
    ∀ contentType, respond spec.path ≠ some (spec.expectedStatus, contentType) := by
  unfold blocks ProbeSpec.gate
  rw [Bool.and_eq_true, Bool.and_eq_true, decide_eq_true_iff, and_comm (a := spec.isMandatory = true), and_assoc]
  refine and_congr_right fun declared => and_congr_right fun _ => ?_
  have strict : spec.automatic = false := by simp [ProbeSpec.automatic, declared]
  unfold passes probePath
  cases respond spec.path with
  | none => simp
  | some answer =>
    obtain ⟨code, contentType⟩ := answer
    simp [strict, statusMatches]

theorem api_observed_iff :
    "api" ∈ (evaluateContainerVerification env contract respond).observedCapabilities ↔ env.live = true ∧
      ∃ spec ∈ contract.requiredProbes, (spec.source = "declared" ∨ spec.source = "discovered") ∧
        passes respond spec = true ∧ hollow respond spec = false := by
  refine (mem_observed_iff .api).trans (and_congr_right fun _ => ?_)
  refine probed_business.trans ?_
  simp [proves, ProbeSpec.apiEligible, and_assoc]

/-- What a verdict depends on. -/
structure VerdictLaws (env : Environment) (contract : CapabilityContract) (respond : String → Option Answer) :
    Prop where
  /-- A deployment fails without an answer at all, or where a mandatory probe of the user is not answered with exactly
  its status. -/
  failed : (evaluateContainerVerification env contract respond).overallStatus = .failed ↔ env.live = false ∨
    ∃ spec ∈ contract.requiredProbes, spec.source = "declared" ∧ spec.isMandatory = true ∧
      ∀ contentType, respond spec.path ≠ some (spec.expectedStatus, contentType)
  api : "api" ∈ (evaluateContainerVerification env contract respond).observedCapabilities ↔ env.live = true ∧
    ∃ spec ∈ contract.requiredProbes, (spec.source = "declared" ∨ spec.source = "discovered") ∧
      passes respond spec = true ∧ hollow respond spec = false
  /-- The order of the probes, the guesses and their answers do not matter. -/
  evidence : ∀ probes' respond', (evidence contract.requiredProbes).Perm (evidence probes') →
    (∀ spec ∈ evidence contract.requiredProbes, respond' spec.path = respond spec.path) →
    (evaluateContainerVerification env { contract with requiredProbes := probes' } respond').overallStatus =
        (evaluateContainerVerification env contract respond).overallStatus ∧
      (evaluateContainerVerification env { contract with requiredProbes := probes' } respond').observedCapabilities =
        (evaluateContainerVerification env contract respond).observedCapabilities
  /-- An accepted answer to one more probe is no worse, but for a page or a redirection in place of the request for a
  login, which takes a good verdict away. -/
  better : ∀ respond' before spec after, contract.requiredProbes = before ++ spec :: after →
    (∀ other ∈ before ++ after, respond' other.path = respond other.path) →
    passes respond spec = false → passes respond' spec = true →
    ((evaluateContainerVerification env contract respond).overallStatus.rank <
        (evaluateContainerVerification env contract respond').overallStatus.rank ↔
      (evaluateContainerVerification env contract respond).overallStatus = .passed ∧ spec.apiEligible = true ∧
        spec.gate = false ∧ guarded respond spec = true ∧ hollow respond' spec = true)

/-- A verdict depends on the evidence of its probes alone. -/
theorem verdict_laws (env : Environment) (contract : CapabilityContract) (respond : String → Option Answer) :
    VerdictLaws env contract respond where
  failed := by
    rw [status_eq_failed_iff]
    simp only [blocks_iff]
  api := api_observed_iff
  evidence _ _ := verdict_of_evidence
  better _ _ _ _ := worse_iff

/-! ## A page in place of a login -/

/-- A container that answers, and nothing else is asked for. -/
def alive : Environment where
  hostPort := 8000
  live := true
  probeFailure message := message
  databaseVerified := false
  migrationsSucceeded := false

/-- An interface that was found in the sources. -/
def discoveredItems : ProbeSpec := ⟨"/api/items", 200, false, "discovered", "high"⟩

def siteWithItems : CapabilityContract := ⟨true, false, false, false, [discoveredItems]⟩

/-- The path asked for a login, and then a page is served there. -/
theorem page_degrades : ¬∀ (env : Environment) (contract : CapabilityContract)
    (respond respond' : String → Option Answer) (before after : List ProbeSpec) (spec : ProbeSpec), contract.requiredProbes = before ++ spec :: after →
    (∀ other ∈ before ++ after, respond' other.path = respond other.path) →
    passes respond spec = false → passes respond' spec = true →
    (evaluateContainerVerification env contract respond').overallStatus.rank ≤
      (evaluateContainerVerification env contract respond).overallStatus.rank := by
  intro all
  have worse := all alive siteWithItems (fun _ => some (401, none)) (fun _ => some (200, some "text/html")) [] []
    discoveredItems rfl (by simp) (by decide +kernel) (by decide +kernel)
  exact absurd worse (by decide +kernel)

end LocalWebAccess.ContainerVerification
