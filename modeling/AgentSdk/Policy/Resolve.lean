import AgentSdk.Delegation.Tasks
import AgentSdk.Lib.JsonText
import AgentSdk.Lib.Verdict

/-!
# Which targets may be delegated to

A developer excludes targets by criteria, a user selects among the rest.  The
reasoning and the execution mode of a target may be unknown, so an exclusion applies,
does not apply or cannot be told to apply.  A target is allowed only when no exclusion
could apply to it, whatever its unknown facts turn out to be.

## Main results

* `matchDelegationExclusion_exact` — a match tells of every completion of the target.
* `policy_resolution` — the decisions and the targets that are allowed.
-/

namespace AgentSdk.Policy

open AgentSdk.Text AgentSdk.Delegation AgentSdk.Partial

/-! ## Catalogs and policies -/

/-- A reasoning level, as `ReasoningSchema` accepts it. -/
abbrev Reasoning := { s : JsString // isCanonical 128 s = true }

/-- There is more than one level. -/
instance reasoningNontrivial : Nontrivial Reasoning :=
  ⟨⟨⟨js "low", by decide⟩, ⟨js "max", by decide⟩, by decide⟩⟩

inductive ExecutionMode
  | standard | fast
  deriving DecidableEq

instance executionModeNontrivial : Nontrivial ExecutionMode := ⟨⟨.standard, .fast, by decide⟩⟩

structure TargetOption where
  key : JsString
  optionId : JsString
  deriving DecidableEq

inductive Availability
  | available
  | unavailable (code reason : JsString)
  deriving DecidableEq

/-- What a policy reads of a target.  The keys of its options are distinct. -/
structure DelegationTarget where
  reference : TargetReference
  providerKey : JsString
  modelId : JsString
  options : List TargetOption
  reasoning : Fact Reasoning
  executionMode : Fact ExecutionMode
  availability : Availability
  options_unique : (options.map TargetOption.key).Nodup
  deriving DecidableEq

structure DelegationTargetCatalog where
  catalogId : JsString
  revision : Nat
  targets : List DelegationTarget

/-- Criteria that a target has to meet all of to be excluded. -/
structure DelegationExclusion where
  exclusionId : JsString
  providerKey : Option JsString
  modelId : Option JsString
  targetId : Option JsString
  catalogId : Option JsString
  reasoning : Option Reasoning
  executionMode : Option ExecutionMode
  options : Option (List TargetOption)

structure DelegationDeveloperPolicy where
  enabled : Bool
  exclusions : List DelegationExclusion

structure DelegationTargetIdentity where
  catalogId : JsString
  targetId : JsString
  deriving DecidableEq

inductive DelegationUserSelection
  | allAvailable (includeFast : Bool) (unknownModeTargets : List DelegationTargetIdentity)
  | explicit (targets : List DelegationTargetIdentity)

/-- A parsed policy of a user: one that is enabled has a selection. -/
inductive DelegationUserPolicy
  | disabled
  | enabled (selection : DelegationUserSelection)

structure DelegationPolicySnapshot where
  revision : Nat
  developer : DelegationDeveloperPolicy
  user : DelegationUserPolicy

inductive DelegationPolicyOutcome
  | allowed | denied | unverifiable
  deriving DecidableEq

inductive ReasonCode
  | delegationDisabled | targetUnavailable | developerExcluded | developerUnverifiable
  | unknownModeUnselected | userUnselected
  deriving DecidableEq

structure Reason where
  code : ReasonCode
  exclusionId : Option JsString
  message : JsString
  deriving DecidableEq

structure DelegationTargetDecision where
  reference : TargetReference
  selected : Bool
  outcome : DelegationPolicyOutcome
  reasons : List Reason

structure ResolvedDelegationPolicy where
  enabled : Bool
  policyRevision : Nat
  catalogId : JsString
  catalogRevision : Nat
  decisions : List DelegationTargetDecision
  allowedTargets : List DelegationTarget
  missingSelections : List DelegationTargetIdentity

/-! ## Matching -/

/-- `options.get`, of the map of the options of a target: the last entry of a key. -/
def DelegationTarget.option? (target : DelegationTarget) (key : JsString) : Option JsString :=
  (target.options.reverse.find? fun option => option.key == key).map TargetOption.optionId

/-- A criterion that asks for another value than the target has. -/
def differs (criterion : Option JsString) (value : JsString) : Bool :=
  criterion.any fun wanted => wanted != value

inductive Match
  | excluded | unmatched | unverifiable
  deriving DecidableEq

/-- One criterion on a fact that may be unknown: `none` when it is not met, else
whether something unknown was asked for. -/
def semanticCriterion {α : Type} [DecidableEq α] (fact : Fact α) (criterion : Option α)
    (unknown : Bool) : Option Bool :=
  match criterion with
  | none => some unknown
  | some wanted =>
    match fact with
    | .unknown => some true
    | .certified value => if value ≠ wanted then none else some unknown

def matchDelegationExclusion (target : DelegationTarget) (exclusion : DelegationExclusion) :
    Match :=
  if (differs exclusion.providerKey target.providerKey ||
      differs exclusion.modelId target.modelId ||
      differs exclusion.catalogId target.reference.catalogId ||
      differs exclusion.targetId target.reference.targetId ||
      exclusion.options.any fun options => options.any fun option =>
        target.option? option.key != some option.optionId) = true then .unmatched
  else
    match (semanticCriterion target.reasoning exclusion.reasoning false).bind
        (semanticCriterion target.executionMode exclusion.executionMode) with
    | none => .unmatched
    | some true => .unverifiable
    | some false => .excluded

/-! ## Resolution -/

/-- `targetIdentityKey`: the JSON text of both identities. -/
def targetIdentityKey (identity : DelegationTargetIdentity) : JsString :=
  Json.stringify (.arr [.str identity.catalogId, .str identity.targetId])

def DelegationTarget.identity (target : DelegationTarget) : DelegationTargetIdentity :=
  ⟨target.reference.catalogId, target.reference.targetId⟩

def selectedTarget (target : DelegationTarget) : DelegationUserSelection → Bool
  | .explicit targets =>
    targets.any fun identity => targetIdentityKey identity == targetIdentityKey target.identity
  | .allAvailable includeFast unknownModeTargets =>
    match target.executionMode with
    | .unknown => unknownModeTargets.any fun identity =>
      targetIdentityKey identity == targetIdentityKey target.identity
    | .certified mode => mode == .standard || includeFast

/-- One exclusion is added to the reasons, at most ten of each kind. -/
def collectExclusion (target : DelegationTarget) (found : List Reason × List Reason)
    (exclusion : DelegationExclusion) : List Reason × List Reason :=
  match matchDelegationExclusion target exclusion with
  | .excluded =>
    if found.1.length < 10 then
      (found.1 ++ [⟨.developerExcluded, some exclusion.exclusionId,
        js "A developer exclusion denies this target."⟩], found.2)
    else found
  | .unverifiable =>
    if found.2.length < 10 then
      (found.1, found.2 ++ [⟨.developerUnverifiable, some exclusion.exclusionId,
        js "Unknown target semantics cannot prove compliance with a developer exclusion."⟩])
    else found
  | .unmatched => found

def DelegationUserPolicy.selection : DelegationUserPolicy → Option DelegationUserSelection
  | .disabled => none
  | .enabled selection => some selection

def DelegationPolicySnapshot.enabled (policy : DelegationPolicySnapshot) : Bool :=
  policy.developer.enabled && policy.user.selection.isSome

/-- Why a user has not selected a target. -/
def unselectedReason (target : DelegationTarget) : DelegationUserSelection → Reason
  | .allAvailable _ _ =>
    if target.executionMode = .unknown then
      ⟨.unknownModeUnselected, none,
        js "Unknown execution mode requires selection of this exact target."⟩
    else ⟨.userUnselected, none, js "The end user has not selected this target."⟩
  | .explicit _ => ⟨.userUnselected, none, js "The end user has not selected this target."⟩

def disabledReasons (policy : DelegationPolicySnapshot) : List Reason :=
  if policy.enabled then []
  else [⟨.delegationDisabled, none, js "Managed delegation is disabled by current policy."⟩]

def availabilityReasons (target : DelegationTarget) : List Reason :=
  match target.availability with
  | .available => []
  | .unavailable _ reason => [⟨.targetUnavailable, none, reason⟩]

def selectionReasons (policy : DelegationPolicySnapshot) (target : DelegationTarget) :
    List Reason :=
  match policy.user.selection with
  | none => []
  | some selection =>
    if selectedTarget target selection then [] else [unselectedReason target selection]

/-- All reasons against a target, in the order of their precedence. -/
def targetReasons (policy : DelegationPolicySnapshot) (target : DelegationTarget) : List Reason :=
  let found := policy.developer.exclusions.foldl (collectExclusion target) ([], [])
  disabledReasons policy ++ availabilityReasons target ++ found.1 ++ found.2 ++
    selectionReasons policy target

/-- The outcome is that of the first reason. -/
def outcomeOf : List Reason → DelegationPolicyOutcome
  | [] => .allowed
  | reason :: _ => if reason.code = .developerUnverifiable then .unverifiable else .denied

def decideTarget (policy : DelegationPolicySnapshot) (target : DelegationTarget) :
    DelegationTargetDecision :=
  { reference := target.reference
    selected := policy.user.selection.any (selectedTarget target)
    outcome := outcomeOf (targetReasons policy target)
    reasons := (targetReasons policy target).take 10 }

def resolveDelegationPolicy (catalog : DelegationTargetCatalog)
    (policy : DelegationPolicySnapshot) : ResolvedDelegationPolicy :=
  let requested := match policy.user.selection with
    | none => []
    | some (.explicit targets) => targets
    | some (.allAvailable _ unknownModeTargets) => unknownModeTargets
  { enabled := policy.enabled
    policyRevision := policy.revision
    catalogId := catalog.catalogId
    catalogRevision := catalog.revision
    decisions := catalog.targets.map (decideTarget policy)
    allowedTargets := catalog.targets.filter fun target =>
      (decideTarget policy target).outcome = .allowed
    missingSelections := requested.filter fun identity =>
      !(catalog.targets.any fun target =>
        targetIdentityKey target.identity == targetIdentityKey identity) }

/-! ## The reference -/

/-- What the unknown facts of a target may turn out to be. -/
def DelegationTarget.Completes (target : DelegationTarget) (facts : Reasoning × ExecutionMode) :
    Prop :=
  target.reasoning.Completes facts.1 ∧ target.executionMode.Completes facts.2

/-- The criteria on what is known of every target. -/
def DelegationExclusion.Concerns (exclusion : DelegationExclusion) (target : DelegationTarget) :
    Prop :=
  Asks exclusion.providerKey target.providerKey ∧ Asks exclusion.modelId target.modelId ∧
    Asks exclusion.catalogId target.reference.catalogId ∧
    Asks exclusion.targetId target.reference.targetId ∧
    ∀ options ∈ exclusion.options, ∀ option ∈ options, option ∈ target.options

/-- All criteria match the target with these facts. -/
def DelegationExclusion.Matches (exclusion : DelegationExclusion) (target : DelegationTarget)
    (facts : Reasoning × ExecutionMode) : Prop :=
  exclusion.Concerns target ∧ Asks exclusion.reasoning facts.1 ∧
    Asks exclusion.executionMode facts.2

/-- The user selects a target. -/
def DelegationUserSelection.Selects (target : DelegationTarget) : DelegationUserSelection → Prop
  | .explicit targets => target.identity ∈ targets
  | .allAvailable includeFast unknownModeTargets =>
    (target.executionMode = .unknown ∧ target.identity ∈ unknownModeTargets) ∨
      target.executionMode = .certified .standard ∨
      target.executionMode = .certified .fast ∧ includeFast = true

/-- Delegation to a target is possible, exclusions and the selection apart. -/
def DelegationPolicySnapshot.Offers (policy : DelegationPolicySnapshot)
    (target : DelegationTarget) : Prop :=
  policy.developer.enabled = true ∧ policy.user ≠ .disabled ∧ target.availability = .available

/-- The target is allowed: it is offered and selected, and no exclusion matches it,
whatever its unknown facts are. -/
def DelegationPolicySnapshot.Allows (policy : DelegationPolicySnapshot)
    (target : DelegationTarget) : Prop :=
  policy.Offers target ∧
    (∃ selection, policy.user = .enabled selection ∧ selection.Selects target) ∧
    ∀ exclusion ∈ policy.developer.exclusions, ∀ facts, target.Completes facts →
      ¬exclusion.Matches target facts

/-- The target is offered and no exclusion matches it for certain, but one may. -/
def DelegationPolicySnapshot.Doubts (policy : DelegationPolicySnapshot)
    (target : DelegationTarget) : Prop :=
  policy.Offers target ∧
    (∀ exclusion ∈ policy.developer.exclusions,
      ∃ facts, target.Completes facts ∧ ¬exclusion.Matches target facts) ∧
    ∃ exclusion ∈ policy.developer.exclusions,
      ∃ facts, target.Completes facts ∧ exclusion.Matches target facts

/-! ## A match is exact -/

variable {target : DelegationTarget} {exclusion : DelegationExclusion}

theorem differs_iff {criterion : Option JsString} {value : JsString} :
    differs criterion value = false ↔ Asks criterion value := by
  cases criterion with
  | none =>
    refine ⟨fun _ wanted hwanted => ?_, fun _ => rfl⟩
    cases hwanted
  | some wanted =>
    simp only [differs, Option.any_some, bne_eq_false_iff_eq]
    refine ⟨fun hsame other hother => ?_, fun hasks => (hasks wanted rfl).symm⟩
    cases hother
    exact hsame.symm

/-- The keys of the options are distinct, so the map has exactly the options. -/
theorem option?_iff {option : TargetOption} :
    target.option? option.key = some option.optionId ↔ option ∈ target.options := by
  unfold DelegationTarget.option?
  constructor
  · intro hget
    obtain ⟨found, hfound, hid⟩ := Option.map_eq_some_iff.1 hget
    have hkey : found.key = option.key := by simpa using List.find?_some hfound
    have hmem : found ∈ target.options := List.mem_reverse.1 (List.mem_of_find?_eq_some hfound)
    have hsame : found = option := by
      cases found
      cases option
      simp only at hkey hid
      rw [hkey, hid]
    exact hsame ▸ hmem
  · intro hmem
    cases hfind : target.options.reverse.find? fun other => other.key == option.key with
    | none =>
      have hnone := List.find?_eq_none.1 hfind option (List.mem_reverse.2 hmem)
      simp at hnone
    | some found =>
      have hkey : found.key = option.key := by simpa using List.find?_some hfind
      have hfound : found ∈ target.options :=
        List.mem_reverse.1 (List.mem_of_find?_eq_some hfind)
      have hsame : found = option :=
        List.inj_on_of_nodup_map target.options_unique hfound hmem hkey
      rw [hsame]
      rfl

theorem semanticCriterion_eq {α : Type} [DecidableEq α] (fact : Fact α) (criterion : Option α)
    (unknown : Bool) : semanticCriterion fact criterion unknown =
      match fact.verdict criterion with
      | .failed => none
      | .met => some unknown
      | .open_ => some true := by
  cases criterion with
  | none => rfl
  | some wanted =>
    cases fact with
    | unknown => rfl
    | certified value =>
      by_cases hsame : value = wanted
      · simp [semanticCriterion, Fact.verdict, hsame]
      · simp [semanticCriterion, Fact.verdict, hsame]

/-- The match that a verdict on the unknown facts leads to. -/
def matchOf : Verdict → Match
  | .met => .excluded
  | .failed => .unmatched
  | .open_ => .unverifiable

theorem concerns_iff : (differs exclusion.providerKey target.providerKey ||
    differs exclusion.modelId target.modelId ||
    differs exclusion.catalogId target.reference.catalogId ||
    differs exclusion.targetId target.reference.targetId ||
    exclusion.options.any fun options => options.any fun option =>
      target.option? option.key != some option.optionId) = false ↔ exclusion.Concerns target := by
  have hoptions : (exclusion.options.any fun options => options.any fun option =>
      target.option? option.key != some option.optionId) = false ↔
        ∀ options ∈ exclusion.options, ∀ option ∈ options, option ∈ target.options := by
    cases exclusion.options with
    | none => simp
    | some options =>
      simp only [Option.any_some, List.any_eq_false, bne_iff_ne, ne_eq, not_not, option?_iff,
        Option.mem_def, Option.some.injEq, forall_eq']
  simp only [Bool.or_eq_false_iff, differs_iff, hoptions, DelegationExclusion.Concerns, and_assoc]

theorem match_of_concerns (h : exclusion.Concerns target) :
    matchDelegationExclusion target exclusion =
      matchOf ((target.reasoning.verdict exclusion.reasoning).and
        (target.executionMode.verdict exclusion.executionMode)) := by
  unfold matchDelegationExclusion
  rw [if_neg (by rw [concerns_iff.2 h]; decide), semanticCriterion_eq]
  cases target.reasoning.verdict exclusion.reasoning with
  | failed => rfl
  | met | open_ =>
    rw [Option.bind_some, semanticCriterion_eq]
    cases target.executionMode.verdict exclusion.executionMode <;> rfl

theorem match_of_not_concerns (h : ¬exclusion.Concerns target) :
    matchDelegationExclusion target exclusion = .unmatched := by
  unfold matchDelegationExclusion
  rw [if_pos]
  by_contra hnot
  exact h (concerns_iff.1 (Bool.eq_false_iff.2 hnot))

/-- The verdict on the unknown facts is exact. -/
theorem semantic_exact (target : DelegationTarget) (exclusion : DelegationExclusion) :
    ((target.reasoning.verdict exclusion.reasoning).and
      (target.executionMode.verdict exclusion.executionMode)).Exact target.Completes
        fun facts => Asks exclusion.reasoning facts.1 ∧ Asks exclusion.executionMode facts.2 :=
  (Fact.verdict_exact _ _).and (Fact.verdict_exact _ _)

/-- **A match is exact**: an exclusion matches every completion of the target, or none
of them, or some and not others. -/
theorem matchDelegationExclusion_exact (target : DelegationTarget)
    (exclusion : DelegationExclusion) :
    (matchDelegationExclusion target exclusion = .excluded ↔
      ∀ facts, target.Completes facts → exclusion.Matches target facts) ∧
    (matchDelegationExclusion target exclusion = .unmatched ↔
      ∀ facts, target.Completes facts → ¬exclusion.Matches target facts) := by
  have hexact := semantic_exact target exclusion
  by_cases hconcerns : exclusion.Concerns target
  · rw [match_of_concerns hconcerns]
    constructor
    · refine Iff.trans ?_ (hexact.met_iff.trans (forall₂_congr fun facts _ => ?_))
      · cases (target.reasoning.verdict exclusion.reasoning).and
          (target.executionMode.verdict exclusion.executionMode) <;> simp [matchOf]
      · exact ⟨fun hasks => ⟨hconcerns, hasks⟩, fun hmatches => hmatches.2⟩
    · refine Iff.trans ?_ (hexact.failed_iff.trans (forall₂_congr fun facts _ => ?_))
      · cases (target.reasoning.verdict exclusion.reasoning).and
          (target.executionMode.verdict exclusion.executionMode) <;> simp [matchOf]
      · exact ⟨fun hfails hmatches => hfails hmatches.2, fun hfails hasks =>
          hfails ⟨hconcerns, hasks⟩⟩
  · rw [match_of_not_concerns hconcerns]
    have hnever : ∀ facts, ¬exclusion.Matches target facts := fun facts hmatches =>
      hconcerns hmatches.1
    refine ⟨⟨fun hexcluded => absurd hexcluded (by decide), fun hall => ?_⟩,
      fun _ facts _ => hnever facts, fun _ => rfl⟩
    obtain ⟨facts, hfacts⟩ := hexact.completable
    exact absurd (hall facts hfacts) (hnever facts)

/-- An exclusion that neither matches nor may match. -/
theorem unmatched_iff : matchDelegationExclusion target exclusion ≠ .excluded ∧
    matchDelegationExclusion target exclusion ≠ .unverifiable ↔
      ∀ facts, target.Completes facts → ¬exclusion.Matches target facts := by
  rw [← (matchDelegationExclusion_exact target exclusion).2]
  cases matchDelegationExclusion target exclusion <;> simp

/-- An exclusion that does not match for certain. -/
theorem not_excluded_iff : matchDelegationExclusion target exclusion ≠ .excluded ↔
    ∃ facts, target.Completes facts ∧ ¬exclusion.Matches target facts := by
  rw [ne_eq, (matchDelegationExclusion_exact target exclusion).1]
  simp only [not_forall, exists_prop]

/-- An exclusion that matches or may match. -/
theorem not_unmatched_iff : matchDelegationExclusion target exclusion ≠ .unmatched ↔
    ∃ facts, target.Completes facts ∧ exclusion.Matches target facts := by
  rw [ne_eq, (matchDelegationExclusion_exact target exclusion).2]
  simp only [not_forall, not_not, exists_prop]

/-! ## Reasons -/

theorem collectExclusion_excluded (found : List Reason × List Reason) :
    (collectExclusion target found exclusion).1 = [] ↔
      found.1 = [] ∧ matchDelegationExclusion target exclusion ≠ .excluded := by
  unfold collectExclusion
  cases matchDelegationExclusion target exclusion with
  | excluded =>
    by_cases hroom : found.1.length < 10
    · simp [hroom]
    · have hsome : found.1 ≠ [] := by
        intro hnil
        rw [hnil] at hroom
        exact hroom (by decide)
      simp [hroom, hsome]
  | unverifiable =>
    by_cases hroom : found.2.length < 10
    · simp [hroom]
    · simp [hroom]
  | unmatched => simp

theorem collectExclusion_unverifiable (found : List Reason × List Reason) :
    (collectExclusion target found exclusion).2 = [] ↔
      found.2 = [] ∧ matchDelegationExclusion target exclusion ≠ .unverifiable := by
  unfold collectExclusion
  cases matchDelegationExclusion target exclusion with
  | unverifiable =>
    by_cases hroom : found.2.length < 10
    · simp [hroom]
    · have hsome : found.2 ≠ [] := by
        intro hnil
        rw [hnil] at hroom
        exact hroom (by decide)
      simp [hroom, hsome]
  | excluded =>
    by_cases hroom : found.1.length < 10
    · simp [hroom]
    · simp [hroom]
  | unmatched => simp

/-- What the reasons of exclusions tell, beyond their caps. -/
structure Collected (target : DelegationTarget) (exclusions : List DelegationExclusion)
    (found : List Reason × List Reason) : Prop where
  excluded : found.1 = [] ↔ ∀ exclusion ∈ exclusions,
    matchDelegationExclusion target exclusion ≠ .excluded
  unverifiable : found.2 = [] ↔ ∀ exclusion ∈ exclusions,
    matchDelegationExclusion target exclusion ≠ .unverifiable
  excludedCodes : ∀ reason ∈ found.1, reason.code = .developerExcluded
  unverifiableCodes : ∀ reason ∈ found.2, reason.code = .developerUnverifiable
  few : found.1.length ≤ 10 ∧ found.2.length ≤ 10

theorem Collected.step {exclusions : List DelegationExclusion} {found : List Reason × List Reason}
    (h : Collected target exclusions found) (exclusion : DelegationExclusion) :
    Collected target (exclusions ++ [exclusion]) (collectExclusion target found exclusion) := by
  refine ⟨?_, ?_, ?_, ?_, ?_⟩
  · rw [collectExclusion_excluded, h.excluded, List.forall_mem_append, List.forall_mem_singleton]
  · rw [collectExclusion_unverifiable, h.unverifiable, List.forall_mem_append,
      List.forall_mem_singleton]
  · unfold collectExclusion
    have hcodes := h.excludedCodes
    split
    · split
      · exact List.forall_mem_append.2 ⟨hcodes, List.forall_mem_singleton.2 rfl⟩
      · exact hcodes
    · split
      · exact hcodes
      · exact hcodes
    · exact hcodes
  · unfold collectExclusion
    have hcodes := h.unverifiableCodes
    split
    · split
      · exact hcodes
      · exact hcodes
    · split
      · exact List.forall_mem_append.2 ⟨hcodes, List.forall_mem_singleton.2 rfl⟩
      · exact hcodes
    · exact hcodes
  · unfold collectExclusion
    have hfew := h.few
    split
    · split
      · rename_i hroom
        simp only [List.length_append, List.length_singleton]
        omega
      · exact hfew
    · split
      · rename_i hroom
        simp only [List.length_append, List.length_singleton]
        omega
      · exact hfew
    · exact hfew

theorem collected (target : DelegationTarget) (exclusions : List DelegationExclusion) :
    Collected target exclusions (exclusions.foldl (collectExclusion target) ([], [])) := by
  have hrun : ∀ (later earlier : List DelegationExclusion) (found : List Reason × List Reason),
      Collected target earlier found →
        Collected target (earlier ++ later) (later.foldl (collectExclusion target) found) := by
    intro later
    induction later with
    | nil =>
      intro earlier found h
      simpa using h
    | cons exclusion later ih =>
      intro earlier found h
      have hnext := ih (earlier ++ [exclusion]) _ (h.step exclusion)
      simpa using hnext
  exact hrun exclusions [] ([], []) ⟨by simp, by simp, by simp, by simp, by simp⟩

theorem outcomeOf_append {reasons rest : List Reason}
    (h : ∀ reason ∈ reasons, reason.code ≠ .developerUnverifiable) :
    outcomeOf (reasons ++ rest) = if reasons = [] then outcomeOf rest else .denied := by
  cases reasons with
  | nil => rfl
  | cons reason reasons => simp [outcomeOf, h reason (by simp)]

theorem outcomeOf_unverifiable {reasons rest : List Reason}
    (h : ∀ reason ∈ reasons, reason.code = .developerUnverifiable) :
    outcomeOf (reasons ++ rest) = if reasons = [] then outcomeOf rest else .unverifiable := by
  cases reasons with
  | nil => rfl
  | cons reason reasons => simp [outcomeOf, h reason (by simp)]

/-! ## Outcomes -/

theorem targetIdentityKey_inj {left right : DelegationTargetIdentity}
    (h : targetIdentityKey left = targetIdentityKey right) : left = right := by
  have hvalues := Json.stringify_inj h
  cases left
  cases right
  simp only [Json.arr.injEq, List.cons.injEq, Json.str.injEq, and_true] at hvalues
  rw [hvalues.1, hvalues.2]

theorem any_identity {identities : List DelegationTargetIdentity}
    {identity : DelegationTargetIdentity} :
    (identities.any fun other => targetIdentityKey other == targetIdentityKey identity) = true ↔
      identity ∈ identities := by
  simp only [List.any_eq_true, beq_iff_eq]
  refine ⟨fun hany => ?_, fun hmem => ⟨identity, hmem, rfl⟩⟩
  obtain ⟨other, hmem, hkey⟩ := hany
  exact targetIdentityKey_inj hkey ▸ hmem

theorem selectedTarget_iff (selection : DelegationUserSelection) :
    selectedTarget target selection = true ↔ selection.Selects target := by
  cases selection with
  | explicit targets => exact any_identity
  | allAvailable includeFast unknownModeTargets =>
    cases hmode : target.executionMode with
    | unknown =>
      simp only [selectedTarget, hmode, any_identity, DelegationUserSelection.Selects]
      simp
    | certified mode =>
      cases mode <;>
        simp [selectedTarget, hmode, DelegationUserSelection.Selects]

/-- The first reason decides. -/
theorem outcomeOf_parts {a b e u s : List Reason}
    (ha : ∀ reason ∈ a, reason.code ≠ .developerUnverifiable)
    (hb : ∀ reason ∈ b, reason.code ≠ .developerUnverifiable)
    (he : ∀ reason ∈ e, reason.code ≠ .developerUnverifiable)
    (hu : ∀ reason ∈ u, reason.code = .developerUnverifiable)
    (hs : ∀ reason ∈ s, reason.code ≠ .developerUnverifiable) :
    (outcomeOf (a ++ b ++ e ++ u ++ s) = .allowed ↔
      a = [] ∧ b = [] ∧ e = [] ∧ u = [] ∧ s = []) ∧
    (outcomeOf (a ++ b ++ e ++ u ++ s) = .unverifiable ↔
      a = [] ∧ b = [] ∧ e = [] ∧ u ≠ []) := by
  have hlast : outcomeOf (s ++ []) = if s = [] then outcomeOf [] else .denied :=
    outcomeOf_append hs
  rw [List.append_nil] at hlast
  simp only [List.append_assoc]
  rw [outcomeOf_append ha, outcomeOf_append hb, outcomeOf_append he, outcomeOf_unverifiable hu,
    hlast]
  by_cases h1 : a = []
  · by_cases h2 : b = []
    · by_cases h3 : e = []
      · by_cases h4 : u = []
        · by_cases h5 : s = []
          · simp [h1, h2, h3, h4, h5, outcomeOf]
          · simp [h1, h2, h3, h4, h5]
        · simp [h1, h2, h3, h4]
      · simp [h1, h2, h3]
    · simp [h1, h2]
  · simp [h1]

theorem offers_iff {policy : DelegationPolicySnapshot} :
    policy.Offers target ↔ policy.enabled = true ∧ target.availability = .available := by
  unfold DelegationPolicySnapshot.Offers DelegationPolicySnapshot.enabled
  cases policy.user with
  | disabled | enabled selection => simp [DelegationUserPolicy.selection]

theorem disabledReasons_nil {policy : DelegationPolicySnapshot} :
    disabledReasons policy = [] ↔ policy.enabled = true := by
  unfold disabledReasons
  cases policy.enabled <;> simp

theorem availabilityReasons_nil : availabilityReasons target = [] ↔
    target.availability = .available := by
  unfold availabilityReasons
  cases target.availability <;> simp

theorem selectionReasons_nil {policy : DelegationPolicySnapshot} (enabled : policy.enabled = true) :
    selectionReasons policy target = [] ↔
      ∃ selection, policy.user = .enabled selection ∧ selection.Selects target := by
  unfold DelegationPolicySnapshot.enabled at enabled
  unfold selectionReasons
  cases huser : policy.user with
  | disabled => simp [huser, DelegationUserPolicy.selection] at enabled
  | enabled selection =>
    simp only [DelegationUserPolicy.selection, DelegationUserPolicy.enabled.injEq,
      exists_eq_left', ← selectedTarget_iff]
    cases selectedTarget target selection <;> simp

/-- Reasons other than those of doubtful exclusions. -/
theorem codes_definite (policy : DelegationPolicySnapshot) (target : DelegationTarget) :
    (∀ reason ∈ disabledReasons policy, reason.code ≠ .developerUnverifiable) ∧
      (∀ reason ∈ availabilityReasons target, reason.code ≠ .developerUnverifiable) ∧
      ∀ reason ∈ selectionReasons policy target, reason.code ≠ .developerUnverifiable := by
  refine ⟨?_, ?_, ?_⟩
  · unfold disabledReasons
    cases policy.enabled <;> simp
  · unfold availabilityReasons
    cases target.availability <;> simp
  · unfold selectionReasons
    cases policy.user.selection with
    | none => simp
    | some selection =>
      intro reason hreason
      by_cases hselected : selectedTarget target selection = true
      · simp [hselected] at hreason
      · have hsame : reason = unselectedReason target selection := by
          simpa [hselected] using hreason
        rw [hsame]
        cases selection with
        | explicit targets => simp [unselectedReason]
        | allAvailable includeFast unknownModeTargets =>
          unfold unselectedReason
          by_cases hmode : target.executionMode = .unknown
          · simp [hmode]
          · simp [hmode]

/-- **The outcome of a target** is that of the reference. -/
theorem decideTarget_outcome (policy : DelegationPolicySnapshot) (target : DelegationTarget) :
    ((decideTarget policy target).outcome = .allowed ↔ policy.Allows target) ∧
      ((decideTarget policy target).outcome = .unverifiable ↔ policy.Doubts target) := by
  have hfound := collected target policy.developer.exclusions
  obtain ⟨hdisabled, havailability, hselection⟩ := codes_definite policy target
  have hexcluded : ∀ reason ∈
      (policy.developer.exclusions.foldl (collectExclusion target) ([], [])).1,
      reason.code ≠ .developerUnverifiable := by
    intro reason hreason
    rw [hfound.excludedCodes reason hreason]
    decide
  obtain ⟨hallowed, hdoubtful⟩ := outcomeOf_parts hdisabled havailability hexcluded
    hfound.unverifiableCodes hselection
  have hoffers : policy.Offers target ↔
      disabledReasons policy = [] ∧ availabilityReasons target = [] := by
    rw [offers_iff, disabledReasons_nil, availabilityReasons_nil]
  constructor
  · refine hallowed.trans ?_
    rw [← and_assoc, ← hoffers, DelegationPolicySnapshot.Allows]
    refine and_congr_right fun hoffered => ?_
    rw [selectionReasons_nil (offers_iff.1 hoffered).1, hfound.excluded, hfound.unverifiable,
      ← and_assoc, and_comm]
    refine and_congr_right fun _ => ?_
    refine ⟨fun hnone exclusion hmem => unmatched_iff.1
      ⟨hnone.1 exclusion hmem, hnone.2 exclusion hmem⟩, fun hnone => ⟨?_, ?_⟩⟩
    · exact fun exclusion hmem => (unmatched_iff.2 (hnone exclusion hmem)).1
    · exact fun exclusion hmem => (unmatched_iff.2 (hnone exclusion hmem)).2
  · refine hdoubtful.trans ?_
    rw [← and_assoc, ← hoffers, DelegationPolicySnapshot.Doubts]
    refine and_congr_right fun _ => ?_
    rw [hfound.excluded, ne_eq, hfound.unverifiable]
    simp only [← not_excluded_iff, ← not_unmatched_iff, not_forall, not_not, exists_prop]
    refine and_congr_right fun hnone => exists_congr fun exclusion => and_congr_right fun hmem => ?_
    have hexcludes := hnone exclusion hmem
    cases hkind : matchDelegationExclusion target exclusion with
    | excluded => exact absurd hkind hexcludes
    | unmatched | unverifiable => simp

/-- Adding exclusions allows no more. -/
theorem DelegationPolicySnapshot.Allows.mono {policy : DelegationPolicySnapshot}
    {exclusions : List DelegationExclusion}
    (h : ∀ exclusion ∈ policy.developer.exclusions, exclusion ∈ exclusions)
    (hallows : DelegationPolicySnapshot.Allows
      { policy with developer := { policy.developer with exclusions } } target) :
    policy.Allows target :=
  ⟨hallows.1, hallows.2.1, fun exclusion hmem => hallows.2.2 exclusion (h exclusion hmem)⟩

/-- **Policy resolution is the three-valued reference.**  A target is allowed when it is
offered and selected and no exclusion matches it whatever its unknown facts are; it is
unverifiable when it is offered and some exclusion may match it but none does for
certain; any other target is denied.  The kept reasons are few, and adding exclusions
does not add a target. -/
theorem policy_resolution (catalog : DelegationTargetCatalog) (policy : DelegationPolicySnapshot) :
    (∀ target, target ∈ (resolveDelegationPolicy catalog policy).allowedTargets ↔
      target ∈ catalog.targets ∧ policy.Allows target) ∧
    List.Forall₂ (fun (target : DelegationTarget) (decision : DelegationTargetDecision) =>
        decision.reference = target.reference ∧ decision.reasons.length ≤ 10 ∧
          (decision.outcome = .allowed ↔ policy.Allows target) ∧
          (decision.outcome = .unverifiable ↔ policy.Doubts target) ∧
          (decision.outcome = .denied ↔ ¬policy.Allows target ∧ ¬policy.Doubts target))
      catalog.targets (resolveDelegationPolicy catalog policy).decisions ∧
    ∀ exclusions : List DelegationExclusion,
      (∀ exclusion ∈ policy.developer.exclusions, exclusion ∈ exclusions) →
      (resolveDelegationPolicy catalog
        { policy with developer := { policy.developer with exclusions } }).allowedTargets.Sublist
          (resolveDelegationPolicy catalog policy).allowedTargets := by
  refine ⟨fun target => ?_, ?_, fun exclusions hmore => ?_⟩
  · simp only [resolveDelegationPolicy, List.mem_filter, decide_eq_true_eq,
      (decideTarget_outcome policy target).1]
  · simp only [resolveDelegationPolicy, List.forall₂_map_right_iff]
    refine List.forall₂_same.2 fun target _ => ⟨rfl, ?_, decideTarget_outcome policy target |>.1,
      decideTarget_outcome policy target |>.2, ?_⟩
    · exact List.length_take_le 10 _
    · rw [← (decideTarget_outcome policy target).1, ← (decideTarget_outcome policy target).2]
      cases (decideTarget policy target).outcome <;> simp
  · simp only [resolveDelegationPolicy]
    refine List.monotone_filter_right _ fun target hallowed => ?_
    simp only [decide_eq_true_eq, (decideTarget_outcome _ target).1] at hallowed ⊢
    exact DelegationPolicySnapshot.Allows.mono hmore hallowed

end AgentSdk.Policy
