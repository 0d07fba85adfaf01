import AgentSdk.Lib.Json
import AgentSdk.Lib.Outcome
import Mathlib.Logic.Function.Basic
import Mathlib.Tactic.Common

/-!
# Context usage of a session

A session remembers, for each measurement scope, the last usage sample, the
cumulative counters and whether a compaction has completed since that sample.
A sample is refused when it repeats the last one, when it shows fewer tokens
without a compaction, and when a counter falls.

The counters are merged by object spread, and a field that is present with the
value `undefined` replaces the counter it names.

## Main results

* `observeContextUsage_ok` — when a sample is accepted, and what it leaves.
* `context_usage_monotone` — occupancy and counters along every accepted
  sequence of outputs.
* `undefined_forgets_counter` — the sequence in which a counter falls.
-/

namespace AgentSdk.Runtime.Usage

open AgentSdk.Text AgentSdk.Outcome

/-! ## Samples -/

inductive MeasurementScope
  | session
  | materialization
  deriving DecidableEq

def MeasurementScope.name : MeasurementScope → String
  | .session => "session"
  | .materialization => "materialization"

inductive CumulativeUsageField
  | inputTokens
  | outputTokens
  | cachedReadTokens
  | cacheCreationTokens
  | reasoningTokens
  | modelCalls
  | turns
  deriving DecidableEq

def CumulativeUsageField.name : CumulativeUsageField → String
  | .inputTokens => "inputTokens"
  | .outputTokens => "outputTokens"
  | .cachedReadTokens => "cachedReadTokens"
  | .cacheCreationTokens => "cacheCreationTokens"
  | .reasoningTokens => "reasoningTokens"
  | .modelCalls => "modelCalls"
  | .turns => "turns"

/-- The fields in the order of the schema. -/
def CumulativeUsageField.all : List CumulativeUsageField :=
  [.inputTokens, .outputTokens, .cachedReadTokens, .cacheCreationTokens, .reasoningTokens,
    .modelCalls, .turns]

theorem CumulativeUsageField.mem_all (field : CumulativeUsageField) : field ∈ all := by
  cases field <;> decide

/-- An optional field of an object: the schema lets a key stand with `undefined`. -/
inductive Entry
  | absent
  | undefined
  | value (n : Nat)
  deriving DecidableEq

def Entry.value? : Entry → Option Nat
  | .value n => some n
  | _ => none

/-- The cumulative counters of a sample. -/
abbrev CumulativeUsage := CumulativeUsageField → Entry

inductive CompactionState
  | idle
  | approaching
  | in_progress
  deriving DecidableEq

def CompactionState.name : CompactionState → String
  | .idle => "idle"
  | .approaching => "approaching"
  | .in_progress => "in_progress"

structure CompactionPressure where
  state : CompactionState
  thresholdTokens : Option Nat

structure ContextUsage where
  measurementScope : MeasurementScope
  usedTokens : Nat
  maxTokens : Nat
  cumulative : Option CumulativeUsage
  compaction : Option CompactionPressure

/-- The data that `JSON.stringify` writes: a field with `undefined` is left out. -/
def CumulativeUsage.json (cumulative : CumulativeUsage) : Json :=
  .obj (CumulativeUsageField.all.filterMap fun field =>
    (cumulative field).value?.map fun n => (js field.name, Json.num n))

def CompactionPressure.json (pressure : CompactionPressure) : Json :=
  .obj ((js "state", .str (js pressure.state.name)) ::
    (pressure.thresholdTokens.map fun n => (js "thresholdTokens", Json.num n)).toList)

def ContextUsage.json (usage : ContextUsage) : Json :=
  .obj ([(js "measurementScope", .str (js usage.measurementScope.name)),
      (js "usedTokens", .num usage.usedTokens), (js "maxTokens", .num usage.maxTokens)] ++
    (usage.cumulative.map fun cumulative => (js "cumulative", cumulative.json)).toList ++
    (usage.compaction.map fun pressure => (js "compaction", pressure.json)).toList)

/-- The value that a sample reports for a counter. -/
def ContextUsage.counter (usage : ContextUsage) (field : CumulativeUsageField) : Option Nat :=
  usage.cumulative.bind fun cumulative => (cumulative field).value?

/-! ## The state of the sequence -/

structure ContextUsageSequenceState where
  latestByScope : MeasurementScope → Option ContextUsage := fun _ => none
  cumulativeByScope : MeasurementScope → Option CumulativeUsage := fun _ => none
  compactionReadyScopes : MeasurementScope → Bool := fun _ => false

/-- `{ ...previous, ...cumulative }` -/
def CumulativeUsage.spread (previous : Option CumulativeUsage) (cumulative : CumulativeUsage) :
    CumulativeUsage := fun field =>
  if cumulative field = .absent then (previous.map fun counters => counters field).getD .absent
  else cumulative field

namespace ContextUsageSequenceState

/-- The value that the next report of a counter is compared with. -/
def baseline (s : ContextUsageSequenceState) (scope : MeasurementScope)
    (field : CumulativeUsageField) : Option Nat :=
  (s.cumulativeByScope scope).bind fun cumulative => (cumulative field).value?

/-- The counter is smaller than the one it is compared with. -/
def regresses (s : ContextUsageSequenceState) (scope : MeasurementScope)
    (cumulative : CumulativeUsage) (field : CumulativeUsageField) : Prop :=
  ∃ value ∈ (cumulative field).value?, ∃ previous ∈ s.baseline scope field, value < previous

instance (s : ContextUsageSequenceState) (scope : MeasurementScope)
    (cumulative : CumulativeUsage) (field : CumulativeUsageField) :
    Decidable (s.regresses scope cumulative field) := by
  unfold regresses
  exact inferInstance

/-- The maps after an accepted sample. -/
def accept (s : ContextUsageSequenceState) (usage : ContextUsage) : ContextUsageSequenceState :=
  { latestByScope := Function.update s.latestByScope usage.measurementScope (some usage)
    cumulativeByScope :=
      match usage.cumulative with
      | none => s.cumulativeByScope
      | some cumulative => Function.update s.cumulativeByScope usage.measurementScope
          (some (cumulative.spread (s.cumulativeByScope usage.measurementScope)))
    compactionReadyScopes :=
      Function.update s.compactionReadyScopes usage.measurementScope false }

end ContextUsageSequenceState

open ContextUsageSequenceState

/-- The texts of `invalidTurnSequence`. -/
def observeContextUsage (s : ContextUsageSequenceState) (usage : ContextUsage) :
    Except String ContextUsageSequenceState := do
  failIf (∃ previous ∈ s.latestByScope usage.measurementScope,
      previous.json.stringify = usage.json.stringify)
    "Provider emitted a duplicate context usage sample."
  failIf ((∃ previous ∈ s.latestByScope usage.measurementScope,
      usage.usedTokens < previous.usedTokens) ∧
      s.compactionReadyScopes usage.measurementScope = false)
    "Provider context occupancy cannot decrease without completed compaction."
  failIf (∃ cumulative ∈ usage.cumulative, ∃ field ∈ CumulativeUsageField.all,
      s.regresses usage.measurementScope cumulative field)
    "Provider context cumulative counters cannot decrease."
  pure (s.accept usage)

def observeContextMaterializationBoundary (s : ContextUsageSequenceState) :
    ContextUsageSequenceState :=
  { latestByScope := Function.update s.latestByScope .materialization none
    cumulativeByScope := Function.update s.cumulativeByScope .materialization none
    compactionReadyScopes := Function.update s.compactionReadyScopes .materialization false }

/-! ## Outputs -/

inductive ProcessLifecycleType
  | started
  | ready
  | exited
  | timeout
  | interrupted
  | error
  deriving DecidableEq

inductive ItemEventType
  | started
  | updated
  | completed
  deriving DecidableEq

inductive ItemStatus
  | pending
  | in_progress
  | completed
  | failed
  | canceled
  | unknown
  deriving DecidableEq

/-- An output of the provider, as far as the usage of the context is concerned;
an item is told by whether its kind is `context_compaction`. -/
inductive ProviderOutput
  | lifecycle (type : ProcessLifecycleType)
  | item (type : ItemEventType) (contextCompaction : Bool) (status : ItemStatus)
  | contextUsage (usage : ContextUsage)
  | other

/-- The output starts a process, which ends a materialization. -/
def ProviderOutput.resets (scope : MeasurementScope) : ProviderOutput → Bool
  | .lifecycle type => decide (type = .started ∧ scope = .materialization)
  | _ => false

/-- The output completes a compaction. -/
def ProviderOutput.compacts : ProviderOutput → Bool
  | .item type contextCompaction status =>
    contextCompaction && decide (type = .completed ∧ status = .completed)
  | _ => false

/-- The output is a sample of the scope. -/
def ProviderOutput.samples (scope : MeasurementScope) : ProviderOutput → Bool
  | .contextUsage usage => decide (usage.measurementScope = scope)
  | _ => false

/-- What an output that passed the other checks does to the usage of the context. -/
def observeTurnOutput (s : ContextUsageSequenceState) (output : ProviderOutput) :
    Except String ContextUsageSequenceState :=
  match output with
  | .lifecycle type =>
    pure (if type = .started then observeContextMaterializationBoundary s else s)
  | .item type contextCompaction status =>
    pure (if contextCompaction = true ∧ type = .completed ∧ status = .completed then
      { s with compactionReadyScopes := fun _ => true } else s)
  | .contextUsage usage => observeContextUsage s usage
  | .other => pure s

/-- The state after outputs that were all accepted. -/
def observeOutputs (s : ContextUsageSequenceState) (outputs : List ProviderOutput) :
    Except String ContextUsageSequenceState := outputs.foldlM observeTurnOutput s

/-! ## One sample -/

variable {s t : ContextUsageSequenceState} {usage : ContextUsage} {scope : MeasurementScope}
  {field : CumulativeUsageField}

/-- What an accepted sample has passed. -/
structure Admitted (s : ContextUsageSequenceState) (usage : ContextUsage) : Prop where
  fresh : ∀ previous, s.latestByScope usage.measurementScope = some previous →
    previous.json ≠ usage.json
  occupancy : ∀ previous, s.latestByScope usage.measurementScope = some previous →
    usage.usedTokens < previous.usedTokens → s.compactionReadyScopes usage.measurementScope = true
  counters : ∀ field value previous, usage.counter field = some value →
    s.baseline usage.measurementScope field = some previous → previous ≤ value

theorem observeContextUsage_ok (h : observeContextUsage s usage = .ok t) :
    Admitted s usage ∧ t = s.accept usage := by
  unfold observeContextUsage at h
  have ⟨hfresh, h⟩ := failIf_bind_eq_ok.1 h
  have ⟨hoccupancy, h⟩ := failIf_bind_eq_ok.1 h
  have ⟨hcounters, h⟩ := failIf_bind_eq_ok.1 h
  refine ⟨⟨?fresh, ?occupancy, ?counters⟩, (Except.ok.inj h).symm⟩
  case fresh =>
    intro previous hprevious hsame
    exact hfresh ⟨previous, hprevious, by rw [hsame]⟩
  case occupancy =>
    intro previous hprevious hless
    by_contra hready
    exact hoccupancy ⟨⟨previous, hprevious, hless⟩, by simpa using hready⟩
  case counters =>
    intro field value previous hvalue hprevious
    by_contra hless
    have ⟨cumulative, hcumulative, hreported⟩ := Option.bind_eq_some_iff.1 hvalue
    exact hcounters ⟨cumulative, hcumulative, field, field.mem_all, value, hreported, previous,
      hprevious, by omega⟩

theorem latest_accept : (s.accept usage).latestByScope usage.measurementScope = some usage := by
  simp [accept]

theorem ready_accept :
    (s.accept usage).compactionReadyScopes usage.measurementScope = false := by
  simp [accept]

/-- A sample leaves the other scope alone. -/
theorem accept_other (h : usage.measurementScope ≠ scope) :
    (s.accept usage).latestByScope scope = s.latestByScope scope ∧
      (s.accept usage).compactionReadyScopes scope = s.compactionReadyScopes scope ∧
      ∀ field, (s.accept usage).baseline scope field = s.baseline scope field := by
  have hne : scope ≠ usage.measurementScope := fun heq => h heq.symm
  refine ⟨by simp [accept, hne], by simp [accept, hne], fun field => ?_⟩
  unfold baseline accept
  cases usage.cumulative with
  | none => rfl
  | some cumulative => simp [hne]

/-- The counter after a sample: the one it reports, none where it carries
`undefined`, and the earlier one where it says nothing. -/
theorem baseline_accept :
    (s.accept usage).baseline usage.measurementScope field =
      if ∃ cumulative ∈ usage.cumulative, cumulative field ≠ .absent then usage.counter field
      else s.baseline usage.measurementScope field := by
  unfold baseline ContextUsage.counter accept
  cases hcumulative : usage.cumulative with
  | none => simp
  | some cumulative =>
    by_cases habsent : cumulative field = .absent
    · have hspread : cumulative.spread (s.cumulativeByScope usage.measurementScope) field =
          ((s.cumulativeByScope usage.measurementScope).map fun counters =>
            counters field).getD .absent := if_pos habsent
      cases hprevious : s.cumulativeByScope usage.measurementScope with
      | none => simp [habsent, CumulativeUsage.spread, Entry.value?]
      | some counters => simp [habsent, CumulativeUsage.spread]
    · simp [habsent, CumulativeUsage.spread]

/-! ## One output -/

/-- A step without a sample of the scope and without a new process keeps the last
sample, and the compaction is its own. -/
theorem step_between {output : ProviderOutput} (h : observeTurnOutput s output = .ok t)
    (hsample : output.samples scope = false) (hreset : output.resets scope = false) :
    t.latestByScope scope = s.latestByScope scope ∧
      (∀ field, t.baseline scope field = s.baseline scope field) ∧
      t.compactionReadyScopes scope = (s.compactionReadyScopes scope || output.compacts) := by
  cases output with
  | lifecycle type =>
    have ht := Except.ok.inj h
    subst ht
    by_cases hstarted : type = .started
    · have hscope : scope ≠ .materialization := fun heq => by
        simp [ProviderOutput.resets, hstarted, heq] at hreset
      simp [hstarted, observeContextMaterializationBoundary, hscope, baseline,
        ProviderOutput.compacts]
    · simp [hstarted, ProviderOutput.compacts]
  | item type contextCompaction status =>
    have ht := Except.ok.inj h
    subst ht
    by_cases hdone : contextCompaction = true ∧ type = .completed ∧ status = .completed
    · simp [hdone, ProviderOutput.compacts, baseline]
    · rw [if_neg hdone]
      have hcompacts : ProviderOutput.compacts (.item type contextCompaction status) = false := by
        rw [Bool.eq_false_iff]
        intro hyes
        simp only [ProviderOutput.compacts, Bool.and_eq_true, decide_eq_true_eq] at hyes
        exact hdone hyes
      simp [hcompacts]
  | contextUsage usage =>
    have hother : usage.measurementScope ≠ scope := by
      simpa [ProviderOutput.samples] using hsample
    have ⟨_, ht⟩ := observeContextUsage_ok h
    have ⟨hlatest, hready, hbaseline⟩ := accept_other (s := s) hother
    rw [ht]
    exact ⟨hlatest, hbaseline, by simp [hready, ProviderOutput.compacts]⟩
  | other =>
    have ht := Except.ok.inj h
    subst ht
    simp [ProviderOutput.compacts]

/-- A sample carries as `undefined` no counter that was reported before. -/
def Carries (s : ContextUsageSequenceState) : ProviderOutput → Prop
  | .contextUsage usage => ∀ cumulative ∈ usage.cumulative, ∀ field,
      cumulative field = .undefined → s.baseline usage.measurementScope field = none
  | _ => True

/-- The counter only grows in a step that carries it. -/
theorem step_baseline {output : ProviderOutput} (h : observeTurnOutput s output = .ok t)
    (hreset : output.resets scope = false) (hcarries : Carries s output) {value : Nat}
    (hvalue : s.baseline scope field = some value) :
    ∃ later, t.baseline scope field = some later ∧ value ≤ later := by
  by_cases hsample : output.samples scope = true
  · cases output with
    | contextUsage usage =>
      have hscope : usage.measurementScope = scope := by
        simpa [ProviderOutput.samples] using hsample
      subst hscope
      have ⟨hadmitted, ht⟩ := observeContextUsage_ok h
      rw [ht, baseline_accept]
      by_cases hpresent : ∃ cumulative ∈ usage.cumulative, cumulative field ≠ .absent
      · rw [if_pos hpresent]
        have ⟨cumulative, hcumulative, hnonempty⟩ := hpresent
        cases hentry : cumulative field with
        | absent => exact absurd hentry hnonempty
        | undefined =>
          have hnone := hcarries cumulative hcumulative field hentry
          simp [hvalue] at hnone
        | value n =>
          have hcounter : usage.counter field = some n := by
            unfold ContextUsage.counter
            rw [hcumulative]
            simp [hentry, Entry.value?]
          exact ⟨n, hcounter, hadmitted.counters field n value hcounter hvalue⟩
      · rw [if_neg hpresent]
        exact ⟨value, hvalue, le_refl value⟩
    | lifecycle | item | other => cases hsample
  · have ⟨_, hsame, _⟩ := step_between h (by simpa using hsample) hreset
    exact ⟨value, (hsame field).trans hvalue, le_refl value⟩

/-! ## Runs -/

theorem observeOutputs_cons {output : ProviderOutput} {rest : List ProviderOutput}
    (h : observeOutputs s (output :: rest) = .ok t) :
    ∃ u, observeTurnOutput s output = .ok u ∧ observeOutputs u rest = .ok t := by
  unfold observeOutputs at h
  rw [List.foldlM_cons] at h
  exact bind_eq_ok.1 h

theorem observeOutputs_append {first rest : List ProviderOutput}
    (h : observeOutputs s (first ++ rest) = .ok t) :
    ∃ u, observeOutputs s first = .ok u ∧ observeOutputs u rest = .ok t := by
  unfold observeOutputs at h
  rw [List.foldlM_append] at h
  exact bind_eq_ok.1 h

/-- Between two samples of a scope the last sample stands, and the scope is ready
when a compaction has completed. -/
theorem run_between {outputs : List ProviderOutput} (h : observeOutputs s outputs = .ok t)
    (hsample : ∀ output ∈ outputs, output.samples scope = false)
    (hreset : ∀ output ∈ outputs, output.resets scope = false) :
    t.latestByScope scope = s.latestByScope scope ∧
      t.compactionReadyScopes scope =
        (s.compactionReadyScopes scope || outputs.any ProviderOutput.compacts) := by
  induction outputs generalizing s with
  | nil =>
    have ht := Except.ok.inj h
    subst ht
    simp
  | cons output rest ih =>
    have ⟨u, hstep, hrest⟩ := observeOutputs_cons h
    have ⟨hlatest, _, hready⟩ := step_between hstep (hsample output (by simp))
      (hreset output (by simp))
    have ⟨hlatest', hready'⟩ := ih hrest (fun o ho => hsample o (by simp [ho]))
      fun o ho => hreset o (by simp [ho])
    exact ⟨hlatest'.trans hlatest, by rw [hready', hready, List.any_cons, Bool.or_assoc]⟩

/-- Every output of a run carries the counters reported before it. -/
def RunCarries (s : ContextUsageSequenceState) (outputs : List ProviderOutput) : Prop :=
  ∀ before output after u, outputs = before ++ output :: after →
    observeOutputs s before = .ok u → Carries u output

theorem RunCarries.rest {output : ProviderOutput} {rest : List ProviderOutput}
    {u : ContextUsageSequenceState} (h : RunCarries s (output :: rest))
    (hstep : observeTurnOutput s output = .ok u) : RunCarries u rest := by
  intro before next after v hsplit hbefore
  refine h (output :: before) next after v (by simp [hsplit]) ?_
  unfold observeOutputs at hbefore ⊢
  rw [List.foldlM_cons, hstep]
  exact hbefore

theorem RunCarries.suffix {first rest : List ProviderOutput} {u : ContextUsageSequenceState}
    (h : RunCarries s (first ++ rest)) (hfirst : observeOutputs s first = .ok u) :
    RunCarries u rest := by
  intro before next after v hsplit hbefore
  refine h (first ++ before) next after v (by simp [hsplit]) ?_
  unfold observeOutputs at hfirst hbefore ⊢
  rw [List.foldlM_append, hfirst]
  exact hbefore

theorem run_baseline {outputs : List ProviderOutput} (h : observeOutputs s outputs = .ok t)
    (hreset : ∀ output ∈ outputs, output.resets scope = false) (hcarries : RunCarries s outputs)
    {value : Nat} (hvalue : s.baseline scope field = some value) :
    ∃ later, t.baseline scope field = some later ∧ value ≤ later := by
  induction outputs generalizing s value with
  | nil =>
    have ht := Except.ok.inj h
    subst ht
    exact ⟨value, hvalue, le_refl value⟩
  | cons output rest ih =>
    have ⟨u, hstep, hrest⟩ := observeOutputs_cons h
    have ⟨next, hnext, hle⟩ := step_baseline hstep (hreset output (by simp))
      (hcarries [] output rest s rfl rfl) hvalue
    have ⟨later, hlater, hle'⟩ := ih hrest (fun o ho => hreset o (by simp [ho]))
      (hcarries.rest hstep) hnext
    exact ⟨later, hlater, le_trans hle hle'⟩

/-! ## Decreases and compactions -/

/-- How often a sample of the scope shows fewer tokens than the last one. -/
def decreases (scope : MeasurementScope) : Option ContextUsage → List ProviderOutput → Nat
  | _, [] => 0
  | last, .contextUsage usage :: rest =>
    if usage.measurementScope = scope then
      (if ∃ previous ∈ last, usage.usedTokens < previous.usedTokens then 1 else 0) +
        decreases scope (some usage) rest
    else decreases scope last rest
  | last, output :: rest =>
    if output.resets scope = true then decreases scope none rest else decreases scope last rest

def compactions (outputs : List ProviderOutput) : Nat := outputs.countP ProviderOutput.compacts

/-- A decrease uses up the compaction that made its scope ready. -/
theorem decreases_le {outputs : List ProviderOutput} (h : observeOutputs s outputs = .ok t) :
    decreases scope (s.latestByScope scope) outputs ≤
      compactions outputs + (if s.compactionReadyScopes scope = true then 1 else 0) := by
  induction outputs generalizing s with
  | nil => simp [decreases]
  | cons output rest ih =>
    have ⟨u, hstep, hrest⟩ := observeOutputs_cons h
    have hlater := ih hrest
    have hcount : compactions (output :: rest) =
        compactions rest + if output.compacts = true then 1 else 0 := List.countP_cons
    by_cases hsample : output.samples scope = true
    · cases output with
      | contextUsage usage =>
        have hscope : usage.measurementScope = scope := by
          simpa [ProviderOutput.samples] using hsample
        subst hscope
        have ⟨hadmitted, hu⟩ := observeContextUsage_ok hstep
        rw [hu, latest_accept, ready_accept] at hlater
        rw [hcount]
        simp only [decreases, if_true, ProviderOutput.compacts, Bool.false_eq_true, if_false]
          at hlater ⊢
        by_cases hless : ∃ previous ∈ s.latestByScope usage.measurementScope,
            usage.usedTokens < previous.usedTokens
        · have ⟨previous, hprevious, hlt⟩ := hless
          have hready := hadmitted.occupancy previous hprevious hlt
          rw [if_pos hless, if_pos hready]
          omega
        · rw [if_neg hless]
          omega
      | lifecycle | item | other => cases hsample
    · have hnone : output.samples scope = false := by simpa using hsample
      by_cases hreset : output.resets scope = true
      · cases output with
        | lifecycle type =>
          have ⟨hstarted, hscope⟩ : type = .started ∧ scope = .materialization := by
            simpa [ProviderOutput.resets] using hreset
          subst hstarted hscope
          have hu := Except.ok.inj hstep
          subst hu
          simp only [if_true, observeContextMaterializationBoundary, Function.update_self,
            Bool.false_eq_true, if_false] at hlater
          rw [hcount]
          simp only [decreases, hreset, if_true, ProviderOutput.compacts, Bool.false_eq_true,
            if_false]
          omega
        | item | contextUsage | other => cases hreset
      · have hkeep : output.resets scope = false := by simpa using hreset
        have ⟨hlatest, _, hready⟩ := step_between hstep hnone hkeep
        have hsame : decreases scope (s.latestByScope scope) (output :: rest) =
            decreases scope (s.latestByScope scope) rest := by
          cases output with
          | contextUsage usage =>
            have hother : usage.measurementScope ≠ scope := by
              simpa [ProviderOutput.samples] using hnone
            simp only [decreases, hother, if_false]
          | lifecycle | other => simp only [decreases, hkeep, Bool.false_eq_true, if_false]
          | item type contextCompaction status =>
            simp only [decreases, hkeep, Bool.false_eq_true, if_false]
        rw [hlatest, hready] at hlater
        rw [hsame, hcount]
        cases hwas : s.compactionReadyScopes scope with
        | true =>
          rw [hwas] at hlater
          simp only [Bool.true_or, if_true] at hlater ⊢
          omega
        | false =>
          rw [hwas] at hlater
          simp only [Bool.false_or, Bool.false_eq_true, if_false] at hlater ⊢
          omega

/-! ## Every accepted sequence -/

/-- **Usage along every accepted sequence of outputs.**  A scope shows fewer tokens
at most as often as compactions complete.  Of two samples of a scope with no new
process between them: if they are consecutive, they differ and the second shows fewer
tokens only after a compaction; and no counter falls from the first to the second, as
long as no sample carries a counter that was reported before as `undefined`. -/
theorem context_usage_monotone (outputs : List ProviderOutput)
    (h : observeOutputs {} outputs = .ok s) :
    (∀ scope, decreases scope none outputs ≤ compactions outputs) ∧
    ∀ before a between b after,
      outputs = before ++ .contextUsage a :: (between ++ .contextUsage b :: after) →
      a.measurementScope = b.measurementScope →
      (∀ output ∈ between, output.resets a.measurementScope = false) →
      ((∀ output ∈ between, output.samples a.measurementScope = false) →
        a.json ≠ b.json ∧
          (b.usedTokens < a.usedTokens → ∃ output ∈ between, output.compacts = true)) ∧
      (RunCarries {} outputs → ∀ field value later, a.counter field = some value →
        b.counter field = some later → value ≤ later) := by
  refine ⟨fun scope => by simpa using @decreases_le _ _ scope _ h, ?_⟩
  intro before a between b after hsplit hscope hreset
  rw [hsplit] at h
  have ⟨u, hbefore, h⟩ := observeOutputs_append h
  have ⟨v, ha, h⟩ := observeOutputs_cons h
  have ⟨w, hbetween, h⟩ := observeOutputs_append h
  have ⟨_, hb, _⟩ := observeOutputs_cons h
  have ⟨_, hv⟩ := observeContextUsage_ok ha
  have ⟨hadmitted, _⟩ := observeContextUsage_ok hb
  constructor
  · intro hsample
    have ⟨hlatest, hready⟩ := run_between hbetween hsample hreset
    rw [hv, latest_accept] at hlatest
    rw [hv, ready_accept, Bool.false_or] at hready
    rw [hscope] at hlatest hready
    refine ⟨hadmitted.fresh a hlatest, fun hless => ?_⟩
    have hyes := hadmitted.occupancy a hlatest hless
    rw [hready] at hyes
    exact List.any_eq_true.1 hyes
  · intro hcarries field value later hvalue hlater
    rw [hsplit] at hcarries
    have hsuffix := (hcarries.suffix hbefore).rest ha
    have hstart : v.baseline a.measurementScope field = some value := by
      have ⟨cumulative, hcumulative, hreported⟩ := Option.bind_eq_some_iff.1 hvalue
      have hpresent : ∃ cumulative ∈ a.cumulative, cumulative field ≠ .absent :=
        ⟨cumulative, hcumulative, fun hno => by simp [hno, Entry.value?] at hreported⟩
      rw [hv, baseline_accept, if_pos hpresent, hvalue]
    have hprefix : RunCarries v between := by
      intro first output rest x hparts hfirst
      exact hsuffix first output (rest ++ .contextUsage b :: after) x (by simp [hparts]) hfirst
    have ⟨middle, hmiddle, hle⟩ := run_baseline hbetween hreset hprefix hstart
    rw [hscope] at hmiddle
    exact le_trans hle (hadmitted.counters field later middle hlater hmiddle)

/-- A sample of the session scope whose counters are one field's. -/
def sampleUsage (usedTokens : Nat) (entry : Entry) (turns : Entry) : ProviderOutput :=
  .contextUsage
    { measurementScope := .session, usedTokens, maxTokens := 100
      cumulative := some fun field => match field with
        | .inputTokens => entry
        | .turns => turns
        | _ => .absent
      compaction := none }

/-- Two samples with a compaction between them. -/
def compactedOutputs : List ProviderOutput :=
  [sampleUsage 80 (.value 100) .absent, .item .completed true .completed,
    sampleUsage 40 (.value 120) (.value 1)]

theorem compactedOutputs_accepted : (observeOutputs {} compactedOutputs).isOk = true := by
  decide

/-- The tokens fall once, after the compaction. -/
theorem context_usage_monotone_compacted :
    decreases .session none compactedOutputs ≤ compactions compactedOutputs ∧
      ((40 : Nat) < 80 → ∃ output ∈ [ProviderOutput.item .completed true .completed],
        output.compacts = true) := by
  cases h : observeOutputs {} compactedOutputs with
  | ok s =>
    have ⟨hcount, hpairs⟩ := context_usage_monotone compactedOutputs h
    have hpair := hpairs [] _ [.item .completed true .completed] _ [] rfl rfl
      (by simp [ProviderOutput.resets])
    exact ⟨hcount .session, (hpair.1 (by simp [ProviderOutput.samples])).2⟩
  | error message =>
    have haccepted := compactedOutputs_accepted
    rw [h] at haccepted
    cases haccepted

/-- The counter is reported, carried as `undefined`, and reported again. -/
def forgetfulOutputs : List ProviderOutput :=
  [sampleUsage 10 (.value 100) .absent, sampleUsage 20 .undefined (.value 1),
    sampleUsage 30 (.value 99) .absent]

/-- **`undefined` forgets a counter**: the sequence is accepted although the counter
falls from its first report to its last. -/
theorem undefined_forgets_counter :
    (observeOutputs {} forgetfulOutputs).isOk = true ∧
      ∃ a b : ContextUsage, forgetfulOutputs =
        [] ++ .contextUsage a :: ([sampleUsage 20 .undefined (.value 1)] ++ .contextUsage b :: []) ∧
      a.measurementScope = b.measurementScope ∧
      a.counter .inputTokens = some 100 ∧ b.counter .inputTokens = some 99 := by
  refine ⟨by decide, _, _, rfl, rfl, rfl, rfl⟩

end AgentSdk.Runtime.Usage
