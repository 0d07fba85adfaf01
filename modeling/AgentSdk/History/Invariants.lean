import AgentSdk.History.Operations

/-!
# Invariants of the owner

The owner's set of entered operations holds exactly the admitted operations
whose work has not been joined, a mutation is alone in it, and a mutation that
was dispatched and returned without a receipt in time has closed the source to
mutations.

## Main results

* `HistoryOwner.Sound.step` — every step keeps the invariant.
* `HistoryOwner.later_step` — no step forgets an operation, a promise or the
  fence.
-/

namespace AgentSdk.History

open AgentSdk.Text

/-- An operation that occupies the source. -/
def Operation.live (op : Operation) : Bool := op.admitted && !op.released

/-- What the promise of the caller says about an operation. -/
structure Operation.Delivered (op : Operation) (uncertain : Bool) (v : Settled AgentHistoryError) :
    Prop where
  refused : op.admitted = false → op.kind.isMutation = true →
    ∀ r, v = .resolved (.result r) → r.isNotApplied = true
  outcome : op.admitted = true → ∃ settled, op.race = some settled ∧
    (op.strayed = false → v = op.outcome settled ∧
      ∀ error, settled = .rejected error → op.doubts = true → uncertain = true)

namespace HistoryOwner

/-- The state of the promises of `close`. -/
structure Ending (s : HistoryOwner) : Prop where
  running : ∀ d : Nat, s.disposals[d]? = some .running → s.nativeDisposal = some d
  shared : ∀ d, s.nativeDisposal = some d → d < s.disposals.length
  joining : ∀ entries, s.state = .closing (.joining entries) →
    (∃ d : Nat, s.disposals[d]? = some .succeeded) ∧ ∀ i ∈ s.entered, i ∈ entries
  joined : s.state = .closing .cleaned ∨ s.state = .closed →
    (∃ d : Nat, s.disposals[d]? = some .succeeded) ∧ s.entered = []

/-- The invariant of the owner. -/
structure Sound (c : HistoryConfig) (s : HistoryOwner) : Prop where
  operation : ∀ (i : Nat) (op : Operation), s.operations[i]? = some op → op.Sound
  delivered : ∀ (i : Nat) (op : Operation) (v : Settled AgentHistoryError),
    s.operations[i]? = some op → op.returned = some v → op.Delivered s.mutationUncertain v
  listed : ∀ i : Nat, i ∈ s.entered ↔ ∃ op, s.operations[i]? = some op ∧ op.live = true
  distinct : s.entered.Nodup
  within : s.entered.length ≤ c.concurrentReads
  alone : ∀ (i : Nat) (op : Operation), i ∈ s.entered → s.operations[i]? = some op →
    op.kind.isMutation = true → s.mutationEntered = true ∧ s.entered = [i]
  ending : s.Ending

/-- What a later state keeps. -/
structure Later (s s' : HistoryOwner) : Prop where
  operation : ∀ (i : Nat) (op : Operation), s.operations[i]? = some op →
    ∃ op', s'.operations[i]? = some op' ∧ op.Later op'
  uncertain : s.mutationUncertain = true → s'.mutationUncertain = true
  fenced : s.mutationUncertain = true → ∀ (i : Nat) (op' : Operation), s.operations.length ≤ i →
    s'.operations[i]? = some op' → op'.kind.isMutation = true → op'.admitted = false

theorem Later.refl (s : HistoryOwner) : s.Later s where
  operation i op hop := ⟨op, hop, .refl op⟩
  uncertain := id
  fenced _ i op' hi hop' := by
    have hlt := (List.getElem?_eq_some_iff.mp hop').1
    omega

theorem Later.trans {s s' s'' : HistoryOwner} (h : s.Later s') (h' : s'.Later s'') :
    s.Later s'' where
  operation i op hop := by
    have ⟨op', hop', hfirst⟩ := h.operation i op hop
    have ⟨op'', hop'', hsecond⟩ := h'.operation i op' hop'
    exact ⟨op'', hop'', hfirst.trans hsecond⟩
  uncertain hs := h'.uncertain (h.uncertain hs)
  fenced hs i op'' hi hop'' hkind := by
    by_cases hmid : i < s'.operations.length
    · have hop' := List.getElem?_eq_getElem hmid
      have ⟨op3, hop3, hlater⟩ := h'.operation i _ hop'
      have heq : op3 = op'' := Option.some.inj (hop3.symm.trans hop'')
      subst heq
      have hrefused := h.fenced hs i _ hi hop' (hlater.kind ▸ hkind)
      exact hlater.admitted.trans hrefused
    · exact h'.fenced (h.uncertain hs) i op'' (Nat.le_of_not_lt hmid) hop'' hkind

variable {c : HistoryConfig} {s s' : HistoryOwner}

/-! ## Continuations of operations -/

variable {op op' : Operation} {i : Nat} {f : Operation → Operation}

/-- A delivered outcome survives every continuation of its operation. -/
theorem delivered_continues {uncertain uncertain' : Bool} {v : Settled AgentHistoryError}
    (h : op.Delivered uncertain v) (hlater : op.Later op')
    (huncertain : uncertain = true → uncertain' = true) : op'.Delivered uncertain' v where
  refused hadmitted hkind := h.refused (hlater.admitted ▸ hadmitted) (hlater.kind ▸ hkind)
  outcome hadmitted := by
    have ⟨settled, hrace, hout⟩ := h.outcome (hlater.admitted ▸ hadmitted)
    have hsome : op.race.isSome = true := by simp [hrace]
    refine ⟨settled, (hlater.race hsome).trans hrace, fun hstrayed => ?_⟩
    have ⟨htimely, hdispatched⟩ := hlater.steady hstrayed hsome
    have ⟨heq, hdoubts⟩ := hout (hlater.strayed hstrayed)
    refine ⟨?_, fun error herror hdoubt => huncertain (hdoubts error herror ?_)⟩
    · rw [heq]
      cases settled with
      | resolved value => rfl
      | rejected error => simp [Operation.outcome, htimely, hdispatched, hlater.kind]
    · simpa [Operation.doubts, htimely, hdispatched, hlater.kind] using hdoubt

/-- Steps that only continue operations and may close the source to mutations. -/
structure Continues (s s' : HistoryOwner) : Prop where
  length : s'.operations.length = s.operations.length
  operation : ∀ (i : Nat) (op : Operation), s.operations[i]? = some op →
    ∃ op', s'.operations[i]? = some op' ∧ op.Continues op'
  uncertain : s.mutationUncertain = true → s'.mutationUncertain = true
  entered : s'.entered = s.entered
  mutationEntered : s'.mutationEntered = s.mutationEntered

theorem Continues.origin (h : s.Continues s') (hop' : s'.operations[i]? = some op') :
    ∃ op, s.operations[i]? = some op ∧ op.Continues op' := by
  have hlt := (List.getElem?_eq_some_iff.mp hop').1
  rw [h.length] at hlt
  have hop := List.getElem?_eq_getElem hlt
  have ⟨op3, hop3, hcont⟩ := h.operation i _ hop
  have heq : op3 = op' := Option.some.inj (hop3.symm.trans hop')
  exact ⟨_, hop, heq ▸ hcont⟩

theorem Continues.later (h : s.Continues s') : s.Later s' where
  operation i op hop := by
    have ⟨op', hop', hcont⟩ := h.operation i op hop
    exact ⟨op', hop', hcont.later⟩
  uncertain := h.uncertain
  fenced _ i op' hi hop' := by
    have hlt := (List.getElem?_eq_some_iff.mp hop').1
    have := h.length
    omega

theorem live_eq (h : op.Continues op') : op'.live = op.live := by
  simp [Operation.live, h.later.admitted, h.released]

theorem Sound.continues (h : s.Sound c) (hcont : s.Continues s') (hending : s'.Ending) :
    s'.Sound c where
  operation i op' hop' := by
    have ⟨op, _, hop⟩ := hcont.origin hop'
    exact hop.sound
  delivered i op' v hop' hv := by
    have ⟨op, hop, hstep⟩ := hcont.origin hop'
    have hdone := h.delivered i op v hop (hstep.returned ▸ hv)
    exact delivered_continues hdone hstep.later hcont.uncertain
  listed i := by
    rw [hcont.entered, h.listed]
    constructor
    · rintro ⟨op, hop, hlive⟩
      have ⟨op', hop', hstep⟩ := hcont.operation i op hop
      exact ⟨op', hop', live_eq hstep ▸ hlive⟩
    · rintro ⟨op', hop', hlive⟩
      have ⟨op, hop, hstep⟩ := hcont.origin hop'
      exact ⟨op, hop, live_eq hstep ▸ hlive⟩
  distinct := hcont.entered ▸ h.distinct
  within := hcont.entered ▸ h.within
  alone i op' hi hop' hkind := by
    have ⟨op, hop, hstep⟩ := hcont.origin hop'
    have halone := h.alone i op (hcont.entered ▸ hi) hop (hstep.later.kind ▸ hkind)
    exact ⟨hcont.mutationEntered.trans halone.1, hcont.entered.trans halone.2⟩
  ending := hending

theorem Ending.same (h : s.Ending) (hstate : s'.state = s.state)
    (hdisposals : s'.disposals = s.disposals) (hnative : s'.nativeDisposal = s.nativeDisposal)
    (hentered : ∀ i ∈ s'.entered, i ∈ s.entered) : s'.Ending where
  running d hd := hnative.trans (h.running d (hdisposals ▸ hd))
  shared d hd := hdisposals ▸ h.shared d (hnative ▸ hd)
  joining entries he := by
    have ⟨hdone, hin⟩ := h.joining entries (hstate ▸ he)
    exact ⟨hdisposals ▸ hdone, fun i hi => hin i (hentered i hi)⟩
  joined hend := by
    have ⟨hdone, hnil⟩ := h.joined (hstate ▸ hend)
    refine ⟨hdisposals ▸ hdone, List.eq_nil_iff_forall_not_mem.mpr fun i hi => ?_⟩
    have := hentered i hi
    simp [hnil] at this

theorem continues_onOperation (h : s.Sound c) (condition : Bool)
    (hf : ∀ op, s.operations[i]? = some op → op.Continues (f op)) :
    s.Continues ((s.fenceIf condition).onOperation i f) where
  length := by simp [onOperation, fenceIf]
  operation j op hop := by
    by_cases hij : i = j
    · subst hij
      exact ⟨f op, by simp [onOperation, fenceIf, hop], hf op hop⟩
    · exact ⟨op, by simp [onOperation, fenceIf, hop, hij], .refl (h.operation j op hop)⟩
  uncertain hs := by simp [onOperation, fenceIf, hs]
  entered := rfl
  mutationEntered := rfl

theorem fenceIf_false : s.fenceIf false = s := by simp [fenceIf]

/-- A continuation of one operation. -/
theorem Sound.onOperation (h : s.Sound c) (condition : Bool)
    (hf : ∀ op, s.operations[i]? = some op → op.Continues (f op)) :
    ((s.fenceIf condition).onOperation i f).Sound c ∧
      s.Later ((s.fenceIf condition).onOperation i f) := by
  have hcont := continues_onOperation h condition hf
  have hending : ((s.fenceIf condition).onOperation i f).Ending :=
    h.ending.same rfl rfl rfl fun _ hi => hi
  exact ⟨h.continues hcont hending, hcont.later⟩

theorem Sound.continueOperation (h : s.Sound c)
    (hf : ∀ op, s.operations[i]? = some op → op.Continues (f op)) :
    (s.onOperation i f).Sound c ∧ s.Later (s.onOperation i f) := by
  have hdone := h.onOperation false hf
  rwa [fenceIf_false] at hdone

/-- The value of a mutation is the receipt that was recorded. -/
theorem mutationAnswer_value {input : AgentHistoryMutationInput}
    {receipt value : Option AgentHistoryMutationResult} {v : Value}
    (h : mutationAnswer c input receipt value = .resolved v) :
    ∃ r, v = .result r ∧ ∀ recorded, receipt = some recorded → r = recorded := by
  unfold mutationAnswer at h
  cases haccepts : accepts c input value with
  | none => simp [haccepts] at h
  | some result =>
    simp only [haccepts] at h
    cases receipt with
    | none =>
      simp only [Settled.resolved.injEq] at h
      exact ⟨result, h.symm, by simp⟩
    | some recorded =>
      simp only at h
      split at h
      · cases h
      · simp only [Settled.resolved.injEq] at h
        exact ⟨recorded, h.symm, fun _ heq => Option.some.inj heq⟩

theorem Sound.recordReceipt (h : s.Sound c) (i : Nat) (value : Option AgentHistoryMutationResult) :
    (s.recordReceipt c i value).Sound c ∧ s.Later (s.recordReceipt c i value) := by
  unfold HistoryOwner.recordReceipt
  cases hop : s.operations[i]? with
  | none => exact ⟨h, .refl s⟩
  | some op =>
    cases hkind : op.kind with
    | read => simpa [hkind] using ⟨h, Later.refl s⟩
    | mutation input =>
      simp only [hkind]
      by_cases hstarted : op.started = true
      · rw [if_pos hstarted]
        cases accepts c input value with
        | none => exact ⟨h, .refl s⟩
        | some result =>
          refine h.onOperation result.isUnknown fun op' hop' => ?_
          have heq : op = op' := Option.some.inj (hop.symm.trans hop')
          subst heq
          exact (h.operation i op hop).recordResult hstarted
            (by simp [hkind, OperationKind.isMutation]) result
      · rw [if_neg hstarted]
        exact ⟨h, .refl s⟩

theorem Sound.resolve (h : s.Sound c) (i : Nat) (value : Option AgentHistoryMutationResult) :
    (s.resolve c i value).Sound c ∧ s.Later (s.resolve c i value) := by
  unfold HistoryOwner.resolve
  cases hop : s.operations[i]? with
  | none => exact ⟨h, .refl s⟩
  | some op =>
    cases hkind : op.kind with
    | read =>
      simp only [hkind]
      refine h.continueOperation fun op' hop' => ?_
      have heq : op = op' := Option.some.inj (hop.symm.trans hop')
      subst heq
      exact (h.operation i op hop).answers fun v _ hmutation => by
        simp [hkind, OperationKind.isMutation] at hmutation
    | mutation input =>
      simp only [hkind]
      refine h.onOperation _ fun op' hop' => ?_
      have heq : op = op' := Option.some.inj (hop.symm.trans hop')
      subst heq
      exact (h.operation i op hop).answers fun v hv _ => mutationAnswer_value hv

theorem Sound.reject (h : s.Sound c) (i : Nat) (error : Thrown) :
    (s.reject i error).Sound c ∧ s.Later (s.reject i error) :=
  h.continueOperation fun op hop => (h.operation i op hop).answers fun v hv => by cases hv

/-! ## Admission -/

theorem later_append (op : Operation) (hop : op.kind.isMutation = true →
    s.mutationUncertain = true → op.admitted = false)
    (hoperations : s'.operations = s.operations ++ [op])
    (huncertain : s'.mutationUncertain = s.mutationUncertain) : s.Later s' where
  operation i old hold := by
    have hlt := (List.getElem?_eq_some_iff.mp hold).1
    exact ⟨old, by rw [hoperations, List.getElem?_append_left hlt, hold], .refl old⟩
  uncertain hs := huncertain.trans hs
  fenced hs i op' hi hop' hkind := by
    rw [hoperations, List.getElem?_append_right hi] at hop'
    have hmem := List.mem_of_getElem? hop'
    rw [List.mem_singleton] at hmem
    subst hmem
    exact hop hkind hs

/-- The operations after one more was requested. -/
theorem append_cases (h : (s.operations ++ [op])[i]? = some op') :
    s.operations[i]? = some op' ∨ i = s.operations.length ∧ op' = op := by
  by_cases hlt : i < s.operations.length
  · rw [List.getElem?_append_left hlt] at h
    exact .inl h
  · have hge := Nat.le_of_not_lt hlt
    rw [List.getElem?_append_right hge] at h
    have hmem := List.mem_of_getElem? h
    have hbound := (List.getElem?_eq_some_iff.mp h).1
    simp only [List.mem_singleton] at hmem
    simp only [List.length_singleton] at hbound
    exact .inr ⟨by omega, hmem⟩

theorem Sound.mem_lt (h : s.Sound c) (hi : i ∈ s.entered) : i < s.operations.length := by
  have ⟨op, hop, _⟩ := (h.listed i).mp hi
  exact (List.getElem?_eq_some_iff.mp hop).1

theorem Sound.refuse (h : s.Sound c) (kind : OperationKind) (v : Settled AgentHistoryError)
    (hv : kind.isMutation = true → ∀ r, v = .resolved (.result r) → r.isNotApplied = true) :
    (s.refuse kind v).Sound c ∧ s.Later (s.refuse kind v) := by
  refine ⟨?_, later_append _ (fun _ _ => rfl) rfl rfl⟩
  constructor
  case operation =>
    intro i op hop
    rcases append_cases hop with hold | ⟨_, hnew⟩
    · exact h.operation i op hold
    · subst hnew
      constructor <;> simp
  case delivered =>
    intro i op w hop hw
    rcases append_cases hop with hold | ⟨_, hnew⟩
    · exact h.delivered i op w hold hw
    · subst hnew
      have heq : v = w := Option.some.inj hw
      subst heq
      exact ⟨fun _ hkind => hv hkind, fun hadmitted => by cases hadmitted⟩
  case listed =>
    intro i
    refine (h.listed i).trans ⟨fun ⟨op, hop, hlive⟩ => ⟨op, ?_, hlive⟩, fun ⟨op, hop, hlive⟩ => ?_⟩
    · have hlt := (List.getElem?_eq_some_iff.mp hop).1
      exact (List.getElem?_append_left hlt).trans hop
    · rcases append_cases hop with hold | ⟨_, hnew⟩
      · exact ⟨op, hold, hlive⟩
      · subst hnew
        simp [Operation.live] at hlive
  case distinct => exact h.distinct
  case within => exact h.within
  case alone =>
    intro i op hi hop hkind
    rcases append_cases hop with hold | ⟨heq, _⟩
    · exact h.alone i op hi hold hkind
    · have := h.mem_lt hi
      omega
  case ending => exact h.ending.same rfl rfl rfl fun _ hi => hi

/-- An admitted operation finds the owner open, below its limit and, for a
mutation, empty and without doubt. -/
theorem refusal_eq_none {mutation : Bool} {options : OperationOptions}
    (h : s.refusal c mutation options = none) :
    s.state = .open ∧ s.mutationEntered = false ∧ s.entered.length < c.concurrentReads ∧
      (mutation = true → s.entered = [] ∧ s.mutationUncertain = false) := by
  unfold HistoryOwner.refusal at h
  by_cases hopen : s.state = .open
  · by_cases hsignal : options.signal = some true
    · simp [hopen, hsignal] at h
    · by_cases hdeadline : validDeadline c options = false
      · simp [hopen, hsignal, hdeadline] at h
      · by_cases hbusy : s.mutationEntered = true ∨ c.concurrentReads ≤ s.entered.length ∨
            mutation = true ∧ 0 < s.entered.length
        · simp [hopen, hsignal, hdeadline, hbusy] at h
        · by_cases hfence : mutation = true ∧ s.mutationUncertain = true
          · rw [if_neg (not_not.mpr hopen), if_neg hsignal, if_neg hdeadline, if_neg hbusy,
              if_pos hfence] at h
            cases h
          · push Not at hbusy hfence
            refine ⟨hopen, by simpa using hbusy.1, by omega, fun hmutation => ⟨?_, ?_⟩⟩
            · have hlength := hbusy.2.2 hmutation
              exact List.length_eq_zero_iff.mp (by omega)
            · simpa using hfence hmutation
  · simp [hopen] at h

theorem Sound.enter (h : s.Sound c) (kind : OperationKind) (signal : Bool)
    (hopen : s.state = .open) (hfree : s.mutationEntered = false)
    (hroom : s.entered.length < c.concurrentReads)
    (hmutation : kind.isMutation = true → s.entered = [] ∧ s.mutationUncertain = false) :
    (s.enter kind signal).Sound c ∧ s.Later (s.enter kind signal) := by
  refine ⟨?_, later_append _ (fun hkind hs => by simp [(hmutation hkind).2] at hs) rfl rfl⟩
  have hfresh : s.operations.length ∉ s.entered := fun hi => Nat.lt_irrefl _ (h.mem_lt hi)
  constructor
  case operation =>
    intro i op hop
    rcases append_cases hop with hold | ⟨_, hnew⟩
    · exact h.operation i op hold
    · subst hnew
      constructor <;> simp
  case delivered =>
    intro i op w hop hw
    rcases append_cases hop with hold | ⟨_, hnew⟩
    · exact h.delivered i op w hold hw
    · subst hnew
      cases hw
  case listed =>
    intro i
    simp only [HistoryOwner.enter, List.mem_append, List.mem_singleton, h.listed]
    constructor
    · rintro (⟨op, hop, hlive⟩ | hi)
      · have hlt := (List.getElem?_eq_some_iff.mp hop).1
        exact ⟨op, (List.getElem?_append_left hlt).trans hop, hlive⟩
      · subst hi
        exact ⟨_, List.getElem?_concat_length, rfl⟩
    · rintro ⟨op, hop, hlive⟩
      rcases append_cases hop with hold | ⟨hi, _⟩
      · exact .inl ⟨op, hold, hlive⟩
      · exact .inr hi
  case distinct =>
    exact List.nodup_append.mpr ⟨h.distinct, List.nodup_singleton _, fun a ha b hb => by
      rw [List.mem_singleton] at hb
      rintro rfl
      exact hfresh (hb ▸ ha)⟩
  case within =>
    simp only [HistoryOwner.enter, List.length_append, List.length_singleton]
    omega
  case alone =>
    intro i op hi hop hkind
    simp only [HistoryOwner.enter, List.mem_append, List.mem_singleton] at hi
    rcases append_cases hop with hold | ⟨heq, hnew⟩
    · -- a mutation that was in before would have refused the new operation
      have hlt := (List.getElem?_eq_some_iff.mp hold).1
      have hin : i ∈ s.entered := by
        rcases hi with hi | hi
        · exact hi
        · omega
      have halone := (h.alone i op hin hold hkind).1
      simp [hfree] at halone
    · subst hnew
      have hempty := (hmutation hkind).1
      simp [HistoryOwner.enter, hkind, hempty, heq]
  case ending =>
    exact {
      running := h.ending.running
      shared := h.ending.shared
      joining := fun entries he => by simp [HistoryOwner.enter, hopen] at he
      joined := fun he => by simp [HistoryOwner.enter, hopen] at he }

theorem failed_not_applied {kind : OperationKind} {error : AgentHistoryError}
    (hkind : kind.isMutation = true) (r : AgentHistoryMutationResult)
    (h : kind.failed error false = .resolved (.result r)) : r.isNotApplied = true := by
  cases kind with
  | read => cases hkind
  | mutation input =>
    simp only [OperationKind.failed, Bool.false_eq_true, if_false, Settled.resolved.injEq,
      Value.result.injEq] at h
    subst h
    rfl

theorem Sound.request (h : s.Sound c) (kind : OperationKind) (options : Option OperationOptions) :
    (s.request c kind options).Sound c ∧ s.Later (s.request c kind options) := by
  unfold HistoryOwner.request
  cases options with
  | none => exact h.refuse kind _ failed_not_applied
  | some options =>
    cases hrefusal : s.refusal c kind.isMutation options with
    | some error => simpa [hrefusal] using h.refuse kind _ failed_not_applied
    | none =>
      have ⟨hopen, hfree, hroom, hmutation⟩ := refusal_eq_none hrefusal
      simpa [hrefusal] using h.enter kind options.signal.isSome hopen hfree hroom hmutation

theorem Sound.apply (h : s.Sound c) (operation : AgentHistoryMutationOperation)
    (input : AgentHistoryMutationInput) (options : Option OperationOptions) :
    (s.apply c operation input options).Sound c ∧ s.Later (s.apply c operation input options) := by
  unfold HistoryOwner.apply
  split
  · exact h.refuse _ _ fun _ r hr => by cases hr
  · split
    · refine h.refuse _ _ fun _ r hr => ?_
      simp only [Settled.resolved.injEq, Value.result.injEq] at hr
      subst hr
      rfl
    · exact h.request _ _

/-! ## Reactions -/

theorem Sound.admitted (h : s.Sound c) (hop : s.operations[i]? = some op)
    (hrace : op.race.isSome = true) : op.admitted = true := by
  have hsound := h.operation i op hop
  by_contra hnot
  have ⟨_, haborted, hanswer⟩ := hsound.refused (by simpa using hnot)
  rcases hsound.answered_or_aborted hrace with ha | ha
  · simp [hanswer] at ha
  · simp [haborted] at ha

theorem Sound.releases (h : op.Sound) (hsettled : op.settled = true) :
    Operation.Sound { op with released := true } ∧ op.Later { op with released := true } := by
  obtain ⟨h1, h2, h3, h4, -, h6, h7, h8, h9, h10, h11⟩ := h
  exact ⟨⟨h1, h2, h3, h4, fun _ => hsettled, h6, h7, h8, h9, h10, h11⟩,
    ⟨rfl, rfl, id, fun _ => rfl, fun _ => rfl, fun _ => id, fun _ _ => ⟨rfl, rfl⟩⟩⟩

theorem Sound.released (h : s.Sound c) (condition : Bool) (hop : s.operations[i]? = some op)
    (hsettled : op.settled = true) (hlive : op.released = false) :
    ((s.fenceIf condition).released i op.kind).Sound c ∧
      s.Later ((s.fenceIf condition).released i op.kind) := by
  set next := (s.fenceIf condition).released i op.kind with hnextDef
  have hsound := h.operation i op hop
  have hstep := Sound.releases hsound hsettled
  have hnext : next.operations[i]? = some { op with released := true } := by
    simp [hnextDef, HistoryOwner.released, fenceIf, hop]
  have hrest : ∀ j, j ≠ i → next.operations[j]? = s.operations[j]? := by
    intro j hj
    simp [hnextDef, HistoryOwner.released, fenceIf, Ne.symm hj]
  have hadmitted : op.admitted = true := by
    by_contra hnot
    have ⟨_, _, hanswer⟩ := hsound.refused (by simpa using hnot)
    have := hsound.answered hsettled
    simp [hanswer] at this
  have hentered : i ∈ s.entered :=
    (h.listed i).mpr ⟨op, hop, by simp [Operation.live, hadmitted, hlive]⟩
  have hfence : s.mutationUncertain = true → next.mutationUncertain = true := by
    intro hs
    simp [hnextDef, HistoryOwner.released, fenceIf, hs]
  have hlater : s.Later next := by
    constructor
    case operation =>
      intro j old hold
      by_cases hj : j = i
      · subst hj
        have heq : op = old := Option.some.inj (hop.symm.trans hold)
        subst heq
        exact ⟨_, hnext, hstep.2⟩
      · exact ⟨old, (hrest j hj).trans hold, .refl old⟩
    case uncertain => exact hfence
    case fenced =>
      intro _ j op' hj hop'
      have hbound := (List.getElem?_eq_some_iff.mp hop').1
      simp only [hnextDef, HistoryOwner.released, fenceIf, List.length_modify] at hbound
      omega
  refine ⟨?_, hlater⟩
  constructor
  case operation =>
    intro j op' hop'
    by_cases hj : j = i
    · subst hj
      have heq := Option.some.inj (hnext.symm.trans hop')
      exact heq ▸ hstep.1
    · exact h.operation j op' ((hrest j hj).symm.trans hop')
  case delivered =>
    intro j op' v hop' hv
    by_cases hj : j = i
    · subst hj
      have heq := Option.some.inj (hnext.symm.trans hop')
      subst heq
      exact delivered_continues (h.delivered j op v hop hv) hstep.2 hfence
    · exact delivered_continues (h.delivered j op' v ((hrest j hj).symm.trans hop') hv) (.refl op')
        hfence
  case listed =>
    intro j
    by_cases hj : j = i
    · subst hj
      simp [hnextDef, HistoryOwner.released, fenceIf, hop, Operation.live]
    · rw [hrest j hj, ← h.listed j]
      simp [hnextDef, HistoryOwner.released, fenceIf, hj]
  case distinct => exact h.distinct.filter _
  case within => exact (List.length_filter_le _ _).trans h.within
  case alone =>
    intro j op' hin hop' hkind
    have hj : j ≠ i ∧ j ∈ s.entered := by
      simp only [hnextDef, HistoryOwner.released, fenceIf, List.mem_filter] at hin
      exact ⟨by simpa using hin.2, hin.1⟩
    -- the only entered operation would be both the mutation and the released one
    have halone := h.alone j op' hj.2 ((hrest j hj.1).symm.trans hop') hkind
    rw [halone.2, List.mem_singleton] at hentered
    exact absurd hentered.symm hj.1
  case ending => exact h.ending.same rfl rfl rfl fun j hj => (List.mem_filter.mp hj).1

theorem Sound.release (h : s.Sound c) (i : Nat) :
    (s.release i).Sound c ∧ s.Later (s.release i) := by
  unfold HistoryOwner.release
  cases hop : s.operations[i]? with
  | none => exact ⟨h, .refl s⟩
  | some op =>
    simp only
    by_cases hdue : op.settled = true ∧ op.released = false
    · rw [if_pos hdue]
      have hquiet := h.released false hop hdue.1 hdue.2
      rw [fenceIf_false] at hquiet
      cases hanswer : op.answer with
      | none => exact hquiet
      | some settled =>
        cases settled with
        | resolved value => exact hquiet
        | rejected error => exact h.released op.doubts hop hdue.1 hdue.2
    · rw [if_neg hdue]
      exact ⟨h, .refl s⟩

theorem Sound.returns_at (h : s.Sound c) {settled : Settled Thrown}
    (hop : s.operations[i]? = some op) (hrace : op.race = some settled)
    (hfirst : op.returned = none) :
    ((s.fenceIf (settled.isRejected && op.doubts)).onOperation i fun op =>
        { op with returned := some (op.outcome settled) }).Sound c ∧
      s.Later ((s.fenceIf (settled.isRejected && op.doubts)).onOperation i fun op =>
        { op with returned := some (op.outcome settled) }) := by
  set next := (s.fenceIf (settled.isRejected && op.doubts)).onOperation i fun op =>
    { op with returned := some (op.outcome settled) } with hnextDef
  have hsome : op.race.isSome = true := by simp [hrace]
  have hadmitted := h.admitted hop hsome
  have hsound : Operation.Sound { op with returned := some (op.outcome settled) } := by
    obtain ⟨h1, h2, h3, h4, h5, h6, h7, h8, h9, h10, h11⟩ := h.operation i op hop
    exact ⟨h1, h2, h3, h4, h5, h6, h7, h8, h9, h10, h11⟩
  have hnext : next.operations[i]? = some { op with returned := some (op.outcome settled) } := by
    simp [hnextDef, HistoryOwner.onOperation, fenceIf, hop]
  have hrest : ∀ j, j ≠ i → next.operations[j]? = s.operations[j]? := by
    intro j hj
    simp [hnextDef, HistoryOwner.onOperation, fenceIf, Ne.symm hj]
  have hlength : next.operations.length = s.operations.length := by
    simp [hnextDef, HistoryOwner.onOperation, fenceIf]
  have hfence : s.mutationUncertain = true → next.mutationUncertain = true := by
    intro hs
    simp [hnextDef, HistoryOwner.onOperation, fenceIf, hs]
  constructor
  · constructor
    case operation =>
      intro j op' hop'
      by_cases hj : j = i
      · subst hj
        exact Option.some.inj (hnext.symm.trans hop') ▸ hsound
      · exact h.operation j op' ((hrest j hj).symm.trans hop')
    case delivered =>
      intro j op' v hop' hv
      by_cases hj : j = i
      · subst hj
        have heq := Option.some.inj (hnext.symm.trans hop')
        subst heq
        refine ⟨fun hnot => by simp [hadmitted] at hnot, fun _ => ⟨settled, hrace, fun _ => ?_⟩⟩
        refine ⟨(Option.some.inj hv).symm, fun error herror hdoubts => ?_⟩
        have hdoubt : op.doubts = true := hdoubts
        simp [hnextDef, HistoryOwner.onOperation, fenceIf, herror, Settled.isRejected, hdoubt]
      · exact delivered_continues (h.delivered j op' v ((hrest j hj).symm.trans hop') hv)
          (.refl op') hfence
    case listed =>
      intro j
      by_cases hj : j = i
      · subst hj
        rw [hnext]
        exact (h.listed j).trans (by simp [hop, Operation.live])
      · rw [hrest j hj]
        exact h.listed j
    case distinct => exact h.distinct
    case within => exact h.within
    case alone =>
      intro j op' hin hop' hkind
      by_cases hj : j = i
      · subst hj
        have heq := Option.some.inj (hnext.symm.trans hop')
        subst heq
        exact h.alone j op hin hop hkind
      · exact h.alone j op' hin ((hrest j hj).symm.trans hop') hkind
    case ending => exact h.ending.same rfl rfl rfl fun _ hi => hi
  · constructor
    case operation =>
      intro j old hold
      by_cases hj : j = i
      · subst hj
        have heq := Option.some.inj (hop.symm.trans hold)
        subst heq
        exact ⟨_, hnext, rfl, rfl, id, fun hr => by simp [hfirst] at hr, fun _ => rfl, fun _ => id,
          fun _ _ => ⟨rfl, rfl⟩⟩
      · exact ⟨old, (hrest j hj).trans hold, .refl old⟩
    case uncertain => exact hfence
    case fenced =>
      intro _ j op' hj hop'
      have hbound := (List.getElem?_eq_some_iff.mp hop').1
      omega

theorem Sound.returns (h : s.Sound c) (i : Nat) :
    (s.returns i).Sound c ∧ s.Later (s.returns i) := by
  unfold HistoryOwner.returns
  cases hop : s.operations[i]? with
  | none => exact ⟨h, .refl s⟩
  | some op =>
    cases hfirst : op.returned with
    | some v => simpa [hfirst] using ⟨h, Later.refl s⟩
    | none =>
      cases hrace : op.race with
      | none => simpa [hfirst, hrace] using ⟨h, Later.refl s⟩
      | some settled => simpa [hfirst, hrace] using h.returns_at hop hrace hfirst

theorem Sound.interrupt (h : s.Sound c) (i : Nat) (error : AgentHistoryError) :
    (s.interrupt i error).Sound c ∧ s.Later (s.interrupt i error) :=
  h.continueOperation fun op hop => (h.operation i op hop).abort error

/-! ## Closing -/

theorem Sound.ends (h : s.Sound c) (hoperations : s'.operations = s.operations)
    (huncertain : s'.mutationUncertain = s.mutationUncertain) (hentered : s'.entered = s.entered)
    (hmutation : s'.mutationEntered = s.mutationEntered) (hending : s'.Ending) :
    s'.Sound c ∧ s.Later s' := by
  have hcont : s.Continues s' := {
    length := by rw [hoperations]
    operation := fun i op hop => ⟨op, hoperations ▸ hop, .refl (h.operation i op hop)⟩
    uncertain := fun hs => huncertain.trans hs
    entered := hentered
    mutationEntered := hmutation }
  exact ⟨h.continues hcont hending, hcont.later⟩

/-- A move of `close` that joins nothing. -/
theorem Ending.moves (h : s.Ending) (state : Lifecycle)
    (hjoining : ∀ entries, state ≠ .closing (.joining entries))
    (hcleaned : state ≠ .closing .cleaned) (hclosed : state ≠ .closed) :
    HistoryOwner.Ending { s with state := state } where
  running := h.running
  shared := h.shared
  joining entries he := absurd he (hjoining entries)
  joined he := by
    rcases he with he | he
    · exact absurd he hcleaned
    · exact absurd he hclosed

theorem Sound.aborts (h : s.Sound c) :
    HistoryOwner.Sound c { s with state := .closing .starting, operations := s.aborted } ∧
      s.Later { s with state := .closing .starting, operations := s.aborted } := by
  have hcont : s.Continues { s with state := .closing .starting, operations := s.aborted } := by
    constructor
    case length => simp [aborted]
    case operation =>
      intro i op hop
      refine ⟨_, by simp only [aborted, List.getElem?_mapIdx, hop]; rfl, ?_⟩
      by_cases hi : i ∈ s.entered
      · simp only [hi, if_true]
        exact (h.operation i op hop).abort _
      · simp only [hi, if_false]
        exact .refl (h.operation i op hop)
    case uncertain => exact id
    case entered => rfl
    case mutationEntered => rfl
  have hending := h.ending.moves (.closing .starting) (by simp) (by simp) (by simp)
  exact ⟨h.continues hcont (hending.same rfl rfl rfl fun _ hi => hi), hcont.later⟩

theorem Sound.close (h : s.Sound c) : s.close.Sound c ∧ s.Later s.close := by
  unfold HistoryOwner.close
  split
  · exact ⟨h, .refl s⟩
  · exact ⟨h, .refl s⟩
  · exact h.aborts

theorem Sound.dispose (h : s.Sound c) : s.dispose.Sound c ∧ s.Later s.dispose := by
  unfold HistoryOwner.dispose
  split
  next hstart =>
    split
    next d _ =>
      exact h.ends rfl rfl rfl rfl
        (h.ending.moves (.closing (.disposing d)) (by simp) (by simp) (by simp))
    next hnative =>
      refine h.ends rfl rfl rfl rfl ⟨?_, ?_, by simp, by simp⟩
      · intro d hd
        by_cases hlt : d < s.disposals.length
        · rw [List.getElem?_append_left hlt] at hd
          have hkept := h.ending.running d hd
          simp [hnative] at hkept
        · have hbound := (List.getElem?_eq_some_iff.mp hd).1
          simp only [List.length_append, List.length_singleton] at hbound
          exact congrArg some (by omega)
      · intro d hd
        have heq : s.disposals.length = d := Option.some.inj hd
        simp [heq]
  · exact ⟨h, .refl s⟩

theorem Sound.disposed (h : s.Sound c) (disposal : Nat) (succeeded : Bool) :
    (s.disposed disposal succeeded).Sound c ∧ s.Later (s.disposed disposal succeeded) := by
  have hsucceeded : ∀ status, (∃ d : Nat, s.disposals[d]? = some .succeeded) →
      s.disposals[disposal]? = some .running →
      ∃ d : Nat, (s.disposals.set disposal status)[d]? = some .succeeded := by
    rintro status ⟨d, hd⟩ hrunning
    have hne : disposal ≠ d := by
      rintro rfl
      simp [hd] at hrunning
    exact ⟨d, by rw [List.getElem?_set_ne hne, hd]⟩
  have hrunningOnly : ∀ status, status ≠ .running → ∀ d : Nat,
      (s.disposals.set disposal status)[d]? = some .running →
      d ≠ disposal ∧ s.disposals[d]? = some .running := by
    intro status hstatus d hd
    have hne : d ≠ disposal := by
      rintro rfl
      have hbound := (List.getElem?_eq_some_iff.mp hd).1
      rw [List.length_set] at hbound
      rw [List.getElem?_set_self hbound] at hd
      exact hstatus (Option.some.inj hd)
    exact ⟨hne, by rwa [List.getElem?_set_ne hne.symm] at hd⟩
  unfold HistoryOwner.disposed
  split
  next hrunning =>
    have hnative := h.ending.running disposal hrunning
    split
    · refine h.ends rfl rfl rfl rfl ⟨?_, ?_, ?_, ?_⟩
      · exact fun d hd => h.ending.running d (hrunningOnly _ (by simp) d hd).2
      · intro d hd
        simpa using h.ending.shared d hd
      · intro entries he
        have ⟨hdone, hin⟩ := h.ending.joining entries he
        exact ⟨hsucceeded _ hdone hrunning, hin⟩
      · intro he
        have ⟨hdone, hnil⟩ := h.ending.joined he
        exact ⟨hsucceeded _ hdone hrunning, hnil⟩
    · refine h.ends rfl rfl rfl rfl ⟨?_, by simp, ?_, ?_⟩
      · intro d hd
        have ⟨hne, hold⟩ := hrunningOnly _ (by simp) d hd
        have hsame := h.ending.running d hold
        exact absurd (Option.some.inj (hsame.symm.trans hnative)) hne
      · intro entries he
        have ⟨hdone, hin⟩ := h.ending.joining entries he
        exact ⟨hsucceeded _ hdone hrunning, hin⟩
      · intro he
        have ⟨hdone, hnil⟩ := h.ending.joined he
        exact ⟨hsucceeded _ hdone hrunning, hnil⟩
  · exact ⟨h, .refl s⟩

theorem Sound.cleanup (h : s.Sound c) : s.cleanup.Sound c ∧ s.Later s.cleanup := by
  unfold HistoryOwner.cleanup
  split
  next d _ =>
    split
    next hdone =>
      refine h.ends rfl rfl rfl rfl ⟨h.ending.running, h.ending.shared, ?_, by simp⟩
      intro entries he
      simp only [Lifecycle.closing.injEq, Closing.joining.injEq] at he
      subst he
      exact ⟨⟨d, hdone⟩, fun _ hi => hi⟩
    · exact h.ends rfl rfl rfl rfl
        (h.ending.moves (.closing .failed) (by simp) (by simp) (by simp))
    · exact ⟨h, .refl s⟩
  next entries hstate =>
    have ⟨hdone, hin⟩ := h.ending.joining entries hstate
    split
    next hall =>
      refine h.ends rfl rfl rfl rfl
        ⟨h.ending.running, h.ending.shared, by simp, fun _ => ⟨hdone, ?_⟩⟩
      refine List.eq_nil_iff_forall_not_mem.mpr fun i hi => ?_
      have hleft := List.all_eq_true.mp hall i (hin i hi)
      simp [hi] at hleft
    · exact ⟨h, .refl s⟩
  · exact ⟨h, .refl s⟩

theorem Sound.cleanupDeadline (h : s.Sound c) :
    s.cleanupDeadline.Sound c ∧ s.Later s.cleanupDeadline := by
  have hending := h.ending.moves (.closing .failed) (by simp) (by simp) (by simp)
  have hfailed : HistoryOwner.Sound c { s with state := .closing .failed } ∧
      s.Later { s with state := .closing .failed } := h.ends rfl rfl rfl rfl hending
  unfold HistoryOwner.cleanupDeadline
  split
  · exact hfailed
  · exact hfailed
  · exact ⟨h, .refl s⟩

theorem Sound.finish (h : s.Sound c) : s.finish.Sound c ∧ s.Later s.finish := by
  unfold HistoryOwner.finish
  split
  next hstate =>
    have hjoined := h.ending.joined (.inl hstate)
    exact h.ends rfl rfl rfl rfl ⟨h.ending.running, h.ending.shared, by simp, fun _ => hjoined⟩
  · exact h.ends rfl rfl rfl rfl (h.ending.moves .cleanup_failed (by simp) (by simp) (by simp))
  · exact ⟨h, .refl s⟩

/-! ## Steps and runs -/

theorem Sound.step (h : s.Sound c) (event : HistoryEvent) :
    (step c s event).Sound c ∧ s.Later (step c s event) := by
  cases event with
  | read options => exact h.request .read options
  | apply operation input options => exact h.apply operation input options
  | begin i => exact h.continueOperation fun op hop => (h.operation i op hop).begin
  | markDispatched i =>
    exact h.continueOperation fun op hop => (h.operation i op hop).markDispatched
  | recordReceipt i value => exact h.recordReceipt i value
  | resolve i value => exact h.resolve i value
  | reject i error => exact h.reject i error
  | settle i => exact h.continueOperation fun op hop => (h.operation i op hop).settle
  | release i => exact h.release i
  | returns i => exact h.returns i
  | cancel i =>
    simp only [HistoryOwner.step]
    split
    · exact h.interrupt i _
    · exact ⟨h, .refl s⟩
  | deadline i => exact h.interrupt i _
  | close => exact h.close
  | dispose => exact h.dispose
  | disposed disposal succeeded => exact h.disposed disposal succeeded
  | cleanup => exact h.cleanup
  | cleanupDeadline => exact h.cleanupDeadline
  | finish => exact h.finish

theorem sound_empty (c : HistoryConfig) : HistoryOwner.Sound c {} := by
  constructor
  case ending => constructor <;> simp
  all_goals simp

theorem sound_after (c : HistoryConfig) (events : List HistoryEvent) : (after c events).Sound c :=
  Machine.run_invariant (step c) (fun _ event h => (h.step event).1) (sound_empty c) events

theorem later_after (c : HistoryConfig) (events later : List HistoryEvent) :
    (after c events).Later (after c (events ++ later)) := by
  have happend : after c (events ++ later) = Machine.run (step c) (after c events) later :=
    Machine.run_append (step c) {} events later
  rw [happend]
  exact Machine.run_related (P := HistoryOwner.Sound c) Later.refl (fun _ _ _ => Later.trans)
    (fun _ event h => (h.step event).1) (fun _ event h => (h.step event).2) (sound_after c events)
    later

end HistoryOwner

end AgentSdk.History
