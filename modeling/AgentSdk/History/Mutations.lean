import AgentSdk.History.Invariants

/-!
# History mutations report the truth

For every interleaving of calls, continuations, timers and aborts of one
history source.

## Main results

* `history_mutations_report` — mutations exclude every other operation; an
  outcome tells whether the native mutation was dispatched, and with which
  receipt; a closed source was disposed once and joined.
* `dispatched_not_applied` — a driver may record that a dispatched mutation was
  not applied, and the caller gets that receipt.
-/

namespace AgentSdk.History

open AgentSdk.Text

/-- The driver used its context only while its method ran, and resolved a
dispatched mutation only after it had recorded the receipt. -/
def Operation.Kept (op : Operation) : Prop :=
  op.strayed = false ∧
    ((∃ v, op.answer = some (.resolved v)) → op.dispatched = true → op.receipt.isSome = true)

namespace HistoryOwner

variable {c : HistoryConfig} {s : HistoryOwner}

/-- What the caller was told in state `s`, against what happened to the
operation up to a later state. -/
theorem Sound.told (h : s.Sound c) {i : Nat} {op op' : Operation}
    {input : AgentHistoryMutationInput} {v : Settled AgentHistoryError}
    (hop : s.operations[i]? = some op)
    (hkind : op.kind = .mutation input) (hadmitted : op.admitted = true)
    (hv : op.returned = some v) (hsound : op'.Sound) (hlater : op.Later op') (hkept : op'.Kept) :
    (∃ receipt, op'.timelyReceipt = some receipt ∧ v = .resolved (.result receipt)) ∨
    (op'.timelyReceipt = none ∧ op'.dispatched = false) ∨
    (op'.timelyReceipt = none ∧ op'.dispatched = true ∧ s.mutationUncertain = true ∧
      ∃ reason, v = .resolved (.result (.outcome_unknown input.conversation reason))) := by
  have hmutation : op.kind.isMutation = true := by simp [hkind, OperationKind.isMutation]
  obtain ⟨settled, hrace, hout⟩ := (h.delivered i op v hop hv).outcome hadmitted
  obtain ⟨heq, hdoubts⟩ := hout (hlater.strayed hkept.1)
  have hsome : op.race.isSome = true := by simp [hrace]
  obtain ⟨htimely, hdispatched⟩ := hlater.steady hkept.1 hsome
  cases settled with
  | resolved value =>
    obtain ⟨_, hanswer, hclear⟩ := hsound.resolved value ((hlater.race hsome).trans hrace)
    cases hreceipt : op'.receipt with
    | some receipt =>
      -- the driver resolved with the receipt it had recorded
      have hclear := hclear hkept.1 (by simp [hreceipt])
      have hvalue := hsound.kept value receipt hanswer hkept.1 hreceipt
      refine .inl ⟨receipt, Operation.timelyReceipt_eq_some.mpr ⟨hclear, hreceipt⟩, ?_⟩
      rw [heq, hvalue]
      rfl
    | none =>
      have hnone : op'.timelyReceipt = none := by simp [Operation.timelyReceipt, hreceipt]
      refine .inr (.inl ⟨hnone, ?_⟩)
      by_contra hdispatch
      have hrecorded := hkept.2 ⟨value, hanswer⟩ (by simpa using hdispatch)
      simp [hreceipt] at hrecorded
  | rejected error =>
    rw [htimely, hdispatched]
    cases hreceipt : op.timelyReceipt with
    | some receipt =>
      refine .inl ⟨receipt, rfl, ?_⟩
      rw [heq, Operation.outcome, hreceipt]
    | none =>
      cases hdispatch : op.dispatched with
      | false => exact .inr (.inl ⟨rfl, rfl⟩)
      | true =>
        have hfenced := hdoubts error rfl
          (by simp [Operation.doubts, hmutation, hdispatch, hreceipt])
        have hunknown : v = .resolved (.result (.outcome_unknown input.conversation
            error.normalized.reason)) := by
          rw [heq, Operation.outcome, hreceipt, hkind, hdispatch]
          rfl
        exact .inr (.inr ⟨rfl, rfl, hfenced, _, hunknown⟩)

/-- The caller of a mutation was told the truth: `s` is a state in which the
promise has settled, `s'` a later one and `op` the operation there. -/
structure Reported (s s' : HistoryOwner) (op : Operation) (input : AgentHistoryMutationInput)
    (v : Settled AgentHistoryError) : Prop where
  not_applied : ∀ r, v = .resolved (.result r) → r.isNotApplied = true →
    op.dispatched = false ∨ op.timelyReceipt = some r
  receipt : ∀ r, op.timelyReceipt = some r → v = .resolved (.result r)
  unknown : op.dispatched = true → op.timelyReceipt = none →
    (∃ reason, v = .resolved (.result (.outcome_unknown input.conversation reason))) ∧
    ∀ (i : Nat) (next : Operation), s.operations.length ≤ i → s'.operations[i]? = some next →
      next.kind.isMutation = true → next.admitted = false

theorem Sound.reported {s' : HistoryOwner} (h : s.Sound c) (h' : s'.Sound c) (hrun : s.Later s')
    {i : Nat} {op op' : Operation} {input : AgentHistoryMutationInput}
    {v : Settled AgentHistoryError} (hop : s.operations[i]? = some op)
    (hkind : op.kind = .mutation input) (hv : op.returned = some v)
    (hop' : s'.operations[i]? = some op') (hlater : op.Later op') (hkept : op'.Kept) :
    Reported s s' op' input v := by
  have hsound := h'.operation i op' hop'
  cases hadmitted : op.admitted with
  | false =>
    have hstarted := (hsound.refused (hlater.admitted.trans hadmitted)).1
    have ⟨hdispatched, hreceipt⟩ := hsound.unstarted hstarted
    exact {
      not_applied := fun _ _ _ => .inl hdispatched
      receipt := fun r hr => by
        simp [Operation.timelyReceipt, hreceipt] at hr
      unknown := fun hyes => by simp [hdispatched] at hyes }
  | true =>
    rcases h.told hop hkind hadmitted hv hsound hlater hkept with
      ⟨receipt, htimely, heq⟩ | ⟨hnone, hnot⟩ | ⟨hnone, -, hfenced, reason, heq⟩
    · exact {
        not_applied := fun r hr _ => by
          have hsame := heq.symm.trans hr
          simp only [Settled.resolved.injEq, Value.result.injEq] at hsame
          exact .inr (hsame ▸ htimely)
        receipt := fun r hr => Option.some.inj (htimely.symm.trans hr) ▸ heq
        unknown := fun _ hnone => by simp [htimely] at hnone }
    · exact {
        not_applied := fun _ _ _ => .inl hnot
        receipt := fun r hr => by simp [hnone] at hr
        unknown := fun hyes => by simp [hnot] at hyes }
    · exact {
        not_applied := fun r hr hna => by
          have hsame := heq.symm.trans hr
          simp only [Settled.resolved.injEq, Value.result.injEq] at hsame
          subst hsame
          cases hna
        receipt := fun r hr => by simp [hnone] at hr
        unknown := fun _ _ => ⟨⟨reason, heq⟩, hrun.fenced hfenced⟩ }

theorem Sound.settled_of_closed (h : s.Sound c) (hclosed : s.state = .closed) :
    (∃ d : Nat, s.disposals[d]? = some .succeeded) ∧
      ∀ (i : Nat) (op : Operation), s.operations[i]? = some op → op.admitted = true →
        op.settled = true := by
  have ⟨hdone, hnil⟩ := h.ending.joined (.inr hclosed)
  refine ⟨hdone, fun i op hop hadmitted => (h.operation i op hop).joined ?_⟩
  by_contra hlive
  have hin := (h.listed i).mpr ⟨op, hop, by simp [Operation.live, hadmitted, hlive]⟩
  simp [hnil] at hin

theorem history_mutations_report (c : HistoryConfig) (events later : List HistoryEvent) :
    let s := after c events
    let s' := after c (events ++ later)
    (s.entered.Nodup ∧ s.entered.length ≤ c.concurrentReads ∧
      (∀ i : Nat, i ∈ s.entered ↔ ∃ op, s.operations[i]? = some op ∧ op.live = true) ∧
      ∀ (i : Nat) (op : Operation), i ∈ s.entered → s.operations[i]? = some op →
        op.kind.isMutation = true → s.entered = [i]) ∧
    (∀ (i : Nat) (op : Operation) (r : AgentHistoryMutationResult), s.operations[i]? = some op →
      op.timelyReceipt = some r →
      ∃ op', s'.operations[i]? = some op' ∧ op'.timelyReceipt = some r) ∧
    (∀ (i : Nat) (op : Operation) (input : AgentHistoryMutationInput)
        (v : Settled AgentHistoryError),
      s.operations[i]? = some op → op.kind = .mutation input → op.returned = some v →
      ∃ op', s'.operations[i]? = some op' ∧ op'.returned = some v ∧
        (op'.Kept → Reported s s' op' input v)) ∧
    (s.state = .closed → (∃ d : Nat, s.disposals[d]? = some .succeeded) ∧
      ∀ (i : Nat) (op : Operation), s.operations[i]? = some op → op.admitted = true →
        op.settled = true) ∧
    (∀ d d' : Nat, s.disposals[d]? = some .running → s.disposals[d']? = some .running →
      d = d') := by
  intro s s'
  have h : s.Sound c := sound_after c events
  have h' : s'.Sound c := sound_after c (events ++ later)
  have hrun : s.Later s' := later_after c events later
  refine ⟨⟨h.distinct, h.within, h.listed, fun i op hi hop hkind => (h.alone i op hi hop hkind).2⟩,
    ?_, ?_, h.settled_of_closed, ?_⟩
  · intro i op r hop hr
    have ⟨op', hop', hlater⟩ := hrun.operation i op hop
    exact ⟨op', hop', hlater.timely r hr⟩
  · intro i op input v hop hkind hv
    have ⟨op', hop', hlater⟩ := hrun.operation i op hop
    have hsame := hlater.returned (by simp [hv])
    exact ⟨op', hop', hsame.trans hv, h.reported h' hrun hop hkind hv hop' hlater⟩
  · intro d d' hd hd'
    exact Option.some.inj ((h.ending.running d hd).symm.trans (h.ending.running d' hd'))

/-! ## A native refusal -/

namespace Refused

def source : AgentHistorySourceIdentity := ⟨js "codex", js "source-alpha", js "generation-1"⟩

def effects : AgentHistoryMutationEffects := ⟨.local, .none, .native_rejects, .atomic⟩

def config : HistoryConfig := ⟨source, fun _ => effects, 4, 30000, 120000⟩

def input : AgentHistoryMutationInput := ⟨⟨source, js "conversation-alpha"⟩, effects⟩

/-- The native side answered that it renamed nothing. -/
def receipt : AgentHistoryMutationResult :=
  .not_applied input.conversation ⟨js "title_taken", js "The title is in use."⟩

/-- The driver dispatches, records the native refusal, then fails to clean up. -/
def continuations : List HistoryEvent :=
  [.begin 0, .markDispatched 0, .recordReceipt 0 (some receipt), .reject 0 .other, .settle 0,
    .release 0, .returns 0]

def operation : Operation :=
  { kind := .mutation input, admitted := true, started := true, dispatched := true,
    receipt := some receipt, answer := some (.rejected .other), settled := true, released := true,
    race := some (.rejected .other), returned := some (.resolved (.result receipt)) }

theorem enters : step config {} (.apply .rename input (some {})) =
    enter {} (.mutation input) false := by
  have hsource : assertSource input.conversation config.source = true := by decide
  have hadmitted : refusal config {} true {} = none := by decide
  simp only [step, HistoryOwner.apply]
  rw [if_neg (by simp [hsource]), if_neg (by simp [input, config])]
  simp only [request, OperationKind.isMutation, hadmitted]
  rfl

theorem after_refusal :
    (after config (.apply .rename input (some {}) :: continuations)).operations = [operation] := by
  rw [after, Machine.run_cons, enters]
  decide

end Refused

theorem dispatched_not_applied :
    ∃ op, (after Refused.config (.apply .rename Refused.input (some {}) ::
        Refused.continuations)).operations[0]? = some op ∧
      op.Kept ∧ op.dispatched = true ∧
      op.returned = some (.resolved (.result Refused.receipt)) ∧
      Refused.receipt.isNotApplied = true := by
  refine ⟨Refused.operation, by rw [Refused.after_refusal]; rfl, ⟨rfl, ?_⟩, rfl, rfl, rfl⟩
  rintro ⟨v, hv⟩
  cases hv

end HistoryOwner

end AgentSdk.History
