import AgentSdk.Runtime.InputLedger

/-!
# Execution input over a whole session generation

The continuations of an owner are chains of the changes of
`AgentSdk.Runtime.InputLedger`; a session generation is the owners of its
executions and the census they share.

## Main results

* `InputOwner.step_cases` — an event enters one fresh message or none.
* `execution_input_owned` — limits, identities, receipts, closing and fencing
  over every order of events.
-/

namespace AgentSdk.Runtime

open AgentSdk.Text

namespace InputOwner

/-! ### Events -/

theorem attach_later (o : InputOwner) : o.Later o.attach := by
  unfold attach
  split
  · rename_i hreserved
    refine ⟨rfl, id, id, id, fun hclosed => ?_, fun _ send h => ⟨send, h, .refl send⟩⟩
    simp [mayAccept, hreserved] at hclosed
  · exact .refl o

variable {o o' : InputOwner} {census : InputCensus} {message : ExecutionInputMessage}

theorem attach_sound (h : o.Sound) : o.attach.Sound := by
  unfold attach
  split
  · rename_i hreserved
    refine ⟨h.ledger.same ⟨rfl, rfl, rfl, rfl, rfl⟩, h.sends, h.doubt, fun hd => ?_⟩
    have hclosed := (h.fence hd).2
    simp [mayAccept, hreserved] at hclosed
  · exact h

/-- What a send that enters changes. -/
theorem sendMessage_eq_ok {census' : InputCensus} {admitted : Bool}
    (h : o.sendMessage census message admitted = (census', o', .ok ())) :
    o.phase = .accepting ∧ message.messageId ∉ census.identities ∧
      census'.identities = census.identities ++ [message.messageId] ∧
      o.enteredMessages < o.support.limits.maxMessagesPerExecution ∧
      o.messages.length < o.support.limits.maxOutstandingMessages ∧
      o.retainedBytes + message.bytes ≤ o.support.limits.maxBufferedBytes ∧
      o' = { o with
        messages := o.messages ++ [message.messageId]
        enteredMessages := o.enteredMessages + 1
        retainedBytes := o.retainedBytes + message.bytes
        sends := o.sends ++ [{ messageId := message.messageId, bytes := message.bytes }] } := by
  unfold sendMessage at h
  split at h
  · cases h
  · split at h
    · cases h
    · rename_i hphase
      dsimp only at h
      split at h
      · cases h
      · rename_i hlimits
        cases hclaim : census.claim message.messageId with
        | mk claimed result =>
          cases result with
          | error error =>
            rw [hclaim] at h
            cases h
          | ok _ =>
            rw [hclaim] at h
            cases h
            unfold InputCensus.claim at hclaim
            split at hclaim
            · cases hclaim
            · rename_i hfresh
              split at hclaim
              · cases hclaim
              · cases hclaim
                exact ⟨not_not.1 hphase, hfresh, rfl, by omega, by omega, by omega, rfl⟩

/-- A send that does not enter changes no owner and no identity. -/
theorem sendMessage_eq_error {census' : InputCensus} {admitted : Bool} {error : SendError}
    (h : o.sendMessage census message admitted = (census', o', .error error)) :
    o' = o ∧ census'.identities = census.identities := by
  unfold sendMessage at h
  split at h
  · cases h
    exact ⟨rfl, rfl⟩
  · split at h
    · cases h
      exact ⟨rfl, rfl⟩
    · dsimp only at h
      split at h
      · cases h
        exact ⟨rfl, rfl⟩
      · cases hclaim : census.claim message.messageId with
        | mk claimed result =>
          rw [hclaim] at h
          cases result with
          | ok _ => cases h
          | error error =>
            cases h
            unfold InputCensus.claim at hclaim
            split at hclaim
            · cases hclaim
              exact ⟨rfl, rfl⟩
            · split at hclaim
              · cases hclaim
                exact ⟨rfl, rfl⟩
              · cases hclaim

/-- The identities of the messages that have entered. -/
def ids (o : InputOwner) : List JsString := o.sends.map Send.messageId

theorem SameLedger.ids (h : o.SameLedger o') : o'.ids = o.ids := by
  have hids : ∀ owner : InputOwner, owner.ids = owner.accounts.map Account.messageId := by
    intro owner
    simp [InputOwner.ids, InputOwner.accounts, Send.account]
  rw [hids, hids, h.accounts]

theorem finish_ids (o : InputOwner) (k : Nat) (stage : Stage) : (o.finish k stage).ids = o.ids := by
  unfold InputOwner.finish
  split
  · rfl
  · split
    · exact modify_map (by intro _; rfl) k o.sends
    · exact modify_map (by intro _; rfl) k o.sends

/-- A sound owner, later, with the same messages entered. -/
structure Continues (o o' : InputOwner) : Prop where
  sound : o'.Sound
  later : o.Later o'
  ids : o'.ids = o.ids

theorem Continues.refl (h : o.Sound) : o.Continues o := ⟨h, .refl o, rfl⟩

theorem Continues.trans {o'' : InputOwner} (h : o.Continues o') (h' : o'.Continues o'') :
    o.Continues o'' := ⟨h'.sound, h.later.trans h'.later, h'.ids.trans h.ids⟩

theorem Continues.doubtful (h : o.Continues o') (hd : o.doubtful = true) : o'.doubtful = true := by
  simp only [InputOwner.doubtful, Bool.or_eq_true] at hd ⊢
  exact hd.imp h.later.uncertain h.later.failure

theorem closeAdmission_continues (h : o.Sound) (reason : Option UnconfirmedReason) :
    o.Continues (o.closeAdmission reason) :=
  ⟨closeAdmission_sound h reason, closeAdmission_later o reason, (closeAdmission_same o reason).ids⟩

theorem fail_continues (h : o.Sound) : o.Continues o.fail :=
  ⟨(fail_sound h).1, fail_later o, (fail_same o).ids⟩

theorem fenceUncertainty_continues (h : o.Sound) : o.Continues o.fenceUncertainty :=
  ⟨(fenceUncertainty_sound h).1, fenceUncertainty_later o, (fenceUncertainty_same o).ids⟩

theorem answer_continues (h : o.Sound) (k : Nat) {receipt : SendReceipt}
    (hreceipt : receipt.doubtful = true → o.doubtful = true) : o.Continues (o.answer k receipt) :=
  ⟨answer_sound h k hreceipt, answer_later o k receipt, (answer_same o k receipt).ids⟩

theorem lost_continues (h : o.Sound) (k : Nat) : o.Continues (o.lost k) :=
  ⟨lost_sound h k, lost_later o k, (lost_same o k).ids⟩

theorem deliver_continues (h : o.Sound) (k : Nat) {receipt : SendReceipt}
    (hreceipt : receipt.doubtful = true → o.doubtful = true) (late : Bool) :
    o.Continues (o.deliver k receipt late) :=
  ⟨deliver_sound h k hreceipt late, deliver_later o k receipt late,
    (deliver_same o k receipt late).ids⟩

theorem finish_continues (h : o.Sound) (k : Nat) {stage : Stage} {ending : Ending}
    (hstage : stage.ending? = some ending) (hending : ending.doubtful = true → o.doubtful = true) :
    o.Continues (o.finish k stage) :=
  ⟨finish_sound h k hstage hending, finish_later o k stage, finish_ids o k stage⟩

/-- The invocation of a send comes a stage further without ending. -/
theorem advance_continues (h : o.Sound) {k : Nat} {send : Send} (hk : o.sends[k]? = some send)
    (hopen : send.stage.ending? = none) {change : Send → Send}
    (haccount : ∀ s, (change s).account = s.account)
    (hwait : ∀ s, (change s).receipts = s.receipts ∧ (change s).waiting = s.waiting)
    (hobservation : ∀ s, (change s).observation = s.observation)
    (hstage : ∀ s, (change s).stage.ending? = none) : o.Continues (o.onSend k change) := by
  have hlive : ∀ s, (change s).live = s.live := fun s => congrArg Account.live (haccount s)
  refine ⟨onSend_sound h haccount (fun s hs hsound => ?_) (fun s _ hd => ?_),
    onSend_later (fun s => ?_) k, (onSend_same haccount k).ids⟩
  · rw [hk] at hs
    cases hs
    refine ⟨?_, fun hwaiting => ?_, fun hdead => ?_⟩
    · rw [(hwait send).1]
      exact hsound.receipts
    · rw [(hwait send).1]
      exact hsound.waiting ((hwait send).2 ▸ hwaiting)
    · have hheld := hsound.held (hlive send ▸ hdead)
      rw [hopen] at hheld
      cases hheld
  · refine Or.inl ?_
    simp only [Send.doubtful, hstage, (hwait s).1, Option.any_none, Bool.or_false] at hd
    simp [Send.doubtful, hd]
  · refine ⟨congrArg Account.messageId (haccount s), congrArg Account.bytes (haccount s), ?_,
      fun outcome ho => (hobservation s).trans ho, fun hs => hlive s ▸ hs⟩
    rw [(hwait s).1]

theorem invoked_continues (h : o.Sound) (k : Nat) (threw aborted : Bool) :
    o.Continues (o.invoked k threw aborted) := by
  unfold invoked
  split
  · rename_i send hk
    split
    · exact .refl h
    · rename_i hstage
      split
      · have hfail := fail_continues h
        have hdoubt := (fail_sound h).2
        have hanswer : o.fail.Continues (o.fail.answer k .failed) :=
          answer_continues hfail.sound k fun _ => hdoubt
        have hfinish : (o.fail.answer k .failed).Continues
            ((o.fail.answer k .failed).finish k (.gone .failed)) :=
          finish_continues hanswer.sound k rfl fun _ => hanswer.doubtful hdoubt
        exact (hfail.trans hanswer).trans hfinish
      · have hadvance : o.Continues
            (o.onSend k fun send => { send with stage := .awaitingReceipt }) := by
          refine advance_continues h hk ?_ (fun _ => rfl) (fun _ => ⟨rfl, rfl⟩) (fun _ => rfl)
            (fun _ => rfl)
          rw [not_not.1 hstage]
          rfl
        split
        · exact hadvance.trans (lost_continues hadvance.sound k)
        · exact hadvance
  · exact .refl h

/-- A change of one send that keeps its account and that an observer sees as progress. -/
theorem onSend_continues {k : Nat} {change : Send → Send} (h : o.Sound)
    (haccount : ∀ send, (change send).account = send.account)
    (hsound : ∀ send, o.sends[k]? = some send → send.Sound → (change send).Sound)
    (hdoubt : ∀ send, o.sends[k]? = some send → (change send).doubtful = true →
      send.doubtful = true ∨ o.doubtful = true)
    (hevolves : ∀ send : Send, send.Evolves (change send)) : o.Continues (o.onSend k change) :=
  ⟨onSend_sound h haccount hsound hdoubt, onSend_later hevolves k, (onSend_same haccount k).ids⟩

theorem receipt_continues (h : o.Sound) (k : Nat) (value : Option ProviderReceipt) (late : Bool) :
    o.Continues (o.receipt k value late) := by
  unfold InputOwner.receipt
  split
  · rename_i send hk
    split
    · exact .refl h
    · rename_i hstage
      split
      · have hadvance : o.Continues (o.onSend k fun send =>
            { send with
              phase := if send.phase ≠ .settled then .accepted else send.phase
              stage := .awaitingSettlement }) := by
          refine advance_continues h hk ?_ (fun s => ?_) (fun _ => ⟨rfl, rfl⟩) (fun _ => rfl)
            (fun _ => rfl)
          · rw [not_not.1 hstage]
            rfl
          · by_cases hsettled : s.phase = .settled
            · simp [Send.account, Send.live, hsettled]
            · simp [Send.account, Send.live, hsettled]
        exact hadvance.trans (deliver_continues hadvance.sound k (fun hd => by cases hd) late)
      · have hdeliver : o.Continues (o.deliver k .rejected late) :=
          deliver_continues h k (fun hd => by cases hd) late
        exact hdeliver.trans (finish_continues hdeliver.sound k rfl fun hd => by cases hd)
      · have hfence := fenceUncertainty_continues h
        have hdoubt := (fenceUncertainty_sound h).2
        have hdeliver : o.fenceUncertainty.Continues
            (o.fenceUncertainty.deliver k .deliveryUncertain late) :=
          deliver_continues hfence.sound k (fun _ => hdoubt) late
        exact (hfence.trans hdeliver).trans
          (finish_continues hdeliver.sound k rfl fun _ => hdeliver.doubtful hdoubt)
      · have hfail := fail_continues h
        have hdoubt := (fail_sound h).2
        have hanswer : o.fail.Continues (o.fail.answer k .failed) :=
          answer_continues hfail.sound k fun _ => hdoubt
        exact (hfail.trans hanswer).trans
          (finish_continues hanswer.sound k rfl fun _ => hanswer.doubtful hdoubt)
  · exact .refl h

theorem settlement_continues (h : o.Sound) (k : Nat) (value : Option ProviderOutcome) :
    o.Continues (o.settlement k value) := by
  unfold InputOwner.settlement
  split
  · rename_i send _
    split
    · exact .refl h
    · split
      · rename_i outcome _
        have hobserve : o.Continues (o.onSend k fun send => send.observe outcome) := by
          exact onSend_continues h (fun _ => rfl)
            (fun s _ hs => ⟨hs.receipts, hs.waiting, hs.held⟩) (fun s _ hd => Or.inl hd)
            (fun s => .observe s outcome)
        dsimp only
        by_cases hlost : outcome = .unconfirmed .correlationLost
        · rw [if_pos hlost]
          have hfail := fail_continues hobserve.sound
          have hdoubt := (fail_sound hobserve.sound).2
          exact (hobserve.trans hfail).trans (finish_continues hfail.sound k rfl fun _ => hdoubt)
        · rw [if_neg hlost]
          refine hobserve.trans (finish_continues hobserve.sound k rfl fun hd => ?_)
          exact absurd (of_decide_eq_true hd) hlost
      · have hfail := fail_continues h
        have hdoubt := (fail_sound h).2
        exact hfail.trans (finish_continues hfail.sound k rfl fun _ => hdoubt)
  · exact .refl h

theorem workDone_continues (h : o.Sound) (k : Nat) : o.Continues (o.workDone k) := by
  refine onSend_continues h (fun s => ?_) (fun s _ hs => ?_) (fun s _ hd => ?_) (fun s => ?_)
  · split
    · rfl
    · rfl
  · split
    · exact ⟨hs.receipts, hs.waiting, fun _ => rfl⟩
    · exact hs
  · refine Or.inl ?_
    split at hd
    · rename_i ending hstage
      simpa [Send.doubtful, hstage, Stage.ending?] using hd
    · exact hd
  · split
    · exact ⟨rfl, rfl, List.prefix_rfl, fun _ h => h, id⟩
    · exact .refl s

theorem drain_continues (h : o.Sound) : o.Continues o.drain := by
  have hclose := closeAdmission_continues h none
  refine hclose.trans ⟨⟨hclose.sound.ledger.same ⟨rfl, rfl, rfl, rfl, rfl⟩, hclose.sound.sends,
    hclose.sound.doubt, fun hd => ⟨(hclose.sound.fence hd).1, rfl⟩⟩,
    ⟨rfl, id, id, id, fun _ => ⟨rfl, rfl⟩, fun _ send hsend => ⟨send, hsend, .refl send⟩⟩, rfl⟩

theorem joined_continues (h : o.Sound) (failed : Bool) : o.Continues (o.joined failed) := by
  have hdrains : ∀ n, o.Continues { o with drains := n } := fun n =>
    ⟨⟨h.ledger.same ⟨rfl, rfl, rfl, rfl, rfl⟩, h.sends, h.doubt, h.fence⟩,
      ⟨rfl, id, id, id, fun hc => ⟨hc, rfl⟩, fun _ send hsend => ⟨send, hsend, .refl send⟩⟩, rfl⟩
  unfold joined
  split
  · exact .refl h
  · split
    · exact (hdrains _).trans (fail_continues (hdrains _).sound)
    · split
      · exact .refl h
      · split
        · exact hdrains _
        · exact ⟨⟨h.ledger.same ⟨rfl, rfl, rfl, rfl, rfl⟩, h.sends, h.doubt,
              fun hd => ⟨(h.fence hd).1, rfl⟩⟩,
            ⟨rfl, id, id, id, fun _ => ⟨rfl, rfl⟩,
              fun _ send hsend => ⟨send, hsend, .refl send⟩⟩, rfl⟩

/-- A message that enters keeps the ledger. -/
theorem send_sound (h : o.Sound) (hphase : o.phase = .accepting)
    (hfresh : message.messageId ∉ o.ids)
    (htotal : o.enteredMessages < o.support.limits.maxMessagesPerExecution)
    (hout : o.messages.length < o.support.limits.maxOutstandingMessages)
    (hbytes : o.retainedBytes + message.bytes ≤ o.support.limits.maxBufferedBytes) :
    ({ o with
      messages := o.messages ++ [message.messageId]
      enteredMessages := o.enteredMessages + 1
      retainedBytes := o.retainedBytes + message.bytes
      sends := o.sends ++ [{ messageId := message.messageId, bytes := message.bytes }] } :
        InputOwner).Sound := by
  have hids : o.accounts.map Account.messageId = o.ids := by
    simp [accounts, ids, Send.account]
  obtain ⟨hdistinct, hentered, hmessages, hretained, -, -, -⟩ := h.ledger
  refine ⟨⟨?_, ?_, ?_, ?_, htotal, ?_, hbytes⟩, fun send hsend => ?_, fun send hsend hd => ?_,
    fun hd => ?_⟩
  · rw [hids] at hdistinct
    have hnew := List.nodup_append.2
      ⟨hdistinct, List.nodup_singleton message.messageId, fun a ha b hb heq => by
        rw [List.mem_singleton] at hb
        exact hfresh (hb ▸ heq ▸ ha)⟩
    simp only [accounts, List.map_append, List.map_map]
    exact hnew
  · simp only [accounts, List.map_append, List.length_append, List.length_map] at hentered ⊢
    simp [hentered]
  · simp [accounts, hmessages, Send.account, Send.live]
  · rw [hretained]
    simp [accounts, Send.account, Send.live]
  · simpa using hout
  · rw [List.mem_append, List.mem_singleton] at hsend
    rcases hsend with hold | hnew
    · exact h.sends send hold
    · subst hnew
      exact ⟨by simp, fun _ => rfl, fun hdead => by simp [Send.live] at hdead⟩
  · rw [List.mem_append, List.mem_singleton] at hsend
    rcases hsend with hold | hnew
    · exact h.doubt send hold hd
    · subst hnew
      simp [Send.doubtful, Stage.ending?] at hd
  · have hclosed := (h.fence hd).2
    simp [mayAccept, hphase] at hclosed

/-- What an event of an owner does to the census and to what has entered. -/
inductive Stepped (census : InputCensus) (o : InputOwner) (census' : InputCensus)
    (o' : InputOwner) : Prop where
  | continues (hcensus : census'.identities = census.identities) (howner : o.Continues o')
  | enters (messageId : JsString) (hfresh : messageId ∉ census.identities)
      (hcensus : census'.identities = census.identities ++ [messageId]) (hsound : o'.Sound)
      (hlater : o.Later o') (hids : o'.ids = o.ids ++ [messageId])

theorem step_cases (h : o.Sound) (hids : ∀ id ∈ o.ids, id ∈ census.identities)
    (event : InputEvent) : Stepped census o (o.step census event).1 (o.step census event).2 := by
  cases event with
  | attach =>
    refine .continues rfl ⟨attach_sound h, attach_later o, ?_⟩
    unfold InputOwner.step attach
    dsimp only
    split
    · rfl
    · rfl
  | send message admitted =>
    cases hsend : o.sendMessage census message admitted with
    | mk census' rest =>
      obtain ⟨o', result⟩ := rest
      simp only [InputOwner.step, hsend]
      cases result with
      | error error =>
        obtain ⟨rfl, hcensus⟩ := sendMessage_eq_error hsend
        exact .continues hcensus (.refl h)
      | ok _ =>
        obtain ⟨hphase, hfresh, hcensus, htotal, hout, hbytes, rfl⟩ :=
          sendMessage_eq_ok hsend
        refine .enters message.messageId hfresh hcensus
          (send_sound h hphase (fun hmem => hfresh (hids _ hmem)) htotal hout hbytes) ?_ ?_
        · refine ⟨rfl, id, id, id, fun hclosed => ?_, fun k send hk => ⟨send, ?_, .refl send⟩⟩
          · simp [mayAccept, hphase] at hclosed
          · rw [List.getElem?_append_left (List.getElem?_eq_some_iff.1 hk).1]
            exact hk
        · simp [ids]
  | invoked k threw aborted => exact .continues rfl (invoked_continues h k threw aborted)
  | lost k => exact .continues rfl (lost_continues h k)
  | receipt k value late => exact .continues rfl (receipt_continues h k value late)
  | settlement k value => exact .continues rfl (settlement_continues h k value)
  | workDone k => exact .continues rfl (workDone_continues h k)
  | closeAdmission reason => exact .continues rfl (closeAdmission_continues h reason)
  | drain => exact .continues rfl (drain_continues h)
  | joined failed => exact .continues rfl (joined_continues h failed)

end InputOwner

/-! ## What a session generation keeps true -/

namespace InputSession

/-- The identities of all messages that have entered. -/
def ids (s : InputSession) : List JsString := s.owners.flatMap InputOwner.ids

/-- Owners are sound, and what has entered is what the census lists. -/
structure Sound (s : InputSession) : Prop where
  owners : ∀ o ∈ s.owners, o.Sound
  census : s.ids.Perm s.census.identities
  distinct : s.census.identities.Nodup

theorem sound_empty : ({} : InputSession).Sound :=
  ⟨fun _ ho => absurd ho List.not_mem_nil, List.Perm.refl _, List.nodup_nil⟩

variable {s : InputSession}

theorem ids_of_mem (h : s.Sound) {o : InputOwner} (ho : o ∈ s.owners) :
    ∀ id ∈ o.ids, id ∈ s.census.identities := fun _ hid =>
  h.census.subset (List.mem_flatMap.2 ⟨o, ho, hid⟩)

/-- What an event does to the owner at some position. -/
theorem step_owner {i : Nat} {o : InputOwner} (ho : s.owners[i]? = some o) (event : InputEvent) :
    ∃ before after, s.owners = before ++ o :: after ∧
      s.step (.owner i event) =
        ⟨(o.step s.census event).1, before ++ (o.step s.census event).2 :: after⟩ := by
  obtain ⟨hlt, hget⟩ := List.getElem?_eq_some_iff.1 ho
  refine ⟨s.owners.take i, s.owners.drop (i + 1), ?_, ?_⟩
  · rw [← hget, List.cons_getElem_drop_succ, List.take_append_drop]
  · simp only [step, ho]
    rw [List.set_eq_take_append_cons_drop, if_pos hlt]

theorem Sound.step (h : s.Sound) (event : SessionEvent) : (s.step event).Sound := by
  cases event with
  | execution support turnId =>
    refine ⟨fun o ho => ?_, ?_, h.distinct⟩
    · simp only [InputSession.step, List.mem_append, List.mem_singleton] at ho
      rcases ho with hold | hnew
      · exact h.owners o hold
      · subst hnew
        exact ⟨⟨by simp [InputOwner.accounts], rfl, rfl, rfl, Nat.zero_le _, Nat.zero_le _,
            by simp⟩,
          fun send hsend => absurd hsend List.not_mem_nil,
          fun send hsend => absurd hsend List.not_mem_nil, fun hd => by cases hd⟩
    · have hids : (s.step (.execution support turnId)).ids = s.ids := by
        simp [InputSession.ids, InputSession.step, InputOwner.ids]
      rw [hids]
      exact h.census
  | owner i event =>
    cases ho : s.owners[i]? with
    | none =>
      simp only [InputSession.step, ho]
      exact h
    | some o =>
      obtain ⟨before, after, howners, hstep⟩ := step_owner ho event
      have hmem : o ∈ s.owners := List.mem_of_getElem? ho
      have hothers : ∀ o' ∈ before ++ after, o'.Sound := by
        intro o' ho'
        refine h.owners o' ?_
        rw [howners]
        simp only [List.mem_append, List.mem_cons] at ho' ⊢
        tauto
      have hcensus := h.census
      simp only [InputSession.ids, howners, List.flatMap_append, List.flatMap_cons] at hcensus
      rw [hstep]
      have hsound : ∀ o' : InputOwner, o'.Sound →
          ∀ owner ∈ before ++ o' :: after, owner.Sound := by
        intro o' ho' owner howner
        simp only [List.mem_append, List.mem_cons] at howner
        rcases howner with hb | rfl | ha
        · exact hothers owner (List.mem_append_left _ hb)
        · exact ho'
        · exact hothers owner (List.mem_append_right _ ha)
      cases InputOwner.step_cases (h.owners o hmem) (ids_of_mem h hmem) event with
      | continues hidentities hcontinues =>
        refine ⟨hsound _ hcontinues.sound, ?_, ?_⟩
        · simp only [InputSession.ids, List.flatMap_append, List.flatMap_cons,
            hcontinues.ids, hidentities]
          exact hcensus
        · rw [hidentities]
          exact h.distinct
      | enters messageId hfresh hidentities howner hlater hids =>
        refine ⟨hsound _ howner, ?_, ?_⟩
        · simp only [InputSession.ids, List.flatMap_append, List.flatMap_cons, hids,
            hidentities]
          refine List.Perm.trans ?_ (hcensus.append_right [messageId])
          simp only [List.append_assoc]
          refine List.Perm.append_left _ (List.Perm.append_left _ ?_)
          exact List.perm_append_comm
        · rw [hidentities]
          refine List.nodup_append.2 ⟨h.distinct, List.nodup_singleton _, ?_⟩
          intro a ha b hb heq
          rw [List.mem_singleton] at hb
          exact hfresh (hb ▸ heq ▸ ha)

theorem Sound.run (h : s.Sound) (events : List SessionEvent) : (s.run events).Sound :=
  Machine.run_invariant InputSession.step (P := Sound) (fun _ event hs => Sound.step hs event) h
    events

/-- An owner stays in its place, and later events leave of it what they may. -/
theorem Sound.later (h : s.Sound) (events : List SessionEvent) :
    ∀ (i : Nat) (o : InputOwner), s.owners[i]? = some o →
      ∃ o', (s.run events).owners[i]? = some o' ∧ o.Later o' := by
  refine Machine.run_related (P := Sound)
    (R := fun s s' : InputSession => ∀ (i : Nat) (o : InputOwner), s.owners[i]? = some o →
      ∃ o', s'.owners[i]? = some o' ∧ o.Later o')
    (fun s i o ho => ⟨o, ho, .refl o⟩) (fun s t u hst htu i o ho => ?_)
    (fun s event hs => Sound.step hs event) (fun s event hs i o ho => ?_) h events
  · obtain ⟨o', ho', hlater⟩ := hst i o ho
    obtain ⟨o'', ho'', hlater'⟩ := htu i o' ho'
    exact ⟨o'', ho'', hlater.trans hlater'⟩
  · cases event with
    | execution support turnId =>
      refine ⟨o, ?_, .refl o⟩
      simp only [InputSession.step]
      rw [List.getElem?_append_left (List.getElem?_eq_some_iff.1 ho).1]
      exact ho
    | owner j event =>
      cases hj : s.owners[j]? with
      | none =>
        simp only [InputSession.step, hj]
        exact ⟨o, ho, .refl o⟩
      | some owner =>
        simp only [InputSession.step, hj, List.getElem?_set]
        by_cases hij : j = i
        · subst hij
          have howner : owner = o := by
            rw [hj, Option.some.injEq] at ho
            exact ho
          subst howner
          rw [if_pos rfl, if_pos (List.getElem?_eq_some_iff.1 hj).1]
          have hmem : owner ∈ s.owners := List.mem_of_getElem? hj
          refine ⟨_, rfl, ?_⟩
          cases InputOwner.step_cases (hs.owners owner hmem) (ids_of_mem hs hmem) event with
          | continues _ hcontinues => exact hcontinues.later
          | enters _ _ _ _ hlater _ => exact hlater
        · rw [if_neg hij]
          exact ⟨o, ho, .refl o⟩

end InputSession

/-! ## Ownership of input -/

/-- An owner within its limits: what it counts is what is live, and a message is
released only when its own invocation has ended. -/
structure InputOwner.Within (o : InputOwner) : Prop where
  outstanding : o.messages.length ≤ o.support.limits.maxOutstandingMessages
  entered : o.enteredMessages = o.sends.length
  total : o.enteredMessages ≤ o.support.limits.maxMessagesPerExecution
  messages : o.messages = (o.sends.filter Send.live).map Send.messageId
  retained : o.retainedBytes = (((o.sends.filter Send.live).map Send.bytes).sum : Nat)
  buffered : o.retainedBytes ≤ o.support.limits.maxBufferedBytes
  receipts : ∀ send ∈ o.sends, send.receipts.length ≤ 1
  released : ∀ send ∈ o.sends, send.live = false → send.stage.ending?.isSome = true

/-- What every later state of an owner keeps: receipts and settlements given, a
closed admission, and the fence and the ownership that doubt has raised. -/
structure InputOwner.Keeps (o o' : InputOwner) : Prop where
  sends : ∀ (k : Nat) (send : Send), o.sends[k]? = some send →
    ∃ send', o'.sends[k]? = some send' ∧ send'.messageId = send.messageId ∧
      send.receipts <+: send'.receipts ∧
      ∀ outcome, send.observation = some outcome → send'.observation = some outcome
  closed : o.mayAccept = false → o'.mayAccept = false ∧ o'.sends.length = o.sends.length
  doubtful : ∀ send ∈ o.sends, send.doubtful = true →
    o'.fenced = true ∧ o'.mayAccept = false ∧ o'.retainsOwnership = true

theorem InputOwner.Sound.within {o : InputOwner} (h : o.Sound) : o.Within := by
  have hmessages : o.messages = (o.sends.filter Send.live).map Send.messageId := by
    rw [h.ledger.messages, accounts, List.filter_map, List.map_map]
    rfl
  have hretained : o.retainedBytes = (((o.sends.filter Send.live).map Send.bytes).sum : Nat) := by
    rw [h.ledger.retained, accounts, List.filter_map, List.map_map]
    rfl
  have hentered := h.ledger.entered
  rw [accounts, List.length_map] at hentered
  exact ⟨h.ledger.outstanding, hentered, h.ledger.total, hmessages, hretained, h.ledger.buffered,
    fun send hsend => (h.sends send hsend).receipts, fun send hsend => (h.sends send hsend).held⟩

theorem InputOwner.Sound.keeps {o o' : InputOwner} (h : o.Sound) (h' : o'.Sound)
    (hlater : o.Later o') : o.Keeps o' := by
  refine ⟨fun k send hk => ?_, hlater.closed, fun send hsend hd => ?_⟩
  · obtain ⟨send', hk', hevolves⟩ := hlater.sends k send hk
    exact ⟨send', hk', hevolves.messageId, hevolves.receipts, hevolves.observation⟩
  · have hdoubtful : o'.doubtful = true := by
      have hbefore := h.doubt send hsend hd
      simp only [InputOwner.doubtful, Bool.or_eq_true] at hbefore ⊢
      exact hbefore.imp hlater.uncertain hlater.failure
    have hfence := h'.fence hdoubtful
    refine ⟨hfence.1, hfence.2, ?_⟩
    simp only [InputOwner.doubtful] at hdoubtful
    simp [InputOwner.retainsOwnership, hdoubtful]

/-- Whatever the order of sends, receipts, settlements, closings and drains: no
identity enters a session generation twice, every owner stays within its limits,
closing and draining end admission, and every later state keeps what callers
have been given and what doubt has raised. -/
theorem execution_input_owned (events : List SessionEvent) :
    (InputSession.run {} events).ids.Nodup ∧
    (∀ o ∈ (InputSession.run {} events).owners, o.Within) ∧
    (∀ (o : InputOwner) (reason : Option UnconfirmedReason),
      (o.closeAdmission reason).mayAccept = false ∧ o.drain.mayAccept = false) ∧
    ∀ (i : Nat) (o : InputOwner) (more : List SessionEvent),
      (InputSession.run {} events).owners[i]? = some o →
      ∃ o', ((InputSession.run {} events).run more).owners[i]? = some o' ∧ o.Keeps o' := by
  have hsound : (InputSession.run {} events).Sound := InputSession.sound_empty.run events
  refine ⟨hsound.census.nodup_iff.2 hsound.distinct, fun o ho => (hsound.owners o ho).within,
    fun o reason => ⟨InputOwner.closeAdmission_closed o reason, rfl⟩, fun i o more ho => ?_⟩
  obtain ⟨o', ho', hlater⟩ := hsound.later more i o ho
  have hbefore := hsound.owners o (List.mem_of_getElem? ho)
  have hafter := (hsound.run more).owners o' (List.mem_of_getElem? ho')
  exact ⟨o', ho', hbefore.keeps hafter hlater⟩

/-- A provider that answers one message with uncertainty. -/
def sampleUncertain : List SessionEvent :=
  [.execution ⟨⟨2, 16, 1048576⟩, true⟩ (js "t"), .owner 0 .attach,
    .owner 0 (.send ⟨js "m", [js "go"], none⟩ true), .owner 0 (.invoked 0 false false),
    .owner 0 (.receipt 0 (some (.deliveryUncertain (js "m"))) false)]

/-- A message whose delivery is uncertain does not stay in the ledger: the
provider's own answer releases it and its bytes. -/
theorem uncertain_message_released :
    ¬∀ events, ∀ o ∈ (InputSession.run {} events).owners, ∀ send ∈ o.sends,
      send.doubtful = true → o.fenced = true ∧ send.live = true ∧ send.bytes ≤ o.retainedBytes := by
  intro h
  exact absurd (h sampleUncertain) (by decide)

end AgentSdk.Runtime
