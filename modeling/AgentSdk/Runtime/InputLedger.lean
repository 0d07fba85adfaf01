import AgentSdk.Runtime.ExecutionInput

/-!
# The ledger of an input owner

What one owner keeps true between two of its continuations, and what each of
the small changes they are made of does to it.  The counters of an owner only
depend on the identity, the bytes and the liveness of its sends (`Account`);
most changes keep these.

## Main results

* `Ledger.finish` — an entry leaves the ledger with its bytes, once.
* `fail_sound`, `fenceUncertainty_sound` — doubt fences the session and closes
  admission.
* `answer_sound`, `finish_sound` — a doubtful receipt or end needs a doubtful
  owner.
-/

namespace AgentSdk.Runtime

open AgentSdk.Text

/-! ## What an owner keeps true -/

/-- What the ledger reads of a send. -/
structure Account where
  messageId : JsString
  bytes : Nat
  live : Bool

/-- The part of a send the ledger reads. -/
def Send.account (send : Send) : Account := ⟨send.messageId, send.bytes, send.live⟩

namespace InputOwner

/-- The accounts of the sends, in the order they entered. -/
def accounts (o : InputOwner) : List Account := o.sends.map Send.account

/-- The counters agree with the live sends and stay within the limits. -/
structure Ledger (o : InputOwner) : Prop where
  distinct : (o.accounts.map Account.messageId).Nodup
  entered : o.enteredMessages = o.accounts.length
  messages : o.messages = (o.accounts.filter Account.live).map Account.messageId
  retained : o.retainedBytes = (((o.accounts.filter Account.live).map Account.bytes).sum : Nat)
  total : o.enteredMessages ≤ o.support.limits.maxMessagesPerExecution
  outstanding : o.messages.length ≤ o.support.limits.maxOutstandingMessages
  buffered : o.retainedBytes ≤ o.support.limits.maxBufferedBytes

/-- Two states the ledger does not tell apart. -/
structure SameLedger (o o' : InputOwner) : Prop where
  accounts : o'.accounts = o.accounts
  messages : o'.messages = o.messages
  entered : o'.enteredMessages = o.enteredMessages
  retained : o'.retainedBytes = o.retainedBytes
  support : o'.support = o.support

theorem SameLedger.refl (o : InputOwner) : o.SameLedger o := ⟨rfl, rfl, rfl, rfl, rfl⟩

variable {o : InputOwner}

theorem SameLedger.trans {o' o'' : InputOwner} (h : o.SameLedger o') (h' : o'.SameLedger o'') :
    o.SameLedger o'' :=
  ⟨h'.accounts.trans h.accounts, h'.messages.trans h.messages, h'.entered.trans h.entered,
    h'.retained.trans h.retained, h'.support.trans h.support⟩

theorem Ledger.same {o' : InputOwner} (h : o.Ledger) (hsame : o.SameLedger o') : o'.Ledger := by
  obtain ⟨haccounts, hmessages, hentered, hretained, hsupport⟩ := hsame
  refine ⟨?_, ?_, ?_, ?_, ?_, ?_, ?_⟩
  · rw [haccounts]
    exact h.distinct
  · rw [haccounts, hentered]
    exact h.entered
  · rw [haccounts, hmessages]
    exact h.messages
  · rw [haccounts, hretained]
    exact h.retained
  · rw [hentered, hsupport]
    exact h.total
  · rw [hmessages, hsupport]
    exact h.outstanding
  · rw [hretained, hsupport]
    exact h.buffered

theorem modify_map {α β : Type} {f : α → α} {g : α → β} (h : ∀ a, g (f a) = g a) (k : Nat)
    (l : List α) : (l.modify k f).map g = l.map g := by
  induction l generalizing k with
  | nil => simp
  | cons a l ih =>
    cases k with
    | zero => simp [h]
    | succ k => simp [ih]

theorem onSend_same {change : Send → Send} (h : ∀ send, (change send).account = send.account)
    (k : Nat) : o.SameLedger (o.onSend k change) :=
  ⟨modify_map h k o.sends, rfl, rfl, rfl, rfl⟩

theorem answer_same (o : InputOwner) (k : Nat) (receipt : SendReceipt) :
    o.SameLedger (o.answer k receipt) := by
  refine onSend_same (fun send => ?_) k
  split
  · rfl
  · rfl

theorem closeAdmission_same (o : InputOwner) (reason : Option UnconfirmedReason) :
    o.SameLedger (o.closeAdmission reason) := by
  unfold closeAdmission
  split
  · exact .refl o
  · cases reason with
    | none => exact ⟨rfl, rfl, rfl, rfl, rfl⟩
    | some reason =>
      refine ⟨?_, rfl, rfl, rfl, rfl⟩
      simp only [InputOwner.accounts, List.map_map]
      refine List.map_congr_left fun send _ => ?_
      simp only [Function.comp]
      split
      · rfl
      · rfl

theorem fail_same (o : InputOwner) : o.SameLedger o.fail := by
  have hflag : o.SameLedger { o with failure := true, fenced := true } :=
    ⟨rfl, rfl, rfl, rfl, rfl⟩
  exact hflag.trans (closeAdmission_same _ _)

theorem fenceUncertainty_same (o : InputOwner) : o.SameLedger o.fenceUncertainty := by
  have hflag : o.SameLedger { o with uncertain := true, fenced := true } :=
    ⟨rfl, rfl, rfl, rfl, rfl⟩
  exact hflag.trans (closeAdmission_same _ _)

theorem lost_same (o : InputOwner) (k : Nat) : o.SameLedger (o.lost k) := by
  unfold lost
  split
  · split
    · exact (fenceUncertainty_same o).trans (answer_same _ _ _)
    · exact .refl o
  · exact .refl o

theorem deliver_same (o : InputOwner) (k : Nat) (receipt : SendReceipt) (late : Bool) :
    o.SameLedger (o.deliver k receipt late) := by
  unfold deliver
  split
  · exact lost_same o k
  · exact answer_same o k receipt

/-- The entry of a live send leaves the ledger with its bytes. -/
theorem Ledger.finish (h : o.Ledger) (k : Nat) (stage : Stage) : (o.finish k stage).Ledger := by
  unfold InputOwner.finish
  split
  · exact h
  · rename_i send hk
    by_cases hsettled : send.phase = .settled
    · rw [if_pos hsettled]
      have hsame : o.SameLedger (o.onSend k fun send => { send with stage }) :=
        onSend_same (by intro _; rfl) k
      exact h.same hsame
    · rw [if_neg hsettled]
      have hlt : k < o.sends.length := (List.getElem?_eq_some_iff.1 hk).1
      obtain ⟨before, send', after, hsends, hlength, hmodify⟩ := List.exists_of_modify
        (fun send : Send => { send with phase := .settled, stage }) hlt
      have hsend : send' = send := by
        rw [hsends, ← hlength] at hk
        simpa using hk
      rw [hsend] at hsends hmodify
      have hlive : send.live = true := by simp [Send.live, hsettled]
      have haccounts : o.accounts = before.map Send.account ++ send.account ::
          after.map Send.account := by
        rw [accounts, hsends]
        simp
      have hdistinct := h.distinct
      have hmessages := h.messages
      have hretained := h.retained
      have hout := h.outstanding
      have hbuffered := h.buffered
      rw [haccounts] at hdistinct hmessages hretained
      have hothers : ∀ a ∈ before.map Send.account ++ after.map Send.account,
          a.messageId ≠ send.messageId := by
        intro a ha heq
        simp only [List.map_append, List.map_cons, List.nodup_append, List.nodup_cons] at hdistinct
        rw [List.mem_append] at ha
        rcases ha with ha | ha
        · exact hdistinct.2.2 _ (List.mem_map_of_mem ha) _ List.mem_cons_self heq
        · have hmem : a.messageId ∈ (after.map Send.account).map Account.messageId :=
            List.mem_map_of_mem ha
          rw [heq] at hmem
          exact hdistinct.2.1.1 hmem
      have hremoved : (o.messages.filter (· ≠ send.messageId)) =
          ((before.map Send.account ++ after.map Send.account).filter Account.live).map
            Account.messageId := by
        have hkeep : ∀ l : List Account, (∀ a ∈ l, a.messageId ≠ send.messageId) →
            ((l.filter Account.live).map Account.messageId).filter (· ≠ send.messageId) =
              (l.filter Account.live).map Account.messageId := by
          intro l hl
          refine List.filter_eq_self.2 fun id hid => ?_
          obtain ⟨a, ha, rfl⟩ := List.mem_map.1 hid
          simpa using hl a (List.mem_filter.1 ha).1
        have hbefore := hkeep (before.map Send.account) fun a ha =>
          hothers a (List.mem_append_left _ ha)
        have hafter := hkeep (after.map Send.account) fun a ha =>
          hothers a (List.mem_append_right _ ha)
        rw [hmessages]
        simp only [List.filter_append, List.map_append, hbefore, List.filter_cons,
          show send.account.live = true from hlive, if_true, List.map_cons, hafter]
        simp [Send.account]
      have hnew : (({ o.onSend k fun send => { send with phase := .settled, stage } with
          messages := o.messages.filter (· ≠ send.messageId)
          retainedBytes := o.retainedBytes - send.bytes } : InputOwner)).accounts =
          before.map Send.account ++ ⟨send.messageId, send.bytes, false⟩ ::
            after.map Send.account := by
        simp only [accounts, onSend, hmodify]
        simp [Send.account, Send.live]
      have hfilter : ∀ a : Account, a.live = false →
          (before.map Send.account ++ a :: after.map Send.account).filter Account.live =
            (before.map Send.account ++ after.map Send.account).filter Account.live := by
        intro a ha
        simp [List.filter_append, ha]
      refine ⟨?_, ?_, ?_, ?_, ?_, ?_, ?_⟩
      · rw [hnew]
        simpa [Send.account] using hdistinct
      · rw [hnew]
        show o.enteredMessages = _
        rw [h.entered, haccounts]
        simp
      · rw [hnew, hfilter _ rfl]
        exact hremoved
      · rw [hnew, hfilter _ rfl]
        rw [hretained]
        simp only [List.filter_append, List.filter_cons, show send.account.live = true from hlive,
          if_true, List.map_append, List.map_cons, List.sum_append, List.sum_cons]
        simp only [Send.account]
        omega
      · exact h.total
      · exact Nat.le_trans (List.length_filter_le _ _) hout
      · show o.retainedBytes - send.bytes ≤ (o.support.limits.maxBufferedBytes : Int)
        omega

end InputOwner

/-! ### Sends and fences -/

/-- A receipt that vouches for nothing. -/
def SendReceipt.doubtful : SendReceipt → Bool
  | .accepted | .rejected => false
  | .deliveryUncertain | .failed => true

/-- An end of an invocation that leaves its message uncertain or uncorrelated. -/
def Ending.doubtful : Ending → Bool
  | .rejected => false
  | .uncertain | .failed => true
  | .settled outcome => decide (outcome = .unconfirmed .correlationLost)

/-- How the invocation of a send ended, if it has. -/
def Stage.ending? : Stage → Option Ending
  | .ended ending | .gone ending => some ending
  | .invoking | .awaitingReceipt | .awaitingSettlement => none

/-- A send whose receipt or whose invocation left it uncertain or uncorrelated. -/
def Send.doubtful (send : Send) : Bool :=
  send.receipts.any SendReceipt.doubtful || send.stage.ending?.any Ending.doubtful

/-- A send has one receipt at most, and its entry is released only when its
invocation has ended. -/
structure Send.Sound (send : Send) : Prop where
  receipts : send.receipts.length ≤ 1
  waiting : send.waiting = true → send.receipts = []
  held : send.live = false → send.stage.ending?.isSome = true

/-- Could the owner still accept a message? -/
def InputOwner.mayAccept (o : InputOwner) : Bool :=
  match o.phase with
  | .reserved | .accepting => true
  | .closing _ | .draining _ | .settled => false

/-- Uncertain or uncorrelated. -/
def InputOwner.doubtful (o : InputOwner) : Bool := o.uncertain || o.failure

/-- What an owner keeps true between two events. -/
structure InputOwner.Sound (o : InputOwner) : Prop where
  ledger : o.Ledger
  sends : ∀ send ∈ o.sends, send.Sound
  doubt : ∀ send ∈ o.sends, send.doubtful = true → o.doubtful = true
  fence : o.doubtful = true → o.fenced = true ∧ o.mayAccept = false

/-- What later events leave of a send. -/
structure Send.Evolves (send send' : Send) : Prop where
  messageId : send'.messageId = send.messageId
  bytes : send'.bytes = send.bytes
  receipts : send.receipts <+: send'.receipts
  observation : ∀ outcome, send.observation = some outcome → send'.observation = some outcome
  live : send'.live = true → send.live = true

/-- What later events leave of an owner: a closed one enters no message. -/
structure InputOwner.Later (o o' : InputOwner) : Prop where
  support : o'.support = o.support
  uncertain : o.uncertain = true → o'.uncertain = true
  failure : o.failure = true → o'.failure = true
  fenced : o.fenced = true → o'.fenced = true
  closed : o.mayAccept = false → o'.mayAccept = false ∧ o'.sends.length = o.sends.length
  sends : ∀ (k : Nat) (send : Send), o.sends[k]? = some send →
    ∃ send', o'.sends[k]? = some send' ∧ send.Evolves send'

theorem Send.Evolves.refl (send : Send) : send.Evolves send :=
  ⟨rfl, rfl, List.prefix_rfl, fun _ h => h, id⟩

theorem Send.Evolves.trans {s s' s'' : Send} (h : s.Evolves s') (h' : s'.Evolves s'') :
    s.Evolves s'' :=
  ⟨h'.messageId.trans h.messageId, h'.bytes.trans h.bytes, h.receipts.trans h'.receipts,
    fun outcome ho => h'.observation outcome (h.observation outcome ho),
    fun hlive => h.live (h'.live hlive)⟩

theorem Send.Evolves.observe (send : Send) (outcome : ExecutionInputOutcome) :
    send.Evolves (send.observe outcome) := by
  refine ⟨rfl, rfl, List.prefix_rfl, fun first hfirst => ?_, id⟩
  show (send.observation <|> some outcome) = some first
  rw [hfirst]
  rfl

namespace InputOwner

theorem Later.refl (o : InputOwner) : o.Later o :=
  ⟨rfl, id, id, id, fun h => ⟨h, rfl⟩, fun _ send h => ⟨send, h, .refl send⟩⟩

variable {o : InputOwner} {change : Send → Send}

theorem Later.trans {o' o'' : InputOwner} (h : o.Later o') (h' : o'.Later o'') : o.Later o'' := by
  refine ⟨h'.support.trans h.support, fun hu => h'.uncertain (h.uncertain hu),
    fun hf => h'.failure (h.failure hf), fun hf => h'.fenced (h.fenced hf), fun hclosed => ?_,
    fun k send hk => ?_⟩
  · have hfirst := h.closed hclosed
    have hsecond := h'.closed hfirst.1
    exact ⟨hsecond.1, hsecond.2.trans hfirst.2⟩
  · obtain ⟨send', hk', hevolves⟩ := h.sends k send hk
    obtain ⟨send'', hk'', hevolves'⟩ := h'.sends k send' hk'
    exact ⟨send'', hk'', hevolves.trans hevolves'⟩

/-! ### Single changes -/

theorem mem_onSend {k : Nat} {send' : Send} (h : send' ∈ (o.onSend k change).sends) :
    send' ∈ o.sends ∨ ∃ send, o.sends[k]? = some send ∧ send ∈ o.sends ∧ send' = change send := by
  obtain ⟨j, hj⟩ := List.mem_iff_getElem?.1 h
  simp only [onSend, List.getElem?_modify] at hj
  obtain ⟨send, hsend, heq⟩ := Option.map_eq_some_iff.1 hj
  by_cases hjk : k = j
  · rw [if_pos hjk] at heq
    exact Or.inr ⟨send, hjk ▸ hsend, List.mem_of_getElem? hsend, heq.symm⟩
  · rw [if_neg hjk] at heq
    exact Or.inl (heq ▸ List.mem_of_getElem? hsend)

theorem onSend_later (h : ∀ send : Send, send.Evolves (change send)) (k : Nat) :
    o.Later (o.onSend k change) := by
  refine ⟨rfl, id, id, id, fun hclosed => ⟨hclosed, List.length_modify ..⟩, fun j send hj => ?_⟩
  refine ⟨if k = j then change send else send, ?_, ?_⟩
  · simp only [onSend, List.getElem?_modify, hj]
    split
    · rfl
    · rfl
  · split
    · exact h send
    · exact .refl send

/-- A change of one send that keeps its account. -/
theorem onSend_sound {k : Nat} (h : o.Sound)
    (haccount : ∀ send, (change send).account = send.account)
    (hsound : ∀ send, o.sends[k]? = some send → send.Sound → (change send).Sound)
    (hdoubt : ∀ send, o.sends[k]? = some send → (change send).doubtful = true →
      send.doubtful = true ∨ o.doubtful = true) : (o.onSend k change).Sound := by
  refine ⟨h.ledger.same (onSend_same haccount k), fun send' hmem => ?_, fun send' hmem hd => ?_,
    h.fence⟩
  · obtain hold | ⟨send, hk, hsend, rfl⟩ := mem_onSend hmem
    · exact h.sends send' hold
    · exact hsound send hk (h.sends send hsend)
  · obtain hold | ⟨send, hk, hsend, rfl⟩ := mem_onSend hmem
    · exact h.doubt send' hold hd
    · exact (hdoubt send hk hd).elim (h.doubt send hsend) id

theorem closeAdmission_closed (o : InputOwner) (reason : Option UnconfirmedReason) :
    (o.closeAdmission reason).mayAccept = false := by
  unfold closeAdmission
  split
  · rename_i hsettled
    simp [mayAccept, hsettled]
  · rename_i hsettled
    cases reason with
    | none | some reason =>
      cases hphase : o.phase with
      | closing reason | draining reason => cases reason <;> simp [mayAccept]
      | settled => exact absurd hphase hsettled
      | reserved | accepting => simp [mayAccept]

/-- Closing admission only observes messages. -/
theorem closeAdmission_sends (o : InputOwner) (reason : Option UnconfirmedReason) :
    ∃ change : Send → Send,
      (∀ send, change send = send ∨ ∃ outcome, change send = send.observe outcome) ∧
      (o.closeAdmission reason).sends = o.sends.map change := by
  unfold closeAdmission
  split
  · exact ⟨id, fun _ => Or.inl rfl, by simp⟩
  · cases reason with
    | none => exact ⟨id, fun _ => Or.inl rfl, by simp⟩
    | some reason =>
      refine ⟨fun send => if send.live then send.observe (.unconfirmed reason) else send,
        fun send => ?_, rfl⟩
      dsimp only
      split
      · exact Or.inr ⟨_, rfl⟩
      · exact Or.inl rfl

theorem closeAdmission_flags (o : InputOwner) (reason : Option UnconfirmedReason) :
    (o.closeAdmission reason).support = o.support ∧
      (o.closeAdmission reason).uncertain = o.uncertain ∧
      (o.closeAdmission reason).failure = o.failure ∧
      (o.closeAdmission reason).fenced = o.fenced := by
  unfold closeAdmission
  split
  · exact ⟨rfl, rfl, rfl, rfl⟩
  · cases reason with
    | none | some => exact ⟨rfl, rfl, rfl, rfl⟩

theorem closeAdmission_later (o : InputOwner) (reason : Option UnconfirmedReason) :
    o.Later (o.closeAdmission reason) := by
  obtain ⟨hsupport, huncertain, hfailure, hfenced⟩ := closeAdmission_flags o reason
  obtain ⟨change, hchange, hsends⟩ := closeAdmission_sends o reason
  refine ⟨hsupport, fun h => huncertain.trans h, fun h => hfailure.trans h,
    fun h => hfenced.trans h, fun _ => ⟨closeAdmission_closed o reason, ?_⟩, fun k send hk => ?_⟩
  · rw [hsends, List.length_map]
  · refine ⟨change send, by rw [hsends, List.getElem?_map, hk]; rfl, ?_⟩
    obtain heq | ⟨outcome, heq⟩ := hchange send
    · rw [heq]
      exact .refl send
    · rw [heq]
      exact .observe send outcome

theorem closeAdmission_mem {reason : Option UnconfirmedReason} {send' : Send}
    (h : send' ∈ (o.closeAdmission reason).sends) :
    ∃ send ∈ o.sends, (send.Sound → send'.Sound) ∧ send'.doubtful = send.doubtful := by
  obtain ⟨change, hchange, hsends⟩ := closeAdmission_sends o reason
  rw [hsends] at h
  obtain ⟨send, hsend, rfl⟩ := List.mem_map.1 h
  refine ⟨send, hsend, ?_⟩
  obtain heq | ⟨outcome, heq⟩ := hchange send
  · rw [heq]
    exact ⟨id, rfl⟩
  · rw [heq]
    exact ⟨fun hs => ⟨hs.receipts, hs.waiting, hs.held⟩, rfl⟩

theorem closeAdmission_sound (h : o.Sound) (reason : Option UnconfirmedReason) :
    (o.closeAdmission reason).Sound := by
  obtain ⟨-, huncertain, hfailure, hfenced⟩ := closeAdmission_flags o reason
  have hdoubtful : (o.closeAdmission reason).doubtful = o.doubtful := by
    rw [InputOwner.doubtful, huncertain, hfailure, InputOwner.doubtful]
  refine ⟨h.ledger.same (closeAdmission_same o reason), fun send' hmem => ?_,
    fun send' hmem hd => ?_, fun hd => ?_⟩
  · obtain ⟨send, hsend, hsound, -⟩ := closeAdmission_mem hmem
    exact hsound (h.sends send hsend)
  · obtain ⟨send, hsend, -, heq⟩ := closeAdmission_mem hmem
    rw [hdoubtful]
    exact h.doubt send hsend (heq ▸ hd)
  · rw [hdoubtful] at hd
    exact ⟨hfenced.trans (h.fence hd).1, closeAdmission_closed o reason⟩

/-- What raising a flag and closing admission establish. -/
theorem fenced_sound {flagged : InputOwner} (h : o.Sound) (hsends : flagged.sends = o.sends)
    (hsame : o.SameLedger flagged) (hfenced : flagged.fenced = true)
    (hdoubtful : flagged.doubtful = true) :
    (flagged.closeAdmission (some .correlationLost)).Sound ∧
      (flagged.closeAdmission (some .correlationLost)).doubtful = true := by
  obtain ⟨-, huncertain, hfailure, hfence⟩ :=
    closeAdmission_flags flagged (some .correlationLost)
  have hd : (flagged.closeAdmission (some .correlationLost)).doubtful = true := by
    rw [InputOwner.doubtful, huncertain, hfailure]
    exact hdoubtful
  refine ⟨⟨h.ledger.same (hsame.trans (closeAdmission_same _ _)), fun send' hmem => ?_,
    fun _ _ _ => hd, fun _ => ⟨hfence.trans hfenced, closeAdmission_closed _ _⟩⟩, hd⟩
  obtain ⟨send, hsend, hsound, -⟩ := closeAdmission_mem hmem
  exact hsound (h.sends send (hsends ▸ hsend))

theorem fail_sound (h : o.Sound) : o.fail.Sound ∧ o.fail.doubtful = true := by
  refine fenced_sound h rfl ⟨rfl, rfl, rfl, rfl, rfl⟩ rfl ?_
  simp [InputOwner.doubtful]

theorem fenceUncertainty_sound (h : o.Sound) :
    o.fenceUncertainty.Sound ∧ o.fenceUncertainty.doubtful = true := by
  refine fenced_sound h rfl ⟨rfl, rfl, rfl, rfl, rfl⟩ rfl ?_
  simp [InputOwner.doubtful]

theorem fail_later (o : InputOwner) : o.Later o.fail := by
  have hflag : o.Later { o with failure := true, fenced := true } :=
    ⟨rfl, id, fun _ => rfl, fun _ => rfl, fun h => ⟨h, rfl⟩, fun _ send h => ⟨send, h, .refl send⟩⟩
  exact hflag.trans (closeAdmission_later _ _)

theorem fenceUncertainty_later (o : InputOwner) : o.Later o.fenceUncertainty := by
  have hflag : o.Later { o with uncertain := true, fenced := true } :=
    ⟨rfl, fun _ => rfl, id, fun _ => rfl, fun h => ⟨h, rfl⟩, fun _ send h => ⟨send, h, .refl send⟩⟩
  exact hflag.trans (closeAdmission_later _ _)

theorem answer_later (o : InputOwner) (k : Nat) (receipt : SendReceipt) :
    o.Later (o.answer k receipt) := by
  refine onSend_later (fun send => ?_) k
  split
  · exact ⟨rfl, rfl, List.prefix_append _ _, fun _ h => h, id⟩
  · exact .refl send

/-- A doubtful receipt needs a doubtful owner. -/
theorem answer_sound (h : o.Sound) (k : Nat) {receipt : SendReceipt}
    (hreceipt : receipt.doubtful = true → o.doubtful = true) : (o.answer k receipt).Sound := by
  refine onSend_sound h (fun send => ?_) (fun send _ hs => ?_) (fun send hk hd => ?_)
  · split
    · rfl
    · rfl
  · split
    · rename_i hwaiting
      refine ⟨?_, fun hfalse => absurd hfalse (by simp), hs.held⟩
      simp [hs.waiting hwaiting]
    · exact hs
  · split at hd
    · rename_i hwaiting
      have hnone := (h.sends send (List.mem_of_getElem? hk)).waiting hwaiting
      simp only [Send.doubtful, hnone, List.nil_append, List.any_cons, List.any_nil, Bool.or_false,
        Bool.or_eq_true] at hd ⊢
      exact hd.elim (fun hr => Or.inr (hreceipt hr)) fun he => Or.inl (Or.inr he)
    · exact Or.inl hd

theorem lost_later (o : InputOwner) (k : Nat) : o.Later (o.lost k) := by
  unfold lost
  split
  · split
    · exact (fenceUncertainty_later o).trans (answer_later _ _ _)
    · exact .refl o
  · exact .refl o

theorem lost_sound (h : o.Sound) (k : Nat) : (o.lost k).Sound := by
  unfold lost
  split
  · split
    · exact answer_sound (fenceUncertainty_sound h).1 k fun _ => (fenceUncertainty_sound h).2
    · exact h
  · exact h

theorem deliver_later (o : InputOwner) (k : Nat) (receipt : SendReceipt) (late : Bool) :
    o.Later (o.deliver k receipt late) := by
  unfold deliver
  split
  · exact lost_later o k
  · exact answer_later o k receipt

theorem deliver_sound (h : o.Sound) (k : Nat) {receipt : SendReceipt}
    (hreceipt : receipt.doubtful = true → o.doubtful = true) (late : Bool) :
    (o.deliver k receipt late).Sound := by
  unfold deliver
  split
  · exact lost_sound h k
  · exact answer_sound h k hreceipt

theorem finish_later (o : InputOwner) (k : Nat) (stage : Stage) : o.Later (o.finish k stage) := by
  unfold InputOwner.finish
  split
  · exact .refl o
  · split
    · exact onSend_later (by intro send; exact ⟨rfl, rfl, List.prefix_rfl, fun _ h => h, id⟩) k
    · have hchange : o.Later (o.onSend k fun send => { send with phase := .settled, stage }) :=
        onSend_later (by
          intro send
          exact ⟨rfl, rfl, List.prefix_rfl, fun _ h => h, fun h => by simp [Send.live] at h⟩) k
      exact { hchange with }

/-- An entry leaves the map when its invocation has ended. -/
theorem finish_sound (h : o.Sound) (k : Nat) {stage : Stage} {ending : Ending}
    (hstage : stage.ending? = some ending) (hending : ending.doubtful = true → o.doubtful = true) :
    (o.finish k stage).Sound := by
  have hledger := h.ledger.finish k stage
  have hdoubt : ∀ send ∈ o.sends, ∀ phase, ({ send with phase, stage } : Send).doubtful = true →
      o.doubtful = true := by
    intro send hsend phase hd
    simp only [Send.doubtful, hstage, Option.any_some, Bool.or_eq_true] at hd
    refine hd.elim (fun hr => h.doubt send hsend ?_) hending
    simp [Send.doubtful, hr]
  unfold InputOwner.finish at hledger ⊢
  split
  · exact h
  · rename_i send hk
    simp only [hk] at hledger
    by_cases hsettled : send.phase = .settled
    all_goals
      simp only [hsettled, if_true, if_false] at hledger ⊢
      refine ⟨hledger, fun send' hmem => ?_, fun send' hmem hd => ?_, h.fence⟩
      · obtain hold | ⟨send, -, hsend, rfl⟩ := mem_onSend hmem
        · exact h.sends send' hold
        · have hs := h.sends send hsend
          exact ⟨hs.receipts, hs.waiting, fun _ => by simp [hstage]⟩
      · obtain hold | ⟨send, -, hsend, rfl⟩ := mem_onSend hmem
        · exact h.doubt send' hold hd
        · exact hdoubt send hsend _ hd

end InputOwner

end AgentSdk.Runtime
