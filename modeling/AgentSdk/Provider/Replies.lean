import AgentSdk.Provider.Notices
import AgentSdk.Provider.Permissions

/-!
# One reply for every request

Every request that is admitted stays in the list of requests and collects the
settlements of its response.  A change of a request answers it at most once, and
what ends a session, a turn or a request answers all that is pending.  A reply
that carries a choice comes from a resolution of the request the turn waits for.

## Main results

* `Request.Change`, `Session.Changed` — what a step may do to requests.
* `Answering` — the invariant of a session.
* `run_faithful` — one reply for every request, and whose choice it carries.
-/

namespace AgentSdk

namespace Provider

open AgentSdk.Text

variable {Params Flow Answers Content : Type}
variable {i : Interactions Params Flow Answers Content} {s s' : Session Params Flow Answers Content}
variable {P : Request Params Flow Content → Outcome Content → Prop}

/-- The reply carries what a user chose. -/
def Outcome.choice : Outcome Content → Bool
  | .resolved (.selected _) => true
  | .resolved (.form _) => true
  | _ => false

namespace Request

/-- A request is answered once, and it is retained until then. -/
structure Once (r : Request Params Flow Content) : Prop where
  pending : r.pending = !r.answered
  outcomes : r.outcomes.length = if r.pending then 0 else 1
  retained : r.retained = false → r.pending = false

/-- The permission a request is mapped to is the one of its parameters. -/
def MappedBy (i : Interactions Params Flow Answers Content) (r : Request Params Flow Content) :
    Prop :=
  ∀ mapped permission, r.mapped = some mapped → mapped.offered = .permission permission →
    i.permission r.params = .ok permission

/-- A change of a request in a step: it is answered at most once, and every choice meets a
condition. -/
structure Change (i : Interactions Params Flow Answers Content)
    (P : Request Params Flow Content → Outcome Content → Prop)
    (r r' : Request Params Flow Content) : Prop where
  id : r'.id = r.id
  turn : r'.turn = r.turn
  bytes : r'.bytes = r.bytes
  retained : r'.retained = r.retained
  pending : r'.pending = true → r.pending = true
  once : r.Once → r'.Once
  mapped : r.MappedBy i → r'.MappedBy i
  outcomes : r.Once → r'.outcomes = r.outcomes ∨
    r.outcomes = [] ∧ ∃ outcome, r'.outcomes = [outcome] ∧ (outcome.choice = true → P r outcome)

/-- No choice is made. -/
abbrev Quiet (i : Interactions Params Flow Answers Content) (r r' : Request Params Flow Content) :
    Prop :=
  Change i (fun _ _ => False) r r'

theorem Change.refl (r : Request Params Flow Content) : Change i P r r :=
  ⟨rfl, rfl, rfl, rfl, fun h => h, fun h => h, fun h => h, fun _ => Or.inl rfl⟩

variable {r r' : Request Params Flow Content}

/-- A quiet change in front of another one. -/
theorem Quiet.before {r'' : Request Params Flow Content} (h : Quiet i r r')
    (h' : Change i (fun _ => P r) r' r'') : Change i P r r'' := by
  refine ⟨h'.id.trans h.id, h'.turn.trans h.turn, h'.bytes.trans h.bytes,
    h'.retained.trans h.retained, fun hp => h.pending (h'.pending hp),
    fun ho => h'.once (h.once ho), fun hm => h'.mapped (h.mapped hm), fun ho => ?_⟩
  rcases h'.outcomes (h.once ho) with hsame | ⟨hnil, outcome, heq, hchoice⟩
  · rcases h.outcomes ho with hsame' | ⟨hnil, outcome, heq, hchoice⟩
    · exact Or.inl (hsame.trans hsame')
    · exact Or.inr ⟨hnil, outcome, hsame.trans heq, fun hc => (hchoice hc).elim⟩
  · rcases h.outcomes ho with hsame | ⟨-, first, hfirst, -⟩
    · exact Or.inr ⟨hsame.symm.trans hnil, outcome, heq, hchoice⟩
    · rw [hnil] at hfirst
      cases hfirst

theorem Change.mono {Q : Request Params Flow Content → Outcome Content → Prop}
    (hPQ : ∀ outcome, P r outcome → Q r outcome) (h : Change i P r r') : Change i Q r r' :=
  { h with
    outcomes := fun ho => (h.outcomes ho).imp_right fun ⟨hnil, outcome, heq, hchoice⟩ =>
      ⟨hnil, outcome, heq, fun hc => hPQ outcome (hchoice hc)⟩ }

/-- A change that touches nothing but what is mapped, published, worked on or withdrawn. -/
theorem Change.plain (hid : r'.id = r.id) (hturn : r'.turn = r.turn) (hbytes : r'.bytes = r.bytes)
    (hretained : r'.retained = r.retained) (hpending : r'.pending = r.pending)
    (hanswered : r'.answered = r.answered) (houtcomes : r'.outcomes = r.outcomes)
    (hmapped : r.MappedBy i → r'.MappedBy i) : Change i P r r' := by
  refine ⟨hid, hturn, hbytes, hretained, fun h => hpending ▸ h, fun h => ?_, hmapped,
    fun _ => Or.inl houtcomes⟩
  refine ⟨?_, ?_, ?_⟩
  · rw [hpending, hanswered]
    exact h.pending
  · rw [houtcomes, hpending]
    exact h.outcomes
  · rw [hretained, hpending]
    exact h.retained

theorem release_change (outcome : Outcome Content) (r : Request Params Flow Content)
    (hchoice : outcome.choice = true → P r outcome) : Change i P r (r.release outcome) := by
  unfold release
  by_cases hopen : (r.pending && !r.answered) = true
  · rw [if_pos hopen]
    rw [Bool.and_eq_true] at hopen
    have hnone : r.Once → r.outcomes = [] := fun h => by
      have houtcomes := h.outcomes
      rw [hopen.1, if_pos rfl] at houtcomes
      exact List.length_eq_zero_iff.1 houtcomes
    refine ⟨rfl, rfl, rfl, rfl, nofun, fun h => ?_, fun h => h, fun h => ?_⟩
    · exact ⟨rfl, by simp [hnone h], fun _ => rfl⟩
    · exact Or.inr ⟨hnone h, outcome, by simp [hnone h], hchoice⟩
  · rw [if_neg hopen]
    exact Change.refl r

theorem answer_change (reply : Reply Content) (r : Request Params Flow Content)
    (hchoice : r.canAnswer = true → (Outcome.resolved reply).choice = true →
      P r (.resolved reply)) : Change i P r (r.answer reply) := by
  unfold answer
  by_cases hcan : r.canAnswer = true
  · rw [if_pos hcan]
    exact release_change _ r (hchoice hcan)
  · rw [if_neg hcan]
    exact Change.refl r

theorem cancel_change (r : Request Params Flow Content) : Change i P r r.cancel :=
  release_change _ r fun h => by cases h

/-- A canceled request is no longer pending. -/
theorem Once.cancel (h : r.Once) : r.cancel.pending = false := by
  unfold Request.cancel release
  by_cases hopen : (r.pending && !r.answered) = true
  · rw [if_pos hopen]
  · rw [if_neg hopen]
    have hpending := h.pending
    cases hanswered : r.answered with
    | true =>
      rw [hanswered] at hpending
      exact hpending
    | false =>
      rw [hanswered] at hpending
      simp [hpending, hanswered] at hopen

end Request

/-! ## Changes of a session -/

/-- What ends a turn, or the admission of requests in it. -/
def Turn.flags (turn : Turn) : Bool × Bool × Bool × Bool :=
  (turn.nativeSettled, turn.canceled, turn.terminal, turn.sourceSettled)

namespace Session

/-- A step in which requests only change, and the turn goes on as it stands. -/
structure Changed (i : Interactions Params Flow Answers Content)
    (P : Request Params Flow Content → Outcome Content → Prop)
    (s s' : Session Params Flow Answers Content) : Prop where
  requests : List.Forall₂ (Request.Change i P) s.requests s'.requests
  bytes : s'.retainedBytes = s.retainedBytes
  turns : s'.turns = s.turns
  flags : s'.turn.map Turn.flags = s.turn.map Turn.flags
  reader : s'.reader = .joining → s.reader = .joining
  usable : (∀ r ∈ s.requests, r.Once) → s'.usable = false →
    s.usable = false ∨ ∀ r ∈ s'.requests, r.pending = false

/-- A step in which no choice is made. -/
abbrev Quietly (i : Interactions Params Flow Answers Content)
    (s s' : Session Params Flow Answers Content) : Prop :=
  Changed i (fun _ _ => False) s s'

variable {α : Type} {turn : Turn}

theorem forall₂_map_mem {β : Type} {R : α → β → Prop} {f : α → β} {l : List α}
    (hf : ∀ a ∈ l, R a (f a)) : List.Forall₂ R l (l.map f) := by
  induction l with
  | nil => exact List.Forall₂.nil
  | cons a l ih =>
    exact List.Forall₂.cons (hf a List.mem_cons_self)
      (ih fun b hb => hf b (List.mem_cons_of_mem a hb))

theorem forall₂_refl {R : α → α → Prop} (hR : ∀ a, R a a) (l : List α) : List.Forall₂ R l l := by
  induction l with
  | nil => exact List.Forall₂.nil
  | cons a l ih => exact List.Forall₂.cons (hR a) ih

theorem forall₂_trans {R : α → α → Prop} (hR : ∀ a b c, R a b → R b c → R a c) {l l' l'' : List α}
    (h : List.Forall₂ R l l') (h' : List.Forall₂ R l' l'') : List.Forall₂ R l l'' := by
  induction h generalizing l'' with
  | nil =>
    cases h'
    exact List.Forall₂.nil
  | cons hab _ ih =>
    cases h' with
    | cons hbc hrest => exact List.Forall₂.cons (hR _ _ _ hab hbc) (ih hrest)

/-- The requests stay as they are. -/
theorem Changed.same (hrequests : s'.requests = s.requests)
    (hbytes : s'.retainedBytes = s.retainedBytes) (hturns : s'.turns = s.turns)
    (hflags : s'.turn.map Turn.flags = s.turn.map Turn.flags)
    (hreader : s'.reader = .joining → s.reader = .joining) (husable : s'.usable = s.usable) :
    Changed i P s s' := by
  refine ⟨?_, hbytes, hturns, hflags, hreader, fun _ h => Or.inl (husable ▸ h)⟩
  rw [hrequests]
  exact forall₂_refl Request.Change.refl s.requests

theorem Changed.refl (s : Session Params Flow Answers Content) : Changed i P s s :=
  Changed.same rfl rfl rfl rfl (fun h => h) rfl

theorem Changed.once (h : Changed i P s s') (ho : ∀ r ∈ s.requests, r.Once) :
    ∀ r ∈ s'.requests, r.Once := by
  intro r hr
  obtain ⟨before, hbefore, hchange⟩ := Orderly.mem_of_forall₂ h.requests hr
  exact hchange.once (ho before hbefore)

/-- What is not pending stays so. -/
theorem Changed.idle (h : Changed i P s s') (hidle : ∀ r ∈ s.requests, r.pending = false) :
    ∀ r ∈ s'.requests, r.pending = false := by
  intro r hr
  obtain ⟨before, hbefore, hchange⟩ := Orderly.mem_of_forall₂ h.requests hr
  cases hpending : r.pending with
  | false => rfl
  | true =>
    have hopen := hchange.pending hpending
    rw [hidle before hbefore] at hopen
    cases hopen

theorem Changed.trans {s'' : Session Params Flow Answers Content} (h : Quietly i s s')
    (h' : Quietly i s' s'') : Quietly i s s'' := by
  have hquiet : ∀ a b c : Request Params Flow Content, Request.Quiet i a b → Request.Quiet i b c →
      Request.Quiet i a c := fun _ _ _ hab hbc => hab.before hbc
  refine ⟨forall₂_trans hquiet h.requests h'.requests, h'.bytes.trans h.bytes,
    h'.turns.trans h.turns, h'.flags.trans h.flags, fun hr => h.reader (h'.reader hr),
    fun ho hend => ?_⟩
  rcases h'.usable (h.once ho) hend with hend' | hidle
  · rcases h.usable ho hend' with hend'' | hidle
    · exact Or.inl hend''
    · exact Or.inr (h'.idle hidle)
  · exact Or.inr hidle

/-- A change of one request. -/
theorem Changed.modify (id : Nat) {f : Request Params Flow Content → Request Params Flow Content}
    (hf : ∀ r ∈ s.requests, r.id = id → Request.Change i P r (f r)) :
    Changed i P s (s.modify id f) := by
  refine ⟨forall₂_map_mem fun r hr => ?_, rfl, rfl, rfl, fun h => h, fun _ h => Or.inl h⟩
  by_cases hid : r.id = id
  · rw [if_pos hid]
    exact hf r hr hid
  · rw [if_neg hid]
    exact Request.Change.refl r

theorem Changed.setTurn {turn' : Turn} (hturn : s.turn = some turn)
    (hflags : turn'.flags = turn.flags) : Changed i P s (s.setTurn turn') := by
  refine Changed.same rfl rfl rfl ?_ (fun h => h) rfl
  rw [hturn]
  exact congrArg some hflags

theorem Changed.setReader (reader : Reader) (hreader : reader ≠ .joining) :
    Changed i P s { s with reader } :=
  Changed.same rfl rfl rfl rfl (fun h => absurd h hreader) rfl

theorem Changed.setQueue (queue : SessionQueue Message) : Changed i P s { s with queue } :=
  Changed.same rfl rfl rfl rfl (fun h => h) rfl

/-! ### The end of a session -/

theorem cancelAll_idle (ho : ∀ r ∈ s.requests, r.Once) :
    ∀ r ∈ s.cancelAll.requests, r.pending = false := by
  intro r hr
  obtain ⟨before, hbefore, rfl⟩ := List.mem_map.1 hr
  exact (ho before hbefore).cancel

theorem cancelAll_requests (s : Session Params Flow Answers Content) :
    List.Forall₂ (Request.Change i P) s.requests s.cancelAll.requests :=
  forall₂_map_mem fun r _ => Request.cancel_change r

theorem fail_changed (error : SessionError) : Changed i P s (s.fail error) := by
  unfold Session.fail
  by_cases husable : s.usable = true
  · rw [if_pos husable]
    exact ⟨cancelAll_requests s, rfl, rfl, rfl, fun h => h,
      fun ho _ => Or.inr (cancelAll_idle (s := s) ho)⟩
  · rw [if_neg husable]
    exact Changed.refl s

theorem close_changed : Changed i P s s.close := by
  unfold Session.close
  by_cases hclosed : s.closed = true
  · rw [if_pos hclosed]
    exact Changed.refl s
  · rw [if_neg hclosed]
    exact ⟨cancelAll_requests s, rfl, rfl, rfl, fun h => h,
      fun ho _ => Or.inr (cancelAll_idle (s := s) ho)⟩

/-! ### Events of the peer -/

theorem admitOrFail_changed (message : Message) (bytes : Nat) :
    Changed i P s (s.admitOrFail i message bytes) := by
  unfold admitOrFail
  split
  · exact Changed.setQueue _
  · exact fail_changed _

theorem admitNotification_changed (metadata : Bool) (bytes : Nat) :
    Changed i P s (s.admitNotification i metadata bytes) := by
  unfold admitNotification
  split
  · exact Changed.refl s
  · split
    · split
      · exact Changed.refl s
      · split
        · exact Changed.same rfl rfl rfl rfl (fun h => h) rfl
        · exact Changed.refl s
    · split
      · exact Changed.refl s
      · split
        · exact Changed.refl s
        · exact admitOrFail_changed _ _

theorem bind_changed : Changed i P s s.bind := by
  unfold Session.bind
  split
  · exact Changed.refl s
  · exact Changed.same rfl rfl rfl rfl (fun h => h) rfl

theorem notify_changed (r : Request Params Flow Content) : Changed i P s (s.notify i r) := by
  unfold notify
  split
  · exact Changed.refl s
  · exact admitOrFail_changed _ _

theorem withdraw_quietly (aborted : Bool) (error : SessionError) (id : Nat) :
    Quietly i s (s.withdraw i aborted error id) := by
  unfold withdraw
  split
  · exact Changed.refl s
  · split
    · exact Changed.refl s
    · refine (Changed.modify id fun r _ _ => ?_).trans ((notify_changed _).trans
        (Changed.modify id fun r _ _ => ?_))
      · exact Request.Change.plain rfl rfl rfl rfl rfl rfl rfl fun h => h
      · exact Request.release_change _ r fun h => by cases h

theorem revoke_quietly (error : SessionError) (id : Nat) : Quietly i s (s.revoke error id) := by
  unfold revoke
  split
  · exact Changed.refl s
  · split
    · refine (Changed.modify id fun r _ _ => ?_).trans (fail_changed error)
      exact Request.Change.plain rfl rfl rfl rfl rfl rfl rfl fun h => h
    · exact Changed.refl s

theorem hostReply_changed (id : Nat) (result : Except SessionError Content) :
    Changed i P s (s.hostReply id result) := by
  unfold hostReply
  split
  · exact Changed.refl s
  · split
    · exact Changed.refl s
    · split
      · exact Changed.modify id fun r _ _ => Request.answer_change _ r fun _ h => by cases h
      · exact Changed.modify id fun r _ _ => Request.release_change _ r fun h => by cases h

theorem hostJoined_changed (id : Nat) : Changed i P s (s.hostJoined id) := by
  refine Changed.modify id fun r _ _ => ?_
  split
  · exact Request.Change.plain rfl rfl rfl rfl rfl rfl rfl fun h => h
  · exact Request.Change.refl r

theorem endWait_changed (id : Nat) : Changed i P s (s.endWait id) := by
  unfold endWait
  split
  · exact Changed.refl s
  · rename_i turn hturn
    split
    · exact Changed.setTurn hturn rfl
    · exact Changed.refl s

/-! ### The reader -/

theorem launchTurn_quietly : Quietly i s s.launchTurn := by
  unfold launchTurn
  split
  · exact Changed.refl s
  · rename_i turn hturn
    split
    · exact Changed.refl s
    · split
      · exact Changed.setReader _ (by simp)
      · have hstarted : Quietly i s (s.setTurn { turn with nativeStarted := true }) :=
          Changed.setTurn hturn rfl
        exact hstarted.trans (Changed.setReader .starting (by simp))

theorem offerRequest_quietly (id : Nat) (hturn : s.turn = some turn) :
    Quietly i s (s.offerRequest id turn) := by
  have hwait : Quietly i s (s.setTurn { turn with waiting := some id }) :=
    Changed.setTurn hturn rfl
  unfold offerRequest
  split
  · exact hwait.trans (Changed.setReader _ (by simp))
  · split
    · refine hwait.trans ((Changed.modify id fun r _ _ => ?_).trans
        (Changed.setReader _ (by simp)))
      exact Request.Change.plain rfl rfl rfl rfl rfl rfl rfl fun h => h
    · exact hwait.trans (Changed.setReader _ (by simp))

theorem offerUnlessAnswered_quietly (id : Nat) (hturn : s.turn = some turn) :
    Quietly i s (s.offerUnlessAnswered id turn) := by
  unfold offerUnlessAnswered
  split
  · exact Changed.setReader _ (by simp)
  · split
    · exact Changed.setReader _ (by simp)
    · exact offerRequest_quietly id hturn

/-- A request is mapped to a form, or to the permission of its parameters. -/
theorem mapRequest_changed (id : Nat) (offered : Offered Flow)
    (hoffered : ∀ permission, offered = .permission permission →
      ∀ r ∈ s.requests, r.id = id → i.permission r.params = .ok permission) :
    Changed i P s (s.mapRequest id offered) := by
  unfold mapRequest
  have hmodify := Changed.modify (i := i) (P := P)
    (s := { s with requestSequence := s.requestSequence + 1 }) id
    (f := fun r => { r with mapped := some { requestId := s.requestSequence + 1, offered } })
    fun r hr hid => by
      refine Request.Change.plain rfl rfl rfl rfl rfl rfl rfl fun _ mapped permission hm hp => ?_
      cases hm
      exact hoffered permission hp r hr hid
  exact { hmodify with }

theorem takeForm_quietly (tool : Bool) (id : Nat) (hturn : s.turn = some turn)
    (r : Request Params Flow Content) : Quietly i s (s.takeForm i tool id turn r) := by
  unfold takeForm
  split
  · refine (Changed.modify id fun r _ _ => ?_).trans (Changed.setReader _ (by simp))
    exact Request.release_change _ r fun h => by cases h
  · split
    · refine (Changed.modify id fun r _ _ => ?_).trans (Changed.setReader _ (by simp))
      exact Request.Change.plain rfl rfl rfl rfl rfl rfl rfl fun h => h
    · exact (mapRequest_changed id _ fun _ h => by cases h).trans
        (offerUnlessAnswered_quietly id hturn)

theorem process_quietly (tool : Bool) (hturn : s.turn = some turn) (entry : QueueEntry Message) :
    Quietly i s (s.process i tool turn entry) := by
  unfold process
  split
  · exact Changed.setReader _ (by simp)
  · exact Changed.setReader _ (by simp)
  · split
    · exact fail_changed _
    · exact Changed.setReader _ (by simp)
  · split
    · exact Changed.refl s
    · split
      · exact Changed.refl s
      · split
        · exact Changed.setReader _ (by simp)
        · exact takeForm_quietly tool _ hturn _

/-- Two requests are the same when their identities are. -/
def Distinct (s : Session Params Flow Answers Content) : Prop :=
  ∀ r ∈ s.requests, ∀ r' ∈ s.requests, r.id = r'.id → r = r'

theorem mapPermission_quietly (hd : s.Distinct) (id : Nat) (hturn : s.turn = some turn) :
    Quietly i s (s.mapPermission i id turn) := by
  unfold mapPermission
  split
  · exact Changed.setReader _ (by simp)
  · rename_i found hfound
    split
    · exact Changed.setReader _ (by simp)
    · split
      · exact fail_changed _
      · rename_i permission hpermission
        have hmapped : Quietly i s (s.mapRequest id (.permission permission)) := by
          refine mapRequest_changed id _ fun permission' heq r hr hid => ?_
          cases heq
          obtain ⟨hmem, hfoundId⟩ := mem_of_find hfound
          rw [hd r hr found hmem (hid.trans hfoundId.symm)]
          exact hpermission
        split
        · exact hmapped.trans (Changed.setReader _ (by simp))
        · exact hmapped.trans (offerUnlessAnswered_quietly id hturn)

theorem drain_quietly (tool : Bool) (hturn : s.turn = some turn) :
    Quietly i s (s.drain i tool turn) := by
  unfold drain
  split
  · rename_i next _
    have hturned : Quietly i s (s.setTurn { turn with transition := none }) :=
      Changed.setTurn hturn rfl
    exact hturned.trans (Changed.setReader (.changing next) (by simp))
  · split
    · exact Changed.refl s
    · rename_i entry _
      exact (Changed.setQueue (s.queue.taken entry)).trans
        (process_quietly (s := { s with queue := s.queue.taken entry }) tool hturn entry)

/-! ### Resolutions -/

/-- The outcome is what a resolution chose for a request. -/
inductive Chose (i : Interactions Params Flow Answers Content) (r : Request Params Flow Content) :
    Resolution Answers → Outcome Content → Prop
  | permission (mapped : MappedRequest Flow) (permission : MappedPermission)
      (option : ApprovalOption) (nativeId : JsString) (mapped_eq : r.mapped = some mapped)
      (offered : mapped.offered = .permission permission) (shown : option ∈ permission.options)
      (named : permission.nativeOptions.lookup option.optionId = some nativeId) :
      Chose i r (.selected mapped.requestId option.optionId) (.resolved (.selected nativeId))
  | form (mapped : MappedRequest Flow) (flow flow' : Flow) (resolution : Resolution Answers)
      (content : Content) (mapped_eq : r.mapped = some mapped)
      (offered : mapped.offered = .form flow) (valid : resolutionFor i mapped resolution = true)
      (resolved : i.resolve flow (resolutionAnswers resolution) = .ok (flow', some content)) :
      Chose i r resolution (.resolved (.form content))

theorem DeliversPermission.chose {id : Nat} {resolution : Resolution Answers}
    {r : Request Params Flow Content} {mapped : MappedRequest Flow} {permission : MappedPermission}
    {reply : Reply Content} (h : DeliversPermission i id resolution s r mapped permission reply)
    (hchoice : (Outcome.resolved reply).choice = true) :
    Chose i r resolution (.resolved reply) := by
  have hvalid := h.valid
  have hreply := h.reply_eq
  cases resolution with
  | denied | answered | canceled =>
    cases hreply
    cases hchoice
  | selected requestId optionId =>
    simp only [resolutionFor, h.offered, Bool.and_eq_true, decide_eq_true_eq,
      List.any_eq_true] at hvalid
    obtain ⟨rfl, option, hshown, rfl⟩ := hvalid
    simp only [permissionReply] at hreply
    split at hreply
    · rename_i nativeId hnamed
      cases hreply
      exact Chose.permission mapped permission option nativeId h.mapped_eq h.offered hshown hnamed
    · cases hreply

/-- A resolution answers the request it is for, with what it chose. -/
theorem resolved_changed (hd : s.Distinct) (id : Nat) (hturn : s.turn = some turn)
    (resolution : Resolution Answers) :
    Changed i (fun r outcome => r.id = id ∧ r.canAnswer = true ∧ Chose i r resolution outcome) s
      (s.resolved i id turn resolution) := by
  have hsame : ∀ {found : Request Params Flow Content}, s.find id = some found →
      ∀ r ∈ s.requests, r.id = id → r = found := by
    intro found hfound r hr hid
    obtain ⟨hmem, hfoundId⟩ := mem_of_find hfound
    exact hd r hr found hmem (hid.trans hfoundId.symm)
  rcases resolved_cases (i := i) id turn resolution s with
    h | ⟨found, mapped, permission, reply, hd, h⟩ | ⟨found, mapped, flow, flow', content, hf, h⟩ |
      ⟨found, mapped, flow, flow', -, h⟩
  · rw [h]
    exact Changed.refl s
  · rw [h]
    have hanswered := Changed.modify (i := i) (s := s) id
      (P := fun r outcome => r.id = id ∧ r.canAnswer = true ∧ Chose i r resolution outcome)
      (f := Request.answer reply) fun r hr hid => by
        refine Request.answer_change reply r fun hcan hchoice => ⟨hid, hcan, ?_⟩
        rw [hsame hd.found r hr hid]
        exact hd.chose hchoice
    refine ⟨hanswered.requests, rfl, rfl, ?_, fun h => h, fun _ h => Or.inl h⟩
    rw [hturn]
    rfl
  · rw [h]
    have hanswered := Changed.modify (i := i) (s := s) id
      (P := fun r outcome => r.id = id ∧ r.canAnswer = true ∧ Chose i r resolution outcome)
      (f := fun r => ({ r with mapped := some { mapped with offered := .form flow' } } :
        Request Params Flow Content).answer (.form content)) fun r hr hid => by
        have hquiet : Request.Quiet i r
            { r with mapped := some { mapped with offered := .form flow' } } := by
          refine Request.Change.plain rfl rfl rfl rfl rfl rfl rfl ?_
          intro _ mapped' permission hm hp
          cases hm
          cases hp
        refine hquiet.before (Request.answer_change _ _ fun hcan _ => ⟨hid, hcan, ?_⟩)
        rw [hsame hf.found r hr hid]
        exact Chose.form mapped flow flow' resolution content hf.mapped_eq hf.offered hf.valid
          hf.resolve_eq
    refine ⟨?_, rfl, rfl, ?_, fun h => h, fun _ h => Or.inl h⟩
    · show List.Forall₂ _ s.requests ((s.formResolved id mapped flow').modify id _).requests
      have hid : ∀ r : Request Params Flow Content,
          ({ r with mapped := some { mapped with offered := .form flow' } } :
            Request Params Flow Content).id = r.id := fun _ => rfl
      rw [formResolved, modify_modify hid]
      exact hanswered.requests
    · rw [hturn]
      rfl
  · rw [h]
    have hmapped := mapRequest_changed (i := i) (s := s)
      (P := fun r outcome => r.id = id ∧ r.canAnswer = true ∧ Chose i r resolution outcome) id
      (.form flow') fun _ h => by cases h
    refine ⟨hmapped.requests, rfl, rfl, ?_, fun h => h, fun _ h => Or.inl h⟩
    rw [hturn]
    rfl

/-! ## The invariant -/

/-- The bytes of the requests that are retained. -/
def retainedTotal (requests : List (Request Params Flow Content)) : Int :=
  ((requests.filter fun r => r.retained).map fun r => (r.bytes : Int)).sum

/-- What holds of the requests of a session in every state. -/
structure Answering (i : Interactions Params Flow Answers Content)
    (s : Session Params Flow Answers Content) : Prop where
  ids : s.requests.map Request.id = List.range s.requests.length
  once : ∀ r ∈ s.requests, r.Once
  mapped : ∀ r ∈ s.requests, r.MappedBy i
  ended : s.usable = false → ∀ r ∈ s.requests, r.pending = false
  current : ∀ r ∈ s.requests, r.pending = true → r.turn = s.turns
  turnless : s.turn = none → s.requests = []
  settled : ∀ turn, s.turn = some turn → (turn.nativeSettled || turn.canceled) = true →
    ∀ r ∈ s.requests, r.pending = false
  joined : ∀ turn, s.turn = some turn → turn.sourceSettled = true →
    turn.terminal = true ∧ ∀ r ∈ s.requests, r.retained = false
  joining : s.reader = .joining → ∃ turn, s.turn = some turn ∧ turn.terminal = true
  size : s.retainedSize ≤ i.maxPendingRequests
  bytes : s.retainedBytes = retainedTotal s.requests
  material : s.retainedBytes ≤ i.maxRequestMaterialBytes

/-- A step keeps the invariant and answers no request twice. -/
structure Stepped (i : Interactions Params Flow Answers Content)
    (P : Request Params Flow Content → Outcome Content → Prop)
    (s s' : Session Params Flow Answers Content) : Prop where
  answering : s'.Answering i
  replies : ∀ r ∈ s.requests, ∃ r' ∈ s'.requests, r'.id = r.id ∧
    (r'.outcomes = r.outcomes ∨
      r.outcomes = [] ∧ ∃ outcome, r'.outcomes = [outcome] ∧ (outcome.choice = true → P r outcome))

theorem Answering.distinct (h : s.Answering i) : s.Distinct := by
  intro r hr r' hr' hid
  refine List.inj_on_of_nodup_map ?_ hr hr' hid
  rw [h.ids]
  exact List.nodup_range

theorem retained_of_forall₂ {l l' : List (Request Params Flow Content)}
    (h : List.Forall₂ (Request.Change i P) l l') :
    (l'.filter fun r => r.retained).length = (l.filter fun r => r.retained).length ∧
      retainedTotal l' = retainedTotal l := by
  induction h with
  | nil => exact ⟨rfl, rfl⟩
  | cons hchange _ ih =>
    rename_i r r' l l' _
    obtain ⟨hlength, htotal⟩ := ih
    unfold retainedTotal at htotal ⊢
    by_cases hretained : r.retained = true
    · have hretained' : r'.retained = true := hchange.retained.trans hretained
      rw [List.filter_cons_of_pos hretained', List.filter_cons_of_pos hretained]
      simp only [List.length_cons, hlength, List.map_cons, List.sum_cons, htotal, hchange.bytes,
        and_self]
    · have hretained' : ¬r'.retained = true := fun h => hretained (hchange.retained ▸ h)
      rw [List.filter_cons_of_neg hretained', List.filter_cons_of_neg hretained]
      exact ⟨hlength, htotal⟩

theorem replies_of_forall₂ (ho : ∀ r ∈ s.requests, r.Once)
    (h : List.Forall₂ (Request.Change i P) s.requests s'.requests) :
    ∀ r ∈ s.requests, ∃ r' ∈ s'.requests, r'.id = r.id ∧
      (r'.outcomes = r.outcomes ∨ r.outcomes = [] ∧
        ∃ outcome, r'.outcomes = [outcome] ∧ (outcome.choice = true → P r outcome)) := by
  intro r hr
  obtain ⟨r', hr', hchange⟩ := Orderly.mem_of_forall₂' h hr
  exact ⟨r', hr', hchange.id, hchange.outcomes (ho r hr)⟩

/-- A step in which requests change, and which keeps how the source of the turn ends. -/
theorem Answering.replaced (h : s.Answering i)
    (hrequests : List.Forall₂ (Request.Change i P) s.requests s'.requests)
    (hbytes : s'.retainedBytes = s.retainedBytes)
    (hturn : s'.turn.map (fun turn => (turn.terminal, turn.sourceSettled)) =
      s.turn.map fun turn => (turn.terminal, turn.sourceSettled))
    (hreader : s'.reader = .joining → s.reader = .joining)
    (hended : s'.usable = false → ∀ r ∈ s'.requests, r.pending = false)
    (hcurrent : ∀ r ∈ s'.requests, r.pending = true → r.turn = s'.turns)
    (hsettled : ∀ turn, s'.turn = some turn → (turn.nativeSettled || turn.canceled) = true →
      ∀ r ∈ s'.requests, r.pending = false) : Stepped i P s s' := by
  refine ⟨?_, replies_of_forall₂ h.once hrequests⟩
  have hids := Orderly.ids_of_forall₂ (fun _ _ hc => hc.id) hrequests
  have hretained := retained_of_forall₂ hrequests
  refine
    { ids := by rw [hids, h.ids, hrequests.length_eq]
      once := fun r hr => ?_
      mapped := fun r hr => ?_
      ended := hended
      current := hcurrent
      turnless := fun ht => ?_
      settled := hsettled
      joined := fun turn' ht hs => ?_
      joining := fun hj => ?_
      size := by
        show (s'.requests.filter _).length ≤ _
        rw [hretained.1]
        exact h.size
      bytes := by rw [hbytes, hretained.2]; exact h.bytes
      material := by rw [hbytes]; exact h.material }
  · obtain ⟨before, hbefore, hchange⟩ := Orderly.mem_of_forall₂ hrequests hr
    exact hchange.once (h.once before hbefore)
  · obtain ⟨before, hbefore, hchange⟩ := Orderly.mem_of_forall₂ hrequests hr
    exact hchange.mapped (h.mapped before hbefore)
  · rw [ht, Option.map_none] at hturn
    rw [h.turnless (Option.map_eq_none_iff.1 hturn.symm)] at hrequests
    exact List.forall₂_nil_left_iff.1 hrequests
  · rw [ht, Option.map_some] at hturn
    obtain ⟨turn, hturn', heq⟩ := Option.map_eq_some_iff.1 hturn.symm
    obtain ⟨hterminal, hsource⟩ := Prod.mk.inj heq
    obtain ⟨hterm, hall⟩ := h.joined turn hturn' (hsource.trans hs)
    refine ⟨hterminal.symm.trans hterm, fun r hr => ?_⟩
    obtain ⟨before, hbefore, hchange⟩ := Orderly.mem_of_forall₂ hrequests hr
    exact hchange.retained.trans (hall before hbefore)
  · obtain ⟨turn, hturn', hterminal⟩ := h.joining (hreader hj)
    rw [hturn', Option.map_some] at hturn
    obtain ⟨turn', ht, heq⟩ := Option.map_eq_some_iff.1 hturn
    exact ⟨turn', ht, (Prod.mk.inj heq).1.trans hterminal⟩

/-- A step in which requests only change. -/
theorem Answering.changed (h : s.Answering i) (hc : Changed i P s s') : Stepped i P s s' := by
  have hends := congrArg (Option.map fun flags : Bool × Bool × Bool × Bool => flags.2.2) hc.flags
  rw [Option.map_map, Option.map_map] at hends
  refine h.replaced hc.requests hc.bytes hends hc.reader (fun hend => ?_) (fun r hr hp => ?_)
    fun turn' ht hclosed => ?_
  · rcases hc.usable h.once hend with hend | hidle
    · exact hc.idle (h.ended hend)
    · exact hidle
  · obtain ⟨before, hbefore, hchange⟩ := Orderly.mem_of_forall₂ hc.requests hr
    rw [hchange.turn, hc.turns]
    exact h.current before hbefore (hchange.pending hp)
  · have hflags := hc.flags
    rw [ht, Option.map_some] at hflags
    obtain ⟨turn, hturn, heq⟩ := Option.map_eq_some_iff.1 hflags.symm
    simp only [Turn.flags, Prod.mk.injEq] at heq
    rw [← heq.1, ← heq.2.1] at hclosed
    exact hc.idle (h.settled turn hturn hclosed)

/-! ## Events -/

theorem Changed.mono {Q : Request Params Flow Content → Outcome Content → Prop}
    (hPQ : ∀ r ∈ s.requests, ∀ outcome, P r outcome → Q r outcome) (h : Changed i P s s') :
    Changed i Q s s' := by
  have hlift : ∀ {l l' : List (Request Params Flow Content)}, (∀ r ∈ l, r ∈ s.requests) →
      List.Forall₂ (Request.Change i P) l l' → List.Forall₂ (Request.Change i Q) l l' := by
    intro l l' hsub hl
    induction hl with
    | nil => exact List.Forall₂.nil
    | cons hchange _ ih =>
      exact List.Forall₂.cons (hchange.mono (hPQ _ (hsub _ List.mem_cons_self)))
        (ih fun r hr => hsub r (List.mem_cons_of_mem _ hr))
  exact { h with requests := hlift (fun _ hr => hr) h.requests }

theorem Changed.quiet (h : Quietly i s s') : Changed i P s s' :=
  h.mono fun _ _ _ hno => hno.elim

/-- A new request is added. -/
theorem Answering.added (h : s.Answering i) (hturn : s.turn = some turn)
    (hopen : (turn.nativeSettled || turn.terminal || turn.canceled) = false)
    (husable : s.usable = true) {r : Request Params Flow Content} (hid : r.id = s.requests.length)
    (hcurrent : r.turn = s.turns) (honce : r.Once) (hretained : r.retained = true)
    (hmapped : r.mapped = none) (hsize : s.retainedSize < i.maxPendingRequests)
    (hmaterial : s.retainedBytes + r.bytes ≤ i.maxRequestMaterialBytes)
    (queue : SessionQueue Message) :
    Answering i
      { s with
        queue
        requests := s.requests ++ [r]
        retainedBytes := s.retainedBytes + r.bytes } := by
  simp only [Bool.or_eq_false_iff] at hopen
  obtain ⟨⟨hunsettled, hlive⟩, huncanceled⟩ := hopen
  have hmem : ∀ x ∈ s.requests ++ [r], x ∈ s.requests ∨ x = r := fun x hx =>
    (List.mem_append.1 hx).imp_right List.mem_singleton.1
  refine
    { ids := by simp [h.ids, hid, List.range_succ]
      once := fun x hx => ?_
      mapped := fun x hx => ?_
      ended := fun hend => ?_
      current := fun x hx hp => ?_
      turnless := fun ht => ?_
      settled := fun turn' ht hclosed => ?_
      joined := fun turn' ht hs => ?_
      joining := fun hj => ?_
      size := ?_
      bytes := ?_
      material := hmaterial }
  · rcases hmem x hx with hx | rfl
    · exact h.once x hx
    · exact honce
  · rcases hmem x hx with hx | rfl
    · exact h.mapped x hx
    · intro mapped permission hm
      rw [hmapped] at hm
      cases hm
  · have hended : s.usable = false := hend
    rw [husable] at hended
    cases hended
  · rcases hmem x hx with hx | rfl
    · exact h.current x hx hp
    · exact hcurrent
  · have hnone : s.turn = none := ht
    rw [hturn] at hnone
    cases hnone
  · have hsame : s.turn = some turn' := ht
    rw [hturn] at hsame
    cases hsame
    rw [hunsettled, huncanceled] at hclosed
    cases hclosed
  · have hsame : s.turn = some turn' := ht
    have hterminal := (h.joined turn' hsame hs).1
    rw [hturn] at hsame
    cases hsame
    rw [hlive] at hterminal
    cases hterminal
  · obtain ⟨turn', hturn', hterminal⟩ := h.joining hj
    rw [hturn] at hturn'
    cases hturn'
    rw [hlive] at hterminal
    cases hterminal
  · show ((s.requests ++ [r]).filter _).length ≤ _
    rw [List.filter_append, List.length_append, List.filter_cons_of_pos hretained]
    exact hsize
  · unfold retainedTotal
    rw [List.filter_append, List.map_append, List.sum_append, List.filter_cons_of_pos hretained,
      h.bytes]
    simp [retainedTotal]

theorem Answering.admitRequest (h : s.Answering i) (kind : RequestKind) (params : Params)
    (host : Bool) (bytes : Nat) : Stepped i P s (s.admitRequest i kind params host bytes) := by
  unfold Session.admitRequest
  split
  · exact h.changed (Changed.refl s)
  · rename_i husable
    split
    · exact h.changed (Changed.refl s)
    · rename_i turn hturn
      split
      · exact h.changed (Changed.refl s)
      · rename_i hopen
        split
        · exact h.changed (fail_changed _)
        · rename_i hsize
          split
          · exact h.changed (fail_changed _)
          · rename_i hmaterial
            split
            · exact h.changed (fail_changed _)
            · rename_i queue _
              refine ⟨?_, fun r hr => ⟨r, List.mem_append_left _ hr, rfl, Or.inl rfl⟩⟩
              have hfits : s.retainedBytes + (bytes : Int) ≤ i.maxRequestMaterialBytes := by omega
              exact h.added hturn (by simpa using hopen) (by simpa using husable) rfl rfl
                ⟨rfl, rfl, fun hno => by cases hno⟩ rfl rfl (by omega) hfits queue

/-- One request is no longer retained. -/
theorem retained_without {requests : List (Request Params Flow Content)}
    {f : Request Params Flow Content → Request Params Flow Content} (id : Nat)
    (hf : ∀ r, (f r).retained = false) :
    ((requests.map fun r => if r.id = id then f r else r).filter fun r => r.retained) =
      (requests.filter fun r => r.retained).filter fun r => r.id ≠ id := by
  induction requests with
  | nil => rfl
  | cons r requests ih =>
    rw [List.map_cons]
    by_cases hid : r.id = id
    · rw [if_pos hid, List.filter_cons_of_neg (by simp [hf]), ih]
      by_cases hretained : r.retained = true
      · rw [List.filter_cons_of_pos hretained, List.filter_cons_of_neg (by simpa using hid)]
      · rw [List.filter_cons_of_neg hretained]
    · rw [if_neg hid]
      by_cases hretained : r.retained = true
      · rw [List.filter_cons_of_pos hretained, List.filter_cons_of_pos hretained,
          List.filter_cons_of_pos (by simpa using hid), ih]
      · rw [List.filter_cons_of_neg hretained, List.filter_cons_of_neg hretained, ih]

/-- A request that was answered is no longer retained. -/
theorem Answering.unretained (h : s.Answering i) {found : Request Params Flow Content}
    (hmem : found ∈ s.requests) (hretained : found.retained = true)
    (hanswered : found.answered = true) (queue : SessionQueue Message) :
    Stepped i P s
      { s.modify found.id fun r => { r with retained := false } with
        retainedBytes := s.retainedBytes - found.bytes
        queue } := by
  have hwithout : ((s.requests.map fun r =>
      if r.id = found.id then { r with retained := false } else r).filter fun r => r.retained) =
        (s.requests.filter fun r => r.retained).filter fun r => r.id ≠ found.id :=
    retained_without found.id fun _ => rfl
  have hbefore : ∀ r ∈ (s.modify found.id fun r => { r with retained := false }).requests,
      ∃ before ∈ s.requests, r.pending = before.pending ∧ r.turn = before.turn ∧
        (before.retained = false → r.retained = false) ∧
        (r = before ∨ before = found ∧ r = { found with retained := false }) := by
    intro r hr
    obtain ⟨before, hbefore, rfl⟩ := List.mem_map.1 hr
    refine ⟨before, hbefore, ?_⟩
    by_cases hsame : before.id = found.id
    · cases h.distinct before hbefore found hmem hsame
      rw [if_pos rfl]
      exact ⟨rfl, rfl, fun _ => rfl, Or.inr ⟨rfl, rfl⟩⟩
    · rw [if_neg hsame]
      exact ⟨rfl, rfl, fun h => h, Or.inl rfl⟩
  refine ⟨?_, fun r hr => ?_⟩
  · refine
      { ids := ?_
        once := fun r hr => ?_
        mapped := fun r hr => ?_
        ended := fun hend r hr => ?_
        current := fun r hr hp => ?_
        turnless := fun ht => ?_
        settled := fun turn ht hclosed r hr => ?_
        joined := fun turn ht hs => ⟨(h.joined turn ht hs).1, fun r hr => ?_⟩
        joining := h.joining
        size := ?_
        bytes := ?_
        material := ?_ }
    · show (s.requests.map _).map Request.id = List.range (s.requests.map _).length
      rw [List.map_map, List.length_map, ← h.ids]
      refine List.map_congr_left fun r _ => ?_
      show (if r.id = found.id then _ else r).id = r.id
      split <;> rfl
    · obtain ⟨before, hbefore', -, -, -, rfl | ⟨-, rfl⟩⟩ := hbefore r hr
      · exact h.once r hbefore'
      · have honce := h.once found hmem
        refine ⟨honce.pending, honce.outcomes, fun _ => ?_⟩
        rw [honce.pending, hanswered]
        rfl
    · obtain ⟨before, hbefore', -, -, -, rfl | ⟨-, rfl⟩⟩ := hbefore r hr
      · exact h.mapped r hbefore'
      · exact h.mapped found hmem
    · obtain ⟨before, hbefore', heq, -⟩ := hbefore r hr
      exact heq.trans (h.ended hend before hbefore')
    · obtain ⟨before, hbefore', heq, hturn, -⟩ := hbefore r hr
      exact hturn.trans (h.current before hbefore' (heq ▸ hp))
    · show s.requests.map _ = []
      rw [h.turnless ht]
      rfl
    · obtain ⟨before, hbefore', heq, -⟩ := hbefore r hr
      exact heq.trans (h.settled turn ht hclosed before hbefore')
    · obtain ⟨before, hbefore', -, -, hkept, -⟩ := hbefore r hr
      exact hkept ((h.joined turn ht hs).2 before hbefore')
    · show ((s.requests.map _).filter _).length ≤ _
      rw [hwithout]
      exact (List.length_filter_le _ _).trans h.size
    · show s.retainedBytes - found.bytes = retainedTotal (s.requests.map _)
      have hkept : found ∈ s.requests.filter fun r => r.retained :=
        List.mem_filter.2 ⟨hmem, hretained⟩
      have hnodup : ((s.requests.filter fun r => r.retained).map Request.id).Nodup := by
        refine Tickets.nodup_filter ?_ _
        rw [h.ids]
        exact List.nodup_range
      unfold retainedTotal
      rw [hwithout, Tickets.sum_remove (fun r => (r.bytes : Int)) hnodup hkept, h.bytes]
      rfl
    · show s.retainedBytes - found.bytes ≤ _
      have hmaterial := h.material
      omega
  · refine ⟨_, List.mem_map.2 ⟨r, hr, rfl⟩, ?_⟩
    split
    · exact ⟨rfl, Or.inl rfl⟩
    · exact ⟨rfl, Or.inl rfl⟩

/-- A step after which no request changes any more. -/
theorem Stepped.after {s'' : Session Params Flow Answers Content} (h : Stepped i P s s')
    (hc : Changed i P s' s'') (hrequests : s''.requests = s'.requests) : Stepped i P s s'' :=
  ⟨(h.answering.changed hc).answering, by rw [hrequests]; exact h.replies⟩

theorem Answering.settleRequest (h : s.Answering i) (id : Nat) :
    Stepped i P s (s.settleRequest id) := by
  unfold Session.settleRequest
  split
  · exact h.changed (Changed.refl s)
  · rename_i found hfound
    split
    · rename_i hsettles
      simp only [Bool.and_eq_true] at hsettles
      obtain ⟨hmem, rfl⟩ := mem_of_find hfound
      have hstepped : Stepped i P s _ :=
        h.unretained hmem hsettles.1.1 hsettles.1.2 (s.queue.release found.entry)
      split
      · exact hstepped
      · refine hstepped.after (endWait_changed found.id) ?_
        rw [endWait_eq]
    · exact h.changed (Changed.refl s)

theorem pendingSize_eq_zero : s.pendingSize = 0 ↔ ∀ r ∈ s.requests, r.pending = false := by
  unfold pendingSize
  rw [List.length_eq_zero_iff, List.filter_eq_nil_iff]
  refine forall₂_congr fun r _ => ?_
  simp

/-- The turn is settled or canceled, and nothing stays pending. -/
theorem Answering.closes (h : s.Answering i) (hturn : s.turn = some turn) (turn' : Turn)
    (hterminal : turn'.terminal = turn.terminal)
    (hsource : turn'.sourceSettled = turn.sourceSettled) (hc : Changed i P (s.setTurn turn') s')
    (hidle : ∀ r ∈ s'.requests, r.pending = false) : Stepped i P s s' := by
  have hends := congrArg (Option.map fun flags : Bool × Bool × Bool × Bool => flags.2.2) hc.flags
  rw [Option.map_map, Option.map_map] at hends
  refine h.replaced hc.requests hc.bytes (hends.trans ?_) hc.reader (fun _ => hidle)
    (fun r hr hp => absurd hp (by simp [hidle r hr])) fun _ _ _ => hidle
  rw [hturn]
  exact congrArg some (Prod.ext hterminal hsource)

theorem Answering.settlePrompt (h : s.Answering i) (bytes : Nat) :
    Stepped i P s (s.settlePrompt i bytes) := by
  unfold Session.settlePrompt
  split
  · exact h.changed (Changed.refl s)
  · rename_i turn hturn
    split
    · exact h.changed (Changed.refl s)
    · rename_i hcond
      have husable : s.usable = true := by
        cases hs : s.usable with
        | true => rfl
        | false => simp [hs] at hcond
      simp only
      split
      · refine h.closes hturn { turn with nativeSettled := true } rfl rfl (fail_changed _) ?_
        unfold Session.fail
        rw [setTurn_usable, if_pos husable]
        exact cancelAll_idle (s := s) h.once
      · rename_i hpending
        have hadmitted : Changed i P (s.setTurn { turn with nativeSettled := true }) _ :=
          admitOrFail_changed .terminal bytes
        refine h.closes hturn { turn with nativeSettled := true } rfl rfl hadmitted ?_
        refine hadmitted.idle ?_
        exact pendingSize_eq_zero.1 (by omega)

theorem Answering.cancelNative (h : s.Answering i) (bytes : Nat) :
    Stepped i P s (s.cancelNative i bytes) := by
  have hcanceled : ∀ turn : Turn, Quietly i (s.setTurn turn) (s.setTurn turn).cancelAll := fun _ =>
    ⟨cancelAll_requests _, rfl, rfl, rfl, fun h => h, fun _ h => Or.inl h⟩
  have hidle : ∀ turn : Turn, ∀ r ∈ (s.setTurn turn).cancelAll.requests, r.pending = false :=
    fun turn => cancelAll_idle (s := s.setTurn turn) h.once
  unfold Session.cancelNative
  split
  · exact h.changed (Changed.refl s)
  · rename_i turn hturn
    split
    · exact h.changed (Changed.refl s)
    · split
      · exact h.closes hturn { turn with canceled := true } rfl rfl (hcanceled _).quiet (hidle _)
      · have hadmitted : Quietly i _ _ := (hcanceled
          { turn with canceled := true, nativeSettled := true }).trans
            (admitOrFail_changed .terminal bytes)
        refine h.closes hturn { turn with canceled := true, nativeSettled := true } rfl rfl
          hadmitted.quiet ?_
        exact (admitOrFail_changed (i := i) (P := P) .terminal bytes).idle (hidle _)

theorem Answering.startTurn (h : s.Answering i) : Stepped i P s s.startTurn := by
  have hstart : (∀ r ∈ s.requests, r.pending = false) →
      Stepped i P s { s with turn := some {}, turns := s.turns + 1, reader := .unread } := by
    intro hidle
    refine ⟨?_, fun r hr => ⟨r, hr, rfl, Or.inl rfl⟩⟩
    exact
      { h with
        ended := fun _ => hidle
        current := fun r hr hp => by
          rw [hidle r hr] at hp
          cases hp
        turnless := fun ht => by cases ht
        settled := fun _ _ _ => hidle
        joined := fun turn ht hs => by
          cases ht
          cases hs
        joining := fun hj => by cases hj }
  unfold Session.startTurn
  split
  · exact h.changed (Changed.refl s)
  · split
    · rename_i turn hturn
      split
      · rename_i hsource
        refine hstart fun r hr => ?_
        exact (h.once r hr).retained ((h.joined turn hturn hsource).2 r hr)
      · exact h.changed (Changed.refl s)
    · rename_i hnone
      refine hstart fun r hr => ?_
      rw [h.turnless hnone] at hr
      cases hr

/-- The terminal event of the turn is out. -/
theorem Answering.completed (h : s.Answering i) (hturn : s.turn = some turn) (ticket : Nat) :
    Stepped i P s
      { s.setTurn { turn with terminal := true, waiting := none } with
        reader := .joining
        queue := s.queue.release ticket } := by
  refine ⟨?_, fun r hr => ⟨r, hr, rfl, Or.inl rfl⟩⟩
  exact
    { h with
      turnless := fun ht => by cases ht
      settled := fun turn' ht hclosed => by
        cases ht
        exact h.settled turn hturn hclosed
      joined := fun turn' ht hs => by
        cases ht
        exact ⟨rfl, (h.joined turn hturn hs).2⟩
      joining := fun _ => ⟨_, rfl, rfl⟩ }

/-- The requests of the turn are joined. -/
theorem Answering.joins (h : s.Answering i) (hturn : s.turn = some turn)
    (hreader : s.reader = .joining) (hnone : s.retainedSize = 0) :
    Stepped i P s { s.setTurn { turn with sourceSettled := true } with reader := .done } := by
  have hterminal : turn.terminal = true := by
    obtain ⟨turn', hturn', hterminal⟩ := h.joining hreader
    rw [hturn] at hturn'
    cases hturn'
    exact hterminal
  refine ⟨?_, fun r hr => ⟨r, hr, rfl, Or.inl rfl⟩⟩
  exact
    { h with
      turnless := fun ht => by cases ht
      settled := fun turn' ht hclosed => by
        cases ht
        exact h.settled turn hturn hclosed
      joined := fun turn' ht _ => by
        cases ht
        refine ⟨hterminal, fun r hr => ?_⟩
        have hnil := List.filter_eq_nil_iff.1 (List.length_eq_zero_iff.1 hnone) r hr
        simpa using hnil
      joining := fun hj => by cases hj }

theorem Answering.advance (h : s.Answering i) (tool : Bool) :
    Stepped i P s (s.advance i tool) := by
  unfold Session.advance
  split
  · exact h.changed (Changed.refl s)
  · rename_i turn hturn
    split
    · exact h.changed (Changed.refl s)
    · split
      case h_1 => exact h.changed (Changed.refl s)
      case h_2 => exact h.changed (Changed.refl s)
      case h_3 => exact h.changed (Changed.setReader _ (by simp))
      case h_4 => exact h.changed (drain_quietly tool hturn).quiet
      case h_5 => exact h.changed (Changed.setReader _ (by simp))
      case h_6 id _ => exact h.changed (offerUnlessAnswered_quietly id hturn).quiet
      case h_7 => exact h.changed (Changed.same rfl rfl rfl rfl (fun hr => by cases hr) rfl)
      case h_8 id _ => exact h.changed (mapPermission_quietly h.distinct id hturn).quiet
      case h_9 id _ => exact h.changed (offerUnlessAnswered_quietly id hturn).quiet
      case h_10 => exact h.changed (Changed.setReader _ (by simp))
      case h_11 => exact h.changed (Changed.setReader _ (by simp))
      case h_12 ticket id _ =>
        have hwait : Quietly i s (s.endWait id) := endWait_changed id
        have hresumed : Quietly i s { s.endWait id with reader := .resuming ticket } :=
          hwait.trans (Changed.setReader _ (by simp))
        exact h.changed hresumed.quiet
      case h_13 => exact h.changed (Changed.same rfl rfl rfl rfl (fun hr => by cases hr) rfl)
      case h_14 ticket _ => exact h.completed hturn ticket
      case h_15 hreader =>
        split
        · rename_i hnone
          exact h.joins hturn hreader hnone
        · exact h.changed (Changed.refl s)

/-! ## Runs -/

/-- The event resolves a request. -/
def Resolves (s : Session Params Flow Answers Content) (id : Nat)
    (resolution : Resolution Answers) : Event Params Answers Content → Prop
  | .resolve _ chosen => chosen = resolution ∧ ∃ turn, s.turn = some turn ∧ turn.waiting = some id
  | .gate position => s.gated[position]? = some (id, resolution)
  | _ => False

/-- The outcome is what the event chose for a request that can still be answered. -/
def Choice (i : Interactions Params Flow Answers Content) (s : Session Params Flow Answers Content)
    (e : Event Params Answers Content) (r : Request Params Flow Content)
    (outcome : Outcome Content) : Prop :=
  r ∈ s.requests ∧ r.canAnswer = true ∧
    ∃ resolution, Resolves s r.id resolution e ∧ Chose i r resolution outcome

theorem Answering.resolveRequest (h : s.Answering i) (gate : Bool)
    (resolution : Resolution Answers) :
    Stepped i (Choice i s (.resolve gate resolution)) s (s.resolveRequest i gate resolution) := by
  unfold Session.resolveRequest
  split
  · exact h.changed (Changed.refl s)
  · rename_i turn hturn
    split
    · exact h.changed (Changed.refl s)
    · rename_i id hwaiting
      split
      · exact h.changed (Changed.refl s)
      · split
        · exact h.changed (Changed.refl s)
        · split
          · exact h.changed (Changed.same rfl rfl rfl rfl (fun hr => hr) rfl)
          · refine h.changed ((resolved_changed h.distinct id hturn resolution).mono ?_)
            rintro r hr outcome ⟨rfl, hcan, hchose⟩
            exact ⟨hr, hcan, resolution, ⟨rfl, turn, hturn, hwaiting⟩, hchose⟩

theorem Answering.passGate (h : s.Answering i) (position : Nat) :
    Stepped i (Choice i s (.gate position)) s (s.passGate i position) := by
  unfold Session.passGate
  split
  · rename_i id resolution turn hgated hturn
    have hresolved := resolved_changed (i := i)
      (s := { s with gated := s.gated.eraseIdx position }) h.distinct id hturn resolution
    have hchanged : Changed i _ s _ :=
      { hresolved with }
    refine h.changed (hchanged.mono ?_)
    rintro r hr outcome ⟨rfl, hcan, hchose⟩
    exact ⟨hr, hcan, resolution, hgated, hchose⟩
  · exact h.changed (Changed.refl s)

end Session

open Session

/-- Every event keeps the invariant, and what it answers it answers once. -/
theorem step_answering (h : s.Answering i) (e : Event Params Answers Content) :
    Stepped i (Choice i s e) s (step i s e) := by
  cases e with
  | notification metadata bytes => exact h.changed (admitNotification_changed metadata bytes)
  | bind => exact h.changed bind_changed
  | request kind params host bytes => exact h.admitRequest kind params host bytes
  | settled id => exact h.settleRequest id
  | withdraw aborted error id => exact h.changed (withdraw_quietly aborted error id).quiet
  | revoke error id => exact h.changed (revoke_quietly error id).quiet
  | prompt bytes => exact h.settlePrompt bytes
  | cancel bytes => exact h.cancelNative bytes
  | resolve gate resolution => exact h.resolveRequest gate resolution
  | gate position => exact h.passGate position
  | host id result => exact h.changed (hostReply_changed id result)
  | joined id => exact h.changed (hostJoined_changed id)
  | start => exact h.startTurn
  | launch => exact h.changed launchTurn_quietly.quiet
  | advance tool => exact h.advance tool
  | emit bytes =>
    refine h.changed ?_
    show Changed i _ s (s.emit i bytes)
    unfold Session.emit
    split
    · exact Changed.refl s
    · split
      · exact Changed.setQueue _
      · exact fail_changed _
  | resume | release => exact h.changed (Changed.setQueue _)
  | reserve bytes =>
    refine h.changed ?_
    show Changed i _ s (s.reserveState i bytes)
    unfold Session.reserveState
    split
    · exact Changed.setQueue _
    · exact Changed.refl s
  | fail error => exact h.changed (fail_changed error)
  | close => exact h.changed close_changed

theorem answering_nil : ({} : Session Params Flow Answers Content).Answering i where
  ids := rfl
  once := fun _ hr => absurd hr List.not_mem_nil
  mapped := fun _ hr => absurd hr List.not_mem_nil
  ended := fun _ _ hr => absurd hr List.not_mem_nil
  current := fun _ hr => absurd hr List.not_mem_nil
  turnless := fun _ => rfl
  settled := fun _ ht => by cases ht
  joined := fun _ ht => by cases ht
  joining := fun hj => by cases hj
  size := Nat.zero_le _
  bytes := rfl
  material := Int.natCast_nonneg _

/-- The invariant holds in every state of a session. -/
theorem run_answering (events : List (Event Params Answers Content)) :
    (run i events : Session Params Flow Answers Content).Answering i :=
  Machine.run_invariant (P := fun s : Session Params Flow Answers Content => s.Answering i) (step i)
    (fun _ e h => (step_answering h e).answering) answering_nil events

/-! ## Permissions of a selected mapping -/

section Faithful

variable {ν : Type} (selection : MappingSelection)

/-- The interactions of a session whose permissions go through the selected mapping. -/
def Interactions.mapped (i : Interactions (NativeObject ν) Flow Answers Content) :
    Interactions (NativeObject ν) Flow Answers Content :=
  { i with permission := turnPermission selection }

/-- A native option is named for the option that was shown: an option of the same request, of the
kind that is its decision and consequence. -/
structure Named (r : Request (NativeObject ν) Flow Content) (mapped : MappedRequest Flow)
    (shown : ApprovalOption) (nativeId : JsString) : Prop where
  mapped_eq : r.mapped = some mapped
  option : ∃ permission native option, mapped.offered = .permission permission ∧
    MapsMenu selection r.params native permission ∧ shown ∈ permission.options ∧
      option ∈ native ∧ option.optionId = nativeId ∧ shown.decision = option.kind.decision ∧
        shown.consequence = option.kind.consequence

/-- A request that may be answered with a choice: of the turn that goes on, neither withdrawn nor
canceled. -/
structure Available (s : Session (NativeObject ν) Flow Answers Content)
    (r : Request (NativeObject ν) Flow Content) : Prop where
  pending : r.pending = true
  available : r.unavailable = false
  live : r.aborted = false
  current : r.turn = s.turns
  turn : ∃ turn, s.turn = some turn ∧ turn.canceled = false ∧ turn.nativeSettled = false

/-- The outcome is the choice of a resolution. -/
inductive Answered (i : Interactions (NativeObject ν) Flow Answers Content)
    (r : Request (NativeObject ν) Flow Content) : Resolution Answers → Outcome Content → Prop
  | permission (mapped : MappedRequest Flow) (shown : ApprovalOption) (nativeId : JsString)
      (named : Named selection r mapped shown nativeId) :
      Answered i r (.selected mapped.requestId shown.optionId) (.resolved (.selected nativeId))
  | form (mapped : MappedRequest Flow) (flow flow' : Flow) (resolution : Resolution Answers)
      (content : Content) (mapped_eq : r.mapped = some mapped)
      (offered : mapped.offered = .form flow)
      (valid : Session.resolutionFor i mapped resolution = true)
      (resolved : i.resolve flow (Session.resolutionAnswers resolution) =
        .ok (flow', some content)) :
      Answered i r resolution (.resolved (.form content))

/-- What holds of the native requests of a session in every state: how often they are answered, how
many are retained, what is offered, and what the next event may answer. -/
structure Faithful (i : Interactions (NativeObject ν) Flow Answers Content)
    (s : Session (NativeObject ν) Flow Answers Content) : Prop where
  ids : s.requests.map Request.id = List.range s.requests.length
  once : ∀ r ∈ s.requests, r.outcomes.length = if r.pending then 0 else 1
  released : ∀ r ∈ s.requests, r.retained = false → r.pending = false
  ended : s.usable = false → ∀ r ∈ s.requests, r.pending = false
  settled : ∀ turn, s.turn = some turn →
    (turn.nativeSettled || turn.canceled || turn.sourceSettled) = true →
      ∀ r ∈ s.requests, r.pending = false
  size : s.retainedSize ≤ i.maxPendingRequests
  bytes : s.retainedBytes = retainedTotal s.requests
  material : s.retainedBytes ≤ i.maxRequestMaterialBytes
  offered : ∀ r ∈ s.requests, ∀ mapped permission, r.mapped = some mapped →
    mapped.offered = .permission permission →
      ∃ native, MapsMenu selection r.params native permission
  replies : ∀ e, ∀ r ∈ s.requests, ∃ r' ∈ (step (i.mapped selection) s e).requests, r'.id = r.id ∧
    (r'.outcomes = r.outcomes ∨ r.outcomes = [] ∧ ∃ outcome, r'.outcomes = [outcome] ∧
      (outcome.choice = true → Available s r ∧ ∃ resolution, Resolves s r.id resolution e ∧
        Answered selection i r resolution outcome))

variable {selection}

/-- What a resolution chose is the native option that was shown. -/
theorem answered_of_chose {i : Interactions (NativeObject ν) Flow Answers Content}
    {r : Request (NativeObject ν) Flow Content} (hr : r.MappedBy (i.mapped selection))
    {resolution : Resolution Answers} {outcome : Outcome Content}
    (h : Chose (i.mapped selection) r resolution outcome) :
    Answered selection i r resolution outcome := by
  cases h with
  | form mapped flow flow' _ content hmapped hoffered hvalid hresolved =>
    exact Answered.form mapped flow flow' resolution content hmapped hoffered hvalid hresolved
  | permission mapped permission shown nativeId hmapped hoffered hshown hnamed =>
    refine Answered.permission mapped shown nativeId ⟨hmapped, ?_⟩
    obtain ⟨native, hmaps⟩ := turnPermission_spec (hr mapped permission hmapped hoffered)
    obtain ⟨option, hoption, hlookup, hdecision, hconsequence⟩ := hmaps.shown shown hshown
    rw [hnamed] at hlookup
    exact ⟨permission, native, option, hoffered, hmaps, hshown, hoption,
      (Option.some.inj hlookup).symm, hdecision, hconsequence⟩

/-- A request that can be answered is of the turn that goes on. -/
theorem Session.Answering.available {i : Interactions (NativeObject ν) Flow Answers Content}
    {s : Session (NativeObject ν) Flow Answers Content} (h : s.Answering i)
    {r : Request (NativeObject ν) Flow Content} (hr : r ∈ s.requests)
    (hcan : r.canAnswer = true) : Available s r := by
  simp only [Request.canAnswer, Bool.and_eq_true, Bool.not_eq_true'] at hcan
  obtain ⟨⟨⟨hpending, -⟩, hunavailable⟩, haborted⟩ := hcan
  refine ⟨hpending, hunavailable, haborted, h.current r hr hpending, ?_⟩
  cases hturn : s.turn with
  | none =>
    rw [h.turnless hturn] at hr
    cases hr
  | some turn =>
    have hopen : (turn.nativeSettled || turn.canceled) = false := by
      by_contra hclosed
      rw [Bool.not_eq_false] at hclosed
      have hidle := h.settled turn hturn hclosed r hr
      rw [hpending] at hidle
      cases hidle
    rw [Bool.or_eq_false_iff] at hopen
    exact ⟨turn, rfl, hopen.2, hopen.1⟩

variable (selection) in
/-- In every state of a session every native request is answered once it is no longer pending, and
never twice; a choice names what the user was shown. -/
theorem run_faithful (i : Interactions (NativeObject ν) Flow Answers Content)
    (events : List (Event (NativeObject ν) Answers Content)) :
    Faithful selection i (run (i.mapped selection) events) := by
  have h := run_answering (i := i.mapped selection) events
  refine
    { ids := h.ids
      once := fun r hr => (h.once r hr).outcomes
      released := fun r hr => (h.once r hr).retained
      ended := h.ended
      settled := fun turn hturn hclosed r hr => ?_
      size := h.size
      bytes := h.bytes
      material := h.material
      offered := fun r hr mapped permission hmapped hoffered =>
        turnPermission_spec (h.mapped r hr mapped permission hmapped hoffered)
      replies := fun e r hr => ?_ }
  · rw [Bool.or_eq_true] at hclosed
    rcases hclosed with hclosed | hsource
    · exact h.settled turn hturn hclosed r hr
    · exact (h.once r hr).retained ((h.joined turn hturn hsource).2 r hr)
  · obtain ⟨r', hr', hid, hreply⟩ := (step_answering h e).replies r hr
    refine ⟨r', hr', hid, hreply.imp_right ?_⟩
    rintro ⟨hnil, outcome, heq, hchoice⟩
    refine ⟨hnil, outcome, heq, fun hc => ?_⟩
    obtain ⟨-, hcan, resolution, hresolves, hchose⟩ := hchoice hc
    exact ⟨h.available hr hcan, resolution, hresolves, answered_of_chose (h.mapped r hr) hchose⟩

end Faithful

end Provider

end AgentSdk
