import AgentSdk.Provider.Budget

/-!
# Control messages

A published request that is withdrawn is announced by a notice, and a settled
prompt by a terminal message.  At most one notice and one terminal message are
retained at a time: while a request that was published may still be withdrawn,
the turn waits for it, and no other request is published.

## Main results

* `Orderly` — where requests, entries, the turn and the reader stand to each other.
* `step_orderly` — every event of a usable session keeps them so.
-/

namespace AgentSdk

namespace Provider

variable {Params Flow Answers Content : Type}

/-! ## Requests that may change -/

namespace Message

def notice : Message → Bool
  | .unavailable _ _ => true
  | _ => false

def isTerminal : Message → Bool
  | .terminal => true
  | _ => false

theorem notice_of_request {message : Message} (h : message.isRequest = true) :
    message.notice = false := by
  cases message with
  | request _ => rfl
  | update | unavailable | terminal => cases h

theorem control_eq (message : Message) :
    message.control = (message.notice || message.isTerminal) := by
  cases message <;> rfl

end Message

namespace Offered

def isPermission : Offered Flow → Bool
  | .permission _ => true
  | .form _ => false

end Offered

namespace Request

/-- A withdrawal of the request is announced. -/
def noticeable (r : Request Params Flow Content) : Bool :=
  r.retained && !r.unavailable && r.published.isSome

/-- What every request of a usable session satisfies. -/
structure Sound (r : Request Params Flow Content) : Prop where
  pending : r.pending = !r.answered
  unavailable : r.unavailable = true → r.answered = true
  aborted : r.aborted = true → r.answered = true
  retained : r.answered = false → r.retained = true
  kinds : ∀ mapped, r.mapped = some mapped →
    (mapped.offered.isPermission = true ↔ r.kind = .permission)

variable {r r' : Request Params Flow Content}

theorem Sound.available (h : r.Sound) (hanswered : r.answered = false) : r.unavailable = false := by
  cases hu : r.unavailable with
  | true => exact absurd (h.unavailable hu) (by simp [hanswered])
  | false => rfl

theorem Sound.canAnswer (h : r.Sound) : r.canAnswer = !r.answered := by
  have hpending := h.pending
  have haborted := h.aborted
  cases hanswered : r.answered with
  | true => simp [Request.canAnswer, hanswered]
  | false =>
    have hu := h.available hanswered
    have ha : r.aborted = false := by
      cases ha : r.aborted with
      | true => exact absurd (haborted ha) (by simp [hanswered])
      | false => rfl
    simp [Request.canAnswer, hpending, hanswered, hu, ha]

/-- A change of a request that leaves its place in the session alone. -/
structure Mild (r r' : Request Params Flow Content) : Prop where
  id : r'.id = r.id
  kind : r'.kind = r.kind
  entry : r'.entry = r.entry
  retained : r'.retained = r.retained
  published : r'.publishedRequestId = r.publishedRequestId
  mapped : r'.mapped.map MappedRequest.requestId = r.mapped.map MappedRequest.requestId
  unavailable : r.unavailable = true → r'.unavailable = true
  answered : r.answered = true → r'.answered = true
  sound : r.Sound → r'.Sound

theorem Mild.refl (r : Request Params Flow Content) : Mild r r :=
  ⟨rfl, rfl, rfl, rfl, rfl, rfl, fun h => h, fun h => h, fun h => h⟩

theorem published_eq_some {requestId : Nat} :
    r.published = some requestId ↔ r.publishedRequestId = some requestId ∧
      r.mapped.map MappedRequest.requestId = some requestId := by
  unfold published
  cases hp : r.publishedRequestId with
  | none => simp
  | some p =>
    cases hm : r.mapped with
    | none => simp
    | some mapped =>
      by_cases heq : p = mapped.requestId
      · simp [heq]
      · simp only [heq, if_false, Option.map_some, Option.some.injEq]
        constructor
        · nofun
        · rintro ⟨rfl, hm'⟩
          exact absurd hm'.symm heq

theorem Mild.published_eq (h : Mild r r') : r'.published = r.published := by
  refine Option.ext fun requestId => ?_
  rw [published_eq_some, published_eq_some, h.published, h.mapped]

theorem Mild.noticeable (h : Mild r r') (hn : r'.noticeable = true) : r.noticeable = true := by
  have hunavailable := h.unavailable
  simp only [Request.noticeable, h.retained, h.published_eq, Bool.and_eq_true,
    Bool.not_eq_true'] at hn ⊢
  refine ⟨⟨hn.1.1, ?_⟩, hn.2⟩
  cases hu : r.unavailable with
  | true => exact absurd (hunavailable hu) (by simp [hn.1.2])
  | false => rfl

/-- A noticeable request stays so, or becomes unavailable. -/
theorem Mild.unavailable_or (h : Mild r r') (hn : r.unavailable = true ∨ r.noticeable = true) :
    r'.unavailable = true ∨ r'.noticeable = true := by
  rcases hn with hu | hn
  · exact Or.inl (h.unavailable hu)
  · cases hu : r'.unavailable with
    | true => exact Or.inl rfl
    | false =>
      right
      simp only [Request.noticeable, Bool.and_eq_true] at hn ⊢
      simp only [h.retained, h.published_eq, hu]
      exact ⟨⟨hn.1.1, rfl⟩, hn.2⟩

theorem release_mild (outcome : Outcome Content) (r : Request Params Flow Content) :
    Mild r (r.release outcome) := by
  unfold release
  split
  · exact ⟨rfl, rfl, rfl, rfl, rfl, rfl, fun h => h, fun _ => rfl,
      fun h => ⟨rfl, fun _ => rfl, fun _ => rfl, nofun, h.kinds⟩⟩
  · exact Mild.refl r

theorem answer_mild (reply : Reply Content) (r : Request Params Flow Content) :
    Mild r (r.answer reply) := by
  unfold answer
  split
  · exact release_mild _ r
  · exact Mild.refl r

theorem cancel_mild (r : Request Params Flow Content) : Mild r r.cancel := release_mild _ r

theorem hostWork_mild (work : Bool) (r : Request Params Flow Content) :
    Mild r { r with hostWork := work } :=
  ⟨rfl, rfl, rfl, rfl, rfl, rfl, fun h => h, fun h => h,
    fun h => { h with }⟩

/-- The withdrawal of a request that is then rejected. -/
theorem withdraw_mild (aborted : Bool) (error : SessionError) (r : Request Params Flow Content) :
    Mild r ((r.withdrawn aborted).release (.rejected error)) := by
  unfold release withdrawn
  split
  · exact ⟨rfl, rfl, rfl, rfl, rfl, rfl, fun _ => rfl, fun _ => rfl,
      fun h => ⟨rfl, fun _ => rfl, fun _ => rfl, nofun, h.kinds⟩⟩
  · rename_i hanswered
    refine ⟨rfl, rfl, rfl, rfl, rfl, rfl, fun _ => rfl, fun h => h, fun h => ?_⟩
    have hpending := h.pending
    have ha : r.answered = true := by
      simp only [hpending, Bool.and_eq_true, Bool.not_eq_true', not_and] at hanswered
      by_contra hn
      simp_all
    exact ⟨h.pending, fun _ => ha, fun _ => ha, h.retained, h.kinds⟩

end Request

/-! ## The places of the reader -/

namespace Reader

/-- The entry of the notice that is being emitted. -/
def withdraws : Reader → Option Nat
  | .withdrawing ticket _ => some ticket
  | .resuming ticket => some ticket
  | _ => none

/-- The entry that the reader has taken and not released. -/
def ticket : Reader → Option Nat
  | .updating ticket => some ticket
  | .withdrawing ticket _ => some ticket
  | .resuming ticket => some ticket
  | .completing ticket => some ticket
  | _ => none

theorem ticket_of_withdraws {reader : Reader} {t : Nat} (h : reader.withdraws = some t) :
    reader.ticket = some t := by
  unfold withdraws at h
  split at h
  · exact h
  · exact h
  · cases h

/-- The request the reader may offer next. -/
def prepares : Reader → Option Nat
  | .mapping id => some id
  | .warning id => some id
  | .changing next => next
  | _ => none

/-- The request the reader will offer next, which is mapped. -/
def offers : Reader → Option Nat
  | .warning id => some id
  | .changing next => next
  | _ => none

/-- A place that says nothing of requests, notices or the end of the turn. -/
def plain : Reader → Bool
  | .starting | .idle | .opening _ | .offering _ | .unread => true
  | .changing none => true
  | _ => false

theorem plain_spec {reader : Reader} (h : reader.plain = true) :
    reader.withdraws = none ∧ reader.prepares = none ∧ reader.offers = none ∧
      reader ≠ .joining ∧ reader ≠ .done ∧ (∀ ticket, reader ≠ .completing ticket) ∧
        reader.ticket = none := by
  unfold plain at h
  split at h
  all_goals first | exact ⟨rfl, rfl, rfl, nofun, nofun, nofun, rfl⟩ | cases h

end Reader

/-! ## Requests, entries, turn and reader -/

/-- While the turn is not over, the reader waits for the request that was published. -/
structure Active (requests : List (Request Params Flow Content)) (q : SessionQueue Message)
    (turn : Turn) (reader : Reader) : Prop where
  waits : ∀ r ∈ requests, r.noticeable = true → turn.waiting = some r.id
  waited : ∀ id, turn.waiting = some id →
    ∃ r ∈ requests, r.id = id ∧ (r.unavailable = true ∨ r.noticeable = true)
  order : turn.waiting = none → reader.withdraws = none →
    q.entries.Pairwise fun a b => a.value.isRequest = true → b.value.notice = false
  clear : (reader.prepares ≠ none ∨ ∃ id, turn.transition = some (some id)) →
    turn.waiting = none ∧ ∀ entry ∈ q.retained, entry.value.notice = false
  single : reader.prepares ≠ none → ∀ id, turn.transition ≠ some (some id)
  ready : ∀ id, reader.offers = some id ∨ turn.transition = some (some id) →
    ∃ r ∈ requests, r.id = id ∧ r.mapped.isSome = true
  maps : ∀ id, reader = .mapping id → ∃ r ∈ requests, r.id = id ∧ r.kind = .permission

/-- The turn between its start and the end of its source. -/
structure InTurn (requests : List (Request Params Flow Content)) (q : SessionQueue Message)
    (reader : Reader) (turn : Turn) : Prop where
  settled : ∀ entry ∈ q.retained, entry.value.isTerminal = true →
    turn.nativeSettled = true ∧ turn.terminal = false
  finished : turn.terminal = true → reader = .joining ∨ reader = .done
  joining : reader = .joining ∨ reader = .done → turn.terminal = true
  settles : turn.terminal = true ∨ (∃ ticket, reader = .completing ticket) →
    turn.nativeSettled = true
  source : turn.sourceSettled = true → reader = .done ∧ ∀ r ∈ requests, r.retained = false
  active : turn.terminal = false → Active requests q turn reader

/-- While the reader still has something to read the turn is not over. -/
theorem InTurn.live {requests : List (Request Params Flow Content)} {q : SessionQueue Message}
    {reader : Reader} {turn : Turn} (h : InTurn requests q reader turn) (hjoin : reader ≠ .joining)
    (hdone : reader ≠ .done) : turn.terminal = false := by
  cases hterminal : turn.terminal with
  | false => rfl
  | true =>
    rcases h.finished hterminal with hr | hr
    · exact absurd hr hjoin
    · exact absurd hr hdone

/-- A turn that is not over goes on at a place of the reader that does not end it. -/
theorem InTurn.goes_on {requests requests' : List (Request Params Flow Content)}
    {q q' : SessionQueue Message} {reader reader' : Reader} {turn turn' : Turn}
    (h : InTurn requests q reader turn) (hdone : reader ≠ .done)
    (hsettled : turn'.nativeSettled = turn.nativeSettled)
    (hsource : turn'.sourceSettled = turn.sourceSettled) (hlive : turn'.terminal = false)
    (hretained : ∀ entry ∈ q'.retained, entry ∈ q.retained)
    (hover : reader' ≠ .joining ∧ reader' ≠ .done)
    (hsettles : ∀ ticket, reader' = .completing ticket → turn.nativeSettled = true)
    (hactive : Active requests' q' turn' reader') : InTurn requests' q' reader' turn' where
  settled entry he ht := ⟨hsettled.trans (h.settled entry (hretained entry he) ht).1, hlive⟩
  finished ht := absurd ht (by simp [hlive])
  joining hr := hr.elim (fun hr => absurd hr hover.1) fun hr => absurd hr hover.2
  settles hend := hsettled.trans <| hend.elim (fun ht => absurd ht (by simp [hlive]))
    fun ⟨ticket, hr⟩ => hsettles ticket hr
  source hs := absurd (h.source (hsource ▸ hs)).1 hdone
  active _ := hactive

/-- Where requests, entries, the turn and the reader stand to each other. -/
structure Orderly (requests : List (Request Params Flow Content)) (sequence : Nat)
    (q : SessionQueue Message) (turn : Option Turn) (reader : Reader) (gated : List Nat) :
    Prop where
  live : q.failure = none
  ids : requests.map Request.id = List.range requests.length
  sound : ∀ r ∈ requests, r.Sound
  fresh : ∀ r ∈ requests, ∀ requestId, r.publishedRequestId = some requestId ∨
    r.mapped.map MappedRequest.requestId = some requestId → requestId ≤ sequence
  requested : ∀ entry ∈ q.retained, ∀ id, entry.value = .request id →
    ∃ r ∈ requests, r.id = id ∧ r.retained = true ∧ r.entry = entry.ticket
  own : ∀ r ∈ requests, r.entry < q.made ∧
    ∀ entry ∈ q.retained, entry.ticket = r.entry → entry.value = .request r.id
  quiet : ∀ r ∈ requests, r.noticeable = true → ∀ entry ∈ q.retained, entry.value.notice = false
  oneNoticeable : ∀ r ∈ requests, ∀ r' ∈ requests, r.noticeable = true → r'.noticeable = true →
    r.id = r'.id
  oneNotice : ∀ entry ∈ q.retained, ∀ other ∈ q.retained, entry.value.notice = true →
    other.value.notice = true → entry.ticket = other.ticket
  oneTerminal : ∀ entry ∈ q.retained, ∀ other ∈ q.retained, entry.value.isTerminal = true →
    other.value.isTerminal = true → entry.ticket = other.ticket
  notices : ∀ entry ∈ q.retained, entry.value.notice = true →
    entry ∈ q.entries ∨ reader.withdraws = some entry.ticket
  reading : ∀ ticket, reader.withdraws = some ticket →
    ∃ entry ∈ q.retained, entry.ticket = ticket ∧ entry.value.notice = true
  ending : ∀ ticket, reader = .completing ticket → ∀ entry ∈ q.retained,
    entry.value.isTerminal = true → entry.ticket = ticket
  held : ∀ ticket, reader.ticket = some ticket →
    ticket < q.made ∧ ∀ entry ∈ q.entries, entry.ticket ≠ ticket
  gates : ∀ id ∈ gated, ∃ r ∈ requests, r.id = id ∧ r.kind = .permission ∧
    (r.answered = false → r.published.isSome = true)
  noTurn : turn = none → requests = [] ∧ reader = .done ∧
    ∀ entry ∈ q.retained, entry.value.control = false
  inTurn : ∀ t, turn = some t → InTurn requests q reader t

namespace Orderly

variable {requests requests' : List (Request Params Flow Content)} {sequence : Nat}
variable {q : SessionQueue Message} {turn : Option Turn} {reader : Reader} {gated : List Nat}

variable {r : Request Params Flow Content} {q' : SessionQueue Message} {id : Nat}
  {f : Request Params Flow Content → Request Params Flow Content}

/-- Requests are known by their identity. -/
theorem eq_of_id (h : Orderly requests sequence q turn reader gated)
    {r' : Request Params Flow Content} (hr : r ∈ requests) (hr' : r' ∈ requests)
    (hid : r.id = r'.id) : r = r' := by
  refine List.inj_on_of_nodup_map ?_ hr hr' hid
  rw [h.ids]
  exact List.nodup_range

/-! ### Mild changes of requests -/

theorem mem_of_forall₂ {α β : Type} {R : α → β → Prop} {l : List α} {l' : List β}
    (h : List.Forall₂ R l l') {b : β} (hb : b ∈ l') : ∃ a ∈ l, R a b := by
  induction h with
  | nil => cases hb
  | cons hab _ ih =>
    rcases List.mem_cons.1 hb with rfl | hb
    · exact ⟨_, List.mem_cons_self, hab⟩
    · obtain ⟨a, ha, hR⟩ := ih hb
      exact ⟨a, List.mem_cons_of_mem _ ha, hR⟩

theorem mem_of_forall₂' {α β : Type} {R : α → β → Prop} {l : List α} {l' : List β}
    (h : List.Forall₂ R l l') {a : α} (ha : a ∈ l) : ∃ b ∈ l', R a b :=
  mem_of_forall₂ h.flip ha

theorem ids_of_forall₂ {R : Request Params Flow Content → Request Params Flow Content → Prop}
    (hR : ∀ r r', R r r' → r'.id = r.id) (h : List.Forall₂ R requests requests') :
    requests'.map Request.id = requests.map Request.id := by
  induction h with
  | nil => rfl
  | cons hab _ ih => rw [List.map_cons, List.map_cons, ih, hR _ _ hab]

theorem mild (h : Orderly requests sequence q turn reader gated)
    (hmild : List.Forall₂ Request.Mild requests requests') :
    Orderly requests' sequence q turn reader gated := by
  have hback : ∀ r' ∈ requests', ∃ r ∈ requests, Request.Mild r r' :=
    fun r' hr' => mem_of_forall₂ hmild hr'
  have hforth : ∀ r ∈ requests, ∃ r' ∈ requests', Request.Mild r r' :=
    fun r hr => mem_of_forall₂' hmild hr
  refine
    { h with
      ids := ?_
      sound := ?_
      fresh := ?_
      requested := ?_
      own := ?_
      quiet := ?_
      oneNoticeable := ?_
      gates := ?_
      noTurn := ?_
      inTurn := ?_ }
  · rw [ids_of_forall₂ (fun _ _ hr => hr.id) hmild, h.ids, hmild.length_eq]
  · intro r' hr'
    obtain ⟨r, hr, hrr⟩ := hback r' hr'
    exact hrr.sound (h.sound r hr)
  · intro r' hr' requestId hpublished
    obtain ⟨r, hr, hrr⟩ := hback r' hr'
    rw [hrr.published, hrr.mapped] at hpublished
    exact h.fresh r hr requestId hpublished
  · intro entry hentry id hvalue
    obtain ⟨r, hr, hid, hretained, hticket⟩ := h.requested entry hentry id hvalue
    obtain ⟨r', hr', hrr⟩ := hforth r hr
    exact ⟨r', hr', hrr.id.trans hid, hrr.retained.trans hretained, hrr.entry.trans hticket⟩
  · intro r' hr'
    obtain ⟨r, hr, hrr⟩ := hback r' hr'
    rw [hrr.entry, hrr.id]
    exact h.own r hr
  · intro r' hr' hn
    obtain ⟨r, hr, hrr⟩ := hback r' hr'
    exact h.quiet r hr (hrr.noticeable hn)
  · intro r' hr' r₂' hr₂' hn hn₂
    obtain ⟨r, hr, hrr⟩ := hback r' hr'
    obtain ⟨r₂, hr₂, hrr₂⟩ := hback r₂' hr₂'
    rw [hrr.id, hrr₂.id]
    exact h.oneNoticeable r hr r₂ hr₂ (hrr.noticeable hn) (hrr₂.noticeable hn₂)
  · intro id hid
    obtain ⟨r, hr, hrid, hkind, hpublished⟩ := h.gates id hid
    obtain ⟨r', hr', hrr⟩ := hforth r hr
    refine ⟨r', hr', hrr.id.trans hrid, hrr.kind.trans hkind, fun hanswered => ?_⟩
    rw [hrr.published_eq]
    refine hpublished ?_
    cases ha : r.answered with
    | true => exact absurd (hrr.answered ha) (by simp [hanswered])
    | false => rfl
  · intro hturn
    obtain ⟨hnil, hrest⟩ := h.noTurn hturn
    subst hnil
    cases hmild
    exact ⟨rfl, hrest⟩
  · intro t ht
    have hin := h.inTurn t ht
    refine
      { hin with
        source := ?_
        active := ?_ }
    · intro hsource
      obtain ⟨hreader, hnone⟩ := hin.source hsource
      refine ⟨hreader, fun r' hr' => ?_⟩
      obtain ⟨r, hr, hrr⟩ := hback r' hr'
      exact hrr.retained.trans (hnone r hr)
    · intro hterminal
      have hactive := hin.active hterminal
      refine
        { hactive with
          waits := ?_
          waited := ?_
          ready := ?_
          maps := ?_ }
      · intro r' hr' hn
        obtain ⟨r, hr, hrr⟩ := hback r' hr'
        rw [hrr.id]
        exact hactive.waits r hr (hrr.noticeable hn)
      · intro id hid
        obtain ⟨r, hr, hrid, hn⟩ := hactive.waited id hid
        obtain ⟨r', hr', hrr⟩ := hforth r hr
        exact ⟨r', hr', hrr.id.trans hrid, hrr.unavailable_or hn⟩
      · intro id hid
        obtain ⟨r, hr, hrid, hmapped⟩ := hactive.ready id hid
        obtain ⟨r', hr', hrr⟩ := hforth r hr
        refine ⟨r', hr', hrr.id.trans hrid, ?_⟩
        have hsome := congrArg Option.isSome hrr.mapped
        simpa [hmapped] using hsome
      · intro id hid
        obtain ⟨r, hr, hrid, hkind⟩ := hactive.maps id hid
        obtain ⟨r', hr', hrr⟩ := hforth r hr
        exact ⟨r', hr', hrr.id.trans hrid, hrr.kind.trans hkind⟩

/-! ### Changes of the queue -/

theorem release (h : Orderly requests sequence q turn reader gated) (hexact : q.Exact) {t : Nat}
    (ht : reader.withdraws ≠ some t) : Orderly requests sequence (q.release t) turn reader gated := by
  have hsub : ∀ entry ∈ (q.release t).retained, entry ∈ q.retained ∧ entry.ticket ≠ t := by
    intro entry hentry
    rw [SessionQueue.retained_release, List.mem_filter] at hentry
    exact ⟨hentry.1, by simpa using hentry.2⟩
  have hentries : ∀ entry ∈ q.entries, entry.ticket ≠ t → entry ∈ (q.release t).entries := by
    intro entry hentry hne
    rw [hexact.entries_release]
    exact List.mem_filter.2 ⟨hentry, by simpa using hne⟩
  have hmade := (SessionQueue.release_rest q t).2.2.2
  refine
    { h with
      live := (SessionQueue.release_rest q t).1.trans h.live
      requested := fun entry hentry => h.requested entry (hsub entry hentry).1
      own := ?_
      quiet := fun r hr hn entry hentry => h.quiet r hr hn entry (hsub entry hentry).1
      oneNotice := fun entry he other ho => h.oneNotice entry (hsub entry he).1 other (hsub other ho).1
      oneTerminal := fun entry he other ho =>
        h.oneTerminal entry (hsub entry he).1 other (hsub other ho).1
      notices := ?_
      reading := ?_
      ending := fun ticket hr entry he => h.ending ticket hr entry (hsub entry he).1
      held := ?_
      noTurn := ?_
      inTurn := ?_ }
  · intro r hr
    rw [hmade]
    exact ⟨(h.own r hr).1, fun entry he => (h.own r hr).2 entry (hsub entry he).1⟩
  · intro entry he hn
    rcases h.notices entry (hsub entry he).1 hn with hin | hread
    · exact Or.inl (hentries entry hin (hsub entry he).2)
    · exact Or.inr hread
  · intro ticket hread
    obtain ⟨entry, he, hticket, hn⟩ := h.reading ticket hread
    refine ⟨entry, ?_, hticket, hn⟩
    rw [SessionQueue.retained_release, List.mem_filter]
    refine ⟨he, ?_⟩
    have hne : entry.ticket ≠ t := fun heq => ht (by rw [hread, ← hticket, heq])
    simpa using hne
  · intro ticket hticket
    obtain ⟨hlt, hne⟩ := h.held ticket hticket
    rw [hmade, hexact.entries_release]
    exact ⟨hlt, fun entry he => hne entry (List.mem_of_mem_filter he)⟩
  · intro hturn
    obtain ⟨hnil, hdone, hcontrol⟩ := h.noTurn hturn
    exact ⟨hnil, hdone, fun entry he => hcontrol entry (hsub entry he).1⟩
  · intro u hu
    have hin := h.inTurn u hu
    refine
      { hin with
        settled := fun entry he => hin.settled entry (hsub entry he).1
        active := ?_ }
    intro hterminal
    have hactive := hin.active hterminal
    refine
      { hactive with
        order := ?_
        clear := ?_ }
    · intro hwait hread
      rw [hexact.entries_release]
      exact (hactive.order hwait hread).sublist List.filter_sublist
    · intro hoffer
      obtain ⟨hwait, hclear⟩ := hactive.clear hoffer
      exact ⟨hwait, fun entry he => hclear entry (hsub entry he).1⟩

/-- What a control message needs besides room. -/
structure Ready (requests : List (Request Params Flow Content)) (q : SessionQueue Message)
    (turn : Option Turn) (reader : Reader) (message : Message) : Prop where
  ordinary : message.isRequest = false
  started : message.control = true → turn ≠ none
  ofNotice : message.notice = true → (∀ r ∈ requests, r.noticeable = false) ∧
    (∀ entry ∈ q.retained, entry.value.notice = false) ∧
    ∀ t, turn = some t → t.terminal = false → t.waiting ≠ none
  ofTerminal : message.isTerminal = true → (∀ entry ∈ q.retained, entry.value.isTerminal = false) ∧
    (∀ t, turn = some t → t.nativeSettled = true ∧ t.terminal = false) ∧
    ∀ ticket, reader ≠ .completing ticket

theorem ready_update : Ready requests q turn reader .update :=
  ⟨rfl, nofun, nofun, nofun⟩

theorem admitted {limits : QueueLimits} {message : Message} {bytes : Nat} {flag : Bool}
    (h : Orderly requests sequence q turn reader gated)
    (hready : Ready requests q turn reader message)
    (hq : SessionQueue.Admitted limits message bytes flag q q') :
    Orderly requests sequence q' turn reader gated := by
  obtain ⟨hretained, hentries, hmade, hmem⟩ := hq.grown
  refine
    { h with
      live := by rw [hq.eq]; exact h.live
      requested := ?_
      own := ?_
      quiet := ?_
      oneNotice := ?_
      oneTerminal := ?_
      notices := ?_
      reading := ?_
      ending := ?_
      held := ?_
      noTurn := ?_
      inTurn := ?_ }
  · intro entry he id hvalue
    rcases hmem entry he with hold | rfl
    · exact h.requested entry hold id hvalue
    · have hordinary := hready.ordinary
      simp only at hvalue
      rw [hvalue] at hordinary
      cases hordinary
  · intro r hr
    obtain ⟨hlt, hown⟩ := h.own r hr
    refine ⟨by omega, fun entry he hticket => ?_⟩
    rcases hmem entry he with hold | rfl
    · exact hown entry hold hticket
    · simp only at hticket
      omega
  · intro r hr hn entry he
    rcases hmem entry he with hold | rfl
    · exact h.quiet r hr hn entry hold
    · by_contra hnotice
      have hnone := (hready.ofNotice (by simpa using hnotice)).1 r hr
      rw [hn] at hnone
      cases hnone
  · intro entry he other ho hen hon
    rcases hmem entry he with hold | rfl
    · rcases hmem other ho with hold' | rfl
      · exact h.oneNotice entry hold other hold' hen hon
      · exact absurd ((hready.ofNotice hon).2.1 entry hold) (by simp [hen])
    · rcases hmem other ho with hold' | rfl
      · exact absurd ((hready.ofNotice hen).2.1 other hold') (by simp [hon])
      · rfl
  · intro entry he other ho het hot
    rcases hmem entry he with hold | rfl
    · rcases hmem other ho with hold' | rfl
      · exact h.oneTerminal entry hold other hold' het hot
      · exact absurd ((hready.ofTerminal hot).1 entry hold) (by simp [het])
    · rcases hmem other ho with hold' | rfl
      · exact absurd ((hready.ofTerminal het).1 other hold') (by simp [hot])
      · rfl
  · intro entry he hn
    rcases hmem entry he with hold | rfl
    · rcases h.notices entry hold hn with hin | hread
      · left
        rw [hentries]
        exact List.mem_append_left _ hin
      · exact Or.inr hread
    · left
      rw [hentries]
      exact List.mem_append_right _ (List.mem_singleton.2 rfl)
  · intro ticket hread
    obtain ⟨entry, he, hrest⟩ := h.reading ticket hread
    refine ⟨entry, ?_, hrest⟩
    rw [hretained]
    exact List.mem_append_left _ he
  · intro ticket hreader entry he ht
    rcases hmem entry he with hold | rfl
    · exact h.ending ticket hreader entry hold ht
    · exact absurd hreader ((hready.ofTerminal ht).2.2 ticket)
  · intro ticket hticket
    obtain ⟨hlt, hne⟩ := h.held ticket hticket
    refine ⟨by omega, fun entry he => ?_⟩
    rw [hentries, List.mem_append, List.mem_singleton] at he
    rcases he with hold | rfl
    · exact hne entry hold
    · exact fun heq => absurd heq (by simp only; omega)
  · intro hturn
    obtain ⟨hnil, hdone, hcontrol⟩ := h.noTurn hturn
    refine ⟨hnil, hdone, fun entry he => ?_⟩
    rcases hmem entry he with hold | rfl
    · exact hcontrol entry hold
    · by_contra hcontrol'
      exact hready.started (by simpa using hcontrol') hturn
  · intro t ht
    have hin := h.inTurn t ht
    refine
      { hin with
        settled := ?_
        active := ?_ }
    · intro entry he hterminal
      rcases hmem entry he with hold | rfl
      · exact hin.settled entry hold hterminal
      · exact (hready.ofTerminal hterminal).2.1 t ht
    · intro hterminal
      have hactive := hin.active hterminal
      refine
        { hactive with
          order := ?_
          clear := ?_ }
      · intro hwait hread
        rw [hentries, List.pairwise_append]
        refine ⟨hactive.order hwait hread, List.pairwise_singleton _ _, ?_⟩
        intro a _ b hb _
        rw [List.mem_singleton] at hb
        subst hb
        by_contra hnotice
        exact (hready.ofNotice (by simpa using hnotice)).2.2 t ht hterminal hwait
      · intro hoffer
        obtain ⟨hwait, hclear⟩ := hactive.clear hoffer
        refine ⟨hwait, fun entry he => ?_⟩
        rcases hmem entry he with hold | rfl
        · exact hclear entry hold
        · by_contra hnotice
          exact (hready.ofNotice (by simpa using hnotice)).2.2 t ht hterminal hwait

/-- The entries alone say nothing of outputs and reservations. -/
theorem same (h : Orderly requests sequence q turn reader gated)
    (hentries : q'.entries = q.entries) (hretained : q'.retained = q.retained)
    (hmade : q.made ≤ q'.made) (hfailure : q'.failure = q.failure) :
    Orderly requests sequence q' turn reader gated := by
  refine
    { h with
      live := hfailure.trans h.live
      requested := hretained ▸ h.requested
      own := fun r hr => ⟨lt_of_lt_of_le (h.own r hr).1 hmade, hretained ▸ (h.own r hr).2⟩
      quiet := hretained ▸ h.quiet
      oneNotice := hretained ▸ h.oneNotice
      oneTerminal := hretained ▸ h.oneTerminal
      notices := by rw [hretained, hentries]; exact h.notices
      reading := hretained ▸ h.reading
      ending := hretained ▸ h.ending
      held := fun ticket hticket => ⟨lt_of_lt_of_le (h.held ticket hticket).1 hmade,
        hentries ▸ (h.held ticket hticket).2⟩
      noTurn := hretained ▸ h.noTurn
      inTurn := ?_ }
  intro t ht
  have hin := h.inTurn t ht
  refine
    { hin with
      settled := hretained ▸ hin.settled
      active := ?_ }
  intro hterminal
  have hactive := hin.active hterminal
  exact
    { hactive with
      order := hentries ▸ hactive.order
      clear := hretained ▸ hactive.clear }

/-! ### Changes of the turn and of the reader -/

variable {t t' : Turn} {reader' : Reader}

theorem moved (h : Orderly requests sequence q (some t) reader gated)
    (hread : reader'.withdraws = reader.withdraws) (hend : ∀ ticket, reader' ≠ .completing ticket)
    (hheld : reader'.ticket = none ∨ reader'.ticket = reader.ticket) (hin : InTurn requests q reader' t') :
    Orderly requests sequence q (some t') reader' gated :=
  { h with
    notices := by
      rw [hread]
      exact h.notices
    reading := by
      rw [hread]
      exact h.reading
    ending := fun ticket hreader => absurd hreader (hend ticket)
    held := fun ticket hticket => by
      rcases hheld with hnone | hsame
      · rw [hnone] at hticket
        cases hticket
      · exact h.held ticket (hsame ▸ hticket)
    noTurn := nofun
    inTurn := fun u hu => Option.some.inj hu ▸ hin }

theorem inTurn_plain (h : InTurn requests q reader t) (hread : reader.withdraws = none)
    (hover : reader ≠ .joining ∧ reader ≠ .done) (hplain : reader'.plain = true) :
    InTurn requests q reader' t := by
  obtain ⟨_, hprepares, hoffers, hjoining, hdone, hcompleting, _⟩ := Reader.plain_spec hplain
  have hterminal := h.live hover.1 hover.2
  have hactive := h.active hterminal
  refine h.goes_on hover.2 rfl rfl hterminal (fun _ he => he) ⟨hjoining, hdone⟩
    (fun ticket hr => absurd hr (hcompleting ticket)) ?_
  refine
    { hactive with
      order := fun hwait _ => hactive.order hwait hread
      clear := ?_
      single := fun hp => absurd hprepares hp
      ready := ?_
      maps := fun id hr => by
        rw [hr] at hprepares
        cases hprepares }
  · rintro (hp | htransition)
    · exact absurd hprepares hp
    · exact hactive.clear (Or.inr htransition)
  · rintro id (ho | htransition)
    · rw [hoffers] at ho
      cases ho
    · exact hactive.ready id (Or.inr htransition)

/-- The reader goes to a plain place while the turn is not over. -/
theorem plain (h : Orderly requests sequence q (some t) reader gated)
    (hread : reader.withdraws = none) (hover : reader ≠ .joining ∧ reader ≠ .done)
    (hplain : reader'.plain = true) : Orderly requests sequence q (some t) reader' gated := by
  obtain ⟨hnone, _, _, _, _, hcompleting, hticket⟩ := Reader.plain_spec hplain
  exact h.moved (hnone.trans hread.symm) hcompleting (Or.inl hticket)
    (inTurn_plain (h.inTurn t rfl) hread hover hplain)

/-- The reader takes an entry from the queue. -/
theorem taken (h : Orderly requests sequence q (some t) reader gated) (hexact : q.Exact)
    (hread : reader.withdraws = none) {entry : QueueEntry Message} (he : entry ∈ q.entries)
    (hnotice : entry.value.notice = true → reader'.withdraws = some entry.ticket)
    (hwithdraws : ∀ ticket, reader'.withdraws = some ticket →
      entry.ticket = ticket ∧ entry.value.notice = true)
    (hcompletes : ∀ ticket, reader' = .completing ticket →
      entry.ticket = ticket ∧ entry.value.isTerminal = true)
    (hheld : ∀ ticket, reader'.ticket = some ticket → entry.ticket = ticket)
    (hin : InTurn requests (q.taken entry) reader' t') :
    Orderly requests sequence (q.taken entry) (some t') reader' gated := by
  have hentry : entry ∈ q.retained := hexact.entries.subset he
  refine
    { h with
      notices := ?_
      reading := ?_
      ending := ?_
      held := ?_
      noTurn := nofun
      inTurn := fun u hu => Option.some.inj hu ▸ hin }
  · intro other ho hn
    by_cases hticket : other.ticket = entry.ticket
    · have hsame := Tickets.eq_of_ticket hexact.tickets ho hentry hticket
      subst hsame
      exact Or.inr (hnotice hn)
    · left
      rcases h.notices other ho hn with hin' | hr
      · exact List.mem_filter.2 ⟨hin', by simpa using hticket⟩
      · rw [hread] at hr
        cases hr
  · intro ticket hr
    obtain ⟨hticket, hn⟩ := hwithdraws ticket hr
    exact ⟨entry, hentry, hticket, hn⟩
  · intro ticket hr other ho ht
    obtain ⟨hticket, hterminal⟩ := hcompletes ticket hr
    exact (h.oneTerminal other ho entry hentry ht hterminal).trans hticket
  · intro ticket hr
    rw [← hheld ticket hr]
    refine ⟨hexact.made entry hentry, fun other ho => ?_⟩
    simpa using (List.mem_filter.1 ho).2

/-! ### Changes of one request -/

theorem mem_change {r' : Request Params Flow Content} :
    r' ∈ (requests.map fun r => if r.id = id then f r else r) ↔
      ∃ r ∈ requests, (r.id = id ∧ r' = f r) ∨ (r.id ≠ id ∧ r' = r) := by
  rw [List.mem_map]
  constructor
  · rintro ⟨r, hr, rfl⟩
    by_cases hid : r.id = id
    · exact ⟨r, hr, Or.inl ⟨hid, if_pos hid⟩⟩
    · exact ⟨r, hr, Or.inr ⟨hid, if_neg hid⟩⟩
  · rintro ⟨r, hr, ⟨hid, rfl⟩ | ⟨hid, rfl⟩⟩
    · exact ⟨r, hr, if_pos hid⟩
    · exact ⟨r', hr, if_neg hid⟩

/-- What a change keeps of one request, and what holds of all, holds of all after it. -/
theorem forall_change {P : Request Params Flow Content → Prop}
    (hf : ∀ x ∈ requests, x.id = id → P (f x)) (h : ∀ x ∈ requests, P x) :
    ∀ x ∈ requests.map fun r => if r.id = id then f r else r, P x := by
  intro x' hx'
  obtain ⟨x, hx, ⟨hid, rfl⟩ | ⟨-, rfl⟩⟩ := mem_change.1 hx'
  · exact hf x hx hid
  · exact h x' hx

theorem exists_change {P : Request Params Flow Content → Prop}
    (hf : ∀ x ∈ requests, x.id = id → P x → P (f x)) (h : ∃ x ∈ requests, P x) :
    ∃ x ∈ requests.map fun r => if r.id = id then f r else r, P x := by
  obtain ⟨x, hx, hP⟩ := h
  by_cases hid : x.id = id
  · exact ⟨f x, mem_change.2 ⟨x, hx, Or.inl ⟨hid, rfl⟩⟩, hf x hx hid hP⟩
  · exact ⟨x, mem_change.2 ⟨x, hx, Or.inr ⟨hid, rfl⟩⟩, hP⟩

theorem ids_change (hf : ∀ r, (f r).id = r.id) :
    (requests.map fun r => if r.id = id then f r else r).map Request.id =
      requests.map Request.id := by
  rw [List.map_map]
  refine List.map_congr_left fun r _ => ?_
  by_cases hid : r.id = id
  · simp [hid, hf]
  · simp [hid]

/-- A request that was answered leaves the transport. -/
theorem unretain (h : Orderly requests sequence q (some t) reader gated) (hexact : q.Exact)
    (hr : r ∈ requests) (hanswered : r.answered = true)
    (hentry : ∀ entry ∈ q.retained, entry.value ≠ .request r.id)
    (ht : t' = if r.unavailable = false ∧ t.waiting = some r.id then { t with waiting := none }
      else t) :
    Orderly (requests.map fun x => if x.id = r.id then { x with retained := false } else x)
      sequence q (some t') reader gated := by
  have hrequests : ∀ x' ∈ (requests.map fun x =>
      if x.id = r.id then { x with retained := false } else x), x'.noticeable = true →
      x' ∈ requests ∧ x'.id ≠ r.id := by
    intro x' hx' hn
    obtain ⟨x, hx, ⟨-, rfl⟩ | ⟨hid, rfl⟩⟩ := mem_change.1 hx'
    · simp [Request.noticeable] at hn
    · exact ⟨hx, hid⟩
  have hin := h.inTurn t rfl
  have hfields : t'.nativeSettled = t.nativeSettled ∧ t'.terminal = t.terminal ∧
      t'.sourceSettled = t.sourceSettled ∧ t'.transition = t.transition := by
    rw [ht]
    split <;> exact ⟨rfl, rfl, rfl, rfl⟩
  obtain ⟨hsettled, hterminal, hsource, htransition⟩ := hfields
  have hwaiting : t'.waiting = t.waiting ∨ (t'.waiting = none ∧ t.waiting = some r.id ∧
      r.unavailable = false) := by
    rw [ht]
    split
    · rename_i hcond
      exact Or.inr ⟨rfl, hcond.2, hcond.1⟩
    · exact Or.inl rfl
  refine
    { h with
      ids := ?_
      sound := ?_
      fresh := ?_
      requested := ?_
      own := ?_
      quiet := fun x hx hn => h.quiet x (hrequests x hx hn).1 hn
      oneNoticeable := fun x hx y hy hn hm =>
        h.oneNoticeable x (hrequests x hx hn).1 y (hrequests y hy hm).1 hn hm
      gates := ?_
      noTurn := nofun
      inTurn := ?_ }
  · rw [ids_change (fun x => by rfl), h.ids, List.length_map]
  · intro x' hx'
    obtain ⟨x, hx, ⟨hid, rfl⟩ | ⟨-, rfl⟩⟩ := mem_change.1 hx'
    · have hsound := h.sound x hx
      have hsame := h.eq_of_id hx hr hid
      exact ⟨hsound.pending, hsound.unavailable, hsound.aborted,
        fun hno => absurd (hsame ▸ hanswered) (by simpa using hno), hsound.kinds⟩
    · exact h.sound x' hx
  · exact forall_change (fun x hx _ => h.fresh x hx) h.fresh
  · intro entry he id hvalue
    obtain ⟨x, hx, hid, hretained, hticket⟩ := h.requested entry he id hvalue
    have hne : x.id ≠ r.id := fun heq => hentry entry he (by rw [hvalue, ← hid, heq])
    exact ⟨x, mem_change.2 ⟨x, hx, Or.inr ⟨hne, rfl⟩⟩, hid, hretained, hticket⟩
  · exact forall_change (fun x hx _ => h.own x hx) h.own
  · intro id hid
    refine exists_change (fun x hx hxr hgate => ⟨hgate.1, hgate.2.1, fun hno => ?_⟩) (h.gates id hid)
    have hsame := h.eq_of_id hx hr hxr
    exact absurd (hsame ▸ hanswered) (by simpa using hno)
  · intro u hu
    obtain rfl := Option.some.inj hu
    refine
      { settled := by rw [hsettled, hterminal]; exact hin.settled
        finished := by rw [hterminal]; exact hin.finished
        joining := by rw [hterminal]; exact hin.joining
        settles := by rw [hterminal, hsettled]; exact hin.settles
        source := ?_
        active := ?_ }
    · intro hs
      obtain ⟨hreader, hnone⟩ := hin.source (hsource ▸ hs)
      exact ⟨hreader, forall_change (fun _ _ _ => rfl) hnone⟩
    · intro hno
      have hactive := hin.active (hterminal ▸ hno)
      -- the wait ends only for a request whose withdrawal nothing has announced
      have hquiet : t'.waiting ≠ t.waiting → ∀ entry ∈ q.retained, entry.value.notice = false := by
        intro hchanged
        obtain hsame | ⟨-, hwas, hunavailable⟩ := hwaiting
        · exact absurd hsame hchanged
        · obtain ⟨x, hx, hid, hu | hn⟩ := hactive.waited r.id hwas
          · rw [h.eq_of_id hx hr hid, hunavailable] at hu
            cases hu
          · exact h.quiet x hx hn
      refine
        { waits := ?_
          waited := ?_
          order := ?_
          clear := ?_
          single := by rw [htransition]; exact hactive.single
          ready := ?_
          maps := ?_ }
      · intro x hx hn
        obtain ⟨hmem, hne⟩ := hrequests x hx hn
        have hwas := hactive.waits x hmem hn
        obtain hsame | ⟨-, hwas', -⟩ := hwaiting
        · exact hsame.trans hwas
        · rw [hwas] at hwas'
          exact absurd (Option.some.inj hwas') hne
      · intro id hid
        obtain hsame | ⟨hnone, -, -⟩ := hwaiting
        · obtain ⟨x, hx, hxid, hx'⟩ := hactive.waited id (hsame ▸ hid)
          by_cases hne : x.id = r.id
          · refine ⟨_, mem_change.2 ⟨x, hx, Or.inl ⟨hne, rfl⟩⟩, hxid, Or.inl ?_⟩
            cases hu : x.unavailable with
            | true => rfl
            | false =>
              have hrx := h.eq_of_id hx hr hne
              have hwas : t.waiting = some r.id := by rw [← hsame, hid, ← hxid, hne]
              rw [if_pos ⟨hrx ▸ hu, hwas⟩] at ht
              rw [ht] at hid
              cases hid
          · exact ⟨x, mem_change.2 ⟨x, hx, Or.inr ⟨hne, rfl⟩⟩, hxid, hx'⟩
        · rw [hnone] at hid
          cases hid
      · intro hnone hread
        by_cases hsame : t'.waiting = t.waiting
        · exact hactive.order (hsame ▸ hnone) hread
        · exact List.pairwise_of_forall_mem_list fun a _ b hb _ =>
            hquiet hsame b (hexact.entries.subset hb)
      · intro hoffer
        rw [htransition] at hoffer
        obtain ⟨hnone, hclear⟩ := hactive.clear hoffer
        refine ⟨?_, hclear⟩
        obtain hsame | ⟨hnone', -, -⟩ := hwaiting
        · exact hsame.trans hnone
        · exact hnone'
      · intro id hoffer
        rw [htransition] at hoffer
        exact exists_change (fun _ _ _ hx => hx) (hactive.ready id hoffer)
      · intro id hid
        exact exists_change (fun _ _ _ hx => hx) (hactive.maps id hid)

/-- While the turn waits for nothing, nothing is noticeable. -/
theorem not_noticeable (h : Orderly requests sequence q (some t) reader gated)
    (hterminal : t.terminal = false) (hwait : t.waiting = none) (hr : r ∈ requests) :
    r.noticeable = false := by
  cases hn : r.noticeable with
  | false => rfl
  | true =>
    have hwas := ((h.inTurn t rfl).active hterminal).waits r hr hn
    rw [hwait] at hwas
    cases hwas

/-- A new mapping has an identity that was never published. -/
theorem not_noticeable_remapped (h : Orderly requests sequence q turn reader gated)
    {x : Request Params Flow Content} (hx : x ∈ requests) (offered : Offered Flow) :
    Request.noticeable { x with mapped := some { requestId := sequence + 1, offered } } = false := by
  rw [Bool.eq_false_iff]
  intro hn
  simp only [Request.noticeable, Bool.and_eq_true] at hn
  obtain ⟨requestId, hp⟩ := Option.isSome_iff_exists.1 hn.2
  obtain ⟨hpublished, hmapped⟩ := Request.published_eq_some.1 hp
  have hle := h.fresh x hx requestId (Or.inl hpublished)
  simp only [Option.map_some, Option.some.injEq] at hmapped
  omega

theorem fresh_remapped (h : Orderly requests sequence q turn reader gated)
    (offered : Offered Flow) :
    ∀ x ∈ requests.map fun x => if x.id = id then
        { x with mapped := some { requestId := sequence + 1, offered } } else x,
      ∀ requestId, x.publishedRequestId = some requestId ∨
        x.mapped.map MappedRequest.requestId = some requestId → requestId ≤ sequence + 1 := by
  refine forall_change (fun x hx _ requestId hp => ?_)
    fun x hx requestId hp => Nat.le_succ_of_le (h.fresh x hx requestId hp)
  rcases hp with hp | hp
  · exact Nat.le_succ_of_le (h.fresh x hx requestId (Or.inl hp))
  · simp only [Option.map_some, Option.some.injEq] at hp
    omega

theorem sound_remapped (h : Orderly requests sequence q turn reader gated) (hr : r ∈ requests)
    {offered : Offered Flow} (hkind : offered.isPermission = true ↔ r.kind = .permission) :
    ∀ x ∈ requests.map fun x => if x.id = r.id then
      { x with mapped := some { requestId := sequence + 1, offered } } else x, x.Sound := by
  refine forall_change (fun x hx hid => ?_) h.sound
  have hsound := h.sound x hx
  have hsame := h.eq_of_id hx hr hid
  refine { hsound with kinds := fun m hm => ?_ }
  simp only [Option.some.injEq] at hm
  rw [← hm, hkind, hsame]

/-- A request that is mapped anew, when nothing is noticeable afterwards. -/
theorem remapped (h : Orderly requests sequence q (some t) reader gated) (hr : r ∈ requests)
    {offered : Offered Flow} (hkind : offered.isPermission = true ↔ r.kind = .permission)
    (heq : requests' = requests.map fun x => if x.id = r.id then
      { x with mapped := some { requestId := sequence + 1, offered } } else x)
    (hnone : ∀ x ∈ requests', x.noticeable = false)
    (hgates : ∀ id ∈ gated, ∃ x ∈ requests', x.id = id ∧ x.kind = .permission ∧
      (x.answered = false → x.published.isSome = true))
    (hin : InTurn requests' q reader t') :
    Orderly requests' (sequence + 1) q (some t') reader gated := by
  subst heq
  refine
    { h with
      ids := ?_
      sound := h.sound_remapped hr hkind
      fresh := h.fresh_remapped _
      requested := fun entry he id hvalue =>
        exists_change (fun _ _ _ hx => hx) (h.requested entry he id hvalue)
      own := forall_change (fun x hx _ => h.own x hx) h.own
      quiet := fun x hx hn => absurd hn (by simp [hnone x hx])
      oneNoticeable := fun x hx _ _ hn => absurd hn (by simp [hnone x hx])
      gates := hgates
      noTurn := nofun
      inTurn := fun u hu => Option.some.inj hu ▸ hin }
  rw [ids_change (fun x => by rfl), h.ids, List.length_map]

/-- A request that is mapped anew, while the turn waits for nothing. -/
theorem mapped (h : Orderly requests sequence q (some t) reader gated)
    (hterminal : t.terminal = false) (hwait : t.waiting = none) {r : Request Params Flow Content}
    (hr : r ∈ requests) {offered : Offered Flow}
    (hkind : offered.isPermission = true ↔ r.kind = .permission) :
    Orderly (requests.map fun x => if x.id = r.id then
        { x with mapped := some { requestId := sequence + 1, offered } } else x)
      (sequence + 1) q (some t) reader gated := by
  have hnone : ∀ x' ∈ (requests.map fun x => if x.id = r.id then
      { x with mapped := some { requestId := sequence + 1, offered } } else x),
      x'.noticeable = false := by
    intro x' hx'
    obtain ⟨x, hx, ⟨-, rfl⟩ | ⟨-, rfl⟩⟩ := mem_change.1 hx'
    · exact h.not_noticeable_remapped hx offered
    · exact h.not_noticeable hterminal hwait hx
  have hin := h.inTurn t rfl
  refine h.remapped hr hkind rfl hnone ?_ ?_
  · intro id hid
    obtain ⟨x, hx, hxid, hxkind, hpublished⟩ := h.gates id hid
    have hno : x.answered = true := by
      cases ha : x.answered with
      | true => rfl
      | false =>
        have hsound := h.sound x hx
        have hn := h.not_noticeable hterminal hwait hx
        have hu := hsound.available ha
        simp [Request.noticeable, hsound.retained ha, hu] at hn
        exact absurd (hpublished ha) (by simp [hn])
    by_cases hne : x.id = r.id
    · exact ⟨_, mem_change.2 ⟨x, hx, Or.inl ⟨hne, rfl⟩⟩, hxid, hxkind,
        fun ha => absurd hno (by simpa using ha)⟩
    · exact ⟨x, mem_change.2 ⟨x, hx, Or.inr ⟨hne, rfl⟩⟩, hxid, hxkind,
        fun ha => absurd hno (by simpa using ha)⟩
  · refine
      { hin with
        source := ?_
        active := fun hno => ?_ }
    · intro hs
      obtain ⟨hreader, hall⟩ := hin.source hs
      exact ⟨hreader, forall_change (fun x hx _ => hall x hx) hall⟩
    · have hactive := hin.active hno
      refine
        { hactive with
          waits := fun x hx hn => absurd hn (by simp [hnone x hx])
          waited := fun id hid => absurd hid (by simp [hwait])
          ready := ?_
          maps := ?_ }
      · intro id hoffer
        exact exists_change (fun _ _ _ hx => ⟨hx.1, rfl⟩) (hactive.ready id hoffer)
      · intro id hreader
        exact exists_change (fun _ _ _ hx => hx) (hactive.maps id hreader)

/-- A mapped request is published: from now on the turn waits for it. -/
theorem offered (h : Orderly requests sequence q (some t) reader gated)
    (hterminal : t.terminal = false) (hwait : t.waiting = none)
    (hclear : ∀ entry ∈ q.retained, entry.value.notice = false)
    (htransition : ∀ id, t.transition ≠ some (some id))
    (hreader : reader ≠ .joining ∧ reader ≠ .done) (hr : r ∈ requests)
    (hanswered : r.answered = false) (hmapped : r.mapped.isSome = true) :
    Orderly (requests.map fun x => if x.id = r.id then
        { x with publishedRequestId := x.mapped.map MappedRequest.requestId } else x)
      sequence q (some { t with waiting := some r.id }) (.opening r.id) gated := by
  have hnone : ∀ x ∈ requests, x.noticeable = false :=
    fun x hx => h.not_noticeable hterminal hwait hx
  have honly : ∀ x' ∈ (requests.map fun x => if x.id = r.id then
      { x with publishedRequestId := x.mapped.map MappedRequest.requestId } else x),
      x'.noticeable = true → x'.id = r.id := by
    intro x' hx' hn
    obtain ⟨x, hx, ⟨hid, rfl⟩ | ⟨-, rfl⟩⟩ := mem_change.1 hx'
    · exact hid
    · rw [hnone x' hx] at hn
      cases hn
  have hpublished : ∀ x : Request Params Flow Content, x.mapped.isSome = true →
      Request.published { x with publishedRequestId := x.mapped.map MappedRequest.requestId } =
        x.mapped.map MappedRequest.requestId := by
    intro x hx
    obtain ⟨m, hm⟩ := Option.isSome_iff_exists.1 hx
    simp [Request.published, hm]
  have hin := h.inTurn t rfl
  refine
    { h with
      ids := ?_
      sound := ?_
      fresh := ?_
      requested := ?_
      own := ?_
      quiet := fun _ _ _ => hclear
      oneNoticeable := fun x hx y hy hn hm => (honly x hx hn).trans (honly y hy hm).symm
      notices := ?_
      reading := nofun
      ending := nofun
      held := nofun
      gates := ?_
      noTurn := nofun
      inTurn := ?_ }
  · rw [ids_change (fun x => by rfl), h.ids, List.length_map]
  · intro x' hx'
    obtain ⟨x, hx, ⟨-, rfl⟩ | ⟨-, rfl⟩⟩ := mem_change.1 hx'
    · have hsound := h.sound x hx
      exact { hsound with }
    · exact h.sound x' hx
  · intro x' hx' requestId hp
    obtain ⟨x, hx, ⟨-, rfl⟩ | ⟨-, rfl⟩⟩ := mem_change.1 hx'
    · exact h.fresh x hx requestId (Or.inr (hp.elim id id))
    · exact h.fresh x' hx requestId hp
  · intro entry he id hvalue
    exact exists_change (fun _ _ _ hx => hx) (h.requested entry he id hvalue)
  · exact forall_change (fun x hx _ => h.own x hx) h.own
  · intro entry he hn
    rw [hclear entry he] at hn
    cases hn
  · intro id hid
    obtain ⟨x, hx, hxid, hxkind, hp⟩ := h.gates id hid
    by_cases hne : x.id = r.id
    · refine ⟨_, mem_change.2 ⟨x, hx, Or.inl ⟨hne, rfl⟩⟩, hxid, hxkind, fun _ => ?_⟩
      have hsame := h.eq_of_id hx hr hne
      rw [hpublished x (hsame ▸ hmapped)]
      simpa using hsame ▸ hmapped
    · exact ⟨x, mem_change.2 ⟨x, hx, Or.inr ⟨hne, rfl⟩⟩, hxid, hxkind, hp⟩
  · intro u hu
    obtain rfl := Option.some.inj hu
    refine hin.goes_on hreader.2 rfl rfl hterminal (fun _ he => he) ⟨nofun, nofun⟩ nofun ?_
    refine
      { waits := fun x hx hn => congrArg some (honly x hx hn).symm
        waited := ?_
        order := fun hno => by cases hno
        clear := ?_
        single := fun hp => absurd rfl hp
        ready := ?_
        maps := nofun }
    · intro id hid
      have hid' : r.id = id := Option.some.inj hid
      refine ⟨_, mem_change.2 ⟨r, hr, Or.inl ⟨rfl, rfl⟩⟩, hid', Or.inr ?_⟩
      have hsound := h.sound r hr
      have hu := hsound.available hanswered
      simp only [Request.noticeable, hpublished r hmapped]
      simp [hsound.retained hanswered, hu, hmapped]
    · rintro (hp | ⟨id, hid⟩)
      · exact absurd rfl hp
      · exact absurd hid (htransition id)
    · rintro id (ho | hid)
      · cases ho
      · exact absurd hid (htransition id)

/-- A published form goes on to its next request. -/
theorem advanced (h : Orderly requests sequence q (some t) reader gated) (hexact : q.Exact)
    (hr : r ∈ requests) (hanswered : r.answered = false) (hpublished : r.published.isSome = true)
    (hkind : r.kind = .form) (flow : Flow) :
    Orderly (requests.map fun x => if x.id = r.id then
        { x with mapped := some { requestId := sequence + 1, offered := .form flow } } else x)
      (sequence + 1) q (some { t with waiting := none, transition := some (some r.id) }) reader
      gated := by
  have hsound := h.sound r hr
  have hu := hsound.available hanswered
  have hnoticeable : r.noticeable = true := by
    simp [Request.noticeable, hsound.retained hanswered, hu, hpublished]
  have hnone : ∀ x' ∈ (requests.map fun x => if x.id = r.id then
      { x with mapped := some { requestId := sequence + 1, offered := .form flow } } else x),
      x'.noticeable = false := by
    intro x' hx'
    obtain ⟨x, hx, ⟨-, rfl⟩ | ⟨hid, rfl⟩⟩ := mem_change.1 hx'
    · exact h.not_noticeable_remapped hx (.form flow)
    · cases hn : x'.noticeable with
      | false => rfl
      | true => exact absurd (h.oneNoticeable x' hx r hr hn hnoticeable) hid
  have hclear := h.quiet r hr hnoticeable
  have hin := h.inTurn t rfl
  refine h.remapped hr (by simp [hkind, Offered.isPermission]) rfl hnone ?_ ?_
  · intro id hid
    obtain ⟨x, hx, hxid, hxkind, hp⟩ := h.gates id hid
    have hne : x.id ≠ r.id := by
      intro heq
      rw [h.eq_of_id hx hr heq, hkind] at hxkind
      cases hxkind
    exact ⟨x, mem_change.2 ⟨x, hx, Or.inr ⟨hne, rfl⟩⟩, hxid, hxkind, hp⟩
  · refine
      { hin with
        source := ?_
        active := fun hno => ?_ }
    · intro hs
      have hretained := (hin.source hs).2 r hr
      rw [hsound.retained hanswered] at hretained
      cases hretained
    · have hactive := hin.active hno
      have hwas := hactive.waits r hr hnoticeable
      have hprepares : reader.prepares = none := by
        by_contra hp
        have hnone' := (hactive.clear (Or.inl hp)).1
        rw [hwas] at hnone'
        cases hnone'
      refine
        { waits := fun x hx hn => absurd hn (by simp [hnone x hx])
          waited := nofun
          order := fun _ _ => List.pairwise_of_forall_mem_list fun a _ b hb _ =>
            hclear b (hexact.entries.subset hb)
          clear := fun _ => ⟨rfl, hclear⟩
          single := fun hp => absurd hprepares hp
          ready := ?_
          maps := fun id hr => by
            rw [hr] at hprepares
            cases hprepares }
      rintro id (ho | hid)
      · have hready := hactive.ready id (Or.inl ho)
        obtain ⟨x, hx, hxid, hmapped⟩ := hready
        by_cases hne : x.id = r.id
        · exact ⟨_, mem_change.2 ⟨x, hx, Or.inl ⟨hne, rfl⟩⟩, hxid, rfl⟩
        · exact ⟨x, mem_change.2 ⟨x, hx, Or.inr ⟨hne, rfl⟩⟩, hxid, hmapped⟩
      · have hid' : r.id = id := Option.some.inj (Option.some.inj hid)
        exact ⟨_, mem_change.2 ⟨r, hr, Or.inl ⟨rfl, rfl⟩⟩, hid', rfl⟩

/-- A new request with its entry. -/
theorem registered (h : Orderly requests sequence q (some t) reader gated) (hexact : q.Exact)
    (hsource : t.sourceSettled = false) {limits : QueueLimits} {bytes : Nat} {flag : Bool}
    (hid : r.id = requests.length) (hentry : r.entry = q.made) (hmapped : r.mapped = none)
    (hpublished : r.publishedRequestId = none) (hretained : r.retained = true) (hsound : r.Sound)
    (hq : SessionQueue.Admitted limits (.request r.id) bytes flag q q') :
    Orderly (requests ++ [r]) sequence q' (some t) reader gated := by
  obtain ⟨hkept, hentries, hmade, hmem⟩ := hq.grown
  have hnotice : ∀ entry ∈ q'.retained, entry.value.notice = true → entry ∈ q.retained := by
    intro entry he hn
    rcases hmem entry he with hold | rfl
    · exact hold
    · cases hn
  have hterminal : ∀ entry ∈ q'.retained, entry.value.isTerminal = true → entry ∈ q.retained := by
    intro entry he hn
    rcases hmem entry he with hold | rfl
    · exact hold
    · cases hn
  have hnew : ∀ x ∈ requests ++ [r], x.noticeable = true → x ∈ requests := by
    intro x hx hn
    rcases List.mem_append.1 hx with hold | hlast
    · exact hold
    · rw [List.mem_singleton.1 hlast] at hn
      simp [Request.noticeable, Request.published, hpublished] at hn
  have hgrown : ∀ {P : _ → Prop}, (∃ x ∈ requests, P x) → ∃ x ∈ requests ++ [r], P x := by
    rintro P ⟨x, hx, hrest⟩
    exact ⟨x, List.mem_append_left _ hx, hrest⟩
  have hin := h.inTurn t rfl
  refine
    { live := by rw [hq.eq]; exact h.live
      ids := ?_
      sound := ?_
      fresh := ?_
      requested := ?_
      own := ?_
      quiet := ?_
      oneNoticeable := fun x hx y hy hn hm =>
        h.oneNoticeable x (hnew x hx hn) y (hnew y hy hm) hn hm
      oneNotice := fun entry he other ho hen hon =>
        h.oneNotice entry (hnotice entry he hen) other (hnotice other ho hon) hen hon
      oneTerminal := fun entry he other ho het hot =>
        h.oneTerminal entry (hterminal entry he het) other (hterminal other ho hot) het hot
      notices := ?_
      reading := ?_
      ending := fun ticket hr entry he ht =>
        h.ending ticket hr entry (hterminal entry he ht) ht
      held := ?_
      gates := fun id hg => hgrown (h.gates id hg)
      noTurn := nofun
      inTurn := ?_ }
  · rw [List.map_append, h.ids, List.map_singleton, hid, List.length_append, List.length_singleton,
      List.range_succ]
  · intro x hx
    rcases List.mem_append.1 hx with hold | hlast
    · exact h.sound x hold
    · rw [List.mem_singleton.1 hlast]
      exact hsound
  · intro x hx requestId hp
    rcases List.mem_append.1 hx with hold | hlast
    · exact h.fresh x hold requestId hp
    · rw [List.mem_singleton.1 hlast, hpublished, hmapped] at hp
      rcases hp with hp | hp <;> cases hp
  · intro entry he id hvalue
    rcases hmem entry he with hold | rfl
    · exact hgrown (h.requested entry hold id hvalue)
    · simp only [Message.request.injEq] at hvalue
      exact ⟨r, by simp, hvalue, hretained, hentry⟩
  · intro x hx
    rcases List.mem_append.1 hx with hold | hlast
    · obtain ⟨hlt, hown⟩ := h.own x hold
      refine ⟨by omega, fun entry he hticket => ?_⟩
      rcases hmem entry he with hold' | rfl
      · exact hown entry hold' hticket
      · simp only at hticket
        omega
    · rw [List.mem_singleton.1 hlast]
      refine ⟨by omega, fun entry he hticket => ?_⟩
      rcases hmem entry he with hold' | rfl
      · have hlt := hexact.made entry hold'
        omega
      · rfl
  · intro x hx hn entry he
    cases hen : entry.value.notice with
    | false => rfl
    | true => exact (h.quiet x (hnew x hx hn) hn entry (hnotice entry he hen)).symm.trans hen |>.symm
  · intro entry he hn
    rcases h.notices entry (hnotice entry he hn) hn with hin' | hr
    · left
      rw [hentries]
      exact List.mem_append_left _ hin'
    · exact Or.inr hr
  · intro ticket hr
    obtain ⟨entry, he, hrest⟩ := h.reading ticket hr
    refine ⟨entry, ?_, hrest⟩
    rw [hkept]
    exact List.mem_append_left _ he
  · intro ticket hticket
    obtain ⟨hlt, hne⟩ := h.held ticket hticket
    refine ⟨by omega, fun entry he => ?_⟩
    rw [hentries, List.mem_append, List.mem_singleton] at he
    rcases he with hold | rfl
    · exact hne entry hold
    · exact fun heq => absurd heq (by simp only; omega)
  · intro u hu
    obtain rfl := Option.some.inj hu
    refine
      { hin with
        settled := fun entry he ht => hin.settled entry (hterminal entry he ht) ht
        source := fun hs => absurd hs (by simp [hsource])
        active := fun hno => ?_ }
    have hactive := hin.active hno
    refine
      { waits := fun x hx hn => hactive.waits x (hnew x hx hn) hn
        waited := fun id hwaits => hgrown (hactive.waited id hwaits)
        order := ?_
        clear := ?_
        single := hactive.single
        ready := fun id hoffer => hgrown (hactive.ready id hoffer)
        maps := fun id hreader => hgrown (hactive.maps id hreader) }
    · intro hwait hr
      rw [hentries, List.pairwise_append]
      refine ⟨hactive.order hwait hr, List.pairwise_singleton _ _, ?_⟩
      intro a _ b hb _
      rw [List.mem_singleton.1 hb]
      rfl
    · intro hoffer
      obtain ⟨hwait, hclear⟩ := hactive.clear hoffer
      refine ⟨hwait, fun entry he => ?_⟩
      rcases hmem entry he with hold | rfl
      · exact hclear entry hold
      · rfl

/-- The reader releases the entry it held. -/
theorem released (h : Orderly requests sequence q (some t) reader gated) {ticket : Nat}
    (hnotices : ∀ entry ∈ q.retained, entry.ticket ≠ ticket → entry.value.notice = true →
      entry ∈ (q.release ticket).entries)
    (hread : reader'.ticket = none) (hin : InTurn requests (q.release ticket) reader' t') :
    Orderly requests sequence (q.release ticket) (some t') reader' gated := by
  have hsub : ∀ entry ∈ (q.release ticket).retained, entry ∈ q.retained ∧ entry.ticket ≠ ticket := by
    intro entry hentry
    rw [SessionQueue.retained_release, List.mem_filter] at hentry
    exact ⟨hentry.1, by simpa using hentry.2⟩
  have hmade := (SessionQueue.release_rest q ticket).2.2.2
  refine
    { h with
      live := (SessionQueue.release_rest q ticket).1.trans h.live
      requested := fun entry hentry => h.requested entry (hsub entry hentry).1
      own := ?_
      quiet := fun r hr hn entry hentry => h.quiet r hr hn entry (hsub entry hentry).1
      oneNotice := fun entry he other ho =>
        h.oneNotice entry (hsub entry he).1 other (hsub other ho).1
      oneTerminal := fun entry he other ho =>
        h.oneTerminal entry (hsub entry he).1 other (hsub other ho).1
      notices := fun entry he hn =>
        Or.inl (hnotices entry (hsub entry he).1 (hsub entry he).2 hn)
      reading := fun other hother => absurd (Reader.ticket_of_withdraws hother) (by simp [hread])
      ending := fun other hother => by
        rw [hother] at hread
        cases hread
      held := fun other hother => absurd hother (by simp [hread])
      noTurn := nofun
      inTurn := fun u hu => Option.some.inj hu ▸ hin }
  intro r hr
  rw [hmade]
  exact ⟨(h.own r hr).1, fun entry he => (h.own r hr).2 entry (hsub entry he).1⟩

end Orderly

end Provider

end AgentSdk
