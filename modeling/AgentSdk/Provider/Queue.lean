import Mathlib.Algebra.Order.BigOperators.Group.List
import AgentSdk.Lib.Tickets

/-!
# The queue of a session

Messages, item state and mapped output of a session share one budget in slots
and in bytes.  An ordinary message leaves two slots and two events free, a
control message one.  An entry is counted until it is released, whether the
reader has taken it or not; a reservation of item state is counted until its
owner gives it back, and releasing either of them twice has no effect.

## Main results

* `SessionQueue.Exact` — the counters are the sums over what is retained.
* `SessionQueue.Room` — what ordinary entries and reservations leave free.
-/

namespace AgentSdk

namespace Provider

/-- `AGENT_PROTOCOL_EVENT_BYTES_LIMIT` -/
def eventBytesLimit : Nat := 32768

structure QueueLimits where
  maxQueuedMessages : Nat
  maxQueuedBytes : Nat
  deriving DecidableEq

structure SessionError where
  reasonCode : String
  message : String
  deriving DecidableEq

def queueFull : SessionError :=
  { reasonCode := "acp_session_queue_full"
    message := "The ACP session output budget is exhausted." }

def outputFull : SessionError :=
  { reasonCode := "acp_session_output_full"
    message := "The ACP session mapped output budget is exhausted." }

def stateFull : SessionError :=
  { reasonCode := "acp_session_state_full"
    message := "The ACP session item state budget is exhausted." }

/-- An entry of the queue.  The ticket stands for the identity of the object. -/
structure QueueEntry (α : Type) where
  ticket : Nat
  value : α
  bytes : Nat
  deriving DecidableEq

/-- A reservation of item state that its owner has not given back. -/
structure Reservation where
  ticket : Nat
  bytes : Nat
  deriving DecidableEq

/-- The queue with its counters, the reservations that are still held, and the number of objects
made so far. -/
structure SessionQueue (α : Type) where
  entries : List (QueueEntry α) := []
  retained : List (QueueEntry α) := []
  failure : Option SessionError := none
  bytes : Int := 0
  outputBytes : Nat := 0
  stateCount : Int := 0
  held : List Reservation := []
  made : Nat := 0
  deriving DecidableEq

namespace SessionQueue

variable {α : Type}

/-- The slots that are in use: retained entries and reservations. -/
def slots (q : SessionQueue α) : Int := q.retained.length + q.stateCount

/-- The slots and events that a message leaves free. -/
def margin (control : Bool) : Int := if control then 1 else 2

/-- `admit` -/
def admitValue (limits : QueueLimits) (value : α) (bytes : Nat) (control : Bool)
    (q : SessionQueue α) : Except SessionError (SessionQueue α) :=
  match q.failure with
  | some failure => .error failure
  | none =>
    if limits.maxQueuedMessages - margin control ≤ q.slots ∨
        limits.maxQueuedBytes - eventBytesLimit * margin control < q.bytes + bytes then
      .error queueFull
    else
      .ok
        { q with
          entries := q.entries ++ [{ ticket := q.made, value, bytes }]
          retained := q.retained ++ [{ ticket := q.made, value, bytes }]
          bytes := q.bytes + bytes
          made := q.made + 1 }

/-- `release` of the entry with a ticket. -/
def release (ticket : Nat) (q : SessionQueue α) : SessionQueue α :=
  match q.retained.find? fun entry => entry.ticket = ticket with
  | none => q
  | some entry =>
    { q with
      entries := q.entries.filter fun entry => entry.ticket ≠ ticket
      retained := q.retained.filter fun entry => entry.ticket ≠ ticket
      bytes := q.bytes - entry.bytes }

/-- The entry `take` would return, unless the reader stops. -/
def next (canTake : α → Bool) (q : SessionQueue α) : Option (QueueEntry α) :=
  q.entries.find? fun entry => canTake entry.value

/-- The queue after `take` has returned an entry. -/
def taken (entry : QueueEntry α) (q : SessionQueue α) : SessionQueue α :=
  { q with entries := q.entries.filter fun other => other.ticket ≠ entry.ticket }

def reserveOutput (limits : QueueLimits) (bytes : Nat) (q : SessionQueue α) :
    Except SessionError (SessionQueue α) :=
  if q.outputBytes ≠ 0 ∨ eventBytesLimit < bytes ∨ limits.maxQueuedBytes < q.bytes + bytes then
    .error outputFull
  else .ok { q with outputBytes := bytes }

def releaseOutput (q : SessionQueue α) : SessionQueue α := { q with outputBytes := 0 }

def reserveState (limits : QueueLimits) (bytes : Nat) (q : SessionQueue α) :
    Except SessionError (SessionQueue α) :=
  if (limits.maxQueuedMessages : Int) - 2 ≤ q.slots ∨
      limits.maxQueuedBytes - (eventBytesLimit : Int) * 2 < q.bytes + bytes then .error stateFull
  else
    .ok
      { q with
        stateCount := q.stateCount + 1
        bytes := q.bytes + bytes
        held := q.held ++ [{ ticket := q.made, bytes }]
        made := q.made + 1 }

/-- The owner of a reservation gives it back; only the first time counts. -/
def releaseState (ticket : Nat) (q : SessionQueue α) : SessionQueue α :=
  match q.held.find? fun reservation => reservation.ticket = ticket with
  | none => q
  | some reservation =>
    { q with
      stateCount := q.stateCount - 1
      bytes := q.bytes - reservation.bytes
      held := q.held.filter fun reservation => reservation.ticket ≠ ticket }

/-- All entries are released with the error. -/
def fail (error : SessionError) (q : SessionQueue α) : SessionQueue α :=
  match q.failure with
  | some _ => q
  | none =>
    { q with
      failure := some error
      entries := []
      retained := []
      bytes := q.bytes - (q.retained.map fun entry => (entry.bytes : Int)).sum }

/-! ## Counters -/

/-- The bytes of some entries. -/
def entryBytes (entries : List (QueueEntry α)) : Int :=
  (entries.map fun entry => (entry.bytes : Int)).sum

/-- The bytes of some reservations. -/
def heldBytes (held : List Reservation) : Int :=
  (held.map fun reservation => (reservation.bytes : Int)).sum

/-- The counters are the sums over the retained entries and the reservations, and every entry that
waits is retained. -/
structure Exact (q : SessionQueue α) : Prop where
  bytes : q.bytes = entryBytes q.retained + heldBytes q.held
  count : q.stateCount = q.held.length
  entries : q.entries.Sublist q.retained
  tickets : (q.retained.map QueueEntry.ticket).Nodup
  reservations : (q.held.map Reservation.ticket).Nodup
  made : ∀ entry ∈ q.retained, entry.ticket < q.made
  reserved : ∀ reservation ∈ q.held, reservation.ticket < q.made

/-- The retained entries of ordinary values. -/
def ordinary (control : α → Bool) (q : SessionQueue α) : List (QueueEntry α) :=
  q.retained.filter fun entry => !control entry.value

/-- The retained entries of control values. -/
def controls (control : α → Bool) (q : SessionQueue α) : List (QueueEntry α) :=
  q.retained.filter fun entry => control entry.value

/-- Ordinary entries and reservations leave two slots and two events free, and with the control
entries there is still one event. -/
structure Room (limits : QueueLimits) (control : α → Bool) (q : SessionQueue α) : Prop where
  slots : ((q.ordinary control).length : Int) + q.held.length ≤ limits.maxQueuedMessages - 2
  bytes : entryBytes (q.ordinary control) + heldBytes q.held ≤
    limits.maxQueuedBytes - eventBytesLimit * 2
  total : q.bytes ≤ limits.maxQueuedBytes - eventBytesLimit

theorem entryBytes_append (l r : List (QueueEntry α)) :
    entryBytes (l ++ r) = entryBytes l + entryBytes r := by
  simp [entryBytes]

theorem entryBytes_nonneg (l : List (QueueEntry α)) : 0 ≤ entryBytes l := by
  refine List.sum_nonneg fun n hn => ?_
  obtain ⟨entry, -, rfl⟩ := List.mem_map.1 hn
  exact Int.natCast_nonneg _

/-- A sublist holds at most the bytes of the list. -/
theorem entryBytes_sublist {l r : List (QueueEntry α)} (h : l.Sublist r) :
    entryBytes l ≤ entryBytes r := by
  induction h with
  | slnil => exact le_refl _
  | @cons _ r entry _ ih =>
    have hcons : entryBytes (entry :: r) = (entry.bytes : Int) + entryBytes r := List.sum_cons
    rw [hcons]
    omega
  | cons_cons entry _ ih =>
    have hcons : ∀ l, entryBytes (entry :: l) = (entry.bytes : Int) + entryBytes l :=
      fun l => List.sum_cons
    rw [hcons, hcons]
    omega

theorem entryBytes_split (control : α → Bool) (l : List (QueueEntry α)) :
    entryBytes (l.filter fun entry => !control entry.value) +
      entryBytes (l.filter fun entry => control entry.value) = entryBytes l := by
  induction l with
  | nil => rfl
  | cons entry l ih =>
    have hcons : ∀ l, entryBytes (entry :: l) = (entry.bytes : Int) + entryBytes l :=
      fun l => List.sum_cons
    by_cases h : control entry.value = true
    · rw [List.filter_cons_of_neg (by simp [h]), List.filter_cons_of_pos (by simp [h]), hcons,
        hcons]
      omega
    · rw [List.filter_cons_of_pos (by simp [h]), List.filter_cons_of_neg (by simp [h]), hcons,
        hcons]
      omega

theorem length_split (control : α → Bool) (l : List (QueueEntry α)) :
    (l.filter fun entry => !control entry.value).length +
      (l.filter fun entry => control entry.value).length = l.length := by
  induction l with
  | nil => rfl
  | cons entry l ih =>
    by_cases h : control entry.value = true
    · rw [List.filter_cons_of_neg (by simp [h]), List.filter_cons_of_pos (by simp [h])]
      simp only [List.length_cons]
      omega
    · rw [List.filter_cons_of_pos (by simp [h]), List.filter_cons_of_neg (by simp [h])]
      simp only [List.length_cons]
      omega

theorem Exact.slots_eq {q : SessionQueue α} (h : Exact q) (control : α → Bool) :
    q.slots = (q.ordinary control).length + (q.controls control).length + q.held.length := by
  have hsplit := length_split control q.retained
  simp only [slots, ordinary, controls, h.count]
  omega

theorem Exact.bytes_eq {q : SessionQueue α} (h : Exact q) (control : α → Bool) :
    q.bytes = entryBytes (q.ordinary control) + entryBytes (q.controls control) +
      heldBytes q.held := by
  have hsplit := entryBytes_split control q.retained
  simp only [ordinary, controls, h.bytes]
  omega

/-! ## Admissions -/

section Admit

variable {limits : QueueLimits} {value : α} {bytes : Nat} {flag : Bool} {q q' : SessionQueue α}

/-- What an admission changes, and the room it found. -/
structure Admitted (limits : QueueLimits) (value : α) (bytes : Nat) (flag : Bool)
    (q q' : SessionQueue α) : Prop where
  usable : q.failure = none
  slots : q.slots < limits.maxQueuedMessages - margin flag
  room : q.bytes + bytes ≤ limits.maxQueuedBytes - eventBytesLimit * margin flag
  eq : q' =
    { q with
      entries := q.entries ++ [{ ticket := q.made, value, bytes }]
      retained := q.retained ++ [{ ticket := q.made, value, bytes }]
      bytes := q.bytes + bytes
      made := q.made + 1 }

/-- The message of an admission stands at the end, behind what was there. -/
theorem Admitted.grown {limits : QueueLimits} {value : α} {bytes : Nat} {flag : Bool}
    (h : Admitted limits value bytes flag q q') :
    q'.retained = q.retained ++ [{ ticket := q.made, value, bytes }] ∧
      q'.entries = q.entries ++ [{ ticket := q.made, value, bytes }] ∧ q'.made = q.made + 1 ∧
      ∀ entry ∈ q'.retained, entry ∈ q.retained ∨ entry = { ticket := q.made, value, bytes } := by
  rw [h.eq]
  exact ⟨rfl, rfl, rfl, by simp⟩

theorem admit_ok_iff :
    q.admitValue limits value bytes flag = .ok q' ↔ Admitted limits value bytes flag q q' := by
  unfold admitValue
  cases hfailure : q.failure with
  | some failure =>
    constructor
    · nofun
    · intro h
      rw [h.usable] at hfailure
      cases hfailure
  | none =>
    by_cases hfull : limits.maxQueuedMessages - margin flag ≤ q.slots ∨
        limits.maxQueuedBytes - eventBytesLimit * margin flag < q.bytes + bytes
    · simp only [hfull, if_true]
      constructor
      · nofun
      · intro h
        have hslots := h.slots
        have hroom := h.room
        omega
    · simp only [hfull, if_false, Except.ok.injEq]
      constructor
      · intro h
        refine ⟨hfailure, by omega, by omega, ?_⟩
        rw [← h, hfailure]
      · intro h
        rw [h.eq, hfailure]

theorem Exact.admitted (h : Exact q) (ha : Admitted limits value bytes flag q q') : Exact q' := by
  rw [ha.eq]
  refine
    { h with
      bytes := ?_
      entries := h.entries.append (List.Sublist.refl _)
      tickets := Tickets.nodup_append_new h.tickets h.made
      made := ?_
      reserved := fun reservation hr => Nat.lt_succ_of_lt (h.reserved reservation hr) }
  · have hnew : entryBytes [({ ticket := q.made, value, bytes } : QueueEntry α)] = bytes := by
      simp [entryBytes]
    show q.bytes + bytes = entryBytes (q.retained ++ _) + heldBytes q.held
    rw [entryBytes_append, hnew, h.bytes]
    omega
  · intro entry hentry
    rcases List.mem_append.1 hentry with hold | hnew
    · exact Nat.lt_succ_of_lt (h.made entry hold)
    · rw [List.mem_singleton.1 hnew]
      exact Nat.lt_succ_self _

theorem Room.admitted {control : α → Bool} (hexact : Exact q) (h : Room limits control q)
    (ha : Admitted limits value bytes (control value) q q') : Room limits control q' := by
  have hslots := ha.slots
  have hroom := ha.room
  have hcount := hexact.slots_eq control
  have hbytes := hexact.bytes_eq control
  have hcontrols := entryBytes_nonneg (q.controls control)
  have hordinary := h.slots
  have htotal := h.bytes
  rw [ha.eq]
  cases hvalue : control value with
  | true =>
    have hsame : (q.retained ++ [({ ticket := q.made, value, bytes } : QueueEntry α)]).filter
        (fun entry => !control entry.value) = q.ordinary control := by
      simp [ordinary, List.filter_append, hvalue]
    rw [hvalue] at hslots hroom
    refine ⟨?_, ?_, ?_⟩
    · simp only [ordinary, hsame]
      exact hordinary
    · simp only [ordinary, hsame]
      exact htotal
    · simpa [margin] using hroom
  | false =>
    have hsame : (q.retained ++ [({ ticket := q.made, value, bytes } : QueueEntry α)]).filter
        (fun entry => !control entry.value) =
          q.ordinary control ++ [{ ticket := q.made, value, bytes }] := by
      simp [ordinary, List.filter_append, hvalue]
    have hnew : entryBytes [({ ticket := q.made, value, bytes } : QueueEntry α)] = bytes := by
      simp [entryBytes]
    rw [hvalue] at hslots hroom
    simp only [margin, Bool.false_eq_true, if_false] at hslots hroom
    refine ⟨?_, ?_, ?_⟩
    · simp only [ordinary, hsame, List.length_append, List.length_singleton]
      simp only [ordinary] at hcount
      omega
    · simp only [ordinary, hsame, entryBytes_append, hnew]
      simp only [ordinary] at hbytes
      omega
    · show q.bytes + bytes ≤ _
      omega

end Admit

/-! ## Releases -/

section Release

variable {limits : QueueLimits} {control : α → Bool} {q : SessionQueue α} {t : Nat}

theorem release_of_mem {entry : QueueEntry α} (h : (q.retained.map QueueEntry.ticket).Nodup)
    (hentry : entry ∈ q.retained) :
    q.release entry.ticket =
      { q with
        entries := q.entries.filter fun other => other.ticket ≠ entry.ticket
        retained := q.retained.filter fun other => other.ticket ≠ entry.ticket
        bytes := q.bytes - entry.bytes } := by
  unfold release
  cases hfind : q.retained.find? fun other => other.ticket = entry.ticket with
  | none => exact absurd (List.find?_eq_none.1 hfind entry hentry) (by simp)
  | some other =>
    have hticket : other.ticket = entry.ticket := by simpa using List.find?_some hfind
    rw [Tickets.eq_of_ticket h (List.mem_of_find?_eq_some hfind) hentry hticket]

theorem release_of_not_mem (h : ∀ entry ∈ q.retained, entry.ticket ≠ t) : q.release t = q := by
  unfold release
  cases hfind : q.retained.find? fun other => other.ticket = t with
  | none => rfl
  | some other =>
    exact absurd (by simpa using List.find?_some hfind)
      (h other (List.mem_of_find?_eq_some hfind))

/-- What is left after a release: the entries with another ticket. -/
theorem retained_release (q : SessionQueue α) (t : Nat) :
    (q.release t).retained = q.retained.filter fun entry => entry.ticket ≠ t := by
  unfold release
  cases hfind : q.retained.find? fun other => other.ticket = t with
  | none =>
    refine (Tickets.remove_of_not_mem fun entry hentry => ?_).symm
    simpa using List.find?_eq_none.1 hfind entry hentry
  | some other => rfl

theorem Exact.entries_release (h : Exact q) (t : Nat) :
    (q.release t).entries = q.entries.filter fun entry => entry.ticket ≠ t := by
  unfold release
  cases hfind : q.retained.find? fun other => other.ticket = t with
  | none =>
    refine (Tickets.remove_of_not_mem fun entry hentry => ?_).symm
    simpa using List.find?_eq_none.1 hfind entry (h.entries.subset hentry)
  | some other => rfl

/-- Nothing but entries and bytes changes. -/
theorem release_rest (q : SessionQueue α) (t : Nat) :
    (q.release t).failure = q.failure ∧ (q.release t).outputBytes = q.outputBytes ∧
      (q.release t).held = q.held ∧ (q.release t).made = q.made := by
  unfold release
  split <;> exact ⟨rfl, rfl, rfl, rfl⟩

theorem Exact.release (h : Exact q) (t : Nat) : Exact (q.release t) := by
  by_cases ht : ∃ entry ∈ q.retained, entry.ticket = t
  · obtain ⟨entry, hentry, rfl⟩ := ht
    rw [release_of_mem h.tickets hentry]
    refine
      { h with
        bytes := ?_
        entries := h.entries.filter _
        tickets := Tickets.nodup_filter h.tickets _
        made := fun other hother => h.made other (List.mem_of_mem_filter hother) }
    have hsum := Tickets.sum_remove (fun other : QueueEntry α => (other.bytes : Int)) h.tickets
      hentry
    have hbytes := h.bytes
    simp only [entryBytes] at hbytes ⊢
    rw [hsum]
    omega
  · rw [release_of_not_mem fun entry hentry hticket => ht ⟨entry, hentry, hticket⟩]
    exact h

/-- Fewer entries and reservations, and no more bytes, leave at least the same room. -/
theorem Room.less {q' : SessionQueue α} (h : Room limits control q)
    (hretained : q'.retained.Sublist q.retained) (hlength : q'.held.length ≤ q.held.length)
    (hheld : heldBytes q'.held ≤ heldBytes q.held) (hbytes : q'.bytes ≤ q.bytes) :
    Room limits control q' := by
  have hordinary : (q'.ordinary control).Sublist (q.ordinary control) := hretained.filter _
  have hslots := h.slots
  have hroom := h.bytes
  have htotal := h.total
  have hfewer := hordinary.length_le
  have hless := entryBytes_sublist hordinary
  refine ⟨?_, ?_, ?_⟩
  · omega
  · omega
  · omega

theorem bytes_release (q : SessionQueue α) (t : Nat) : (q.release t).bytes ≤ q.bytes := by
  unfold SessionQueue.release
  split
  · exact le_refl _
  · exact Int.sub_le_self _ (Int.natCast_nonneg _)

theorem Room.release (h : Room limits control q) (t : Nat) : Room limits control (q.release t) := by
  obtain ⟨-, -, hheld, -⟩ := release_rest q t
  refine h.less ?_ (by rw [hheld]) (by rw [hheld]) (bytes_release q t)
  rw [retained_release]
  exact List.filter_sublist

theorem Exact.taken (h : Exact q) (entry : QueueEntry α) : Exact (q.taken entry) :=
  { h with entries := List.filter_sublist.trans h.entries }

theorem Room.taken (h : Room limits control q) (entry : QueueEntry α) :
    Room limits control (q.taken entry) :=
  ⟨h.slots, h.bytes, h.total⟩

theorem Exact.fail (h : Exact q) (error : SessionError) : Exact (q.fail error) := by
  unfold SessionQueue.fail
  split
  · exact h
  · refine
      { h with
        bytes := ?_
        entries := List.Sublist.refl _
        tickets := List.nodup_nil
        made := nofun }
    have hbytes := h.bytes
    simp only [entryBytes, List.map_nil, List.sum_nil] at hbytes ⊢
    omega

theorem Room.fail (h : Room limits control q) (error : SessionError) :
    Room limits control (q.fail error) := by
  unfold SessionQueue.fail
  split
  · exact h
  · refine h.less (List.nil_sublist _) (le_refl _) (le_refl _) ?_
    have hpos := entryBytes_nonneg q.retained
    simp only [entryBytes] at hpos
    show q.bytes - _ ≤ q.bytes
    omega

end Release

/-! ## Item state and outputs -/

section Reserve

variable {limits : QueueLimits} {control : α → Bool} {bytes : Nat} {q q' : SessionQueue α}

theorem Exact.reserveState (h : Exact q) (hq : q.reserveState limits bytes = .ok q') :
    Exact q' := by
  unfold SessionQueue.reserveState at hq
  split_ifs at hq with hfull
  simp only [Except.ok.injEq] at hq
  subst hq
  refine
    { h with
      bytes := ?_
      count := ?_
      reservations := Tickets.nodup_append_new h.reservations h.reserved
      made := fun entry hentry => Nat.lt_succ_of_lt (h.made entry hentry)
      reserved := ?_ }
  · have hbytes := h.bytes
    simp only [heldBytes, List.map_append, List.map_singleton, List.sum_append, List.sum_singleton]
      at hbytes ⊢
    omega
  · have hcount := h.count
    simp only [List.length_append, List.length_singleton]
    omega
  · intro reservation hr
    rcases List.mem_append.1 hr with hold | hnew
    · exact Nat.lt_succ_of_lt (h.reserved reservation hold)
    · rw [List.mem_singleton.1 hnew]
      exact Nat.lt_succ_self _

theorem Exact.releaseState (h : Exact q) (t : Nat) : Exact (q.releaseState t) := by
  unfold SessionQueue.releaseState
  split
  · exact h
  · rename_i reservation hfind
    have hmem := List.mem_of_find?_eq_some hfind
    have hticket : reservation.ticket = t := by simpa using List.find?_some hfind
    subst hticket
    have hsum := Tickets.sum_remove (fun r : Reservation => (r.bytes : Int)) h.reservations hmem
    have hlength := Tickets.length_remove h.reservations hmem
    have hbytes := h.bytes
    have hcount := h.count
    refine
      { h with
        bytes := ?_
        count := ?_
        reservations := Tickets.nodup_filter h.reservations _
        reserved := fun r hr => h.reserved r (List.mem_of_mem_filter hr) }
    · simp only [heldBytes] at hbytes ⊢
      rw [hsum]
      omega
    · show q.stateCount - 1 = _
      rw [hlength]
      omega

theorem Room.releaseState (hexact : Exact q) (h : Room limits control q) (t : Nat) :
    Room limits control (q.releaseState t) := by
  unfold SessionQueue.releaseState
  split
  · exact h
  · rename_i reservation hfind
    have hmem := List.mem_of_find?_eq_some hfind
    have hticket : reservation.ticket = t := by simpa using List.find?_some hfind
    subst hticket
    have hsum := Tickets.sum_remove (fun r : Reservation => (r.bytes : Int)) hexact.reservations
      hmem
    refine h.less (List.Sublist.refl _) (List.filter_sublist.length_le) ?_ ?_
    · simp only [heldBytes]
      rw [hsum]
      omega
    · show q.bytes - reservation.bytes ≤ q.bytes
      omega

theorem Exact.output (h : Exact q) (bytes : Nat) : Exact { q with outputBytes := bytes } :=
  { h with }

theorem Room.output (h : Room limits control q) (bytes : Nat) :
    Room limits control { q with outputBytes := bytes } :=
  ⟨h.slots, h.bytes, h.total⟩

/-- While no output is reserved, one of at most an event can be. -/
theorem Room.reserveOutput (h : Room limits control q) (hidle : q.outputBytes = 0)
    (hbytes : bytes ≤ eventBytesLimit) :
    q.reserveOutput limits bytes = .ok { q with outputBytes := bytes } := by
  have htotal := h.total
  unfold SessionQueue.reserveOutput
  rw [if_neg]
  rintro (hoccupied | hlarge | hfull)
  · exact hoccupied hidle
  · omega
  · omega

end Reserve

end SessionQueue

end Provider

end AgentSdk
