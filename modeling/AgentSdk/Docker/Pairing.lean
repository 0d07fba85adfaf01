import AgentSdk.Docker.FilesystemChannel

/-!
# Replies and waiters

The reply that a waiter gets is the complete reply frame of the same number in the
standard output of the helper.  Two decoders lie in between, each resumable at any
byte, and the slot is shared by requests and heartbeats.

The invariant counts: as long as a channel serves, the complete replies read so far
are as many as the waiters that have left the slot, and every earlier waiter holds
the reply of its number.

## Main results

* `turn_spec` — one turn over a piece.
* `answer_spec` — a complete reply.
* `acceptLoop_spec` — a whole piece, however many replies it completes.
-/

namespace AgentSdk.Docker

open AgentSdk.Framed AgentSdk.Machine

variable {μ : Type}

/-! ## The reader -/

/-- A reader that is at a position of the stream of replies. -/
def ReaderAt (reader : ReplyReader) : Progress Nat Unit → Prop
  | .header seen => reader.payload = none ∧ reader.header = seen ∧ seen.length < 8
  | .body kind length seen =>
    reader.payload = some ⟨length, seen⟩ ∧ reader.replyKind = kind ∧ reader.header = [] ∧
      seen.length < length
  | .failed _ => False

/-- What a turn tells about the stream. -/
inductive Turned (before : Progress Nat Unit) (bytes : List UInt8) : Turn → Prop
  | more {reader rest} (read : List UInt8) : bytes = read ++ rest → (bytes ≠ [] → read ≠ []) →
      frames replyFormat before read = [] →
      ReaderAt reader (progress replyFormat before read) →
      Turned before bytes (.more reader rest)
  | reply {reader kind payload rest} (read : List UInt8) : bytes = read ++ rest →
      (bytes ≠ [] → read ≠ []) → frames replyFormat before read = [(kind, payload)] →
      ReaderAt reader (progress replyFormat before read) →
      Turned before bytes (.reply reader kind payload rest)
  | failed : Turned before bytes .failed

theorem frames_append {before : Progress Nat Unit} (s t : List UInt8) :
    frames replyFormat before (s ++ t) =
      frames replyFormat before s ++ frames replyFormat (progress replyFormat before s) t :=
  outputs_append s t

/-- What was read before a turn belongs to it. -/
theorem Turned.behind {before : Progress Nat Unit} {read rest : List UInt8} {result : Turn}
    (hne : read ≠ []) (hnone : frames replyFormat before read = [])
    (h : Turned (progress replyFormat before read) rest result) :
    Turned before (read ++ rest) result := by
  cases h with
  | more next hsplit _ hframes hat =>
    refine .more (read ++ next) ?_ (fun _ => by simp [hne]) ?_ ?_
    · rw [hsplit, List.append_assoc]
    · rw [frames_append, hnone, hframes]
      rfl
    · rw [progress_append]
      exact hat
  | reply next hsplit _ hframes hat =>
    refine .reply (read ++ next) ?_ (fun _ => by simp [hne]) ?_ ?_
    · rw [hsplit, List.append_assoc]
    · rw [frames_append, hnone, hframes]
      rfl
    · rw [progress_append]
      exact hat
  | failed => exact .failed

namespace ReplyReader

theorem length_take_count {seen : List UInt8} (bytes : List UInt8) {length : Nat}
    (h : seen.length < length) :
    (bytes.take (count seen length bytes)).length = count seen length bytes ∧
      (bytes ≠ [] → bytes.take (count seen length bytes) ≠ []) := by
  have hlength : (bytes.take (count seen length bytes)).length = count seen length bytes := by
    rw [List.length_take, count]
    omega
  refine ⟨hlength, fun hne hnil => ?_⟩
  have hpos := List.length_pos_of_ne_nil hne
  rw [hnil, List.length_nil, count] at hlength
  omega

/-- The payload of a reply goes on. -/
theorem fill_spec {reader : ReplyReader} {kind length : Nat} {seen bytes : List UInt8}
    (hkind : reader.replyKind = kind) (hheader : reader.header = [])
    (hshort : seen.length < length) :
    Turned (.body kind length seen) bytes (reader.fill ⟨length, seen⟩ bytes) := by
  obtain ⟨hlength, hne⟩ := length_take_count bytes hshort
  have hsplit : bytes = bytes.take (count seen length bytes) ++
      bytes.drop (count seen length bytes) := (List.take_append_drop _ bytes).symm
  have hcount : count seen length bytes ≤ length - seen.length := Nat.min_le_left _ _
  unfold fill
  by_cases hfull : (seen ++ bytes.take (count seen length bytes)).length = length
  · rw [if_neg (not_not.2 hfull)]
    have hsome : bytes.take (count seen length bytes) ≠ [] := by
      intro hnil
      rw [hnil, List.append_nil] at hfull
      omega
    obtain ⟨hprogress, hframes, _⟩ := body_full replyFormat kind length seen _ hsome hfull
    rw [hkind]
    refine .reply _ hsplit hne hframes ?_
    rw [hprogress]
    exact ⟨rfl, hheader, by decide⟩
  · rw [if_pos hfull]
    have hlt : (seen ++ bytes.take (count seen length bytes)).length < length := by
      rw [List.length_append, hlength] at hfull ⊢
      omega
    obtain ⟨hprogress, hframes, _⟩ := body_short replyFormat kind length seen _ hlt
    refine .more _ hsplit hne hframes ?_
    rw [hprogress]
    exact ⟨rfl, hkind, hheader, hlt⟩

/-- A complete header, whatever it declares. -/
theorem opened_spec {seen read : List UInt8} (rest : List UInt8) (hne : read ≠ [])
    (hfull : (seen ++ read).length = 8) :
    Turned (.header seen) (read ++ rest) (opened (seen ++ read) rest) := by
  obtain ⟨hprogress, hframes, _⟩ := header_full replyFormat seen read hne hfull
  unfold opened
  cases hparse : readReplyHeader (seen ++ read) with
  | error error => exact .failed
  | ok frame =>
    obtain ⟨kind, length⟩ := frame
    cases length with
    | zero =>
      have hempty : emptyFrame replyFormat (seen ++ read) = some (kind, []) := by
        simp only [emptyFrame, replyFormat, hparse]
      have hentered : entered replyFormat (seen ++ read) = .header [] := by
        simp only [entered, replyFormat, hparse]
      rw [hempty] at hframes
      rw [hentered] at hprogress
      -- the reply is complete with its header
      have hfill : fill { header := [], replyKind := kind } ⟨0, []⟩ rest =
          .reply { header := [], replyKind := kind } kind [] rest := by
        simp [fill, count]
      simp only [hfill]
      refine .reply read rfl (fun _ => hne) hframes ?_
      rw [hprogress]
      exact ⟨rfl, rfl, by decide⟩
    | succ length =>
      have hempty : emptyFrame replyFormat (seen ++ read) = none := by
        simp only [emptyFrame, replyFormat, hparse]
      have hentered : entered replyFormat (seen ++ read) = .body kind (length + 1) [] := by
        simp only [entered, replyFormat, hparse]
      rw [hempty] at hframes
      rw [hentered] at hprogress
      refine Turned.behind hne hframes ?_
      rw [hprogress]
      exact fill_spec rfl rfl (Nat.succ_pos length)

/-- **One turn.**  It takes at least a byte, and ends with a reply exactly where the stream
has one. -/
theorem turn_spec {reader : ReplyReader} {position : Progress Nat Unit} {bytes : List UInt8}
    (hbytes : bytes ≠ []) (h : ReaderAt reader position) :
    Turned position bytes (reader.turn bytes) := by
  unfold turn
  cases position with
  | failed error => exact h.elim
  | body kind length seen =>
    obtain ⟨hpayload, hkind, hheader, hshort⟩ := h
    rw [hpayload]
    exact fill_spec hkind hheader hshort
  | header seen =>
    obtain ⟨hpayload, hheader, hshort⟩ := h
    subst hheader
    obtain ⟨hlength, hne⟩ := length_take_count bytes hshort
    have hcount : count reader.header 8 bytes ≤ 8 - reader.header.length := Nat.min_le_left _ _
    have hsplit : bytes = bytes.take (count reader.header 8 bytes) ++
        bytes.drop (count reader.header 8 bytes) := (List.take_append_drop _ bytes).symm
    rw [hpayload]
    by_cases hfull : (reader.header ++ bytes.take (count reader.header 8 bytes)).length = 8
    · rw [if_neg (not_not.2 hfull)]
      have hopened := opened_spec (bytes.drop (count reader.header 8 bytes)) (hne hbytes) hfull
      rw [← hsplit] at hopened
      exact hopened
    · rw [if_pos hfull]
      have hmore : (reader.header ++ bytes.take (count reader.header 8 bytes)).length < 8 := by
        rw [List.length_append, hlength] at hfull ⊢
        omega
      obtain ⟨hprogress, hframes, _⟩ := header_short replyFormat reader.header _ hmore
      refine .more _ hsplit hne hframes ?_
      rw [hprogress]
      exact ⟨rfl, rfl, hmore⟩

end ReplyReader

/-! ## The slot -/

/-- The slot and the waiters, whatever the state of the channel. -/
structure Slot (c : FilesystemChannel μ) : Prop where
  pending : ∀ k, c.pending = some k → k + 1 = c.waiters.length
  waiting : ∀ k w, c.waiters[k]? = some w → w.outcome = .waiting → c.pending = some k
  ordered : (c.written.map Written.waiter).Pairwise (· < ·)
  owned : ∀ entry ∈ c.written, ∃ w, c.waiters[entry.waiter]? = some w ∧ w.owner ≠ .readiness ∧
    (w.owner = .heartbeat → entry.bytes = encodeFilesystemRequest heartbeatRequest)
  heartbeat : ∀ k, c.heartbeatActual = some k → ∃ w, c.waiters[k]? = some w ∧ w.owner = .heartbeat

/-- The slot of a channel, which is empty once the channel failed or closes. -/
structure Sound (c : FilesystemChannel μ) : Prop extends Slot c where
  idle : c.closing = true ∨ c.failure.isSome = true → c.pending = none

/-- The waiters that have a reply have the one of their number. -/
def Served (codec : ReplyCodec μ) (c : FilesystemChannel μ) (stream : List UInt8) : Prop :=
  ∀ (k : Nat) (w : Waiter μ) (reply : FilesystemReply μ), c.waiters[k]? = some w →
    w.outcome = .resolved reply → ∃ frame, (FilesystemChannel.replies stream)[k]? = some frame ∧
      decodeFilesystemReply codec frame.1 frame.2 = some reply

/-- A channel that serves has read well-formed replies, one for each waiter that left the
slot. -/
structure Serving (codec : ReplyCodec μ) (c : FilesystemChannel μ) (stream : List UInt8) :
    Prop where
  reader : ReaderAt c.reader (progress replyFormat (.header []) stream)
  decoded : ∀ frame ∈ FilesystemChannel.replies stream,
    (decodeFilesystemReply codec frame.1 frame.2).isSome = true
  slot : ∀ k, c.pending = some k → (FilesystemChannel.replies stream).length = k
  free : c.pending = none → (FilesystemChannel.replies stream).length = c.waiters.length

theorem replies_append (s t : List UInt8) :
    FilesystemChannel.replies (s ++ t) = FilesystemChannel.replies s ++
      frames replyFormat (progress replyFormat (.header []) s) t :=
  frames_append s t

variable {codec : ReplyCodec μ} {c c' : FilesystemChannel μ}

theorem getElem?_append_some {α : Type} {s : List α} {k : Nat} {x : α} (h : s[k]? = some x)
    (t : List α) : (s ++ t)[k]? = some x := by
  obtain ⟨hk, _⟩ := List.getElem?_eq_some_iff.1 h
  rw [List.getElem?_append_left hk, h]

/-- A longer stream has the replies of a shorter one first. -/
theorem Served.append {stream : List UInt8} (h : Served codec c stream) (more : List UInt8) :
    Served codec c (stream ++ more) := by
  intro k w reply hw hreply
  obtain ⟨frame, hframe, hdecoded⟩ := h k w reply hw hreply
  refine ⟨frame, ?_, hdecoded⟩
  rw [replies_append]
  exact getElem?_append_some hframe _

/-- Settled waiters in a list. -/
theorem getElem?_settled {waiters : List (Waiter μ)} {index k : Nat} {outcome : Outcome μ}
    {w : Waiter μ}
    (h : (waiters.modify index fun waiter => { waiter with outcome })[k]? = some w) :
    ∃ old, waiters[k]? = some old ∧ old.owner = w.owner ∧
      w.outcome = if k = index then outcome else old.outcome := by
  rw [List.getElem?_modify] at h
  obtain ⟨old, hold, rfl⟩ := Option.map_eq_some_iff.1 h
  by_cases heq : index = k
  · exact ⟨old, hold, by simp [heq], by simp [heq]⟩
  · have hne : ¬k = index := fun hsame => heq hsame.symm
    exact ⟨old, hold, by simp [heq], by simp [heq, hne]⟩

theorem settled_getElem? {waiters : List (Waiter μ)} {index k : Nat} {outcome : Outcome μ}
    {old : Waiter μ} (h : waiters[k]? = some old) :
    ∃ w, (waiters.modify index fun waiter => { waiter with outcome })[k]? = some w ∧
      w.owner = old.owner := by
  rw [List.getElem?_modify, h]
  refine ⟨_, rfl, ?_⟩
  split <;> rfl

namespace FilesystemChannel

theorem settle_none {outcome : Outcome μ} (h : c.pending = none) : c.settle outcome = c := by
  unfold settle
  rw [h]

theorem settle_some {outcome : Outcome μ} {index : Nat} (h : c.pending = some index) :
    c.settle outcome =
      { c with
        waiters := c.waiters.modify index fun waiter => { waiter with outcome }
        pending := none } := by
  unfold settle
  rw [h]

theorem settle_pending (outcome : Outcome μ) : (c.settle outcome).pending = none := by
  cases h : c.pending with
  | none => rw [settle_none h, h]
  | some index => rw [settle_some h]

end FilesystemChannel

/-- Settling the waiter in the slot empties the slot. -/
theorem Slot.settle (h : Slot c) {outcome : Outcome μ} (houtcome : outcome ≠ .waiting) :
    Slot (c.settle outcome) := by
  cases hpending : c.pending with
  | none =>
    rw [FilesystemChannel.settle_none hpending]
    exact h
  | some index =>
    rw [FilesystemChannel.settle_some hpending]
    constructor
    · intro k hk
      cases hk
    · intro k w hw hwaiting
      obtain ⟨old, hold, _, hnew⟩ := getElem?_settled hw
      by_cases hsame : k = index
      · rw [if_pos hsame, hwaiting] at hnew
        exact absurd hnew.symm houtcome
      · rw [if_neg hsame, hwaiting] at hnew
        have hslot := h.waiting k old hold hnew.symm
        rw [hpending] at hslot
        exact absurd (Option.some.inj hslot).symm hsame
    · exact h.ordered
    · intro entry hentry
      obtain ⟨old, hold, howner, hbytes⟩ := h.owned entry hentry
      obtain ⟨w, hw, hsame⟩ := settled_getElem? hold
      exact ⟨w, hw, hsame ▸ howner, hsame ▸ hbytes⟩
    · intro k hk
      obtain ⟨old, hold, howner⟩ := h.heartbeat k hk
      obtain ⟨w, hw, hsame⟩ := settled_getElem? hold
      exact ⟨w, hw, hsame.trans howner⟩

/-- A rejection gives no reply. -/
theorem Served.reject {stream : List UInt8} (h : Served codec c stream) (code : FailureCode) :
    Served codec (c.settle (.rejected code)) stream := by
  cases hpending : c.pending with
  | none =>
    rw [FilesystemChannel.settle_none hpending]
    exact h
  | some index =>
    rw [FilesystemChannel.settle_some hpending]
    intro k w reply hw hreply
    obtain ⟨old, hold, _, hnew⟩ := getElem?_settled hw
    by_cases hsame : k = index
    · rw [if_pos hsame, hreply] at hnew
      cases hnew
    · rw [if_neg hsame, hreply] at hnew
      exact h k old reply hold hnew.symm

/-! ## A piece -/

/-- What the bytes of a piece leave as it is. -/
structure Kept (c c' : FilesystemChannel μ) : Prop where
  pump : c'.pump = c.pump
  decoder : c'.decoder = c.decoder
  unread : c'.unread = c.unread
  consumed : c'.consumed = c.consumed
  closing : c'.closing = c.closing
  failure : c'.failure = c.failure
  written : c'.written = c.written

theorem Kept.refl (c : FilesystemChannel μ) : Kept c c := ⟨rfl, rfl, rfl, rfl, rfl, rfl, rfl⟩

theorem Kept.trans {c'' : FilesystemChannel μ} (h : Kept c c') (h' : Kept c' c'') : Kept c c'' :=
  ⟨h'.pump.trans h.pump, h'.decoder.trans h.decoder, h'.unread.trans h.unread,
    h'.consumed.trans h.consumed, h'.closing.trans h.closing, h'.failure.trans h.failure,
    h'.written.trans h.written⟩

theorem kept_settle (outcome : Outcome μ) : Kept c (c.settle outcome) := by
  cases hpending : c.pending with
  | none =>
    rw [FilesystemChannel.settle_none hpending]
    exact .refl c
  | some index =>
    rw [FilesystemChannel.settle_some hpending]
    exact ⟨rfl, rfl, rfl, rfl, rfl, rfl, rfl⟩

/-- A channel on a stream of replies that has neither failed nor closed. -/
structure Reading (codec : ReplyCodec μ) (c : FilesystemChannel μ) (stream : List UInt8) :
    Prop where
  sound : Sound c
  served : Served codec c stream
  serving : c.closing = false → c.failure = none → Serving codec c stream

/-- **A complete reply** goes to the waiter in the slot. -/
theorem answer_spec {stream read : List UInt8} {reader : ReplyReader} {kind : Nat}
    {payload : List UInt8} (hsound : Sound c) (hserved : Served codec c stream)
    (hserving : Serving codec c stream)
    (hframes : frames replyFormat (progress replyFormat (.header []) stream) read =
      [(kind, payload)])
    (hat : ReaderAt reader (progress replyFormat (.header []) (stream ++ read)))
    (h : FilesystemChannel.answer codec { c with reader } kind payload = some c') :
    Reading codec c' (stream ++ read) ∧ Kept c c' := by
  unfold FilesystemChannel.answer at h
  cases hdecode : decodeFilesystemReply codec kind payload with
  | none =>
    rw [hdecode] at h
    cases h
  | some reply =>
    rw [hdecode] at h
    simp only at h
    cases hpending : c.pending with
    | none =>
      rw [if_neg (by simp [hpending])] at h
      cases h
    | some index =>
      rw [if_pos (by simp [hpending])] at h
      have hslot : FilesystemChannel.pending { c with reader, timer := false } = some index :=
        hpending
      have hc' := (Option.some.inj h).symm
      rw [FilesystemChannel.settle_some hslot] at hc'
      have hreplies : FilesystemChannel.replies (stream ++ read) =
          FilesystemChannel.replies stream ++ [(kind, payload)] := by
        rw [replies_append, hframes]
      have hindex := hserving.slot index hpending
      have hcount := hsound.pending index hpending
      have hbefore : Slot { c with reader, timer := false } :=
        { hsound with }
      have hafter := hbefore.settle (show Outcome.resolved reply ≠ .waiting by simp)
      rw [FilesystemChannel.settle_some hslot, ← hc'] at hafter
      subst hc'
      refine ⟨⟨⟨hafter, fun _ => rfl⟩, ?_, fun _ _ => ⟨hat, ?_, ?_, fun _ => ?_⟩⟩,
        ⟨rfl, rfl, rfl, rfl, rfl, rfl, rfl⟩⟩
      · intro k w found hw hfound
        obtain ⟨old, hold, _, hnew⟩ := getElem?_settled hw
        rw [hreplies]
        by_cases hsame : k = index
        · rw [if_pos hsame, hfound] at hnew
          have hreply : found = reply := Outcome.resolved.inj hnew
          refine ⟨(kind, payload), ?_, by rw [hreply, hdecode]⟩
          rw [hsame, ← hindex]
          exact List.getElem?_concat_length
        · rw [if_neg hsame, hfound] at hnew
          obtain ⟨frame, hframe, hdecoded⟩ := hserved k old found hold hnew.symm
          exact ⟨frame, getElem?_append_some hframe _, hdecoded⟩
      · intro frame hframe
        rw [hreplies, List.mem_append, List.mem_singleton] at hframe
        rcases hframe with hold | heq
        · exact hserving.decoded frame hold
        · rw [heq, hdecode]
          rfl
      · intro k hk
        cases hk
      · rw [hreplies, List.length_append, List.length_modify, hindex]
        exact hcount

/-- **The bytes of a piece.**  However many replies are complete in it, each goes to the
waiter of its number. -/
theorem acceptLoop_spec {fuel : Nat} {stream bytes : List UInt8} (hfuel : bytes.length ≤ fuel)
    (h : Reading codec c stream) :
    Sound (FilesystemChannel.acceptLoop codec fuel c bytes).1 ∧
      Served codec (FilesystemChannel.acceptLoop codec fuel c bytes).1 (stream ++ bytes) ∧
      Kept c (FilesystemChannel.acceptLoop codec fuel c bytes).1 ∧
      ((FilesystemChannel.acceptLoop codec fuel c bytes).2 = true →
        Reading codec (FilesystemChannel.acceptLoop codec fuel c bytes).1 (stream ++ bytes)) := by
  induction fuel generalizing c stream bytes with
  | zero =>
    have hnil := List.eq_nil_of_length_eq_zero (Nat.le_zero.1 hfuel)
    subst hnil
    rw [List.append_nil]
    exact ⟨h.sound, h.served, .refl c, fun _ => h⟩
  | succ fuel ih =>
    unfold FilesystemChannel.acceptLoop
    by_cases hnil : bytes = []
    · subst hnil
      rw [if_pos rfl, List.append_nil]
      exact ⟨h.sound, h.served, .refl c, fun _ => h⟩
    · rw [if_neg hnil]
      by_cases hdown : c.closing = true ∨ c.failure.isSome = true
      · -- nothing is read any more
        rw [if_pos hdown]
        have hserved := h.served.append bytes
        refine ⟨h.sound, hserved, .refl c, fun _ => ⟨h.sound, hserved, fun hopen hwell => ?_⟩⟩
        rw [hopen, hwell] at hdown
        simp at hdown
      · rw [if_neg hdown]
        rw [not_or] at hdown
        have hserving := h.serving (by simpa using hdown.1) (by simpa using hdown.2)
        have hturned := ReplyReader.turn_spec hnil hserving.reader
        cases hturn : c.reader.turn bytes with
        | failed =>
          exact ⟨h.sound, h.served.append bytes, .refl c, fun hfalse => by cases hfalse⟩
        | more reader rest =>
          rw [hturn] at hturned
          cases hturned with
          | more read hsplit hne hframes hat =>
            have hsizes := congrArg List.length hsplit
            have hpos := List.length_pos_of_ne_nil (hne hnil)
            rw [List.length_append] at hsizes
            have hreplies : FilesystemChannel.replies (stream ++ read) =
                FilesystemChannel.replies stream := by
              rw [replies_append, hframes, List.append_nil]
            have hnext : Reading codec { c with reader } (stream ++ read) := by
              refine ⟨⟨⟨h.sound.pending, h.sound.waiting, h.sound.ordered, h.sound.owned,
                h.sound.heartbeat⟩, h.sound.idle⟩, h.served.append read,
                fun _ _ => ⟨?_, ?_, ?_, ?_⟩⟩
              · rw [progress_append]
                exact hat
              · rw [hreplies]
                exact hserving.decoded
              · rw [hreplies]
                exact hserving.slot
              · rw [hreplies]
                exact hserving.free
            have hrest := ih (show rest.length ≤ fuel by omega) hnext
            rw [List.append_assoc, ← hsplit] at hrest
            obtain ⟨hsound, hserved, hkept, hreading⟩ := hrest
            have hsame : Kept c { c with reader } := ⟨rfl, rfl, rfl, rfl, rfl, rfl, rfl⟩
            exact ⟨hsound, hserved, hsame.trans hkept, hreading⟩
        | reply reader kind payload rest =>
          rw [hturn] at hturned
          cases hturned with
          | reply read hsplit hne hframes hat =>
            have hsizes := congrArg List.length hsplit
            have hpos := List.length_pos_of_ne_nil (hne hnil)
            rw [List.length_append] at hsizes
            have hsame : Kept c { c with reader } := ⟨rfl, rfl, rfl, rfl, rfl, rfl, rfl⟩
            simp only
            cases hanswer : FilesystemChannel.answer codec { c with reader } kind payload with
            | none =>
              exact ⟨⟨⟨h.sound.pending, h.sound.waiting, h.sound.ordered, h.sound.owned,
                h.sound.heartbeat⟩, h.sound.idle⟩, h.served.append bytes, hsame,
                fun hfalse => by cases hfalse⟩
            | some answered =>
              rw [← progress_append] at hat
              obtain ⟨hread, hkeptAnswer⟩ :=
                answer_spec h.sound h.served hserving hframes hat hanswer
              have hrest := ih (show rest.length ≤ fuel by omega) hread
              rw [List.append_assoc, ← hsplit] at hrest
              obtain ⟨hsound, hserved, hkept, hreading⟩ := hrest
              exact ⟨hsound, hserved, hkeptAnswer.trans hkept, hreading⟩

end AgentSdk.Docker
