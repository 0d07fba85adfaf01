import AgentSdk.Docker.Pairing

/-!
# Runs of the filesystem control channel

The invariant of a channel along every run: the slot, the replies handed out, and,
as long as it serves, the two decoders at their positions of the stream.  A channel
that has failed, closes or lost its pump hands out no reply any more.

Only a complete reply is unsolicited.  The first bytes of one may come before the
request that it will answer.

## Main results

* `Paired.step` — one event keeps the invariant.
* `quiet_step` — what a channel that is down still does.
* `filesystem_channel` — pairing, order and failure along every run.
* `unsolicited_bytes_pass` — the start of a reply in a free slot.
-/

namespace AgentSdk.Docker

open AgentSdk.Framed AgentSdk.Machine

variable {μ : Type} {codec : ReplyCodec μ} {c c' : FilesystemChannel μ}

/-! ## Events -/

/-- The invariant of a channel. -/
structure Paired (codec : ReplyCodec μ) (c : FilesystemChannel μ) : Prop where
  sound : Sound c
  served : Served codec c c.stdout
  serving : c.live = true → Serving codec c c.stdout
  docker : c.live = true → At c.decoder (progress dockerFormat (.header []) c.consumed)
  stdout : c.live = true →
    ∀ tagged ∈ bodyBytes dockerFormat (.header []) c.consumed, tagged.1 = 1

namespace FilesystemChannel

theorem live_iff : c.live = true ↔ c.pump = .running ∧ c.failure = none ∧ c.closing = false := by
  simp [live, and_assoc]

end FilesystemChannel

/-- What a step leaves that only touches timers, flags and unread bytes. -/
structure Same (c c' : FilesystemChannel μ) : Prop where
  waiters : c'.waiters = c.waiters
  pending : c'.pending = c.pending
  heartbeat : c'.heartbeatActual = c.heartbeatActual ∨ c'.heartbeatActual = none
  closing : c'.closing = c.closing
  failure : c'.failure = c.failure
  reader : c'.reader = c.reader
  pump : c'.pump = .running → c.pump = .running
  decoder : c'.decoder = c.decoder
  consumed : c'.consumed = c.consumed
  written : c'.written = c.written

theorem Same.refl (c : FilesystemChannel μ) : Same c c :=
  ⟨rfl, rfl, .inl rfl, rfl, rfl, rfl, id, rfl, rfl, rfl⟩

theorem Same.trans {c'' : FilesystemChannel μ} (h : Same c c') (h' : Same c' c'') : Same c c'' where
  waiters := h'.waiters.trans h.waiters
  pending := h'.pending.trans h.pending
  heartbeat := by
    rcases h'.heartbeat with heq | hnone
    · rw [heq]
      exact h.heartbeat
    · exact .inr hnone
  closing := h'.closing.trans h.closing
  failure := h'.failure.trans h.failure
  reader := h'.reader.trans h.reader
  pump := fun hrunning => h.pump (h'.pump hrunning)
  decoder := h'.decoder.trans h.decoder
  consumed := h'.consumed.trans h.consumed
  written := h'.written.trans h.written

theorem Same.sound (h : Same c c') (hsound : Sound c) : Sound c' := by
  refine ⟨⟨?_, ?_, ?_, ?_, ?_⟩, ?_⟩
  · rw [h.pending, h.waiters]
    exact hsound.pending
  · rw [h.pending, h.waiters]
    exact hsound.waiting
  · rw [h.written]
    exact hsound.ordered
  · rw [h.written, h.waiters]
    exact hsound.owned
  · intro k hk
    rw [h.waiters]
    rcases h.heartbeat with heq | hnone
    · exact hsound.heartbeat k (heq ▸ hk)
    · rw [hnone] at hk
      cases hk
  · rw [h.closing, h.failure, h.pending]
    exact hsound.idle

theorem Same.live (h : Same c c') (hlive : c'.live = true) : c.live = true := by
  rw [FilesystemChannel.live_iff] at hlive ⊢
  exact ⟨h.pump hlive.1, h.failure ▸ hlive.2.1, h.closing ▸ hlive.2.2⟩

theorem Same.stdout (h : Same c c') : c'.stdout = c.stdout := by
  unfold FilesystemChannel.stdout
  rw [h.consumed]

theorem Same.served (h : Same c c') (hserved : Served codec c c.stdout) :
    Served codec c' c'.stdout := by
  unfold Served at hserved ⊢
  rw [h.stdout, h.waiters]
  exact hserved

/-- **Timers and flags** leave a channel paired. -/
theorem Same.paired (h : Same c c') (hpaired : Paired codec c) : Paired codec c' := by
  refine ⟨h.sound hpaired.sound, h.served hpaired.served, fun hlive => ?_, fun hlive => ?_,
    fun hlive => ?_⟩
  · have hserving := hpaired.serving (h.live hlive)
    rw [h.stdout]
    refine ⟨?_, hserving.decoded, ?_, ?_⟩
    · rw [h.reader]
      exact hserving.reader
    · rw [h.pending]
      exact hserving.slot
    · rw [h.pending, h.waiters]
      exact hserving.free
  · rw [h.decoder, h.consumed]
    exact hpaired.docker (h.live hlive)
  · rw [h.consumed]
    exact hpaired.stdout (h.live hlive)

/-- A channel that no longer serves has its slot and its replies only. -/
theorem Paired.of_down (hsound : Sound c) (hserved : Served codec c c.stdout)
    (hdown : c.live = false) : Paired codec c := by
  have hnot : ¬c.live = true := by simp [hdown]
  exact ⟨hsound, hserved, fun h => absurd h hnot, fun h => absurd h hnot, fun h => absurd h hnot⟩

/-- The slot is emptied and the channel is down. -/
theorem Paired.reject (c' : FilesystemChannel μ) (h : Paired codec c) (hslot : Slot c')
    (hwaiters : c'.waiters = c.waiters)
    (hconsumed : c'.consumed = c.consumed) (hdown : c'.failure.isSome = true ∨ c'.closing = true)
    (code : FailureCode) : Paired codec (c'.settle (.rejected code)) := by
  have hkept := kept_settle (c := c') (.rejected code)
  have hserved : Served codec c' c.stdout := by
    unfold Served
    rw [hwaiters]
    exact h.served
  have hstdout : (c'.settle (.rejected code)).stdout = c.stdout := by
    unfold FilesystemChannel.stdout
    rw [hkept.consumed, hconsumed]
  refine .of_down ⟨hslot.settle (by simp), fun _ => FilesystemChannel.settle_pending _⟩ ?_ ?_
  · rw [hstdout]
    exact hserved.reject code
  · have hnot : ¬(c'.settle (.rejected code)).live = true := by
      rw [FilesystemChannel.live_iff, hkept.failure, hkept.closing]
      rintro ⟨_, hfailure, hclosing⟩
      rw [hfailure, hclosing] at hdown
      simp at hdown
    simpa using hnot

theorem Paired.fail (h : Paired codec c) (code : FailureCode) : Paired codec (c.fail code) := by
  unfold FilesystemChannel.fail
  split
  · exact h
  · have hslot := h.sound.toSlot
    exact h.reject { c with failure := some code, timer := false, heartbeatTimer := false }
      { hslot with } rfl rfl
      (.inl rfl) code

theorem same_closeRequests : Same c c.closeRequests :=
  { Same.refl c with }

theorem Paired.closeAdmission (h : Paired codec c) : Paired codec c.closeAdmission := by
  unfold FilesystemChannel.closeAdmission
  split
  · exact same_closeRequests.paired h
  · have hslot := h.sound.toSlot
    exact h.reject
      { c with accepting := false, closing := true, timer := false, heartbeatTimer := false }
      { hslot with } rfl rfl
      (.inr rfl) .cancelled

theorem same_scheduleHeartbeat : Same c c.scheduleHeartbeat := by
  unfold FilesystemChannel.scheduleHeartbeat
  split
  · exact .refl c
  · exact { Same.refl c with }

theorem same_stopRenewal : Same c c.stopRenewal :=
  { Same.refl c with }

theorem same_beginReadiness : Same c c.beginReadiness := by
  unfold FilesystemChannel.beginReadiness
  split
  · exact .refl c
  · split
    · have hstarted : Same c { c with readinessStarted := true } :=
        { Same.refl c with }
      exact hstarted.trans same_scheduleHeartbeat
    · exact { Same.refl c with }

theorem same_enter : Same c c.enter := by
  have hentered : Same c { c with timer := false, enteredReady := true } :=
    { Same.refl c with }
  unfold FilesystemChannel.enter
  split
  · exact hentered.trans same_scheduleHeartbeat
  · exact hentered

theorem Paired.readiness (h : Paired codec c) : Paired codec (c.readiness codec) := by
  have hsettled : Same c { c with readinessSettled := true } :=
    { Same.refl c with }
  unfold FilesystemChannel.readiness
  split
  · exact h
  · split
    · split
      · exact (hsettled.trans same_enter).paired h
      · exact (hsettled.paired h).fail _
    · exact (hsettled.paired h).fail _
    · exact h

theorem Paired.heartbeatReply (h : Paired codec c) : Paired codec c.heartbeatReply := by
  have hsettled : Same c { c with heartbeatActual := none } :=
    ⟨rfl, rfl, .inr rfl, rfl, rfl, rfl, id, rfl, rfl, rfl⟩
  unfold FilesystemChannel.heartbeatReply
  split
  · exact (hsettled.trans same_scheduleHeartbeat).paired h
  · exact same_scheduleHeartbeat.paired ((hsettled.paired h).fail _)
  · exact same_scheduleHeartbeat.paired ((hsettled.paired h).fail _)
  · exact h

/-! ## Requests -/

/-- An exchange begins only in a free slot of a channel that has neither failed nor closed, and
takes the next number. -/
theorem exchange_ok {owner : Owner} {request : FilesystemRequest}
    (h : c.exchange owner request = .ok c') :
    c.failure = none ∧ c.closing = false ∧ c.pending = none ∧
      c' = { c with
        pending := some c.waiters.length
        waiters := c.waiters ++ [⟨owner, .waiting⟩]
        timer := true
        written := c.written ++ [⟨c.waiters.length, encodeFilesystemRequest request⟩] } := by
  unfold FilesystemChannel.exchange FilesystemChannel.receive at h
  cases hfailure : c.failure with
  | some code => simp [hfailure] at h
  | none =>
    by_cases hclosing : c.closing = true
    · simp [hfailure, hclosing] at h
    · by_cases hpending : c.pending.isSome = true
      · simp [hfailure, hclosing, hpending] at h
      · simp only [hfailure, if_neg hclosing, if_neg hpending, Except.ok.injEq] at h
        exact ⟨rfl, by simpa using hclosing, by simpa using hpending, h.symm⟩

/-- **A request** enters the free slot with the next number. -/
theorem Paired.exchange {owner : Owner} {request : FilesystemRequest} (h : Paired codec c)
    (howner : owner ≠ .readiness) (hheartbeat : owner = .heartbeat → request = heartbeatRequest)
    (hok : c.exchange owner request = .ok c') : Paired codec c' := by
  obtain ⟨hfailure, hclosing, hpending, rfl⟩ := exchange_ok hok
  have hold : ∀ {k : Nat} {w : Waiter μ}, c.waiters[k]? = some w →
      (c.waiters ++ [⟨owner, .waiting⟩])[k]? = some w := fun hw => getElem?_append_some hw _
  have hnew : (c.waiters ++ [(⟨owner, .waiting⟩ : Waiter μ)])[c.waiters.length]? =
      some ⟨owner, .waiting⟩ := List.getElem?_concat_length
  have hlast : ∀ {k : Nat} {w : Waiter μ}, (c.waiters ++ [⟨owner, .waiting⟩])[k]? = some w →
      c.waiters[k]? = some w ∨ k = c.waiters.length ∧ w = ⟨owner, .waiting⟩ := by
    intro k w hw
    by_cases hk : k < c.waiters.length
    · rw [List.getElem?_append_left hk] at hw
      exact .inl hw
    · obtain ⟨hbound, _⟩ := List.getElem?_eq_some_iff.1 hw
      rw [List.length_append, List.length_singleton] at hbound
      have heq : k = c.waiters.length := by omega
      subst heq
      rw [hnew] at hw
      exact .inr ⟨rfl, (Option.some.inj hw).symm⟩
  constructor
  · refine ⟨⟨?_, ?_, ?_, ?_, ?_⟩, ?_⟩
    · intro k hk
      have hkEq : c.waiters.length = k := Option.some.inj hk
      simp [← hkEq]
    · intro k w hw hwaiting
      rcases hlast hw with hbefore | heq
      · have hslot := h.sound.waiting k w hbefore hwaiting
        rw [hpending] at hslot
        cases hslot
      · exact congrArg some heq.1.symm
    · simp only [List.map_append, List.map_cons, List.map_nil]
      refine List.pairwise_append.2 ⟨h.sound.ordered, List.pairwise_singleton _ _, ?_⟩
      intro index hindex other hother
      obtain ⟨entry, hentry, rfl⟩ := List.mem_map.1 hindex
      obtain ⟨w, hw, _⟩ := h.sound.owned entry hentry
      rw [List.mem_singleton.1 hother]
      exact (List.getElem?_eq_some_iff.1 hw).1
    · intro entry hentry
      rcases List.mem_append.1 hentry with hbefore | hin
      · obtain ⟨w, hw, hrest⟩ := h.sound.owned entry hbefore
        exact ⟨w, hold hw, hrest⟩
      · rw [List.mem_singleton.1 hin]
        exact ⟨_, hnew, howner, fun heq => by rw [hheartbeat heq]⟩
    · intro k hk
      obtain ⟨w, hw, hrest⟩ := h.sound.heartbeat k hk
      exact ⟨w, hold hw, hrest⟩
    · intro hdown
      simp [hfailure, hclosing] at hdown
  · intro k w reply hw hreply
    rcases hlast hw with hbefore | heq
    · exact h.served k w reply hbefore hreply
    · rw [heq.2] at hreply
      cases hreply
  · intro hlive
    have hserving := h.serving hlive
    refine ⟨hserving.reader, hserving.decoded, fun k hk => ?_, fun hnone => by cases hnone⟩
    have hkEq : c.waiters.length = k := Option.some.inj hk
    rw [← hkEq]
    exact hserving.free hpending
  · exact fun hlive => h.docker hlive
  · exact fun hlive => h.stdout hlive

theorem Paired.request {request : FilesystemRequest} (h : Paired codec c) :
    Paired codec (c.orElse (c.request request)) := by
  unfold FilesystemChannel.request
  by_cases haccepting : c.accepting = false
  · rw [if_pos haccepting]
    exact h
  · rw [if_neg haccepting]
    cases hexchange : c.exchange .request request with
    | error refusal => exact h
    | ok next => exact h.exchange (by decide) (by simp) hexchange

theorem Paired.heartbeat (h : Paired codec c) : Paired codec c.heartbeat := by
  have hfired : Same c { c with heartbeatTimer := false } :=
    { Same.refl c with }
  unfold FilesystemChannel.heartbeat
  split
  · exact h
  · split
    · exact hfired.paired h
    · split
      · exact (hfired.trans same_scheduleHeartbeat).paired h
      · split
        next waiting hexchange =>
          have hpaired := (hfired.paired h).exchange (by decide) (fun _ => rfl) hexchange
          obtain ⟨_, _, _, hwaiting⟩ := exchange_ok hexchange
          have hsound := hpaired.sound
          refine ⟨⟨⟨hsound.pending, hsound.waiting, hsound.ordered, hsound.owned, ?_⟩,
            hsound.idle⟩, hpaired.served, fun hlive => ?_, hpaired.docker, hpaired.stdout⟩
          · intro k hk
            have hkEq : c.waiters.length = k := Option.some.inj hk
            subst hkEq
            rw [hwaiting]
            exact ⟨⟨.heartbeat, .waiting⟩, List.getElem?_concat_length, rfl⟩
          · have hserving := hpaired.serving hlive
            exact { hserving with }
        · exact hfired.paired h

/-! ## The pump -/

namespace FilesystemChannel

/-- The bytes of standard output in what a decoder reads. -/
def stdoutFrom (position : Progress UInt8 FramingError) (bytes : List UInt8) : List UInt8 :=
  (bodyBytes dockerFormat position bytes).filterMap fun tagged =>
    if tagged.1 = 1 then some tagged.2 else none

theorem stdout_eq (c : FilesystemChannel μ) : c.stdout = stdoutFrom (.header []) c.consumed := rfl

theorem stdoutFrom_append (position : Progress UInt8 FramingError) (s t : List UInt8) :
    stdoutFrom position (s ++ t) =
      stdoutFrom position s ++ stdoutFrom (progress dockerFormat position s) t := by
  unfold stdoutFrom bodyBytes
  rw [outputs_append, List.filterMap_append]

/-- A piece of standard output holds nothing else. -/
theorem stdoutFrom_piece {position : Progress UInt8 FramingError} {read piece : List UInt8}
    (h : bodyBytes dockerFormat position read = piece.map ((1 : UInt8), ·)) :
    stdoutFrom position read = piece := by
  unfold stdoutFrom
  rw [h]
  induction piece with
  | nil => rfl
  | cons byte piece _ => simp

theorem accept_down (h : c.closing = true ∨ c.failure.isSome = true) (piece : List UInt8) :
    c.accept codec piece = (c, true) := by
  unfold accept
  cases piece with
  | nil => rfl
  | cons byte piece =>
    change acceptLoop codec (piece.length + 1) c (byte :: piece) = (c, true)
    unfold acceptLoop
    rw [if_neg (List.cons_ne_nil byte piece), if_pos h]

end FilesystemChannel

/-- More of the stream, and nothing else, once the channel is down. -/
theorem Paired.further (hsound : Sound c') (hserved : Served codec c' c.stdout)
    (hdown : c'.live = false) (more : List UInt8) (hconsumed : c'.consumed = c.consumed ++ more) :
    Paired codec c' := by
  refine .of_down hsound ?_ hdown
  rw [FilesystemChannel.stdout_eq, hconsumed, FilesystemChannel.stdoutFrom_append]
  exact hserved.append _

/-- The pump gives its chunk up: what was answered stays answered. -/
theorem Paired.throws (h : Paired codec c) (code : FailureCode) : Paired codec (c.throws code) := by
  have hsound : Sound (c.throws code) :=
    ⟨⟨h.sound.pending, h.sound.waiting, h.sound.ordered, h.sound.owned, h.sound.heartbeat⟩,
      h.sound.idle⟩
  exact .further (c := c) hsound h.served rfl c.unread rfl

theorem sound_readTo (h : Sound c) (decoder : DockerFrameDecoder) (rest : List UInt8) :
    Sound (c.readTo decoder rest) :=
  ⟨{ h with }, h.idle⟩

/-- **The delivery of a piece.** -/
theorem Paired.deliver {decoder : DockerFrameDecoder} {stream : UInt8}
    {piece rest : List UInt8} (h : Paired codec c) (hrunning : c.pump = .running)
    (hscanned : c.live = true → Scanned (progress dockerFormat (.header []) c.consumed) c.unread
      (.deliver decoder stream piece rest)) :
    Paired codec (c.deliver codec decoder stream piece rest) := by
  unfold FilesystemChannel.deliver
  by_cases hstream : stream ≠ 1
  · rw [if_pos hstream]
    exact h.throws _
  · rw [if_neg hstream]
    have hone : stream = 1 := by simpa using hstream
    subst hone
    by_cases hdown : c.closing = true ∨ c.failure.isSome = true
    · -- the bytes of a channel that is down are dropped
      rw [FilesystemChannel.accept_down hdown]
      simp only [if_true]
      refine .further (c := c) (sound_readTo h.sound decoder rest) h.served ?_ _ rfl
      have hnot : ¬(c.readTo decoder rest).live = true := by
        rw [FilesystemChannel.live_iff]
        rintro ⟨_, hfailure, hclosing⟩
        have hsame : c.failure = none ∧ c.closing = false := ⟨hfailure, hclosing⟩
        rw [hsame.1, hsame.2] at hdown
        simp at hdown
      simpa using hnot
    · rw [not_or] at hdown
      have hopen : c.closing = false := by simpa using hdown.1
      have hwell : c.failure = none := by simpa using hdown.2
      have hlive : c.live = true := FilesystemChannel.live_iff.2 ⟨hrunning, hwell, hopen⟩
      have hreading : Reading codec c c.stdout := ⟨h.sound, h.served, fun _ _ => h.serving hlive⟩
      have haccepted : Sound (c.accept codec piece).1 ∧
          Served codec (c.accept codec piece).1 (c.stdout ++ piece) ∧
          Kept c (c.accept codec piece).1 ∧ ((c.accept codec piece).2 = true →
            Reading codec (c.accept codec piece).1 (c.stdout ++ piece)) :=
        acceptLoop_spec (Nat.le_refl piece.length) hreading
      generalize c.accept codec piece = result at haccepted ⊢
      obtain ⟨hsound, hserved, hkept, hok⟩ := haccepted
      cases hscanned hlive with
      | @deliver _ after _ _ _ read hsplit hne hread hat =>
        have hpiece := FilesystemChannel.stdoutFrom_piece hread.bodyBytes
        by_cases htrue : result.2 = true
        · rw [if_pos htrue]
          have hserving := (hok htrue).serving (hkept.closing.trans hopen)
            (hkept.failure.trans hwell)
          have htake : result.1.unread.take (result.1.unread.length - rest.length) = read := by
            rw [hkept.unread, hsplit, List.length_append, Nat.add_sub_cancel]
            exact List.take_left
          have hconsumed : (result.1.readTo decoder rest).consumed = c.consumed ++ read := by
            change result.1.consumed ++ _ = _
            rw [htake, hkept.consumed]
          have hstdout : (result.1.readTo decoder rest).stdout = c.stdout ++ piece := by
            rw [FilesystemChannel.stdout_eq, hconsumed, FilesystemChannel.stdoutFrom_append,
              hpiece]
            rfl
          refine ⟨sound_readTo hsound decoder rest, ?_, fun _ => ?_, fun _ => ?_, fun _ => ?_⟩
          · rw [hstdout]
            exact hserved
          · rw [hstdout]
            exact { hserving with }
          · rw [hconsumed, progress_append, hread.progress]
            exact hat
          · rw [hconsumed]
            unfold bodyBytes
            rw [outputs_append]
            intro tagged htagged
            rcases List.mem_append.1 htagged with hbefore | hin
            · exact h.stdout hlive tagged hbefore
            · have hout := hread.bodyBytes
              unfold bodyBytes at hout
              rw [hout] at hin
              obtain ⟨byte, _, heq⟩ := List.mem_map.1 hin
              rw [← heq]
        · rw [if_neg htrue]
          have hthrown : Sound (result.1.throws .driver_failure) :=
            ⟨{ hsound with },
              hsound.idle⟩
          refine .of_down hthrown ?_ rfl
          have hconsumed : (result.1.throws .driver_failure).consumed =
              c.consumed ++ (read ++ rest) := by
            change result.1.consumed ++ result.1.unread = _
            rw [hkept.consumed, hkept.unread, hsplit]
          rw [FilesystemChannel.stdout_eq, hconsumed, FilesystemChannel.stdoutFrom_append,
            FilesystemChannel.stdoutFrom_append, hpiece, ← List.append_assoc]
          exact Served.append hserved _

theorem Paired.delivery (h : Paired codec c) : Paired codec (c.delivery codec) := by
  unfold FilesystemChannel.delivery
  split
  next hrunning =>
    have hscanned : c.live = true → Scanned (progress dockerFormat (.header []) c.consumed)
        c.unread (c.decoder.scan c.unread) := fun hlive =>
      DockerFrameDecoder.scan_spec (h.docker hlive) c.unread
    split
    next decoder hscan =>
      rw [hscan] at hscanned
      by_cases hlive : c.live = true
      · cases hscanned hlive with
        | done hread hat =>
          have htake : c.unread.take (c.unread.length - ([] : List UInt8).length) = c.unread := by
            simp
          have hconsumed : (c.readTo decoder []).consumed = c.consumed ++ c.unread := by
            change c.consumed ++ _ = _
            rw [htake]
          have hnone : FilesystemChannel.stdoutFrom
              (progress dockerFormat (.header []) c.consumed) c.unread = [] := by
            unfold FilesystemChannel.stdoutFrom
            rw [hread.bodyBytes]
            rfl
          have hstdout : (c.readTo decoder []).stdout = c.stdout := by
            rw [FilesystemChannel.stdout_eq, hconsumed, FilesystemChannel.stdoutFrom_append,
              hnone, List.append_nil]
            rfl
          have hserving := h.serving hlive
          refine ⟨sound_readTo h.sound decoder [], ?_, fun _ => ?_, fun _ => ?_, fun _ => ?_⟩
          · rw [hstdout]
            exact h.served
          · rw [hstdout]
            exact { hserving with }
          · rw [hconsumed, progress_append, hread.progress]
            exact hat
          · rw [hconsumed]
            have hout := hread.bodyBytes
            unfold bodyBytes at hout ⊢
            rw [outputs_append, hout, List.append_nil]
            exact h.stdout hlive
      · have hdown : (c.readTo decoder []).live = false := by
          have hnot : ¬(c.readTo decoder []).live = true := hlive
          simpa using hnot
        exact .further (c := c) (sound_readTo h.sound decoder []) h.served hdown _ rfl
    next error _ => exact h.throws _
    next decoder stream piece rest hscan =>
      rw [hscan] at hscanned
      exact h.deliver hrunning hscanned
  · exact h

theorem Paired.chunk (h : Paired codec c) (bytes : List UInt8) : Paired codec (c.chunk bytes) := by
  unfold FilesystemChannel.chunk
  split
  · split
    · exact h
    · split
      · exact h.throws _
      · have hsame : Same c { c with unread := bytes } :=
          { Same.refl c with }
        exact hsame.paired h
  · exact h

theorem Paired.streamEnd (h : Paired codec c) : Paired codec c.streamEnd := by
  unfold FilesystemChannel.streamEnd
  split
  · split
    · exact h
    · split
      · have hsame : Same c { c with pump := .ended } :=
          { Same.refl c with pump := by simp }
        exact hsame.paired h
      · split
        · exact h.throws _
        · exact h.throws _
  · exact h

theorem Paired.pumpFails (h : Paired codec c) : Paired codec c.pumpFails := by
  unfold FilesystemChannel.pumpFails
  split
  · have hsame : Same c { c with pump := .ended } :=
      { Same.refl c with pump := by simp }
    exact (hsame.paired h).fail _
  · exact h

/-! ## Runs -/

/-- **One event** of a channel. -/
theorem Paired.step (h : Paired codec c) (event : ChannelEvent) :
    Paired codec (c.step codec event) := by
  cases event with
  | chunk bytes => exact h.chunk bytes
  | delivery => exact h.delivery
  | streamEnd => exact h.streamEnd
  | pumpFails => exact h.pumpFails
  | readiness => exact h.readiness
  | beginReadiness => exact same_beginReadiness.paired h
  | request request =>
    change Paired codec (if c.enteredReady = true then c.orElse (c.request request) else c)
    split
    · exact h.request
    · exact h
  | heartbeatTimer => exact h.heartbeat
  | heartbeatReply => exact h.heartbeatReply
  | deadline =>
    change Paired codec (if c.timer = true then c.fail .deadline_exceeded else c)
    split
    · exact h.fail _
    · exact h
  | interrupt code => exact h.fail code
  | closeRequests => exact same_closeRequests.paired h
  | stopRenewal => exact same_stopRenewal.paired h
  | closeAdmission => exact h.closeAdmission

/-- No reply is handed out, and a channel that does not serve never serves again. -/
structure Quiet (c c' : FilesystemChannel μ) : Prop where
  live : c'.live = true → c.live = true
  answers : ∀ k reply, c'.outcome k = some (.resolved reply) → c.outcome k = some (.resolved reply)

theorem Quiet.refl (c : FilesystemChannel μ) : Quiet c c := ⟨id, fun _ _ => id⟩

theorem Quiet.trans {c'' : FilesystemChannel μ} (h : Quiet c c') (h' : Quiet c' c'') :
    Quiet c c'' :=
  ⟨fun hlive => h.live (h'.live hlive),
    fun k reply hreply => h.answers k reply (h'.answers k reply hreply)⟩

theorem Same.quiet (h : Same c c') : Quiet c c' := by
  refine ⟨h.live, fun k reply hreply => ?_⟩
  unfold FilesystemChannel.outcome at hreply ⊢
  rw [h.waiters] at hreply
  exact hreply

theorem quiet_of_down (hwaiters : c'.waiters = c.waiters) (hdown : c'.live = false) :
    Quiet c c' := by
  refine ⟨fun hlive => absurd hlive (by simp [hdown]), fun k reply hreply => ?_⟩
  unfold FilesystemChannel.outcome at hreply ⊢
  rw [hwaiters] at hreply
  exact hreply

theorem quiet_exchange {owner : Owner} {request : FilesystemRequest}
    (h : c.exchange owner request = .ok c') : Quiet c c' := by
  obtain ⟨_, _, _, rfl⟩ := exchange_ok h
  refine ⟨id, fun k reply hreply => ?_⟩
  obtain ⟨w, hw, hout⟩ := Option.map_eq_some_iff.1 hreply
  by_cases hk : k < c.waiters.length
  · rw [List.getElem?_append_left hk] at hw
    exact Option.map_eq_some_iff.2 ⟨w, hw, hout⟩
  · rw [List.getElem?_append_right (Nat.le_of_not_lt hk)] at hw
    have hwaiting : w = ⟨owner, .waiting⟩ := by
      simpa using List.mem_of_getElem? hw
    rw [hwaiting] at hout
    cases hout

theorem quiet_request {request : FilesystemRequest} : Quiet c (c.orElse (c.request request)) := by
  unfold FilesystemChannel.request
  by_cases haccepting : c.accepting = false
  · rw [if_pos haccepting]
    exact .refl c
  · rw [if_neg haccepting]
    cases hexchange : c.exchange .request request with
    | error refusal => exact .refl c
    | ok next => exact quiet_exchange hexchange

theorem quiet_throws (code : FailureCode) : Quiet c (c.throws code) := quiet_of_down rfl rfl

end AgentSdk.Docker
