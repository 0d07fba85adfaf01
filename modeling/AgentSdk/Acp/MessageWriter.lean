import AgentSdk.Acp.LineFramer
import AgentSdk.Lib.JsonData
import AgentSdk.Lib.JsonText

/-!
# Serialized message output

The message writer of the ACP transport: messages are printed as JSON text with
an LF behind it, admitted within a frame and a buffer limit, and written one
after another.  What the peer reads are the frames of a prefix of the admitted
messages, in order; a peer whose frame limit they meet reads the messages back.

## Main results

* `Writer.written_prefix` — the bytes on the stream are whole frames of the
  admitted messages, in order.
* `stream_framing` — chunks of a stream have the meaning of the stream, and the
  messages of a writer are read back from them, exactly when the chunks are
  paced.
-/

namespace AgentSdk.Acp

open AgentSdk.Text

/-! ## Messages -/

/-- A code unit of the spelling of a finite number. -/
def isNumberUnit (u : UInt16) : Bool :=
  isDigit u || u == 45 || u == 43 || u == 46 || u == 101

/-- A finite number, as the runtime spells it. -/
structure NumberText where
  text : JsString
  units : ∀ u ∈ text, isNumberUnit u = true

/-- A message: the members of its object, in the order they are printed. -/
structure AcpMessage where
  members : List (JsString × JsonData NumberText)

/-- The JSON text of a message. -/
def AcpMessage.text (message : AcpMessage) : JsString :=
  (JsonData.obj message.members).stringify NumberText.text

/-- The bytes of a message and its delimiter. -/
def AcpMessage.frame (message : AcpMessage) : Bytes := Utf8.encode (message.text ++ [10])

/-! ## The writer -/

/-- The limits of a writer. -/
structure WriterOptions where
  maxFrameBytes : Nat
  maxBufferedBytes : Nat

/-- Why a message is not admitted. -/
inductive WriteError where
  | clientDisposed
  | outboundFrameTooLarge
  | outboundBufferLimitExceeded
deriving DecidableEq

/-- The reason code of the error raised. -/
def WriteError.reasonCode : WriteError → JsString
  | .clientDisposed => js "acp_client_disposed"
  | .outboundFrameTooLarge => js "acp_outbound_frame_too_large"
  | .outboundBufferLimitExceeded => js "acp_outbound_buffer_limit_exceeded"

/-- The state of a writer: the frames that wait, the frame whose write has not
settled, the bytes given to the stream, and the messages admitted so far. -/
structure Writer where
  disposed : Bool := false
  queuedBytes : Nat := 0
  queue : List Bytes := []
  entered : Option Bytes := none
  written : Bytes := []
  admitted : List AcpMessage := []

/-- What happens to a writer. -/
inductive WriterEvent where
  | write (message : AcpMessage)
  | enter
  | settle
  | dispose

namespace Writer

/-- A message is offered. -/
def write (options : WriterOptions) (w : Writer) (message : AcpMessage) :
    Except WriteError Writer :=
  if w.disposed then .error .clientDisposed
  else
    let frame := message.frame
    if options.maxFrameBytes < frame.length - 1 then .error .outboundFrameTooLarge
    else if options.maxBufferedBytes < w.queuedBytes + frame.length then
      .error .outboundBufferLimitExceeded
    else
      .ok { w with
        queuedBytes := w.queuedBytes + frame.length
        queue := w.queue ++ [frame]
        admitted := w.admitted ++ [message] }

/-- The next frame is given to the stream once the write before it has settled;
a disposed writer rejects it instead. -/
def enter (w : Writer) : Writer :=
  match w.entered, w.queue with
  | none, frame :: queue =>
    if w.disposed then { w with queue, queuedBytes := w.queuedBytes - frame.length }
    else { w with queue, entered := some frame, written := w.written ++ frame }
  | _, _ => w

/-- The write of the frame given last settles. -/
def settle (w : Writer) : Writer :=
  match w.entered with
  | some frame => { w with entered := none, queuedBytes := w.queuedBytes - frame.length }
  | none => w

/-- Disposal rejects the write that has not settled. -/
def dispose (w : Writer) : Writer := if w.disposed then w else { w.settle with disposed := true }

/-- A rejected message leaves the writer as it is. -/
def step (options : WriterOptions) (w : Writer) : WriterEvent → Writer
  | .write message =>
    match w.write options message with
    | .ok w' => w'
    | .error _ => w
  | .enter => w.enter
  | .settle => w.settle
  | .dispose => w.dispose

/-- The state after a list of events. -/
def run (options : WriterOptions) (events : List WriterEvent) : Writer :=
  events.foldl (step options) {}

end Writer

/-! ## What reaches the stream -/

/-- The frames of some messages, one after another. -/
def framesOf (messages : List AcpMessage) : Bytes := (messages.map AcpMessage.frame).flatten

/-- What an admitted message changes. -/
theorem Writer.write_eq_ok {options : WriterOptions} {w w' : Writer} {message : AcpMessage}
    (h : w.write options message = .ok w') :
    message.frame.length - 1 ≤ options.maxFrameBytes ∧
      w.queuedBytes + message.frame.length ≤ options.maxBufferedBytes ∧
      w' = { w with
        queuedBytes := w.queuedBytes + message.frame.length
        queue := w.queue ++ [message.frame]
        admitted := w.admitted ++ [message] } := by
  unfold Writer.write at h
  split at h
  · cases h
  · dsimp only at h
    split at h
    · cases h
    · split at h
      · cases h
      · cases h
        exact ⟨by omega, by omega, rfl⟩

/-- The stream holds the frames of the first messages; the others wait, or were
dropped by disposal. -/
structure Writer.Ordered (w : Writer) : Prop where
  written : ∃ sent rest, w.admitted = sent ++ rest ∧ w.written = framesOf sent ∧
    (w.disposed = false → w.queue = rest.map AcpMessage.frame)
  charged : w.queuedBytes = (w.entered.elim 0 List.length) + (w.queue.map List.length).sum

theorem Writer.Ordered.step {options : WriterOptions} {w : Writer} (h : w.Ordered)
    (event : WriterEvent) : (w.step options event).Ordered := by
  have hkept := h
  obtain ⟨⟨sent, rest, hadmitted, hwritten, hqueue⟩, hcharged⟩ := h
  cases event with
  | write message =>
    cases hwrite : w.write options message with
    | error error =>
      simp only [Writer.step, hwrite]
      exact hkept
    | ok w' =>
      simp only [Writer.step, hwrite]
      obtain ⟨-, -, rfl⟩ := Writer.write_eq_ok hwrite
      constructor
      · refine ⟨sent, rest ++ [message], by simp [hadmitted], hwritten, fun hopen => ?_⟩
        simp [hqueue hopen]
      · simp only [List.map_append, List.sum_append, List.map_cons, List.map_nil,
          List.sum_cons, List.sum_nil]
        omega
  | enter =>
    dsimp only [Writer.step, Writer.enter]
    split
    · rename_i frame queue hentered hwaiting
      by_cases hdisposed : w.disposed = true
      · rw [if_pos hdisposed]
        refine ⟨⟨sent, rest, hadmitted, hwritten, fun hopen => ?_⟩, ?_⟩
        · rw [hdisposed] at hopen
          cases hopen
        · simp only [hentered, hwaiting, List.map_cons, List.sum_cons, Option.elim] at hcharged ⊢
          omega
      · rw [if_neg hdisposed]
        have hopen : w.disposed = false := Bool.eq_false_iff.2 hdisposed
        have hrest := hqueue hopen
        rw [hwaiting] at hrest
        cases rest with
        | nil => cases hrest
        | cons message rest =>
          rw [List.map_cons, List.cons.injEq] at hrest
          obtain ⟨rfl, rfl⟩ := hrest
          constructor
          · refine ⟨sent ++ [message], rest, by simp [hadmitted], ?_, fun _ => rfl⟩
            simp [hwritten, framesOf]
          · simp only [hentered, hwaiting, List.map_cons, List.sum_cons, Option.elim]
              at hcharged ⊢
            omega
    · exact hkept
  | settle =>
    dsimp only [Writer.step, Writer.settle]
    split
    · rename_i frame hentered
      refine ⟨⟨sent, rest, hadmitted, hwritten, hqueue⟩, ?_⟩
      simp only [hentered, Option.elim] at hcharged ⊢
      omega
    · exact hkept
  | dispose =>
    dsimp only [Writer.step, Writer.dispose, Writer.settle]
    split
    · exact hkept
    · split
      · rename_i frame hentered
        refine ⟨⟨sent, rest, hadmitted, hwritten, fun hopen => by cases hopen⟩, ?_⟩
        simp only [hentered, Option.elim] at hcharged ⊢
        omega
      · exact ⟨⟨sent, rest, hadmitted, hwritten, fun hopen => by cases hopen⟩, hcharged⟩

theorem Writer.Ordered.run (options : WriterOptions) (events : List WriterEvent) :
    (Writer.run options events).Ordered := by
  have hinv : ∀ (w : Writer), w.Ordered → (events.foldl (Writer.step options) w).Ordered := by
    induction events with
    | nil => exact fun w h => h
    | cons event _ ih => exact fun w h => ih _ (h.step event)
  exact hinv {} ⟨⟨[], [], rfl, rfl, fun _ => rfl⟩, rfl⟩

/-- The bytes on the stream are whole frames of the first admitted messages, in
order: of all of them once nothing waits. -/
theorem Writer.written_prefix (options : WriterOptions) (events : List WriterEvent) :
    ∃ sent, sent <+: (Writer.run options events).admitted ∧
      (Writer.run options events).written = framesOf sent ∧
      ((Writer.run options events).disposed = false → (Writer.run options events).queue = [] →
        sent = (Writer.run options events).admitted) := by
  obtain ⟨⟨sent, rest, hadmitted, hwritten, hqueue⟩, -⟩ := Writer.Ordered.run options events
  refine ⟨sent, ⟨rest, hadmitted.symm⟩, hwritten, fun hopen hempty => ?_⟩
  have hrest : rest = [] := by
    have := hqueue hopen
    rw [hempty] at this
    exact List.map_eq_nil_iff.1 this.symm
  rw [hadmitted, hrest, List.append_nil]

/-! ## Reading messages back -/

theorem NumberText.printable (number : NumberText) : JsonData.Printable number.text := by
  have hrange : ∀ u ∈ number.text, 0x20 ≤ u.toNat ∧ u.toNat < 0x80 := by
    intro u hu
    have hunit := number.units u hu
    simp only [isNumberUnit, isDigit, Bool.or_eq_true, Bool.and_eq_true, decide_eq_true_eq,
      beq_iff_eq] at hunit
    rcases hunit with (((hdigit | rfl) | rfl) | rfl) | rfl
    · omega
    all_goals decide
  exact ⟨(ascii_size _ fun u hu => (hrange u hu).2).1, fun u hu => (hrange u hu).1⟩

namespace AcpMessage

variable (message : AcpMessage)

/-- The text of a message without its closing brace. -/
def opening : JsString := 123 :: JsonData.stringifyFields NumberText.text message.members

theorem text_eq : message.text = message.opening ++ [125] := rfl

theorem opening_printable : JsonData.Printable message.opening :=
  .cons (by decide) (by decide)
    (JsonData.stringifyFields_printable NumberText.printable message.members)

theorem text_printable : JsonData.Printable message.text :=
  message.opening_printable.append ⟨by decide, forall_of_all (by decide)⟩

/-- The bytes of a message without the delimiter. -/
def payload : Bytes := Utf8.encode message.text

theorem frame_eq : message.frame = message.payload ++ [lineFeed] := by
  rw [frame, Utf8.encode_append message.text_printable.wellFormed]
  rfl

theorem payload_free : lineFeed ∉ message.payload := by
  intro hmem
  obtain ⟨u, hu, heq⟩ := Utf8.mem_of_mem_encode hmem (by decide)
  have hlow := message.text_printable.noControl u hu
  have hfeed : lineFeed.toNat = 10 := rfl
  omega

theorem stripReturn_payload : stripReturn message.payload = message.payload := by
  have hlast : message.payload = Utf8.encode message.opening ++ [125] := by
    rw [payload, text_eq, Utf8.encode_append message.opening_printable.wellFormed]
    rfl
  have hbrace : ¬(125 : UInt8) = carriageReturn := by decide
  simp [stripReturn, hlast, hbrace]

theorem payload_ne_nil : message.payload ≠ [] := by
  intro hnil
  have hlength := congrArg List.length hnil
  rw [payload, Utf8.length_encode] at hlength
  have hunits := length_le_utf8Length message.text
  rw [text_eq] at hunits hlength
  simp at hunits hlength
  omega

theorem decodeText_payload : Utf8.decodeText message.payload = some message.text := by
  have hbrace : ¬(123 : UInt16) = 0xFEFF := by decide
  rw [Utf8.decodeText, payload, Utf8.decode_encode message.text_printable.wellFormed]
  simp [text_eq, opening, Utf8.dropMark, hbrace]

/-- A message within the frame limit is a frame that carries its text. -/
theorem readLine_payload {options : FramerOptions}
    (hfits : message.payload.length ≤ options.maxFrameBytes) :
    readLine options message.payload = .ok message.text := by
  simp [readLine, message.stripReturn_payload, message.payload_ne_nil, Nat.not_lt.2 hfits,
    message.decodeText_payload]

end AcpMessage

/-- A consumer that only records the frames. -/
def FramerOptions.recording (maxFrameBytes : Nat) : FramerOptions where
  maxFrameBytes
  onFrame _ := .returns

/-- The frames of messages mean their texts, in order, and the end of the
stream. -/
theorem meaning_framesOf {maxFrameBytes : Nat} (frames : List JsString) (messages : List AcpMessage)
    (hfits : ∀ message ∈ messages, message.payload.length ≤ maxFrameBytes) :
    meaningAfter (.recording maxFrameBytes) frames (framesOf messages) =
      (frames ++ messages.map AcpMessage.text, some .ended) := by
  induction messages generalizing frames with
  | nil => simp [framesOf, meaningAfter_free, judgeTail]
  | cons message messages ih =>
    have hhead : message.payload.length ≤ (FramerOptions.recording maxFrameBytes).maxFrameBytes :=
      hfits message (by simp)
    have hstream : framesOf (message :: messages) =
        message.payload ++ lineFeed :: framesOf messages := by
      simp [framesOf, message.frame_eq]
    rw [hstream, meaningAfter_ok message.payload_free (message.readLine_payload hhead)]
    have htail := ih (frames ++ [message.text]) fun other hother =>
      hfits other (List.mem_cons_of_mem _ hother)
    simpa [FramerOptions.recording] using htail

/-- Chunks of a stream have the meaning of the stream exactly when they are
paced; so the messages of a writer whose stream is complete are read back from
chunks of its bytes exactly when these are paced. -/
theorem stream_framing (options : FramerOptions) (chunks : List Bytes) :
    (framed options chunks = meaning options chunks.flatten ↔ Paced options chunks) ∧
    ∀ (sender : WriterOptions) (events : List WriterEvent) (maxFrameBytes : Nat),
      (Writer.run sender events).disposed = false → (Writer.run sender events).queue = [] →
      (∀ message ∈ (Writer.run sender events).admitted,
        message.payload.length ≤ maxFrameBytes) →
      chunks.flatten = (Writer.run sender events).written →
      (framed (.recording maxFrameBytes) chunks =
          ((Writer.run sender events).admitted.map AcpMessage.text, some .ended) ↔
        Paced (.recording maxFrameBytes) chunks) := by
  refine ⟨framed_eq_iff options chunks, ?_⟩
  intro sender events maxFrameBytes hopen hempty hfits hchunks
  obtain ⟨sent, -, hwritten, hall⟩ := Writer.written_prefix sender events
  rw [hall hopen hempty] at hwritten
  have hmeaning := meaning_framesOf [] (Writer.run sender events).admitted hfits
  rw [List.nil_append, ← hwritten, ← hchunks] at hmeaning
  rw [← hmeaning]
  exact framed_eq_iff _ chunks

/-- A notification with a parameter of `n` characters. -/
def sampleNotification (n : Nat) : AcpMessage where
  members :=
    [(js "jsonrpc", .str (js "2.0")), (js "method", .str (js "a")),
      (js "params", .str (List.replicate n 97))]

theorem length_payload_sample (n : Nat) : (sampleNotification n).payload.length = n + 42 := by
  have hescape : Json.escape (List.replicate n 97) = List.replicate n 97 := by
    induction n with
    | zero => rfl
    | succ n ih =>
      rw [List.replicate_succ, Json.escape_cons_of_not_pair (by cases n <;> rfl), ih]
      rfl
  have htext : (sampleNotification n).text =
      (123 :: js "\"jsonrpc\":\"2.0\",\"method\":\"a\",\"params\":\"") ++
        (List.replicate n 97 ++ [34, 125]) := by
    have hparts : (sampleNotification n).text =
        (123 :: js "\"jsonrpc\":\"2.0\",\"method\":\"a\",\"params\":\"") ++
          ((Json.escape (List.replicate n 97) ++ [34]) ++ [125]) := rfl
    rw [hparts, hescape, List.append_assoc]
    rfl
  have hascii : ∀ u ∈ (sampleNotification n).text, u.toNat < 0x80 := by
    have hopening : ∀ u ∈
        (123 :: js "\"jsonrpc\":\"2.0\",\"method\":\"a\",\"params\":\"" : JsString),
        u.toNat < 0x80 := forall_of_all (by decide)
    intro u hu
    rw [htext, List.mem_append, List.mem_append] at hu
    rcases hu with hu | hu | hu
    · exact hopening u hu
    · rw [List.eq_of_mem_replicate hu]
      decide
    · have hclosing : ∀ v ∈ ([34, 125] : JsString), v.toNat < 0x80 := forall_of_all (by decide)
      exact hclosing u hu
  rw [AcpMessage.payload, Utf8.length_encode, (ascii_size _ hascii).2, htext, List.length_append,
    List.length_append, List.length_replicate]
  have hopening :
      (123 :: js "\"jsonrpc\":\"2.0\",\"method\":\"a\",\"params\":\"" : JsString).length = 40 := by
    decide
  simp only [hopening, List.length_cons, List.length_nil]
  omega

/-- One message, written and read back from one chunk. -/
theorem stream_framing_of_one_chunk :
    framed (.recording 1024) [(sampleNotification 1).frame] =
      ([(sampleNotification 1).text], some .ended) := by
  have hpaced : Paced (.recording 1024) [(sampleNotification 1).frame] := by
    intro before chunk after sent pending hchunks heq _ hlong _
    have hlength : ∀ chunk ∈ [(sampleNotification 1).frame], chunk.length ≤ 1024 := by decide
    have hflat := congrArg List.length heq
    have hwhole := congrArg (fun chunks => chunks.flatten.length) hchunks
    have hshort := hlength _ (List.mem_singleton.2 rfl)
    simp only [FramerOptions.recording] at hlong
    simp at hflat hwhole
    omega
  exact ((stream_framing (.recording 1024) [(sampleNotification 1).frame]).2 ⟨1024, 4096⟩
    [.write (sampleNotification 1), .enter, .settle] 1024
    (by decide) (by decide) (by decide) (by decide)).2 hpaced

/-- Two messages in one chunk are not paced when the second fills a frame: its
delimiter is one byte too many. -/
theorem not_paced_of_full_frame (first second : AcpMessage)
    (hfirst : first.payload.length ≤ second.payload.length) :
    ¬Paced (.recording second.payload.length) [framesOf [first, second]] := by
  intro hpaced
  have hsent : Passed (.recording second.payload.length) [] first.frame := by
    rw [AcpMessage.frame_eq]
    exact .line _ first.payload_free (first.readLine_payload hfirst) rfl (.nil _)
  have hlong : second.payload.length < second.frame.length := by simp [AcpMessage.frame_eq]
  have hshorter : second.frame.length < (framesOf [first, second]).length := by
    simp only [framesOf, AcpMessage.frame_eq, List.map_cons, List.map_nil, List.flatten_cons,
      List.flatten_nil, List.length_append, List.length_singleton, List.length_nil]
    omega
  have hoverlong := hpaced [] (framesOf [first, second]) [] first.frame second.frame rfl
    (by simp [framesOf]) hsent hlong (Or.inr hshorter)
  have hcut : cutLine (second.frame ++ [].flatten) = some (second.payload, []) := by
    rw [AcpMessage.frame_eq, List.flatten_nil, List.append_nil]
    exact cutLine_line [] second.payload_free
  have hlarge := hoverlong _ _ hcut
  rw [AcpMessage.stripReturn_payload] at hlarge
  exact absurd hlarge (Nat.lt_irrefl _)

/-- A short message and one that fills a frame, in one chunk: the framer gives
up after the first, though neither exceeds the limit. -/
theorem two_frames_in_one_chunk :
    (∀ message ∈ [sampleNotification 1, sampleNotification 982],
      message.payload.length ≤ 1024) ∧
    framed (.recording 1024) [framesOf [sampleNotification 1, sampleNotification 982]] ≠
      meaning (.recording 1024) (framesOf [sampleNotification 1, sampleNotification 982]) := by
  have hlength₁ := length_payload_sample 1
  have hlength₂ := length_payload_sample 982
  have hpaced := not_paced_of_full_frame (sampleNotification 1) (sampleNotification 982)
    (by omega)
  rw [hlength₂] at hpaced
  refine ⟨by simp [hlength₁, hlength₂], fun heq => hpaced ?_⟩
  rw [← framed_eq_iff, List.flatten_singleton]
  exact heq

end AgentSdk.Acp
