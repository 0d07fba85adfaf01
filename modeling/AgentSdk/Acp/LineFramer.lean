import AgentSdk.Lib.Utf8

/-!
# Newline-delimited frames on a byte stream

The line framer of the ACP transport: it collects the chunks a readable stream
delivers, cuts them at LF, strips one CR, and hands every decoded frame to its
consumer.  Chunks arrive one at a time, so the state between two chunks is the
unfinished line.

The second half gives the meaning of a stream as a whole, without chunks: its
lines are cut first and then taken in order until one is rejected.  The two
agree exactly when no chunk leaves more bytes behind a line end than a frame may
have, over-long lines apart (`Paced`).

## Main results

* `framed_eq_iff` — a stream delivered in chunks has its meaning as a whole
  exactly when the chunks are paced.
-/

namespace AgentSdk.Acp

open AgentSdk.Text

/-! ## The framer -/

/-- Why the framer gives up. -/
inductive FrameError where
  | frameTooLarge
  | emptyFrame
  | utf8Invalid
  | streamError
  | truncatedFrame
deriving DecidableEq

/-- The reason code of the error raised. -/
def FrameError.reasonCode : FrameError → JsString
  | .frameTooLarge => js "acp_stdout_frame_too_large"
  | .emptyFrame => js "acp_stdout_empty_frame"
  | .utf8Invalid => js "acp_stdout_utf8_invalid"
  | .streamError => js "acp_stdout_stream_error"
  | .truncatedFrame => js "acp_stdout_truncated_frame"

/-- What the consumer does when it is given a frame. -/
inductive Reaction where
  | returns
  | throws
  | disposes
deriving DecidableEq

/-- How a framer is set up.  The consumer sees all frames so far, the newest
last. -/
structure FramerOptions where
  maxFrameBytes : Nat
  onFrame : List JsString → Reaction

/-- The last thing the framer reports. -/
inductive FramerVerdict where
  | fatal (error : FrameError)
  | ended
deriving DecidableEq

/-- The state of a framer, with what it has reported so far. -/
structure Framer where
  buffered : Bytes := []
  active : Bool := true
  ended : Bool := false
  frames : List JsString := []
  verdict : Option FramerVerdict := none

/-- LF. -/
def lineFeed : UInt8 := 0x0A

/-- CR. -/
def carriageReturn : UInt8 := 0x0D

/-- The bytes before the first LF and those behind it. -/
def cutLine : Bytes → Option (Bytes × Bytes)
  | [] => none
  | b :: rest =>
    if b = lineFeed then some ([], rest)
    else (cutLine rest).map fun cut => (b :: cut.1, cut.2)

/-- A line without one trailing CR. -/
def stripReturn (line : Bytes) : Bytes :=
  if line.getLast? = some carriageReturn then line.dropLast else line

variable {buffer bytes line rest sent : Bytes} {chunks : List Bytes}

theorem length_of_cutLine (h : cutLine bytes = some (line, rest)) : rest.length < bytes.length := by
  induction bytes generalizing line with
  | nil => cases h
  | cons b more ih =>
    unfold cutLine at h
    split at h
    · cases h
      simp
    · obtain ⟨cut, hcut, heq⟩ := Option.map_eq_some_iff.1 h
      rw [Prod.mk.injEq] at heq
      have hmore : cutLine more = some (cut.1, rest) := by rw [hcut, ← heq.2]
      exact Nat.lt_succ_of_lt (ih hmore)

namespace Framer

/-- A fatal error is reported once; the listeners are gone afterwards. -/
def fatal (f : Framer) (error : FrameError) : Framer :=
  if f.active then { f with active := false, verdict := some (.fatal error) } else f

/-- The consumer no longer wants frames. -/
def dispose (f : Framer) : Framer :=
  if f.active then { f with active := false, buffered := [] } else f

/-- The loop over the complete lines of the buffer. -/
def drain (options : FramerOptions) (f : Framer) : Framer :=
  match h : cutLine f.buffered with
  | none => f
  | some (line, rest) =>
    if f.active = false then f
    else
      let frame := stripReturn line
      let f' := { f with buffered := rest }
      if frame = [] then f'.fatal .emptyFrame
      else if options.maxFrameBytes < frame.length then f'.fatal .frameTooLarge
      else
        match Utf8.decodeText frame with
        | none => f'.fatal .utf8Invalid
        | some text =>
          let f'' := { f' with frames := f.frames ++ [text] }
          match options.onFrame f''.frames with
          | .throws => f''.fatal .utf8Invalid
          | .disposes => f''.dispose
          | .returns =>
            if options.maxFrameBytes < rest.length then f''.fatal .frameTooLarge
            else drain options f''
termination_by f.buffered.length
decreasing_by exact length_of_cutLine h

/-- A chunk arrives. -/
def onData (options : FramerOptions) (f : Framer) (chunk : Bytes) : Framer :=
  if f.active = false then f
  else if options.maxFrameBytes < f.buffered.length + chunk.length ∧ lineFeed ∉ chunk then
    f.fatal .frameTooLarge
  else drain options { f with buffered := f.buffered ++ chunk }

/-- The stream fails. -/
def onError (f : Framer) : Framer := f.fatal .streamError

/-- The stream ends or closes. -/
def onEnd (f : Framer) : Framer :=
  if f.active = false ∨ f.ended = true then f
  else if f.buffered ≠ [] then { f with ended := true }.fatal .truncatedFrame
  else { f with ended := true, active := false, verdict := some .ended }

end Framer

/-- The frames delivered, and the last thing reported. -/
abbrev Framed := List JsString × Option FramerVerdict

/-- What a framer reports for a stream that arrives in chunks and then ends. -/
def framed (options : FramerOptions) (chunks : List Bytes) : Framed :=
  let f := (chunks.foldl (Framer.onData options) {}).onEnd
  (f.frames, f.verdict)

/-! ## The meaning of a whole stream -/

/-- The complete lines of a stream and the bytes behind the last LF. -/
def splitLines : Bytes → List Bytes × Bytes
  | [] => ([], [])
  | b :: rest =>
    if b = lineFeed then ([] :: (splitLines rest).1, (splitLines rest).2)
    else
      match splitLines rest with
      | ([], tail) => ([], b :: tail)
      | (line :: lines, tail) => ((b :: line) :: lines, tail)

/-- The text of a line, or why it is rejected. -/
def readLine (options : FramerOptions) (line : Bytes) : Except FrameError JsString :=
  let frame := stripReturn line
  if frame = [] then .error .emptyFrame
  else if options.maxFrameBytes < frame.length then .error .frameTooLarge
  else
    match Utf8.decodeText frame with
    | none => .error .utf8Invalid
    | some text => .ok text

/-- The bytes behind the last LF: there may be none, and an over-long line is
rejected before it is complete. -/
def judgeTail (options : FramerOptions) (tail : Bytes) : FramerVerdict :=
  if tail = [] then .ended
  else if options.maxFrameBytes < tail.length then .fatal .frameTooLarge
  else .fatal .truncatedFrame

/-- Lines are delivered in order until one is rejected or the consumer has had
enough. -/
def judgeLines (options : FramerOptions) (tail : Bytes) : List JsString → List Bytes → Framed
  | frames, [] => (frames, some (judgeTail options tail))
  | frames, line :: lines =>
    match readLine options line with
    | .error error => (frames, some (.fatal error))
    | .ok text =>
      match options.onFrame (frames ++ [text]) with
      | .throws => (frames ++ [text], some (.fatal .utf8Invalid))
      | .disposes => (frames ++ [text], none)
      | .returns => judgeLines options tail (frames ++ [text]) lines

/-- What a stream as a whole means, after some frames. -/
def meaningAfter (options : FramerOptions) (frames : List JsString) (stream : Bytes) : Framed :=
  judgeLines options (splitLines stream).2 frames (splitLines stream).1

/-- What a stream as a whole means. -/
def meaning (options : FramerOptions) (stream : Bytes) : Framed := meaningAfter options [] stream

/-! ## Paced chunks -/

/-- Complete lines that are all delivered, between two lists of frames. -/
inductive Passed (options : FramerOptions) : List JsString → Bytes → Prop where
  | nil (frames : List JsString) : Passed options frames []
  | line {frames : List JsString} {line rest : Bytes} (text : JsString)
      (hfree : lineFeed ∉ line) (hread : readLine options line = .ok text)
      (hreturns : options.onFrame (frames ++ [text]) = .returns)
      (hrest : Passed options (frames ++ [text]) rest) :
      Passed options frames (line ++ lineFeed :: rest)

attribute [grind =] cutLine Framer.drain splitLines judgeLines

/-- The first line of a stream is longer than a frame may be, if it is complete. -/
def OverlongFirst (options : FramerOptions) (stream : Bytes) : Prop :=
  ∀ line rest, cutLine stream = some (line, rest) →
    options.maxFrameBytes < (stripReturn line).length

/-- No chunk leaves more than `maxFrameBytes` bytes behind a line end, unless
they begin an over-long line: `sent` are lines already delivered, and what
follows them is looked at when their last LF is in this chunk or when no LF
follows. -/
def Paced (options : FramerOptions) (chunks : List Bytes) : Prop :=
  ∀ before chunk after sent pending, chunks = before ++ chunk :: after →
    before.flatten ++ chunk = sent ++ pending → Passed options [] sent →
    options.maxFrameBytes < pending.length →
    (lineFeed ∉ pending ∨ pending.length < chunk.length) →
    OverlongFirst options (pending ++ after.flatten)

/-! ## Lines -/

theorem cutLine_eq_none : cutLine bytes = none ↔ lineFeed ∉ bytes := by
  induction bytes with
  | nil => simp [cutLine]
  | cons b rest ih =>
    by_cases hb : b = lineFeed
    · simp [cutLine, hb]
    · simp [cutLine, hb, ih, Ne.symm hb]

theorem cutLine_line (rest : Bytes) (h : lineFeed ∉ line) :
    cutLine (line ++ lineFeed :: rest) = some (line, rest) := by
  induction line with
  | nil => simp [cutLine]
  | cons b line ih =>
    have hb : b ≠ lineFeed := fun heq => h (by simp [heq])
    have hline : lineFeed ∉ line := fun hmem => h (by simp [hmem])
    simp [cutLine, hb, ih hline]

theorem eq_of_cutLine (h : cutLine bytes = some (line, rest)) :
    lineFeed ∉ line ∧ bytes = line ++ lineFeed :: rest := by
  induction bytes generalizing line with
  | nil => cases h
  | cons b more ih =>
    unfold cutLine at h
    split at h
    · rename_i hb
      cases h
      simp [hb]
    · rename_i hb
      obtain ⟨cut, hcut, heq⟩ := Option.map_eq_some_iff.1 h
      rw [Prod.mk.injEq] at heq
      have hcut' : cutLine more = some (cut.1, rest) := by rw [hcut, ← heq.2]
      obtain ⟨hfree, hmore⟩ := ih hcut'
      rw [← heq.1]
      exact ⟨by simp [hfree, Ne.symm hb], by rw [hmore]; rfl⟩

/-- A stream begins with one line only. -/
theorem line_unique {line' rest' : Bytes} (h : lineFeed ∉ line) (h' : lineFeed ∉ line')
    (heq : line ++ lineFeed :: rest = line' ++ lineFeed :: rest') :
    line = line' ∧ rest = rest' := by
  have hcut := cutLine_line rest h
  rw [heq, cutLine_line rest' h', Option.some.injEq, Prod.mk.injEq] at hcut
  exact ⟨hcut.1.symm, hcut.2.symm⟩

theorem splitLines_free (h : lineFeed ∉ bytes) : splitLines bytes = ([], bytes) := by
  induction bytes with
  | nil => rfl
  | cons b rest ih =>
    have hb : b ≠ lineFeed := fun heq => h (by simp [heq])
    simp [splitLines, hb, ih fun hmem => h (by simp [hmem])]

theorem splitLines_line (rest : Bytes) (h : lineFeed ∉ line) :
    splitLines (line ++ lineFeed :: rest) =
      (line :: (splitLines rest).1, (splitLines rest).2) := by
  induction line with
  | nil => simp [splitLines]
  | cons b line ih =>
    have hb : b ≠ lineFeed := fun heq => h (by simp [heq])
    simp [splitLines, hb, ih fun hmem => h (by simp [hmem])]

variable {options : FramerOptions} {frames : List JsString}

/-- A line that is no frame ends the stream with a fatal error. -/
theorem meaningAfter_error {error : FrameError} (h : lineFeed ∉ line)
    (hread : readLine options line = .error error) :
    meaningAfter options frames (line ++ lineFeed :: rest) = (frames, some (.fatal error)) := by
  simp [meaningAfter, splitLines_line rest h, judgeLines, hread]

/-- A line that is a frame is delivered; the rest follows if the consumer
returns. -/
theorem meaningAfter_ok {text : JsString} (h : lineFeed ∉ line)
    (hread : readLine options line = .ok text) :
    meaningAfter options frames (line ++ lineFeed :: rest) =
      match options.onFrame (frames ++ [text]) with
      | .throws => (frames ++ [text], some (.fatal .utf8Invalid))
      | .disposes => (frames ++ [text], none)
      | .returns => meaningAfter options (frames ++ [text]) rest := by
  rw [meaningAfter, splitLines_line rest h, judgeLines, hread]
  rfl

theorem meaningAfter_free {tail : Bytes} (h : lineFeed ∉ tail) :
    meaningAfter options frames tail = (frames, some (judgeTail options tail)) := by
  simp [meaningAfter, splitLines_free h, judgeLines]

variable (options) in
theorem length_judgeLines (tail : Bytes) (lines : List Bytes) (frames : List JsString) :
    frames.length ≤ (judgeLines options tail frames lines).1.length := by
  induction lines generalizing frames with
  | nil => simp [judgeLines]
  | cons line lines ih =>
    unfold judgeLines
    split
    · exact Nat.le_refl _
    · rename_i text _
      split
      · simp
      · simp
      · have := ih (frames ++ [text])
        simp only [List.length_append, List.length_singleton] at this
        omega

/-- More bytes than a frame may have are rejected at once exactly when they
begin an over-long line. -/
theorem meaningAfter_eq_frameTooLarge {stream : Bytes}
    (hlong : options.maxFrameBytes < stream.length) :
    meaningAfter options frames stream = (frames, some (.fatal .frameTooLarge)) ↔
      OverlongFirst options stream := by
  cases hcut : cutLine stream with
  | none =>
    have hne : stream ≠ [] := by
      intro heq
      simp [heq] at hlong
    rw [meaningAfter_free (cutLine_eq_none.1 hcut), judgeTail, if_neg hne, if_pos hlong]
    refine iff_of_true rfl fun line rest hsome => ?_
    rw [hcut] at hsome
    cases hsome
  | some cut =>
    obtain ⟨line, rest⟩ := cut
    obtain ⟨hfree, rfl⟩ := eq_of_cutLine hcut
    have hoverlong : OverlongFirst options (line ++ lineFeed :: rest) ↔
        options.maxFrameBytes < (stripReturn line).length := by
      refine ⟨fun h => h line rest hcut, fun h line' rest' hcut' => ?_⟩
      rw [hcut, Option.some.injEq, Prod.mk.injEq] at hcut'
      rw [← hcut'.1]
      exact h
    rw [hoverlong]
    by_cases hempty : stripReturn line = []
    · have hread : readLine options line = .error .emptyFrame := by simp [readLine, hempty]
      rw [meaningAfter_error hfree hread]
      simp [hempty]
    · by_cases hlarge : options.maxFrameBytes < (stripReturn line).length
      · have hread : readLine options line = .error .frameTooLarge := by
          simp [readLine, hempty, hlarge]
        rw [meaningAfter_error hfree hread]
        simp [hlarge]
      · cases hread : readLine options line with
        | error error =>
          rw [meaningAfter_error hfree hread]
          have hother : error = .utf8Invalid := by
            simp only [readLine, hempty, hlarge, if_false] at hread
            split at hread
            · cases hread
              rfl
            · cases hread
          simp [hother, hlarge]
        | ok text =>
          refine iff_of_false (fun heq => ?_) hlarge
          have hlength := congrArg (fun framed => framed.1.length) heq
          rw [meaningAfter_ok hfree hread] at hlength
          cases hreaction : options.onFrame (frames ++ [text]) with
          | throws | disposes => simp [hreaction] at hlength
          | returns =>
            have hle := length_judgeLines options (splitLines rest).2
              (splitLines rest).1 (frames ++ [text])
            simp only [hreaction] at hlength
            rw [meaningAfter] at hlength
            simp only [List.length_append, List.length_singleton] at hle
            omega

/-! ## Pacing, line by line -/

/-- Complete lines begin with a line that is delivered. -/
theorem Passed.cut {pending : Bytes} (h : Passed options frames sent) (hne : sent ≠ [])
    (hfree : lineFeed ∉ line) (heq : sent ++ pending = line ++ lineFeed :: rest) :
    ∃ text more, readLine options line = .ok text ∧
      options.onFrame (frames ++ [text]) = .returns ∧ sent = line ++ lineFeed :: more ∧
      Passed options (frames ++ [text]) more ∧ rest = more ++ pending := by
  cases h with
  | nil => exact absurd rfl hne
  | line text hfree' hread hreturns hrest =>
    rename_i line' more
    rw [List.append_assoc, List.cons_append] at heq
    obtain ⟨rfl, rfl⟩ := line_unique hfree' hfree heq
    exact ⟨text, more, hread, hreturns, rfl, hrest, rfl⟩

theorem Passed.lineFeed_mem (h : Passed options frames sent) (hne : sent ≠ []) :
    lineFeed ∈ sent := by
  cases h with
  | nil => exact absurd rfl hne
  | line => simp

/-- A stream that begins with a delivered line does not begin with an over-long
one. -/
theorem Passed.not_overlong (h : Passed options frames sent) (hne : sent ≠ []) :
    ¬OverlongFirst options (sent ++ rest) := by
  intro hoverlong
  cases h with
  | nil => exact hne rfl
  | line text hfree hread hreturns hrest =>
    rename_i line more
    have hlarge := hoverlong line (more ++ rest) (by
      rw [List.append_assoc, List.cons_append, cutLine_line _ hfree])
    simp only [readLine, if_pos hlarge] at hread
    split at hread
    · cases hread
    · cases hread

variable (options frames) in
/-- The part of pacing about the rest of the current chunk. -/
def PacedHere (buffer future : Bytes) : Prop :=
  ∀ sent pending, buffer = sent ++ pending → sent ≠ [] → Passed options frames sent →
    options.maxFrameBytes < pending.length → OverlongFirst options (pending ++ future)

variable (options frames) in
/-- The part of pacing about the chunks that follow a buffer. -/
def PacedFrom (buffer : Bytes) (chunks : List Bytes) : Prop :=
  ∀ before chunk after sent pending, chunks = before ++ chunk :: after →
    buffer ++ before.flatten ++ chunk = sent ++ pending → Passed options frames sent →
    options.maxFrameBytes < pending.length →
    (lineFeed ∉ pending ∨ pending.length < chunk.length) →
    OverlongFirst options (pending ++ after.flatten)

theorem paced_iff (chunks : List Bytes) :
    Paced options chunks ↔ PacedFrom options [] [] chunks := by
  simp [Paced, PacedFrom]

/-- Nothing is asked of a stream that begins with an over-long line. -/
theorem paced_of_overlong (h : OverlongFirst options (buffer ++ chunks.flatten)) :
    PacedHere options frames buffer chunks.flatten ∧ PacedFrom options frames buffer chunks := by
  constructor
  · intro sent pending heq hne hpassed _
    rw [heq, List.append_assoc] at h
    exact absurd h (hpassed.not_overlong hne)
  · intro before chunk after sent pending hchunks heq hpassed _ _
    have hstream : buffer ++ chunks.flatten = sent ++ (pending ++ after.flatten) := by
      rw [← List.append_assoc, ← heq, hchunks]
      simp
    rw [hstream] at h
    by_cases hne : sent = []
    · simpa [hne] using h
    · exact absurd h (hpassed.not_overlong hne)

/-- A buffer that begins with a line which stops the stream asks for nothing. -/
theorem paced_of_stopped (hfree : lineFeed ∉ line)
    (hstop : ∀ text, readLine options line = .ok text →
      options.onFrame (frames ++ [text]) ≠ .returns) :
    PacedHere options frames (line ++ lineFeed :: rest) chunks.flatten ∧
      PacedFrom options frames (line ++ lineFeed :: rest) chunks := by
  constructor
  · intro sent pending heq hne hpassed _
    obtain ⟨text, more, hread, hreturns, -⟩ := hpassed.cut hne hfree heq.symm
    exact absurd hreturns (hstop text hread)
  · intro before chunk after sent pending _ heq hpassed _ hlooked
    have hstream : sent ++ pending = line ++ lineFeed :: (rest ++ (before.flatten ++ chunk)) := by
      rw [← heq]
      simp
    by_cases hne : sent = []
    · rw [hne, List.nil_append] at hstream
      refine absurd hlooked ?_
      rw [hstream]
      simp
      omega
    · obtain ⟨text, more, hread, hreturns, -⟩ := hpassed.cut hne hfree hstream
      exact absurd hreturns (hstop text hread)

/-- Pacing of a buffer that begins with a delivered line. -/
theorem paced_line {text : JsString} (hfree : lineFeed ∉ line)
    (hread : readLine options line = .ok text)
    (hreturns : options.onFrame (frames ++ [text]) = .returns) :
    (PacedHere options frames (line ++ lineFeed :: rest) chunks.flatten ∧
        PacedFrom options frames (line ++ lineFeed :: rest) chunks) ↔
      (options.maxFrameBytes < rest.length → OverlongFirst options (rest ++ chunks.flatten)) ∧
        PacedHere options (frames ++ [text]) rest chunks.flatten ∧
        PacedFrom options (frames ++ [text]) rest chunks := by
  have hpass : ∀ more, Passed options (frames ++ [text]) more →
      Passed options frames (line ++ lineFeed :: more) := fun more hmore =>
    .line text hfree hread hreturns hmore
  constructor
  · rintro ⟨hhere, hfrom⟩
    refine ⟨fun hlong => ?_, ?_, ?_⟩
    · exact hhere (line ++ [lineFeed]) rest (by simp) (by simp) (hpass [] (.nil _)) hlong
    · intro sent pending heq _ hpassed hlong
      exact hhere (line ++ lineFeed :: sent) pending (by simp [heq]) (by simp) (hpass sent hpassed)
        hlong
    · intro before chunk after sent pending hchunks heq hpassed hlong hlooked
      refine hfrom before chunk after (line ++ lineFeed :: sent) pending hchunks ?_
        (hpass sent hpassed) hlong hlooked
      have hassoc : line ++ lineFeed :: sent ++ pending = line ++ lineFeed :: (sent ++ pending) := by
        simp
      rw [hassoc, ← heq]
      simp
  · rintro ⟨hrest, hhere, hfrom⟩
    constructor
    · intro sent pending heq hne hpassed hlong
      obtain ⟨text', more, hread', -, -, hmore, hrest'⟩ := hpassed.cut hne hfree heq.symm
      have htext : text' = text := by
        rw [hread, Except.ok.injEq] at hread'
        exact hread'.symm
      rw [htext] at hmore
      by_cases hnil : more = []
      · rw [hnil, List.nil_append] at hrest'
        rw [hrest'] at hrest
        exact hrest hlong
      · exact hhere more pending hrest' hnil hmore hlong
    · intro before chunk after sent pending hchunks heq hpassed hlong hlooked
      have hstream : sent ++ pending = line ++ lineFeed :: (rest ++ before.flatten ++ chunk) := by
        rw [← heq]
        simp
      by_cases hne : sent = []
      · rw [hne, List.nil_append] at hstream
        refine absurd hlooked ?_
        rw [hstream]
        simp
        omega
      · obtain ⟨text', more, hread', -, -, hmore, hrest'⟩ := hpassed.cut hne hfree hstream
        have htext : text' = text := by
          rw [hread, Except.ok.injEq] at hread'
          exact hread'.symm
        rw [htext] at hmore
        exact hfrom before chunk after more pending hchunks hrest' hmore hlong hlooked

/-- Pacing about the next chunk, and about those behind it. -/
theorem pacedFrom_cons {chunk : Bytes} :
    PacedFrom options frames buffer (chunk :: chunks) ↔
      (∀ sent pending, buffer ++ chunk = sent ++ pending → Passed options frames sent →
        options.maxFrameBytes < pending.length →
        (lineFeed ∉ pending ∨ pending.length < chunk.length) →
        OverlongFirst options (pending ++ chunks.flatten)) ∧
      PacedFrom options frames (buffer ++ chunk) chunks := by
  constructor
  · intro h
    refine ⟨fun sent pending heq => h [] chunk chunks sent pending rfl (by simpa using heq), ?_⟩
    intro before chunk' after sent pending hchunks heq
    refine h (chunk :: before) chunk' after sent pending (by rw [hchunks]; rfl) ?_
    rw [← heq]
    simp
  · rintro ⟨hhere, hfrom⟩ before chunk' after sent pending hchunks heq
    cases before with
    | nil =>
      rw [List.nil_append, List.cons.injEq] at hchunks
      obtain ⟨rfl, rfl⟩ := hchunks
      exact hhere sent pending (by simpa using heq)
    | cons first before =>
      rw [List.cons_append, List.cons.injEq] at hchunks
      obtain ⟨rfl, hchunks⟩ := hchunks
      refine hfrom before chunk' after sent pending hchunks ?_
      rw [← heq]
      simp

/-- Pacing when the next chunk completes no line. -/
theorem pacedFrom_cons_free {chunk : Bytes} (hbuffer : lineFeed ∉ buffer)
    (hchunk : lineFeed ∉ chunk) :
    PacedFrom options frames buffer (chunk :: chunks) ↔
      (options.maxFrameBytes < (buffer ++ chunk).length →
        OverlongFirst options (buffer ++ chunk ++ chunks.flatten)) ∧
      PacedFrom options frames (buffer ++ chunk) chunks := by
  have hfree : lineFeed ∉ buffer ++ chunk := by simp [hbuffer, hchunk]
  rw [pacedFrom_cons]
  refine and_congr_left fun _ => ⟨fun h hlong => ?_, fun h sent pending heq hpassed hlong _ => ?_⟩
  · exact h [] (buffer ++ chunk) rfl (.nil _) hlong (Or.inl hfree)
  · have hsent : sent = [] := by
      by_contra hne
      exact hfree (heq ▸ List.mem_append_left _ (hpassed.lineFeed_mem hne))
    rw [hsent, List.nil_append] at heq
    rw [← heq] at hlong ⊢
    exact h hlong

/-- Pacing when the next chunk completes a line. -/
theorem pacedFrom_cons_line {chunk : Bytes} (hbuffer : lineFeed ∉ buffer)
    (hchunk : lineFeed ∈ chunk) :
    PacedFrom options frames buffer (chunk :: chunks) ↔
      PacedHere options frames (buffer ++ chunk) chunks.flatten ∧
        PacedFrom options frames (buffer ++ chunk) chunks := by
  rw [pacedFrom_cons]
  refine and_congr_left fun _ => ⟨fun h sent pending heq hne hpassed hlong => ?_,
    fun h sent pending heq hpassed hlong hlooked => ?_⟩
  · refine h sent pending heq hpassed hlong (Or.inr ?_)
    -- the last line end of `sent` lies behind the buffer, which has none
    by_contra hle
    have hinit : sent <+: buffer := by
      have hwhole : sent <+: buffer ++ chunk := ⟨pending, heq.symm⟩
      refine List.prefix_of_prefix_length_le hwhole (List.prefix_append _ _) ?_
      have hlength := congrArg List.length heq
      simp only [List.length_append] at hlength
      omega
    exact hbuffer (hinit.subset (hpassed.lineFeed_mem hne))
  · by_cases hne : sent = []
    · rw [hne, List.nil_append] at heq
      refine absurd hlooked ?_
      rw [← heq]
      simp [hchunk]
    · exact h sent pending heq hne hpassed hlong

/-! ## Chunks and the whole stream -/

/-- A framer between two chunks. -/
def Framer.at (frames : List JsString) (buffered : Bytes) : Framer := { buffered, frames }

/-- What a framer reports for the chunks still to come. -/
def Framer.report (options : FramerOptions) (f : Framer) (chunks : List Bytes) : Framed :=
  ((chunks.foldl (Framer.onData options) f).onEnd.frames,
    (chunks.foldl (Framer.onData options) f).onEnd.verdict)

@[simp] theorem Framer.report_cons (f : Framer) (chunk : Bytes) (chunks : List Bytes) :
    f.report options (chunk :: chunks) = (f.onData options chunk).report options chunks := rfl

/-- A framer that has stopped reports nothing more. -/
theorem Framer.report_stopped {f : Framer} (hstopped : f.active = false) (chunks : List Bytes) :
    f.report options chunks = (f.frames, f.verdict) := by
  induction chunks with
  | nil => simp [Framer.report, Framer.onEnd, hstopped]
  | cons chunk chunks ih => rw [Framer.report_cons, Framer.onData, if_pos hstopped, ih]

theorem Framer.report_fatal {f : Framer} (hactive : f.active = true) (error : FrameError)
    (chunks : List Bytes) :
    (f.fatal error).report options chunks = (f.frames, some (.fatal error)) := by
  rw [Framer.fatal, if_pos hactive]
  exact Framer.report_stopped rfl chunks

/-- One round of the loop over complete lines. -/
theorem Framer.report_drain (hfree : lineFeed ∉ line) (chunks : List Bytes) :
    ((Framer.at frames (line ++ lineFeed :: rest)).drain options).report options chunks =
      match readLine options line with
      | .error error => (frames, some (.fatal error))
      | .ok text =>
        match options.onFrame (frames ++ [text]) with
        | .throws => (frames ++ [text], some (.fatal .utf8Invalid))
        | .disposes => (frames ++ [text], none)
        | .returns =>
          if options.maxFrameBytes < rest.length then
            (frames ++ [text], some (.fatal .frameTooLarge))
          else ((Framer.at (frames ++ [text]) rest).drain options).report options chunks := by
  rw [Framer.drain]
  split
  · rename_i hcut
    rw [Framer.at, cutLine_line rest hfree] at hcut
    cases hcut
  · rename_i line' rest' hcut
    rw [Framer.at, cutLine_line rest hfree] at hcut
    cases hcut
    rw [if_neg (by simp [Framer.at])]
    by_cases hempty : stripReturn line = []
    · rw [if_pos hempty, Framer.report_fatal rfl]
      simp [readLine, hempty, Framer.at]
    · rw [if_neg hempty]
      by_cases hlarge : options.maxFrameBytes < (stripReturn line).length
      · rw [if_pos hlarge, Framer.report_fatal rfl]
        simp [readLine, hempty, hlarge, Framer.at]
      · rw [if_neg hlarge]
        cases hdecode : Utf8.decodeText (stripReturn line) with
        | none =>
          rw [Framer.report_fatal rfl]
          simp [readLine, hempty, hlarge, hdecode, Framer.at]
        | some text =>
          have hread : readLine options line = .ok text := by
            simp [readLine, hempty, hlarge, hdecode]
          simp only [hread, Framer.at]
          cases options.onFrame (frames ++ [text]) with
          | throws => exact Framer.report_fatal rfl _ _
          | disposes => exact Framer.report_stopped rfl _
          | returns =>
            by_cases hlong : options.maxFrameBytes < rest.length
            · simp only [if_pos hlong]
              exact Framer.report_fatal rfl _ _
            · simp only [if_neg hlong]

theorem Framer.drain_free {buffered : Bytes} (hfree : lineFeed ∉ buffered) :
    (Framer.at frames buffered).drain options = Framer.at frames buffered := by
  rw [Framer.drain]
  split
  · rfl
  · rename_i line rest hcut
    rw [Framer.at, cutLine_eq_none.2 hfree] at hcut
    cases hcut

/-- The loop over a buffer, when the chunks behind it are already understood. -/
theorem Framer.report_drain_iff
    (hnext : ∀ (frames : List JsString) (buffer : Bytes), lineFeed ∉ buffer →
      buffer.length ≤ options.maxFrameBytes →
      ((Framer.at frames buffer).report options chunks =
          meaningAfter options frames (buffer ++ chunks.flatten) ↔
        PacedFrom options frames buffer chunks)) (frames : List JsString) (buffer : Bytes)
    (hbuffer : lineFeed ∈ buffer ∨ buffer.length ≤ options.maxFrameBytes) :
    ((Framer.at frames buffer).drain options).report options chunks =
        meaningAfter options frames (buffer ++ chunks.flatten) ↔
      PacedHere options frames buffer chunks.flatten ∧
        PacedFrom options frames buffer chunks := by
  induction hlength : buffer.length using Nat.strongRecOn generalizing frames buffer with
  | ind n ih =>
    cases hcut : cutLine buffer with
    | none =>
      have hfree : lineFeed ∉ buffer := cutLine_eq_none.1 hcut
      rw [Framer.drain_free hfree, hnext frames buffer hfree (hbuffer.resolve_left hfree)]
      refine ⟨fun hfrom => ⟨fun sent pending heq hne hpassed _ => ?_, hfrom⟩, fun h => h.2⟩
      exact absurd (heq ▸ List.mem_append_left _ (hpassed.lineFeed_mem hne)) hfree
    | some cut =>
      obtain ⟨line, rest⟩ := cut
      obtain ⟨hfree, rfl⟩ := eq_of_cutLine hcut
      have hassoc : line ++ lineFeed :: rest ++ chunks.flatten =
          line ++ lineFeed :: (rest ++ chunks.flatten) := by simp
      rw [Framer.report_drain hfree, hassoc]
      cases hread : readLine options line with
      | error error =>
        rw [meaningAfter_error hfree hread]
        refine iff_of_true rfl (paced_of_stopped hfree fun text hok => ?_)
        rw [hread] at hok
        cases hok
      | ok text =>
        rw [meaningAfter_ok hfree hread]
        have hstop : options.onFrame (frames ++ [text]) ≠ .returns →
            PacedHere options frames (line ++ lineFeed :: rest) chunks.flatten ∧
              PacedFrom options frames (line ++ lineFeed :: rest) chunks := by
          refine fun hne => paced_of_stopped hfree fun text' hok => ?_
          rw [hread, Except.ok.injEq] at hok
          rwa [← hok]
        cases hreaction : options.onFrame (frames ++ [text]) with
        | throws | disposes =>
          simp only [hreaction, true_iff]
          exact hstop (by simp [hreaction])
        | returns =>
          simp only [hreaction]
          rw [paced_line hfree hread hreaction]
          by_cases hlong : options.maxFrameBytes < rest.length
          · have hstream : options.maxFrameBytes < (rest ++ chunks.flatten).length := by
              simp only [List.length_append]
              omega
            rw [if_pos hlong, eq_comm, meaningAfter_eq_frameTooLarge hstream]
            exact ⟨fun h => ⟨fun _ => h, paced_of_overlong h⟩, fun h => h.1 hlong⟩
          · have hshorter : rest.length < n := by
              rw [← hlength]
              exact length_of_cutLine hcut
            rw [if_neg hlong, ih rest.length hshorter (frames ++ [text]) rest
              (Or.inr (Nat.le_of_not_lt hlong)) rfl]
            exact ⟨fun h => ⟨fun h' => absurd h' hlong, h⟩, fun h => h.2⟩

/-- Chunks behind an unfinished line have the meaning of their concatenation
exactly when they are paced. -/
theorem Framer.report_eq_iff (chunks : List Bytes) (frames : List JsString) (buffer : Bytes)
    (hbuffer : lineFeed ∉ buffer) (hshort : buffer.length ≤ options.maxFrameBytes) :
    (Framer.at frames buffer).report options chunks =
        meaningAfter options frames (buffer ++ chunks.flatten) ↔
      PacedFrom options frames buffer chunks := by
  induction chunks generalizing frames buffer with
  | nil =>
    have hpaced : PacedFrom options frames buffer [] := by
      intro before chunk after sent pending hchunks
      simp at hchunks
    refine iff_of_true ?_ hpaced
    rw [List.flatten_nil, List.append_nil, meaningAfter_free hbuffer]
    by_cases hempty : buffer = []
    · simp [Framer.report, Framer.onEnd, Framer.at, judgeTail, hempty]
    · simp [Framer.report, Framer.onEnd, Framer.at, Framer.fatal, judgeTail, hempty,
        Nat.not_lt.2 hshort]
  | cons chunk chunks ih =>
    have hflat : buffer ++ (chunk :: chunks).flatten = buffer ++ chunk ++ chunks.flatten := by
      simp
    rw [Framer.report_cons, hflat]
    by_cases hchunk : lineFeed ∈ chunk
    · have hdata : (Framer.at frames buffer).onData options chunk =
          (Framer.at frames (buffer ++ chunk)).drain options := by
        simp [Framer.onData, Framer.at, hchunk]
      rw [hdata, pacedFrom_cons_line hbuffer hchunk]
      exact Framer.report_drain_iff (fun frames buffer => ih frames buffer) frames
        (buffer ++ chunk) (Or.inl (List.mem_append_right _ hchunk))
    · have hfree : lineFeed ∉ buffer ++ chunk := by simp [hbuffer, hchunk]
      rw [pacedFrom_cons_free hbuffer hchunk]
      by_cases hlong : options.maxFrameBytes < (buffer ++ chunk).length
      · have hdata : (Framer.at frames buffer).onData options chunk =
            (Framer.at frames buffer).fatal .frameTooLarge := by
          rw [List.length_append] at hlong
          simp [Framer.onData, Framer.at, hchunk, hlong]
        have hstream : options.maxFrameBytes < (buffer ++ chunk ++ chunks.flatten).length := by
          rw [List.length_append]
          omega
        rw [hdata, Framer.report_fatal rfl]
        refine (eq_comm.trans (meaningAfter_eq_frameTooLarge hstream)).trans ?_
        exact ⟨fun h => ⟨fun _ => h, (paced_of_overlong h).2⟩, fun h => h.1 hlong⟩
      · have hdata : (Framer.at frames buffer).onData options chunk =
            Framer.at frames (buffer ++ chunk) := by
          have hfits : ¬options.maxFrameBytes < buffer.length + chunk.length := by
            rwa [List.length_append] at hlong
          have hdrain : (Framer.at frames (buffer ++ chunk)).drain options =
              Framer.at frames (buffer ++ chunk) := Framer.drain_free hfree
          rw [← hdrain]
          simp [Framer.onData, Framer.at, hfits]
        rw [hdata, ih frames (buffer ++ chunk) hfree (Nat.le_of_not_lt hlong)]
        exact ⟨fun h => ⟨fun h' => absurd h' hlong, h⟩, fun h => h.2⟩

/-- A stream delivered in chunks has its meaning as a whole exactly when the
chunks are paced. -/
theorem framed_eq_iff (options : FramerOptions) (chunks : List Bytes) :
    framed options chunks = meaning options chunks.flatten ↔ Paced options chunks := by
  rw [paced_iff]
  exact Framer.report_eq_iff chunks [] [] (by simp) (Nat.zero_le _)

end AgentSdk.Acp
