import AgentSdk.Lib.Framed

/-!
# Docker multiplex frames

The engine sends standard output and standard error of a process through one stream
of frames.  `DockerFrameDecoder` reads the stream chunk by chunk and hands every
piece of a payload on as soon as it has it.

A chunk is read up to its next delivery (`scan`), because the receiver runs between
two deliveries; `accept` is the whole loop over a chunk.

## Main results

* `scan_spec` — one delivery, and what the stream says of it.
* `docker_frames` — any chunking delivers the tagged bytes of the stream.
-/

namespace AgentSdk.Docker

open AgentSdk.Framed

def DOCKER_FRAME_LIMIT : Nat := 1024 * 1024

inductive FramingError
  | invalidHeader
  | oversizedFrame
  | insideFrame
  deriving DecidableEq

/-- `readUInt32BE`, where a missing byte reads as zero. -/
def readUInt32BE (bytes : List UInt8) (offset : Nat) : Nat :=
  ((bytes.drop offset).take 4).foldl (fun value byte => value * 256 + byte.toNat) 0

/-- The channel and the length that a complete header declares. -/
def readHeader (header : List UInt8) : Except FramingError (UInt8 × Nat) :=
  if (header.getD 0 0 ≠ 1 ∧ header.getD 0 0 ≠ 2) ∨ header.getD 1 0 ≠ 0 ∨ header.getD 2 0 ≠ 0 ∨
      header.getD 3 0 ≠ 0 then .error .invalidHeader
  else if DOCKER_FRAME_LIMIT < readUInt32BE header 4 then .error .oversizedFrame
  else .ok (header.getD 0 0, readUInt32BE header 4)

/-- The stream of the engine. -/
def dockerFormat : Format UInt8 FramingError where
  width := 8
  width_pos := by decide
  parse := readHeader

/-! ## The decoder -/

/-- A decoder; `header` holds the first bytes of a header. -/
structure DockerFrameDecoder where
  header : List UInt8 := []
  remaining : Nat := 0
  channel : UInt8 := 1
  deriving DecidableEq

/-- How the reading of a chunk goes on. -/
inductive Scan
  | done (decoder : DockerFrameDecoder)
  | deliver (decoder : DockerFrameDecoder) (channel : UInt8) (piece rest : List UInt8)
  | failed (error : FramingError)
  deriving DecidableEq

namespace DockerFrameDecoder

/-- The piece of the payload that a chunk has, and the decoder after its delivery. -/
def piece (decoder : DockerFrameDecoder) (bytes : List UInt8) : Scan :=
  if min decoder.remaining bytes.length = 0 then .done decoder
  else
    .deliver
      { decoder with remaining := decoder.remaining - min decoder.remaining bytes.length }
      decoder.channel (bytes.take (min decoder.remaining bytes.length))
      (bytes.drop (min decoder.remaining bytes.length))

/-- How many bytes of a chunk the header takes. -/
def copied (decoder : DockerFrameDecoder) (bytes : List UInt8) : Nat :=
  min (8 - decoder.header.length) bytes.length

/-- A complete header; `further` is the next turn of the loop. -/
def opened (further : DockerFrameDecoder → List UInt8 → Scan) (header bytes : List UInt8) : Scan :=
  match readHeader header with
  | .error error => .failed error
  | .ok (channel, remaining) =>
    if remaining = 0 then further { header := [], remaining, channel } bytes
    else piece { header := [], remaining, channel } bytes

/-- The loop of `accept` up to the next delivery.  Every turn takes a byte, so `fuel` is
the number of bytes. -/
def scanLoop : Nat → DockerFrameDecoder → List UInt8 → Scan
  | 0, decoder, _ => .done decoder
  | fuel + 1, decoder, bytes =>
    if bytes = [] then .done decoder
    else if decoder.remaining = 0 then
      if (decoder.header ++ bytes.take (decoder.copied bytes)).length ≠ 8 then
        scanLoop fuel
          { decoder with header := decoder.header ++ bytes.take (decoder.copied bytes) }
          (bytes.drop (decoder.copied bytes))
      else
        opened (scanLoop fuel) (decoder.header ++ bytes.take (decoder.copied bytes))
          (bytes.drop (decoder.copied bytes))
    else piece decoder bytes

def scan (decoder : DockerFrameDecoder) (bytes : List UInt8) : Scan :=
  scanLoop bytes.length decoder bytes

/-- A chunk: what was delivered, and the decoder after it or the error it ended with. -/
def acceptLoop : Nat → DockerFrameDecoder → List UInt8 →
    List (UInt8 × List UInt8) × Except FramingError DockerFrameDecoder
  | 0, decoder, _ => ([], .ok decoder)
  | fuel + 1, decoder, bytes =>
    match decoder.scan bytes with
    | .done decoder => ([], .ok decoder)
    | .failed error => ([], .error error)
    | .deliver decoder channel piece rest =>
      ((channel, piece) :: (acceptLoop fuel decoder rest).1, (acceptLoop fuel decoder rest).2)

/-- `accept` -/
def accept (decoder : DockerFrameDecoder) (bytes : List UInt8) :
    List (UInt8 × List UInt8) × Except FramingError DockerFrameDecoder :=
  acceptLoop (bytes.length + 1) decoder bytes

def finish (decoder : DockerFrameDecoder) : Except FramingError Unit :=
  if decoder.header.length ≠ 0 ∨ decoder.remaining ≠ 0 then .error .insideFrame else .ok ()

end DockerFrameDecoder

/-- The bytes of the pieces, each with its channel. -/
def taggedBytes (pieces : List (UInt8 × List UInt8)) : List (UInt8 × UInt8) :=
  pieces.flatMap fun piece => piece.2.map (piece.1, ·)

/-! ## The decoder and the stream -/

/-- A decoder that is at a position of the stream. -/
def At (decoder : DockerFrameDecoder) : Progress UInt8 FramingError → Prop
  | .header seen => decoder.header = seen ∧ decoder.remaining = 0 ∧ seen.length < 8
  | .body tag length seen => decoder.header = [] ∧ decoder.channel = tag ∧
      decoder.remaining = length - seen.length ∧ seen.length < length
  | .failed _ => False

theorem at_start : At {} (.header [] : Progress UInt8 FramingError) :=
  ⟨rfl, rfl, by decide⟩

/-- `bytes` were read: the stream went from one position to another and put out the
tagged bytes `out`. -/
structure Read (before : Progress UInt8 FramingError) (bytes : List UInt8)
    (after : Progress UInt8 FramingError) (out : List (UInt8 × UInt8)) : Prop where
  progress : progress dockerFormat before bytes = after
  bodyBytes : bodyBytes dockerFormat before bytes = out

theorem Read.nil (position : Progress UInt8 FramingError) : Read position [] position [] :=
  ⟨rfl, rfl⟩

theorem Read.append {p q r : Progress UInt8 FramingError} {s t : List UInt8}
    {out out' : List (UInt8 × UInt8)} (h : Read p s q out) (h' : Read q t r out') :
    Read p (s ++ t) r (out ++ out') := by
  constructor
  · rw [progress_append, h.progress, h'.progress]
  · rw [← h.bodyBytes, ← h'.bodyBytes, ← h.progress]
    exact outputs_append s t

theorem Read.failed {p : Progress UInt8 FramingError} {s : List UInt8} {error : FramingError}
    {out : List (UInt8 × UInt8)} (h : Read p s (.failed error) out) (t : List UInt8) :
    Read p (s ++ t) (.failed error) out := by
  have hrest : Read (.failed error) t (.failed error) [] :=
    ⟨progress_failed error t, bodyBytes_failed error t⟩
  simpa using h.append hrest

/-- What a scan tells about the stream. -/
inductive Scanned (before : Progress UInt8 FramingError) (bytes : List UInt8) : Scan → Prop
  | done {decoder after} : Read before bytes after [] → At decoder after →
      Scanned before bytes (.done decoder)
  | deliver {decoder after channel piece rest} (read : List UInt8) : bytes = read ++ rest →
      piece ≠ [] → Read before read after (piece.map (channel, ·)) → At decoder after →
      Scanned before bytes (.deliver decoder channel piece rest)
  | failed {error} : Read before bytes (.failed error) [] → Scanned before bytes (.failed error)

namespace DockerFrameDecoder

variable {decoder : DockerFrameDecoder} {position : Progress UInt8 FramingError}

/-- The body of a frame goes on. -/
theorem piece_spec {tag : UInt8} {length : Nat} {seen bytes : List UInt8}
    (h : At decoder (.body tag length seen)) :
    Scanned (.body tag length seen) bytes (decoder.piece bytes) := by
  obtain ⟨hheader, hchannel, hremaining, hshort⟩ := h
  unfold piece
  split
  next hnone =>
    have hnil : bytes = [] := by
      have hzero : bytes.length = 0 := by omega
      exact List.eq_nil_of_length_eq_zero hzero
    subst hnil
    exact .done (.nil _) ⟨hheader, hchannel, hremaining, hshort⟩
  next hsome =>
    have hsplit : bytes = bytes.take (min decoder.remaining bytes.length) ++
        bytes.drop (min decoder.remaining bytes.length) := (List.take_append_drop _ bytes).symm
    have htake : (bytes.take (min decoder.remaining bytes.length)).length =
        min decoder.remaining bytes.length := by
      rw [List.length_take]
      omega
    have hne : bytes.take (min decoder.remaining bytes.length) ≠ [] := by
      intro hnil
      rw [hnil, List.length_nil] at htake
      omega
    by_cases hfull : (seen ++ bytes.take (min decoder.remaining bytes.length)).length = length
    · obtain ⟨hprogress, _, hbytes⟩ := body_full dockerFormat tag length seen _ hne hfull
      refine .deliver _ hsplit hne ⟨hprogress, ?_⟩ ⟨hheader, ?_, by decide⟩
      · rw [hbytes, hchannel]
      · change decoder.remaining - min decoder.remaining bytes.length = 0
        simp only [List.length_append, htake] at hfull
        omega
    · have hlt : (seen ++ bytes.take (min decoder.remaining bytes.length)).length < length := by
        simp only [List.length_append, htake] at hfull ⊢
        omega
      obtain ⟨hprogress, _, hbytes⟩ := body_short dockerFormat tag length seen _ hlt
      refine .deliver _ hsplit hne ⟨hprogress, ?_⟩ ⟨hheader, hchannel, ?_, hlt⟩
      · rw [hbytes, hchannel]
      · change decoder.remaining - min decoder.remaining bytes.length = length - _
        rw [List.length_append, htake]
        omega

/-- What was read before a scan belongs to it. -/
theorem Scanned.behind {read rest : List UInt8} {between : Progress UInt8 FramingError}
    {result : Scan} (hread : Read position read between []) (h : Scanned between rest result) :
    Scanned position (read ++ rest) result := by
  cases h with
  | done hrest hat =>
    have hall := hread.append hrest
    exact .done hall hat
  | deliver more hsplit hne hrest hat =>
    have hall := hread.append hrest
    refine .deliver (read ++ more) ?_ hne hall hat
    rw [hsplit, List.append_assoc]
  | failed hrest =>
    have hall := hread.append hrest
    exact .failed hall

/-- A complete header, whatever it declares. -/
theorem opened_spec {further : DockerFrameDecoder → List UInt8 → Scan}
    {seen read rest : List UInt8} (hne : read ≠ []) (hfull : (seen ++ read).length = 8)
    (hfurther : ∀ next, At next (.header []) → Scanned (.header []) rest (further next rest)) :
    Scanned (.header seen) (read ++ rest) (opened further (seen ++ read) rest) := by
  have hread : Read (.header seen) read (entered dockerFormat (seen ++ read)) [] := by
    obtain ⟨hprogress, _, hbytes⟩ := header_full dockerFormat seen read hne hfull
    exact ⟨hprogress, hbytes⟩
  unfold opened
  cases hparse : readHeader (seen ++ read) with
  | error error =>
    have hentered : entered dockerFormat (seen ++ read) = .failed error := by
      simp only [entered, dockerFormat, hparse]
    rw [hentered] at hread
    exact .failed (hread.failed rest)
  | ok frame =>
    obtain ⟨channel, length⟩ := frame
    cases length with
    | zero =>
      have hentered : entered dockerFormat (seen ++ read) = .header [] := by
        simp only [entered, dockerFormat, hparse]
      rw [hentered] at hread
      exact Scanned.behind hread (hfurther ⟨[], 0, channel⟩ ⟨rfl, rfl, by decide⟩)
    | succ length =>
      have hentered : entered dockerFormat (seen ++ read) =
          .body channel (length + 1) [] := by
        simp only [entered, dockerFormat, hparse]
      rw [hentered] at hread
      have hat : At ⟨[], length + 1, channel⟩ (.body channel (length + 1) []) :=
        ⟨rfl, rfl, rfl, Nat.succ_pos length⟩
      exact Scanned.behind hread (piece_spec hat)

/-- **One delivery.**  The scan of a chunk stops where the stream has the next payload
bytes. -/
theorem scanLoop_spec {fuel : Nat} {bytes : List UInt8} (hfuel : bytes.length ≤ fuel)
    (h : At decoder position) : Scanned position bytes (scanLoop fuel decoder bytes) := by
  induction fuel generalizing decoder position bytes with
  | zero =>
    have hnil := List.eq_nil_of_length_eq_zero (Nat.le_zero.1 hfuel)
    subst hnil
    exact .done (.nil _) h
  | succ fuel ih =>
    unfold scanLoop
    by_cases hnil : bytes = []
    · subst hnil
      rw [if_pos rfl]
      exact .done (.nil _) h
    · rw [if_neg hnil]
      have hlength := List.length_pos_of_ne_nil hnil
      cases position with
      | failed error => exact h.elim
      | body tag length seen =>
        have hremaining : decoder.remaining ≠ 0 := by
          have heq := h.2.2.1
          have hshort := h.2.2.2
          omega
        rw [if_neg hremaining]
        exact piece_spec h
      | header seen =>
        obtain ⟨hheader, hremaining, hshort⟩ := h
        rw [if_pos hremaining]
        subst hheader
        have hsplit : bytes = bytes.take (decoder.copied bytes) ++
            bytes.drop (decoder.copied bytes) := (List.take_append_drop _ bytes).symm
        have htake : (bytes.take (decoder.copied bytes)).length =
            min (8 - decoder.header.length) bytes.length := by
          rw [List.length_take, copied]
          omega
        generalize bytes.take (decoder.copied bytes) = read at hsplit htake ⊢
        generalize bytes.drop (decoder.copied bytes) = rest at hsplit ⊢
        have hsizes := congrArg List.length hsplit
        rw [List.length_append] at hsizes
        have hne : read ≠ [] := by
          intro hempty
          rw [hempty, List.length_nil] at htake
          omega
        rw [hsplit]
        by_cases hfull : (decoder.header ++ read).length = 8
        · rw [if_neg (not_not.2 hfull)]
          exact opened_spec hne hfull fun next hat => ih (by omega) hat
        · rw [if_pos hfull]
          have hmore : (decoder.header ++ read).length < 8 := by
            rw [List.length_append] at hfull ⊢
            omega
          have hread : Read (.header decoder.header) read
              (.header (decoder.header ++ read)) [] := by
            obtain ⟨hprogress, _, hbytes⟩ :=
              header_short dockerFormat decoder.header read hmore
            exact ⟨hprogress, hbytes⟩
          have hat : At { decoder with header := decoder.header ++ read }
              (.header (decoder.header ++ read)) := ⟨rfl, hremaining, hmore⟩
          exact Scanned.behind hread (ih (by omega) hat)

theorem scan_spec (h : At decoder position) (bytes : List UInt8) :
    Scanned position bytes (decoder.scan bytes) := scanLoop_spec (Nat.le_refl _) h

/-! ## Chunks -/

/-- What the chunks that were read tell about the stream. -/
inductive Accepted (before : Progress UInt8 FramingError) (bytes : List UInt8) :
    List (UInt8 × List UInt8) × Except FramingError DockerFrameDecoder → Prop
  | ok {pieces decoder after} : Read before bytes after (taggedBytes pieces) → At decoder after →
      Accepted before bytes (pieces, .ok decoder)
  | error {pieces error} : Read before bytes (.failed error) (taggedBytes pieces) →
      Accepted before bytes (pieces, .error error)

/-- What was delivered before belongs to the chunks. -/
theorem Accepted.behind {read rest : List UInt8} {between : Progress UInt8 FramingError}
    {pieces : List (UInt8 × List UInt8)}
    {result : List (UInt8 × List UInt8) × Except FramingError DockerFrameDecoder}
    (hread : Read position read between (taggedBytes pieces)) (h : Accepted between rest result) :
    Accepted position (read ++ rest) (pieces ++ result.1, result.2) := by
  cases h with
  | @ok later _ _ hrest hat =>
    have hall := hread.append hrest
    have htagged : taggedBytes (pieces ++ later) = taggedBytes pieces ++ taggedBytes later :=
      List.flatMap_append
    rw [← htagged] at hall
    exact .ok hall hat
  | @error later _ hrest =>
    have hall := hread.append hrest
    have htagged : taggedBytes (pieces ++ later) = taggedBytes pieces ++ taggedBytes later :=
      List.flatMap_append
    rw [← htagged] at hall
    exact .error hall

theorem acceptLoop_spec {fuel : Nat} {bytes : List UInt8} (hfuel : bytes.length < fuel)
    (h : At decoder position) : Accepted position bytes (acceptLoop fuel decoder bytes) := by
  induction fuel generalizing decoder position bytes with
  | zero => omega
  | succ fuel ih =>
    have hscanned := scan_spec h bytes
    unfold acceptLoop
    cases hscan : decoder.scan bytes with
    | done next =>
      rw [hscan] at hscanned
      cases hscanned with
      | done hread hat => exact .ok hread hat
    | failed error =>
      rw [hscan] at hscanned
      cases hscanned with
      | failed hread => exact .error hread
    | deliver next channel piece rest =>
      rw [hscan] at hscanned
      cases hscanned with
      | @deliver _ after _ _ _ read hsplit hne hread hat =>
        have hsizes := congrArg List.length hsplit
        have hread' : Read position read after (taggedBytes [(channel, piece)]) := by
          simpa [taggedBytes] using hread
        -- the piece is not empty, so neither is what was read for it
        have hsome : read ≠ [] := by
          intro hnil
          have hout := hread.bodyBytes
          rw [hnil] at hout
          exact hne (List.map_eq_nil_iff.1 hout.symm)
        have hpos := List.length_pos_of_ne_nil hsome
        rw [List.length_append] at hsizes
        rw [hsplit]
        exact Accepted.behind hread' (ih (by omega) hat)

/-- How a decoder ends on a stream that stops at a position. -/
inductive Ended : Progress UInt8 FramingError → Except FramingError DockerFrameDecoder → Prop
  | read {tail decoder} : At decoder tail → (decoder.finish = .ok () ↔ tail = .header []) →
      Ended tail (.ok decoder)
  | failed {error} : Ended (.failed error) (.error error)

end DockerFrameDecoder

end AgentSdk.Docker
