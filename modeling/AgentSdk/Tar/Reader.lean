import AgentSdk.Tar.Header

/-!
# The byte cursor of an archive

A reader holds at most one chunk of its source and hands out its bytes.  What
its operations return depends on the bytes that are left, not on how the source
cuts them into chunks.

## Main results

* `take_none`, `take_some` — handing out the bytes that are left.
* `exact_run` — reading a number of bytes.
* `zeroes_run` — reading padding.
-/

namespace AgentSdk.Tar

/-! ### The reader -/

structure TarReader where
  /-- The chunks that the source has yet to yield. -/
  source : List Bytes
  current : Bytes
  ended : Bool
  received : Nat
  bytes : Nat

def TarReader.start (source : List Bytes) : TarReader := ⟨source, [], false, 0, 0⟩

abbrev ReaderM := Stateful TarError TarReader

def quotaError (options : TarOptions) : TarError :=
  .operation options.limitCode "Workspace archive exceeds the caller-selected wire byte quota."

/-- Wait for a chunk that is not empty, or for the end of the source. -/
def pull (options : TarOptions) : List Bytes → TarReader → Except TarError Unit × TarReader
  | [], reader => (.ok (), { reader with source := [], ended := true })
  | chunk :: source, reader =>
    if options.chunkBytes < chunk.length then
      (unsafeArchive "source chunks exceed the selected byte buffer.", { reader with source })
    else if options.exceeded (reader.received + chunk.length) = true then
      (.error (quotaError options),
        { reader with source, received := reader.received + chunk.length })
    else if chunk = [] then
      pull options source { reader with source, received := reader.received + chunk.length }
    else
      (.ok (),
        { reader with source, current := chunk, received := reader.received + chunk.length })

/-- Hand out at most `maximum` bytes of the current chunk. -/
def hand (maximum : Nat) (reader : TarReader) : Except TarError (Option Bytes) × TarReader :=
  if reader.ended = true then (.ok none, reader)
  else
    let chunk := reader.current.take maximum
    (.ok (some chunk), { reader with
      current := reader.current.drop chunk.length, bytes := reader.bytes + chunk.length })

def take (options : TarOptions) (maximum : Nat) : ReaderM (Option Bytes) := fun reader =>
  if reader.current = [] ∧ reader.ended = false then
    match pull options reader.source reader with
    | (.error e, reader) => (.error e, reader)
    | (.ok (), reader) => hand maximum reader
  else hand maximum reader

def exactLoop (options : TarOptions) (size : Nat) (eofAllowed : Bool) :
    Nat → Bytes → ReaderM (Option Bytes)
  | rounds, result =>
    if size ≤ result.length then return some result
    else
      match rounds with
      | 0 => throw .exhausted
      | rounds + 1 => do
          match ← take options (size - result.length) with
          | none =>
            if eofAllowed && result.length == 0 then return none
            else throw (archiveError "unexpected EOF inside framing or payload.")
          | some chunk => exactLoop options size eofAllowed rounds (result ++ chunk)

/-- Read `size` bytes.  Every round takes at least one. -/
def exact (options : TarOptions) (size : Nat) (eofAllowed : Bool) : ReaderM (Option Bytes) :=
  exactLoop options size eofAllowed size []

def required (options : TarOptions) (size : Nat) : ReaderM Bytes := do
  match ← exact options size false with
  | none => throw (archiveError "unexpected EOF inside framing.")
  | some bytes => return bytes

def zeroesLoop (options : TarOptions) : Nat → Nat → ReaderM Unit
  | rounds, remaining =>
    if remaining = 0 then return ()
    else
      match rounds with
      | 0 => throw .exhausted
      | rounds + 1 => do
          match ← take options remaining with
          | none => throw (archiveError "unexpected EOF inside padding.")
          | some chunk => do
              refuseIf (chunk.any (· != 0) = true) (archiveError "nonzero padding or trailer.")
              zeroesLoop options rounds (remaining - chunk.length)

def zeroes (options : TarOptions) (size : Nat) : ReaderM Unit := zeroesLoop options size size

/-! ### The bytes that are left -/

/-- The reader has `rest` to read, has handed out `n` bytes, and its source
stays within the buffer and the quota. -/
structure At (options : TarOptions) (reader : TarReader) (rest : Bytes) (n : Nat) : Prop where
  rest_eq : reader.current ++ reader.source.flatten = rest
  bytes_eq : reader.bytes = n
  chunks : ∀ chunk ∈ reader.source, chunk.length ≤ options.chunkBytes
  quota : options.exceeded (reader.received + reader.source.flatten.length) = false
  ended : reader.ended = true → rest = []

variable {options : TarOptions} {reader : TarReader} {rest : Bytes} {n : Nat}

theorem At.start {source : List Bytes} (hchunks : ∀ chunk ∈ source, chunk.length ≤ options.chunkBytes)
    (hquota : options.exceeded source.flatten.length = false) :
    At options (TarReader.start source) source.flatten 0 :=
  ⟨rfl, rfl, hchunks, by simpa [TarReader.start] using hquota, fun h => Bool.noConfusion h⟩

/-- A quota that is kept in the end is kept before. -/
theorem exceeded_mono {m k : Nat} (h : m ≤ k) (hk : options.exceeded k = false) :
    options.exceeded m = false := by
  unfold TarOptions.exceeded at *
  cases hmax : options.maxArchiveBytes with
  | none => rfl
  | some quota =>
    rw [hmax] at hk
    simp only [Option.any_some, decide_eq_false_iff_not] at hk ⊢
    omega

/-- Waiting for a chunk: the next bytes become current, or the source ends. -/
theorem pull_run (source : List Bytes) :
    ∀ {reader : TarReader}, reader.current = [] → reader.ended = false →
      reader.source = source → At options reader rest n →
      ∃ reader', pull options source reader = (.ok (), reader') ∧ At options reader' rest n ∧
        (rest = [] → reader'.ended = true) ∧
        (rest ≠ [] → reader'.ended = false ∧ reader'.current ≠ []) := by
  induction source with
  | nil =>
    intro reader hcurrent _ hsource hat
    have hrest : rest = [] := by
      rw [← hat.rest_eq, hcurrent, hsource]
      rfl
    refine ⟨_, rfl, ⟨?_, hat.bytes_eq, by simp, ?_, fun _ => hrest⟩, fun _ => rfl, ?_⟩
    · simp [hcurrent, hrest]
    · simpa [hsource] using hat.quota
    · intro hne
      exact absurd hrest hne
  | cons chunk source ih =>
    intro reader hcurrent hended hsource hat
    have hchunk := hat.chunks chunk (by simp [hsource])
    have htotal := hat.quota
    rw [hsource, List.flatten_cons, List.length_append] at htotal
    have hnow : options.exceeded (reader.received + chunk.length) = false :=
      exceeded_mono (by omega) htotal
    have hrest : rest = chunk ++ source.flatten := by
      rw [← hat.rest_eq, hcurrent, hsource]
      rfl
    rw [pull, if_neg (by omega), if_neg (by simp [hnow])]
    by_cases hempty : chunk = []
    · rw [if_pos hempty]
      refine ih hcurrent hended rfl ⟨?_, hat.bytes_eq, ?_, ?_, ?_⟩
      · simp [hcurrent, hrest, hempty]
      · intro other hother
        exact hat.chunks other (by simp [hsource, hother])
      · rw [← htotal]
        congr 1
        dsimp only
        omega
      · intro h
        rw [hended] at h
        exact Bool.noConfusion h
    · rw [if_neg hempty]
      refine ⟨_, rfl, ⟨hrest.symm, hat.bytes_eq, ?_, ?_, ?_⟩, ?_, ?_⟩
      · intro other hother
        exact hat.chunks other (by simp [hsource, hother])
      · rw [← htotal]
        congr 1
        dsimp only
        omega
      · intro h
        rw [show reader.ended = true from h] at hended
        exact Bool.noConfusion hended
      · intro h
        rw [hrest] at h
        exact absurd (List.append_eq_nil_iff.1 h).1 hempty
      · intro _
        exact ⟨hended, hempty⟩

/-- Handing out of a current chunk. -/
theorem hand_run (maximum : Nat) (hat : At options reader rest n) (hended : reader.ended = false)
    (hcurrent : reader.current ≠ []) :
    ∃ chunk later reader', hand maximum reader = (.ok (some chunk), reader') ∧
      (0 < maximum → chunk ≠ []) ∧
      chunk.length ≤ maximum ∧ rest = chunk ++ later ∧
      At options reader' later (n + chunk.length) := by
  have hpos := List.length_pos_iff.2 hcurrent
  have hsplit : rest = reader.current.take maximum ++
      (reader.current.drop (reader.current.take maximum).length ++ reader.source.flatten) := by
    rw [← hat.rest_eq, ← List.append_assoc]
    congr 1
    rw [List.length_take]
    by_cases hle : maximum ≤ reader.current.length
    · rw [Nat.min_eq_left hle, List.take_append_drop]
    · rw [Nat.min_eq_right (by omega), List.take_of_length_le (by omega), List.drop_length,
        List.append_nil]
  let left := reader.current.drop (reader.current.take maximum).length
  let total := reader.bytes + (reader.current.take maximum).length
  refine ⟨reader.current.take maximum, left ++ reader.source.flatten,
    { reader with current := left, bytes := total }, ?_, ?_, ?_, hsplit,
    ⟨rfl, ?_, hat.chunks, hat.quota, ?_⟩⟩
  · rw [hand, if_neg (by simp [hended])]
  · intro hmaximum
    rw [← List.length_pos_iff, List.length_take]
    omega
  · rw [List.length_take]
    omega
  · show reader.bytes + _ = _
    rw [hat.bytes_eq]
  · intro h
    rw [show reader.ended = true from h] at hended
    exact Bool.noConfusion hended

theorem take_none (maximum : Nat) (hat : At options reader [] n) :
    ∃ reader', take options maximum reader = (.ok none, reader') ∧ At options reader' [] n := by
  have hcurrent : reader.current = [] := (List.append_eq_nil_iff.1 hat.rest_eq).1
  unfold take
  by_cases hended : reader.ended = true
  · rw [if_neg (by simp [hended])]
    exact ⟨reader, by rw [hand, if_pos hended], hat⟩
  · have hopen : reader.ended = false := by simpa using hended
    obtain ⟨reader', hpull, hat', hdone, _⟩ := pull_run reader.source hcurrent hopen rfl hat
    rw [if_pos ⟨hcurrent, hopen⟩, hpull]
    exact ⟨reader', if_pos (hdone rfl), hat'⟩

theorem take_some (maximum : Nat) (hat : At options reader rest n) (hrest : rest ≠ []) :
    ∃ chunk later reader', take options maximum reader = (.ok (some chunk), reader') ∧
      (0 < maximum → chunk ≠ []) ∧ chunk.length ≤ maximum ∧ rest = chunk ++ later ∧
      At options reader' later (n + chunk.length) := by
  have hopen : reader.ended = false := by
    by_contra h
    exact hrest (hat.ended (by simpa using h))
  unfold take
  by_cases hcurrent : reader.current = []
  · obtain ⟨reader', hpull, hat', _, hmore⟩ := pull_run reader.source hcurrent hopen rfl hat
    rw [if_pos ⟨hcurrent, hopen⟩, hpull]
    exact hand_run maximum hat' (hmore hrest).1 (hmore hrest).2
  · rw [if_neg (by simp [hcurrent])]
    exact hand_run maximum hat hopen hcurrent


/-! ### Reading a number of bytes -/

theorem exactLoop_full (size : Nat) (eofAllowed : Bool) (rounds : Nat) :
    ∀ {reader : TarReader} (result : Bytes) {rest : Bytes} {n : Nat}, At options reader rest n →
      result.length ≤ size → size - result.length ≤ rest.length → size - result.length ≤ rounds →
      ∃ reader', exactLoop options size eofAllowed rounds result reader =
          (.ok (some (result ++ rest.take (size - result.length))), reader') ∧
        At options reader' (rest.drop (size - result.length)) (n + (size - result.length)) := by
  induction rounds with
  | zero =>
    intro reader result rest n hat _ _ hrounds
    have hfull : size - result.length = 0 := by omega
    rw [exactLoop, if_pos (by omega), hfull]
    exact ⟨reader, by simp, by simpa using hat⟩
  | succ rounds ih =>
    intro reader result rest n hat hresult henough hrounds
    rw [exactLoop]
    by_cases hfull : size ≤ result.length
    · rw [if_pos hfull, show size - result.length = 0 by omega]
      exact ⟨reader, by simp, by simpa using hat⟩
    · rw [if_neg hfull]
      have hrest : rest ≠ [] := by
        rintro rfl
        simp at henough
        omega
      obtain ⟨chunk, later, reader', htake, hchunk, hle, rfl, hat'⟩ :=
        take_some (size - result.length) hat hrest
      have hpos := List.length_pos_iff.2 (hchunk (by omega))
      rw [List.length_append] at henough
      rw [Stateful.bind_ok htake]
      have hleft : size - (result ++ chunk).length = size - result.length - chunk.length := by
        rw [List.length_append]
        omega
      obtain ⟨reader'', hloop, hat''⟩ := ih (result ++ chunk) hat'
        (by rw [List.length_append]; omega) (by omega) (by omega)
      refine ⟨reader'', ?_, ?_⟩
      · dsimp only
        rw [hloop, hleft, List.append_assoc, List.take_append, List.take_of_length_le hle]
      · rw [hleft] at hat''
        have hdrop : (chunk ++ later).drop (size - result.length) =
            later.drop (size - result.length - chunk.length) := by
          rw [List.drop_append, List.drop_of_length_le hle, List.nil_append]
        rw [hdrop, show n + (size - result.length) =
          n + chunk.length + (size - result.length - chunk.length) by omega]
        exact hat''

theorem exactLoop_short (size : Nat) (eofAllowed : Bool) (rounds : Nat) :
    ∀ {reader : TarReader} (result : Bytes) {rest : Bytes} {n : Nat}, At options reader rest n →
      rest.length < size - result.length → size - result.length ≤ rounds →
      (eofAllowed && (result ++ rest).length == 0) = false →
      ∃ reader', exactLoop options size eofAllowed rounds result reader =
        (.error (archiveError "unexpected EOF inside framing or payload."), reader') := by
  induction rounds with
  | zero =>
    intro reader result rest n _ hshort hrounds _
    omega
  | succ rounds ih =>
    intro reader result rest n hat hshort hrounds hpartial
    rw [exactLoop, if_neg (by omega)]
    by_cases hrest : rest = []
    · rw [hrest] at hat hpartial
      obtain ⟨reader', htake, _⟩ := take_none (size - result.length) hat
      rw [Stateful.bind_ok htake]
      rw [List.append_nil] at hpartial
      exact ⟨reader', by simp [ hpartial]⟩
    · obtain ⟨chunk, later, reader', htake, hchunk, hle, rfl, hat'⟩ :=
        take_some (size - result.length) hat hrest
      have hpos := List.length_pos_iff.2 (hchunk (by omega))
      rw [List.length_append] at hshort
      rw [Stateful.bind_ok htake]
      exact ih (result ++ chunk) hat' (by rw [List.length_append]; omega)
        (by rw [List.length_append]; omega) (by rwa [List.append_assoc])

/-- What reading `size` bytes returns when `rest` is left. -/
def exactResult (size : Nat) (eofAllowed : Bool) (rest : Bytes) : Except TarError (Option Bytes) :=
  if size ≤ rest.length then .ok (some (rest.take size))
  else if eofAllowed && rest.length == 0 then .ok none
  else .error (archiveError "unexpected EOF inside framing or payload.")

/-- Reading a number of bytes. -/
theorem exact_run (size : Nat) (eofAllowed : Bool) (hat : At options reader rest n) :
    ∃ reader', exact options size eofAllowed reader =
        (exactResult size eofAllowed rest, reader') ∧
      ∀ block, exactResult size eofAllowed rest = .ok block →
        At options reader' (rest.drop size) (n + (rest.take size).length) := by
  unfold exactResult
  by_cases hle : size ≤ rest.length
  · obtain ⟨reader', hloop, hat'⟩ := exactLoop_full size eofAllowed size [] hat
      (Nat.zero_le _) hle (by simp)
    rw [if_pos hle]
    refine ⟨reader', hloop, ?_⟩
    intro block _
    rw [List.length_take, Nat.min_eq_left hle]
    exact hat'
  · rw [if_neg hle]
    by_cases hend : (eofAllowed && rest.length == 0) = true
    · have hempty : rest = [] := by simpa using (Bool.and_eq_true_iff.1 hend).2
      subst hempty
      have hallowed : eofAllowed = true := (Bool.and_eq_true_iff.1 hend).1
      obtain ⟨rounds, rfl⟩ : ∃ rounds, size = rounds + 1 := ⟨size - 1, by simp at hle; omega⟩
      obtain ⟨reader', htake, hat'⟩ := take_none (rounds + 1 - ([] : Bytes).length) hat
      refine ⟨reader', ?_, ?_⟩
      · rw [if_pos hend, exact, exactLoop, if_neg (by simp), Stateful.bind_ok htake]
        simp [hallowed]
      · intro block _
        simpa using hat'
    · have hpartial : (eofAllowed && ([] ++ rest).length == 0) = false := by simpa using hend
      obtain ⟨reader', hloop⟩ := exactLoop_short size eofAllowed size [] hat
        (by simpa using hle) (by simp) hpartial
      rw [if_neg hend]
      refine ⟨reader', hloop, ?_⟩
      intro block h
      cases h

theorem required_ok {block : Bytes} {size : Nat} (hat : At options reader (block ++ rest) n)
    (hsize : block.length = size) :
    ∃ reader', required options size reader = (.ok block, reader') ∧
      At options reader' rest (n + size) := by
  obtain ⟨reader', hrun, hat'⟩ := exact_run size false hat
  have hresult : exactResult size false (block ++ rest) = .ok (some block) := by
    rw [exactResult, if_pos (by simp; omega), ← hsize, List.take_left]
  have hnext := hat' _ hresult
  rw [← hsize, List.drop_left, List.take_left, hsize] at hnext
  rw [hresult] at hrun
  exact ⟨reader', by rw [required, Stateful.bind_ok hrun]; rfl, hnext⟩

theorem required_short {size : Nat} (hat : At options reader rest n) (hsize : rest.length < size) :
    ∃ reader', required options size reader =
      (.error (archiveError "unexpected EOF inside framing or payload."), reader') := by
  obtain ⟨reader', hrun, _⟩ := exact_run size false hat
  have hresult : exactResult size false rest =
      .error (archiveError "unexpected EOF inside framing or payload.") := by
    rw [exactResult, if_neg (by omega), if_neg (by simp)]
  rw [hresult] at hrun
  exact ⟨reader', by rw [required, Stateful.bind_error hrun]⟩

/-! ### Padding -/

/-- What reading `size` bytes of padding returns when `rest` is left. -/
def zeroesResult (size : Nat) (rest : Bytes) : Except TarError Unit :=
  if (rest.take size).any (· != 0) then .error (archiveError "nonzero padding or trailer.")
  else if size ≤ rest.length then .ok ()
  else .error (archiveError "unexpected EOF inside padding.")

theorem zeroesLoop_run (rounds : Nat) :
    ∀ {size : Nat} {reader : TarReader} {rest : Bytes} {n : Nat}, At options reader rest n →
      size ≤ rounds → ∃ reader', zeroesLoop options rounds size reader =
          (zeroesResult size rest, reader') ∧
        (zeroesResult size rest = .ok () → At options reader' (rest.drop size) (n + size)) := by
  induction rounds with
  | zero =>
    intro size reader rest n hat hsize
    obtain rfl : size = 0 := by omega
    exact ⟨reader, by simp [zeroesLoop, zeroesResult], fun _ => by simpa using hat⟩
  | succ rounds ih =>
    intro size reader rest n hat hsize
    by_cases hzero : size = 0
    · subst hzero
      exact ⟨reader, by simp [zeroesLoop, zeroesResult], fun _ => by simpa using hat⟩
    · rw [zeroesLoop, if_neg hzero]
      by_cases hrest : rest = []
      · subst hrest
        obtain ⟨reader', htake, _⟩ := take_none size hat
        refine ⟨reader', ?_, ?_⟩
        · rw [Stateful.bind_ok htake]
          simp [zeroesResult, hzero]
        · intro h
          simp [zeroesResult, hzero] at h
      · obtain ⟨chunk, later, reader', htake, hchunk, hle, rfl, hat'⟩ :=
          take_some size hat hrest
        have hpos := List.length_pos_iff.2 (hchunk (by omega))
        have hsplit : (chunk ++ later).take size = chunk ++ later.take (size - chunk.length) := by
          rw [List.take_append, List.take_of_length_le hle]
        have hdrop : (chunk ++ later).drop size = later.drop (size - chunk.length) := by
          rw [List.drop_append, List.drop_of_length_le hle, List.nil_append]
        rw [Stateful.bind_ok htake]
        dsimp only
        by_cases hbad : chunk.any (· != 0) = true
        · have hresult : zeroesResult size (chunk ++ later) =
              .error (archiveError "nonzero padding or trailer.") := by
            rw [zeroesResult, hsplit, List.any_append, hbad, Bool.true_or, if_pos rfl]
          refine ⟨reader', ?_, ?_⟩
          · rw [refuseIf_of _ hbad, Stateful.bind_error (Stateful.throw_run _ _), hresult]
          · intro h
            rw [hresult] at h
            cases h
        · have hresult : zeroesResult size (chunk ++ later) =
              zeroesResult (size - chunk.length) later := by
            rw [zeroesResult, zeroesResult, hsplit, List.any_append,
              Bool.eq_false_of_not_eq_true hbad, Bool.false_or, List.length_append]
            congr 1
            exact if_congr (by omega) rfl rfl
          obtain ⟨reader'', hloop, hnext⟩ := @ih (size - chunk.length) _ _ _ hat' (by omega)
          refine ⟨reader'', ?_, ?_⟩
          · rw [Stateful.refuseIf_bind hbad, hloop, hresult]
          · intro h
            rw [hresult] at h
            rw [hdrop, show n + size = n + chunk.length + (size - chunk.length) by omega]
            exact hnext h

/-- Reading padding. -/
theorem zeroes_run (size : Nat) (hat : At options reader rest n) :
    ∃ reader', zeroes options size reader = (zeroesResult size rest, reader') ∧
      (zeroesResult size rest = .ok () → At options reader' (rest.drop size) (n + size)) :=
  zeroesLoop_run size hat (Nat.le_refl _)

theorem zeroes_ok {size : Nat} (hat : At options reader (List.replicate size 0 ++ rest) n) :
    ∃ reader', zeroes options size reader = (.ok (), reader') ∧
      At options reader' rest (n + size) := by
  have hresult : zeroesResult size (List.replicate size 0 ++ rest) = .ok () := by
    rw [zeroesResult, List.take_left' (List.length_replicate ..), if_neg (by simp),
      if_pos (by simp)]
  obtain ⟨reader', hrun, hnext⟩ := zeroes_run size hat
  rw [hresult] at hrun
  have hat' := hnext hresult
  rw [List.drop_left' (List.length_replicate ..)] at hat'
  exact ⟨reader', hrun, hat'⟩

end AgentSdk.Tar
