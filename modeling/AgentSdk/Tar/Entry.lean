import AgentSdk.Tar.Reader

/-!
# The body of an entry and the callback that pulls it

A callback may pull the body of its entry in any way: not at all, one pull at a
time, two at once, after it has retired the body, or without waiting for a pull
to settle.  It is modelled by the tree of its calls; when an entered pull
settles is part of the tree, so that every schedule is a callback.

## Main results

* `consumeTarEntry_drained` — an entry is consumed only when its whole body was
  handed over.
* `drain_run` — the callback that drains the body.
-/

namespace AgentSdk.Tar

open AgentSdk.Text AgentSdk.Sandbox

inductive TarContent where
  | file
  | directory
  | symlink (target : SandboxSymlinkTarget)
  deriving DecidableEq

/-- What a callback receives besides the body. -/
structure TarOutputEntry where
  path : ArchiveName
  size : Nat
  mode : Nat
  content : TarContent
  deriving DecidableEq

/-! ### Callbacks -/

/-- What a pull settles to. -/
inductive Pulled where
  | chunk (bytes : Bytes)
  | done
  | failed (error : TarError)

/-- The calls of a callback, and when the pull it entered settles. -/
inductive Callback (σ : Type) where
  /-- The callback's promise settles. -/
  | finish (outcome : Except TarError σ)
  /-- Ask the body for its iterator; it answers once. -/
  | enter (k : Bool → Callback σ)
  /-- Call `next`: rejected at once with an error, or a pull is entered. -/
  | next (k : Option TarError → Callback σ)
  /-- The entered pull settles, if there is one. -/
  | settle (k : Option Pulled → Callback σ)
  /-- Call `return`. -/
  | stop (k : Callback σ)

inductive Origin where
  | source
  | ownership
  deriving DecidableEq

structure EntryBody where
  reader : TarReader
  remaining : Nat
  active : Bool
  entered : Bool
  pending : Bool
  failure : Option (TarError × Origin)
  /-- The chunks handed over so far. -/
  pieces : List Bytes

namespace EntryBody

def start (reader : TarReader) (size : Nat) : EntryBody :=
  ⟨reader, size, true, false, false, none, []⟩

/-- The first failure is kept. -/
def note (body : EntryBody) (error : TarError) (origin : Origin) : EntryBody :=
  { body with failure := body.failure.or (some (error, origin)) }

end EntryBody

def activePull : TarError := archiveError "entry callback returned with an active body pull."

/-- The entered pull settles. -/
def settlePull (options : TarOptions) (body : EntryBody) : Pulled × EntryBody :=
  let body := { body with pending := false }
  if body.remaining = 0 then (.done, body)
  else
    match take options (min body.remaining options.chunkBytes) body.reader with
    | (.error error, reader) => (.failed error, { body with reader }.note error .source)
    | (.ok chunk, reader) =>
      if body.active = false then
        (.failed activePull, { body with reader }.note activePull .ownership)
      else
        match chunk with
        | none =>
          let error := archiveError "unexpected EOF inside payload."
          (.failed error, { body with reader }.note error .ownership)
        | some chunk =>
          (.chunk chunk, { body with
            reader
            remaining := body.remaining - chunk.length
            pieces := body.pieces ++ [chunk] })

def Callback.run {σ : Type} (options : TarOptions) :
    Callback σ → EntryBody → Except TarError σ × EntryBody
  | .finish outcome, body => (outcome, body)
  | .enter k, body =>
    if body.active = false ∨ body.entered = true then (k false).run options body
    else (k true).run options { body with entered := true }
  | .next k, body =>
    if body.active = false then
      let error := archiveError "entry body is retired outside its callback."
      (k (some error)).run options (body.note error .ownership)
    else if body.pending = true then
      let error := archiveError "concurrent entry body pulls are forbidden."
      (k (some error)).run options (body.note error .ownership)
    else (k none).run options { body with pending := true }
  | .settle k, body =>
    if body.pending = true then
      (k (some (settlePull options body).1)).run options (settlePull options body).2
    else (k none).run options body
  | .stop k, body => k.run options { body with active := false }

/-- How the consumption of an entry ended. -/
structure Consumed (σ : Type) where
  result : Except TarError σ
  reader : TarReader
  pieces : List Bytes

/-- What the consumption comes to when the callback is done and `body` is left. -/
def settled {σ : Type} (outcome : Except TarError σ) (enteredPull : Bool) (body : EntryBody) :
    Except TarError σ :=
  match outcome with
  | .error callbackFailure =>
    match body.failure with
    | some (failure, .source) =>
      if failure ≠ callbackFailure then
        .error (.aggregate callbackFailure failure
          "Archive callback and entered source pull both failed.")
      else .error callbackFailure
    | _ => .error callbackFailure
  | .ok state =>
    match body.failure with
    | some (failure, _) => .error failure
    | none =>
      if enteredPull = true then .error activePull
      else if body.remaining ≠ 0 then
        unsafeArchive "entry callback must drain its complete body."
      else .ok state

/-- Run a callback on the body of an entry of `size` bytes.  A pull that is
still entered when the callback is done settles on a retired body. -/
def consumeTarEntry {σ : Type} (options : TarOptions) (callback : Callback σ) (size : Nat)
    (reader : TarReader) : Consumed σ :=
  let ran := callback.run options (EntryBody.start reader size)
  let retired := { ran.2 with active := false }
  let body := if ran.2.pending = true then (settlePull options retired).2 else retired
  ⟨settled ran.1 ran.2.pending body, body.reader, body.pieces⟩

/-! ### What was handed over -/

variable {σ : Type} {options : TarOptions}

/-- As long as nothing failed, the pieces are the first part of what was left. -/
def Handed (options : TarOptions) (rest : Bytes) (n size : Nat) (body : EntryBody) : Prop :=
  body.failure = none → ∃ later, rest = body.pieces.flatten ++ later ∧
    body.pieces.flatten.length + body.remaining = size ∧
    At options body.reader later (n + body.pieces.flatten.length)

variable {reader : TarReader} {rest : Bytes} {n size : Nat} {body : EntryBody} {state : σ}
  {entry : TarOutputEntry}

theorem Handed.start (size : Nat) (hat : At options reader rest n) :
    Handed options rest n size (EntryBody.start reader size) := fun _ =>
  ⟨rest, by simp [EntryBody.start], by simp [EntryBody.start], by simpa [EntryBody.start] using hat⟩

/-- A failure was noted. -/
theorem Handed.note (body : EntryBody) (error : TarError) (origin : Origin) :
    Handed options rest n size (body.note error origin) := by
  intro hnone
  simp [EntryBody.note] at hnone

theorem Handed.settlePull (h : Handed options rest n size body) :
    Handed options rest n size (settlePull options body).2 := by
  unfold Tar.settlePull
  dsimp only
  split
  · exact h
  · rename_i hremaining
    split
    · exact Handed.note _ _ _
    · rename_i chunk reader htake
      split
      · exact Handed.note _ _ _
      · split
        · exact Handed.note _ _ _
        · rename_i chunk
          intro hnone
          obtain ⟨later, hrest, hcount, hat⟩ := h hnone
          by_cases hempty : later = []
          · subst hempty
            obtain ⟨_, hends, _⟩ := take_none (min body.remaining options.chunkBytes) hat
            rw [hends] at htake
            cases htake
          · obtain ⟨handed, left, reader', hhands, _, hle, hsplit, hat'⟩ :=
              take_some (min body.remaining options.chunkBytes) hat hempty
            rw [hhands] at htake
            cases htake
            refine ⟨left, ?_, ?_, ?_⟩
            · simp [hrest, hsplit]
            · simp only [List.flatten_append, List.length_append, List.flatten_cons,
                List.flatten_nil, List.append_nil]
              omega
            · simpa [Nat.add_assoc] using hat'

/-- What noting a failure establishes, settling a pull keeps and the flags do
not touch, every callback keeps. -/
theorem Callback.run_keeps {I : EntryBody → Prop}
    (hnote : ∀ (body : EntryBody) error origin, I (body.note error origin))
    (hsettle : ∀ body, I body → I (settlePull options body).2)
    (hflags : ∀ body active entered pending, I body → I { body with active, entered, pending })
    (callback : Callback σ) : ∀ body, I body → I (callback.run options body).2 := by
  induction callback with
  | finish _ =>
    intro body h
    exact h
  | enter k ih =>
    intro body h
    rw [Callback.run]
    split
    · exact ih false body h
    · exact ih true _ (hflags body body.active true body.pending h)
  | next k ih =>
    intro body h
    rw [Callback.run]
    split
    · exact ih _ _ (hnote _ _ _)
    · split
      · exact ih _ _ (hnote _ _ _)
      · exact ih none _ (hflags body body.active body.entered true h)
  | settle k ih =>
    intro body h
    rw [Callback.run]
    split
    · exact ih _ _ (hsettle body h)
    · exact ih none body h
  | stop _ ih =>
    intro body h
    exact ih _ (hflags body false body.entered body.pending h)

theorem Handed.run (callback : Callback σ) (h : Handed options rest n size body) :
    Handed options rest n size (callback.run options body).2 :=
  callback.run_keeps Handed.note (fun _ => Handed.settlePull) (fun _ _ _ _ h => h) body h

/-- A consumption that succeeds noted no failure and left nothing. -/
theorem settled_ok {outcome : Except TarError σ} {enteredPull : Bool}
    (h : settled outcome enteredPull body = .ok state) :
    outcome = .ok state ∧ body.failure = none ∧ enteredPull = false ∧ body.remaining = 0 := by
  unfold settled at h
  split at h
  · split at h
    · split at h <;> cases h
    · cases h
  · split at h
    · cases h
    · rename_i hfailure
      split at h
      · cases h
      · rename_i hpull
        split at h
        · cases h
        · rename_i hremaining
          cases h
          exact ⟨rfl, hfailure, by simpa using hpull, by simpa using hremaining⟩

/-- An entry is consumed only when its whole body was handed over. -/
theorem consumeTarEntry_drained {callback : Callback σ} (hat : At options reader rest n)
    (h : (consumeTarEntry options callback size reader).result = .ok state) :
    ∃ later, rest = (consumeTarEntry options callback size reader).pieces.flatten ++ later ∧
      (consumeTarEntry options callback size reader).pieces.flatten.length = size ∧
      At options (consumeTarEntry options callback size reader).reader later (n + size) := by
  have hhanded := (Handed.start size hat).run callback
  unfold consumeTarEntry at h ⊢
  dsimp only at h ⊢
  obtain ⟨_, hfailure, hpending, hremaining⟩ := settled_ok h
  rw [hpending] at hfailure hremaining ⊢
  obtain ⟨later, hrest, hcount, hat'⟩ := hhanded hfailure
  have hsize : (callback.run options (EntryBody.start reader size)).2.pieces.flatten.length =
      size := by
    rw [if_neg (by simp)] at hremaining
    dsimp only at hremaining
    omega
  rw [if_neg (by simp)]
  rw [hsize] at hat'
  exact ⟨later, hrest, hsize, hat'⟩

/-! ### Draining a body -/

/-- Pull until the body is done, one pull at a time, then finish with what was
seen.  The rounds are those that a body of the entry's size can take. -/
def drainBody (finish : Bytes → Except TarError σ) : Nat → Bytes → Callback σ
  | 0, seen => .finish (finish seen)
  | rounds + 1, seen =>
    .next fun rejected =>
      match rejected with
      | some error => .finish (.error error)
      | none =>
        .settle fun pulled =>
          match pulled with
          | some (.chunk bytes) => drainBody finish rounds (seen ++ bytes)
          | some (.failed error) => .finish (.error error)
          | _ => .finish (finish seen)

/-- A callback that drains every body and decides from the entry and its bytes. -/
def draining (finish : σ → TarOutputEntry → Bytes → Except TarError σ) (state : σ)
    (entry : TarOutputEntry) : Callback σ :=
  match entry.content with
  | .symlink _ => .finish (finish state entry [])
  | _ => .enter fun _ => drainBody (finish state entry) (entry.size + 1) []

/-- A body that waits for a pull. -/
structure Waiting (options : TarOptions) (body : EntryBody) (rest : Bytes) (n : Nat) : Prop where
  active : body.active = true
  pending : body.pending = false
  failure : body.failure = none
  reader : At options body.reader rest n

theorem drainBody_step {finish : Bytes → Except TarError σ} {rounds : Nat} {seen : Bytes}
    (h : Waiting options body rest n) :
    (drainBody finish (rounds + 1) seen).run options body =
      match settlePull options { body with pending := true } with
      | (.chunk bytes, body) => (drainBody finish rounds (seen ++ bytes)).run options body
      | (.failed error, body) => (.error error, body)
      | (.done, body) => (finish seen, body) := by
  rw [drainBody, Callback.run, if_neg (by simp [h.active]), if_neg (by simp [h.pending])]
  rw [Callback.run, if_pos rfl]
  generalize settlePull options { body with pending := true } = settledPull
  obtain ⟨pulled, later⟩ := settledPull
  cases pulled <;> rfl

/-- A whole body is drained. -/
theorem drainBody_full (finish : Bytes → Except TarError σ) (hbuffer : 0 < options.chunkBytes)
    (rounds : Nat) :
    ∀ {seen payload later : Bytes} {body : EntryBody} {n : Nat},
      Waiting options body (payload ++ later) n → payload.length = body.remaining →
      body.remaining < rounds →
      ∃ body', (drainBody finish rounds seen).run options body =
          (finish (seen ++ payload), body') ∧
        body'.failure = none ∧ body'.pending = false ∧ body'.remaining = 0 ∧
        body'.pieces.flatten = body.pieces.flatten ++ payload ∧
        At options body'.reader later (n + payload.length) := by
  induction rounds with
  | zero => intro seen payload later body n _ _ hrounds; omega
  | succ rounds ih =>
    intro seen payload later body n h hlength hrounds
    rw [drainBody_step h]
    by_cases hdone : body.remaining = 0
    · have hpayload : payload = [] := List.length_eq_zero_iff.1 (by omega)
      subst hpayload
      refine ⟨{ body with pending := false }, ?_, h.failure, rfl, hdone, by simp, h.reader⟩
      simp [settlePull, hdone]
    · have hrest : payload ++ later ≠ [] := by
        intro hempty
        have hzero := congrArg List.length hempty
        simp only [List.length_append, List.length_nil] at hzero
        omega
      obtain ⟨chunk, left, reader', htake, hchunk, hle, hsplit, hat'⟩ :=
        take_some (min body.remaining options.chunkBytes) h.reader hrest
      have hpos := List.length_pos_iff.2 (hchunk (by omega))
      have hpayload : payload = chunk ++ payload.drop chunk.length := by
        have htakeEq := congrArg (List.take chunk.length) hsplit
        rw [List.take_left, List.take_append_of_le_length (by omega)] at htakeEq
        exact (List.take_append_drop chunk.length payload).symm.trans (by rw [htakeEq])
      have hleft : left = payload.drop chunk.length ++ later := by
        have hdropEq := congrArg (List.drop chunk.length) hsplit
        rw [List.drop_left, List.drop_append_of_le_length (by omega)] at hdropEq
        exact hdropEq.symm
      have hpull : settlePull options { body with pending := true } =
          (.chunk chunk, { body with
            pending := false
            reader := reader'
            remaining := body.remaining - chunk.length
            pieces := body.pieces ++ [chunk] }) := by
        simp [settlePull, hdone, htake, h.active]
      rw [hpull]
      dsimp only
      obtain ⟨body', hrun, hfailure, hpending, hremaining, hpieces, hat''⟩ :=
        @ih (seen ++ chunk) (payload.drop chunk.length) later { body with
          pending := false
          reader := reader'
          remaining := body.remaining - chunk.length
          pieces := body.pieces ++ [chunk] } (n + chunk.length)
          ⟨h.active, rfl, h.failure, hleft ▸ hat'⟩
          (by rw [List.length_drop]; dsimp only; omega) (by dsimp only; omega)
      refine ⟨body', ?_, hfailure, hpending, hremaining, ?_, ?_⟩
      · rw [hrun, List.append_assoc, ← hpayload]
      · rw [hpieces]
        conv_rhs => rw [hpayload]
        simp
      · rw [List.length_drop, show n + chunk.length + (payload.length - chunk.length) =
          n + payload.length by omega] at hat''
        exact hat''

/-- A body that the source cuts off is not drained. -/
theorem drainBody_short (finish : Bytes → Except TarError σ) (hbuffer : 0 < options.chunkBytes)
    (rounds : Nat) :
    ∀ {seen rest : Bytes} {body : EntryBody} {n : Nat}, Waiting options body rest n →
      rest.length < body.remaining → body.remaining < rounds →
      ∃ body', (drainBody finish rounds seen).run options body =
          (.error (archiveError "unexpected EOF inside payload."), body') ∧
        body'.failure = some (archiveError "unexpected EOF inside payload.", .ownership) ∧
        body'.pending = false := by
  induction rounds with
  | zero => intro seen rest body n _ _ hrounds; omega
  | succ rounds ih =>
    intro seen rest body n h hshort hrounds
    have hremaining : body.remaining ≠ 0 := by omega
    rw [drainBody_step h]
    by_cases hrest : rest = []
    · have hat := h.reader
      rw [hrest] at hat
      obtain ⟨reader', htake, _⟩ := take_none (min body.remaining options.chunkBytes) hat
      refine ⟨{ body with pending := false, reader := reader' }.note
        (archiveError "unexpected EOF inside payload.") .ownership, ?_, ?_, rfl⟩
      · simp [settlePull, hremaining, htake, h.active]
      · simp [EntryBody.note, h.failure]
    · obtain ⟨chunk, left, reader', htake, hchunk, -, rfl, hat'⟩ :=
        take_some (min body.remaining options.chunkBytes) h.reader hrest
      have hpos := List.length_pos_iff.2 (hchunk (by omega))
      rw [List.length_append] at hshort
      have hpull : settlePull options { body with pending := true } =
          (.chunk chunk, { body with
            pending := false
            reader := reader'
            remaining := body.remaining - chunk.length
            pieces := body.pieces ++ [chunk] }) := by
        simp [settlePull, hremaining, htake, h.active]
      rw [hpull]
      exact ih ⟨h.active, rfl, h.failure, hat'⟩ (by dsimp only; omega) (by dsimp only; omega)

theorem draining_body (finish : σ → TarOutputEntry → Bytes → Except TarError σ) (state : σ)
    (hlink : ∀ target, entry.content ≠ .symlink target) :
    draining finish state entry =
      .enter fun _ => drainBody (finish state entry) (entry.size + 1) [] := by
  unfold draining
  split
  · rename_i target hcontent
    exact absurd hcontent (hlink target)
  · rfl

/-- What a draining callback makes of a whole body. -/
theorem draining_full (finish : σ → TarOutputEntry → Bytes → Except TarError σ) (state : σ)
    {payload later : Bytes} (hbuffer : 0 < options.chunkBytes)
    (hlink : ∀ target, entry.content ≠ .symlink target)
    (hat : At options reader (payload ++ later) n) (hlength : payload.length = entry.size) :
    ∃ reader' pieces, consumeTarEntry options (draining finish state entry) entry.size reader =
        ⟨finish state entry payload, reader', pieces⟩ ∧ pieces.flatten = payload ∧
      At options reader' later (n + entry.size) := by
  have hdraining := draining_body finish state hlink
  obtain ⟨body', hrun, hfailure, hpending, hremaining, hpieces, hat'⟩ :=
    @drainBody_full σ options (finish state entry) hbuffer (entry.size + 1) [] payload later
      { EntryBody.start reader entry.size with entered := true } n
      ⟨rfl, rfl, rfl, hat⟩ hlength (Nat.lt_succ_self _)
  have hran : (draining finish state entry).run options (EntryBody.start reader entry.size) =
      (finish state entry payload, body') := by
    rw [hdraining, Callback.run, if_neg (by simp [EntryBody.start]), hrun]
    rfl
  refine ⟨body'.reader, body'.pieces, ?_, by simpa [EntryBody.start] using hpieces,
    hlength ▸ hat'⟩
  unfold consumeTarEntry
  rw [hran]
  dsimp only
  rw [if_neg (by simp [hpending])]
  cases houtcome : finish state entry payload with
  | error e => simp [settled, hfailure]
  | ok next => simp [settled, hfailure, hpending, hremaining]

/-- What a draining callback makes of a body that is cut off. -/
theorem draining_short {finish : σ → TarOutputEntry → Bytes → Except TarError σ}
    (hbuffer : 0 < options.chunkBytes) (hlink : ∀ target, entry.content ≠ .symlink target)
    (hat : At options reader rest n) (hshort : rest.length < entry.size) :
    (consumeTarEntry options (draining finish state entry) entry.size reader).result =
      .error (archiveError "unexpected EOF inside payload.") := by
  have hdraining := draining_body finish state hlink
  obtain ⟨body', hrun, hfailure, hpending⟩ :=
    @drainBody_short σ options (finish state entry) hbuffer (entry.size + 1) [] rest
      { EntryBody.start reader entry.size with entered := true } n
      ⟨rfl, rfl, rfl, hat⟩ hshort (Nat.lt_succ_self _)
  have hran : (draining finish state entry).run options (EntryBody.start reader entry.size) =
      (.error (archiveError "unexpected EOF inside payload."), body') := by
    rw [hdraining, Callback.run, if_neg (by simp [EntryBody.start]), hrun]
  unfold consumeTarEntry
  rw [hran]
  dsimp only
  rw [if_neg (by simp [hpending])]
  simp [settled, hfailure]

/-! ### Callbacks that do not see the chunks -/

/-- What the consumption of a body ends with does not depend on how the bytes
are cut into chunks. -/
def ChunkBlind (options : TarOptions) (consume : σ → TarOutputEntry → Callback σ) : Prop :=
  ∀ (state : σ) (entry : TarOutputEntry) (reader reader' : TarReader) (rest : Bytes) (n : Nat),
    At options reader rest n → At options reader' rest n →
    (consumeTarEntry options (consume state entry) entry.size reader).result =
      (consumeTarEntry options (consume state entry) entry.size reader').result

theorem draining_blind (finish : σ → TarOutputEntry → Bytes → Except TarError σ)
    (hbuffer : 0 < options.chunkBytes) : ChunkBlind options (draining finish) := by
  intro state entry reader reader' rest n hat hat'
  cases hcontent : entry.content with
  | symlink target =>
    have hfinish : draining finish state entry = .finish (finish state entry []) := by
      rw [draining, hcontent]
    rw [hfinish]
    rfl
  | file | directory =>
    exact same_of_body (by simp [hcontent]) hat hat'
where
  same_of_body {state : σ} {entry : TarOutputEntry} {reader reader' : TarReader} {rest : Bytes}
      {n : Nat} (hlink : ∀ target, entry.content ≠ .symlink target)
      (hat : At options reader rest n) (hat' : At options reader' rest n) :
      (consumeTarEntry options (draining finish state entry) entry.size reader).result =
        (consumeTarEntry options (draining finish state entry) entry.size reader').result := by
    by_cases hsize : entry.size ≤ rest.length
    · rw [← List.take_append_drop entry.size rest] at hat hat'
      have hlength : (rest.take entry.size).length = entry.size := by
        rw [List.length_take, Nat.min_eq_left hsize]
      obtain ⟨_, _, hrun, _⟩ := draining_full finish state hbuffer hlink
        hat hlength
      obtain ⟨_, _, hrun', _⟩ := draining_full finish state hbuffer hlink
        hat' hlength
      rw [hrun, hrun']
    · rw [draining_short hbuffer hlink hat (by omega), draining_short hbuffer hlink hat' (by omega)]

end AgentSdk.Tar
