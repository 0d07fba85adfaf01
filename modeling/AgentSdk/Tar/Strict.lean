import AgentSdk.Tar.Archive

/-!
# Strict reading, whatever the chunks

## Main results

* `readTar_quota` — a run over a source above the quota fails.
* `readLoop_coupled` — two cuts of the same bytes are read alike.
* `Archive.members` — an archive is a sequence of members and a zero trailer.
* `export_reader_strict` — what the export reader promises.
-/

namespace AgentSdk.Tar

open AgentSdk.Text AgentSdk.Sandbox

variable {σ : Type} {options : TarOptions} {consume : σ → TarOutputEntry → Callback σ}

/-! ### The quota -/

/-- What was received and what the source still has make the whole source, and
the quota is kept so far. -/
structure Metered (options : TarOptions) (total : Nat) (reader : TarReader) : Prop where
  total_eq : reader.received + reader.source.flatten.length = total
  quota : options.exceeded reader.received = false
  ended : reader.ended = true → reader.source = []

theorem Metered.start (source : List Bytes) :
    Metered options source.flatten.length (TarReader.start source) := by
  refine ⟨by simp [TarReader.start], ?_, fun h => Bool.noConfusion h⟩
  unfold TarOptions.exceeded
  cases options.maxArchiveBytes <;> simp [TarReader.start]

variable {size total : Nat} {reader reader' : TarReader} {state : σ} {α : Type}
  {source : List Bytes} {s s' : Session σ} {entry : TarOutputEntry} {header : TarHeader}
  {pending : Option PaxMetadata}

theorem pull_metered (source : List Bytes) :
    ∀ {reader reader' : TarReader}, reader.source = source → Metered options total reader →
      pull options source reader = (.ok (), reader') → Metered options total reader' := by
  induction source with
  | nil =>
    intro reader reader' hsource h hpull
    cases hpull
    exact ⟨by simpa [hsource] using h.total_eq, h.quota, fun _ => rfl⟩
  | cons chunk source ih =>
    intro reader reader' hsource h hpull
    have htotal := h.total_eq
    rw [hsource, List.flatten_cons, List.length_append] at htotal
    have hopen : reader.ended = true → source = [] := by
      intro hended
      have hempty := h.ended hended
      rw [hsource] at hempty
      cases hempty
    rw [pull] at hpull
    split at hpull
    · cases hpull
    · split at hpull
      · cases hpull
      · rename_i hquota
        split at hpull
        · exact ih rfl ⟨by dsimp only; omega, by simpa using hquota, hopen⟩ hpull
        · cases hpull
          exact ⟨by dsimp only; omega, by simpa using hquota, hopen⟩

theorem hand_metered {maximum : Nat} {chunk : Option Bytes} (h : Metered options total reader)
    (hhand : hand maximum reader = (.ok chunk, reader')) :
    Metered options total reader' ∧ (chunk = none → reader'.ended = true) := by
  unfold hand at hhand
  split at hhand
  · rename_i hended
    cases hhand
    exact ⟨h, fun _ => hended⟩
  · cases hhand
    exact ⟨⟨h.total_eq, h.quota, h.ended⟩, fun hnone => by cases hnone⟩

theorem take_metered {maximum : Nat} {chunk : Option Bytes} (h : Metered options total reader)
    (htake : take options maximum reader = (.ok chunk, reader')) :
    Metered options total reader' ∧ (chunk = none → reader'.ended = true) := by
  unfold take at htake
  split at htake
  · cases hpull : pull options reader.source reader with
    | mk result pulled =>
      rw [hpull] at htake
      cases result with
      | error e => cases htake
      | ok _ => exact hand_metered (pull_metered reader.source rfl h hpull) htake
  · exact hand_metered h htake

theorem take_keeps (total maximum : Nat) :
    Stateful.Keeps (Metered options total) (take options maximum) := fun _ _ _ hrun h =>
  (take_metered h hrun).1

theorem exactLoop_keeps (total size : Nat) (eofAllowed : Bool) (rounds : Nat) :
    ∀ result, Stateful.Keeps (Metered options total)
      (exactLoop options size eofAllowed rounds result) := by
  induction rounds with
  | zero =>
    intro result
    rw [exactLoop]
    split
    · exact .pure _
    · exact .throw _
  | succ rounds ih =>
    intro result
    rw [exactLoop]
    split
    · exact .pure _
    · refine .bind (take_keeps total _) ?_
      intro chunk
      cases chunk with
      | none =>
        dsimp only
        split
        · exact .pure _
        · exact .throw _
      | some chunk => exact ih _

/-- Only at the end of the source does reading return nothing. -/
theorem exactLoop_ended {eofAllowed : Bool} (rounds : Nat) :
    ∀ {result : Bytes} {reader reader' : TarReader}, Metered options total reader →
      exactLoop options size eofAllowed rounds result reader = (.ok none, reader') →
      reader'.ended = true := by
  induction rounds with
  | zero =>
    intro result reader reader' _ hrun
    rw [exactLoop] at hrun
    split at hrun <;> cases hrun
  | succ rounds ih =>
    intro result reader reader' h hrun
    rw [exactLoop] at hrun
    split at hrun
    · cases hrun
    · obtain ⟨chunk, t, htake, hrun⟩ := Stateful.ok_of_bind hrun
      obtain ⟨ht, hended⟩ := take_metered h htake
      cases chunk with
      | none =>
        dsimp only at hrun
        split at hrun
        · cases hrun
          exact hended rfl
        · cases hrun
      | some chunk => exact ih ht hrun

theorem required_keeps (total size : Nat) :
    Stateful.Keeps (Metered options total) (required options size) := by
  refine .bind (exactLoop_keeps total size false size []) ?_
  intro block
  cases block with
  | none => exact .throw _
  | some block => exact .pure _

theorem zeroesLoop_keeps (total rounds : Nat) :
    ∀ size, Stateful.Keeps (Metered options total) (zeroesLoop options rounds size) := by
  induction rounds with
  | zero =>
    intro size
    rw [zeroesLoop]
    split
    · exact .pure _
    · exact .throw _
  | succ rounds ih =>
    intro size
    rw [zeroesLoop]
    split
    · exact .pure _
    · refine .bind (take_keeps total _) ?_
      intro chunk
      cases chunk with
      | none => exact .throw _
      | some chunk => exact .bind (.refuseIf _ _) fun _ => ih _

theorem trailerLoop_ended (rounds : Nat) :
    ∀ {trailerBytes : Nat} {reader reader' : TarReader}, Metered options total reader →
      trailerLoop options rounds trailerBytes reader = (.ok (), reader') →
      Metered options total reader' ∧ reader'.ended = true := by
  induction rounds with
  | zero =>
    intro trailerBytes reader reader' _ hrun
    cases hrun
  | succ rounds ih =>
    intro trailerBytes reader reader' h hrun
    rw [trailerLoop] at hrun
    obtain ⟨block, t, hexact, hrun⟩ := Stateful.ok_of_bind hrun
    have ht := exactLoop_keeps total blockBytes true blockBytes [] _ _ _ hexact h
    cases block with
    | none =>
      cases hrun
      exact ⟨ht, exactLoop_ended blockBytes h hexact⟩
    | some trailing =>
      obtain ⟨_, hrun⟩ := Stateful.ok_of_refuseIf hrun
      obtain ⟨_, hrun⟩ := Stateful.ok_of_refuseIf hrun
      exact ih ht hrun

/-- As long as nothing failed, the quota is kept. -/
def MeteredBody (options : TarOptions) (total : Nat) (body : EntryBody) : Prop :=
  body.failure = none → Metered options total body.reader

theorem MeteredBody.note (body : EntryBody) (error : TarError) (origin : Origin) :
    MeteredBody options total (body.note error origin) := by
  intro hnone
  simp [EntryBody.note] at hnone

theorem MeteredBody.settlePull {body : EntryBody} (h : MeteredBody options total body) :
    MeteredBody options total (settlePull options body).2 := by
  unfold Tar.settlePull
  dsimp only
  split
  · exact h
  · split
    · exact MeteredBody.note _ _ _
    · rename_i chunk reader htake
      split
      · exact MeteredBody.note _ _ _
      · split
        · exact MeteredBody.note _ _ _
        · intro hnone
          exact (take_metered (h hnone) htake).1

theorem MeteredBody.run {body : EntryBody} (callback : Callback σ)
    (h : MeteredBody options total body) :
    MeteredBody options total (callback.run options body).2 :=
  callback.run_keeps MeteredBody.note (fun _ => MeteredBody.settlePull) (fun _ _ _ _ h => h) body h

theorem consumeTarEntry_metered {callback : Callback σ} (h : Metered options total reader)
    (hresult : (consumeTarEntry options callback size reader).result = .ok state) :
    Metered options total (consumeTarEntry options callback size reader).reader := by
  have hbody : MeteredBody options total (EntryBody.start reader size) := fun _ => h
  have hran := hbody.run callback
  unfold consumeTarEntry at hresult ⊢
  dsimp only at hresult ⊢
  obtain ⟨_, hfailure, hpending, _⟩ := settled_ok hresult
  rw [if_neg (by simp [hpending])] at hfailure ⊢
  exact hran hfailure

/-- The quota, in the state of a run. -/
def MeteredSession (options : TarOptions) (total : Nat) (s : Session σ) : Prop :=
  Metered options total s.reader

theorem onReader_keeps {m : ReaderM α} (h : Stateful.Keeps (Metered options total) m) :
    Stateful.Keeps (MeteredSession options total) (onReader m : TarM σ α) :=
  Stateful.Keeps.zoom (fun _ _ => rfl) h

theorem session_keeps (total : Nat) :
    Stateful.Keeps (MeteredSession options total) (session : TarM σ (Session σ)) := by
  intro s a s' h hI
  cases h
  exact hI

theorem update_keeps {change : Session σ → Session σ}
    (hreader : ∀ s, (change s).reader = s.reader) :
    Stateful.Keeps (MeteredSession options total) (update change) := by
  intro s a s' h hI
  cases h
  rw [MeteredSession, hreader]
  exact hI

theorem deliverLink_keeps (total : Nat) (entry : TarOutputEntry) :
    Stateful.Keeps (MeteredSession options total) (deliverLink options consume entry) := by
  intro s a s' h hI
  obtain ⟨state, rfl⟩ := deliverLink_inv h
  exact hI

theorem deliverBody_keeps (total : Nat) (entry : TarOutputEntry) :
    Stateful.Keeps (MeteredSession options total) (deliverBody options consume entry) := by
  intro s a s' h hI
  unfold deliverBody at h
  dsimp only at h
  split at h
  · cases h
  · rename_i state hresult
    cases h
    exact consumeTarEntry_metered hI hresult

theorem readPax_keeps (total : Nat) (header : TarHeader) :
    Stateful.Keeps (MeteredSession options total) (readPax (σ := σ) options header) :=
  .bind (session_keeps total) fun _ => .bind (.refuseIf _ _) fun _ =>
    .bind (onReader_keeps (required_keeps total _)) fun _ => .bind (.lift _) fun _ =>
      .bind (update_keeps fun _ => rfl) fun _ => onReader_keeps (zeroesLoop_keeps total _ _)

theorem count_reader (s : Session σ) (kind : EntryKind) : (s.count kind).reader = s.reader := by
  cases kind <;> rfl

theorem readEntry_keeps (total : Nat) (header : TarHeader) :
    Stateful.Keeps (MeteredSession options total) (readEntry options consume header) := by
  have hbehind : Stateful.Keeps (MeteredSession options total) (do
      update fun s => { s with payloadBytes := s.payloadBytes + header.size }
      onReader (zeroes options (padding header.size))
      update fun s => s.count header.kind : TarM σ Unit) :=
    .bind (update_keeps fun _ => rfl) fun _ => .bind (onReader_keeps (zeroesLoop_keeps total _ _))
      fun _ => update_keeps fun s => count_reader s _
  refine .bind (session_keeps total) fun _ => .bind (.lift _) fun _ => .bind (.refuseIf _ _) fun _ =>
    .bind (update_keeps fun _ => rfl) fun _ => ?_
  split
  · exact .bind (.refuseIf _ _) fun _ => .bind (.lift _) fun _ =>
      .bind (deliverLink_keeps total _) fun _ => hbehind
  · exact .bind (deliverBody_keeps total _) fun _ => hbehind

/-- A successful loop received the whole source, within the quota. -/
theorem readLoop_quota (rounds : Nat) :
    ∀ {s s' : Session σ} {summary : TarSummary}, MeteredSession options total s →
      readLoop options consume rounds s = (.ok summary, s') → options.exceeded total = false := by
  induction rounds with
  | zero =>
    intro s s' summary _ h
    cases h
  | succ rounds ih =>
    intro s s' summary hmetered h
    rw [readLoop] at h
    obtain ⟨block, t, hblock, h⟩ := Stateful.ok_of_bind h
    have ht := onReader_keeps (required_keeps total blockBytes) _ _ _ hblock hmetered
    split at h
    · rw [readTrailer, session_bind] at h
      obtain ⟨_, h⟩ := Stateful.ok_of_refuseIf h
      obtain ⟨⟨⟩, u, hsecond, h⟩ := Stateful.ok_of_bind h
      have hu := onReader_keeps (zeroesLoop_keeps total _ _) _ _ _ hsecond ht
      obtain ⟨⟨⟩, reader, htrailer, _⟩ := onReader_ok h
      obtain ⟨hdone, hended⟩ := trailerLoop_ended _ hu htrailer
      have htotal := hdone.total_eq
      rw [hdone.ended hended] at htotal
      rw [← htotal]
      exact hdone.quota
    · obtain ⟨header, _, h⟩ := Stateful.ok_of_lift h
      split at h
      · obtain ⟨⟨⟩, u, hpax, h⟩ := Stateful.ok_of_bind h
        exact ih (readPax_keeps total header _ _ _ hpax ht) h
      · obtain ⟨⟨⟩, u, hentry, h⟩ := Stateful.ok_of_bind h
        exact ih (readEntry_keeps total header _ _ _ hentry ht) h

/-- A run over a source above the quota fails. -/
theorem readTar_quota {summary : TarSummary}
    (h : (readTar options consume state source).2 = .ok summary) :
    options.exceeded source.flatten.length = false := by
  have hstart : MeteredSession options source.flatten.length (Session.start state source) :=
    Metered.start source
  exact readLoop_quota _ hstart (Prod.ext h rfl)


/-! ### Two cuts of the same bytes -/

/-- Two readers have the same bytes left. -/
def Same (options : TarOptions) (reader reader' : TarReader) : Prop :=
  ∃ rest n, At options reader rest n ∧ At options reader' rest n

/-- Readers that are coupled end with the same bytes left, when they succeed. -/
abbrev CoupledReaders {α : Type} (options : TarOptions) :
    Except TarError α × TarReader → Except TarError α × TarReader → Prop :=
  Stateful.Coupled (Same options) fun _ _ => True

theorem exact_coupled {eofAllowed : Bool} (h : Same options reader reader') :
    CoupledReaders options (exact options size eofAllowed reader)
      (exact options size eofAllowed reader') := by
  obtain ⟨rest, n, hat, hat'⟩ := h
  obtain ⟨left, hrun, hnext⟩ := exact_run size eofAllowed hat
  obtain ⟨left', hrun', hnext'⟩ := exact_run size eofAllowed hat'
  rw [hrun, hrun']
  cases hresult : exactResult size eofAllowed rest with
  | error e => exact .error trivial
  | ok block => exact .ok ⟨_, _, hnext block hresult, hnext' block hresult⟩

theorem required_coupled (h : Same options reader reader') :
    CoupledReaders options (required options size reader) (required options size reader') := by
  refine (exact_coupled h).bind ?_
  intro block s t hst
  cases block with
  | none => exact .error trivial
  | some block => exact .ok hst

theorem zeroes_coupled (h : Same options reader reader') :
    CoupledReaders options (zeroes options size reader) (zeroes options size reader') := by
  obtain ⟨rest, n, hat, hat'⟩ := h
  obtain ⟨left, hrun, hnext⟩ := zeroes_run size hat
  obtain ⟨left', hrun', hnext'⟩ := zeroes_run size hat'
  rw [hrun, hrun']
  cases hresult : zeroesResult size rest with
  | error e => exact .error trivial
  | ok _ => exact .ok ⟨_, _, hnext hresult, hnext' hresult⟩

theorem trailerLoop_coupled (rounds : Nat) :
    ∀ {trailerBytes : Nat} {reader reader' : TarReader}, Same options reader reader' →
      CoupledReaders options (trailerLoop options rounds trailerBytes reader)
        (trailerLoop options rounds trailerBytes reader') := by
  induction rounds with
  | zero =>
    intro _ reader reader' _
    exact .error trivial
  | succ rounds ih =>
    intro trailerBytes reader reader' h
    refine (exact_coupled h).bind ?_
    intro block s t hst
    cases block with
    | none => exact .ok hst
    | some trailing =>
      exact (Stateful.Coupled.refuseIf _ _ hst trivial).bind fun _ _ _ hst =>
        (Stateful.Coupled.refuseIf _ _ hst trivial).bind fun _ _ _ hst => ih hst

/-- Two runs have the same bytes left and delivered the same entries with the
same bodies. -/
def SameSession (options : TarOptions) (s s' : Session σ) : Prop :=
  ∃ reader log, s' = { s with reader, log } ∧ Same options s.reader reader ∧
    s.log.map Delivery.whole = log.map Delivery.whole

/-- Two runs delivered the same entries, and but for the last one the same bodies. -/
def SameLog (s s' : Session σ) : Prop :=
  s.log.map Delivery.entry = s'.log.map Delivery.entry ∧
    s.log.dropLast.map Delivery.whole = s'.log.dropLast.map Delivery.whole

theorem entries_of_whole {log log' : List Delivery}
    (h : log.map Delivery.whole = log'.map Delivery.whole) :
    log.map Delivery.entry = log'.map Delivery.entry := by
  have hentry := congrArg (List.map Delivered.entry) h
  rw [List.map_map, List.map_map] at hentry
  exact hentry

theorem SameLog.of_whole (h : s.log.map Delivery.whole = s'.log.map Delivery.whole) :
    SameLog s s' := by
  refine ⟨entries_of_whole h, ?_⟩
  rw [List.map_dropLast, List.map_dropLast]
  exact congrArg List.dropLast h

theorem SameSession.log (h : SameSession options s s') : SameLog s s' := by
  obtain ⟨reader, log, rfl, _, hlog⟩ := h
  exact .of_whole hlog

/-- One more entry with a body of its own in each run. -/
theorem SameLog.snoc {log log' : List Delivery} {pieces pieces' : List Bytes}
    (h : log.map Delivery.whole = log'.map Delivery.whole) (hs : s.log = log ++ [⟨entry, pieces⟩])
    (hs' : s'.log = log' ++ [⟨entry, pieces'⟩]) : SameLog s s' := by
  refine ⟨?_, ?_⟩
  · rw [hs, hs', List.map_append, List.map_append, entries_of_whole h]
    rfl
  · rw [hs, hs', List.dropLast_concat, List.dropLast_concat, h]

/-- Runs that are coupled end alike. -/
abbrev CoupledRuns {α : Type} (options : TarOptions) :
    Except TarError α × Session σ → Except TarError α × Session σ → Prop :=
  Stateful.Coupled (SameSession options) SameLog

theorem onReader_coupled {m : ReaderM α} (h : SameSession options s s')
    (hm : ∀ {reader reader'}, Same options reader reader' →
      CoupledReaders options (m reader) (m reader')) :
    CoupledRuns options (onReader m s) (onReader m s') := by
  obtain ⟨reader, log, rfl, hsame, hlog⟩ := h
  have hrun := hm hsame
  show CoupledRuns options ((m s.reader).1, { s with reader := (m s.reader).2 })
    ((m reader).1, { s with reader := (m reader).2, log })
  cases hleft : m s.reader with
  | mk result left =>
    cases hright : m reader with
    | mk result' right =>
      rw [hleft, hright] at hrun
      cases hrun with
      | ok hst => exact .ok ⟨right, log, rfl, hst, hlog⟩
      | error _ => exact .error (.of_whole hlog)

theorem update_coupled {change : Session σ → Session σ} (h : SameSession options s s')
    (hchange : ∀ (t : Session σ) reader log,
      change { t with reader, log } = { change t with reader, log }) :
    CoupledRuns options (update change s) (update change s') := by
  obtain ⟨reader, log, rfl, hsame, hlog⟩ := h
  have hself := hchange s s.reader s.log
  have hreaderEq := congrArg Session.reader hself
  have hlogEq := congrArg Session.log hself
  refine .ok ⟨reader, log, hchange s reader log, ?_, ?_⟩
  · rw [show (change s).reader = s.reader from hreaderEq]
    exact hsame
  · rw [show (change s).log = s.log from hlogEq]
    exact hlog

/-- Both runs have the same records pending. -/
theorem SameSession.pendingPax (h : SameSession options s s') : s'.pendingPax = s.pendingPax := by
  obtain ⟨reader, log, rfl, _, _⟩ := h
  rfl

theorem deliverLink_coupled (h : SameSession options s s') :
    CoupledRuns options (deliverLink options consume entry s)
      (deliverLink options consume entry s') := by
  obtain ⟨reader, log, rfl, hsame, hlog⟩ := h
  unfold deliverLink
  dsimp only
  split
  · exact .error (SameLog.snoc hlog rfl rfl)
  · refine .ok ⟨reader, _, rfl, hsame, ?_⟩
    rw [List.map_append, List.map_append, hlog]

/-- A callback that does not see the chunks couples the two runs. -/
theorem deliverBody_coupled (hblind : ChunkBlind options consume) (h : SameSession options s s') :
    CoupledRuns options (deliverBody options consume entry s)
      (deliverBody options consume entry s') := by
  obtain ⟨reader, log, rfl, ⟨rest, n, hat, hat'⟩, hlog⟩ := h
  have hresult := hblind s.state entry s.reader reader rest n hat hat'
  unfold deliverBody
  dsimp only
  rw [← hresult]
  cases hconsumed : (consumeTarEntry options (consume s.state entry) entry.size s.reader).result with
  | error e => exact .error (SameLog.snoc hlog rfl rfl)
  | ok state =>
    obtain ⟨later, hrest, hlength, hleft⟩ := consumeTarEntry_drained hat hconsumed
    obtain ⟨later', hrest', hlength', hleft'⟩ :=
      consumeTarEntry_drained hat' (hresult ▸ hconsumed)
    obtain ⟨hpieces, hlater⟩ :=
      List.append_inj (hrest.symm.trans hrest') (hlength.trans hlength'.symm)
    refine .ok ⟨_, _, rfl, ⟨later, n + entry.size, hleft, ?_⟩, ?_⟩
    · rw [hlater]
      exact hleft'
    · rw [List.map_append, List.map_append, hlog, List.map_singleton, List.map_singleton,
        Delivery.whole, Delivery.whole, hpieces]

theorem readPax_coupled (h : SameSession options s s') :
    CoupledRuns options (readPax options header s) (readPax options header s') := by
  rw [readPax, session_bind, session_bind, h.pendingPax]
  exact (Stateful.Coupled.refuseIf _ _ h h.log).bind fun _ _ _ h =>
    (onReader_coupled h required_coupled).bind fun _ _ _ h =>
      (Stateful.Coupled.lift _ h h.log).bind fun _ _ _ h =>
        (update_coupled h (by intros; rfl)).bind fun _ _ _ h =>
          onReader_coupled h zeroes_coupled

theorem readEntry_coupled (hblind : ChunkBlind options consume) (h : SameSession options s s') :
    CoupledRuns options (readEntry options consume header s)
      (readEntry options consume header s') := by
  have hbehind : ∀ {t t' : Session σ}, SameSession options t t' →
      CoupledRuns options
        ((do
          update fun s => { s with payloadBytes := s.payloadBytes + header.size }
          onReader (zeroes options (padding header.size))
          update fun s => s.count header.kind : TarM σ Unit) t)
        ((do
          update fun s => { s with payloadBytes := s.payloadBytes + header.size }
          onReader (zeroes options (padding header.size))
          update fun s => s.count header.kind : TarM σ Unit) t') := fun ht =>
    (update_coupled ht (by intros; rfl)).bind fun _ _ _ ht =>
      (onReader_coupled ht zeroes_coupled).bind fun _ _ _ ht =>
        update_coupled ht (by intros; cases header.kind <;> rfl)
  rw [readEntry, session_bind, session_bind, h.pendingPax]
  refine (Stateful.Coupled.lift _ h h.log).bind fun _ _ _ h =>
    (Stateful.Coupled.refuseIf _ _ h h.log).bind fun _ _ _ h =>
      (update_coupled h (by intros; rfl)).bind fun _ _ _ h => ?_
  split
  · exact (Stateful.Coupled.refuseIf _ _ h h.log).bind fun _ _ _ h =>
      (Stateful.Coupled.lift _ h h.log).bind fun _ _ _ h =>
        (deliverLink_coupled h).bind fun _ _ _ h => hbehind h
  · exact (deliverBody_coupled hblind h).bind fun _ _ _ h => hbehind h

theorem readTrailer_coupled (h : SameSession options s s') :
    CoupledRuns options (readTrailer options s) (readTrailer options s') := by
  rw [readTrailer, session_bind, session_bind, h.pendingPax]
  refine (Stateful.Coupled.refuseIf _ _ h h.log).bind fun _ _ _ h =>
    (onReader_coupled h zeroes_coupled).bind fun _ _ _ h =>
      (onReader_coupled h (trailerLoop_coupled _)).bind fun _ t t' h => ?_
  rw [session_bind, session_bind]
  obtain ⟨reader, log, rfl, ⟨rest, n, hat, hat'⟩, hlog⟩ := h
  rw [hat.bytes_eq, hat'.bytes_eq]
  exact .ok ⟨reader, log, rfl, ⟨rest, n, hat, hat'⟩, hlog⟩

/-- Two cuts of the same bytes are read alike. -/
theorem readLoop_coupled (hblind : ChunkBlind options consume) (rounds : Nat) :
    ∀ {s s' : Session σ}, SameSession options s s' →
      CoupledRuns options (readLoop options consume rounds s)
        (readLoop options consume rounds s') := by
  induction rounds with
  | zero =>
    intro s s' h
    exact .error h.log
  | succ rounds ih =>
    intro s s' h
    refine (onReader_coupled h required_coupled).bind fun block _ _ h => ?_
    split
    · exact readTrailer_coupled h
    · refine (Stateful.Coupled.lift _ h h.log).bind fun header _ _ h => ?_
      split
      · exact (readPax_coupled h).bind fun _ _ _ h => ih h
      · exact (readEntry_coupled hblind h).bind fun _ _ _ h => ih h


/-! ### What a stream is made of -/

/-- A member of an archive: the records in front of its header, which are a
header block and their data, then its own header block and its payload. -/
structure Member where
  records : Option (Bytes × Bytes)
  block : Bytes
  payload : Bytes

/-- Data up to the end of its last block. -/
def padded (bytes : Bytes) : Bytes := bytes ++ List.replicate (padding bytes.length) 0

def recordBytes : Option (Bytes × Bytes) → Bytes
  | none => []
  | some (block, data) => block ++ padded data

def Member.bytes (m : Member) : Bytes := recordBytes m.records ++ (m.block ++ padded m.payload)

/-- A header block that is accepted, and what makes it well formed. -/
structure HeaderBlock (block : Bytes) (header : TarHeader) : Prop where
  length : block.length = blockBytes
  parsed : parseHeader block = .ok header
  ustar : Ustar block header

/-- What the records in front of a header say. -/
inductive Recorded : Option (Bytes × Bytes) → Option PaxMetadata → Prop
  | none : Recorded none none
  | some {block data : Bytes} {header : TarHeader} {metadata : PaxMetadata}
      (hblock : HeaderBlock block header) (hkind : header.kind = .pax) (hpos : header.size ≠ 0)
      (hbound : header.size ≤ maxPaxBytes) (hdata : data.length = header.size)
      (hpax : parsePax data = .ok metadata) : Recorded (some (block, data)) (some metadata)

/-- A member holds an entry and its body. -/
structure Member.Holds (options : TarOptions) (m : Member) (delivered : Delivered) : Prop where
  opened : ∃ pending header, Recorded m.records pending ∧ HeaderBlock m.block header ∧
    Opens options pending header delivered.entry ∧ m.payload.length = header.size
  payload : delivered.body = m.payload

/-- Every byte of a stream belongs to a member or to the zero trailer. -/
def Accounted (options : TarOptions) (stream : Bytes) (members : List Member)
    (delivered : List Delivered) : Prop :=
  List.Forall₂ (Member.Holds options) members delivered ∧
    ∃ blocks, 2 ≤ blocks ∧ blocks * blockBytes ≤ maxTrailerBytes ∧
      stream = members.flatMap Member.bytes ++ List.replicate (blocks * blockBytes) 0

theorem HeaderBlock.of {block : Bytes} (hlength : block.length = blockBytes)
    (h : parseHeader block = .ok header) : HeaderBlock block header :=
  ⟨hlength, h, parseHeader_ustar h⟩

/-- An archive is a sequence of members and a trailer.  Records that are pending
at its start belong to its first member. -/
theorem Archive.members {rest : Bytes} {entries : List Delivered}
    (h : Archive options pending rest entries) :
    ∀ {records : Option (Bytes × Bytes)}, Recorded records pending →
      ∃ members, Accounted options (recordBytes records ++ rest) members entries := by
  induction h with
  | trailer htwo hbound =>
    intro records hrecords
    cases hrecords
    exact ⟨[], .nil, _, htwo, hbound, rfl⟩
  | @pax block data rest header metadata entries hblock hheader hkind hpos hbound hdata hpax _ ih =>
    intro records hrecords
    cases hrecords
    obtain ⟨members, hholds, blocks, htwo, hblocks, heq⟩ :=
      ih (.some (.of hblock hheader) hkind hpos hbound hdata hpax)
    refine ⟨members, hholds, blocks, htwo, hblocks, ?_⟩
    rw [← heq, recordBytes, recordBytes, padded, hdata]
    simp only [List.nil_append, List.append_assoc]
  | @entry pending block payload rest header entry entries hblock hheader hopens hpayload _ ih =>
    intro records hrecords
    obtain ⟨members, hholds, blocks, htwo, hblocks, heq⟩ := ih .none
    refine ⟨⟨records, block, payload⟩ :: members, .cons ?_ hholds, blocks, htwo, hblocks, ?_⟩
    · exact ⟨⟨pending, header, hrecords, .of hblock hheader, hopens, hpayload⟩, rfl⟩
    · rw [List.flatMap_cons, List.append_assoc, ← heq, Member.bytes, recordBytes, padded,
        hpayload]
      simp only [List.nil_append, List.append_assoc]

/-- What a successful run read is accounted for, and counted. -/
theorem readTar_accounted {summary : TarSummary}
    (hchunks : ∀ chunk ∈ source, chunk.length ≤ options.chunkBytes)
    (h : (readTar options consume state source).2 = .ok summary) :
    ∃ members, Accounted options source.flatten members
        ((readTar options consume state source).1.map Delivery.whole) ∧
      summary = (Session.start state source).total
        ((readTar options consume state source).1.map Delivery.whole) source.flatten.length := by
  have hstart := At.start hchunks (readTar_quota h)
  obtain ⟨deliveries, hlog, harchive, hsummary⟩ := readLoop_archive
    (s := Session.start state source) _ hstart (Prod.ext h rfl)
  have hdelivered : (readTar options consume state source).1 = deliveries := by
    rw [readTar, hlog]
    rfl
  obtain ⟨members, haccounted⟩ := harchive.members .none
  rw [hdelivered]
  refine ⟨members, haccounted, ?_⟩
  rw [hsummary, Nat.zero_add]

/-! ### What decides a delivery -/

/-- The path and the link target that records give. -/
def PaxMetadata.names (pending : Option PaxMetadata) : Option JsString × Option JsString :=
  (pending.bind PaxMetadata.path, pending.bind PaxMetadata.linkpath)

def Member.names (m : Member) : Option JsString × Option JsString :=
  PaxMetadata.names (m.records.bind fun records => (parsePax records.2).toOption)

/-- Two members agree in their payloads, in the visible fields of their headers
and in the names their records give. -/
structure Member.SameVisible (m m' : Member) : Prop where
  payload : m.payload = m'.payload
  fields : ∀ range ∈ visibleFields, slice m.block range.1 range.2 = slice m'.block range.1 range.2
  names : m.names = m'.names

theorem Recorded.names {m : Member} (h : Recorded m.records pending) :
    m.names = PaxMetadata.names pending := by
  unfold Member.names
  cases hrecords : m.records with
  | none =>
    rw [hrecords] at h
    cases h
    rfl
  | some records =>
    rw [hrecords] at h
    cases h with
    | some hblock hkind hpos hbound hdata hpax =>
      simp [hpax, Except.toOption]

/-- A header and the names of the records in front of it determine the entry. -/
theorem Opens.unique {pending' : Option PaxMetadata} {entry' : TarOutputEntry}
    (h : Opens options pending header entry) (h' : Opens options pending' header entry')
    (hnames : PaxMetadata.names pending = PaxMetadata.names pending') : entry = entry' := by
  obtain ⟨hpath, hlink⟩ := Prod.mk.inj hnames
  have hpathEq := h.path
  rw [hpath, h'.path] at hpathEq
  have hcontent := h.content
  have hcontent' := h'.content
  have hcontentEq : entry.content = entry'.content := by
    cases hkind : header.kind with
    | file =>
      rw [hkind] at hcontent hcontent'
      exact (show entry.content = .file from hcontent).trans hcontent'.symm
    | directory =>
      rw [hkind] at hcontent hcontent'
      exact (show entry.content = .directory from hcontent).trans hcontent'.symm
    | symlink =>
      rw [hkind] at hcontent hcontent'
      obtain ⟨_, target, htarget, hentry⟩ := hcontent
      obtain ⟨_, target', htarget', hentry'⟩ := hcontent'
      rw [hlink, htarget'] at htarget
      rw [hentry, hentry', Except.ok.inj htarget]
    | pax =>
      rw [hkind] at hcontent
      exact absurd hcontent id
  have hsize := h.size.trans h'.size.symm
  have hmode := h.mode.trans h'.mode.symm
  obtain ⟨path, size, mode, content⟩ := entry
  obtain ⟨path', size', mode', content'⟩ := entry'
  simp only [TarOutputEntry.mk.injEq]
  exact ⟨(Except.ok.inj hpathEq).symm, hsize, hmode, hcontentEq⟩

/-- Members that agree in what is visible deliver the same. -/
theorem Member.SameVisible.delivered_eq {m m' : Member} (h : m.SameVisible m')
    {delivered delivered' : Delivered} (hm : m.Holds options delivered)
    (hm' : m'.Holds options delivered') : delivered = delivered' := by
  obtain ⟨pending, header, hrecords, hblock, hopens, _⟩ := hm.opened
  obtain ⟨pending', header', hrecords', hblock', hopens', _⟩ := hm'.opened
  obtain rfl := parseHeader_visible hblock.parsed hblock'.parsed h.fields
  have hnames := h.names
  rw [hrecords.names, hrecords'.names] at hnames
  have hentry := hopens.unique hopens' hnames
  have hbody := hm.payload.trans (h.payload.trans hm'.payload.symm)
  obtain ⟨entry, body⟩ := delivered
  obtain ⟨entry', body'⟩ := delivered'
  simp only [Delivered.mk.injEq]
  exact ⟨hentry, hbody⟩

/-- Streams whose members agree in what is visible deliver the same. -/
theorem Accounted.delivered_eq {stream stream' : Bytes} {members members' : List Member}
    {delivered delivered' : List Delivered} (h : Accounted options stream members delivered)
    (h' : Accounted options stream' members' delivered')
    (hvisible : List.Forall₂ Member.SameVisible members members') : delivered = delivered' := by
  have hholds := h.1
  have hholds' := h'.1
  clear h h'
  induction hvisible generalizing delivered delivered' with
  | nil =>
    cases hholds
    cases hholds'
    rfl
  | cons hsame _ ih =>
    cases hholds with
    | cons hfirst hrest =>
      cases hholds' with
      | cons hfirst' hrest' => rw [hsame.delivered_eq hfirst hfirst', ih hrest hrest']

/-! ### The export reader -/

/-- Two cuts of the same bytes end alike. -/
theorem readTar_cut (hblind : ChunkBlind options consume) (state : σ) {source' : List Bytes}
    (hchunks : ∀ chunk ∈ source, chunk.length ≤ options.chunkBytes)
    (hchunks' : ∀ chunk ∈ source', chunk.length ≤ options.chunkBytes)
    (hflat : source'.flatten = source.flatten)
    (hquota : options.exceeded source.flatten.length = false) :
    CoupledRuns options
      (readLoop options consume (source.flatten.length + 1) (Session.start state source))
      (readLoop options consume (source'.flatten.length + 1) (Session.start state source')) := by
  have hat := At.start hchunks hquota
  have hat' := At.start hchunks' (hflat ▸ hquota)
  rw [hflat] at hat' ⊢
  exact readLoop_coupled hblind _
    ⟨TarReader.start source', [], rfl, ⟨source.flatten, 0, hat, hat'⟩, rfl⟩

theorem SameLog.of_coupled {x y : Except TarError α × Session σ} (h : CoupledRuns options x y) :
    SameLog x.2 y.2 ∧ ∀ a, x.1 = .ok a →
      x.2.log.map Delivery.whole = y.2.log.map Delivery.whole := by
  cases h with
  | ok hsame =>
    refine ⟨hsame.log, ?_⟩
    intro a _
    obtain ⟨reader, log, rfl, _, hlog⟩ := hsame
    exact hlog
  | error hsame => exact ⟨hsame, fun a h => by cases h⟩

theorem isOk_eq_false_of_exceeded (h : options.exceeded source.flatten.length = true) :
    (readTar options consume state source).2.isOk = false := by
  cases hresult : (readTar options consume state source).2 with
  | error e => rfl
  | ok summary =>
    have hkept := readTar_quota hresult
    rw [h] at hkept
    cases hkept

/-- Two cuts of the same bytes succeed alike and, within the quota, deliver the
same; what succeeds is accounted for to the last byte, and decided by what is
visible of its members; delivered paths are safe. -/
theorem export_reader_strict {σ : Type} (options : TarOptions)
    (consume : σ → TarOutputEntry → Callback σ) (state : σ) (source : List Bytes)
    (hchunks : ∀ chunk ∈ source, chunk.length ≤ options.chunkBytes) :
    (ChunkBlind options consume → ∀ source' : List Bytes,
      (∀ chunk ∈ source', chunk.length ≤ options.chunkBytes) →
      source'.flatten = source.flatten →
      (readTar options consume state source').2.isOk =
        (readTar options consume state source).2.isOk ∧
      (options.exceeded source.flatten.length = false →
        (readTar options consume state source').2 = (readTar options consume state source).2 ∧
        (readTar options consume state source').1.map Delivery.entry =
          (readTar options consume state source).1.map Delivery.entry ∧
        (readTar options consume state source').1.dropLast.map Delivery.whole =
          (readTar options consume state source).1.dropLast.map Delivery.whole) ∧
      ((readTar options consume state source).2.isOk →
        (readTar options consume state source').1.map Delivery.whole =
          (readTar options consume state source).1.map Delivery.whole)) ∧
    (∀ summary, (readTar options consume state source).2 = .ok summary →
      summary.archiveBytes = source.flatten.length ∧
      summary = (Session.start state source).total
        ((readTar options consume state source).1.map Delivery.whole) source.flatten.length ∧
      ∃ members, Accounted options source.flatten members
          ((readTar options consume state source).1.map Delivery.whole) ∧
        ∀ (stream' : Bytes) (members' : List Member) (delivered' : List Delivered),
          Accounted options stream' members' delivered' →
          List.Forall₂ Member.SameVisible members members' →
          (readTar options consume state source).1.map Delivery.whole = delivered') ∧
    ∀ delivery ∈ (readTar options consume state source).1,
      ∀ part ∈ delivery.entry.path.text.splitOn slash,
        part ≠ [] ∧ part ≠ js "." ∧ part ≠ js ".." ∧ ∀ u ∈ part, isUnsafe u = false := by
  refine ⟨?_, ?_, ?_⟩
  · intro hblind source' hchunks' hflat
    cases hquota : options.exceeded source.flatten.length with
    | true =>
      have hfails : (readTar options consume state source).2.isOk = false :=
        isOk_eq_false_of_exceeded hquota
      have hfails' : (readTar options consume state source').2.isOk = false :=
        isOk_eq_false_of_exceeded (hflat ▸ hquota)
      rw [hfails, hfails']
      exact ⟨rfl, fun h => Bool.noConfusion h, fun h => Bool.noConfusion h⟩
    | false =>
      have hcoupled := readTar_cut hblind state hchunks hchunks' hflat hquota
      obtain ⟨⟨hentries, hbodies⟩, hwhole⟩ := SameLog.of_coupled hcoupled
      have hresult := hcoupled.result_eq
      refine ⟨congrArg Except.isOk hresult.symm, fun _ => ⟨hresult.symm, hentries.symm,
        hbodies.symm⟩, ?_⟩
      intro hok
      cases hsummary : (readTar options consume state source).2 with
      | error e =>
        rw [hsummary] at hok
        cases hok
      | ok summary => exact (hwhole summary hsummary).symm
  · intro summary hsummary
    obtain ⟨members, haccounted, htotal⟩ := readTar_accounted hchunks hsummary
    refine ⟨by rw [htotal]; rfl, htotal, members, haccounted, ?_⟩
    intro stream' members' delivered' haccounted' hvisible
    exact haccounted.delivered_eq haccounted' hvisible
  · intro delivery _ part hpart
    exact delivery.entry.path.component_safe hpart

/-! ### Small archives -/

/-- A callback that asks for one chunk and is content with it. -/
def pullOnce : Unit → TarOutputEntry → Callback Unit := fun _ _ =>
  .enter fun _ => .next fun _ => .settle fun _ => .finish (.ok ())

/-- A callback that drains every body. -/
def drained : Unit → TarOutputEntry → Callback Unit := recording fun _ _ _ => ()

/-- The header of an entry that is named `a`. -/
def headerOf (kind : EntryKind) (size : Nat) : Bytes :=
  ((makeHeader ⟨js "a", kind, size, 0o644, 0, 0, none⟩).toOption).getD []

def zeros (count : Nat) : Bytes := List.replicate count 0

/-- Options with a quota. -/
def cutOptions (quota : Option Nat) : TarOptions := ⟨2048, quota, .output_limit, true⟩

/-- An archive with a file of two bytes, in one chunk and cut inside its body. -/
def wholeSource : List Bytes := [headerOf .file 2 ++ [1, 2] ++ zeros 1534]

def cutSource : List Bytes := [headerOf .file 2 ++ [1], [2] ++ zeros 1534]

def succeeds (consume : Unit → TarOutputEntry → Callback Unit) (source : List Bytes) : Bool :=
  (readTar (cutOptions none) consume () source).2.isOk

/-- How many entries a draining callback receives under a quota. -/
def receives (quota : Option Nat) (source : List Bytes) : Nat :=
  (readTar (cutOptions quota) drained () source).1.length

/-- The entries that a draining callback receives are files. -/
def receivesFiles (source : List Bytes) : List Bool :=
  (readTar (cutOptions none) drained () source).1.map fun delivery =>
    decide (delivery.entry.content = .file)

theorem drained_blind : ChunkBlind (cutOptions none) drained :=
  draining_blind (fun _ _ _ => .ok ()) (by decide)

/-- Both cuts of the small archive are read, and alike. -/
theorem export_reader_strict_cut :
    succeeds drained wholeSource = true ∧
      (readTar (cutOptions none) drained () cutSource).1.map Delivery.entry =
        (readTar (cutOptions none) drained () wholeSource).1.map Delivery.entry :=
  ⟨by decide +kernel,
    (((export_reader_strict (cutOptions none) drained () wholeSource (by decide +kernel)).1
      drained_blind cutSource (by decide +kernel) (by decide +kernel)).2.1
        (by decide +kernel)).2.1⟩

/-- A callback that pulls once succeeds or fails with the cut; above the quota
the cut decides what was delivered before the failure; and headers that agree in
name, mode, size and target deliver a file or a directory. -/
theorem export_reader_sees_cut :
    (succeeds pullOnce wholeSource = true ∧ succeeds pullOnce cutSource = false) ∧
    (receives (some 600) [headerOf .file 0, zeros 1024] = 1 ∧
      receives (some 600) [headerOf .file 0 ++ zeros 1024] = 0) ∧
    (receivesFiles [headerOf .file 0 ++ zeros 1024] = [true] ∧
      receivesFiles [headerOf .directory 0 ++ zeros 1024] = [false]) :=
  ⟨⟨by decide +kernel, by decide +kernel⟩, ⟨by decide +kernel, by decide +kernel⟩,
    by decide +kernel, by decide +kernel⟩

end AgentSdk.Tar
