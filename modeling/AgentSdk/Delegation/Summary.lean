import AgentSdk.Delegation.Fit
import AgentSdk.Delegation.Tasks

/-!
# The result summary of a run

The text of a run is collected delta by delta, and the summary that the parent will
see is cut after each delta so that it fits its budget together with the references
of the published artifacts.

Each delta is fitted on its own.  When a wide character was left out, the bytes that
are left may still take a narrow character of a later delta, which then stands right
behind the gap.  The summary is the beginning of the text exactly as long as this
does not happen.

## Main results

* `summary_truthful_iff` — when the summary of a run is the beginning of its text.
* `summary_gap` — a run whose summary continues behind a gap.
-/

namespace AgentSdk.Delegation

open AgentSdk.Text AgentSdk.Outcome

/-! ## Outputs -/

/-- What a live run has collected. -/
structure LiveSummary where
  summary : JsString
  truncated : Bool
  references : List ResultReference

/-- A run that has just been dispatched. -/
def LiveSummary.initial : LiveSummary := { summary := [], truncated := false, references := [] }

def RESULT_BYTES : Nat := 8192

/-- The summary as it is measured when a text is fitted: not yet truncated. -/
def LiveSummary.measured (live : LiveSummary) (value : JsString) : ResultSummary :=
  { text := value, truncated := false, references := live.references }

/-- Whether the summary has room for a text. -/
def LiveSummary.fits (live : LiveSummary) (value : JsString) : Result Bool := do
  let bytes ← delegationDataBytes (Data.json (live.measured value))
  pure (decide (bytes ≤ RESULT_BYTES))

def accumulate (live : LiveSummary) (text : JsString) : Result LiveSummary := do
  let candidate := live.summary ++ text
  let bounded ← fitDelegationText candidate live.fits
  pure { live with
    truncated := if bounded ≠ candidate then true else live.truncated
    summary := bounded }

/-- An output of the provider.  For an artifact it carries what the host publishes,
if the host has a publisher. -/
inductive ProviderOutput
  | assistantText (delta : JsString)
  | artifact (published : Option ResultReference)
  | other

/-- The part of `reduceOutput` for the artifacts. -/
def publish (live : LiveSummary) (published : ResultReference) : Result LiveSummary :=
  if live.references.length < 8 then do
    let reference ← parse ResultReference.schema published
    let bytes ← delegationDataBytes (Data.json reference)
    if bytes ≤ 256 then do
      let references := live.references ++ [reference]
      let bytes ← delegationDataBytes (Data.json
        ({ text := live.summary, truncated := live.truncated, references } : ResultSummary))
      if bytes ≤ RESULT_BYTES then pure { live with references }
      else pure { live with truncated := true }
    else pure { live with truncated := true }
  else pure live

/-- The part of `reduceOutput` that changes the summary. -/
def reduceOutput (live : LiveSummary) : ProviderOutput → Result LiveSummary
  | .assistantText delta => accumulate live delta
  | .artifact (some published) => publish live published
  | .artifact none => pure live
  | .other => pure live

/-! ## Runs -/

/-- A run together with all the text that it has received, and whether the summary
was marked because of an artifact. -/
structure Collected where
  live : LiveSummary
  text : JsString
  refused : Bool

def Collected.initial : Collected := { live := .initial, text := [], refused := false }

/-- The assistant text of an output. -/
def ProviderOutput.delta : ProviderOutput → JsString
  | .assistantText delta => delta
  | .artifact _ => []
  | .other => []

def ProviderOutput.isArtifact : ProviderOutput → Bool
  | .artifact _ => true
  | .assistantText _ => false
  | .other => false

/-- One more output. -/
def Collected.step (collected : Collected) (output : ProviderOutput) : Result Collected := do
  let live ← reduceOutput collected.live output
  pure { live
         text := collected.text ++ output.delta
         refused := collected.refused ||
           (output.isArtifact && !collected.live.truncated && live.truncated) }

/-- The outputs of a run, one after the other; an error ends the run. -/
def collect (outputs : List ProviderOutput) : Result Collected :=
  outputs.foldlM Collected.step .initial

/-! ## The measure of a summary -/

/-- The summary has room for a text. -/
def LiveSummary.HasRoom (live : LiveSummary) (value : JsString) : Prop :=
  Json.jsonBytes (Data.json (live.measured value)) ≤ RESULT_BYTES

instance hasRoomDecidable (live : LiveSummary) (value : JsString) :
    Decidable (live.HasRoom value) := inferInstanceAs (Decidable (_ ≤ _))

variable {live next : LiveSummary}

theorem measured_bytes (live : LiveSummary) (value : JsString) :
    Json.jsonBytes (Data.json (live.measured value)) =
      Json.jsonBytes (Data.json (live.measured [])) + Json.escapeBytes value := by
  simp only [Data.json, LiveSummary.measured, textJson, Json.jsonBytes, Json.fieldsBytes,
    Json.quoteBytes, Json.escapeBytes, List.length_cons, List.length_nil]
  omega

theorem measured_shallow (live : LiveSummary) (value other : JsString) :
    shallow 16 (Data.json (live.measured value)) = shallow 16 (Data.json (live.measured other)) := by
  simp only [Data.json, LiveSummary.measured, textJson, shallow, shallowFields, List.length_cons,
    List.all_cons]

theorem HasRoom.of_isCharPrefix {p q : JsString} (h : IsCharPrefix p q) (hq : live.HasRoom q) :
    live.HasRoom p := by
  unfold LiveSummary.HasRoom at hq ⊢
  have := h.escapeBytes_le
  rw [measured_bytes] at hq ⊢
  omega

/-- The test of a text answers on every beginning of a text whose JSON fits a
document. -/
theorem fits_of_document {text : JsString}
    (hshallow : shallow 16 (Data.json (live.measured [])) = true)
    (hbytes : Json.jsonBytes (Data.json (live.measured text)) ≤ DELEGATION_DOCUMENT_BYTES) :
    ∀ q, IsCharPrefix q text → live.fits q = .ok (decide (live.HasRoom q)) := by
  intro q hq
  have hq' : Json.jsonBytes (Data.json (live.measured q)) ≤ DELEGATION_DOCUMENT_BYTES := by
    have := hq.escapeBytes_le
    rw [measured_bytes] at hbytes ⊢
    omega
  rw [measured_shallow live [] q] at hshallow
  unfold LiveSummary.fits
  simp only [delegationDataBytes_eq hshallow hq', ok_bind, pure_eq_ok]
  rfl

/-- A text is accepted as long as its JSON fits a document. -/
theorem accumulate_accepts {text : JsString}
    (hshallow : shallow 16 (Data.json (live.measured [])) = true)
    (hbytes : Json.jsonBytes (Data.json (live.measured (live.summary ++ text))) ≤
      DELEGATION_DOCUMENT_BYTES) : ∃ next, accumulate live text = .ok next := by
  obtain ⟨bounded, hbounded, -⟩ := fitDelegationText_spec (fits_of_document hshallow hbytes)
    fun _ _ hpq _ hq => HasRoom.of_isCharPrefix hpq hq
  unfold accumulate
  exact ⟨_, bind_eq_ok.2 ⟨bounded, hbounded, rfl⟩⟩

/-- **The summary after a delta** is the longest beginning of the candidate that has
room, and it is marked when this is not the whole candidate. -/
theorem accumulate_ok {text : JsString} (h : accumulate live text = .ok next) :
    Longest live.HasRoom (live.summary ++ text) next.summary ∧
      next.truncated = (live.truncated || decide (next.summary ≠ live.summary ++ text)) ∧
      next.references = live.references := by
  unfold accumulate at h
  obtain ⟨bounded, hbounded, h⟩ := bind_eq_ok.1 h
  cases h
  have hdocument : shallow 16 (Data.json (live.measured [])) = true ∧
      Json.jsonBytes (Data.json (live.measured (live.summary ++ text))) ≤
        DELEGATION_DOCUMENT_BYTES := by
    have hfirst := hbounded
    unfold fitDelegationText at hfirst
    obtain ⟨fitting, hfitting, -⟩ := bind_eq_ok.1 hfirst
    unfold LiveSummary.fits at hfitting
    obtain ⟨bytes, hbytes, -⟩ := bind_eq_ok.1 hfitting
    obtain ⟨hshallow, hle, -⟩ := delegationDataBytes_ok hbytes
    rw [measured_shallow live _ []] at hshallow
    exact ⟨hshallow, hle⟩
  obtain ⟨p, hp, hlongest⟩ := fitDelegationText_spec
    (fits_of_document hdocument.1 hdocument.2) fun _ _ hpq _ hq => HasRoom.of_isCharPrefix hpq hq
  rw [hp] at hbounded
  cases hbounded
  refine ⟨hlongest, ?_, rfl⟩
  by_cases hsame : bounded = live.summary ++ text
  · simp [hsame]
  · simp [hsame]

theorem publish_ok {published : ResultReference} (h : publish live published = .ok next) :
    next.summary = live.summary ∧ (live.truncated = true → next.truncated = true) := by
  unfold publish at h
  split at h
  · obtain ⟨reference, -, h⟩ := bind_eq_ok.1 h
    obtain ⟨bytes, -, h⟩ := bind_eq_ok.1 h
    split at h
    · obtain ⟨bytes, -, h⟩ := bind_eq_ok.1 h
      split at h
      · cases h
        exact ⟨rfl, fun hyes => hyes⟩
      · cases h
        exact ⟨rfl, fun _ => rfl⟩
    · cases h
      exact ⟨rfl, fun _ => rfl⟩
  · cases h
    exact ⟨rfl, fun hyes => hyes⟩

/-! ## What every run keeps -/

/-- The invariant of a run: the summary is the text, or shorter than it. -/
structure Collected.Sound (c : Collected) : Prop where
  missing : c.live.summary = c.text ∨ c.live.summary.length < c.text.length
  marked : c.live.truncated = false → c.live.summary = c.text
  unmarked : c.refused = false → c.live.truncated = true →
    c.live.summary.length < c.text.length

variable {c d : Collected}

theorem Collected.Sound.initial : Collected.initial.Sound :=
  ⟨.inl rfl, fun _ => rfl, fun _ h => by cases h⟩

theorem Collected.step_ok {output : ProviderOutput} (h : c.step output = .ok d) :
    reduceOutput c.live output = .ok d.live ∧ d.text = c.text ++ output.delta ∧
      d.refused = (c.refused || (output.isArtifact && !c.live.truncated && d.live.truncated)) := by
  unfold Collected.step at h
  obtain ⟨live, hlive, h⟩ := bind_eq_ok.1 h
  cases h
  exact ⟨hlive, rfl, rfl⟩

/-- An output that is no text leaves the summary as it is. -/
theorem Collected.step_silent {output : ProviderOutput} (h : c.step output = .ok d)
    (hsilent : ∀ delta, output ≠ .assistantText delta) :
    d.live.summary = c.live.summary ∧ d.text = c.text ∧
      (c.live.truncated = true → d.live.truncated = true) ∧
      (d.live.truncated = true → d.refused = false → c.live.truncated = true) := by
  obtain ⟨hlive, htext, hrefused⟩ := Collected.step_ok h
  cases output with
  | assistantText delta => exact absurd rfl (hsilent delta)
  | other =>
    have hsame : c.live = d.live := Except.ok.inj hlive
    rw [← hsame]
    exact ⟨rfl, by simp [htext, ProviderOutput.delta], fun hyes => hyes, fun hyes _ => hyes⟩
  | artifact published =>
    have hkeeps : d.live.summary = c.live.summary ∧
        (c.live.truncated = true → d.live.truncated = true) := by
      cases published with
      | none =>
        have hsame : c.live = d.live := Except.ok.inj hlive
        rw [← hsame]
        exact ⟨rfl, fun hyes => hyes⟩
      | some published => exact publish_ok hlive
    refine ⟨hkeeps.1, by simp [htext, ProviderOutput.delta], hkeeps.2, fun hyes hno => ?_⟩
    rw [hrefused] at hno
    simpa [ProviderOutput.isArtifact, hyes] using (Bool.or_eq_false_iff.1 hno).2

theorem Collected.Sound.step {output : ProviderOutput} (sound : c.Sound)
    (h : c.step output = .ok d) : d.Sound := by
  by_cases htext : ∃ delta, output = .assistantText delta
  · obtain ⟨delta, rfl⟩ := htext
    obtain ⟨hlive, htext, hrefused⟩ := Collected.step_ok h
    obtain ⟨hlongest, htruncated, -⟩ := accumulate_ok hlive
    have hstarts := hlongest.isCharPrefix.isPrefix
    have hlength := hstarts.length_le
    rw [List.length_append] at hlength
    simp only [ProviderOutput.delta] at htext
    simp only [ProviderOutput.isArtifact, Bool.false_and, Bool.or_false] at hrefused
    -- The summary is shorter than the text as soon as something is missing.
    have hshort : d.live.summary ≠ d.text → d.live.summary.length < d.text.length := by
      intro hne
      rw [htext, List.length_append]
      rcases sound.missing with hsame | hless
      · rw [hsame] at hstarts hlength
        have hdiffers : d.live.summary.length ≠ (c.text ++ delta).length := by
          intro heq
          exact hne ((hstarts.eq_of_length heq).trans htext.symm)
        rw [List.length_append] at hdiffers
        omega
      · omega
    refine ⟨?_, fun hno => ?_, fun hno hyes => ?_⟩
    · by_cases hsame : d.live.summary = d.text
      · exact .inl hsame
      · exact .inr (hshort hsame)
    · rw [htruncated] at hno
      simp only [Bool.or_eq_false_iff, decide_eq_false_iff_not, ne_eq, not_not] at hno
      rw [hno.2, htext, sound.marked hno.1]
    · rw [htruncated, Bool.or_eq_true, decide_eq_true_eq] at hyes
      rcases hyes with hbefore | hcut
      · have hless := sound.unmarked (hrefused.symm.trans hno) hbefore
        rw [htext, List.length_append]
        omega
      · refine hshort fun hsame => ?_
        rcases sound.missing with hwhole | hless
        · exact hcut (by rw [hsame, htext, hwhole])
        · have hsize := congrArg List.length (hsame.trans htext)
          rw [List.length_append] at hsize
          omega
  · obtain ⟨hsummary, htext, hkept, hcause⟩ :=
      Collected.step_silent h fun delta hdelta => htext ⟨delta, hdelta⟩
    obtain ⟨-, -, hrefused⟩ := Collected.step_ok h
    refine ⟨?_, fun hno => ?_, fun hno hyes => ?_⟩
    · rw [hsummary, htext]
      exact sound.missing
    · rw [hsummary, htext]
      refine sound.marked ?_
      by_contra hyes
      rw [hkept (Bool.eq_true_of_not_eq_false hyes)] at hno
      cases hno
    · rw [hsummary, htext]
      refine sound.unmarked ?_ (hcause hyes hno)
      rw [hrefused] at hno
      exact (Bool.or_eq_false_iff.1 hno).1

theorem collect_sound {outputs : List ProviderOutput} (h : collect outputs = .ok c) : c.Sound := by
  unfold collect at h
  exact foldlM_ok_invariant (fun _ _ _ sound hstep => sound.step hstep) .initial h

theorem collect_snoc (outputs : List ProviderOutput) (output : ProviderOutput) :
    collect (outputs ++ [output]) = collect outputs >>= fun c => c.step output := by
  simp only [collect, List.foldlM_append, List.foldlM_cons, List.foldlM_nil]
  exact congrArg _ (funext fun c => bind_pure _)

/-! ## When the summary is the beginning of the text -/

/-- The summary after an output is the beginning of the text, its mark tells whether
text is missing, and behind a gap nothing is added. -/
structure Truthful (before after : Collected) : Prop where
  isPrefix : after.live.summary <+: after.text
  truncated : after.refused = false →
    (after.live.truncated = false ↔ after.live.summary = after.text)
  gap : before.live.summary ≠ before.text →
    after.live.summary.length ≤ before.live.summary.length

/-- Nothing of the output fits behind a gap: when text is missing, the summary has no
room for the first code point of the delta. -/
def Clear (before : Collected) (output : ProviderOutput) : Prop :=
  before.live.summary ≠ before.text → ∀ first, (characters output.delta).head? = some first →
    ¬before.live.HasRoom (before.live.summary ++ first)

/-- A property of every step of a run. -/
def EveryStep (outputs : List ProviderOutput)
    (P : Collected → ProviderOutput → Collected → Prop) : Prop :=
  ∀ earlier output later before after, outputs = earlier ++ output :: later →
    collect earlier = .ok before → before.step output = .ok after → P before output after

/-- Without room for its first code point a delta adds nothing. -/
theorem short_of_no_room {delta : JsString} (h : accumulate live delta = .ok next)
    (hroom : ∀ first, (characters delta).head? = some first →
      ¬live.HasRoom (live.summary ++ first)) :
    next.summary.length ≤ live.summary.length := by
  obtain ⟨hlongest, -, -⟩ := accumulate_ok h
  by_contra hlong
  cases hfirst : (characters delta).head? with
  | none =>
    have hnil : delta = [] := characters_eq_nil.1 (List.head?_eq_none_iff.1 hfirst)
    have hle := hlongest.isCharPrefix.isPrefix.length_le
    rw [hnil, List.append_nil] at hle
    exact hlong hle
  | some first =>
    have hlonger := length_of_longer live.summary hfirst hlongest.isCharPrefix (by omega)
    have hfits : live.HasRoom next.summary := by
      refine hlongest.fits.resolve_left fun hnil => hlong ?_
      rw [hnil]
      exact Nat.zero_le _
    refine hroom first hfirst (HasRoom.of_isCharPrefix ?_ hfits)
    refine (isCharPrefix_append_first live.summary hfirst).of_length_le
      hlongest.isCharPrefix ?_
    rwa [List.length_append]

/-- **A step whose delta does not fit behind a gap** keeps the summary truthful. -/
theorem truthful_of_clear {output : ProviderOutput} (sound : c.Sound)
    (hstarts : c.live.summary <+: c.text) (hclear : Clear c output)
    (h : c.step output = .ok d) : Truthful c d := by
  have hsound := sound.step h
  have hmark : d.refused = false → (d.live.truncated = false ↔ d.live.summary = d.text) := by
    intro hrefused
    refine ⟨hsound.marked, fun hsame => ?_⟩
    by_contra hmark
    have hless := hsound.unmarked hrefused (Bool.eq_true_of_not_eq_false hmark)
    rw [hsame] at hless
    exact Nat.lt_irrefl _ hless
  by_cases htext : ∃ delta, output = .assistantText delta
  · obtain ⟨delta, rfl⟩ := htext
    obtain ⟨hlive, htext, -⟩ := Collected.step_ok h
    simp only [ProviderOutput.delta] at htext
    have hpart := (accumulate_ok hlive).1.isCharPrefix.isPrefix
    by_cases hwhole : c.live.summary = c.text
    · refine ⟨?_, hmark, fun hgap => absurd hwhole hgap⟩
      rwa [htext, ← hwhole]
    · have hshort := short_of_no_room hlive (hclear hwhole)
      refine ⟨?_, hmark, fun _ => hshort⟩
      have hinside : d.live.summary <+: c.live.summary :=
        List.prefix_of_prefix_length_le hpart (List.prefix_append _ _) hshort
      rw [htext]
      exact hinside.trans (hstarts.trans (List.prefix_append _ _))
  · obtain ⟨hsummary, htext, -, -⟩ :=
      Collected.step_silent h fun delta hdelta => htext ⟨delta, hdelta⟩
    refine ⟨?_, hmark, fun _ => by rw [hsummary]⟩
    rwa [hsummary, htext]

/-- **A step that keeps the summary truthful** has nothing that fits behind a gap. -/
theorem clear_of_truthful {output : ProviderOutput} (htruthful : Truthful c d)
    (h : c.step output = .ok d) : Clear c output := by
  intro hgap first hfirst hroom
  cases output with
  | artifact | other => simp [ProviderOutput.delta, characters] at hfirst
  | assistantText delta =>
    obtain ⟨hlive, -, -⟩ := Collected.step_ok h
    have hlongest := (accumulate_ok hlive).1.longest _
      (isCharPrefix_append_first c.live.summary hfirst) hroom
    have hshort := htruthful.gap hgap
    have hpositive := List.length_pos_of_ne_nil (ne_nil_of_head hfirst)
    rw [List.length_append] at hlongest
    omega

/-- As long as nothing fits behind a gap, the summary is the beginning of the text. -/
theorem summary_starts {outputs : List ProviderOutput}
    (hclear : EveryStep outputs fun before output _ => Clear before output)
    (earlier : List ProviderOutput) : ∀ later c, outputs = earlier ++ later →
      collect earlier = .ok c → c.live.summary <+: c.text := by
  induction earlier using List.reverseRecOn with
  | nil =>
    intro later c _ h
    cases h
    exact List.prefix_refl _
  | append_singleton earlier output ih =>
    intro later c houtputs h
    rw [collect_snoc] at h
    obtain ⟨before, hbefore, hstep⟩ := bind_eq_ok.1 h
    have hsplit : outputs = earlier ++ output :: later := by simp [houtputs]
    exact (truthful_of_clear (collect_sound hbefore) (ih _ before hsplit hbefore)
      (hclear earlier output later before c hsplit hbefore hstep) hstep).isPrefix

/-- **A run whose summary is truthful**: every step keeps the summary a beginning of
the text with nothing behind a gap, exactly when no delta of the run fits behind a
gap. -/
theorem summary_truthful_iff (outputs : List ProviderOutput) :
    EveryStep outputs (fun before _ after => Truthful before after) ↔
      EveryStep outputs (fun before output _ => Clear before output) := by
  constructor
  · intro htruthful earlier output later before after hsplit hbefore hstep
    exact clear_of_truthful (htruthful _ _ _ _ _ hsplit hbefore hstep) hstep
  · intro hclear earlier output later before after hsplit hbefore hstep
    exact truthful_of_clear (collect_sound hbefore)
      (summary_starts hclear earlier _ before hsplit hbefore)
      (hclear _ _ _ _ _ hsplit hbefore hstep) hstep

/-! ## A gap that is filled -/

namespace GapSample

/-- A text of one narrow letter. -/
def letters (n : Nat) : JsString := List.replicate n 97

/-- The text of 8146 letters leaves one byte, so the `é` that follows is left out and
the `b` of the next delta is not. -/
def outputs : List ProviderOutput :=
  [.assistantText (letters 4000), .assistantText (letters 4000),
    .assistantText (letters 146 ++ [233])]

theorem letters_add (m n : Nat) : letters m ++ letters n = letters (m + n) :=
  List.replicate_append_replicate

theorem letters_single (n : Nat) : ∀ u ∈ letters n, isHighSurrogate u = false := by
  intro u hu
  rw [List.eq_of_mem_replicate hu]
  decide

theorem escapeBytes_letters (n : Nat) (t : JsString) :
    Json.escapeBytes (letters n ++ t) = n + Json.escapeBytes t := by
  rw [escapeBytes_characters, characters_append_of_single (letters_single n), List.map_append,
    List.sum_append, ← escapeBytes_characters, List.map_map]
  have hone : (Json.escapeBytes ∘ fun u => [u]) (97 : UInt16) = 1 := by decide
  rw [letters, List.map_replicate, hone, List.sum_replicate]
  simp

/-- Without references 8147 bytes are left for the text. -/
theorem hasRoom_iff {live : LiveSummary} (hreferences : live.references = []) (value : JsString) :
    live.HasRoom value ↔ Json.escapeBytes value ≤ 8147 := by
  have hempty : Json.jsonBytes (Data.json (live.measured [])) = 45 := by
    rw [LiveSummary.measured, hreferences]
    decide
  unfold LiveSummary.HasRoom RESULT_BYTES
  rw [measured_bytes, hempty]
  omega

/-- A delta of the sample. -/
theorem step_text {c : Collected} (hreferences : c.live.references = []) (delta : JsString)
    (hbytes : Json.escapeBytes (c.live.summary ++ delta) ≤ 9000) :
    ∃ d, c.step (.assistantText delta) = .ok d ∧ d.text = c.text ++ delta ∧
      d.live.references = [] ∧ Longest c.live.HasRoom (c.live.summary ++ delta) d.live.summary := by
  have hshallow : shallow 16 (Data.json (c.live.measured [])) = true := by
    rw [LiveSummary.measured, hreferences]
    decide
  have hempty : Json.jsonBytes (Data.json (c.live.measured [])) = 45 := by
    rw [LiveSummary.measured, hreferences]
    decide
  have hdocument : Json.jsonBytes (Data.json (c.live.measured (c.live.summary ++ delta))) ≤
      DELEGATION_DOCUMENT_BYTES := by
    rw [measured_bytes, hempty]
    unfold DELEGATION_DOCUMENT_BYTES
    omega
  obtain ⟨next, hnext⟩ := accumulate_accepts hshallow hdocument
  obtain ⟨hlongest, -, hkept⟩ := accumulate_ok hnext
  refine ⟨_, bind_eq_ok.2 ⟨next, hnext, rfl⟩, rfl, ?_, hlongest⟩
  exact hkept.trans hreferences

/-- A delta of the sample that fits as a whole. -/
theorem step_whole {c : Collected} (hreferences : c.live.references = []) (delta : JsString)
    (hbytes : Json.escapeBytes (c.live.summary ++ delta) ≤ 8147) :
    ∃ d, c.step (.assistantText delta) = .ok d ∧ d.text = c.text ++ delta ∧
      d.live.references = [] ∧ d.live.summary = c.live.summary ++ delta := by
  obtain ⟨d, hstep, htext, hkept, hlongest⟩ := step_text hreferences delta (by omega)
  exact ⟨d, hstep, htext, hkept, hlongest.eq_of_room ((hasRoom_iff hreferences _).2 hbytes)⟩

/-- After the wide letter the summary ends with the last narrow one. -/
theorem before_gap : ∃ c, collect outputs = .ok c ∧ c.live.references = [] ∧
    c.live.summary = letters 8146 ∧ c.text = letters 8146 ++ [233] := by
  have hplain : ∀ n, Json.escapeBytes (letters n) = n := by
    intro n
    have h := escapeBytes_letters n []
    rwa [List.append_nil] at h
  obtain ⟨c₁, h₁, ht₁, hr₁, hs₁⟩ := step_whole (c := .initial) rfl (letters 4000) (by
    show Json.escapeBytes (letters 4000) ≤ 8147
    rw [hplain]
    omega)
  have hs₁' : c₁.live.summary = letters 4000 := hs₁
  have ht₁' : c₁.text = letters 4000 := ht₁
  obtain ⟨c₂, h₂, ht₂, hr₂, hs₂⟩ := step_whole hr₁ (letters 4000) (by
    rw [hs₁', letters_add, hplain]
    omega)
  rw [hs₁', letters_add] at hs₂
  rw [ht₁', letters_add] at ht₂
  have hcandidate : c₂.live.summary ++ (letters 146 ++ [233]) = letters 8146 ++ [233] := by
    rw [hs₂, ← List.append_assoc, letters_add]
  have hwide : Json.escapeBytes (letters 8146 ++ [233]) = 8148 := by
    rw [escapeBytes_letters]
    decide
  obtain ⟨c₃, h₃, ht₃, hr₃, hlongest⟩ := step_text hr₂ (letters 146 ++ [233]) (by
    rw [hcandidate, hwide]
    omega)
  rw [hcandidate] at hlongest
  refine ⟨c₃, ?_, hr₃, ?_, ?_⟩
  · have hnil : collect [] = .ok .initial := rfl
    have hone : collect ([] ++ [.assistantText (letters 4000)]) = .ok c₁ := by
      rw [collect_snoc, hnil]
      exact h₁
    have htwo : collect ([] ++ [.assistantText (letters 4000)] ++
        [.assistantText (letters 4000)]) = .ok c₂ := by
      rw [collect_snoc, hone]
      exact h₂
    have hthree : collect ([] ++ [.assistantText (letters 4000)] ++
        [.assistantText (letters 4000)] ++ [.assistantText (letters 146 ++ [233])]) = .ok c₃ := by
      rw [collect_snoc, htwo]
      exact h₃
    exact hthree
  · have hnarrow : IsCharPrefix (letters 8146) (letters 8146 ++ [233]) := by
      have hfirst := characters_append_of_single (letters_single 8146) []
      rw [List.append_nil] at hfirst
      unfold IsCharPrefix
      rw [hfirst, characters_append_of_single (letters_single 8146)]
      exact ⟨[[233]], by simp [characters]⟩
    have hlong := hlongest.longest _ hnarrow ((hasRoom_iff hr₂ _).2 (by
      rw [hplain]
      omega))
    have hroom : ¬c₂.live.HasRoom (letters 8146 ++ [233]) := by
      rw [hasRoom_iff hr₂, hwide]
      omega
    -- The whole candidate has no room, so the longest part is the narrow one.
    have hshort : c₃.live.summary.length ≤ (letters 8146).length := by
      by_contra hmore
      have hwhole : c₃.live.summary = letters 8146 ++ [233] := by
        refine hlongest.isCharPrefix.isPrefix.eq_of_length_le ?_
        rw [List.length_append, List.length_singleton]
        omega
      rcases hlongest.fits with hnil | hyes
      · rw [hnil] at hmore
        exact hmore (Nat.zero_le _)
      · rw [hwhole] at hyes
        exact hroom hyes
    exact ((hnarrow.of_length_le hlongest.isCharPrefix hlong).isPrefix.eq_of_length_le hshort).symm
  · rw [ht₃, ht₂, ← List.append_assoc, letters_add]

end GapSample

/-- **A summary that continues behind a gap**: the wide letter is missing and the
narrow one behind it is not. -/
theorem summary_gap :
    ¬∀ outputs : List ProviderOutput, EveryStep outputs fun before _ after =>
      Truthful before after := by
  intro hclaim
  obtain ⟨c, hcollect, hreferences, hsummary, htext⟩ := GapSample.before_gap
  obtain ⟨d, hstep, hdtext, -, hdsummary⟩ := GapSample.step_whole hreferences [98] (by
    rw [hsummary, GapSample.escapeBytes_letters]
    decide)
  have htruthful := hclaim (GapSample.outputs ++ [.assistantText [98]]) GapSample.outputs
    (.assistantText [98]) [] c d rfl hcollect hstep
  have hstarts := htruthful.isPrefix
  rw [hdsummary, hdtext, hsummary, htext, List.append_assoc, List.prefix_append_right_inj] at hstarts
  exact absurd hstarts (by decide)

end AgentSdk.Delegation
