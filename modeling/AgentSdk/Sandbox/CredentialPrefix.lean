import AgentSdk.Lib.Machine
import AgentSdk.Lib.Utf8

/-!
# The credential prefix of a process

Before its caller gets the streams of a process, the process says hello on its stdout,
receives a frame with a credential on its stdin and says that it is prepared.  The
steps of that exchange, its interruptions and the cleanups of its owner come in any order.

## Main results

* `Staged.continued`, `Sound.step` — what holds at every stage of the exchange.
* `prefix_is_exact` — what the process and its caller get, and when the frame is zero.
-/

namespace AgentSdk.Sandbox.Credential

open AgentSdk.Utf8 AgentSdk.Machine

def ascii (text : String) : Bytes := text.toList.map fun c => UInt8.ofNat c.toNat

def bigEndian : Nat → Nat → Bytes
  | 0, _ => []
  | width + 1, n => UInt8.ofNat (n / 256 ^ width) :: bigEndian width n

/-- The frame of a file: a header of twelve bytes, the name and the bytes. -/
def encodeFrame (name : String) (bytes : Bytes) : Bytes :=
  ascii "AGC1" ++ bigEndian 2 name.length ++ [0, 0] ++ bigEndian 4 bytes.length ++
    ascii name ++ bytes

inductive Marker
  | hello
  | prepared
  deriving DecidableEq

def Marker.text : Marker → Bytes
  | .hello => ascii "AGC1 HELLO\n"
  | .prepared => ascii "AGC1 PREPARED\n"

/-- The stdout of the process: what came, and what of it was read and is still to be read. -/
structure Output where
  arrived : Bytes := []
  consumed : Bytes := []
  buffer : Bytes := []
  ended : Bool := false

def Output.push (output : Output) (chunk : Bytes) : Output :=
  { output with arrived := output.arrived ++ chunk, buffer := output.buffer ++ chunk }

def Output.take (output : Output) (n : Nat) : Output :=
  { output with
    consumed := output.consumed ++ output.buffer.take n, buffer := output.buffer.drop n }

/-- Where the operation behind a start is. -/
inductive Stage
  | unentered
  /-- The driver has not returned from the start, and `actual` is unset. -/
  | entering
  | opening
  | reading (marker : Marker) (offset : Nat)
  | read (marker : Marker)
  /-- A write is not acknowledged yet. -/
  | writing (offset length : Nat)
  | written (offset : Nat)
  /-- What was awaited has failed. -/
  | refused
  | resolved
  | rejected
  deriving DecidableEq

/-- There is nothing to wait for: `settled(actual)` resolves. -/
def Stage.settled : Stage → Bool
  | .unentered | .resolved | .rejected => true
  | _ => false

/-- `readCredentialMarker` reads what is there.  Every read may make the stream push a
chunk, the next of `pulled`. -/
def readMarker (marker : Marker) (offset : Nat) (output : Output) (pulled : List Bytes) :
    Stage × Output :=
  if offset < marker.text.length then
    let length := min (marker.text.length - offset) (max output.buffer.length 1)
    let output := output.push (pulled.headD [])
    let chunk := output.buffer.take length
    if chunk = [] then (if output.ended then .refused else .reading marker offset, output)
    else if chunk <+: marker.text.drop offset then
      readMarker marker (offset + chunk.length) (output.take length) pulled.tail
    else (.refused, output.take length)
  else (.read marker, output)
termination_by marker.text.length - offset
decreasing_by
  exact Nat.sub_lt_sub_left ‹_› (Nat.lt_add_of_pos_right (List.length_pos_of_ne_nil ‹_›))

inductive Lifecycle
  | reserved
  | started
  | closed
  deriving DecidableEq

/-- What the caller of `start` was told. -/
inductive Told
  | unasked
  | waiting
  /-- The wait is over and the cleanup has not begun. -/
  | interrupted
  /-- The rejection follows the cleanup. -/
  | cleaning
  | resolved
  deriving DecidableEq

/-- A call of `stop` or `destroy`. -/
inductive Cleanup
  | acting
  /-- The sandbox is done, the operation behind the start may not be. -/
  | joining
  | done
  | failed
  deriving DecidableEq

structure Preparation where
  state : Lifecycle := .reserved
  frame : Bytes
  stage : Stage := .unentered
  aborted : Bool := false
  told : Told := .unasked
  cleanups : List Cleanup := []
  output : Output := {}
  /-- How often the process was started. -/
  starts : Nat := 0
  /-- What the stdin of the process has acknowledged. -/
  accepted : Bytes := []

def reserveSandboxCredentialProcess (name : String) (bytes : Bytes) : Preparation where
  frame := encodeFrame name bytes

def zeroed (frame : Bytes) : Bytes := List.replicate frame.length 0

namespace Preparation

/-- `frame.fill(0)` -/
def zero (s : Preparation) : Preparation := { s with frame := zeroed s.frame }

/-- The controller aborts, to which the reader of a marker and the caller's wait listen. -/
def abort (s : Preparation) : Preparation :=
  { s with
    aborted := true
    stage := match s.stage with
      | .reading .. => .refused
      | stage => stage
    told := if s.told = .waiting then .interrupted else s.told }

/-- `cleanup` up to the operation of the sandbox. -/
def cleanup (s : Preparation) : Preparation :=
  let s := match s.stage with
    | .unentered => s.zero
    | .entering => s.abort.zero
    | _ => s.abort
  { s with state := .closed, cleanups := s.cleanups ++ [.acting] }

/-- A start, whose signal may already be aborted. -/
def start (s : Preparation) (signalled : Bool) : Preparation :=
  if s.state = .reserved then
    if signalled then
      { s with state := .started, told := .interrupted, aborted := true, stage := .rejected }
    else { s with state := .started, told := .waiting, starts := s.starts + 1, stage := .entering }
  else s

def readOn (s : Preparation) (marker : Marker) (offset : Nat) (pulled : List Bytes) :
    Preparation :=
  let (stage, output) := readMarker marker offset s.output pulled
  { s with stage, output }

/-- The loop of the writes from an offset on. -/
def writeNext (s : Preparation) (highWaterMark offset : Nat) (pulled : List Bytes) :
    Preparation :=
  if s.aborted then { s with stage := .rejected }
  else if offset < s.frame.length then
    let length := min (min (s.frame.length - offset) highWaterMark) 65536
    { s with stage := if length < 1 then .rejected else .writing offset length }
  else s.zero.readOn .prepared 0 pulled

/-- What was awaited is there. -/
def continued (s : Preparation) (highWaterMark : Nat) (pulled : List Bytes) : Preparation :=
  match s.stage with
  | .read .hello => s.writeNext highWaterMark 0 pulled
  | .written offset => s.writeNext highWaterMark offset pulled
  | .read .prepared => { s with stage := if s.aborted then .rejected else .resolved }
  | .refused => { s with stage := .rejected }
  | _ => s

end Preparation

inductive Event
  | start (signalled : Bool)
  /-- The driver returns the promise of its start. -/
  | entered
  | opened (ok : Bool) (pulled : List Bytes)
  | arrived (chunk : Bytes)
  | readable (pulled : List Bytes)
  /-- The stdout ended, closed or failed. -/
  | ended
  | acknowledged (ok : Bool)
  | continued (pulled : List Bytes)
  | abort
  | deadline
  /-- The caller's wait sees that the operation behind the start has settled. -/
  | observed
  /-- The rejection of the caller's wait is caught. -/
  | caught
  | cleanup
  | acted (index : Nat) (ok : Bool)
  | joined (index : Nat)

def step (highWaterMark : Nat) (s : Preparation) : Event → Preparation
  | .start signalled => s.start signalled
  | .entered => if s.stage = .entering then { s with stage := .opening } else s
  | .opened ok pulled =>
    if s.stage = .opening then
      if ok && !s.aborted then s.readOn .hello 0 pulled else { s with stage := .rejected }
    else s
  | .arrived chunk => { s with output := s.output.push chunk }
  | .readable pulled =>
    match s.stage with
    | .reading marker offset => s.readOn marker offset pulled
    | _ => s
  | .ended =>
    let s := { s with output := { s.output with ended := true } }
    match s.stage with
    | .reading .. => { s with stage := .refused }
    | _ => s
  | .acknowledged ok =>
    match s.stage with
    | .writing offset length =>
      if ok then
        { s with
          accepted := s.accepted ++ (s.frame.drop offset).take length
          stage := .written (offset + length) }
      else { s with stage := .refused }
    | _ => s
  | .continued pulled => s.continued highWaterMark pulled
  | .abort | .deadline => if s.told = .waiting then s.abort else s
  | .observed =>
    match s.told, s.stage with
    | .waiting, .resolved => { s with told := .resolved }
    | .waiting, .rejected => { s with told := .interrupted }
    | _, _ => s
  | .caught => if s.told = .interrupted then { s.cleanup with told := .cleaning } else s
  | .cleanup => s.cleanup
  | .acted index ok =>
    if s.cleanups[index]? = some .acting then
      { s with cleanups := s.cleanups.set index (if ok then .joining else .failed) }
    else s
  | .joined index =>
    if s.cleanups[index]? = some .joining ∧ s.stage.settled then
      { s.zero with cleanups := s.cleanups.set index .done }
    else s

/-! ### One exchange -/

/-- Nothing that came is lost or read twice. -/
def Output.Whole (output : Output) : Prop := output.arrived = output.consumed ++ output.buffer

/-- What was read before a marker. -/
def Marker.before : Marker → Bytes
  | .hello => []
  | .prepared => Marker.hello.text

/-- What the stdin has got and what the frame is while a marker is read. -/
def Filled (sent : Bytes) (s : Preparation) : Marker → Prop
  | .hello => s.accepted = [] ∧ s.frame = sent
  | .prepared => s.accepted = sent ∧ s.frame = zeroed sent

/-- Both streams and the frame at every stage of the exchange. -/
def Staged (sent : Bytes) (s : Preparation) : Prop :=
  match s.stage with
  | .unentered => s.output.consumed = [] ∧ s.accepted = []
  | .entering | .opening =>
    s.output.consumed = [] ∧ s.accepted = [] ∧ (s.aborted = false → s.frame = sent)
  | .reading marker offset =>
    s.output.consumed = marker.before ++ marker.text.take offset ∧ Filled sent s marker
  | .read marker => s.output.consumed = marker.before ++ marker.text ∧ Filled sent s marker
  | .writing offset _ | .written offset =>
    s.output.consumed = Marker.hello.text ∧ s.accepted = sent.take offset ∧ s.frame = sent
  | .resolved =>
    s.output.consumed = Marker.prepared.before ++ Marker.prepared.text ∧ Filled sent s .prepared
  | .refused | .rejected => True

structure Exchanged (sent : Bytes) (s : Preparation) : Prop where
  whole : s.output.Whole
  length : s.frame.length = sent.length
  staged : Staged sent s
  between : s.output.consumed.length ≤ Marker.hello.text.length ∨ s.accepted = sent

/-- What holds in every state of a reservation. -/
structure Sound (sent : Bytes) (s : Preparation) : Prop extends Exchanged sent s where
  fresh : s.state = .reserved → s.stage = .unentered ∧ s.frame = sent ∧ s.starts = 0
  once : s.starts ≤ 1
  told : s.told = .resolved → s.stage = .resolved
  closed : s.cleanups ≠ [] → s.state = .closed
  done : .done ∈ s.cleanups → s.stage.settled ∧ s.frame = zeroed sent

/-- What a reader of a marker has read when it stops. -/
structure Read (marker : Marker) (stage : Stage) (output : Output) : Prop where
  whole : output.Whole
  length : output.consumed.length ≤ marker.before.length + marker.text.length
  stage : match stage with
    | .reading other offset =>
      other = marker ∧ output.consumed = marker.before ++ marker.text.take offset
    | .read other => other = marker ∧ output.consumed = marker.before ++ marker.text
    | .refused => True
    | _ => False

variable {sent : Bytes} {s : Preparation} {marker : Marker} {offset highWaterMark : Nat}
  {output : Output} {pulled : List Bytes}

theorem Output.Whole.push (h : output.Whole) (chunk : Bytes) : (output.push chunk).Whole := by
  simp only [Output.Whole, Output.push] at h ⊢
  rw [h, List.append_assoc]

theorem Output.Whole.take (h : output.Whole) (n : Nat) : (output.take n).Whole := by
  simp only [Output.Whole, Output.take] at h ⊢
  rw [h, List.append_assoc, List.take_append_drop]

theorem Read.of_readMarker (hwhole : output.Whole)
    (hread : output.consumed = marker.before ++ marker.text.take offset) :
    Read marker (readMarker marker offset output pulled).1
      (readMarker marker offset output pulled).2 := by
  fun_induction readMarker marker offset output pulled with
  | case1 offset output pulled _ _ pushed _ _ =>
    have hpushed : pushed.consumed = marker.before ++ marker.text.take offset := hread
    refine ⟨hwhole.push _, ?_, ?_⟩
    · simp [hpushed]
    · cases pushed.ended
      · exact ⟨rfl, hpushed⟩
      · trivial
  | case2 offset output pulled _ length pushed chunk _ hprefix ih =>
    refine ih ((hwhole.push _).take _) ?_
    have hnext : (pushed.take length).consumed = output.consumed ++ chunk := rfl
    rw [hnext, hread, List.append_assoc, List.take_add, ← List.prefix_iff_eq_take.1 hprefix]
  | case3 offset output pulled hoffset length pushed chunk _ _ =>
    have hnext : (pushed.take length).consumed = output.consumed ++ chunk := rfl
    have hlength : chunk.length ≤ marker.text.length - offset :=
      (List.length_take_le _ _).trans (Nat.min_le_left _ _)
    refine ⟨(hwhole.push _).take _, ?_, trivial⟩
    simp only [hnext, hread, List.length_append, List.length_take]
    omega
  | case4 offset output _ hoffset =>
    have hall : output.consumed = marker.before ++ marker.text := by
      rw [hread, List.take_of_length_le (Nat.le_of_not_lt hoffset)]
    exact ⟨hwhole, by simp [hall], rfl, hall⟩

/-! ### One step -/

@[simp] theorem length_zeroed (frame : Bytes) : (zeroed frame).length = frame.length :=
  List.length_replicate

theorem zeroed_eq {frame : Bytes} (h : frame.length = sent.length) : zeroed frame = zeroed sent := by
  rw [zeroed, zeroed, h]

theorem Exchanged.readOn (hwhole : s.output.Whole) (hfilled : Filled sent s marker)
    (hread : s.output.consumed = marker.before ++ marker.text.take offset) :
    Exchanged sent (s.readOn marker offset pulled) := by
  have h : Read marker (readMarker marker offset s.output pulled).1
      (readMarker marker offset s.output pulled).2 := Read.of_readMarker hwhole hread
  have hstage := h.stage
  refine ⟨h.whole, ?_, ?_, ?_⟩
  · cases marker with
    | hello => exact congrArg List.length hfilled.2
    | prepared => exact (congrArg List.length hfilled.2).trans (length_zeroed sent)
  · simp only [Staged, Preparation.readOn]
    split at hstage
    · rename_i heq
      rw [heq, hstage.1]
      exact ⟨hstage.2, by cases marker <;> exact hfilled⟩
    · rename_i heq
      rw [heq, hstage.1]
      exact ⟨hstage.2, by cases marker <;> exact hfilled⟩
    · rename_i heq
      rw [heq]
      trivial
    · exact hstage.elim
  · cases marker with
    | hello => exact .inl (h.length.trans_eq (Nat.zero_add _))
    | prepared => exact .inr hfilled.1

/-- A step of the exchange, which is under way at `before`. -/
theorem Sound.exchange (h : Sound sent s) {before stage : Stage} (hstage : s.stage = before)
    (hopen : before.settled = false) {accepted frame : Bytes}
    (hx : Exchanged sent { s with stage, output, accepted, frame }) :
    Sound sent { s with stage, output, accepted, frame } := by
  rw [← hstage] at hopen
  refine ⟨hx, fun hreserved => ?_, h.once, fun htold => ?_, h.closed, fun hdone => ?_⟩
  · rw [(h.fresh hreserved).1] at hopen
    cases hopen
  · rw [h.told htold] at hopen
    cases hopen
  · rw [(h.done hdone).1] at hopen
    cases hopen

theorem Sound.failed (h : Sound sent s) {before stage : Stage} (hstage : s.stage = before)
    (hopen : before.settled = false) (hfailed : stage = .refused ∨ stage = .rejected) :
    Sound sent { s with stage } := by
  refine h.exchange hstage hopen ⟨h.whole, h.length, ?_, h.between⟩
  rcases hfailed with rfl | rfl <;> trivial

theorem Sound.writeNext (h : Sound sent s) {before : Stage} (hstage : s.stage = before)
    (hopen : before.settled = false) (hread : s.output.consumed = Marker.hello.text)
    (haccepted : s.accepted = sent.take offset) (hframe : s.frame = sent) :
    Sound sent (s.writeNext highWaterMark offset pulled) := by
  unfold Preparation.writeNext
  split
  · exact h.failed hstage hopen (.inr rfl)
  · split
    · by_cases hlength : min (min (s.frame.length - offset) highWaterMark) 65536 < 1
      · simp only [hlength, if_true]
        exact h.failed hstage hopen (.inr rfl)
      · simp only [hlength, if_false]
        exact h.exchange hstage hopen
          ⟨h.whole, h.length, ⟨hread, haccepted, hframe⟩, h.between⟩
    · rename_i hoffset
      rw [hframe] at hoffset
      exact h.exchange hstage hopen (Exchanged.readOn (s := s.zero) h.whole
        ⟨haccepted.trans (List.take_of_length_le (Nat.le_of_not_lt hoffset)), zeroed_eq h.length⟩
        (hread.trans (List.append_nil _).symm))

theorem Sound.continued (h : Sound sent s) : Sound sent (s.continued highWaterMark pulled) := by
  have hstaged := h.staged
  unfold Preparation.continued
  split
  · rename_i hstage
    simp only [Staged, hstage] at hstaged
    exact h.writeNext hstage rfl hstaged.1 hstaged.2.1 hstaged.2.2
  · rename_i hstage
    simp only [Staged, hstage] at hstaged
    exact h.writeNext hstage rfl hstaged.1 hstaged.2.1 hstaged.2.2
  · rename_i hstage
    simp only [Staged, hstage] at hstaged
    refine h.exchange hstage rfl ⟨h.whole, h.length, ?_, h.between⟩
    cases s.aborted
    · exact hstaged
    · trivial
  · rename_i hstage
    exact h.failed hstage rfl (.inr rfl)
  · exact h

/-- The controller aborts, whatever the caller is told for it. -/
theorem Sound.signal (h : Sound sent s) {told : Told} (htold : told = .resolved → s.told = told) :
    Sound sent { s with aborted := true, told } := by
  refine { h with staged := ?_, told := fun hresolved => h.told ((htold hresolved).trans hresolved) }
  have hstaged := h.staged
  unfold Staged at hstaged ⊢
  revert hstaged
  cases s.stage with
  | entering | opening => exact fun hstaged => ⟨hstaged.1, hstaged.2.1, nofun⟩
  | _ => exact id

theorem Sound.abort (h : Sound sent s) : Sound sent s.abort := by
  have hsignal : Sound sent { s with aborted := true, told := s.abort.told } := by
    refine h.signal ?_
    simp only [Preparation.abort]
    split
    · exact nofun
    · exact fun _ => rfl
  cases hstage : s.stage with
  | reading marker offset =>
    have hrefused := hsignal.failed hstage rfl (.inl rfl)
    simpa only [Preparation.abort, hstage] using hrefused
  | _ => simpa only [Preparation.abort, hstage] using hsignal

theorem Sound.zero (h : Sound sent s) (hstate : s.state = .closed) (hstaged : Staged sent s.zero) :
    Sound sent s.zero :=
  { h with
    length := (length_zeroed _).trans h.length
    staged := hstaged
    fresh := fun hreserved => absurd (hstate.symm.trans hreserved) nofun
    done := fun hdone => ⟨(h.done hdone).1, zeroed_eq h.length⟩ }

theorem Sound.close (h : Sound sent s) :
    Sound sent { s with state := .closed, cleanups := s.cleanups ++ [.acting] } :=
  { h with
    fresh := nofun, closed := fun _ => rfl, done := fun hdone => h.done (by simpa using hdone) }

theorem Sound.cleanup (h : Sound sent s) : Sound sent s.cleanup := by
  have hstaged := h.staged
  unfold Preparation.cleanup
  cases hstage : s.stage with
  | unentered =>
    simp only [Staged, hstage] at hstaged
    exact h.close.zero rfl (by simpa only [Staged, Preparation.zero, hstage] using hstaged)
  | entering =>
    simp only [Staged, hstage] at hstaged
    refine h.abort.close.zero rfl ?_
    simp only [Staged, Preparation.zero, Preparation.abort, hstage]
    exact ⟨hstaged.1, hstaged.2.1, nofun⟩
  | _ => exact h.abort.close

theorem Sound.start (h : Sound sent s) (signalled : Bool) : Sound sent (s.start signalled) := by
  unfold Preparation.start
  split
  · rename_i hreserved
    have ⟨hstage, hframe, hnone⟩ := h.fresh hreserved
    have hstaged := h.staged
    simp only [Staged, hstage] at hstaged
    have hclean : s.cleanups = [] := by
      by_contra hcleanups
      rw [h.closed hcleanups] at hreserved
      cases hreserved
    have hundone : .done ∉ s.cleanups := by simp [hclean]
    split
    · exact { h with
        staged := trivial, fresh := nofun, told := nofun
        closed := fun hcleanups => absurd hclean hcleanups
        done := fun hdone => absurd hdone hundone }
    · exact { h with
        staged := ⟨hstaged.1, hstaged.2, fun _ => hframe⟩, fresh := nofun, told := nofun
        once := Nat.le_of_eq (congrArg (· + 1) hnone)
        closed := fun hcleanups => absurd hclean hcleanups
        done := fun hdone => absurd hdone hundone }
  · exact h

theorem Sound.step (h : Sound sent s) (event : Event) :
    Sound sent (step highWaterMark s event) := by
  have hstaged := h.staged
  cases event with simp only [Credential.step]
  | start signalled => exact h.start signalled
  | entered =>
    split
    · rename_i hstage
      simp only [Staged, hstage] at hstaged
      exact h.exchange hstage rfl ⟨h.whole, h.length, hstaged, h.between⟩
    · exact h
  | opened ok pulled =>
    split
    · rename_i hstage
      simp only [Staged, hstage] at hstaged
      split
      · rename_i hok
        simp only [Bool.and_eq_true, Bool.not_eq_true'] at hok
        exact h.exchange hstage rfl
          (Exchanged.readOn h.whole ⟨hstaged.2.1, hstaged.2.2 hok.2⟩ hstaged.1)
      · exact h.failed hstage rfl (.inr rfl)
    · exact h
  | arrived chunk => exact { h with whole := h.whole.push chunk }
  | readable pulled =>
    split
    · rename_i hstage
      simp only [Staged, hstage] at hstaged
      exact h.exchange hstage rfl (Exchanged.readOn h.whole hstaged.2 hstaged.1)
    · exact h
  | ended =>
    have hended : Sound sent { s with output := { s.output with ended := true } } :=
      { h with whole := h.whole }
    split
    · rename_i hstage
      exact hended.failed hstage rfl (.inl rfl)
    · exact hended
  | acknowledged ok =>
    split
    · rename_i hstage
      simp only [Staged, hstage] at hstaged
      split
      · refine h.exchange hstage rfl
          ⟨h.whole, h.length, ⟨hstaged.1, ?_, hstaged.2.2⟩, .inl ?_⟩
        · simp only [hstaged.2.1, hstaged.2.2, List.take_add]
        · exact Nat.le_of_eq (congrArg List.length hstaged.1)
      · exact h.failed hstage rfl (.inl rfl)
    · exact h
  | continued pulled => exact h.continued
  | abort | deadline =>
    split
    · exact h.abort
    · exact h
  | observed =>
    split
    · rename_i hstage
      exact { h with told := fun _ => hstage }
    · exact { h with told := nofun }
    · exact h
  | caught =>
    split
    · exact { h.cleanup with told := nofun }
    · exact h
  | cleanup => exact h.cleanup
  | acted index ok =>
    split
    · rename_i hacting
      refine { h with
        closed := fun _ => h.closed (List.ne_nil_of_mem (List.mem_of_getElem? hacting))
        done := fun hdone => h.done ?_ }
      rcases List.mem_or_eq_of_mem_set hdone with hmem | heq
      · exact hmem
      · cases ok <;> cases heq
    · exact h
  | joined index =>
    split
    · rename_i hjoining
      have hclosed := h.closed (List.ne_nil_of_mem (List.mem_of_getElem? hjoining.1))
      have hzero : Staged sent s.zero := by
        unfold Staged at hstaged ⊢
        cases hstage : s.stage with
        | unentered => simpa only [Preparation.zero, hstage] using hstaged
        | rejected => simp only [Preparation.zero, hstage]
        | resolved =>
          simp only [hstage] at hstaged
          simp only [Preparation.zero, hstage]
          exact ⟨hstaged.1, hstaged.2.1, zeroed_eq h.length⟩
        | _ => simp [hstage, Stage.settled] at hjoining
      exact { h.zero hclosed hzero with
        closed := fun _ => hclosed, done := fun _ => ⟨hjoining.2, zeroed_eq h.length⟩ }
    · exact h

theorem Sound.run (events : List Event) (name : String) (bytes : Bytes) :
    Sound (encodeFrame name bytes) (run (Credential.step highWaterMark)
      (reserveSandboxCredentialProcess name bytes) events) :=
  run_invariant _ (fun _ event h => h.step event)
    ⟨⟨rfl, rfl, ⟨rfl, rfl⟩, .inl (Nat.zero_le _)⟩, fun _ => ⟨rfl, rfl, rfl⟩,
      Nat.zero_le _, nofun, fun h => absurd rfl h, nofun⟩ events

/-! ### Every run -/

/-- Nothing starts a process but a start of a reservation that is neither started nor closed. -/
theorem starts_step (hclosed : s.state = .closed) (event : Event) :
    (step highWaterMark s event).starts = s.starts := by
  cases event with
  | start signalled => simp [step, Preparation.start, hclosed]
  | continued pulled =>
    simp only [step, Preparation.continued, Preparation.writeNext]
    repeat' split
    all_goals rfl
  | caught | cleanup =>
    simp only [step, Preparation.cleanup]
    repeat' split
    all_goals rfl
  | _ =>
    simp only [step]
    repeat' split
    all_goals rfl

/-- **The credential prefix** of one process, whatever the order of its steps.  The process is
started at most once and never after a cleanup; the start resolves only when its stdout
began with both markers and its stdin has accepted the frame, and leaves what came behind
the markers; nothing is written before the whole hello marker was read, and nothing behind it
is read before the frame was accepted; the frame is not zeroed while a write of it is
pending, and it is zero once the start has resolved or a cleanup is done. -/
theorem prefix_is_exact (name : String) (bytes : Bytes) (highWaterMark : Nat)
    (events : List Event) :
    let sent := encodeFrame name bytes
    let s := run (step highWaterMark) (reserveSandboxCredentialProcess name bytes) events
    s.starts ≤ 1 ∧
    (s.cleanups ≠ [] → ∀ event, (step highWaterMark s event).starts = s.starts) ∧
    (s.told = .resolved → s.accepted = sent ∧
      s.output.arrived = Marker.hello.text ++ Marker.prepared.text ++ s.output.buffer) ∧
    (s.output.consumed.length ≤ Marker.hello.text.length ∨ s.accepted = sent) ∧
    (∀ offset length, s.stage = .writing offset length →
      Marker.hello.text = s.output.consumed ∧ s.frame = sent) ∧
    (s.told = .resolved ∨ .done ∈ s.cleanups → s.frame = zeroed sent) := by
  intro sent s
  have h : Sound sent s := Sound.run events name bytes
  have hstaged := h.staged
  refine ⟨h.once, fun hcleanups event => starts_step (h.closed hcleanups) event, fun htold => ?_,
    h.between, fun offset length hstage => ?_, fun hended => ?_⟩
  · simp only [Staged, h.told htold] at hstaged
    refine ⟨hstaged.2.1, h.whole.trans ?_⟩
    rw [hstaged.1]
    rfl
  · simp only [Staged, hstage] at hstaged
    exact ⟨hstaged.1.symm, hstaged.2.2⟩
  · rcases hended with htold | hdone
    · simp only [Staged, h.told htold] at hstaged
      exact hstaged.2.2
    · exact (h.done hdone).2

end AgentSdk.Sandbox.Credential
