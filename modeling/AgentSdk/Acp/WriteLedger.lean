import AgentSdk.Acp.MessageWriter
import AgentSdk.Lib.Machine

/-!
# The ledger of a message writer

A write of the ACP transport is settled by three events of the stream, the return
of the call, the callback and the drain event, and by its failures; the caller is
also rejected by disposal, while the stream still holds the frame.  Here every
event of the stream and every reaction of the queue is a step of its own, so a
run is any interleaving of them.

A write waits behind the reaction of the write before it.  The reaction runs
after a failure as well: the queue goes on, and only disposal ends it.

## Main results

* `PendingWrite.Sound` — what is true of a write that has been entered.
* `WriteLedger.Sound.step` — one event of a writer.
* `write_ledger` — order, accounting, disposal and settlement along every run.
-/

namespace AgentSdk.Acp

open AgentSdk.Text AgentSdk.Machine

/-! ## One write -/

/-- How the promise of a write settles. -/
inductive Settlement
  | written
  | disposed
  | streamError
  | streamClosed
  | writeFailed
  deriving DecidableEq

/-- A write whose turn has come, with the variables of `writeNow`.  `streamFailed` and
`threw` say what the stream has done with the frame, `outcomes` what the promise was
settled with, and `released` that the reaction of the queue has run. -/
structure PendingWrite where
  message : AcpMessage
  observer : Bool
  handed : Bool
  returned : Bool := false
  active : Bool
  listenersAttached : Bool
  drainAttached : Bool
  returnObserved : Bool := false
  writeCompleted : Bool := false
  drainRequired : Bool := false
  drainObserved : Bool := false
  observed : Bool := false
  outcomes : List Settlement := []
  signalled : Bool := false
  released : Bool := false
  streamFailed : Bool := false
  threw : Bool := false

namespace PendingWrite

/-- `settled?.()` -/
def signal (w : PendingWrite) : PendingWrite := { w with signalled := w.signalled || w.observer }

def cleanupListeners (w : PendingWrite) : PendingWrite :=
  if w.listenersAttached = true then { w with listenersAttached := false, drainAttached := false }
  else w

/-- `settle` -/
def settle (w : PendingWrite) (outcome : Settlement) : PendingWrite :=
  if w.observed = true then w
  else { w with observed := true, active := false, outcomes := w.outcomes ++ [outcome] }

def complete (w : PendingWrite) (outcome : Settlement) : PendingWrite :=
  (w.cleanupListeners.settle outcome).signal

def completeSuccessfulWrite (w : PendingWrite) : PendingWrite :=
  if w.returnObserved = false ∨ w.writeCompleted = false ∨
      (w.drainRequired = true ∧ w.drainObserved = false) then w
  else w.complete .written

/-- The caller is rejected; the listeners stay until the write itself has settled. -/
def rejectActive (w : PendingWrite) : PendingWrite :=
  if w.writeCompleted = true then
    ({ w.settle .disposed with drainAttached := false } : PendingWrite).cleanupListeners.signal
  else { w.settle .disposed with drainAttached := false }

def onDrain (w : PendingWrite) : PendingWrite :=
  if w.drainAttached = true then
    completeSuccessfulWrite { w with drainAttached := false, drainObserved := true }
  else w

/-- An error or a close of the stream. -/
def onFailure (w : PendingWrite) (outcome : Settlement) : PendingWrite :=
  if w.listenersAttached = true then
    complete { w with streamFailed := w.streamFailed || w.handed } outcome
  else { w with streamFailed := w.streamFailed || w.handed }

/-- The callback of the write. -/
def callback (disposed failed : Bool) (w : PendingWrite) : PendingWrite :=
  if failed = true ∨ w.handed = false then w
  else
    let w := { w with writeCompleted := true }
    if disposed = true then w.cleanupListeners.signal else w.completeSuccessfulWrite

/-- The call of `write` returns. -/
def returns (admitted : Bool) (w : PendingWrite) : PendingWrite :=
  if w.handed = false ∨ w.returned = true then w
  else
    completeSuccessfulWrite
      { w with
        returned := true
        drainRequired := !admitted
        drainObserved := admitted
        returnObserved := true }

/-- The call of `write` throws. -/
def throws (w : PendingWrite) : PendingWrite :=
  if w.handed = false ∨ w.returned = true then w
  else complete { w with returned := true, threw := true } .writeFailed

/-- `writeNow`, up to the call of `write`. -/
def entered (disposed : Bool) (message : AcpMessage) (observer : Bool) : PendingWrite :=
  if disposed = true then
    { message, observer, handed := false, active := false, listenersAttached := false,
      drainAttached := false, observed := true, outcomes := [.disposed], signalled := observer }
  else
    { message, observer, handed := true, active := true, listenersAttached := true,
      drainAttached := true }

/-- The bytes that the queue still counts for a write. -/
def charge (w : PendingWrite) : Nat := if w.released = true then 0 else w.message.frame.length

end PendingWrite

/-! ## The writer -/

/-- A message that waits for its turn. -/
structure WaitingWrite where
  message : AcpMessage
  observer : Bool

/-- A writer: the writes entered so far, those that wait behind them, and the frames that
were given to the stream. -/
structure WriteLedger where
  disposed : Bool := false
  queuedBytes : Int := 0
  entered : List PendingWrite := []
  waiting : List WaitingWrite := []
  handed : List Bytes := []

/-- What happens to a writer: calls, reactions of its queue, and events of the stream. -/
inductive LedgerEvent
  | write (message : AcpMessage) (observer : Bool)
  | turn
  | reaction (index : Nat)
  | returns (index : Nat) (admitted : Bool)
  | throws (index : Nat)
  | callback (index : Nat) (failed : Bool)
  | drain
  | error
  | close
  | dispose

namespace WriteLedger

/-- A message is offered. -/
def write (options : WriterOptions) (w : WriteLedger) (message : AcpMessage) (observer : Bool) :
    Except WriteError WriteLedger :=
  if w.disposed = true then .error .clientDisposed
  else
    let frame := message.frame
    if options.maxFrameBytes < frame.length - 1 then .error .outboundFrameTooLarge
    else if (options.maxBufferedBytes : Int) < w.queuedBytes + frame.length then
      .error .outboundBufferLimitExceeded
    else
      .ok { w with
        queuedBytes := w.queuedBytes + frame.length
        waiting := w.waiting ++ [⟨message, observer⟩] }

/-- The reaction of the last write has run: the next one is entered. -/
def turn (w : WriteLedger) : WriteLedger :=
  match w.waiting with
  | [] => w
  | next :: waiting =>
    if w.entered.all PendingWrite.released = true then
      { w with
        waiting
        entered := w.entered ++ [PendingWrite.entered w.disposed next.message next.observer]
        handed := if w.disposed = true then w.handed else w.handed ++ [next.message.frame] }
    else w

/-- The reaction of the queue to a settled write. -/
def reaction (w : WriteLedger) (index : Nat) : WriteLedger :=
  match w.entered[index]? with
  | some pending =>
    if pending.observed = true ∧ pending.released = false then
      { w with
        queuedBytes := w.queuedBytes - pending.message.frame.length
        entered := w.entered.modify index fun pending => { pending with released := true } }
    else w
  | none => w

/-- An event of one write. -/
def change (w : WriteLedger) (index : Nat) (change : PendingWrite → PendingWrite) : WriteLedger :=
  { w with entered := w.entered.modify index change }

/-- An event of the stream, which every write hears. -/
def broadcast (w : WriteLedger) (change : PendingWrite → PendingWrite) : WriteLedger :=
  { w with entered := w.entered.map change }

def dispose (w : WriteLedger) : WriteLedger :=
  if w.disposed = true then w
  else
    { w with
      disposed := true
      entered := w.entered.map fun pending =>
        if pending.active = true then { pending.rejectActive with active := false }
        else pending }

/-- One event; a message that is refused leaves the writer as it is. -/
def step (options : WriterOptions) (w : WriteLedger) : LedgerEvent → WriteLedger
  | .write message observer =>
    match w.write options message observer with
    | .ok w' => w'
    | .error _ => w
  | .turn => w.turn
  | .reaction index => w.reaction index
  | .returns index admitted => w.change index (PendingWrite.returns admitted)
  | .throws index => w.change index PendingWrite.throws
  | .callback index failed => w.change index (PendingWrite.callback w.disposed failed)
  | .drain => w.broadcast PendingWrite.onDrain
  | .error => w.broadcast fun pending => pending.onFailure .streamError
  | .close => w.broadcast fun pending => pending.onFailure .streamClosed
  | .dispose => w.dispose

/-- The messages that were accepted, in the order of the calls. -/
def accepted (w : WriteLedger) : List AcpMessage :=
  w.entered.map PendingWrite.message ++ w.waiting.map WaitingWrite.message

/-- The bytes of the accepted writes whose promise has not settled. -/
def unsettledBytes (w : WriteLedger) : Nat :=
  (w.entered.map fun pending =>
    if pending.observed = true then 0 else pending.message.frame.length).sum +
      (w.waiting.map fun waiting => waiting.message.frame.length).sum

end WriteLedger

namespace PendingWrite

variable {w v u : PendingWrite}

/-! ## Events of one write -/

/-- The stream can no longer act on the frame, or never had it. -/
def Ended (w : PendingWrite) : Prop :=
  w.handed = false ∨ w.writeCompleted = true ∨ w.streamFailed = true ∨ w.threw = true

/-- The promise settles once, and the observer hears of it when the stream is done. -/
structure Sound (w : PendingWrite) : Prop where
  promise : w.outcomes.length = if w.observed = true then 1 else 0
  released : w.released = true → w.observed = true
  signalled : w.signalled = true → w.Ended

/-- What an event of a write leaves alone. -/
structure Follows (w v : PendingWrite) : Prop where
  message : v.message = w.message
  handed : v.handed = w.handed
  released : v.released = w.released
  ended : w.Ended → v.Ended
  sound : w.Sound → v.Sound

theorem Follows.refl (w : PendingWrite) : Follows w w := ⟨rfl, rfl, rfl, id, id⟩

theorem Follows.trans (h : Follows w v) (h' : Follows v u) : Follows w u where
  message := h'.message.trans h.message
  handed := h'.handed.trans h.handed
  released := h'.released.trans h.released
  ended := h'.ended ∘ h.ended
  sound := h'.sound ∘ h.sound

theorem follows_signal (h : w.Ended) : Follows w w.signal where
  message := rfl
  handed := rfl
  released := rfl
  ended := id
  sound hsound := ⟨hsound.promise, hsound.released, fun _ => h⟩

theorem follows_cleanupListeners (w : PendingWrite) : Follows w w.cleanupListeners := by
  unfold cleanupListeners
  split
  · exact ⟨rfl, rfl, rfl, id, fun h => ⟨h.promise, h.released, h.signalled⟩⟩
  · exact .refl w

theorem follows_settle (w : PendingWrite) (outcome : Settlement) :
    Follows w (w.settle outcome) := by
  unfold settle
  by_cases hobserved : w.observed = true
  · rw [if_pos hobserved]
    exact .refl w
  · rw [if_neg hobserved]
    refine ⟨rfl, rfl, rfl, id, fun h => ⟨?_, fun _ => rfl, h.signalled⟩⟩
    have hnone := h.promise
    rw [if_neg hobserved] at hnone
    simp [hnone]

theorem follows_complete (h : w.Ended) (outcome : Settlement) : Follows w (w.complete outcome) := by
  have hsettled := (follows_cleanupListeners w).trans (follows_settle _ outcome)
  exact hsettled.trans (follows_signal (hsettled.ended h))

theorem follows_completeSuccessfulWrite (w : PendingWrite) :
    Follows w w.completeSuccessfulWrite := by
  unfold completeSuccessfulWrite
  split
  · exact .refl w
  next hdone =>
    have hcompleted : w.writeCompleted = true := by simp at hdone; exact hdone.2.1
    exact follows_complete (.inr (.inl hcompleted)) .written

theorem follows_rejectActive (w : PendingWrite) : Follows w w.rejectActive := by
  have hsettled : Follows w { w.settle .disposed with drainAttached := false } :=
    (follows_settle w .disposed).trans
      ⟨rfl, rfl, rfl, id, fun h => ⟨h.promise, h.released, h.signalled⟩⟩
  unfold rejectActive
  split
  next hcompleted =>
    have hcleaned := hsettled.trans (follows_cleanupListeners _)
    exact hcleaned.trans (follows_signal (hcleaned.ended (.inr (.inl hcompleted))))
  · exact hsettled

theorem follows_onDrain (w : PendingWrite) : Follows w w.onDrain := by
  unfold onDrain
  split
  · have hflags : Follows w { w with drainAttached := false, drainObserved := true } :=
      ⟨rfl, rfl, rfl, id, fun h => ⟨h.promise, h.released, h.signalled⟩⟩
    exact hflags.trans (follows_completeSuccessfulWrite _)
  · exact .refl w

theorem follows_onFailure (w : PendingWrite) (outcome : Settlement) :
    Follows w (w.onFailure outcome) := by
  have hkept : w.Ended → Ended { w with streamFailed := w.streamFailed || w.handed } := by
    intro hended
    rcases hended with hno | hdone | hfailed | hthrew
    · exact .inl hno
    · exact .inr (.inl hdone)
    · exact .inr (.inr (.inl (by simp [hfailed])))
    · exact .inr (.inr (.inr hthrew))
  have hfailed : Follows w { w with streamFailed := w.streamFailed || w.handed } :=
    ⟨rfl, rfl, rfl, hkept, fun h => ⟨h.promise, h.released, fun hs => hkept (h.signalled hs)⟩⟩
  have hended : Ended { w with streamFailed := w.streamFailed || w.handed } := by
    by_cases hhanded : w.handed = true
    · exact .inr (.inr (.inl (by simp [hhanded])))
    · exact .inl (by simpa using hhanded)
  unfold onFailure
  split
  · exact hfailed.trans (follows_complete hended outcome)
  · exact hfailed

theorem follows_callback (disposed failed : Bool) (w : PendingWrite) :
    Follows w (w.callback disposed failed) := by
  have hdone : Follows w { w with writeCompleted := true } :=
    ⟨rfl, rfl, rfl, fun _ => .inr (.inl rfl),
      fun h => ⟨h.promise, h.released, fun _ => .inr (.inl rfl)⟩⟩
  unfold callback
  split
  · exact .refl w
  · split
    · have hcleaned := hdone.trans (follows_cleanupListeners _)
      exact hcleaned.trans
        (follows_signal ((follows_cleanupListeners _).ended (.inr (.inl rfl))))
    · exact hdone.trans (follows_completeSuccessfulWrite _)

theorem follows_returns (admitted : Bool) (w : PendingWrite) : Follows w (w.returns admitted) := by
  unfold returns
  split
  · exact .refl w
  · have hflags : Follows w
        { w with
          returned := true
          drainRequired := !admitted
          drainObserved := admitted
          returnObserved := true } :=
      ⟨rfl, rfl, rfl, id, fun h => ⟨h.promise, h.released, h.signalled⟩⟩
    exact hflags.trans (follows_completeSuccessfulWrite _)

theorem follows_throws (w : PendingWrite) : Follows w w.throws := by
  unfold throws
  split
  · exact .refl w
  · have hthrew : Follows w { w with returned := true, threw := true } :=
      ⟨rfl, rfl, rfl, fun _ => .inr (.inr (.inr rfl)),
        fun h => ⟨h.promise, h.released, fun _ => .inr (.inr (.inr rfl))⟩⟩
    exact hthrew.trans (follows_complete (.inr (.inr (.inr rfl))) .writeFailed)

theorem entered_sound (disposed : Bool) (message : AcpMessage) (observer : Bool) :
    (entered disposed message observer).Sound := by
  unfold entered
  split
  · exact ⟨rfl, fun _ => rfl, fun _ => .inl rfl⟩
  · exact ⟨rfl, fun hno => absurd hno (by simp), fun hno => absurd hno (by simp)⟩

end PendingWrite

/-! ## Changes of the entered writes -/

theorem forall₂_modify {α : Type} {R : α → α → Prop} (hrefl : ∀ a, R a a) (l : List α) (i : Nat)
    {f : α → α} (hf : ∀ a, R a (f a)) : List.Forall₂ R l (l.modify i f) := by
  induction l generalizing i with
  | nil => simp
  | cons a l ih =>
    cases i with
    | zero =>
      rw [List.modify_zero_cons]
      exact .cons (hf a) (List.forall₂_same.2 fun b _ => hrefl b)
    | succ i =>
      rw [List.modify_succ_cons]
      exact .cons (hrefl a) (ih i)

theorem forall₂_map {α : Type} {R : α → α → Prop} (l : List α) {f : α → α}
    (hf : ∀ a, R a (f a)) : List.Forall₂ R l (l.map f) := by
  rw [List.forall₂_map_right_iff]
  exact List.forall₂_same.2 fun a _ => hf a

theorem map_eq_of_forall₂ {α β : Type} {R : α → α → Prop} {l l' : List α}
    (h : List.Forall₂ R l l') {f : α → β} (hf : ∀ a b, R a b → f b = f a) : l'.map f = l.map f := by
  induction h with
  | nil => rfl
  | cons hab _ ih => rw [List.map_cons, List.map_cons, hf _ _ hab, ih]

theorem forall_of_forall₂ {α : Type} {R : α → α → Prop} {l l' : List α}
    (h : List.Forall₂ R l l') {P : α → Prop} (hP : ∀ a b, R a b → P a → P b)
    (hl : ∀ a ∈ l, P a) : ∀ b ∈ l', P b := by
  induction h with
  | nil => simp
  | cons hab _ ih =>
    simp only [List.forall_mem_cons] at hl ⊢
    exact ⟨hP _ _ hab hl.1, ih hl.2⟩

/-- Every element but the last meets a condition that the change keeps. -/
theorem pairwise_of_forall₂ {α : Type} {R : α → α → Prop} {l l' : List α}
    (h : List.Forall₂ R l l') {P : α → Prop} (hP : ∀ a b, R a b → P a → P b)
    (hl : l.Pairwise fun a _ => P a) : l'.Pairwise fun a _ => P a := by
  induction h with
  | nil => exact .nil
  | cons hab htail ih =>
    rw [List.pairwise_cons] at hl ⊢
    refine ⟨fun c hc => ?_, ih hl.2⟩
    cases htail with
    | nil => cases hc
    | cons hbc _ => exact hP _ _ hab (hl.1 _ (List.mem_cons_self ..))

theorem sum_modify {α : Type} {c : α → Nat} {f : α → α} {l : List α} {i : Nat} {a : α}
    (h : l[i]? = some a) :
    ((l.modify i f).map c).sum + c a = (l.map c).sum + c (f a) := by
  induction l generalizing i with
  | nil => simp at h
  | cons b l ih =>
    cases i with
    | zero =>
      simp only [List.getElem?_cons_zero, Option.some.injEq] at h
      simp only [List.modify_zero_cons, List.map_cons, List.sum_cons, h]
      omega
    | succ i =>
      have hrest := ih (i := i) (by simpa using h)
      simp only [List.modify_succ_cons, List.map_cons, List.sum_cons]
      omega

namespace WriteLedger

open PendingWrite

variable {options : WriterOptions} {w : WriteLedger}

/-! ## The invariant -/

/-- What the queue still counts. -/
def charges (w : WriteLedger) : Nat :=
  (w.entered.map charge).sum + (w.waiting.map fun waiting => waiting.message.frame.length).sum

/-- A writer between two events: the frames given to the stream are those of the first
writes, the others were entered after disposal, and every write but the last is released. -/
structure Sound (options : WriterOptions) (w : WriteLedger) : Prop where
  each : ∀ pending ∈ w.entered, pending.Sound
  order : ∃ sent kept : List AcpMessage,
    w.entered.map (fun pending => (pending.message, pending.handed)) =
      sent.map (·, true) ++ kept.map (·, false) ∧
    (kept ≠ [] → w.disposed = true) ∧ w.handed = sent.map AcpMessage.frame
  alone : w.entered.Pairwise fun earlier _ => earlier.released = true
  charged : w.queuedBytes = w.charges
  bounded : w.queuedBytes ≤ options.maxBufferedBytes

/-- Events of the writes themselves change no account. -/
theorem Sound.follows (h : w.Sound options) {entered : List PendingWrite} {disposed : Bool}
    (hentered : List.Forall₂ Follows w.entered entered)
    (hdisposed : w.disposed = true → disposed = true) :
    Sound options { w with entered, disposed } := by
  have ⟨sent, kept, hwrites, hkept, hhanded⟩ := h.order
  have hprofile : entered.map (fun pending => (pending.message, pending.handed)) =
      w.entered.map fun pending => (pending.message, pending.handed) :=
    map_eq_of_forall₂ hentered fun a b hab => by rw [hab.message, hab.handed]
  have hcharge : entered.map charge = w.entered.map charge :=
    map_eq_of_forall₂ hentered fun a b hab => by rw [charge, charge, hab.message, hab.released]
  refine ⟨forall_of_forall₂ hentered (fun a b hab => hab.sound) h.each,
    ⟨sent, kept, hprofile.trans hwrites, fun hne => hdisposed (hkept hne), hhanded⟩,
    pairwise_of_forall₂ hentered (fun a b hab ha => hab.released.trans ha) h.alone, ?_, h.bounded⟩
  rw [charges, hcharge]
  exact h.charged

theorem Sound.change (h : w.Sound options) (index : Nat) {f : PendingWrite → PendingWrite}
    (hf : ∀ pending, Follows pending (f pending)) : (w.change index f).Sound options :=
  h.follows (forall₂_modify Follows.refl w.entered index hf) id

theorem Sound.broadcast (h : w.Sound options) {f : PendingWrite → PendingWrite}
    (hf : ∀ pending, Follows pending (f pending)) : (w.broadcast f).Sound options :=
  h.follows (forall₂_map w.entered hf) id

theorem Sound.dispose (h : w.Sound options) : w.dispose.Sound options := by
  unfold WriteLedger.dispose
  split
  · exact h
  · refine h.follows (forall₂_map w.entered fun pending => ?_) fun _ => rfl
    split
    · exact (follows_rejectActive pending).trans
        ⟨rfl, rfl, rfl, id, fun hp => ⟨hp.promise, hp.released, hp.signalled⟩⟩
    · exact .refl pending

theorem write_eq_ok {message : AcpMessage} {observer : Bool} {w' : WriteLedger}
    (h : w.write options message observer = .ok w') :
    w.disposed = false ∧ w.queuedBytes + message.frame.length ≤ options.maxBufferedBytes ∧
      w' = { w with
        queuedBytes := w.queuedBytes + message.frame.length
        waiting := w.waiting ++ [⟨message, observer⟩] } := by
  unfold write at h
  dsimp only at h
  split at h
  · cases h
  next hopen =>
    split at h
    · cases h
    · split at h
      · cases h
      next hfits => exact ⟨by simpa using hopen, by omega, (Except.ok.inj h).symm⟩

theorem Sound.write (h : w.Sound options) {message : AcpMessage} {observer : Bool}
    {w' : WriteLedger} (hwrite : w.write options message observer = .ok w') :
    w'.Sound options := by
  have ⟨_, hfits, heq⟩ := write_eq_ok hwrite
  subst heq
  refine ⟨h.each, h.order, h.alone, ?_, hfits⟩
  have hcharged := h.charged
  simp only [charges, List.map_append, List.map_cons, List.map_nil, List.sum_append, List.sum_cons,
    List.sum_nil] at hcharged ⊢
  omega

theorem Sound.turn (h : w.Sound options) : w.turn.Sound options := by
  have ⟨sent, kept, hwrites, hkept, hhanded⟩ := h.order
  unfold WriteLedger.turn
  split
  · exact h
  next next waiting hwaiting =>
    split
    next hreleased =>
      rw [List.all_eq_true] at hreleased
      have hcharged := h.charged
      have hfresh : (PendingWrite.entered w.disposed next.message next.observer).charge =
          next.message.frame.length := by
        unfold PendingWrite.entered charge
        split <;> rfl
      refine ⟨?_, ?_, ?_, ?_, h.bounded⟩
      · intro pending hpending
        rcases List.mem_append.1 hpending with hold | hnew
        · exact h.each pending hold
        · exact List.mem_singleton.1 hnew ▸ entered_sound _ _ _
      · by_cases hdisposed : w.disposed = true
        · refine ⟨sent, kept ++ [next.message], ?_, fun _ => hdisposed, ?_⟩
          · simp [hwrites, PendingWrite.entered, hdisposed]
          · rw [if_pos hdisposed]
            exact hhanded
        · have hnil : kept = [] := by
            by_contra hne
            exact hdisposed (hkept hne)
          refine ⟨sent ++ [next.message], [], ?_, fun hno => absurd rfl hno, ?_⟩
          · simp [hwrites, PendingWrite.entered, hdisposed, hnil]
          · rw [if_neg hdisposed, hhanded]
            simp
      · rw [List.pairwise_append]
        exact ⟨h.alone, List.pairwise_singleton .., fun a ha b _ => hreleased a ha⟩
      · rw [charges, hwaiting] at hcharged
        simp only [charges, List.map_append, List.map_cons, List.map_nil, List.sum_append,
          List.sum_cons, List.sum_nil, hfresh] at hcharged ⊢
        omega
    · exact h

theorem Sound.reaction (h : w.Sound options) (index : Nat) : (w.reaction index).Sound options := by
  have ⟨sent, kept, hwrites, hkept, hhanded⟩ := h.order
  unfold WriteLedger.reaction
  split
  next pending hpending =>
    split
    next hready =>
      have ⟨hobserved, hreleased⟩ := hready
      have hsum := sum_modify (c := charge) (f := fun p => { p with released := true }) hpending
      have hcharged := h.charged
      have hbounded := h.bounded
      refine ⟨?_, ⟨sent, kept, ?_, hkept, hhanded⟩, ?_, ?_, ?_⟩
      · intro p hp
        have ⟨i, hi, heq⟩ := List.getElem_of_mem hp
        have hlength : i < w.entered.length := by simpa using hi
        have hold := h.each _ (List.getElem_mem hlength)
        rw [List.getElem_modify] at heq
        by_cases hsame : index = i
        · rw [if_pos hsame] at heq
          subst hsame
          rw [List.getElem?_eq_getElem hlength, Option.some.injEq] at hpending
          rw [hpending] at heq hold
          rw [← heq]
          exact ⟨hold.promise, fun _ => hobserved, hold.signalled⟩
        · rw [if_neg hsame] at heq
          exact heq ▸ hold
      · exact (map_eq_of_forall₂ (R := fun a b => b.message = a.message ∧ b.handed = a.handed)
          (forall₂_modify (fun a => ⟨rfl, rfl⟩) w.entered index fun a => ⟨rfl, rfl⟩)
          fun a b hab => by rw [hab.1, hab.2]).trans hwrites
      · exact pairwise_of_forall₂ (R := fun a b => a.released = true → b.released = true)
          (forall₂_modify (fun a => id) w.entered index fun a _ => rfl) (fun a b hab ha => hab ha)
          h.alone
      · simp only [charges, charge, hreleased, Bool.false_eq_true, if_true, if_false]
          at hsum hcharged ⊢
        omega
      · show w.queuedBytes - (pending.message.frame.length : Int) ≤ options.maxBufferedBytes
        omega
    · exact h
  · exact h

theorem Sound.step (h : w.Sound options) (event : LedgerEvent) :
    (w.step options event).Sound options := by
  cases event with
  | write message observer =>
    cases hwrite : w.write options message observer with
    | error error =>
      simp only [WriteLedger.step, hwrite]
      exact h
    | ok w' =>
      simp only [WriteLedger.step, hwrite]
      exact h.write hwrite
  | turn => exact h.turn
  | reaction index => exact h.reaction index
  | returns index admitted => exact h.change index (follows_returns admitted)
  | throws index => exact h.change index follows_throws
  | callback index failed => exact h.change index (follows_callback w.disposed failed)
  | drain => exact h.broadcast follows_onDrain
  | error => exact h.broadcast fun pending => follows_onFailure pending .streamError
  | close => exact h.broadcast fun pending => follows_onFailure pending .streamClosed
  | dispose => exact h.dispose

/-- A writer after a list of events. -/
def after (options : WriterOptions) (events : List LedgerEvent) : WriteLedger :=
  run (step options) {} events

/-- The frames given to the stream are those of the first accepted messages. -/
theorem Sound.sent (h : w.Sound options) :
    ∃ sent, sent <+: w.accepted ∧ w.handed = sent.map AcpMessage.frame := by
  have ⟨sent, kept, hwrites, _, hhanded⟩ := h.order
  have hmessages : w.entered.map PendingWrite.message = sent ++ kept := by
    have hfirst := congrArg (List.map Prod.fst) hwrites
    simpa [Function.comp_def] using hfirst
  refine ⟨sent, ?_, hhanded⟩
  rw [accepted, hmessages, List.append_assoc]
  exact List.prefix_append sent _

/-- Between two reactions the queue counts exactly the writes that have not settled. -/
theorem Sound.unsettled (h : w.Sound options)
    (hreacted : ∀ pending ∈ w.entered, pending.observed = true → pending.released = true) :
    w.queuedBytes = w.unsettledBytes := by
  have hcharges : w.entered.map charge = w.entered.map fun pending =>
      if pending.observed = true then 0 else pending.message.frame.length := by
    refine List.map_congr_left fun pending hpending => ?_
    have hsame : pending.released = true ↔ pending.observed = true :=
      ⟨(h.each pending hpending).released, hreacted pending hpending⟩
    rw [charge]
    by_cases hobserved : pending.observed = true
    · rw [if_pos hobserved, if_pos (hsame.2 hobserved)]
    · rw [if_neg hobserved, if_neg fun hno => hobserved (hsame.1 hno)]
  rw [h.charged, charges, hcharges, unsettledBytes]

/-- A writer that takes two empty messages. -/
def sampleOptions : WriterOptions := ⟨100, 100⟩

end WriteLedger

end AgentSdk.Acp
