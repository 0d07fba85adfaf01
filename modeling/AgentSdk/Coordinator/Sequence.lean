import AgentSdk.Lib.Machine
import Mathlib.Data.List.Nodup
import Mathlib.Data.List.Perm.Subperm

/-!
# The coordinator's physical sequence

`DesktopCoordinatorSequence` owns one physical slot.  Works of callers wait in a
queue, a shared observation waits beside it, and `settle` cuts the works owned
at its call off from all later ones.  The operations below are those of the
class, made of the same private steps `retire` and `dispatch`; what a work
performs is the caller's, so the end of a work is an input of its own, and so
is the microtask that dispatches after it.

The history is what an observer sees of the class: its entries are written
where a promise is handed out, a work is performed or a promise settles.

## Main results

* `prune_strict`, `prune_covers` — dropping empty and repeated cuts leaves a
  strictly growing list that still holds every cut.
-/

namespace AgentSdk.Coordinator

/-! ## Works and cuts -/

inductive WorkKind
  | ordinary | cleanup | observation
  deriving DecidableEq, Repr

/-- A work: the cell is told apart by `id`, which grows with every new cell. -/
structure SequenceWork where
  id : Nat
  kind : WorkKind
  /-- Whether an abort listener was attached. -/
  signal : Bool
  deriving DecidableEq, Repr

/-- Works that a caller of the sequence submitted. -/
def SequenceWork.IsCaller (work : SequenceWork) : Prop := work.kind ≠ .observation

instance (work : SequenceWork) : Decidable work.IsCaller :=
  inferInstanceAs (Decidable (work.kind ≠ .observation))

inductive Resource
  | ordinary | queue
  deriving DecidableEq, Repr

inductive SequenceFailure
  | capacityExhausted (resource : Resource)
  | cancelled
  deriving DecidableEq, Repr

/-- What an observer of the sequence sees, newest first in a history. -/
inductive Entry
  | submitted (work : SequenceWork)
  | refused (kind : WorkKind) (failure : SequenceFailure)
  | started (work : SequenceWork)
  | finished (work : SequenceWork)
  | cancelled (work : SequenceWork)
  | settling (owned : List SequenceWork)
  deriving DecidableEq

/-- Two cuts hold the same works; cuts are sets, listed without repetition. -/
def sameFrontier (left right : List SequenceWork) : Bool :=
  left.length == right.length && left.all fun work => right.contains work

/-- The filter of `retire`: a cut is kept when it is not empty and differs from
the cut before it in the list that is filtered. -/
def prune : Option (List SequenceWork) → List (List SequenceWork) → List (List SequenceWork)
  | _, [] => []
  | previous, frontier :: frontiers =>
    if 0 < frontier.length ∧ previous.all (fun cut => !sameFrontier frontier cut) = true then
      frontier :: prune (some frontier) frontiers
    else prune (some frontier) frontiers

/-! ## The class -/

/-- The private fields of `DesktopCoordinatorSequence`; then the works whose
`completion` is resolved, the pending `queueMicrotask` calls, the next fresh
cell and the history. -/
structure Sequence where
  entered : Option SequenceWork
  queued : List SequenceWork
  observation : Option SequenceWork
  observationBeforeCaller : Bool
  frontiers : List (List SequenceWork)
  completed : List SequenceWork
  microtasks : Nat
  nextWork : Nat
  history : List Entry
  deriving DecidableEq

namespace Sequence

/-- A new sequence. -/
def empty : Sequence :=
  { entered := none, queued := [], observation := none, observationBeforeCaller := false,
    frontiers := [], completed := [], microtasks := 0, nextWork := 0, history := [] }

variable (s : Sequence)

/-- `retire`: the work leaves the observation and every cut, and completes. -/
def retire (work : SequenceWork) : Sequence :=
  { s with
    observation := if s.observation = some work then none else s.observation
    frontiers := prune none (s.frontiers.map fun frontier => frontier.filter (· ≠ work))
    completed := work :: s.completed }

/-- A work may enter when the first cut, if there is one, holds it. -/
def eligible (work : SequenceWork) : Bool :=
  match s.frontiers.head? with
  | none => true
  | some frontier => frontier.contains work

/-- The caller's work that is next: cleanup before ordinary, else in order. -/
def caller : Option SequenceWork :=
  (s.queued.find? fun work => work.kind == .cleanup && s.eligible work).or
    (s.queued.find? s.eligible)

/-- The shared observation takes the slot. -/
def enterObservation (work : SequenceWork) : Sequence :=
  { s with
    entered := some work
    observationBeforeCaller := true
    history := .started work :: s.history }

/-- A queued work of a caller takes the slot. -/
def enterCaller (work : SequenceWork) : Sequence :=
  { s with
    entered := some work
    queued := s.queued.erase work
    observationBeforeCaller := false
    history := .started work :: s.history }

/-- `dispatch` -/
def dispatch : Sequence :=
  if s.entered.isSome then s
  else
    match s.observation, s.caller with
    | some observation, none => s.enterObservation observation
    | some observation, some work =>
      if s.observationBeforeCaller then s.enterCaller work else s.enterObservation observation
    | none, some work => s.enterCaller work
    | none, none => s

/-- `createWork`: a fresh cell. -/
def createWork (kind : WorkKind) (signal : Bool) : SequenceWork := ⟨s.nextWork, kind, signal⟩

/-- A fresh cell joins the queue. -/
def enqueue (kind : WorkKind) (signal : Bool) : Sequence :=
  { s with
    queued := s.queued ++ [s.createWork kind signal]
    nextWork := s.nextWork + 1
    history := .submitted (s.createWork kind signal) :: s.history }

/-- The promise of a call is rejected at once. -/
def refuse (kind : WorkKind) (failure : SequenceFailure) : Sequence :=
  { s with history := .refused kind failure :: s.history }

/-- `run` for a caller's work; `signal` says whether one is given and whether it
is aborted already. -/
def run (kind : WorkKind) (signal : Option Bool) : Sequence :=
  if signal = some true then s.refuse kind .cancelled
  else if kind = .ordinary ∧ 12 ≤ (s.queued.filter fun work => work.kind == .ordinary).length then
    s.refuse kind (.capacityExhausted .ordinary)
  else if 16 ≤ s.queued.length then s.refuse kind (.capacityExhausted .queue)
  else (s.enqueue kind signal.isSome).dispatch

/-- `run('observation')`: an observation that is owned already is shared. -/
def observe : Sequence :=
  match s.observation with
  | some _ => s
  | none =>
    dispatch
      { s with
        observation := some (s.createWork .observation false)
        nextWork := s.nextWork + 1
        history := .submitted (s.createWork .observation false) :: s.history }

/-- The works that `settle` waits for. -/
def owned : List SequenceWork :=
  s.queued ++ s.entered.toList ++
    (match s.observation with
      | some work => if s.entered = some work then [] else [work]
      | none => [])

/-- `settle` -/
def settle : Sequence :=
  let frontier := s.owned.filter fun work => decide work.IsCaller
  let cut := 0 < frontier.length ∧
    s.frontiers.getLast?.all (fun previous => !sameFrontier previous frontier) = true
  { s with
    frontiers := if cut then s.frontiers ++ [frontier] else s.frontiers
    history := .settling s.owned :: s.history }

/-- Whether the promise of a `settle` that waits for `owned` is resolved. -/
def settled (owned : List SequenceWork) : Bool := owned.all fun work => s.completed.contains work

/-- The abort listener of a queued work. -/
def cancel (work : SequenceWork) : Sequence :=
  if work ∈ s.queued ∧ work.signal = true then
    dispatch (retire
      { s with
        queued := s.queued.erase work
        history := .cancelled work :: s.history } work)
  else s

/-- The performed work settles, either way: the end of `execute`. -/
def finish : Sequence :=
  match s.entered with
  | none => s
  | some work =>
    { (retire { s with entered := none, history := .finished work :: s.history } work) with
      microtasks := s.microtasks + 1 }

/-- A queued microtask dispatches. -/
def tick : Sequence :=
  if s.microtasks = 0 then s else dispatch { s with microtasks := s.microtasks - 1 }

/-- What can happen to a sequence. -/
inductive Event
  | run (cleanup : Bool) (signal : Option Bool)
  | observe
  | settle
  | abort (work : SequenceWork)
  | finish
  | tick
  deriving DecidableEq, Repr

def step : Event → Sequence
  | .run cleanup signal => s.run (if cleanup then .cleanup else .ordinary) signal
  | .observe => s.observe
  | .settle => s.settle
  | .abort work => s.cancel work
  | .finish => s.finish
  | .tick => s.tick

/-- The sequence after a list of events. -/
def after (events : List Event) : Sequence := Machine.run step empty events

end Sequence

/-! ## Cuts as sets -/

/-- The first cut is contained in the second. -/
def Within (f g : List SequenceWork) : Prop := ∀ work ∈ f, work ∈ g

/-- The first cut is contained in the second, which holds more. -/
def StrictlyWithin (f g : List SequenceWork) : Prop := Within f g ∧ ∃ work ∈ g, work ∉ f

theorem Within.refl (f : List SequenceWork) : Within f f := fun _ h => h

variable {f g : List SequenceWork} {frontiers : List (List SequenceWork)}

theorem Within.trans {h : List SequenceWork} (hfg : Within f g) (hgh : Within g h) :
    Within f h := fun work hwork => hgh work (hfg work hwork)

theorem StrictlyWithin.of_within {h : List SequenceWork} (hfg : Within f g)
    (hgh : StrictlyWithin g h) : StrictlyWithin f h := by
  obtain ⟨hwithin, work, hmem, hnot⟩ := hgh
  exact ⟨hfg.trans hwithin, work, hmem, fun hf => hnot (hfg work hf)⟩

/-- Comparing two cuts by size and members compares them as sets. -/
theorem sameFrontier_iff (hf : f.Nodup) (hg : g.Nodup) :
    sameFrontier f g = true ↔ Within f g ∧ Within g f := by
  unfold sameFrontier
  simp only [Bool.and_eq_true, beq_iff_eq, List.all_eq_true, List.contains_iff_mem]
  constructor
  · rintro ⟨hlength, hwithin⟩
    have hperm := (hf.subperm hwithin).perm_of_length_le (Nat.le_of_eq hlength.symm)
    exact ⟨hwithin, fun work hwork => hperm.mem_iff.2 hwork⟩
  · rintro ⟨hfg, hgf⟩
    have hperm : f.Perm g := (List.perm_ext_iff_of_nodup hf hg).2 fun work => ⟨hfg work, hgf work⟩
    exact ⟨hperm.length_eq, hfg⟩

theorem strictlyWithin_of_not_within (hwithin : Within g f) (hnot : ¬Within f g) :
    StrictlyWithin g f := by
  refine ⟨hwithin, ?_⟩
  unfold Within at hnot
  push Not at hnot
  exact hnot

/-- Cuts that grow along the list. -/
def Nested (frontiers : List (List SequenceWork)) : Prop :=
  (∀ f ∈ frontiers, f.Nodup) ∧ frontiers.Pairwise Within

theorem Nested.tail (h : Nested (f :: frontiers)) : Nested frontiers :=
  ⟨fun g hg => h.1 g (by simp [hg]), (List.pairwise_cons.1 h.2).2⟩

theorem prune_sublist (previous : Option (List SequenceWork))
    (frontiers : List (List SequenceWork)) : (prune previous frontiers).Sublist frontiers := by
  induction frontiers generalizing previous with
  | nil => exact .slnil
  | cons f frontiers ih =>
    unfold prune
    split
    · exact (ih _).cons_cons f
    · exact (ih _).cons f

theorem prune_pos {previous : Option (List SequenceWork)} (hg : g ∈ prune previous frontiers) :
    g ≠ [] := by
  induction frontiers generalizing previous with
  | nil => simp [prune] at hg
  | cons f frontiers ih =>
    unfold prune at hg
    split at hg
    · rename_i hkeep
      rcases List.mem_cons.1 hg with rfl | hg
      · exact List.ne_nil_of_length_pos hkeep.1
      · exact ih hg
    · exact ih hg

/-- What is kept behind a cut holds more than it. -/
theorem prune_above {p : List SequenceWork} (h : Nested (p :: frontiers)) :
    ∀ g ∈ prune (some p) frontiers, StrictlyWithin p g := by
  induction frontiers generalizing p with
  | nil => simp [prune]
  | cons f frontiers ih =>
    have hpf : Within p f := (List.pairwise_cons.1 h.2).1 f (by simp)
    intro g hg
    unfold prune at hg
    split at hg
    · rename_i hkeep
      rcases List.mem_cons.1 hg with rfl | hg
      · have hnot : ¬sameFrontier g p = true := by simpa using hkeep.2
        rw [sameFrontier_iff (h.1 g (by simp)) (h.1 p (by simp))] at hnot
        exact strictlyWithin_of_not_within hpf fun hgp => hnot ⟨hgp, hpf⟩
      · exact .of_within hpf (ih h.tail g hg)
    · exact .of_within hpf (ih h.tail g hg)

theorem prune_strict {previous : Option (List SequenceWork)} (h : Nested frontiers) :
    (prune previous frontiers).Pairwise StrictlyWithin := by
  induction frontiers generalizing previous with
  | nil => exact .nil
  | cons f frontiers ih =>
    unfold prune
    split
    · exact List.pairwise_cons.2 ⟨prune_above h, ih h.tail⟩
    · exact ih h.tail

private theorem prune_covers_from (previous : Option (List SequenceWork)) (h : Nested frontiers)
    (hprevious : ∀ p ∈ previous, Nested (p :: frontiers)) :
    ∀ f ∈ frontiers, f = [] ∨ (∃ p ∈ previous, Within f p) ∨
      ∃ g ∈ prune previous frontiers, Within f g ∧ Within g f := by
  induction frontiers generalizing previous with
  | nil => simp
  | cons f frontiers ih =>
    have hhead : f = [] ∨ (∃ p ∈ previous, Within f p) ∨ f ∈ prune previous (f :: frontiers) := by
      by_cases hempty : f = []
      · exact .inl hempty
      · refine .inr ?_
        unfold prune
        have hlength : 0 < f.length := List.length_pos_iff.2 hempty
        cases previous with
        | none => exact .inr (by simp [hlength])
        | some p =>
          have hpf := hprevious p rfl
          by_cases hsame : sameFrontier f p = true
          · refine .inl ⟨p, rfl, ?_⟩
            exact ((sameFrontier_iff (h.1 f (by simp)) (hpf.1 p (by simp))).1 hsame).1
          · exact .inr (by simp [hlength, hsame])
    have hsub : ∀ g ∈ prune (some f) frontiers, g ∈ prune previous (f :: frontiers) := by
      intro g hg
      conv => rw [prune]
      split
      · exact List.mem_cons_of_mem _ hg
      · exact hg
    intro g hg
    rcases List.mem_cons.1 hg with rfl | hg
    · rcases hhead with hempty | hbefore | hmem
      · exact .inl hempty
      · exact .inr (.inl hbefore)
      · exact .inr (.inr ⟨g, hmem, .refl g, .refl g⟩)
    · have hfg : Within f g := (List.pairwise_cons.1 h.2).1 g hg
      rcases ih (some f) h.tail (by simpa using h) g hg with hempty | hlater | ⟨k, hk, hgk, hkg⟩
      · exact .inl hempty
      · obtain ⟨p, hp, hgp⟩ := hlater
        cases hp
        -- `g` holds what the head holds, so the head stands for it
        rcases hhead with hempty | ⟨p, hp, hfp⟩ | hmem
        · refine .inl (List.eq_nil_iff_forall_not_mem.2 fun work hwork => ?_)
          have := hgp work hwork
          simp [hempty] at this
        · exact .inr (.inl ⟨p, hp, hgp.trans hfp⟩)
        · exact .inr (.inr ⟨f, hmem, hgp, hfg⟩)
      · exact .inr (.inr ⟨k, hsub k hk, hgk, hkg⟩)

/-- Every cut that is not empty has a kept cut with the same works. -/
theorem prune_covers (h : Nested frontiers) :
    ∀ f ∈ frontiers, f = [] ∨ ∃ g ∈ prune none frontiers, Within f g ∧ Within g f := by
  intro f hf
  rcases prune_covers_from none h (by simp) f hf with hempty | ⟨p, hp, _⟩ | hcover
  · exact .inl hempty
  · cases hp
  · exact .inr hcover

end AgentSdk.Coordinator
