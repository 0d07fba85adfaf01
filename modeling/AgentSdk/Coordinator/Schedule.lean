import AgentSdk.Coordinator.Sequence
import Mathlib.Data.List.Infix

/-!
# Lawful schedules of one physical slot

What a sequence promises, said of its history alone: `Lawful` asks of every
entry that it was admissible after the entries before it.  A history is read
newest first, so the past of an entry is the rest of the list behind it.

## Main results

* `Lawful.started_nodup`, `Lawful.cancelled_not_started` — a work is performed
  at most once, and never after it was cancelled.
* `Lawful.earlier` — cells submitted before a cut are known by their numbers.
-/

namespace AgentSdk.Coordinator

/-! ## Reading a history -/

/-- The works submitted, newest first. -/
def submitted (history : List Entry) : List SequenceWork :=
  history.filterMap fun entry => match entry with
    | .submitted work => some work
    | _ => none

/-- The works performed, newest first. -/
def started (history : List Entry) : List SequenceWork :=
  history.filterMap fun entry => match entry with
    | .started work => some work
    | _ => none

/-- The works whose performance ended, newest first. -/
def finished (history : List Entry) : List SequenceWork :=
  history.filterMap fun entry => match entry with
    | .finished work => some work
    | _ => none

/-- The works cancelled in the queue, newest first. -/
def cancelled (history : List Entry) : List SequenceWork :=
  history.filterMap fun entry => match entry with
    | .cancelled work => some work
    | _ => none

section Entries

variable (work : SequenceWork) (kind : WorkKind) (failure : SequenceFailure)
  (owned : List SequenceWork) (t : List Entry)

@[simp] theorem submitted_nil : submitted [] = [] := rfl
@[simp] theorem submitted_submitted : submitted (.submitted work :: t) = work :: submitted t := rfl
@[simp] theorem submitted_refused : submitted (.refused kind failure :: t) = submitted t := rfl
@[simp] theorem submitted_started : submitted (.started work :: t) = submitted t := rfl
@[simp] theorem submitted_cancelled : submitted (.cancelled work :: t) = submitted t := rfl

@[simp] theorem started_nil : started [] = [] := rfl
@[simp] theorem started_submitted : started (.submitted work :: t) = started t := rfl
@[simp] theorem started_started : started (.started work :: t) = work :: started t := rfl
@[simp] theorem started_cancelled : started (.cancelled work :: t) = started t := rfl

@[simp] theorem finished_nil : finished [] = [] := rfl
@[simp] theorem finished_submitted : finished (.submitted work :: t) = finished t := rfl
@[simp] theorem finished_refused : finished (.refused kind failure :: t) = finished t := rfl
@[simp] theorem finished_started : finished (.started work :: t) = finished t := rfl
@[simp] theorem finished_finished : finished (.finished work :: t) = work :: finished t := rfl
@[simp] theorem finished_cancelled : finished (.cancelled work :: t) = finished t := rfl
@[simp] theorem finished_settling : finished (.settling owned :: t) = finished t := rfl

@[simp] theorem cancelled_nil : cancelled [] = [] := rfl
@[simp] theorem cancelled_submitted : cancelled (.submitted work :: t) = cancelled t := rfl
@[simp] theorem cancelled_refused : cancelled (.refused kind failure :: t) = cancelled t := rfl
@[simp] theorem cancelled_started : cancelled (.started work :: t) = cancelled t := rfl
@[simp] theorem cancelled_finished : cancelled (.finished work :: t) = cancelled t := rfl
@[simp] theorem cancelled_cancelled : cancelled (.cancelled work :: t) = work :: cancelled t := rfl
@[simp] theorem cancelled_settling : cancelled (.settling owned :: t) = cancelled t := rfl

end Entries

/-- The work was performed to its end or cancelled. -/
def Done (t : List Entry) (work : SequenceWork) : Prop := work ∈ finished t ∨ work ∈ cancelled t

/-- The work was submitted and is not done. -/
def Owned (t : List Entry) (work : SequenceWork) : Prop := work ∈ submitted t ∧ ¬Done t work

/-- The work was submitted and neither performed nor cancelled so far. -/
def Waiting (t : List Entry) (work : SequenceWork) : Prop :=
  work ∈ submitted t ∧ work ∉ started t ∧ work ∉ cancelled t

/-- The newest work performed so far. -/
def lastStarted (t : List Entry) : Option SequenceWork := (started t).head?

/-- No cut keeps the work back: every `settle` that still waits for a caller's
work waits for this one too. -/
def Eligible (t : List Entry) (work : SequenceWork) : Prop :=
  ∀ owned u, .settling owned :: u <:+ t → (∃ v ∈ owned, v.IsCaller ∧ ¬Done t v) → work ∈ owned

/-! ## The law -/

/-- When a work of a caller may be performed next. -/
structure CallerTurn (t : List Entry) (work : SequenceWork) : Prop where
  /-- Within a kind, works start in the order of their submission. -/
  in_order : ∀ v ∈ submitted t, v.kind = work.kind → v.id < work.id → ¬Waiting t v
  /-- Cleanup goes first among the eligible works. -/
  cleanup_first : work.kind = .ordinary → ∀ v, Waiting t v → v.kind = .cleanup → ¬Eligible t v
  /-- No work submitted after a cut starts before the works of the cut are done. -/
  behind_cuts : ∀ owned u, .settling owned :: u <:+ t → work ∉ submitted u →
    ∀ v ∈ owned, Done t v

/-- An entry is admissible after a history. -/
def Admissible (t : List Entry) : Entry → Prop
  | .submitted work => ∀ v ∈ submitted t, v.id < work.id
  | .refused _ _ => True
  | .started work =>
    Waiting t work ∧ (∀ v ∈ started t, v ∈ finished t) ∧
      (work.IsCaller → CallerTurn t work) ∧
      (work.kind = .observation → (∃ v, lastStarted t = some v ∧ v.kind = .observation) →
        ∀ v, Waiting t v → v.IsCaller → ¬Eligible t v)
  | .finished work => work ∈ started t ∧ work ∉ finished t
  | .cancelled work => Waiting t work ∧ work.IsCaller
  | .settling owned => ∀ work, work ∈ owned ↔ Owned t work

/-- Every entry of the history was admissible when it was made. -/
def Lawful : List Entry → Prop
  | [] => True
  | entry :: t => Admissible t entry ∧ Lawful t

theorem Lawful.suffix {t u : List Entry} (h : Lawful t) (hsuffix : u <:+ t) : Lawful u := by
  induction t with
  | nil => rwa [List.suffix_nil.1 hsuffix]
  | cons entry t ih =>
    rcases List.suffix_cons_iff.1 hsuffix with rfl | hsuffix
    · exact h
    · exact ih h.2 hsuffix

theorem Lawful.admissible {t u : List Entry} {entry : Entry} (h : Lawful t)
    (hsuffix : entry :: u <:+ t) : Admissible u entry := (h.suffix hsuffix).1

/-! ## What lawful histories keep -/

section Lawful

variable {t : List Entry}

theorem Lawful.started_submitted (h : Lawful t) : ∀ work ∈ started t, work ∈ submitted t := by
  induction t with
  | nil => simp
  | cons entry t ih =>
    intro work hwork
    cases entry with
    | started v =>
      rcases List.mem_cons.1 hwork with rfl | hwork
      · exact h.1.1.1
      · exact ih h.2 work hwork
    | submitted v => exact List.mem_cons_of_mem _ (ih h.2 work hwork)
    | _ => exact ih h.2 work hwork

theorem Lawful.finished_started (h : Lawful t) : ∀ work ∈ finished t, work ∈ started t := by
  induction t with
  | nil => simp
  | cons entry t ih =>
    intro work hwork
    cases entry with
    | finished v =>
      rcases List.mem_cons.1 hwork with rfl | hwork
      · exact h.1.1
      · exact ih h.2 work hwork
    | started v => exact List.mem_cons_of_mem _ (ih h.2 work hwork)
    | _ => exact ih h.2 work hwork

theorem Lawful.cancelled_submitted (h : Lawful t) :
    ∀ work ∈ cancelled t, work ∈ submitted t := by
  induction t with
  | nil => simp
  | cons entry t ih =>
    intro work hwork
    cases entry with
    | cancelled v =>
      rcases List.mem_cons.1 hwork with rfl | hwork
      · exact h.1.1.1
      · exact ih h.2 work hwork
    | submitted v => exact List.mem_cons_of_mem _ (ih h.2 work hwork)
    | _ => exact ih h.2 work hwork

/-- A work that is being performed is the newest performed. -/
theorem Lawful.unfinished_last (h : Lawful t) :
    ∀ work ∈ started t, work ∉ finished t → lastStarted t = some work := by
  induction t with
  | nil => simp
  | cons entry t ih =>
    intro work hwork hunfinished
    cases entry with
    | started v =>
      rcases List.mem_cons.1 hwork with rfl | hwork
      · rfl
      · exact absurd (h.1.2.1 work hwork) hunfinished
    | finished v =>
      exact ih h.2 work hwork fun hfinished => hunfinished (List.mem_cons_of_mem _ hfinished)
    | _ => exact ih h.2 work hwork hunfinished

/-- A cancelled work is never performed, before or after. -/
theorem Lawful.cancelled_not_started (h : Lawful t) :
    ∀ work ∈ cancelled t, work ∉ started t := by
  induction t with
  | nil => simp
  | cons entry t ih =>
    intro work hwork
    cases entry with
    | cancelled v =>
      rcases List.mem_cons.1 hwork with rfl | hwork
      · exact h.1.1.2.1
      · exact ih h.2 work hwork
    | started v =>
      intro hstarted
      rcases List.mem_cons.1 hstarted with rfl | hstarted
      · exact h.1.1.2.2 hwork
      · exact ih h.2 work hwork hstarted
    | _ => exact ih h.2 work hwork

/-- No work is performed twice. -/
theorem Lawful.started_nodup (h : Lawful t) : (started t).Nodup := by
  induction t with
  | nil => simp
  | cons entry t ih =>
    cases entry with
    | started v => exact List.nodup_cons.2 ⟨h.1.1.2.1, ih h.2⟩
    | _ => exact ih h.2

/-- The numbers of the cells grow in the order of submission. -/
theorem Lawful.submitted_order (h : Lawful t) :
    (submitted t).Pairwise fun v work => work.id < v.id := by
  induction t with
  | nil => exact .nil
  | cons entry t ih =>
    cases entry with
    | submitted v => exact List.pairwise_cons.2 ⟨h.1, ih h.2⟩
    | _ => exact ih h.2

end Lawful

/-! ## The past of an entry -/

section Suffix

variable {t u : List Entry} {work : SequenceWork}

theorem suffix_mem {α : Type} {f : Entry → Option α} (h : u <:+ t) {a : α}
    (ha : a ∈ u.filterMap f) : a ∈ t.filterMap f := by
  obtain ⟨p, rfl⟩ := h
  rw [List.filterMap_append]
  exact List.mem_append_right _ ha

theorem submitted_suffix (h : u <:+ t) (hwork : work ∈ submitted u) : work ∈ submitted t :=
  suffix_mem h hwork

theorem Done.suffix (h : u <:+ t) (hdone : Done u work) : Done t work :=
  hdone.imp (suffix_mem h) (suffix_mem h)

/-- A cell with a smaller number than one submitted in the past was submitted
in the past itself. -/
theorem Lawful.earlier (hlawful : Lawful t) (h : u <:+ t) {v : SequenceWork}
    (hwork : work ∈ submitted u) (hv : v ∈ submitted t) (hlt : v.id < work.id) :
    v ∈ submitted u := by
  obtain ⟨p, rfl⟩ := h
  have horder := hlawful.submitted_order
  rw [submitted, List.filterMap_append, List.pairwise_append] at horder
  rw [submitted, List.filterMap_append, List.mem_append] at hv
  rcases hv with hv | hv
  · exact absurd (horder.2.2 v hv work hwork) (by omega)
  · exact hv

/-- What `settle` waits for is what was owned at its call. -/
theorem Lawful.settling {owned : List SequenceWork} (hlawful : Lawful t)
    (h : .settling owned :: u <:+ t) : ∀ v, v ∈ owned ↔ Owned u v := hlawful.admissible h

theorem settling_suffix {owned : List SequenceWork} (h : .settling owned :: u <:+ t) : u <:+ t :=
  (List.suffix_cons _ u).trans h

end Suffix

end AgentSdk.Coordinator
