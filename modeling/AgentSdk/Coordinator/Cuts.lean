import AgentSdk.Coordinator.Schedule

/-!
# Retained cuts

Every retained cut is what is left of the works that some `settle` waits for,
and every pending `settle` has such a cut.

## Main results

* `Cuts.retire` — a work that ends leaves the cuts as they have to be.
* `Cuts.settle` — a new call adds its cut, unless it is there already.
-/

namespace AgentSdk.Coordinator

/-- What is left of the works that a `settle` waits for. -/
def Left (t : List Entry) (owned f : List SequenceWork) : Prop :=
  ∀ work, work ∈ f ↔ work ∈ owned ∧ work.IsCaller ∧ ¬Done t work

/-- The retained cuts are what is left of the pending calls of `settle`. -/
structure Cuts (t : List Entry) (frontiers : List (List SequenceWork)) : Prop where
  strict : frontiers.Pairwise StrictlyWithin
  nodup : ∀ f ∈ frontiers, f.Nodup
  nonempty : ∀ f ∈ frontiers, f ≠ []
  origin : ∀ f ∈ frontiers, ∃ owned u, .settling owned :: u <:+ t ∧ Left t owned f
  kept : ∀ owned u, .settling owned :: u <:+ t →
    (∀ work ∈ owned, work.IsCaller → Done t work) ∨ ∃ f ∈ frontiers, Left t owned f

namespace Cuts

variable {t : List Entry} {frontiers : List (List SequenceWork)} {entry : Entry}

theorem nested (h : Cuts t frontiers) : Nested frontiers :=
  ⟨h.nodup, h.strict.imp fun hstrict => hstrict.1⟩

/-- Entries that neither cut nor end a work leave the cuts alone. -/
theorem cons (h : Cuts t frontiers) (hdone : ∀ work, Done (entry :: t) work ↔ Done t work)
    (hcut : ∀ owned, .settling owned ≠ entry) : Cuts (entry :: t) frontiers := by
  have hleft : ∀ owned f, Left (entry :: t) owned f ↔ Left t owned f := by
    intro owned f
    simp only [Left, hdone]
  refine ⟨h.strict, h.nodup, h.nonempty, fun f hf => ?_, fun owned u hu => ?_⟩
  · obtain ⟨owned, u, hu, howned⟩ := h.origin f hf
    exact ⟨owned, u, hu.trans (List.suffix_cons _ _), (hleft owned f).2 howned⟩
  · rcases List.suffix_cons_iff.1 hu with heq | hu
    · exact absurd (List.cons.inj heq).1 (hcut owned)
    · simp only [hdone, hleft]
      exact h.kept owned u hu

/-- A work that ends leaves every cut. -/
theorem retire (h : Cuts t frontiers) (work : SequenceWork)
    (hdone : ∀ v, Done (entry :: t) v ↔ Done t v ∨ v = work)
    (hcut : ∀ owned, .settling owned ≠ entry) :
    Cuts (entry :: t) (prune none (frontiers.map fun f => f.filter (· ≠ work))) := by
  have hleft : ∀ owned f, Left t owned f → Left (entry :: t) owned (f.filter (· ≠ work)) := by
    intro owned f hf v
    rw [List.mem_filter, hf v, hdone v]
    simp only [ne_eq, decide_eq_true_eq]
    tauto
  have hnested : Nested (frontiers.map fun f => f.filter (· ≠ work)) := by
    constructor
    · intro g hg
      obtain ⟨f, hf, rfl⟩ := List.mem_map.1 hg
      exact (h.nodup f hf).filter _
    · refine (h.nested.2.map _) fun f g hfg v hv => ?_
      rw [List.mem_filter] at hv ⊢
      exact ⟨hfg v hv.1, hv.2⟩
  have hmem : ∀ g ∈ prune none (frontiers.map fun f => f.filter (· ≠ work)),
      ∃ f ∈ frontiers, f.filter (· ≠ work) = g := fun g hg =>
    List.mem_map.1 ((prune_sublist none _).subset hg)
  refine ⟨prune_strict hnested, fun g hg => hnested.1 g ((prune_sublist none _).subset hg),
    fun g hg => prune_pos hg, fun g hg => ?_, fun owned u hu => ?_⟩
  · obtain ⟨f, hf, rfl⟩ := hmem g hg
    obtain ⟨owned, u, hu, howned⟩ := h.origin f hf
    exact ⟨owned, u, hu.trans (List.suffix_cons _ _), hleft owned f howned⟩
  · rcases List.suffix_cons_iff.1 hu with heq | hu
    · exact absurd (List.cons.inj heq).1 (hcut owned)
    · rcases h.kept owned u hu with hall | ⟨f, hf, howned⟩
      · exact .inl fun v hv hcaller => (hdone v).2 (.inl (hall v hv hcaller))
      · have hrest := hleft owned f howned
        rcases prune_covers hnested _ (List.mem_map_of_mem hf) with hempty | ⟨g, hg, hfg, hgf⟩
        · refine .inl fun v hv hcaller => ?_
          by_contra hnot
          have hin := (hrest v).2 ⟨hv, hcaller, hnot⟩
          rw [hempty] at hin
          cases hin
        · exact .inr ⟨g, hg, fun v => ⟨fun hv => (hrest v).1 (hgf v hv),
            fun hv => hfg v ((hrest v).2 hv)⟩⟩

/-- A new cut holds every retained one. -/
theorem within_owned (h : Cuts t frontiers) (hlawful : Lawful t) {owned f : List SequenceWork}
    (howned : ∀ work, work ∈ owned ↔ Owned t work) (hf : f ∈ frontiers) :
    Within f (owned.filter fun work => decide work.IsCaller) := by
  obtain ⟨earlier, u, hu, hleft⟩ := h.origin f hf
  intro work hwork
  obtain ⟨hmem, hcaller, hnot⟩ := (hleft work).1 hwork
  have hsubmitted := ((hlawful.settling hu work).1 hmem).1
  rw [List.mem_filter]
  exact ⟨(howned work).2 ⟨submitted_suffix (settling_suffix hu) hsubmitted, hnot⟩,
    by simpa using hcaller⟩

/-- `settle` retains the works of callers it waits for, once. -/
theorem settle (h : Cuts t frontiers) (hlawful : Lawful t) {owned : List SequenceWork}
    (howned : ∀ work, work ∈ owned ↔ Owned t work) (hnodup : owned.Nodup) :
    let frontier := owned.filter fun work => decide work.IsCaller
    Cuts (.settling owned :: t)
      (if 0 < frontier.length ∧
          frontiers.getLast?.all (fun previous => !sameFrontier previous frontier) = true then
        frontiers ++ [frontier] else frontiers) := by
  intro frontier
  have hdone : ∀ work, Done (.settling owned :: t) work ↔ Done t work := by simp [Done]
  have hleft : ∀ cut f, Left (.settling owned :: t) cut f ↔ Left t cut f := by
    intro cut f
    simp only [Left, hdone]
  have hfrontier : Left t owned frontier := by
    intro work
    rw [List.mem_filter, decide_eq_true_eq]
    exact ⟨fun hwork => ⟨hwork.1, hwork.2, ((howned work).1 hwork.1).2⟩,
      fun hwork => ⟨hwork.1, hwork.2.1⟩⟩
  have hfnodup : frontier.Nodup := hnodup.filter _
  have holder : ∀ cut u, .settling cut :: u <:+ t →
      (∀ work ∈ cut, work.IsCaller → Done (.settling owned :: t) work) ∨
        ∃ f ∈ frontiers, Left (.settling owned :: t) cut f := by
    intro cut u hu
    simp only [hdone, hleft]
    exact h.kept cut u hu
  have horigin : ∀ f ∈ frontiers, ∃ cut u, .settling cut :: u <:+ .settling owned :: t ∧
      Left (.settling owned :: t) cut f := by
    intro f hf
    obtain ⟨cut, u, hu, hcut⟩ := h.origin f hf
    exact ⟨cut, u, hu.trans (List.suffix_cons _ _), (hleft cut f).2 hcut⟩
  split
  · rename_i hcut
    have hbelow : ∀ f ∈ frontiers, StrictlyWithin f frontier := by
      rcases List.eq_nil_or_concat frontiers with rfl | ⟨init, last, rfl⟩
      · simp
      · have hlast : Within last frontier := h.within_owned hlawful howned (by simp)
        have hnot : ¬sameFrontier last frontier = true := by simpa using hcut.2
        rw [sameFrontier_iff (h.nodup last (by simp)) hfnodup] at hnot
        have hstrict : StrictlyWithin last frontier :=
          strictlyWithin_of_not_within hlast fun hback => hnot ⟨hlast, hback⟩
        intro f hf
        have hcases : f ∈ init ∨ f = last := by simpa using hf
        rcases hcases with hinit | rfl
        · have hpair := h.strict
          rw [List.concat_eq_append, List.pairwise_append] at hpair
          exact .of_within (hpair.2.2 f hinit last (by simp)).1 hstrict
        · exact hstrict
    refine ⟨?_, ?_, ?_, ?_, fun cut u hu => ?_⟩
    · rw [List.pairwise_append]
      exact ⟨h.strict, List.pairwise_singleton _ _, fun f hf g hg => by
        rw [List.mem_singleton.1 hg]
        exact hbelow f hf⟩
    · intro f hf
      rcases List.mem_append.1 hf with hf | hf
      · exact h.nodup f hf
      · rw [List.mem_singleton.1 hf]
        exact hfnodup
    · intro f hf
      rcases List.mem_append.1 hf with hf | hf
      · exact h.nonempty f hf
      · rw [List.mem_singleton.1 hf]
        exact List.ne_nil_of_length_pos hcut.1
    · intro f hf
      rcases List.mem_append.1 hf with hf | hf
      · exact horigin f hf
      · rw [List.mem_singleton.1 hf]
        exact ⟨owned, t, List.suffix_refl _, (hleft owned frontier).2 hfrontier⟩
    · rcases List.suffix_cons_iff.1 hu with heq | hu
      · obtain ⟨hentry, rfl⟩ := List.cons.inj heq
        cases hentry
        exact .inr ⟨frontier, by simp, (hleft _ _).2 hfrontier⟩
      · rcases holder cut u hu with hall | ⟨f, hf, hcutleft⟩
        · exact .inl hall
        · exact .inr ⟨f, List.mem_append_left _ hf, hcutleft⟩
  · rename_i hcut
    refine ⟨h.strict, h.nodup, h.nonempty, horigin, fun cut u hu => ?_⟩
    rcases List.suffix_cons_iff.1 hu with heq | hu
    · obtain ⟨hentry, rfl⟩ := List.cons.inj heq
      cases hentry
      -- nothing is added: the cut is empty or the last one already
      by_cases hempty : frontier = []
      · refine .inl fun work hwork hcaller => ?_
        have hin : work ∈ frontier := by
          rw [List.mem_filter]
          exact ⟨hwork, by simpa using hcaller⟩
        rw [hempty] at hin
        cases hin
      · have hpos : 0 < frontier.length := List.length_pos_iff.2 hempty
        rcases List.eq_nil_or_concat frontiers with rfl | ⟨init, last, rfl⟩
        · simp [hpos] at hcut
        · have hsame : sameFrontier last frontier = true := by
            simpa [hpos] using hcut
          rw [sameFrontier_iff (h.nodup last (by simp)) hfnodup] at hsame
          refine .inr ⟨last, by simp, (hleft _ _).2 fun work => ?_⟩
          rw [← hfrontier work]
          exact ⟨hsame.1 work, hsame.2 work⟩
    · exact holder cut u hu

end Cuts

end AgentSdk.Coordinator
