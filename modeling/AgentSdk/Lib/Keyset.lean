import Mathlib.Data.List.Sort
import Mathlib.Order.Basic

/-!
# Keyset paging

Rows with keys of a linear order are read page by page: a page holds the first rows
behind a position, and the position of the next page is the key of its last row.
The rows may change between two pages.

The order of the keys carries everything: a page only has keys behind its position
and no key between its rows is left out, so whatever the rows do in the meantime, a
key that is there all the time is met exactly once.

## Main results

* `Reads.ascending` — the keys that are read ascend strictly.
* `Reads.complete` — a key that is there all the time is read.
* `Reads.all` — without changes the pages hold all rows in order.
* `IsPage.fewer` — a reader that is never refused reaches the end.
-/

namespace AgentSdk.Keyset

variable {α κ : Type} [LinearOrder κ] (key : α → κ)

/-- The rows in the order of their keys. -/
def ordered (rows : List α) : List α := rows.mergeSort fun a b => decide (key a ≤ key b)

/-- The rows behind a position, in order. -/
def behind (rows : List α) (after : Option κ) : List α :=
  (ordered key rows).filter fun row => after.all fun position => decide (position < key row)

variable {key}

theorem mem_ordered {rows : List α} {row : α} : row ∈ ordered key rows ↔ row ∈ rows :=
  (List.mergeSort_perm rows _).mem_iff

theorem ordered_perm (rows : List α) : (ordered key rows).Perm rows := List.mergeSort_perm rows _

theorem behind_none (rows : List α) : behind key rows none = ordered key rows :=
  List.filter_eq_self.2 fun _ _ => rfl

theorem mem_behind {rows : List α} {after : Option κ} {row : α} :
    row ∈ behind key rows after ↔ row ∈ rows ∧ ∀ position ∈ after, position < key row := by
  simp only [behind, List.mem_filter, mem_ordered, Option.all_eq_true, decide_eq_true_eq,
    Option.mem_def]

/-- Distinct keys are in strict order. -/
theorem ordered_ascending {rows : List α} (h : (rows.map key).Nodup) :
    (ordered key rows).Pairwise fun a b => key a < key b := by
  have hsorted : (ordered key rows).Pairwise fun a b => key a ≤ key b := by
    have hmerged : (ordered key rows).Pairwise fun a b => decide (key a ≤ key b) = true := by
      refine List.pairwise_mergeSort (fun a b c hab hbc => ?_) (fun a b => ?_) rows
      · simp only [decide_eq_true_eq] at hab hbc ⊢
        exact hab.trans hbc
      · simp only [Bool.or_eq_true, decide_eq_true_eq]
        exact le_total (key a) (key b)
    exact hmerged.imp fun hab => of_decide_eq_true hab
  have hdistinct : (ordered key rows).Pairwise fun a b => key a ≠ key b := by
    have hperm : ((ordered key rows).map key).Perm (rows.map key) := (ordered_perm rows).map key
    exact List.pairwise_map.1 (hperm.nodup_iff.2 h)
  exact (hsorted.and hdistinct).imp fun hab => lt_of_le_of_ne hab.1 hab.2

theorem behind_ascending {rows : List α} (h : (rows.map key).Nodup) (after : Option κ) :
    (behind key rows after).Pairwise fun a b => key a < key b :=
  (ordered_ascending h).filter _

/-! ## Pages -/

variable (key)

/-- A page of the rows behind a position: the first of them, and at least one when
there are more. -/
structure IsPage (rows : List α) (after : Option κ) (items : List α) (more : Bool) : Prop where
  first : ∃ rest, behind key rows after = items ++ rest ∧ (more = true ↔ rest ≠ [])
  progress : more = true → items ≠ []

/-- The pages of a reader from its `i`-th read on, and whether it has reached the end.
The rows are those at the time of each read. -/
inductive Reads (rows : Nat → List α) : Nat → Option κ → List (List α) → Bool → Prop
  | stop (i : Nat) (after : Option κ) : Reads rows i after [] false
  | last {i : Nat} {after : Option κ} {items : List α}
      (page : IsPage key (rows i) after items false) : Reads rows i after [items] true
  | next {i : Nat} {after : Option κ} {items : List α} {pages : List (List α)} {done : Bool}
      {row : α} (page : IsPage key (rows i) after items true) (last : items.getLast? = some row)
      (rest : Reads rows (i + 1) (some (key row)) pages done) :
      Reads rows i after (items :: pages) done

variable {key} {rows : Nat → List α} {i : Nat} {after : Option κ} {pages : List (List α)}
  {done : Bool}

theorem IsPage.behind {table items : List α} {more : Bool} (h : IsPage key table after items more) :
    ∀ row ∈ items, row ∈ table ∧ ∀ position ∈ after, position < key row := by
  obtain ⟨rest, hsplit, -⟩ := h.first
  intro row hrow
  refine mem_behind.1 ?_
  rw [hsplit]
  exact List.mem_append_left rest hrow

/-- Everything that is read is behind the position. -/
theorem Reads.behind (h : Reads key rows i after pages done) :
    ∀ row ∈ pages.flatten, ∀ position ∈ after, position < key row := by
  induction h with
  | stop _ after => simp
  | last page =>
    intro row hrow
    exact (page.behind row (by simpa using hrow)).2
  | next page last _ ih =>
    intro row hrow position hposition
    rw [List.flatten_cons, List.mem_append] at hrow
    rcases hrow with hhere | hlater
    · exact (page.behind row hhere).2 position hposition
    · have hlast := (page.behind _ (List.mem_of_getLast? last)).2 position hposition
      exact hlast.trans (ih row hlater _ rfl)

/-- The last row of a page has its greatest key. -/
theorem IsPage.le_last {table items : List α} {more : Bool} {row last : α}
    (distinct : (table.map key).Nodup) (h : IsPage key table after items more)
    (hlast : items.getLast? = some last) (hrow : row ∈ items) : key row ≤ key last := by
  obtain ⟨rest, hsplit, -⟩ := h.first
  have hascending := behind_ascending distinct after
  rw [hsplit] at hascending
  obtain ⟨init, rfl⟩ := List.getLast?_eq_some_iff.1 hlast
  have hpart := (List.pairwise_append.1 (List.pairwise_append.1 hascending).1).2.2
  rw [List.mem_append, List.mem_singleton] at hrow
  rcases hrow with hinit | hsame
  · exact (hpart row hinit last (List.mem_singleton_self last)).le
  · rw [hsame]

/-- **The keys that are read ascend strictly**, so no key is read twice. -/
theorem Reads.ascending (distinct : ∀ i, ((rows i).map key).Nodup)
    (h : Reads key rows i after pages done) :
    pages.flatten.Pairwise fun a b => key a < key b := by
  have hpage : ∀ {i : Nat} {after : Option κ} {items : List α} {more : Bool},
      IsPage key (rows i) after items more → items.Pairwise fun a b => key a < key b := by
    intro i after items more page
    obtain ⟨rest, hsplit, -⟩ := page.first
    have hascending := behind_ascending (distinct i) after
    rw [hsplit] at hascending
    exact (List.pairwise_append.1 hascending).1
  induction h with
  | stop _ _ => exact .nil
  | last page => simpa using hpage page
  | next page last rest ih =>
    rw [List.flatten_cons]
    refine List.pairwise_append.2 ⟨hpage page, ih, fun a ha b hb => ?_⟩
    exact (page.le_last (distinct _) last ha).trans_lt (rest.behind b hb _ rfl)

/-- **A key that is there all the time is read**, once the reader has reached the end
or a greater key. -/
theorem Reads.complete (distinct : ∀ i, ((rows i).map key).Nodup)
    (h : Reads key rows i after pages done) {k : κ} (hk : ∀ position ∈ after, position < k)
    (hpresent : ∀ j, i ≤ j → j < i + pages.length → ∃ row ∈ rows j, key row = k)
    (hpassed : done = true ∨ ∃ row ∈ pages.flatten, k ≤ key row) :
    ∃ row ∈ pages.flatten, key row = k := by
  induction h with
  | stop i after =>
    rcases hpassed with hdone | hread
    · cases hdone
    · simp at hread
  | @last i after items page =>
    obtain ⟨row, hrow, rfl⟩ := hpresent i (Nat.le_refl i) (by simp)
    obtain ⟨rest, hsplit, hmore⟩ := page.first
    have hrest : rest = [] := by
      by_contra hne
      exact Bool.noConfusion (hmore.2 hne)
    refine ⟨row, ?_, rfl⟩
    have hbehind : row ∈ Keyset.behind key (rows i) after := mem_behind.2 ⟨hrow, hk⟩
    rw [hsplit, hrest, List.append_nil] at hbehind
    simpa using hbehind
  | @next i after items pages done last page hlast _ ih =>
    by_cases hle : k ≤ key last
    · -- The key is not behind the page, so the page has it.
      obtain ⟨row, hrow, rfl⟩ := hpresent i (Nat.le_refl i) (by simp)
      refine ⟨row, ?_, rfl⟩
      obtain ⟨others, hsplit, -⟩ := page.first
      have hbehind : row ∈ Keyset.behind key (rows i) after := mem_behind.2 ⟨hrow, hk⟩
      rw [hsplit, List.mem_append] at hbehind
      rw [List.flatten_cons, List.mem_append]
      refine .inl (hbehind.resolve_right fun hothers => ?_)
      have hascending := behind_ascending (distinct i) after
      rw [hsplit] at hascending
      have hlater := (List.pairwise_append.1 hascending).2.2 last (List.mem_of_getLast? hlast) row
        hothers
      exact absurd hlater (not_lt.2 hle)
    · obtain ⟨row, hrow, hkey⟩ := ih
        (fun position hposition => by
          cases hposition
          exact lt_of_not_ge hle)
        (fun j hlow hhigh => hpresent j (by omega) (by simp only [List.length_cons]; omega))
        (hpassed.imp_right fun hread => by
          obtain ⟨row, hrow, hkey⟩ := hread
          rw [List.flatten_cons, List.mem_append] at hrow
          refine ⟨row, hrow.resolve_left fun hhere => ?_, hkey⟩
          exact hle (hkey.trans (page.le_last (distinct i) hlast hhere)))
      exact ⟨row, by rw [List.flatten_cons]; exact List.mem_append_right _ hrow, hkey⟩

/-- The rows behind the last row of a page are those that the page has left out. -/
theorem IsPage.behind_last {table items rest : List α} {last : α}
    (distinct : (table.map key).Nodup)
    (hsplit : Keyset.behind key table after = items ++ rest)
    (hlast : items.getLast? = some last) : Keyset.behind key table (some (key last)) = rest := by
  have hascending := behind_ascending distinct after
  have hafter : ∀ position ∈ after, position < key last := by
    have hmem : last ∈ Keyset.behind key table after := by
      rw [hsplit]
      exact List.mem_append_left _ (List.mem_of_getLast? hlast)
    exact (mem_behind.1 hmem).2
  have hfilter : Keyset.behind key table (some (key last)) =
      (Keyset.behind key table after).filter fun row => decide (key last < key row) := by
    unfold Keyset.behind
    rw [List.filter_filter]
    refine List.filter_congr fun row _ => ?_
    cases after with
    | none => simp
    | some position =>
      have hposition := hafter position rfl
      by_cases hlater : key last < key row
      · simp [hlater, hposition.trans hlater]
      · simp [hlater]
  rw [hfilter, hsplit, List.filter_append]
  rw [hsplit] at hascending
  obtain ⟨hitems, -, hacross⟩ := List.pairwise_append.1 hascending
  obtain ⟨init, rfl⟩ := List.getLast?_eq_some_iff.1 hlast
  have hnone : (init ++ [last]).filter (fun row => decide (key last < key row)) = [] := by
    refine List.filter_eq_nil_iff.2 fun row hrow => ?_
    rw [decide_eq_true_eq, not_lt]
    rw [List.mem_append, List.mem_singleton] at hrow
    rcases hrow with hinit | hsame
    · exact ((List.pairwise_append.1 hitems).2.2 row hinit last (by simp)).le
    · rw [hsame]
  have hall : rest.filter (fun row => decide (key last < key row)) = rest := by
    refine List.filter_eq_self.2 fun row hrow => ?_
    exact decide_eq_true (hacross last (by simp) row hrow)
  rw [hnone, hall, List.nil_append]

/-- **Without changes** the pages hold all rows behind the position, in order. -/
theorem Reads.all {table : List α} (distinct : (table.map key).Nodup)
    (h : Reads key (fun _ => table) i after pages true) :
    pages.flatten = Keyset.behind key table after := by
  generalize hdone : true = done at h
  induction h with
  | stop _ after => cases hdone
  | last page =>
    obtain ⟨rest, hsplit, hmore⟩ := page.first
    have hrest : rest = [] := by
      by_contra hne
      exact Bool.noConfusion (hmore.2 hne)
    rw [hsplit, hrest]
    simp
  | next page hlast _ ih =>
    obtain ⟨others, hsplit, -⟩ := page.first
    rw [List.flatten_cons, ih hdone, IsPage.behind_last distinct hsplit hlast, hsplit]

/-- **Each page leaves fewer rows behind**, so a reader that is never refused reaches
the end. -/
theorem IsPage.fewer {table items : List α} {last : α} (distinct : (table.map key).Nodup)
    (h : IsPage key table after items true) (hlast : items.getLast? = some last) :
    (Keyset.behind key table (some (key last))).length <
      (Keyset.behind key table after).length := by
  obtain ⟨rest, hsplit, -⟩ := h.first
  have hpositive : 0 < items.length := List.length_pos_of_ne_nil (h.progress rfl)
  rw [IsPage.behind_last distinct hsplit hlast, hsplit, List.length_append]
  omega

end AgentSdk.Keyset
