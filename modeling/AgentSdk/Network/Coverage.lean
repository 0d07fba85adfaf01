import AgentSdk.Lib.TextOrder
import AgentSdk.Network.Ranges

/-!
# Denied coverage

The excluded ranges of a policy and the special ranges are sorted, those that
another one contains are dropped, and the rest is what an address is checked
against.

## Main results

* `deniedCoverage_eq_ok` — what is denied: the ranges that no other one contains.
* `address_admission` — admission, and the coverage as an antichain that depends on
  the ranges alone.
* `coverage_denies` — the coverage covers what was given, and nothing else.
* `coverage_too_large` — a coverage that is not accepted when fed back.
-/

namespace AgentSdk.Network

open AgentSdk.Text AgentSdk.Outcome AgentSdk.Maximal

/-! ## The source -/

def SPECIAL_CIDRS : List JsString :=
  [js "0.0.0.0/8", js "10.0.0.0/8", js "100.64.0.0/10", js "127.0.0.0/8", js "169.254.0.0/16",
    js "172.16.0.0/12", js "192.0.0.0/24", js "192.0.2.0/24", js "192.88.99.0/24",
    js "192.168.0.0/16", js "198.18.0.0/15", js "198.51.100.0/24", js "203.0.113.0/24",
    js "224.0.0.0/4", js "240.0.0.0/4",
    js "::/3", js "4000::/2", js "8000::/1", js "2001::/23", js "2001:db8::/32", js "2002::/16",
    js "3fff::/20"]

/-- The number of a family. -/
def AddressFamily.number : AddressFamily → Int
  | .ipv4 => 4
  | .ipv6 => 6

/-- The comparison of the sort. -/
def compareRanges (left right : Range) : Int :=
  if left.family.number - right.family.number ≠ 0 then
    left.family.number - right.family.number
  else if (left.prefixLength : Int) - right.prefixLength ≠ 0 then
    (left.prefixLength : Int) - right.prefixLength
  else if left.address < right.address then -1
  else if left.address > right.address then 1
  else 0

/-- `sort` with the comparison. -/
def sortRanges (ranges : List Range) : List Range :=
  ranges.mergeSort fun left right => decide (compareRanges left right ≤ 0)

/-- `sort` without a comparison: by code units. -/
def sortTexts (texts : List JsString) : List JsString :=
  texts.mergeSort fun left right => !Json.textLt right left

def deniedCoverage (cidrs : List JsString) : Except String (List JsString) := do
  failIf (4096 < cidrs.length) "Too many observed route exclusions."
  let ranges ← (SPECIAL_CIDRS ++ cidrs).mapM parseRange
  pure (sortTexts ((keep contains (sortRanges ranges)).map formatRange))

def addressAdmission (exclusions : List JsString) : Except String (JsString → Bool) := do
  let coverage ← deniedCoverage exclusions
  let ranges ← coverage.mapM parseRange
  pure fun address =>
    match hparsed : parseNumericAddress address with
    | none => false
    | some parsed =>
      !ranges.any fun range =>
        contains range (hostRange parsed.family parsed.value
          (parseNumericAddress_iff.1 hparsed).lt)

/-! ## Sorting -/

variable {ranges : List Range} {range left right : Range} {cidrs coverage : List JsString}
  {cidr : JsString}

theorem compareRanges_le : compareRanges left right ≤ 0 ↔
    left.family.number < right.family.number ∨ (left.family.number = right.family.number ∧
      (left.prefixLength < right.prefixLength ∨ (left.prefixLength = right.prefixLength ∧
        left.address ≤ right.address))) := by
  unfold compareRanges
  split
  · omega
  · split
    · omega
    · split
      · omega
      · split
        · omega
        · omega

theorem mem_sortRanges : range ∈ sortRanges ranges ↔ range ∈ ranges := List.mem_mergeSort

/-- In sorted ranges none is contained in a later one. -/
theorem sortRanges_order (ranges : List Range) :
    (sortRanges ranges).Pairwise fun a b => contains b a = true → a = b := by
  have hsorted : (sortRanges ranges).Pairwise fun a b =>
      decide (compareRanges a b ≤ 0) = true := by
    refine List.pairwise_mergeSort (fun a b c hab hbc => ?_) (fun a b => ?_) ranges
    · simp only [decide_eq_true_eq, compareRanges_le] at hab hbc ⊢
      omega
    · simp only [Bool.or_eq_true, decide_eq_true_eq, compareRanges_le]
      omega
  refine hsorted.imp fun {a b} hle hcontains => ?_
  rw [decide_eq_true_eq, compareRanges_le] at hle
  have ⟨hfamily, hlength, haddress⟩ := contains_iff.1 hcontains
  have hback : contains a b = true := by
    rw [hfamily] at hle
    refine contains_iff.2 ⟨hfamily.symm, by omega, ?_⟩
    have hsame : a.prefixLength = b.prefixLength := by omega
    rw [hsame, ← hfamily, haddress]
  exact contains_antisymm hback hcontains

theorem textLt_false {s t : JsString} : (!Json.textLt t s) = true ↔ rank s ≤ rank t := by
  rw [Bool.not_eq_true', ← not_iff_not, Bool.not_eq_false, textLt_iff, not_le]

/-- Sorted texts depend on the texts alone. -/
theorem sortTexts_eq {xs ys : List JsString} (h : xs.Perm ys) : sortTexts xs = sortTexts ys := by
  have hsorted : ∀ zs : List JsString, (sortTexts zs).Pairwise fun s t =>
      (!Json.textLt t s) = true := by
    refine fun zs => List.pairwise_mergeSort (fun a b c hab hbc => ?_) (fun a b => ?_) zs
    · rw [textLt_false] at hab hbc ⊢
      exact hab.trans hbc
    · rw [Bool.or_eq_true, textLt_false, textLt_false]
      exact le_total (rank a) (rank b)
  refine List.Perm.eq_of_pairwise (fun a b _ _ hab hba => ?_) (hsorted xs) (hsorted ys) ?_
  · rw [textLt_false] at hab hba
    exact rank_inj (le_antisymm hab hba)
  · exact (List.mergeSort_perm xs _).trans (h.trans (List.mergeSort_perm ys _).symm)

/-! ## Parsing lists -/

theorem mapM_eq_ok {α β ε : Type} {f : α → Except ε β} {xs : List α} {ys : List β} :
    xs.mapM f = .ok ys ↔ List.Forall₂ (fun x y => f x = .ok y) xs ys := by
  induction xs generalizing ys with
  | nil =>
    rw [List.mapM_nil]
    constructor
    · intro h
      cases h
      exact .nil
    · intro h
      cases h
      rfl
  | cons x xs ih =>
    rw [List.mapM_cons]
    constructor
    · intro h
      have ⟨y, hy, hrest⟩ := bind_eq_ok.1 h
      have ⟨zs, hzs, heq⟩ := bind_eq_ok.1 hrest
      cases heq
      exact .cons hy (ih.1 hzs)
    · intro h
      cases h with
      | cons hy hrest => exact bind_eq_ok.2 ⟨_, hy, bind_eq_ok.2 ⟨_, ih.2 hrest, rfl⟩⟩

theorem mem_of_forall₂ {α β : Type} {R : α → β → Prop} {xs : List α} {ys : List β}
    (h : List.Forall₂ R xs ys) : (∀ y ∈ ys, ∃ x ∈ xs, R x y) ∧ ∀ x ∈ xs, ∃ y ∈ ys, R x y := by
  induction h with
  | nil => simp
  | cons hxy _ ih =>
    simp only [List.forall_mem_cons, List.exists_mem_cons_iff]
    exact ⟨⟨.inl hxy, fun y hy => .inr (ih.1 y hy)⟩, .inl hxy, fun x hx => .inr (ih.2 x hx)⟩

/-- The ranges of some texts: each text has one, and each range comes from one. -/
theorem mem_ranges (h : cidrs.mapM parseRange = .ok ranges) :
    range ∈ ranges ↔ ∃ cidr ∈ cidrs, parseRange cidr = .ok range := by
  have ⟨hback, hforth⟩ := mem_of_forall₂ (mapM_eq_ok.1 h)
  constructor
  · exact hback range
  · rintro ⟨cidr, hmem, hread⟩
    have ⟨other, hother, hsame⟩ := hforth cidr hmem
    rw [hread] at hsame
    exact Except.ok.inj hsame ▸ hother

/-- Texts are all read when each of them is. -/
theorem ranges_of_forall (h : ∀ cidr ∈ cidrs, ∃ range, parseRange cidr = .ok range) :
    ∃ ranges, cidrs.mapM parseRange = .ok ranges := by
  induction cidrs with
  | nil => exact ⟨[], rfl⟩
  | cons cidr cidrs ih =>
    have ⟨range, hrange⟩ := h cidr (by simp)
    have ⟨ranges, hranges⟩ := ih fun other hother => h other (by simp [hother])
    exact ⟨range :: ranges, mapM_eq_ok.2 (.cons hrange (mapM_eq_ok.1 hranges))⟩

/-- What a check of the ranges of some texts says of each. -/
theorem of_check {P : Range → Prop} [DecidablePred P]
    (h : cidrs.all (fun cidr => (parseRange cidr).toOption.any fun range => decide (P range)) =
      true) : ∀ cidr ∈ cidrs, ∃ range, parseRange cidr = .ok range ∧ P range := by
  intro cidr hcidr
  have hthis := List.all_eq_true.1 h cidr hcidr
  cases hread : parseRange cidr with
  | ok range =>
    rw [hread] at hthis
    exact ⟨range, rfl, of_decide_eq_true hthis⟩
  | error error =>
    rw [hread] at hthis
    cases hthis

theorem special_read : ∀ cidr ∈ SPECIAL_CIDRS, ∃ range, parseRange cidr = .ok range := by
  intro cidr hcidr
  have ⟨range, hrange, _⟩ := of_check (P := fun _ => True) (by decide) cidr hcidr
  exact ⟨range, hrange⟩

/-! ## The denied ranges -/

/-- The ranges that no other one contains. -/
def keptRanges (ranges : List Range) : List Range := keep contains (sortRanges ranges)

theorem mem_keptRanges : range ∈ keptRanges ranges ↔
    range ∈ ranges ∧ ∀ other ∈ ranges, contains other range = true → other = range := by
  rw [keptRanges, mem_keep contains_covering (sortRanges_order ranges)]
  simp only [mem_sortRanges]

theorem deniedCoverage_eq_ok : deniedCoverage cidrs = .ok coverage ↔
    cidrs.length ≤ 4096 ∧ ∃ ranges, (SPECIAL_CIDRS ++ cidrs).mapM parseRange = .ok ranges ∧
      coverage = sortTexts ((keptRanges ranges).map formatRange) := by
  unfold deniedCoverage
  rw [failIf_bind_eq_ok, bind_eq_ok, not_lt]
  refine and_congr_right fun _ => exists_congr fun ranges => and_congr_right fun _ => ?_
  rw [pure_eq_ok, Except.ok.injEq]
  exact ⟨Eq.symm, Eq.symm⟩

/-- A short list of ranges is accepted. -/
theorem deniedCoverage_ok (hlength : cidrs.length ≤ 4096)
    (h : ∀ cidr ∈ cidrs, ∃ range, parseRange cidr = .ok range) :
    ∃ coverage, deniedCoverage cidrs = .ok coverage := by
  have hall : ∀ cidr ∈ SPECIAL_CIDRS ++ cidrs, ∃ range, parseRange cidr = .ok range := by
    intro cidr hcidr
    rcases List.mem_append.1 hcidr with hspecial | hgiven
    · exact special_read cidr hspecial
    · exact h cidr hgiven
  have ⟨ranges, hranges⟩ := ranges_of_forall hall
  exact ⟨_, deniedCoverage_eq_ok.2 ⟨hlength, ranges, hranges, rfl⟩⟩

theorem mem_sortTexts {texts : List JsString} : cidr ∈ sortTexts texts ↔ cidr ∈ texts :=
  List.mem_mergeSort

/-- The texts of a coverage are read back as its ranges. -/
theorem coverage_ranges (ranges : List Range) :
    ∃ denied, (sortTexts ((keptRanges ranges).map formatRange)).mapM parseRange = .ok denied ∧
      ∀ range, range ∈ denied ↔ range ∈ keptRanges ranges := by
  have hread : ∀ cidr ∈ sortTexts ((keptRanges ranges).map formatRange),
      ∃ range, parseRange cidr = .ok range := by
    intro cidr hcidr
    have ⟨range, _, heq⟩ := List.mem_map.1 (mem_sortTexts.1 hcidr)
    exact ⟨range, heq ▸ parse_formatRange range⟩
  have ⟨denied, hdenied⟩ := ranges_of_forall hread
  refine ⟨denied, hdenied, fun range => ?_⟩
  rw [mem_ranges hdenied]
  constructor
  · rintro ⟨cidr, hcidr, hrange⟩
    have ⟨kept, hkept, heq⟩ := List.mem_map.1 (mem_sortTexts.1 hcidr)
    rw [← heq, parse_formatRange] at hrange
    exact Except.ok.inj hrange ▸ hkept
  · intro hkept
    exact ⟨formatRange range, mem_sortTexts.2 (List.mem_map_of_mem hkept), parse_formatRange range⟩

/-- Lists that keep the same ranges deny the same texts. -/
theorem texts_eq {others : List Range} (h : (keptRanges ranges).Perm (keptRanges others)) :
    sortTexts ((keptRanges ranges).map formatRange) =
      sortTexts ((keptRanges others).map formatRange) := sortTexts_eq (h.map formatRange)

/-- Every range is covered by a denied one, and denied ranges are given or special. -/
theorem denied_iff (hranges : (SPECIAL_CIDRS ++ cidrs).mapM parseRange = .ok ranges)
    {family : AddressFamily} {value : Nat} :
    (∃ range ∈ keptRanges ranges, range.Covers family value) ↔
      ∃ cidr ∈ SPECIAL_CIDRS ++ cidrs, CidrCovers cidr family value := by
  constructor
  · rintro ⟨range, hkept, hcovers⟩
    have ⟨cidr, hcidr, hread⟩ := (mem_ranges hranges).1 (mem_keptRanges.1 hkept).1
    exact ⟨cidr, hcidr, (cidrCovers_iff hread).2 hcovers⟩
  · rintro ⟨cidr, hcidr, hcovers⟩
    have ⟨_, hforth⟩ := mem_of_forall₂ (mapM_eq_ok.1 hranges)
    have ⟨range, hrange, hread⟩ := hforth cidr hcidr
    have ⟨kept, hkept, hcontains⟩ := keep_covers contains_covering (mem_sortRanges.2 hrange)
    exact ⟨kept, hkept, contains_iff_covers.1 hcontains family value
      ((cidrCovers_iff hread).1 hcovers)⟩

/-- **Admission is exact**: an address is refused when a given or a special range covers it. -/
theorem addressAdmission_exact (h : deniedCoverage cidrs = .ok coverage) :
    ∃ permitted, addressAdmission cidrs = .ok permitted ∧
      ∀ address family value, IpLiteral address family value →
        (permitted address = false ↔
          ∃ cidr ∈ SPECIAL_CIDRS ++ cidrs, CidrCovers cidr family value) := by
  have ⟨_, ranges, hranges, hcoverage⟩ := deniedCoverage_eq_ok.1 h
  have ⟨denied, hdenied, hmem⟩ := coverage_ranges ranges
  rw [← hcoverage] at hdenied
  refine ⟨_, bind_eq_ok.2 ⟨coverage, h, bind_eq_ok.2 ⟨denied, hdenied, rfl⟩⟩, ?_⟩
  intro address family value hliteral
  have hparsed := parseNumericAddress_iff.2 hliteral
  rw [← denied_iff hranges]
  split
  next hnone =>
    rw [hparsed] at hnone
    cases hnone
  next parsed hfound =>
    have hsame : parsed = ⟨family, value⟩ := Option.some.inj (hfound.symm.trans hparsed)
    subst hsame
    rw [Bool.not_eq_false', List.any_eq_true]
    simp only [contains_hostRange, hmem]

/-- **The denied texts are an antichain**: none covers all that another one covers. -/
theorem coverage_antichain (h : deniedCoverage cidrs = .ok coverage) :
    coverage.Nodup ∧ ∀ inner ∈ coverage, ∀ outer ∈ coverage,
      (∀ family value, CidrCovers inner family value → CidrCovers outer family value) →
        inner = outer := by
  have ⟨_, ranges, _, hcoverage⟩ := deniedCoverage_eq_ok.1 h
  subst hcoverage
  constructor
  · have hnodup := keep_nodup contains_covering (sortRanges_order ranges)
    have hmap : ((keptRanges ranges).map formatRange).Nodup :=
      hnodup.map fun a b hab => formatRange_inj hab
    exact (List.mergeSort_perm _ _).nodup_iff.2 hmap
  · intro inner hinner outer houter hcovers
    have ⟨r, hr, hreq⟩ := List.mem_map.1 (mem_sortTexts.1 hinner)
    have ⟨s, hs, hseq⟩ := List.mem_map.1 (mem_sortTexts.1 houter)
    subst hreq hseq
    have hcontains : contains s r = true := by
      rw [contains_iff_covers]
      intro family value hcover
      exact (cidrCovers_iff (parse_formatRange s)).1
        (hcovers family value ((cidrCovers_iff (parse_formatRange r)).2 hcover))
    exact congrArg formatRange
      (eq_of_keep_covers (sortRanges_order ranges) hs hr hcontains).symm

/-- **The coverage depends on the given texts alone**, not on their order or repetition. -/
theorem coverage_independent (h : deniedCoverage cidrs = .ok coverage) {others : List JsString}
    (hlength : others.length ≤ 4096) (hsame : ∀ cidr, cidr ∈ others ↔ cidr ∈ cidrs) :
    deniedCoverage others = .ok coverage := by
  have ⟨_, ranges, hranges, hcoverage⟩ := deniedCoverage_eq_ok.1 h
  have hall : ∀ cidr, cidr ∈ SPECIAL_CIDRS ++ others ↔ cidr ∈ SPECIAL_CIDRS ++ cidrs := by
    intro cidr
    rw [List.mem_append, List.mem_append, hsame]
  have ⟨_, hforth⟩ := mem_of_forall₂ (mapM_eq_ok.1 hranges)
  have hread : ∀ cidr ∈ SPECIAL_CIDRS ++ others, ∃ range, parseRange cidr = .ok range := by
    intro cidr hcidr
    have ⟨range, _, hrange⟩ := hforth cidr ((hall cidr).1 hcidr)
    exact ⟨range, hrange⟩
  have ⟨ranges', hranges'⟩ := ranges_of_forall hread
  refine deniedCoverage_eq_ok.2 ⟨hlength, ranges', hranges', hcoverage.trans (texts_eq ?_)⟩
  refine keep_perm contains_covering (sortRanges_order _) (sortRanges_order _) fun range => ?_
  rw [mem_sortRanges, mem_sortRanges, mem_ranges hranges, mem_ranges hranges']
  simp only [hall]

/-- **The coverage is a fixpoint** as long as it is short enough to be fed back. -/
theorem coverage_fixpoint (h : deniedCoverage cidrs = .ok coverage)
    (hlength : coverage.length ≤ 4096) : deniedCoverage coverage = .ok coverage := by
  have ⟨_, ranges, hranges, hcoverage⟩ := deniedCoverage_eq_ok.1 h
  have ⟨denied, hdenied, hmem⟩ := coverage_ranges ranges
  rw [← hcoverage] at hdenied
  have hread : ∀ cidr ∈ SPECIAL_CIDRS ++ coverage, ∃ range, parseRange cidr = .ok range := by
    intro cidr hcidr
    rcases List.mem_append.1 hcidr with hspecial | hgiven
    · exact special_read cidr hspecial
    · have ⟨range, _, hrange⟩ := (mem_of_forall₂ (mapM_eq_ok.1 hdenied)).2 cidr hgiven
      exact ⟨range, hrange⟩
  have ⟨ranges', hranges'⟩ := ranges_of_forall hread
  refine deniedCoverage_eq_ok.2 ⟨hlength, ranges', hranges', hcoverage.trans (texts_eq ?_)⟩
  refine (keep_idem contains_covering (sortRanges_order ranges) (sortRanges_order ranges')
    (fun range hkept => ?_) fun range hrange => ?_).symm
  · rw [mem_sortRanges, mem_ranges hranges']
    have ⟨cidr, hcidr, hthis⟩ := (mem_ranges hdenied).1 ((hmem range).2 hkept)
    exact ⟨cidr, List.mem_append_right _ hcidr, hthis⟩
  · rw [mem_sortRanges, mem_ranges hranges'] at hrange
    have ⟨cidr, hcidr, hthis⟩ := hrange
    rw [mem_sortRanges]
    rcases List.mem_append.1 hcidr with hspecial | hgiven
    · exact (mem_ranges hranges).2 ⟨cidr, List.mem_append_left _ hspecial, hthis⟩
    · exact (mem_keptRanges.1 ((hmem range).1 ((mem_ranges hdenied).2 ⟨cidr, hgiven, hthis⟩))).1

/-- **Egress address admission.**  For every accepted list of ranges an address is refused
exactly when a given or a special range of its family covers it; the coverage is an antichain
that depends on the given texts alone, and a fixpoint unless it is too large to be fed back;
and formatted addresses are read back. -/
theorem address_admission (cidrs coverage : List JsString)
    (h : deniedCoverage cidrs = .ok coverage) :
    (∃ permitted, addressAdmission cidrs = .ok permitted ∧
      ∀ address family value, IpLiteral address family value →
        (permitted address = false ↔
          ∃ cidr ∈ SPECIAL_CIDRS ++ cidrs, CidrCovers cidr family value)) ∧
    (coverage.Nodup ∧ ∀ inner ∈ coverage, ∀ outer ∈ coverage,
      (∀ family value, CidrCovers inner family value → CidrCovers outer family value) →
        inner = outer) ∧
    (∀ others : List JsString, others.length ≤ 4096 → (∀ cidr, cidr ∈ others ↔ cidr ∈ cidrs) →
      deniedCoverage others = .ok coverage) ∧
    (coverage.length ≤ 4096 → deniedCoverage coverage = .ok coverage) ∧
    (4096 < coverage.length →
      deniedCoverage coverage = .error "Too many observed route exclusions.") ∧
    ∀ family value, value < 2 ^ addressWidth family →
      parseNumericAddress (formatNumericAddress value family) = some ⟨family, value⟩ := by
  refine ⟨addressAdmission_exact h, coverage_antichain h, fun others => coverage_independent h,
    coverage_fixpoint h, fun hlong => ?_, fun family value => parse_formatNumericAddress⟩
  rw [deniedCoverage, failIf_of _ hlong, error_bind]

/-- Private ranges of two families, one of them given twice with bits of a host. -/
theorem address_admission_private :
    ∃ coverage, deniedCoverage [js "10.1.2.3/16", js "10.1.0.0/16", js "fd00::1/8"] =
        .ok coverage ∧
      (∃ permitted,
        addressAdmission [js "10.1.2.3/16", js "10.1.0.0/16", js "fd00::1/8"] = .ok permitted ∧
        ∀ address family value, IpLiteral address family value →
          (permitted address = false ↔
            ∃ cidr ∈ SPECIAL_CIDRS ++ [js "10.1.2.3/16", js "10.1.0.0/16", js "fd00::1/8"],
              CidrCovers cidr family value)) := by
  have hread : ∀ cidr ∈ [js "10.1.2.3/16", js "10.1.0.0/16", js "fd00::1/8"],
      ∃ range, parseRange cidr = .ok range := by
    intro cidr hcidr
    have ⟨range, hrange, _⟩ := of_check (P := fun _ => True) (by decide) cidr hcidr
    exact ⟨range, hrange⟩
  have ⟨coverage, h⟩ := deniedCoverage_ok (by decide) hread
  exact ⟨coverage, h, (address_admission _ coverage h).1⟩

/-- **A coverage denies what was given**: it exists for up to 4096 texts of ranges, and covers
an address exactly when one of them or of the special ranges does. -/
theorem coverage_denies (cidrs : List JsString) :
    (cidrs.length ≤ 4096 ∧ ∀ cidr ∈ cidrs, ∃ range, parseRange cidr = .ok range) ↔
      ∃ coverage, deniedCoverage cidrs = .ok coverage ∧ ∀ family value,
        (∃ cidr ∈ coverage, CidrCovers cidr family value) ↔
          ∃ cidr ∈ SPECIAL_CIDRS ++ cidrs, CidrCovers cidr family value := by
  constructor
  · rintro ⟨hlength, hread⟩
    obtain ⟨coverage, h⟩ := deniedCoverage_ok hlength hread
    obtain ⟨-, ranges, hranges, rfl⟩ := deniedCoverage_eq_ok.1 h
    refine ⟨_, h, fun family value => ?_⟩
    rw [← denied_iff hranges]
    simp only [mem_sortTexts, List.mem_map, exists_exists_and_eq_and,
      cidrCovers_iff (parse_formatRange _)]
  · rintro ⟨coverage, h, -⟩
    obtain ⟨hlength, ranges, hranges, -⟩ := deniedCoverage_eq_ok.1 h
    refine ⟨hlength, fun cidr hcidr => ?_⟩
    obtain ⟨range, -, hread⟩ := (mem_of_forall₂ (mapM_eq_ok.1 hranges)).2 cidr (by simp [hcidr])
    exact ⟨range, hread⟩

/-! ## A coverage that is too large -/

/-- 4096 single addresses, from 1.0.0.0 on. -/
def hostCidrs : List JsString :=
  (List.range 4096).map fun i => formatNumericAddress (2 ^ 24 + i) .ipv4 ++ js "/32"

/-- The range of the `i`-th address. -/
def hostAt (i : Nat) : Range :=
  hostRange .ipv4 ((2 ^ 24 + i) % 2 ^ 32) (Nat.mod_lt _ (Nat.two_pow_pos _))

theorem hostAt_address {i : Nat} (h : i < 4096) : (hostAt i).address = 2 ^ 24 + i :=
  Nat.mod_eq_of_lt (by omega)

theorem parse_host {i : Nat} (h : i < 4096) :
    parseRange (formatNumericAddress (2 ^ 24 + i) .ipv4 ++ js "/32") = .ok (hostAt i) := by
  have htext : formatRange (hostAt i) =
      formatNumericAddress (2 ^ 24 + i) .ipv4 ++ js "/32" := by
    have hbits : (47 : UInt16) :: natDecimal 32 = js "/32" := by decide
    rw [formatRange, hostAt_address h, ← hbits]
    rfl
  rw [← htext]
  exact parse_formatRange (hostAt i)

/-- The special range 10.0.0.0/8. -/
def tenRange : Range := rangeOf .ipv4 8 (10 * 2 ^ 24) (by decide) (by decide)

/-- Whether a range lies apart from the addresses that begin with 1. -/
def Apart (range : Range) : Prop :=
  range.family = .ipv6 ∨ (8 ≤ range.prefixLength ∧ range.address / 2 ^ 24 ≠ 1) ∨
    (4 ≤ range.prefixLength ∧ range.address / 2 ^ 28 ≠ 0)

instance : DecidablePred Apart := fun _ => inferInstanceAs (Decidable (_ ∨ _))

theorem special_apart : ∀ cidr ∈ SPECIAL_CIDRS, ∃ range, parseRange cidr = .ok range ∧
    (Apart range ∧ (contains range tenRange = true → range = tenRange)) :=
  of_check (by decide)

theorem not_contains_of_apart (h : Apart range) {i : Nat} (hi : i < 4096) :
    contains range (hostAt i) = false := by
  by_contra hcontains
  rw [Bool.not_eq_false, contains_iff] at hcontains
  have ⟨hfamily, _, haddress⟩ := hcontains
  have hfour : range.family = .ipv4 := hfamily
  have hfits := range.fits
  rw [hfour] at haddress hfits
  rw [hostAt_address hi] at haddress
  have hquotient : ∀ j, addressWidth .ipv4 - range.prefixLength ≤ j →
      (2 ^ 24 + i) / 2 ^ j = range.address / 2 ^ j := fun j hj => by
    rw [Blocks.div_pow_of_le hj, haddress, ← Blocks.div_pow_of_le hj]
  have hwidth : addressWidth .ipv4 = 32 := rfl
  rcases h with hsix | ⟨hlong, hno⟩ | ⟨hlong, hno⟩
  · rw [hfour] at hsix
    cases hsix
  · have hsame := hquotient 24 (by omega)
    omega
  · have hsame := hquotient 28 (by omega)
    omega

theorem hostAt_inj {i j : Nat} (hi : i < 4096) (hj : j < 4096) (h : hostAt i = hostAt j) :
    i = j := by
  have haddress := congrArg Range.address h
  rw [hostAt_address hi, hostAt_address hj] at haddress
  omega

/-- The denied ranges of the single addresses: all of them, and a special one. -/
theorem kept_hosts (hranges : (SPECIAL_CIDRS ++ hostCidrs).mapM parseRange = .ok ranges) :
    4096 < (keptRanges ranges).length := by
  have hsource : ∀ range ∈ ranges, (Apart range ∧
      (contains range tenRange = true → range = tenRange)) ∨ ∃ i < 4096, range = hostAt i := by
    intro range hrange
    have ⟨cidr, hcidr, hread⟩ := (mem_ranges hranges).1 hrange
    rcases List.mem_append.1 hcidr with hspecial | hgiven
    · have ⟨other, hother, happart⟩ := special_apart cidr hspecial
      rw [hread] at hother
      exact .inl (Except.ok.inj hother ▸ happart)
    · have ⟨i, hi, heq⟩ := List.mem_map.1 hgiven
      have hlt := List.mem_range.1 hi
      rw [← heq, parse_host hlt] at hread
      exact .inr ⟨i, hlt, (Except.ok.inj hread).symm⟩
  have hten : tenRange ∈ keptRanges ranges := by
    refine mem_keptRanges.2 ⟨(mem_ranges hranges).2 ⟨js "10.0.0.0/8", by decide, by decide⟩, ?_⟩
    intro other hother hcontains
    rcases hsource other hother with hspecial | ⟨i, -, heq⟩
    · exact hspecial.2 hcontains
    · have hlength := (contains_iff.1 hcontains).2.1
      rw [heq] at hlength
      exact absurd (show 32 ≤ 8 from hlength) (by omega)
  have hhosts : ∀ i < 4096, hostAt i ∈ keptRanges ranges := by
    intro i hi
    refine mem_keptRanges.2 ⟨(mem_ranges hranges).2 ⟨_, List.mem_append_right _
      (List.mem_map_of_mem (List.mem_range.2 hi)), parse_host hi⟩, ?_⟩
    intro other hother hcontains
    rcases hsource other hother with hspecial | ⟨j, hj, heq⟩
    · rw [not_contains_of_apart hspecial.1 hi] at hcontains
      cases hcontains
    · have haddress := (contains_iff.1 hcontains).2.2
      rw [heq, hostAt_address hi, hostAt_address hj] at haddress
      have hsame : i = j := by
        have hbits : addressWidth (hostAt j).family - (hostAt j).prefixLength = 0 := rfl
        rw [hbits] at haddress
        omega
      rw [heq, hsame]
  have hdistinct : (tenRange :: (List.range 4096).map hostAt).Nodup := by
    rw [List.nodup_cons]
    constructor
    · intro hmem
      have ⟨i, _, heq⟩ := List.mem_map.1 hmem
      have hlength := congrArg Range.prefixLength heq
      exact absurd (show 32 = 8 from hlength) (by omega)
    · refine List.nodup_range.map_on fun i hi j hj h => ?_
      exact hostAt_inj (List.mem_range.1 hi) (List.mem_range.1 hj) h
  have hsub : (tenRange :: (List.range 4096).map hostAt) ⊆ keptRanges ranges := by
    intro range hrange
    rcases List.mem_cons.1 hrange with heq | hmem
    · exact heq ▸ hten
    · have ⟨i, hi, heq⟩ := List.mem_map.1 hmem
      exact heq ▸ hhosts i (List.mem_range.1 hi)
  have hle := (hdistinct.subperm hsub).length_le
  rw [List.length_cons, List.length_map, List.length_range] at hle
  omega

/-- The coverage of 4096 single addresses has more texts than are accepted. -/
theorem coverage_too_large :
    ∃ coverage, deniedCoverage hostCidrs = .ok coverage ∧
      deniedCoverage coverage = .error "Too many observed route exclusions." := by
  have hlength : hostCidrs.length = 4096 := by rw [hostCidrs, List.length_map, List.length_range]
  have hread : ∀ cidr ∈ hostCidrs, ∃ range, parseRange cidr = .ok range := by
    intro cidr hcidr
    have ⟨i, hi, heq⟩ := List.mem_map.1 hcidr
    exact ⟨hostAt i, heq ▸ parse_host (List.mem_range.1 hi)⟩
  have ⟨coverage, h⟩ := deniedCoverage_ok (by omega) hread
  have ⟨_, ranges, hranges, hcoverage⟩ := deniedCoverage_eq_ok.1 h
  have hlong := kept_hosts hranges
  refine ⟨coverage, h, ?_⟩
  have hmany : 4096 < coverage.length := by
    rw [hcoverage, sortTexts, List.length_mergeSort, List.length_map]
    exact hlong
  rw [deniedCoverage, failIf_of _ hmany, error_bind]

end AgentSdk.Network
