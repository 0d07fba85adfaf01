import AgentSdk.Delegation.Fit
import AgentSdk.Lib.JsonSize
import AgentSdk.Lib.Keyset
import AgentSdk.Lib.TextOrder

/-!
# Pages of rows

The store answers a query page by page.  A page is bounded in rows and in bytes, and
its cursor names the store, the query and the key of the last row; a reader that
follows the cursors gets every row once, in the order of the keys.

A cursor without a key is refused, so a row whose key is empty cannot be the last of
a page: the keys of the store are never empty.

## Main results

* `pageDelegationRows_ok`, `pageDelegationRows_error` — what a page is, and when it
  is refused.
* `page_bytes` — the JSON of a page and its envelope fit the page budget.
* `keyset_paging` — every reader of the pages.
* `empty_key_refused` — the cursor of an empty key.
-/

namespace AgentSdk.Delegation

open AgentSdk.Text AgentSdk.Outcome AgentSdk.Keyset

/-! ## Cursors -/

theorem length_of_matchesUnits {classes : List (UInt16 → Bool)} {s : JsString}
    (h : matchesUnits classes s = true) : s.length = classes.length := by
  induction classes generalizing s with
  | nil =>
    cases s with
    | nil => rfl
    | cons u s => cases h
  | cons p classes ih =>
    cases s with
    | nil => cases h
    | cons u s =>
      simp only [matchesUnits, Bool.and_eq_true] at h
      rw [List.length_cons, List.length_cons, ih h.2]

/-- The identities of stores have one length. -/
theorem length_of_isUuid {s : JsString} (h : isUuid s = true) : s.length = 36 := by
  simp only [isUuid, Bool.or_eq_true, beq_iff_eq] at h
  rcases h with (hmatches | hnil) | hmax
  · exact length_of_matchesUnits hmatches
  · rw [hnil]; rfl
  · rw [hmax]; rfl

section Cursors

variable [Platform]

def delegationCursorPrefix (storeId : JsString) (query : Json) : JsString :=
  storeId ++ (js ":" ++ ((delegationInputDigest query).take 16 ++ js ":"))

/-- The key that a cursor of the query names. -/
def parseDelegationPageCursor (storeId : JsString) (query : Json) (cursor : Option JsString) :
    Result (Option JsString) :=
  match cursor with
  | none => pure none
  | some cursor => do
      let start := delegationCursorPrefix storeId query
      failWhen (start.isPrefixOf cursor = false) .staleRevision
        "The cursor belongs to a different store query."
      let key := cursor.drop start.length
      failWhen (key = [] ∨ 128 < key.length) .staleRevision "The retained cursor is invalid."
      pure (some key)

theorem parse_own {storeId key : JsString} {query : Json} (hkey : key ≠ [])
    (hlength : key.length ≤ 128) :
    parseDelegationPageCursor storeId query (some (delegationCursorPrefix storeId query ++ key)) =
      .ok (some key) := by
  have hstart : (delegationCursorPrefix storeId query).isPrefixOf
      (delegationCursorPrefix storeId query ++ key) = true :=
    List.isPrefixOf_iff_prefix.2 (List.prefix_append _ _)
  have hdrop : (delegationCursorPrefix storeId query ++ key).drop
      (delegationCursorPrefix storeId query).length = key := List.drop_left
  unfold parseDelegationPageCursor
  simp only [hdrop]
  refine failIf_bind_eq_ok.2 ⟨by simp [hstart], failIf_bind_eq_ok.2 ⟨?_, rfl⟩⟩
  simp only [not_or, not_lt]
  exact ⟨hkey, hlength⟩

/-- **A cursor of another store or query is refused**: the identities of stores have
one length, so the part in front of the key tells them apart, and queries with it as
long as their digests differ where the cursor has them. -/
theorem parse_other {storeId other key : JsString} {query asked : Json}
    (hlength : other.length = storeId.length)
    (hdiffers : other ≠ storeId ∨
      (delegationInputDigest asked).take 16 ≠ (delegationInputDigest query).take 16) :
    parseDelegationPageCursor storeId query (some (delegationCursorPrefix other asked ++ key)) =
      .error (.operation .staleRevision (js "The cursor belongs to a different store query.")) := by
  have htake : ∀ query : Json, ((delegationInputDigest query).take 16).length = 16 := by
    intro query
    have hdigest := isDigest_delegationInputDigest query
    simp only [isDigest, Bool.and_eq_true, decide_eq_true_eq] at hdigest
    rw [List.length_take, hdigest.1]
    rfl
  have hother : (delegationCursorPrefix storeId query).isPrefixOf
      (delegationCursorPrefix other asked ++ key) = false := by
    rw [Bool.eq_false_iff, ne_eq, List.isPrefixOf_iff_prefix]
    rintro ⟨rest, hrest⟩
    simp only [delegationCursorPrefix, List.append_assoc] at hrest
    obtain ⟨hstore, hrest⟩ := List.append_inj hrest hlength.symm
    have hrest := List.append_cancel_left hrest
    have hdigest := (List.append_inj hrest (by rw [htake, htake])).1
    rcases hdiffers with hstores | hqueries
    · exact hstores hstore.symm
    · exact hqueries hdigest.symm
  unfold parseDelegationPageCursor
  simp only [hother, failIf, if_true]
  rfl

/-- A cursor without a key is refused. -/
theorem parse_empty (storeId : JsString) (query : Json) :
    parseDelegationPageCursor storeId query (some (delegationCursorPrefix storeId query ++ [])) =
      .error (.operation .staleRevision (js "The retained cursor is invalid.")) := by
  have hstart : (delegationCursorPrefix storeId query).isPrefixOf
      (delegationCursorPrefix storeId query ++ []) = true :=
    List.isPrefixOf_iff_prefix.2 (List.prefix_append _ _)
  have hdrop : (delegationCursorPrefix storeId query ++ ([] : JsString)).drop
      (delegationCursorPrefix storeId query).length = [] := List.drop_left
  unfold parseDelegationPageCursor
  simp only [hstart, hdrop]
  rfl

end Cursors

/-! ## Pages -/

/-- What a reader asks for: the store and the query, how rows are keyed and written,
and the bounds of a page. -/
structure PageInput (α : Type) where
  storeId : JsString
  query : Json
  key : α → JsString
  data : α → Json
  limits : Limits
  limit : Option Nat
  envelopeBytes : Nat

structure DelegationPage (α : Type) where
  items : List α
  cursor : Option JsString

variable {α : Type}

/-- The number of rows that a page may have. -/
def PageInput.records (input : PageInput α) : Nat :=
  min (input.limit.getD input.limits.maxPageRecords) input.limits.maxPageRecords

/-- A row is in front of the position, or at it. -/
def PageInput.skips (input : PageInput α) (after : Option JsString) (row : α) : Bool :=
  after.any fun position => !Json.textLt position (input.key row)

/-- The rows of a page, and whether there are more. -/
def pageLoop (input : PageInput α) (after : Option JsString) :
    List α → List α → Nat → Result (List α × Bool)
  | [], items, _ => pure (items, false)
  | row :: rest, items, bytes =>
    if input.skips after row then pageLoop input after rest items bytes
    else do
      let size ← delegationDataBytes (input.data row)
      let size := size + 1
      if input.records ≤ items.length ∨ input.limits.maxPageBytes < bytes + size then
        failWhen (items.length = 0) .capacityExceeded
          "A complete record exceeds this read page budget."
        pure (items, true)
      else pageLoop input after rest (items ++ [row]) (bytes + size)

/-- `sort` by the keys. -/
def PageInput.sorted (input : PageInput α) (rows : List α) : List α :=
  rows.mergeSort fun left right => !Json.textLt (input.key right) (input.key left)

def pageDelegationRows [Platform] (input : PageInput α) (rows : List α)
    (cursor : Option JsString) : Result (DelegationPage α) := do
  let after ← parseDelegationPageCursor input.storeId input.query cursor
  let (items, hasMore) ← pageLoop input after (input.sorted rows) [] (input.envelopeBytes + 512)
  pure { items
         cursor := if hasMore then
           items.getLast?.map fun last =>
             delegationCursorPrefix input.storeId input.query ++ input.key last
         else none }

/-! ## What the loop returns -/

/-- The bytes of a row on a page, with its separator. -/
def PageInput.rowBytes (input : PageInput α) (row : α) : Nat :=
  Json.jsonBytes (input.data row) + 1

/-- The bytes of rows on a page, with the part that is kept for the page itself. -/
def PageInput.pageBytes (input : PageInput α) (items : List α) : Nat :=
  input.envelopeBytes + 512 + (items.map input.rowBytes).sum

/-- The rows that a store can page: captured data with distinct keys of at most 128
characters that are not empty. -/
structure PageInput.Keyed (input : PageInput α) (rows : List α) : Prop where
  distinct : (rows.map input.key).Nodup
  named : ∀ row ∈ rows, input.key row ≠ [] ∧ (input.key row).length ≤ 128
  captured : ∀ row ∈ rows, shallow 16 (input.data row) = true

/-- A request that a store accepts. -/
structure PageInput.Accepted (input : PageInput α) : Prop where
  storeId : isUuid input.storeId = true
  limits : input.limits.Valid
  limit : ∀ limit ∈ input.limit, 1 ≤ limit

/-- A row that is too large for a page of its own. -/
def PageInput.Oversized (input : PageInput α) (row : α) : Prop :=
  input.limits.maxPageBytes < input.pageBytes [row]

section Rows

variable {input : PageInput α}

/-- The rows of the source are measured by the number of their bytes. -/
theorem rowBytes_of_ok {row : α} {size : Nat}
    (h : delegationDataBytes (input.data row) = .ok size) :
    input.rowBytes row = size + 1 := by
  obtain ⟨-, -, hsize⟩ := delegationDataBytes_ok h
  rw [PageInput.rowBytes, hsize]

theorem PageInput.pageBytes_append (items : List α) (row : α) :
    input.pageBytes (items ++ [row]) = input.pageBytes items + input.rowBytes row := by
  simp only [PageInput.pageBytes, List.map_append, List.sum_append, List.map_cons, List.map_nil,
    List.sum_cons, List.sum_nil]
  omega

theorem Accepted.records_pos (h : input.Accepted) : 1 ≤ input.records := by
  have hmax : 1 ≤ input.limits.maxPageRecords := by
    have h := h.limits.finite input.limits.maxPageRecords (by simp [Limits.values])
    simp only [isRevision, Bool.and_eq_true, decide_eq_true_eq] at h
    exact h.1
  unfold PageInput.records
  cases hlimit : input.limit with
  | none => simpa using hmax
  | some limit =>
    have := h.limit limit hlimit
    simp only [Option.getD_some]
    omega

/-- What the loop has found among the rows that are not skipped. -/
structure Paged (input : PageInput α) (later items found : List α) (more : Bool) : Prop where
  first : ∃ rest, items ++ later = found ++ rest ∧ (more = true ↔ rest ≠ [])
  progress : more = true → found ≠ []
  records : found.length ≤ max items.length input.records
  bytes : found = items ∨ input.pageBytes found ≤ input.limits.maxPageBytes

theorem pageLoop_ok {after : Option JsString} {rows items found : List α} {more : Bool}
    {bytes : Nat} (hbytes : bytes = input.pageBytes items)
    (h : pageLoop input after rows items bytes = .ok (found, more)) :
    Paged input (rows.filter fun row => !input.skips after row) items found more := by
  induction rows generalizing items bytes with
  | nil =>
    cases h
    exact ⟨⟨[], by simp⟩, by simp, by omega, .inl rfl⟩
  | cons row rest ih =>
    simp only [pageLoop] at h
    by_cases hskip : input.skips after row = true
    · simp only [hskip, if_true] at h
      simpa [hskip] using ih hbytes h
    · have hkeep : input.skips after row = false := by simpa using hskip
      simp only [hkeep, Bool.false_eq_true, if_false] at h
      obtain ⟨size, hsize, h⟩ := bind_eq_ok.1 h
      have hrow := rowBytes_of_ok hsize
      have hlater : (row :: rest).filter (fun row => !input.skips after row) =
          row :: rest.filter fun row => !input.skips after row := by simp [hkeep]
      rw [hlater]
      split at h
      · obtain ⟨hnonempty, h⟩ := failIf_bind_eq_ok.1 h
        cases h
        refine ⟨⟨_, rfl, by simp⟩, fun _ hnil => hnonempty ?_, by omega, .inl rfl⟩
        rw [hnil]
        rfl
      · rename_i hroom
        simp only [not_or, not_le, not_lt] at hroom
        have hfits : input.pageBytes (items ++ [row]) = bytes + (size + 1) := by
          rw [PageInput.pageBytes_append, hrow, hbytes]
        have hnext := ih hfits.symm h
        obtain ⟨others, hsplit, hmore⟩ := hnext.first
        refine ⟨⟨others, by simpa using hsplit, hmore⟩, hnext.progress, ?_, ?_⟩
        · have := hnext.records
          rw [List.length_append, List.length_singleton] at this
          omega
        · rcases hnext.bytes with hsame | hle
          · rw [hsame, hfits]
            exact .inr hroom.2
          · exact .inr hle

/-- The loop is refused for the first row, or for one that cannot be measured. -/
theorem pageLoop_error {after : Option JsString} {rows items : List α} {bytes : Nat}
    {failure : Failure} (accepted : input.Accepted)
    (captured : ∀ row ∈ rows, shallow 16 (input.data row) = true)
    (hbytes : bytes = input.pageBytes items)
    (h : pageLoop input after rows items bytes = .error failure) :
    ∃ found ∈ rows, input.Oversized found := by
  induction rows generalizing items bytes with
  | nil => cases h
  | cons row rest ih =>
    have hrest : ∀ row ∈ rest, shallow 16 (input.data row) = true :=
      fun row hrow => captured row (List.mem_cons_of_mem _ hrow)
    have hlater : (∃ found ∈ rest, input.Oversized found) →
        ∃ found ∈ row :: rest, input.Oversized found := fun hfound =>
      hfound.imp fun found hlarge => ⟨List.mem_cons_of_mem _ hlarge.1, hlarge.2⟩
    simp only [pageLoop] at h
    by_cases hskip : input.skips after row = true
    · simp only [hskip, if_true] at h
      exact hlater (ih hrest hbytes h)
    · have hkeep : input.skips after row = false := by simpa using hskip
      simp only [hkeep, Bool.false_eq_true, if_false] at h
      by_cases hmeasured : Json.jsonBytes (input.data row) ≤ DELEGATION_DOCUMENT_BYTES
      · rw [delegationDataBytes_eq (captured row (by simp)) hmeasured, ok_bind] at h
        split at h
        · rename_i hfull
          by_cases hnone : items.length = 0
          · -- An empty page has room for a row, so its bytes are the reason.
            have hnil : items = [] := List.eq_nil_of_length_eq_zero hnone
            have hrecords := Accepted.records_pos accepted
            refine ⟨row, by simp, ?_⟩
            unfold PageInput.Oversized
            rw [← List.nil_append [row], PageInput.pageBytes_append, PageInput.rowBytes, ← hnil,
              ← hbytes]
            exact hfull.resolve_left (by omega)
          · rw [failIf_bind hnone] at h
            cases h
        · refine hlater (ih hrest ?_ h)
          rw [PageInput.pageBytes_append, PageInput.rowBytes, hbytes]
      · refine ⟨row, by simp, ?_⟩
        have hformat := accepted.limits.format.2.1
        unfold DELEGATION_DOCUMENT_BYTES at hmeasured
        unfold PageInput.Oversized PageInput.pageBytes
        simp only [List.map_cons, List.map_nil, List.sum_cons, List.sum_nil, PageInput.rowBytes]
        omega

/-! ## The order of the rows -/

/-- The keys of the rows in their order. -/
def PageInput.rank (input : PageInput α) (row : α) : List Nat := Text.rank (input.key row)

theorem PageInput.Keyed.ranks {rows : List α} (keyed : input.Keyed rows) :
    (rows.map input.rank).Nodup := by
  have hranks : rows.map input.rank = (rows.map input.key).map Text.rank := by
    rw [List.map_map]
    rfl
  rw [hranks]
  exact (List.nodup_map_iff fun _ _ => rank_inj).2 keyed.distinct

theorem not_textLt {s t : JsString} : (!Json.textLt t s) = decide (Text.rank s ≤ Text.rank t) := by
  rw [Bool.eq_iff_iff, Bool.not_eq_true', Bool.eq_false_iff, ne_eq, textLt_iff, decide_eq_true_eq,
    not_lt]

theorem PageInput.sorted_eq (input : PageInput α) (rows : List α) :
    input.sorted rows = ordered input.rank rows := by
  unfold PageInput.sorted ordered
  simp only [not_textLt]
  rfl

/-- The rows that the loop does not skip are those behind the position. -/
theorem PageInput.later_eq (input : PageInput α) (rows : List α) (after : Option JsString) :
    (input.sorted rows).filter (fun row => !input.skips after row) =
      behind input.rank rows (after.map Text.rank) := by
  rw [PageInput.sorted_eq, behind]
  refine List.filter_congr fun row _ => ?_
  cases after with
  | none => rfl
  | some position =>
    simp only [PageInput.skips, Option.any_some, Option.map_some, Option.all_some, not_textLt]
    rw [Bool.eq_iff_iff, Bool.not_eq_true', decide_eq_false_iff_not, not_le]
    exact (@decide_eq_true_iff _ (_)).symm

/-! ## What a page is -/

section Reading

variable [Platform]

/-- A cursor of the query, and the key that it names: none at the start. -/
inductive Issued (input : PageInput α) : Option JsString → Option JsString → Prop
  | start : Issued input none none
  | at_ (key : JsString) (named : key ≠ []) (length : key.length ≤ 128) :
      Issued input (some (delegationCursorPrefix input.storeId input.query ++ key)) (some key)

theorem Issued.parsed {cursor after : Option JsString} (h : Issued input cursor after) :
    parseDelegationPageCursor input.storeId input.query cursor = .ok after := by
  cases h with
  | start => rfl
  | at_ key named length => exact parse_own named length

/-- What a reader gets for a cursor: the first rows behind it, within the bounds, and
a cursor that names the last of them when there are more. -/
structure Answers (input : PageInput α) (rows : List α) (after : Option JsString)
    (page : DelegationPage α) : Prop where
  first : IsPage input.rank rows (after.map Text.rank) page.items page.cursor.isSome
  records : page.items.length ≤ input.records
  bytes : page.items = [] ∨ input.pageBytes page.items ≤ input.limits.maxPageBytes
  cursor : ∀ cursor ∈ page.cursor, ∃ last, page.items.getLast? = some last ∧
    cursor = delegationCursorPrefix input.storeId input.query ++ input.key last

theorem pageDelegationRows_ok {rows : List α} {cursor after : Option JsString}
    {page : DelegationPage α} (issued : Issued input cursor after)
    (h : pageDelegationRows input rows cursor = .ok page) : Answers input rows after page := by
  unfold pageDelegationRows at h
  rw [issued.parsed, ok_bind] at h
  obtain ⟨⟨found, more⟩, hloop, h⟩ := bind_eq_ok.1 h
  cases h
  have hbytes : input.envelopeBytes + 512 = input.pageBytes [] := by simp [PageInput.pageBytes]
  have hpaged := pageLoop_ok hbytes hloop
  rw [PageInput.later_eq] at hpaged
  obtain ⟨rest, hsplit, hmore⟩ := hpaged.first
  rw [List.nil_append] at hsplit
  have hsome : (if more then found.getLast?.map fun last =>
      delegationCursorPrefix input.storeId input.query ++ input.key last else none).isSome =
        more := by
    cases more with
    | false => rfl
    | true =>
      have hlast : found.getLast?.isSome = true :=
        List.getLast?_isSome.2 (hpaged.progress rfl)
      simpa using hlast
  refine ⟨⟨⟨rest, hsplit, ?_⟩, fun hyes => ?_⟩, ?_, hpaged.bytes, fun cursor hcursor => ?_⟩
  · exact (iff_of_eq (congrArg (· = true) hsome)).trans hmore
  · exact hpaged.progress (hsome ▸ hyes)
  · simpa using hpaged.records
  · cases more with
    | false => cases hcursor
    | true =>
      obtain ⟨last, hlast, rfl⟩ := Option.map_eq_some_iff.1 hcursor
      exact ⟨last, hlast, rfl⟩

/-- **A page is refused only for a row that is too large.** -/
theorem pageDelegationRows_error {rows : List α} {cursor after : Option JsString}
    {failure : Failure} (accepted : input.Accepted) (keyed : input.Keyed rows)
    (issued : Issued input cursor after)
    (h : pageDelegationRows input rows cursor = .error failure) :
    ∃ row ∈ rows, input.Oversized row := by
  unfold pageDelegationRows at h
  rw [issued.parsed, ok_bind] at h
  have hbytes : input.envelopeBytes + 512 = input.pageBytes [] := by simp [PageInput.pageBytes]
  have hsame : ∀ row, row ∈ input.sorted rows ↔ row ∈ rows := fun row => by
    rw [PageInput.sorted_eq]
    exact mem_ordered
  cases hloop : pageLoop input after (input.sorted rows) [] (input.envelopeBytes + 512) with
  | error refusal =>
    obtain ⟨row, hrow, hlarge⟩ := pageLoop_error accepted
      (fun row hrow => keyed.captured row ((hsame row).1 hrow)) hbytes hloop
    exact ⟨row, (hsame row).1 hrow, hlarge⟩
  | ok found =>
    rw [hloop] at h
    cases h

/-- The pages of a reader that follows the cursors, from its `i`-th read on, and
whether it has reached the end.  The rows are those at the time of each read. -/
inductive Follows (input : PageInput α) (rows : Nat → List α) :
    Nat → Option JsString → List (DelegationPage α) → Bool → Prop
  | stop (i : Nat) (cursor : Option JsString) : Follows input rows i cursor [] false
  | last {i : Nat} {cursor : Option JsString} {page : DelegationPage α}
      (read : pageDelegationRows input (rows i) cursor = .ok page) (done : page.cursor = none) :
      Follows input rows i cursor [page] true
  | next {i : Nat} {cursor : Option JsString} {page : DelegationPage α} {next : JsString}
      {pages : List (DelegationPage α)} {done : Bool}
      (read : pageDelegationRows input (rows i) cursor = .ok page) (more : page.cursor = some next)
      (rest : Follows input rows (i + 1) (some next) pages done) :
      Follows input rows i cursor (page :: pages) done

/-- The rows of pages. -/
def itemsOf (pages : List (DelegationPage α)) : List α := (pages.map DelegationPage.items).flatten

variable {rows : Nat → List α} {i : Nat} {cursor after : Option JsString}
  {pages : List (DelegationPage α)} {done : Bool}

/-- The cursor of a page names its last row. -/
theorem Answers.issued {table : List α} {page : DelegationPage α} {next : JsString}
    (keyed : input.Keyed table) (h : Answers input table after page)
    (hnext : page.cursor = some next) :
    ∃ last, page.items.getLast? = some last ∧ Issued input (some next) (some (input.key last)) := by
  obtain ⟨last, hlast, rfl⟩ := h.cursor next hnext
  have hmem := (h.first.behind last (List.mem_of_getLast? hlast)).1
  obtain ⟨hnamed, hlength⟩ := keyed.named last hmem
  exact ⟨last, hlast, .at_ _ hnamed hlength⟩

/-- The pages of a reader are pages of the rows in their order. -/
theorem Follows.reads (keyed : ∀ i, input.Keyed (rows i)) (issued : Issued input cursor after)
    (h : Follows input rows i cursor pages done) :
    Reads input.rank rows i (after.map Text.rank) (pages.map DelegationPage.items) done := by
  induction h generalizing after with
  | stop i cursor => exact .stop i _
  | last read hdone =>
    have hpage := (pageDelegationRows_ok issued read).first
    rw [hdone] at hpage
    exact .last hpage
  | next read hmore _ ih =>
    have hanswers := pageDelegationRows_ok issued read
    have hpage := hanswers.first
    rw [hmore] at hpage
    obtain ⟨last, hlast, hissued⟩ := hanswers.issued (keyed _) hmore
    exact .next hpage hlast (ih hissued)

/-- Every page of a reader is within the bounds. -/
theorem Follows.bounded (keyed : ∀ i, input.Keyed (rows i)) (issued : Issued input cursor after)
    (h : Follows input rows i cursor pages done) : ∀ page ∈ pages,
      page.items.length ≤ input.records ∧
        (page.items = [] ∨ input.pageBytes page.items ≤ input.limits.maxPageBytes) := by
  induction h generalizing after with
  | stop _ cursor => simp
  | last read _ =>
    have hanswers := pageDelegationRows_ok issued read
    intro page hpage
    rw [List.mem_singleton.1 hpage]
    exact ⟨hanswers.records, hanswers.bytes⟩
  | next read hmore _ ih =>
    have hanswers := pageDelegationRows_ok issued read
    obtain ⟨last, -, hissued⟩ := hanswers.issued (keyed _) hmore
    intro page hpage
    rcases List.mem_cons.1 hpage with hhere | hlater
    · rw [hhere]
      exact ⟨hanswers.records, hanswers.bytes⟩
    · exact ih hissued page hlater

/-- **Following the cursors ends** when no row is too large. -/
theorem exists_follows {table : List α} (accepted : input.Accepted) (keyed : input.Keyed table)
    (small : ∀ row ∈ table, ¬input.Oversized row) (i : Nat) (issued : Issued input cursor after) :
    ∃ pages, Follows input (fun _ => table) i cursor pages true := by
  induction hsize : (behind input.rank table (after.map Text.rank)).length using
    Nat.strong_induction_on generalizing i cursor after with
  | _ size ih =>
    cases hread : pageDelegationRows input table cursor with
    | error failure =>
      obtain ⟨row, hrow, hlarge⟩ := pageDelegationRows_error accepted keyed issued hread
      exact absurd hlarge (small row hrow)
    | ok page =>
      have hanswers := pageDelegationRows_ok issued hread
      cases hcursor : page.cursor with
      | none => exact ⟨[page], .last hread hcursor⟩
      | some next =>
        have hpage := hanswers.first
        rw [hcursor] at hpage
        obtain ⟨last, hlast, hissued⟩ := hanswers.issued keyed hcursor
        obtain ⟨pages, hpages⟩ := ih _ (hsize ▸ hpage.fewer keyed.ranks hlast) (i + 1)
          hissued rfl
        exact ⟨page :: pages, .next hread hcursor hpages⟩

/-! ## The bytes of a page -/

/-- A page as a reader gets it. -/
def PageInput.pageJson (input : PageInput α) (page : DelegationPage α) : Json :=
  .obj ([(js "items", .arr (page.items.map input.data))] ++ optional "cursor" page.cursor textJson)

omit [Platform] in
theorem itemsBytes_rows (items : List α) :
    Json.itemsBytes (items.map input.data) + items.length = (items.map input.rowBytes).sum := by
  induction items with
  | nil => rfl
  | cons row rest ih =>
    simp only [List.map_cons, Json.itemsBytes, List.length_cons, List.sum_cons,
      PageInput.rowBytes]
    omega

omit [Platform] in
/-- **The JSON of a page fits**, with its envelope, what was counted for it: the part
that is kept for the page holds its names and its cursor. -/
theorem page_bytes {page : DelegationPage α}
    (hcursor : ∀ cursor ∈ page.cursor, Json.escapeBytes cursor ≤ 480) :
    Json.jsonBytes (input.pageJson page) + input.envelopeBytes ≤ input.pageBytes page.items := by
  have hitems : Json.escapeBytes (js "items") = 5 := by decide
  have hname : Json.escapeBytes (js "cursor") = 6 := by decide
  have hrows : Json.itemsBytes (page.items.map input.data) + page.items.length =
      (page.items.map input.rowBytes).sum := itemsBytes_rows page.items
  unfold PageInput.pageJson PageInput.pageBytes
  cases hpage : page.cursor with
  | none =>
    simp only [optional, List.append_nil, Json.jsonBytes, Json.fieldsBytes, Json.quoteBytes,
      hitems, List.length_cons, List.length_nil, List.length_map]
    omega
  | some cursor =>
    have hsmall := hcursor cursor hpage
    simp only [optional, textJson, List.cons_append, List.nil_append, Json.jsonBytes,
      Json.fieldsBytes, Json.quoteBytes, hitems, hname, List.length_cons, List.length_nil,
      List.length_map]
    omega

/-! ## Every reader -/

/-- The key of a row that is read and a key at every read: each is met once. -/
theorem Follows.once (keyed : ∀ i, input.Keyed (rows i))
    (h : Follows input rows 0 none pages done) {key : JsString}
    (hpresent : ∀ i < pages.length, ∃ row ∈ rows i, input.key row = key)
    (hpassed : done = true ∨ ∃ row ∈ itemsOf pages, Json.textLt (input.key row) key = false) :
    (itemsOf pages).countP (fun row => decide (input.key row = key)) = 1 := by
  have hreads := h.reads keyed .start
  have hdistinct : ∀ i, ((rows i).map input.rank).Nodup := fun i => (keyed i).ranks
  have hascending := hreads.ascending hdistinct
  obtain ⟨row, hrow, hkey⟩ := hreads.complete hdistinct (k := Text.rank key)
    (fun position hposition => by cases hposition)
    (fun j _ hj => by
      rw [List.length_map, Nat.zero_add] at hj
      obtain ⟨row, hrow, hkey⟩ := hpresent j hj
      exact ⟨row, hrow, by rw [PageInput.rank, hkey]⟩)
    (hpassed.imp_right fun hread => by
      obtain ⟨row, hrow, hlater⟩ := hread
      refine ⟨row, hrow, ?_⟩
      rw [Bool.eq_false_iff, ne_eq, textLt_iff, not_lt] at hlater
      exact hlater)
  have hnodup : ((itemsOf pages).map input.rank).Nodup :=
    List.pairwise_map.2 (hascending.imp fun hlt => hlt.ne)
  have hcount : (itemsOf pages).countP (fun row => decide (input.key row = key)) =
      ((itemsOf pages).map input.rank).count (Text.rank key) := by
    rw [List.count, List.countP_map]
    refine List.countP_congr fun row _ => ?_
    simp only [Function.comp_apply, decide_eq_true_eq, beq_iff_eq, PageInput.rank]
    exact ⟨fun hsame => by rw [hsame], fun hsame => rank_inj hsame⟩
  rw [hcount]
  exact List.count_eq_one_of_mem hnodup (List.mem_map.2 ⟨row, hrow, hkey⟩)

/-- **Keyset paging is complete and bounded.**  Following the cursors ends with every
row, in the order of the keys, when no row is too large.  Whatever happens to the rows
between two reads, the keys ascend, each page is within its bounds and a key that is
there all the time is met once.  Only a row that is too large is refused, and so is a
cursor of another store or query. -/
theorem keyset_paging (input : PageInput α) (accepted : input.Accepted) :
    (∀ table, input.Keyed table → (∀ row ∈ table, ¬input.Oversized row) →
      ∃ pages, Follows input (fun _ => table) 0 none pages true ∧
        itemsOf pages = input.sorted table) ∧
    (∀ (rows : Nat → List α) (pages : List (DelegationPage α)) (done : Bool),
      (∀ i, input.Keyed (rows i)) → Follows input rows 0 none pages done →
      (itemsOf pages).Pairwise (fun a b => Json.textLt (input.key a) (input.key b) = true) ∧
      (∀ page ∈ pages, page.items.length ≤ input.records ∧
        (page.items = [] ∨ input.pageBytes page.items ≤ input.limits.maxPageBytes)) ∧
      ∀ key, (∀ i < pages.length, ∃ row ∈ rows i, input.key row = key) →
        (done = true ∨ ∃ row ∈ itemsOf pages, Json.textLt (input.key row) key = false) →
        (itemsOf pages).countP (fun row => decide (input.key row = key)) = 1) ∧
    (∀ (page : DelegationPage α),
      (∀ cursor ∈ page.cursor, Json.escapeBytes cursor ≤ 480) →
      Json.jsonBytes (input.pageJson page) + input.envelopeBytes ≤ input.pageBytes page.items) ∧
    (∀ (table : List α) (cursor after : Option JsString) (failure : Failure),
      input.Keyed table → Issued input cursor after →
      pageDelegationRows input table cursor = .error failure →
      ∃ row ∈ table, input.Oversized row) ∧
    (∀ (table : List α) (other key : JsString) (asked : Json), isUuid other = true →
      (other ≠ input.storeId ∨ (delegationInputDigest asked).take 16 ≠
        (delegationInputDigest input.query).take 16) →
      pageDelegationRows input table (some (delegationCursorPrefix other asked ++ key)) =
        .error (.operation .staleRevision
          (js "The cursor belongs to a different store query."))) := by
  refine ⟨fun table keyed small => ?_, fun rows pages done keyed follows => ⟨?_, ?_, ?_⟩,
    fun page => page_bytes, fun table cursor after failure keyed issued hread =>
      pageDelegationRows_error accepted keyed issued hread,
    fun table other key asked huuid hdiffers => ?_⟩
  · obtain ⟨pages, hpages⟩ := exists_follows accepted keyed small 0 .start
    refine ⟨pages, hpages, ?_⟩
    have hall := (hpages.reads (fun _ => keyed) .start).all keyed.ranks
    rw [PageInput.sorted_eq]
    exact hall.trans (behind_none table)
  · have hascending := (follows.reads keyed .start).ascending fun i => (keyed i).ranks
    exact hascending.imp fun hlt => (textLt_iff _ _).2 hlt
  · exact follows.bounded keyed .start
  · exact fun key => follows.once keyed
  · have hlength : other.length = input.storeId.length := by
      have hother := length_of_isUuid huuid
      have hown := length_of_isUuid accepted.storeId
      rw [hother, hown]
    unfold pageDelegationRows
    rw [parse_other hlength hdiffers]
    rfl

end Reading

end Rows

namespace PageSample

/-- The hash of the runtime. -/
local instance runtimePlatform : Platform := hashPlatform

/-- Rows that are their own keys, one on a page. -/
def input : PageInput JsString :=
  { storeId := js "00000000-0000-4000-8000-000000000001"
    query := .obj [(js "kind", wordJson "tasks")]
    key := id
    data := textJson
    limits := {}
    limit := some 1
    envelopeBytes := 0 }

/-- The same without room for a row. -/
def noRows : PageInput JsString := { input with limit := some 0 }

theorem accepted : input.Accepted := by
  refine ⟨by decide, by constructor <;> decide, fun limit hlimit => ?_⟩
  cases hlimit
  exact Nat.le_refl 1

theorem small {row : JsString} (h : row.length ≤ 1) : ¬input.Oversized row := by
  have hbytes := Json.escapeBytes_le_length row
  have hmax : input.limits.maxPageBytes = 65536 := rfl
  have hnone : input.envelopeBytes = 0 := rfl
  have hrow : input.rowBytes row = 2 + Json.escapeBytes row + 1 := rfl
  simp only [PageInput.Oversized, PageInput.pageBytes, List.map_cons, List.map_nil, List.sum_cons,
    List.sum_nil, hmax, hnone, hrow]
  omega

/-- The first page of an empty key and another one ends with the empty key. -/
theorem first_key {page : DelegationPage JsString} {last : JsString}
    (h : Answers input [[], js "a"] none page) (hlast : page.items.getLast? = some last) :
    last = [] := by
  obtain ⟨rest, hsplit, -⟩ := h.first.first
  have hone : page.items.length ≤ 1 := h.records
  obtain ⟨init, hinit⟩ := List.getLast?_eq_some_iff.1 hlast
  have hnil : init = [] := by
    rw [hinit, List.length_append, List.length_singleton] at hone
    exact List.eq_nil_of_length_eq_zero (by omega)
  rw [hinit, hnil, List.nil_append] at hsplit
  have hdistinct : ([[], js "a"].map input.rank).Nodup := by decide
  have hascending := behind_ascending hdistinct none
  have hempty : [] ∈ behind input.rank [[], js "a"] none :=
    mem_behind.2 ⟨by simp, fun position hposition => by cases hposition⟩
  rw [Option.map_none] at hsplit
  rw [hsplit] at hascending hempty
  rcases List.mem_cons.1 hempty with hsame | hlater
  · exact hsame.symm
  · have hlt := (List.pairwise_append.1 hascending).2.2 last (List.mem_singleton_self last) []
      hlater
    exact absurd hlt (List.not_lt_nil _)

/-- It is not the last page. -/
theorem first_more {page : DelegationPage JsString}
    (h : Answers input [[], js "a"] none page) : page.cursor ≠ none := by
  intro hnone
  obtain ⟨rest, hsplit, hrest⟩ := h.first.first
  have htwo : (behind input.rank [[], js "a"] none).length = 2 := by
    rw [behind_none, (ordered_perm _).length_eq]
    rfl
  have hone : page.items.length ≤ 1 := h.records
  have hnil : rest = [] := by
    rw [hnone] at hrest
    by_contra hne
    exact Bool.noConfusion (hrest.2 hne)
  rw [Option.map_none, hnil, List.append_nil] at hsplit
  rw [hsplit] at htwo
  omega

end PageSample

section Sample

/-- The hash of the runtime. -/
local instance samplePlatform : Platform := hashPlatform

/-- The theorem at two rows. -/
theorem keyset_paging_two : ∃ pages,
    Follows PageSample.input (fun _ => [js "b", js "a"]) 0 none pages true ∧
      itemsOf pages = PageSample.input.sorted [js "b", js "a"] := by
  refine (keyset_paging PageSample.input PageSample.accepted).1 [js "b", js "a"]
    ⟨by decide, ?_, ?_⟩ ?_
  · intro row hrow
    rcases List.mem_pair.1 hrow with hb | ha
    · rw [hb]; decide
    · rw [ha]; decide
  · exact fun row _ => rfl
  · intro row hrow
    rcases List.mem_pair.1 hrow with hb | ha
    · rw [hb]; exact PageSample.small (by decide)
    · rw [ha]; exact PageSample.small (by decide)

/-- The cursor of an empty key is refused: a reader of a row whose key is empty and of
another row, one on a page, does not get past the first one. -/
theorem empty_key_stuck :
    ¬∀ (input : PageInput JsString) (table : List JsString), input.Accepted →
      (table.map input.key).Nodup → (∀ row ∈ table, (input.key row).length ≤ 128) →
      (∀ row ∈ table, shallow 16 (input.data row) = true) →
      (∀ row ∈ table, ¬input.Oversized row) →
      ∃ pages, Follows input (fun _ => table) 0 none pages true := by
  intro hclaim
  have hshort : ∀ row ∈ ([[], js "a"] : List JsString), row.length ≤ 1 := by decide
  obtain ⟨pages, hpages⟩ := hclaim PageSample.input [[], js "a"] PageSample.accepted (by decide)
    (fun row hrow => (hshort row hrow).trans (by decide)) (fun row _ => rfl)
    (fun row hrow => PageSample.small (hshort row hrow))
  have hstuck : ∀ {page next}, pageDelegationRows PageSample.input [[], js "a"] none = .ok page →
      page.cursor = some next →
      next = delegationCursorPrefix PageSample.input.storeId PageSample.input.query ++ [] := by
    intro page next hread hnext
    have hanswers := pageDelegationRows_ok .start hread
    obtain ⟨last, hlast, rfl⟩ := hanswers.cursor next hnext
    exact congrArg _ (PageSample.first_key hanswers hlast)
  cases hpages with
  | last read done => exact PageSample.first_more (pageDelegationRows_ok .start read) done
  | next read more rest =>
    rw [hstuck read more] at rest
    have hrefused := parse_empty PageSample.input.storeId PageSample.input.query
    cases rest with
    | last read' done | next read' more' rest' =>
      unfold pageDelegationRows at read'
      rw [hrefused] at read'
      cases read'

/-- No row fits a page of no rows. -/
theorem no_rows_refused :
    ¬∀ (input : PageInput JsString) (table : List JsString) (failure : Failure),
      isUuid input.storeId = true → input.limits.Valid → input.Keyed table →
      pageDelegationRows input table none = .error failure →
      ∃ row ∈ table, input.Oversized row := by
  intro hclaim
  have hbytes : delegationDataBytes (textJson (js "a")) =
      .ok (Json.jsonBytes (textJson (js "a"))) := delegationDataBytes_eq rfl (by decide)
  have hsorted : PageSample.noRows.sorted [js "a"] = [js "a"] := List.mergeSort_singleton _
  have hloop : pageLoop PageSample.noRows none [js "a"] [] 512 =
      .error (.operation .capacityExceeded
        (js "A complete record exceeds this read page budget.")) := by
    change (delegationDataBytes (textJson (js "a")) >>= fun size => _) = _
    rw [hbytes]
    rfl
  have hread : pageDelegationRows PageSample.noRows [js "a"] none =
      .error (.operation .capacityExceeded
        (js "A complete record exceeds this read page budget.")) := by
    change (pageLoop PageSample.noRows none (PageSample.noRows.sorted [js "a"]) [] 512 >>=
      fun found => _) = _
    rw [hsorted, hloop]
    rfl
  obtain ⟨row, hrow, hlarge⟩ := hclaim PageSample.noRows [js "a"] _ PageSample.accepted.storeId
    PageSample.accepted.limits
    ⟨by decide, fun row hrow => by rw [List.mem_singleton.1 hrow]; decide, fun row _ => rfl⟩ hread
  rw [List.mem_singleton.1 hrow] at hlarge
  exact PageSample.small (by decide : (js "a").length ≤ 1) hlarge

/-- **A page needs names and room**: the cursor of an empty key is refused, and so is
every row on a page of no rows. -/
theorem empty_key_refused :
    (¬∀ (input : PageInput JsString) (table : List JsString), input.Accepted →
      (table.map input.key).Nodup → (∀ row ∈ table, (input.key row).length ≤ 128) →
      (∀ row ∈ table, shallow 16 (input.data row) = true) →
      (∀ row ∈ table, ¬input.Oversized row) →
      ∃ pages, Follows input (fun _ => table) 0 none pages true) ∧
    ¬∀ (input : PageInput JsString) (table : List JsString) (failure : Failure),
      isUuid input.storeId = true → input.limits.Valid → input.Keyed table →
      pageDelegationRows input table none = .error failure →
      ∃ row ∈ table, input.Oversized row :=
  ⟨empty_key_stuck, no_rows_refused⟩

end Sample

end AgentSdk.Delegation
