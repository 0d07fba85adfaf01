import AgentSdk.Delegation.Pages
import AgentSdk.Delegation.Reachable
import AgentSdk.Lib.Joined
import AgentSdk.Lib.Radix

/-!
# Observation subscriptions

A subscriber reads the observations of a run page by page behind the last index it
has yielded, while commits go on, and yields a gap where indexes are not retained.

## Main results

* `page_leads` — what a page yields leads on from the position of its cursor.
* `observation_subscription` — every index is yielded or passed over by a gap, once.
* `observation_resumes` — the cursor of a yield, and no other text, leads back to it.
-/

namespace AgentSdk.Delegation

open AgentSdk.Text AgentSdk.Outcome AgentSdk.Keyset

/-! ## The order of padded numbers -/

/-- Digits of one length are in the order of their numbers, behind what was read before. -/
theorem foldl_digits_lt_iff {s t : JsString} (hlength : s.length = t.length)
    (hs : ∀ u ∈ s, isRadixDigit 10 u = true) (ht : ∀ u ∈ t, isRadixDigit 10 u = true) (m n : Nat) :
    s.foldl (fun n u => n * 10 + (u.toNat - 48)) m < t.foldl (fun n u => n * 10 + (u.toNat - 48)) n ↔
      m < n ∨ m = n ∧ Text.rank s < Text.rank t := by
  induction s generalizing t m n with
  | nil =>
    rw [List.length_eq_zero_iff.1 hlength.symm]
    simp
  | cons u s ih =>
    cases t with
    | nil => cases hlength
    | cons v t =>
      have hu := hs u (by simp)
      have hv := ht v (by simp)
      simp only [isRadixDigit, Bool.and_eq_true, decide_eq_true_eq] at hu hv
      have hlt : m * 10 + (u.toNat - 48) < n * 10 + (v.toNat - 48) ↔
          m < n ∨ m = n ∧ u.toNat < v.toNat := by omega
      have heq : m * 10 + (u.toNat - 48) = n * 10 + (v.toNat - 48) ↔
          m = n ∧ u.toNat = v.toNat := by omega
      rw [List.foldl_cons, List.foldl_cons, ih (Nat.succ.inj hlength)
        (fun w hw => hs w (by simp [hw])) (fun w hw => ht w (by simp [hw])), hlt, heq]
      simp only [Text.rank, List.map_cons, List.cons_lt_cons_iff]
      tauto

theorem padded_lt_iff {a b : Nat} (ha : a < 10 ^ 16) (hb : b < 10 ^ 16) :
    Text.rank (padStart 16 (natDecimal a)) < Text.rank (padStart 16 (natDecimal b)) ↔ a < b := by
  have hdigits : ∀ n, ∀ u ∈ padStart 16 (natDecimal n), isRadixDigit 10 u = true := fun n =>
    isRadixDigit_of_mem_padStart (by omega) le_rfl fun u hu =>
      isRadixDigit_of_mem_radix (n := n) (by omega) le_rfl hu
  have hvalue : ∀ n, readRadix 10 (padStart 16 (natDecimal n)) = n := fun n => by
    rw [readRadix_padStart, ← radix_ten, readRadix_radix (by omega) le_rfl]
  have hlength : ∀ {n}, n < 10 ^ 16 → (padStart 16 (natDecimal n)).length = 16 := fun hn =>
    length_padStart (length_natDecimal_le (by omega) hn)
  have h := foldl_digits_lt_iff ((hlength ha).trans (hlength hb).symm) (hdigits a) (hdigits b) 0 0
  have ha := hvalue a
  have hb := hvalue b
  unfold readRadix at ha hb
  simpa [ha, hb] using h.symm

/-! ## What a page yields -/

/-- What a subscriber yields, each with the index of its cursor. -/
inductive Observed
  | observation (value : TaskObservation)
  | gap (index : Nat)

def Observed.index : Observed → Nat
  | .observation value => value.index
  | .gap index => index

/-- The index behind which a subscriber goes on. -/
def position (index : Nat) (yields : List Observed) : Nat :=
  yields.foldl (fun _ y => y.index) index

/-- The yields for the observations of a page. -/
def observed (index : Nat) : List TaskObservation → List Observed
  | [] => []
  | o :: rest =>
    (if index + 1 < o.index then [.gap (o.index - 1)] else []) ++
      .observation o :: observed o.index rest

/-- Yields that lead on from an index: an observation is of the next one, and a gap
passes over at least one. -/
def Leads (index : Nat) : List Observed → Prop
  | [] => True
  | y :: rest =>
    index < y.index ∧ (∀ o, y = .observation o → o.index = index + 1) ∧ Leads y.index rest

theorem Leads.append {index : Nat} {ys zs : List Observed} (h : Leads index ys)
    (h' : Leads (position index ys) zs) : Leads index (ys ++ zs) := by
  induction ys generalizing index with
  | nil => exact h'
  | cons y ys ih => exact ⟨h.1, h.2.1, ih h.2.2 h'⟩

theorem Leads.le_position {index : Nat} {ys : List Observed} (h : Leads index ys) :
    index ≤ position index ys ∧ ∀ y ∈ ys, y.index ≤ position index ys := by
  induction ys generalizing index with
  | nil => exact ⟨le_rfl, by simp⟩
  | cons y ys ih =>
    obtain ⟨hle, hall⟩ := ih h.2.2
    exact ⟨h.1.le.trans hle, List.forall_mem_cons.2 ⟨hle, hall⟩⟩

theorem mem_observed {index : Nat} {items : List TaskObservation} {o : TaskObservation} :
    .observation o ∈ observed index items ↔ o ∈ items := by
  induction items generalizing index with
  | nil => simp [observed]
  | cons head rest ih =>
    simp only [observed, List.mem_append, List.mem_cons, Observed.observation.injEq, ih]
    split <;> simp

/-- **What a page yields** leads on from the position of its cursor to its last index. -/
theorem page_leads {index : Nat} {items : List TaskObservation}
    (hbehind : ∀ o ∈ items, index < o.index) (h : items.Pairwise fun a b => a.index < b.index) :
    Leads index (observed index items) ∧ (items ≠ [] → index < position index (observed index items)) ∧
      ∀ m, index < m → (∀ o ∈ items, o.index < m) → position index (observed index items) < m := by
  induction items generalizing index with
  | nil => exact ⟨trivial, fun hne => absurd rfl hne, fun m hm _ => hm⟩
  | cons o rest ih =>
    obtain ⟨hfirst, hrest⟩ := List.pairwise_cons.1 h
    obtain ⟨hleads, hmoves, hbound⟩ := ih hfirst hrest
    have hindex := hbehind o (by simp)
    have hposition : position index (observed index (o :: rest)) =
        position o.index (observed o.index rest) := by
      simp [position, observed, Observed.index]
    have hle : o.index ≤ position o.index (observed o.index rest) := by
      cases rest with
      | nil => exact le_rfl
      | cons => exact (hmoves (by simp)).le
    rw [hposition]
    refine ⟨?_, fun _ => hindex.trans_le hle, fun m _ hm => ?_⟩
    · unfold observed
      split
      · refine ⟨?_, (fun _ hy => by cases hy), ?_, fun _ hy => ?_, hleads⟩
        · show index < o.index - 1
          omega
        · show o.index - 1 < o.index
          omega
        · cases hy
          show _ = o.index - 1 + 1
          omega
      · refine ⟨hindex, fun _ hy => ?_, hleads⟩
        cases hy
        omega
    · exact hbound m (hm o (by simp)) fun o' ho' => hm o' (by simp [ho'])

variable {options : StoreOptions} {s : Store}

/-! ## Cursors of yields -/

/-- The run of a task. -/
def Store.run? (s : Store) (taskId runId : JsString) : Option RunRecord :=
  (s.runs.get runId).filter fun run => decide (run.taskId = taskId)

def Store.runObservations (s : Store) (runId : JsString) : List TaskObservation :=
  s.observations.rows.filter fun o => decide (o.runId = runId)

/-- `/^(?:0|[1-9][0-9]*)$/u`. -/
def isIndex (digits : JsString) : Bool :=
  digits == js "0" || (digits != [] && digits.head? != some 48 && digits.all isDigit)

def observationCursor (options : StoreOptions) (taskId runId : JsString) (index : Nat) : JsString :=
  [58].intercalate [js "observation", options.storeId, taskId, runId, natDecimal index]

/-- The run of a cursor, and the index behind which a subscriber goes on. -/
def Store.observeFromCursor (options : StoreOptions) (s : Store) (taskId after : JsString) :
    Result (JsString × Nat) :=
  match after.splitOn 58 with
  | [kind, storeId, task, runId, digits] => do
    failWhen (kind ≠ js "observation" ∨ storeId ≠ options.storeId ∨ task ≠ taskId ∨
      isUuid runId = false ∨ isIndex digits = false) .staleRevision
      "The observation cursor belongs to a different task or store."
    let run ← (s.run? taskId runId).elim (.error (.operation .requestUnavailable
      (js "The managed run is unavailable."))) .ok
    failWhen (MAX_SAFE_INTEGER < readRadix 10 digits ∨
      run.observationIndex < readRadix 10 digits) .staleRevision
      "The observation cursor is beyond the retained run."
    pure (runId, readRadix 10 digits)
  | _ => .error (.operation .staleRevision
      (js "The observation cursor belongs to a different task or store."))

theorem isIndex_natDecimal (n : Nat) : isIndex (natDecimal n) = true := by
  rcases Nat.eq_zero_or_pos n with rfl | hpos
  · decide
  · have hdigits := List.all_eq_true.2 fun u => isDigit_of_mem_natDecimal (n := n) (u := u)
    simp [isIndex, natDecimal_ne_nil, head?_natDecimal hpos.ne', hdigits]

theorem natDecimal_of_isIndex {digits : JsString} (h : isIndex digits = true) :
    natDecimal (readRadix 10 digits) = digits := by
  simp only [isIndex, Bool.or_eq_true, Bool.and_eq_true, beq_iff_eq, bne_iff_ne] at h
  rcases h with rfl | ⟨⟨hne, hhead⟩, hdigits⟩
  · decide
  · exact natDecimal_readRadix hne (List.all_eq_true.1 hdigits) hhead

/-- A unit that no class takes is in no text of the classes. -/
theorem not_mem_of_matchesUnits {u : UInt16} {classes : List (UInt16 → Bool)} {s : JsString}
    (h : matchesUnits classes s = true) (hno : ∀ p ∈ classes, p u = false) : u ∉ s := by
  induction classes, s using matchesUnits.induct with
  | case1 => simp
  | case2 p classes v s ih =>
    simp only [matchesUnits, Bool.and_eq_true] at h
    rw [List.forall_mem_cons] at hno
    rintro (_ | ⟨_, hmem⟩)
    · simp [hno.1] at h
    · exact ih h.2 hno.2 hmem
  | case3 => simp [matchesUnits] at h

theorem colon_not_mem {id : JsString} (h : isUuid id = true) : (58 : UInt16) ∉ id := by
  simp only [isUuid, Bool.or_eq_true, beq_iff_eq] at h
  rcases h with (hmatches | rfl) | rfl
  · refine not_mem_of_matchesUnits hmatches ?_
    simp only [uuidPattern, List.forall_mem_append, List.forall_mem_replicate,
      List.forall_mem_singleton]
    decide
  · decide
  · decide

theorem observeFromCursor_ok {taskId after : JsString} {found : JsString × Nat}
    (h : s.observeFromCursor options taskId after = .ok found) :
    after = observationCursor options taskId found.1 found.2 ∧
      ∃ run, s.run? taskId found.1 = some run ∧ found.2 ≤ run.observationIndex := by
  unfold Store.observeFromCursor at h
  split at h
  · rename_i kind storeId task runId digits hparts
    obtain ⟨hnames, hbehind⟩ := failIf_bind_eq_ok.1 h
    simp only [not_or, ne_eq, not_not, Bool.not_eq_false] at hnames
    obtain ⟨rfl, rfl, rfl, -, hdigits⟩ := hnames
    cases hrun : s.run? task runId with
    | none => simp [hrun] at hbehind
    | some run =>
      rw [hrun] at hbehind
      obtain ⟨hindex, heq⟩ := failIf_bind_eq_ok.1 hbehind
      cases heq
      refine ⟨?_, run, hrun, not_lt.1 (not_or.1 hindex).2⟩
      rw [observationCursor, natDecimal_of_isIndex hdigits, ← hparts, List.intercalate_splitOn]
  · cases h

theorem observeFromCursor_cursor {taskId runId : JsString} {run : RunRecord} {index : Nat}
    (htask : isUuid taskId = true) (hid : isUuid runId = true)
    (hrun : s.run? taskId runId = some run) (hindex : index ≤ run.observationIndex)
    (hsafe : index ≤ MAX_SAFE_INTEGER) :
    s.observeFromCursor options taskId (observationCursor options taskId runId index) =
      .ok (runId, index) := by
  have hcolon : (58 : UInt16) ∉ natDecimal index := fun hmem =>
    absurd (isDigit_of_mem_natDecimal hmem) (by decide)
  have hparts : (observationCursor options taskId runId index).splitOn 58 =
      [js "observation", options.storeId, taskId, runId, natDecimal index] :=
    List.splitOn_intercalate 58 (by
      simp only [List.forall_mem_cons, List.not_mem_nil, false_implies, implies_true, and_true]
      exact ⟨by decide, colon_not_mem options.storeId_uuid, colon_not_mem htask, colon_not_mem hid,
        hcolon⟩) (by simp)
  have hread : readRadix 10 (natDecimal index) = index := by
    rw [← radix_ten, readRadix_radix (by omega) le_rfl]
  simp only [Store.observeFromCursor, hparts, hread, hrun, hid, isIndex_natDecimal]
  simp [failWhen, failIf, not_lt.2 hindex, not_lt.2 hsafe]

/-! ## Numbers of observations -/

/-- Observations are counted from one, up to a safe integer. -/
structure Numbered (s : Store) : Prop where
  linked : Linked s
  ids : ∀ run ∈ s.runs.rows, isUuid run.taskId = true ∧ isUuid run.runId = true
  counted : ∀ run ∈ s.runs.rows, run.observationIndex ≤ MAX_SAFE_INTEGER
  first : ∀ o ∈ s.observations.rows, 1 ≤ o.index

theorem run?_eq_some {taskId runId : JsString} {run : RunRecord} :
    s.run? taskId runId = some run ↔
      run ∈ s.runs.rows ∧ run.runId = runId ∧ run.taskId = taskId := by
  simp only [Store.run?, Option.filter_eq_some_iff, Table.get_eq_some, decide_eq_true_eq, and_assoc]

theorem Numbered.mem_runObservations {taskId runId : JsString} {run : RunRecord} (hs : Numbered s)
    (hrun : s.run? taskId runId = some run) {o : TaskObservation}
    (ho : o ∈ s.runObservations runId) : 1 ≤ o.index ∧ o.index ≤ run.observationIndex := by
  obtain ⟨hmem, hid, -⟩ := run?_eq_some.1 hrun
  obtain ⟨hrow, hrunId⟩ := List.mem_filter.1 ho
  obtain ⟨owner, howner, hownerId, hle⟩ := hs.linked.observed o hrow
  rw [Store.run_eq howner hmem (hownerId.trans ((of_decide_eq_true hrunId).trans hid.symm))] at hle
  exact ⟨hs.first o hrow, hle⟩

variable [Platform] {command : StoreCommand} {e : Effect}

/-! ## Reading the observations of a run -/

/-- How the observations of a run are paged. -/
def observationPages (options : StoreOptions) (taskId runId : JsString) :
    PageInput TaskObservation :=
  { storeId := options.storeId
    query := .obj [(js "kind", wordJson "observations"), (js "taskId", textJson taskId),
      (js "runId", textJson runId)]
    key := fun o => padStart 16 (natDecimal o.index)
    data := Data.json
    limits := options.limits
    limit := none
    envelopeBytes := 0 }

structure ObservationPage where
  page : DelegationPage TaskObservation
  latestIndex : Nat
  gap : Bool

/-- `read` of the observations of a run. -/
def Store.readObservations (options : StoreOptions) (s : Store) (taskId runId : JsString)
    (cursor : Option JsString) : Result ObservationPage := do
  let run := s.run? taskId runId
  let page ← pageDelegationRows (observationPages options taskId runId)
    (if run.isSome then s.runObservations runId else []) cursor
  pure { page
         latestIndex := run.elim 0 RunRecord.observationIndex
         gap := run.any fun run => decide (0 < run.omittedObservations) }

/-! ## A subscriber -/

/-- One subscriber at one run. -/
structure Subscription where
  taskId : JsString
  runId : JsString
  start : Nat
  yields : List Observed

def Subscription.index (u : Subscription) : Nat := position u.start u.yields

/-- The key of the cursor of the next read. -/
def Subscription.after (u : Subscription) : Option JsString :=
  if u.index = 0 then none else some (padStart 16 (natDecimal u.index))

/-- The yields for a page, with the gap behind the last one. -/
def ObservationPage.told (read : ObservationPage) (index : Nat) : List Observed :=
  let yields := observed index read.page.items
  yields ++ if read.page.cursor = none ∧ position index yields < read.latestIndex then
    [.gap read.latestIndex] else []

def Subscription.read (options : StoreOptions) (s : Store) (u : Subscription) :
    Result Subscription := do
  let input := observationPages options u.taskId u.runId
  let read ← s.readObservations options u.taskId u.runId
    (u.after.map fun key => delegationCursorPrefix input.storeId input.query ++ key)
  pure { u with yields := u.yields ++ read.told u.index }

/-- What goes on: calls on the store, and a subscriber that comes to a run, from its
start or from a cursor, and reads. -/
inductive SubscriberEvent
  | call (call : StoreCall)
  | observe (taskId runId : JsString)
  | resume (taskId after : JsString)
  | read

def observeStep (options : StoreOptions) (state : Store × Option Subscription) :
    SubscriberEvent → Store × Option Subscription
  | .call call => (state.1.step options call, state.2)
  | .observe taskId runId =>
    (state.1, (state.1.run? taskId runId).map fun _ => ⟨taskId, runId, 0, []⟩)
  | .resume taskId after =>
    (state.1, (state.1.observeFromCursor options taskId after).toOption.map fun found =>
      ⟨taskId, found.1, found.2, []⟩)
  | .read => (state.1, state.2.map fun u => (u.read options state.1).toOption.getD u)

theorem Numbered.apply (hs : Numbered s) (h : Committed options s command e) :
    Numbered (s.apply e) := by
  have hrun : ∀ run ∈ e.run, (isUuid run.taskId = true ∧ isUuid run.runId = true) ∧
      run.observationIndex ≤ MAX_SAFE_INTEGER := fun run hnew => by
    have hschema := h.run run hnew
    simp only [RunRecord.schema, RunRecord.fieldsSchema, Bool.and_eq_true] at hschema
    have hcount : isCount run.observationIndex = true := by simp only [hschema]
    exact ⟨by simp only [hschema, and_self], of_decide_eq_true hcount⟩
  refine ⟨hs.linked.apply h.transition, fun run hmem => ?_, fun run hmem => ?_, fun o ho => ?_⟩
  · rcases Table.mem_putOption.1 hmem with hnew | ⟨hold, -⟩
    · exact (hrun run hnew).1
    · exact hs.ids run hold
  · rcases Table.mem_putOption.1 hmem with hnew | ⟨hold, -⟩
    · exact (hrun run hnew).2
    · exact hs.counted run hold
  · rcases Table.mem_putOption.1 ho with hnew | ⟨hold, -⟩
    · rcases h.transition.observation_cases hnew with ⟨_, -, -, hindex, -⟩ | ⟨old, hold, -, _, rfl⟩
      · omega
      · exact hs.first old hold
    · exact hs.first o hold

/-! ## What a subscriber was told -/

/-- What a subscriber was told: every index from the start to its position, once; the
rows that are retained among them, and nothing else. -/
structure Watched (s : Store) (u : Subscription) : Prop where
  run : ∃ run, s.run? u.taskId u.runId = some run ∧ u.index ≤ run.observationIndex
  leads : Leads u.start u.yields
  retained : ∀ o, .observation o ∈ u.yields →
    ∃ o' ∈ s.runObservations u.runId, o'.index = o.index ∧ (o' = o ∨ o'.kind = .omitted)
  seen : ∀ o ∈ s.runObservations u.runId, u.start < o.index → o.index ≤ u.index →
    ∃ o', .observation o' ∈ u.yields ∧ o'.index = o.index

/-- A commit loses nothing that a subscriber was told, and adds only behind it. -/
theorem Watched.apply {u : Subscription} (hs : Numbered s) (h : Watched s u)
    (ht : Transition options s command e) : Watched (s.apply e) u := by
  obtain ⟨run, hrun, hindex⟩ := h.run
  obtain ⟨hmem, hid, htask⟩ := run?_eq_some.1 hrun
  refine ⟨?_, h.leads, fun o ho => ?_, fun o ho hstart hle => ?_⟩
  · obtain ⟨new, hnew, hadvances⟩ := ht.exists_advanced hmem
    exact ⟨new, run?_eq_some.2 ⟨hnew, hadvances.runId.trans hid, hadvances.taskId.trans htask⟩,
      hindex.trans hadvances.observed⟩
  · obtain ⟨o', ho', hsame, hkind⟩ := h.retained o ho
    obtain ⟨hrow, hrunId⟩ := List.mem_filter.1 ho'
    by_cases hwritten : ∃ w ∈ e.observation, o'.key = w.key
    · obtain ⟨w, hw, hkey⟩ := hwritten
      obtain ⟨hrunId', hindex'⟩ := observationKey_inj hkey
      refine ⟨w, List.mem_filter.2 ⟨Table.mem_putOption.2 (Or.inl hw), hrunId' ▸ hrunId⟩,
        hindex'.symm.trans hsame, Or.inr ?_⟩
      rcases ht.observation_cases hw with ⟨r, hr, hrw, hnext, -⟩ | ⟨old, -, hold, _, rfl⟩
      · obtain ⟨owner, howner, hownerId, hbound⟩ := hs.linked.observed o' hrow
        rw [Store.run_eq howner hr (hownerId.trans (hrunId'.trans hrw))] at hbound
        omega
      · exact hold
    · simp only [not_exists, not_and] at hwritten
      exact ⟨o', List.mem_filter.2 ⟨Table.mem_putOption.2 (Or.inr ⟨hrow, hwritten⟩), hrunId⟩,
        hsame, hkind⟩
  · obtain ⟨hrow, hrunId⟩ := List.mem_filter.1 ho
    rcases Table.mem_putOption.1 hrow with hnew | ⟨hold, -⟩
    · rcases ht.observation_cases hnew with ⟨r, hr, hrw, hnext, -⟩ | ⟨old, hold, -, _, rfl⟩
      · rw [Store.run_eq hr hmem (hrw.symm.trans ((of_decide_eq_true hrunId).trans hid.symm))]
          at hnext
        omega
      · exact h.seen old (List.mem_filter.2 ⟨hold, hrunId⟩) hstart hle
    · exact h.seen o (List.mem_filter.2 ⟨hold, hrunId⟩) hstart hle

omit [Platform] in
/-- A subscriber is told more: rows that are retained, none of them left out. -/
theorem Watched.extended {u : Subscription} {run : RunRecord} {more : List Observed}
    (h : Watched s u) (hrun : s.run? u.taskId u.runId = some run) (hleads : Leads u.index more)
    (hle : position u.index more ≤ run.observationIndex)
    (hretained : ∀ o, .observation o ∈ more → o ∈ s.runObservations u.runId)
    (hseen : ∀ o ∈ s.runObservations u.runId, u.index < o.index →
      o.index ≤ position u.index more → .observation o ∈ more) :
    Watched s { u with yields := u.yields ++ more } := by
  have hindex : ({ u with yields := u.yields ++ more } : Subscription).index =
      position u.index more := List.foldl_append
  refine ⟨⟨run, hrun, hindex ▸ hle⟩, h.leads.append hleads, fun o ho => ?_, fun o ho hstart hto => ?_⟩
  · rcases List.mem_append.1 ho with hold | hnew
    · exact h.retained o hold
    · exact ⟨o, hretained o hnew, rfl, Or.inl rfl⟩
  · rcases Nat.lt_or_ge u.index o.index with hlt | hge
    · exact ⟨o, List.mem_append_right _ (hseen o ho hlt (hindex ▸ hto)), rfl⟩
    · obtain ⟨o', ho', hsame⟩ := h.seen o ho hstart hge
      exact ⟨o', List.mem_append_left _ ho', hsame⟩

/-- A page starts the rows behind the index in their order, and is all of them without a cursor. -/
theorem readObservations_ok {u : Subscription} {run : RunRecord} {read : ObservationPage}
    (hs : Numbered s) (hrun : s.run? u.taskId u.runId = some run)
    (hindex : u.index ≤ run.observationIndex)
    (h : s.readObservations options u.taskId u.runId (u.after.map fun key =>
      delegationCursorPrefix options.storeId (observationPages options u.taskId u.runId).query ++
        key) = .ok read) :
    read.latestIndex = run.observationIndex ∧
      ∃ rest, ((read.page.items ++ rest).Pairwise fun a b => a.index < b.index) ∧
        (∀ o, o ∈ read.page.items ++ rest ↔ o ∈ s.runObservations u.runId ∧ u.index < o.index) ∧
        (read.page.cursor = none → rest = []) ∧ (read.page.cursor ≠ none → read.page.items ≠ []) := by
  set pages := observationPages options u.taskId u.runId
  set rows := s.runObservations u.runId
  obtain ⟨page, hrows, heq⟩ := bind_eq_ok.1 h
  cases heq
  simp only [hrun, Option.isSome_some, if_true] at hrows
  have hbound : run.observationIndex < 10 ^ 16 :=
    (hs.counted run (run?_eq_some.1 hrun).1).trans_lt (by decide)
  have hcounted : ∀ o ∈ rows, 1 ≤ o.index ∧ o.index < 10 ^ 16 := fun o ho =>
    (hs.mem_runObservations hrun ho).imp_right fun hle => hle.trans_lt hbound
  have hrank : ∀ o ∈ rows, ∀ o' ∈ rows, pages.rank o < pages.rank o' ↔ o.index < o'.index :=
    fun o ho o' ho' => padded_lt_iff (hcounted o ho).2 (hcounted o' ho').2
  have hissued : Issued pages (u.after.map fun key =>
      delegationCursorPrefix options.storeId pages.query ++ key) u.after := by
    unfold Subscription.after
    split
    · exact .start
    · have hlength := length_padStart (length_natDecimal_le (k := 16) (by omega)
        (hindex.trans_lt hbound))
      exact .at_ _ (fun hnil => by simp [hnil] at hlength) (by omega)
  have hbehind : ∀ o, o ∈ behind pages.rank rows (u.after.map Text.rank) ↔
      o ∈ rows ∧ u.index < o.index := by
    intro o
    rw [mem_behind]
    refine and_congr_right fun ho => ?_
    unfold Subscription.after
    split
    · rename_i hzero
      simpa [hzero] using Nat.pos_of_ne_zero (Nat.one_le_iff_ne_zero.1 (hcounted o ho).1)
    · simp only [Option.map_some, Option.mem_some_iff, forall_eq']
      exact padded_lt_iff (hindex.trans_lt hbound) (hcounted o ho).2
  have hdistinct : (rows.map pages.rank).Nodup := by
    refine List.Nodup.map_on (fun o ho o' ho' heq => ?_) (s.observations.nodup_rows.filter _)
    have hlt := hrank o ho o' ho'
    have hgt := hrank o' ho' o ho
    rw [heq] at hlt hgt
    simp only [lt_irrefl, false_iff, not_lt] at hlt hgt
    obtain ⟨hrow, hrunId⟩ := List.mem_filter.1 ho
    obtain ⟨hrow', hrunId'⟩ := List.mem_filter.1 ho'
    refine Table.eq_of_key_eq hrow hrow' ?_
    rw [TaskObservation.key, TaskObservation.key, le_antisymm hgt hlt,
      (of_decide_eq_true hrunId).trans (of_decide_eq_true hrunId').symm]
  obtain ⟨⟨rest, hsplit, hmore⟩, hprogress⟩ := (pageDelegationRows_ok hissued hrows).first
  have hascending := behind_ascending hdistinct (u.after.map Text.rank)
  rw [hsplit] at hascending hbehind
  refine ⟨by simp [hrun], rest, hascending.imp_of_mem fun ha hb =>
    (hrank _ ((hbehind _).1 ha).1 _ ((hbehind _).1 hb).1).1, hbehind,
    fun (hnone : page.cursor = none) => ?_, fun hsome => ?_⟩
  · by_contra hne
    simpa [hnone] using hmore.2 hne
  · exact hprogress (Option.isSome_iff_ne_none.2 hsome)

/-- **A read** moves on, or ends at the last index of the run. -/
theorem Watched.read {u u' : Subscription} (hs : Numbered s) (h : Watched s u)
    (hread : u.read options s = .ok u') : Watched s u' ∧
      (u.index < u'.index ∨ ∀ run ∈ s.run? u.taskId u.runId, u'.index = run.observationIndex) := by
  obtain ⟨run, hrun, hindex⟩ := h.run
  obtain ⟨⟨page, latestIndex, gap⟩, hpage, heq⟩ := bind_eq_ok.1 hread
  cases heq
  obtain ⟨rfl, rest, hordered, hbehind, hrest, hprogress⟩ :=
    readObservations_ok hs hrun hindex hpage
  obtain ⟨hitems, -, hcross⟩ := List.pairwise_append.1 hordered
  have hmem : ∀ o ∈ page.items, o ∈ s.runObservations u.runId ∧ u.index < o.index := fun o ho =>
    (hbehind o).1 (List.mem_append_left _ ho)
  obtain ⟨hleads, hmoves, hlow⟩ := page_leads (fun o ho => (hmem o ho).2) hitems
  have hle : position u.index (observed u.index page.items) ≤ run.observationIndex :=
    Nat.lt_succ_iff.1 (hlow _ (by omega) fun o ho =>
      Nat.lt_succ_iff.2 (hs.mem_runObservations hrun (hmem o ho).1).2)
  have hcovers : ∀ o ∈ s.runObservations u.runId, u.index < o.index →
      .observation o ∈ observed u.index page.items ∨ o ∈ rest := fun o ho hlt =>
    (List.mem_append.1 ((hbehind o).2 ⟨ho, hlt⟩)).imp_left mem_observed.2
  simp only [ObservationPage.told, hrun]
  split
  · rename_i hend
    refine ⟨h.extended hrun (hleads.append ⟨hend.2, (fun _ hy => by cases hy), trivial⟩) ?_
      (fun o ho => ?_) fun o ho hlt _ => ?_, Or.inr ?_⟩
    · simp [position, Observed.index]
    · exact (hmem o (mem_observed.1 (by simpa using ho))).1
    · exact List.mem_append_left _ ((hcovers o ho hlt).resolve_right (by simp [hrest hend.1]))
    · rintro _ ⟨⟩
      simp [Subscription.index, position, Observed.index]
  · rename_i hend
    rw [List.append_nil]
    refine ⟨h.extended hrun hleads hle (fun o ho => (hmem o (mem_observed.1 ho)).1)
      fun o ho hlt hseen => (hcovers o ho hlt).resolve_right fun hbeyond => ?_, ?_⟩
    · exact absurd (hlow _ hlt fun o' ho' => hcross o' ho' o hbeyond) (not_lt.2 hseen)
    · rw [show ({ u with yields := u.yields ++ observed u.index page.items } : Subscription).index =
        position u.index (observed u.index page.items) from List.foldl_append]
      cases hcursor : page.cursor with
      | none =>
        refine Or.inr fun _ heq => ?_
        cases heq
        exact le_antisymm hle (not_lt.1 fun hlt => hend ⟨hcursor, hlt⟩)
      | some => exact Or.inl (hmoves (hprogress (by simp [hcursor])))

/-- The states that calls and a subscriber reach. -/
def Store.watch (options : StoreOptions) (events : List SubscriberEvent) :
    Store × Option Subscription :=
  Machine.run (observeStep options) (Store.empty, none) events

theorem Store.watch_kept (options : StoreOptions) (events : List SubscriberEvent) :
    Numbered (Store.watch options events).1 ∧
      ∀ u ∈ (Store.watch options events).2, Watched (Store.watch options events).1 u := by
  refine Machine.run_invariant (P := fun state : Store × Option Subscription =>
    Numbered state.1 ∧ ∀ u ∈ state.2, Watched state.1 u) _ (fun state event hstate => ?_)
    ⟨⟨.empty, by simp [Store.empty], by simp [Store.empty], by simp [Store.empty]⟩, by simp⟩ events
  obtain ⟨hs, hu⟩ := hstate
  have hstart : ∀ taskId runId index run, state.1.run? taskId runId = some run →
      index ≤ run.observationIndex → Watched state.1 ⟨taskId, runId, index, []⟩ :=
    fun taskId runId index run hrun hindex => ⟨⟨run, hrun, hindex⟩, trivial, by simp,
      fun o _ hlt hle => absurd (hlt.trans_le hle) (lt_irrefl _)⟩
  cases event with
  | call call =>
    obtain ⟨owner, epoch, hstep⟩ | ⟨command, e, -, hcommitted, hstep⟩ :=
      Store.step_cases options state.1 call
    · simp only [observeStep, hstep]
      exact ⟨{ hs with linked := hs.linked.withOwner owner epoch }, fun u hmem => { hu u hmem with }⟩
    · simp only [observeStep, hstep]
      exact ⟨hs.apply hcommitted, fun u hmem => (hu u hmem).apply hs hcommitted.transition⟩
  | observe taskId runId =>
    refine ⟨hs, fun u hmem => ?_⟩
    obtain ⟨run, hrun, rfl⟩ := Option.map_eq_some_iff.1 hmem
    exact hstart taskId runId 0 run hrun (Nat.zero_le _)
  | resume taskId after =>
    refine ⟨hs, fun u hmem => ?_⟩
    obtain ⟨found, hfound, rfl⟩ := Option.map_eq_some_iff.1 hmem
    cases hcursor : state.1.observeFromCursor options taskId after with
    | error => simp [hcursor, Except.toOption] at hfound
    | ok value =>
      obtain ⟨-, run, hrun, hindex⟩ := observeFromCursor_ok hcursor
      rw [hcursor] at hfound
      cases hfound
      exact hstart taskId _ _ run hrun hindex
  | read =>
    refine ⟨hs, fun u hmem => ?_⟩
    obtain ⟨prior, hprior, rfl⟩ := Option.map_eq_some_iff.1 hmem
    cases hread : prior.read options state.1 with
    | error => exact hu prior hprior
    | ok u' => exact ((hu prior hprior).read hs hread).1

/-- A subscriber was told what there is, and each read moves on until the last index. -/
def Followed (options : StoreOptions) (state : Store × Option Subscription) : Prop :=
  ∀ u ∈ state.2, Watched state.1 u ∧ ∀ u', u.read options state.1 = .ok u' →
    u.index < u'.index ∨
      ∀ run ∈ state.1.run? u.taskId u.runId, u'.index = run.observationIndex

/-- **A subscription loses and repeats nothing**, whatever is committed between its
reads: what it yields leads on from its start, with every row that is retained up to
its position and no other, and each read moves on until the last index of the run. -/
theorem observation_subscription (options : StoreOptions) (events : List SubscriberEvent) :
    Followed options (Store.watch options events) := by
  obtain ⟨hs, hwatched⟩ := Store.watch_kept options events
  exact fun u hu => ⟨hwatched u hu, fun u' hread => ((hwatched u hu).read hs hread).2⟩

/-- The cursor of a yield leads back behind it, and no other text does. -/
def Resumable (options : StoreOptions) (state : Store × Option Subscription) : Prop :=
  ∀ u ∈ state.2, ∀ y ∈ u.yields, ∀ after,
    state.1.observeFromCursor options u.taskId after = .ok (u.runId, y.index) ↔
      after = observationCursor options u.taskId u.runId y.index

/-- **A subscription is resumed from its cursors**, however much later. -/
theorem observation_resumes (options : StoreOptions) (events : List SubscriberEvent) :
    Resumable options (Store.watch options events) := by
  obtain ⟨hs, hwatched⟩ := Store.watch_kept options events
  intro u hu y hy after
  obtain ⟨run, hrun, hindex⟩ := (hwatched u hu).run
  obtain ⟨hmem, hid, htask⟩ := run?_eq_some.1 hrun
  obtain ⟨htaskId, hrunId⟩ := hs.ids run hmem
  have hle := ((hwatched u hu).leads.le_position.2 y hy).trans hindex
  constructor
  · exact fun h => (observeFromCursor_ok h).1
  · rintro rfl
    exact observeFromCursor_cursor (htask ▸ htaskId) (hid ▸ hrunId) hrun hle
      (hle.trans (hs.counted run hmem))

end AgentSdk.Delegation
