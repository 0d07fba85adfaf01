import AgentSdk.Provider.Control

/-!
# The order of a session over its runs

Every event of a usable session keeps requests, entries, the turn and the reader
in their order.  An event that ends the session leaves nothing to keep.

## Main results

* `step_usable` — a session that has ended stays so.
* `step_ordered`, `run_kept` — the order after an event and after a run.
-/

namespace AgentSdk

namespace Provider

variable {Params Flow Answers Content : Type}
variable {i : Interactions Params Flow Answers Content} {s : Session Params Flow Answers Content}

namespace Session

/-- The order of a session, which is bound before its first turn. -/
structure Ordered (s : Session Params Flow Answers Content) : Prop where
  orderly : Orderly s.requests s.requestSequence s.queue s.turn s.reader (s.gated.map Prod.fst)
  bound : s.bound = false → s.turn = none

/-! ## Sessions that have ended -/

theorem fail_usable (error : SessionError) (s : Session Params Flow Answers Content) :
    (s.fail error).usable = false := by
  unfold fail
  split
  · rfl
  · rename_i h
    simpa using h

variable {message : Message} {bytes id ticket : Nat}
  {f : Request Params Flow Content → Request Params Flow Content}
  {r : Request Params Flow Content} {turn : Turn} {entry : QueueEntry Message}

theorem admitOrFail_usable (h : (s.admitOrFail i message bytes).usable = true) :
    s.usable = true ∧ ∃ queue,
      s.queue.admitValue i.limits message bytes message.control = .ok queue ∧
        s.admitOrFail i message bytes = { s with queue } := by
  unfold admitOrFail at h ⊢
  split at h
  · rename_i queue hq
    exact ⟨h, queue, hq, rfl⟩
  · rw [fail_usable] at h
    cases h

/-- A session with a turn is bound. -/
theorem Ordered.bound_of_turn (h : s.Ordered) (hturn : s.turn = some turn) {t : Option Turn} :
    s.bound = false → t = none := fun hno => by
  have hnone := h.bound hno
  rw [hturn] at hnone
  cases hnone

/-! ## Changes of requests -/

theorem forall₂_map {R : Request Params Flow Content → Request Params Flow Content → Prop}
    (hf : ∀ r, R r (f r)) (l : List (Request Params Flow Content)) :
    List.Forall₂ R l (l.map f) := by
  induction l with
  | nil => exact List.Forall₂.nil
  | cons r l ih => exact List.Forall₂.cons (hf r) ih

theorem Ordered.modify (h : s.Ordered) (id : Nat) (hf : ∀ r, Request.Mild r (f r)) :
    (s.modify id f).Ordered := by
  refine ⟨h.orderly.mild (forall₂_map (fun r => ?_) s.requests), h.bound⟩
  by_cases hid : r.id = id
  · rw [if_pos hid]
    exact hf r
  · rw [if_neg hid]
    exact Request.Mild.refl r

theorem Ordered.cancelAll (h : s.Ordered) : s.cancelAll.Ordered :=
  ⟨h.orderly.mild (forall₂_map Request.cancel_mild s.requests), h.bound⟩

theorem mem_of_find (h : s.find id = some r) : r ∈ s.requests ∧ r.id = id :=
  ⟨List.mem_of_find?_eq_some h, by simpa using List.find?_some h⟩

/-! ## Changes of the queue -/

theorem Ordered.admitted (h : s.Ordered) {flag : Bool} {queue : SessionQueue Message}
    (hready : Orderly.Ready s.requests s.queue s.turn s.reader message)
    (hq : s.queue.admitValue i.limits message bytes flag = .ok queue) :
    ({ s with queue } : Session Params Flow Answers Content).Ordered :=
  ⟨h.orderly.admitted hready (SessionQueue.admit_ok_iff.1 hq), h.bound⟩

theorem Ordered.admitOrFail (h : s.Ordered)
    (hready : Orderly.Ready s.requests s.queue s.turn s.reader message)
    (husable : (s.admitOrFail i message bytes).usable = true) :
    (s.admitOrFail i message bytes).Ordered := by
  obtain ⟨-, queue, hq, heq⟩ := admitOrFail_usable husable
  rw [heq]
  exact h.admitted hready hq

theorem Ordered.admitNotification (h : s.Ordered) (metadata : Bool) (bytes : Nat)
    (husable : (s.admitNotification i metadata bytes).usable = true) :
    (s.admitNotification i metadata bytes).Ordered := by
  unfold Session.admitNotification at husable ⊢
  split
  · exact h
  · rename_i hs
    simp only [hs] at husable
    split
    · split
      · exact h
      · split
        · rename_i queue hq
          have hnext := h.admitted Orderly.ready_update hq
          exact ⟨hnext.orderly, hnext.bound⟩
        · exact h
    · rename_i hmetadata
      simp only [hmetadata] at husable
      split
      · exact h
      · rename_i turn hturn
        simp only [hturn] at husable
        split
        · exact h
        · rename_i hlive
          simp only [hlive] at husable
          exact h.admitOrFail Orderly.ready_update husable

theorem Ordered.bind (h : s.Ordered) (hb : Budget i s.queue) : s.bind.Ordered := by
  unfold Session.bind
  split
  · exact h
  · rename_i hs
    have hunbound : s.bound = false := by
      simp only [Bool.or_eq_true, not_or, Bool.not_eq_true] at hs
      exact hs.2
    have hturn := h.bound hunbound
    have hreader := (h.orderly.noTurn hturn).2.1
    have hall : ∀ (tickets : List Nat) (q : SessionQueue Message), q.Exact →
        Orderly s.requests s.requestSequence q s.turn s.reader (s.gated.map Prod.fst) →
        Orderly s.requests s.requestSequence
          (tickets.foldl (fun queue ticket => queue.release ticket) q) s.turn s.reader
          (s.gated.map Prod.fst) := by
      intro tickets
      induction tickets with
      | nil => exact fun _ _ hq => hq
      | cons t _ ih =>
        intro q hexact hq
        refine ih _ (hexact.release t) (hq.release hexact ?_)
        rw [hreader]
        nofun
    exact ⟨hall _ _ hb.exact h.orderly, fun hno => by cases hno⟩

theorem Ordered.admitRequest (h : s.Ordered) (hb : Budget i s.queue) (kind : RequestKind)
    (params : Params) (host : Bool) (bytes : Nat)
    (husable : (s.admitRequest i kind params host bytes).usable = true) :
    (s.admitRequest i kind params host bytes).Ordered := by
  unfold Session.admitRequest at husable ⊢
  split
  · exact h
  · rename_i hs
    simp only [hs] at husable
    split
    · exact h
    · rename_i turn hturn
      simp only [hturn] at husable
      split
      · exact h
      · rename_i hlive
        simp only [hlive] at husable
        split
        · rename_i hfull
          simp only [hfull, if_true, Bool.false_eq_true, if_false, fail_usable] at husable
        · rename_i hcount
          simp only [hcount] at husable
          split
          · rename_i hmaterial
            simp only [hmaterial, if_true, Bool.false_eq_true, if_false, fail_usable] at husable
          · rename_i hroom
            simp only [hroom] at husable
            split
            · rename_i error hq
              simp only [hq, Bool.false_eq_true, if_false, fail_usable] at husable
            · rename_i queue hq
              have horderly := h.orderly
              rw [hturn] at horderly
              have hsource : turn.sourceSettled = false := by
                cases hsource : turn.sourceSettled with
                | false => rfl
                | true =>
                  have hin := horderly.inTurn turn rfl
                  have hterminal := hin.joining (Or.inr (hin.source hsource).1)
                  simp [hterminal] at hlive
              refine ⟨?_, h.bound⟩
              rw [show s.turn = some turn from hturn]
              exact horderly.registered hb.exact hsource rfl rfl rfl rfl rfl
                ⟨rfl, nofun, nofun, fun _ => rfl, nofun⟩ (SessionQueue.admit_ok_iff.1 hq)

/-! ## The peer -/

theorem endWait_eq (id : Nat) (s : Session Params Flow Answers Content) :
    s.endWait id =
      { s with turn := s.turn.map fun turn =>
        if turn.waiting = some id then { turn with waiting := none } else turn } := by
  unfold endWait
  cases hturn : s.turn with
  | none =>
    show s = { s with turn := none }
    rw [← hturn]
  | some turn =>
    by_cases hwait : turn.waiting = some id
    · simp [hwait, setTurn]
    · simp only [hwait, if_false, Option.map_some]
      rw [← hturn]

theorem Ordered.settleRequest (h : s.Ordered) (hb : Budget i s.queue) (id : Nat) :
    (s.settleRequest id).Ordered := by
  unfold Session.settleRequest
  split
  · exact h
  · rename_i r hfind
    obtain ⟨hr, hid⟩ := mem_of_find hfind
    subst hid
    split
    · rename_i hcond
      simp only [Bool.and_eq_true, Bool.not_eq_true'] at hcond
      obtain ⟨⟨-, hanswered⟩, -⟩ := hcond
      have hentry : ∀ entry ∈ s.queue.retained, entry.ticket = r.entry →
          entry.value = .request r.id := (h.orderly.own r hr).2
      have hread : s.reader.withdraws ≠ some r.entry := by
        intro hread
        obtain ⟨entry, he, hticket, hn⟩ := h.orderly.reading r.entry hread
        rw [hentry entry he hticket] at hn
        cases hn
      have hreleased := h.orderly.release hb.exact hread
      have hexact := hb.exact.release r.entry
      have hgone : ∀ entry ∈ (s.queue.release r.entry).retained, entry.value ≠ .request r.id := by
        intro entry he hvalue
        rw [SessionQueue.retained_release, List.mem_filter] at he
        obtain ⟨x, hx, hxid, -, hticket⟩ := h.orderly.requested entry he.1 r.id hvalue
        rw [h.orderly.eq_of_id hx hr hxid] at hticket
        exact absurd hticket.symm (by simpa using he.2)
      cases hturn : s.turn with
      | none =>
        have hnil := (h.orderly.noTurn hturn).1
        rw [hnil] at hr
        cases hr
      | some turn =>
        rw [hturn] at hreleased
        have hkey := hreleased.unretain hexact hr hanswered hgone rfl
        split
        · rename_i hu
          refine ⟨?_, h.bound⟩
          rw [if_neg (by simp [hu])] at hkey
          show Orderly _ _ _ s.turn _ _
          rw [hturn]
          exact hkey
        · rename_i hu
          rw [endWait_eq]
          refine ⟨?_, h.bound_of_turn hturn⟩
          show Orderly _ _ _ (s.turn.map _) _ _
          rw [hturn]
          simp only [Option.map_some]
          simp only [Bool.not_eq_true] at hu
          simp only [hu, true_and] at hkey
          exact hkey
    · exact h

theorem Orderly.single_terminal (h : s.Ordered) (hturn : s.turn = some turn)
    (hsettled : turn.nativeSettled = false) :
    (∀ entry ∈ s.queue.retained, entry.value.isTerminal = false) ∧
      ∀ ticket, s.reader ≠ .completing ticket := by
  have hin := h.orderly.inTurn turn hturn
  refine ⟨fun entry he => Bool.eq_false_iff.2 fun ht => ?_, fun ticket hreader => ?_⟩
  · exact absurd (hin.settled entry he ht).1 (by simp [hsettled])
  · exact absurd (hin.settles (Or.inr ⟨ticket, hreader⟩)) (by simp [hsettled])

/-- A noticeable request is in a turn, and the notice of its withdrawal finds no other one. -/
theorem Ordered.readyNotice (h : s.Ordered) (hr : r ∈ s.requests) (hn : r.noticeable = true)
    (id requestId : Nat) {requests : List (Request Params Flow Content)}
    (hrequests : ∀ x ∈ requests, x.noticeable = false) :
    Orderly.Ready requests s.queue s.turn s.reader (.unavailable id requestId) := by
  refine
    { ordinary := rfl
      started := fun _ hturn => ?_
      ofNotice := fun _ => ⟨hrequests, h.orderly.quiet r hr hn, fun t ht hterminal hwait => ?_⟩
      ofTerminal := nofun }
  · have hnil := (h.orderly.noTurn hturn).1
    rw [hnil] at hr
    cases hr
  · have hwas := ((h.orderly.inTurn t ht).active hterminal).waits r hr hn
    rw [hwait] at hwas
    cases hwas

theorem modify_modify {g : Request Params Flow Content → Request Params Flow Content}
    (hf : ∀ r, (f r).id = r.id) (s : Session Params Flow Answers Content) :
    (s.modify id f).modify id g = s.modify id fun r => g (f r) := by
  unfold modify
  simp only [List.map_map]
  congr 1
  refine List.map_congr_left fun r _ => ?_
  by_cases hid : r.id = id
  · simp [hid, hf]
  · simp [hid]

theorem Ordered.withdraw (h : s.Ordered) (aborted : Bool) (error : SessionError) (id : Nat)
    (husable : (s.withdraw i aborted error id).usable = true) :
    (s.withdraw i aborted error id).Ordered := by
  unfold Session.withdraw at husable ⊢
  split
  · exact h
  · rename_i r hfind
    obtain ⟨hr, hid⟩ := mem_of_find hfind
    subst hid
    simp only [hfind] at husable
    split
    · exact h
    · rename_i hcond
      simp only [hcond, Bool.false_eq_true, if_false, modify_usable] at husable
      simp only [Bool.or_eq_true, Bool.not_eq_true', not_or, Bool.not_eq_false,
        Bool.not_eq_true] at hcond
      have hwithdrawn : (s.modify r.id fun x =>
          (x.withdrawn aborted).release (.rejected error)).Ordered :=
        h.modify r.id (Request.withdraw_mild aborted error)
      have htwice : (s.modify r.id (Request.withdrawn aborted)).modify r.id
          (Request.release (.rejected error)) =
            s.modify r.id fun x => (x.withdrawn aborted).release (.rejected error) := by
        refine modify_modify (fun x => ?_) s
        rfl
      unfold notify at husable ⊢
      split
      · rw [htwice]
        exact hwithdrawn
      · rename_i requestId hpublished
        simp only [hpublished] at husable
        obtain ⟨-, queue, hq, heq⟩ := admitOrFail_usable husable
        have hn : r.noticeable = true := by
          simp [Request.noticeable, hcond.1, hcond.2, hpublished]
        have hnone : ∀ x ∈ (s.modify r.id fun x =>
            (x.withdrawn aborted).release (.rejected error)).requests, x.noticeable = false := by
          intro x' hx'
          obtain ⟨x, hx, ⟨-, rfl⟩ | ⟨hid, rfl⟩⟩ := Orderly.mem_change.1 hx'
          · have hu : ((x.withdrawn aborted).release (.rejected error)).unavailable = true := by
              unfold Request.release
              split <;> rfl
            simp [Request.noticeable, hu]
          · cases hx'n : x'.noticeable with
            | false => rfl
            | true => exact absurd (h.orderly.oneNoticeable x' hx r hr hx'n hn) hid
        have hnext := hwithdrawn.admitted (h.readyNotice hr hn r.id requestId hnone) hq
        rw [heq]
        show ({ (s.modify r.id (Request.withdrawn aborted)).modify r.id
          (Request.release (.rejected error)) with queue } :
            Session Params Flow Answers Content).Ordered
        rw [htwice]
        exact hnext

theorem Ordered.settlePrompt (h : s.Ordered) (bytes : Nat)
    (husable : (s.settlePrompt i bytes).usable = true) : (s.settlePrompt i bytes).Ordered := by
  unfold Session.settlePrompt at husable ⊢
  split
  · exact h
  · rename_i turn hturn
    simp only [hturn] at husable
    split
    · exact h
    · rename_i hcond
      simp only [hcond, Bool.false_eq_true, if_false] at husable
      simp only [Bool.or_eq_true, Bool.not_eq_true', not_or, Bool.not_eq_false,
        Bool.not_eq_true] at hcond
      obtain ⟨-, hsettled⟩ := hcond
      simp only
      split
      · rename_i hpending
        simp only [hpending, if_true, fail_usable] at husable
        cases husable
      · rename_i hpending
        simp only [hpending, if_false] at husable
        have horderly := h.orderly
        rw [hturn] at horderly
        have hin := horderly.inTurn turn rfl
        obtain ⟨hnone, hcompleting⟩ := Orderly.single_terminal h hturn hsettled
        have hlive : turn.terminal = false := by
          cases hterminal : turn.terminal with
          | false => rfl
          | true =>
            have hnot := hin.settles (Or.inl hterminal)
            rw [hsettled] at hnot
            cases hnot
        have hnext : (s.setTurn { turn with nativeSettled := true }).Ordered := by
          refine ⟨horderly.moved rfl hcompleting (Or.inr rfl) ?_, h.bound_of_turn hturn⟩
          refine
            { hin with
              settled := fun entry he ht => absurd ht (by simp [hnone entry he])
              settles := fun _ => rfl
              active := fun hno => { hin.active hno with } }
        refine hnext.admitOrFail ?_ husable
        refine
          { ordinary := rfl
            started := nofun
            ofNotice := nofun
            ofTerminal := fun _ => ⟨hnone, ?_, hcompleting⟩ }
        intro t ht
        rw [← Option.some.inj ht]
        exact ⟨rfl, hlive⟩

theorem Ordered.cancelNative (h : s.Ordered) (bytes : Nat)
    (husable : (s.cancelNative i bytes).usable = true) : (s.cancelNative i bytes).Ordered := by
  unfold Session.cancelNative at husable ⊢
  split
  · exact h
  · rename_i turn hturn
    simp only [hturn] at husable
    split
    · exact h
    · rename_i hcond
      simp only [hcond, Bool.false_eq_true, if_false] at husable
      simp only [Bool.or_eq_true, Bool.not_eq_true', not_or, Bool.not_eq_false,
        Bool.not_eq_true] at hcond
      obtain ⟨⟨⟨-, hlive⟩, -⟩, hsettled⟩ := hcond
      have horderly := h.orderly
      rw [hturn] at horderly
      have hin := horderly.inTurn turn rfl
      obtain ⟨hnone, hcompleting⟩ := Orderly.single_terminal h hturn hsettled
      have hactive := hin.active hlive
      split
      · refine Ordered.cancelAll
          ⟨horderly.moved rfl hcompleting (Or.inr rfl) ?_, h.bound_of_turn hturn⟩
        exact { hin with active := fun _ => { hactive with } }
      · rename_i hstarted
        rw [if_neg hstarted] at husable
        have hnext : (s.setTurn { turn with canceled := true, nativeSettled := true }).Ordered := by
          refine ⟨horderly.moved rfl hcompleting (Or.inr rfl) ?_, h.bound_of_turn hturn⟩
          exact
            { hin with
              settled := fun entry he ht => absurd ht (by simp [hnone entry he])
              settles := fun _ => rfl
              active := fun _ => { hactive with } }
        refine hnext.cancelAll.admitOrFail ?_ husable
        refine
          { ordinary := rfl
            started := nofun
            ofNotice := nofun
            ofTerminal := fun _ => ⟨hnone, ?_, hcompleting⟩ }
        intro t ht
        rw [← Option.some.inj ht]
        exact ⟨rfl, hlive⟩

/-! ## Resolutions -/

/-- A turn whose transition holds no next request is as before for the rest. -/
theorem Ordered.deliver (h : s.Ordered) (hturn : s.turn = some turn) (id : Nat)
    (reply : Reply Content) : (s.deliver id turn reply).Ordered := by
  have hanswered := h.modify id (Request.answer_mild reply)
  have horderly := hanswered.orderly
  rw [modify_turn, hturn] at horderly
  have hin := horderly.inTurn turn rfl
  refine ⟨?_, h.bound_of_turn hturn⟩
  refine
    { horderly with
      noTurn := nofun
      inTurn := fun u hu => ?_ }
  rw [← Option.some.inj hu]
  refine { hin with active := fun hno => ?_ }
  have hactive := hin.active hno
  refine
    { hactive with
      clear := ?_
      single := fun _ _ hid => by cases hid
      ready := ?_ }
  · rintro (hp | ⟨_, hid⟩)
    · exact hactive.clear (Or.inl hp)
    · cases hid
  · rintro id (ho | hid)
    · exact hactive.ready id (Or.inl ho)
    · cases hid

theorem Ordered.resolved (h : s.Ordered) (hb : Budget i s.queue) (hturn : s.turn = some turn)
    (id : Nat) (resolution : Resolution Answers)
    (hpublished : ∀ r, s.find id = some r → r.answered = false → r.published.isSome = true) :
    (s.resolved i id turn resolution).Ordered := by
  rcases resolved_cases (i := i) id turn resolution s with
    heq | ⟨_, _, _, _, -, heq⟩ | ⟨r, mapped, flow, flow', content, hform, heq⟩ |
      ⟨r, mapped, flow, flow', hform, heq⟩
  · rw [heq]
    exact h
  · rw [heq]
    exact h.deliver hturn id _
  · rw [heq]
    obtain ⟨hr, hid⟩ := mem_of_find hform.found
    have hmild : (s.formResolved id mapped flow').Ordered := by
      refine ⟨h.orderly.mild ?_, h.bound⟩
      refine List.forall₂_map_right_iff.2 (List.forall₂_same.2 fun x hx => ?_)
      by_cases hxid : x.id = id
      · rw [if_pos hxid]
        have hsame := h.orderly.eq_of_id hx hr (hxid.trans hid.symm)
        have hmapped : x.mapped = some mapped := hsame ▸ hform.mapped_eq
        refine ⟨rfl, rfl, rfl, rfl, rfl, ?_, fun hu => hu, fun ha => ha, fun hsound => ?_⟩
        · simp [hmapped]
        · refine { hsound with kinds := ?_ }
          intro m hm
          have hkind := hsound.kinds mapped hmapped
          rw [hform.offered] at hkind
          rw [← Option.some.inj hm]
          exact hkind
      · rw [if_neg hxid]
        exact Request.Mild.refl x
    exact hmild.deliver hturn id _
  · rw [heq]
    obtain ⟨hr, hid⟩ := mem_of_find hform.found
    subst hid
    have hsound := h.orderly.sound r hr
    have hanswered : r.answered = false := by
      have hcan := hform.canAnswer
      rw [hsound.canAnswer] at hcan
      simpa using hcan
    have hkind : r.kind = .form := by
      have hkinds := hsound.kinds mapped hform.mapped_eq
      rw [hform.offered] at hkinds
      cases hk : r.kind with
      | form => rfl
      | permission => exact absurd (hkinds.2 hk) (by simp [Offered.isPermission])
    have horderly := h.orderly
    rw [hturn] at horderly
    refine ⟨horderly.advanced hb.exact hr hanswered (hpublished r hform.found hanswered) hkind
      flow', h.bound_of_turn hturn⟩

theorem Ordered.resolveRequest (h : s.Ordered) (hb : Budget i s.queue) (gate : Bool)
    (resolution : Resolution Answers) : (s.resolveRequest i gate resolution).Ordered := by
  unfold Session.resolveRequest
  split
  · exact h
  · rename_i turn hturn
    split
    · exact h
    · rename_i id hwait
      split
      · exact h
      · rename_i r hfind
        obtain ⟨hr, hid⟩ := mem_of_find hfind
        split
        · exact h
        · rename_i hcond
          simp only [Bool.or_eq_true, not_or, Bool.not_eq_true] at hcond
          have hactive := (h.orderly.inTurn turn hturn).active hcond.1
          -- the request the turn waits for is published, or it is unavailable and answered
          have hpublished : r.answered = false → r.published.isSome = true := by
            intro hanswered
            obtain ⟨x, hx, hxid, hx'⟩ := hactive.waited id hwait
            rw [h.orderly.eq_of_id hx hr (hxid.trans hid.symm)] at hx'
            rcases hx' with hu | hn
            · rw [(h.orderly.sound r hr).unavailable hu] at hanswered
              cases hanswered
            · simp only [Request.noticeable, Bool.and_eq_true] at hn
              exact hn.2
          split
          · rename_i hgate
            simp only [Bool.and_eq_true, decide_eq_true_eq] at hgate
            refine ⟨{ h.orderly with gates := ?_ }, h.bound⟩
            intro x hx
            rw [List.map_append, List.mem_append] at hx
            rcases hx with hold | hnew
            · exact h.orderly.gates x hold
            · simp only [List.map_cons, List.map_nil, List.mem_singleton] at hnew
              subst hnew
              exact ⟨r, hr, hid, hgate.2, hpublished⟩
          · refine h.resolved hb hturn id resolution fun x hx => ?_
            rw [hfind] at hx
            rw [← Option.some.inj hx]
            exact hpublished

theorem Ordered.passGate (h : s.Ordered) (hb : Budget i s.queue) (position : Nat) :
    (s.passGate i position).Ordered := by
  unfold Session.passGate
  split
  · rename_i id resolution turn hgated hturn
    have hmem : (id, resolution) ∈ s.gated := List.mem_of_getElem? hgated
    have hopened :
        ({ s with gated := s.gated.eraseIdx position } :
          Session Params Flow Answers Content).Ordered := by
      refine ⟨{ h.orderly with gates := ?_ }, h.bound⟩
      intro x hx
      obtain ⟨g, hg, rfl⟩ := List.mem_map.1 hx
      exact h.orderly.gates g.1 (List.mem_map_of_mem ((List.eraseIdx_sublist _ _).subset hg))
    refine hopened.resolved (s := { s with gated := s.gated.eraseIdx position }) hb hturn id
      resolution fun r hfind hanswered => ?_
    obtain ⟨hr, hid⟩ := mem_of_find hfind
    obtain ⟨x, hx, hxid, -, hpublished⟩ := h.orderly.gates id (List.mem_map_of_mem hmem)
    rw [h.orderly.eq_of_id hx hr (hxid.trans hid.symm)] at hpublished
    exact hpublished hanswered
  · exact h

theorem Ordered.hostReply (h : s.Ordered) (id : Nat) (result : Except SessionError Content) :
    (s.hostReply id result).Ordered := by
  unfold Session.hostReply
  split
  · exact h
  · split
    · exact h
    · split
      · exact h.modify id (Request.answer_mild _)
      · exact h.modify id (Request.release_mild _)

theorem Ordered.hostJoined (h : s.Ordered) (id : Nat) : (s.hostJoined id).Ordered := by
  refine h.modify id fun r => ?_
  split
  · exact Request.hostWork_mild false r
  · exact Request.Mild.refl r

/-! ## The reader -/

/-- A new turn, when no request of an older one is retained. -/
theorem Ordered.newTurn (h : s.Ordered) (hbound : s.bound = true)
    (hretained : ∀ r ∈ s.requests, r.retained = false) (hread : s.reader.withdraws = none)
    (hterminal : ∀ entry ∈ s.queue.retained, entry.value.isTerminal = false)
    (hsub : s.queue.Exact) :
    ({ s with turn := some {}, turns := s.turns + 1, reader := .unread } :
      Session Params Flow Answers Content).Ordered := by
  have hnone : ∀ r ∈ s.requests, r.noticeable = false := by
    intro r hr
    simp [Request.noticeable, hretained r hr]
  refine ⟨?_, fun hno => ?_⟩
  · refine
      { h.orderly with
        notices := ?_
        reading := fun _ hr => by cases hr
        ending := fun _ hr => by cases hr
        held := fun _ hr => by cases hr
        noTurn := fun hr => by cases hr
        inTurn := ?_ }
    · intro entry he hn
      rcases h.orderly.notices entry he hn with hin | hr
      · exact Or.inl hin
      · rw [hread] at hr
        cases hr
    · intro u hu
      rw [← Option.some.inj hu]
      refine
        { settled := fun entry he ht => absurd ht (by simp [hterminal entry he])
          finished := fun hr => by cases hr
          joining := by rintro (hr | hr) <;> cases hr
          settles := by rintro (hr | ⟨_, hr⟩) <;> cases hr
          source := fun hr => by cases hr
          active := fun _ => ?_ }
      refine
        { waits := fun r hr hn => absurd hn (by simp [hnone r hr])
          waited := fun _ hr => by cases hr
          order := ?_
          clear := by rintro (hp | ⟨_, hp⟩); exacts [absurd rfl hp, by cases hp]
          single := fun hp => absurd rfl hp
          ready := by rintro _ (ho | ho) <;> cases ho
          maps := fun _ hr => by cases hr }
      -- no entry of a request is left, so none stands before a notice
      intro _ _
      refine List.pairwise_of_forall_mem_list fun a ha b _ hrequest => ?_
      cases hvalue : a.value with
      | request id =>
        obtain ⟨r, hr, -, hr', -⟩ :=
          h.orderly.requested a (hsub.entries.subset ha) id hvalue
        rw [hretained r hr] at hr'
        cases hr'
      | update | unavailable | terminal =>
        rw [hvalue] at hrequest
        cases hrequest
  · rw [show s.bound = true from hbound] at hno
    cases hno

theorem Ordered.startTurn (h : s.Ordered) (hb : Budget i s.queue) : s.startTurn.Ordered := by
  unfold Session.startTurn
  split
  · exact h
  · rename_i hcond
    have hbound : s.bound = true := by
      simp only [Bool.or_eq_true, Bool.not_eq_true', not_or, Bool.not_eq_false] at hcond
      exact hcond.2
    split
    · rename_i turn hturn
      split
      · rename_i hsource
        have hin := h.orderly.inTurn turn hturn
        obtain ⟨hreader, hretained⟩ := hin.source hsource
        refine h.newTurn hbound hretained (by rw [hreader]; rfl) ?_ hb.exact
        intro entry he
        cases ht : entry.value.isTerminal with
        | false => rfl
        | true =>
          have hterminal := hin.joining (Or.inr hreader)
          rw [(hin.settled entry he ht).2] at hterminal
          cases hterminal
      · exact h
    · rename_i hturn
      obtain ⟨hnil, hreader, hcontrol⟩ := h.orderly.noTurn hturn
      refine h.newTurn hbound (by rw [hnil]; nofun) (by rw [hreader]; rfl) ?_ hb.exact
      intro entry he
      have hno := hcontrol entry he
      rw [Message.control_eq, Bool.or_eq_false_iff] at hno
      exact hno.2

/-- The turn changes in what its order does not speak of. -/
theorem Ordered.setTurn (h : s.Ordered) {turn' : Turn} (hturn : s.turn = some turn)
    (hsettled : turn'.nativeSettled = turn.nativeSettled)
    (hterminal : turn'.terminal = turn.terminal)
    (hsource : turn'.sourceSettled = turn.sourceSettled) (hwaiting : turn'.waiting = turn.waiting)
    (htransition : turn'.transition = turn.transition) : (s.setTurn turn').Ordered := by
  have horderly := h.orderly
  rw [hturn] at horderly
  have hin := horderly.inTurn turn rfl
  refine ⟨?_, h.bound_of_turn hturn⟩
  refine
    { horderly with
      noTurn := nofun
      inTurn := fun u hu => ?_ }
  rw [← Option.some.inj hu]
  refine
    { settled := by rw [hsettled, hterminal]; exact hin.settled
      finished := by rw [hterminal]; exact hin.finished
      joining := by rw [hterminal]; exact hin.joining
      settles := by rw [hterminal, hsettled]; exact hin.settles
      source := by rw [hsource]; exact hin.source
      active := fun hno => ?_ }
  have hactive := hin.active (hterminal ▸ hno)
  exact
    { waits := by rw [hwaiting]; exact hactive.waits
      waited := by rw [hwaiting]; exact hactive.waited
      order := by rw [hwaiting]; exact hactive.order
      clear := by rw [hwaiting, htransition]; exact hactive.clear
      single := by rw [htransition]; exact hactive.single
      ready := by rw [htransition]; exact hactive.ready
      maps := hactive.maps }

theorem Ordered.plain (h : s.Ordered) (hturn : s.turn = some turn)
    (hread : s.reader.withdraws = none) (hover : s.reader ≠ .joining ∧ s.reader ≠ .done)
    {reader : Reader} (hplain : reader.plain = true) :
    ({ s with reader } : Session Params Flow Answers Content).Ordered := by
  have horderly := h.orderly
  rw [hturn] at horderly
  refine ⟨?_, h.bound⟩
  rw [hturn]
  exact horderly.plain hread hover hplain

theorem Ordered.launchTurn (h : s.Ordered) : s.launchTurn.Ordered := by
  unfold Session.launchTurn
  split
  · exact h
  · rename_i turn hturn
    split
    · exact h
    · rename_i hcond
      simp only [Bool.or_eq_true, Bool.not_eq_true', not_or, decide_eq_true_eq, not_not] at hcond
      have hreader := hcond.2
      have hread : s.reader.withdraws = none := by rw [hreader]; rfl
      have hover : s.reader ≠ .joining ∧ s.reader ≠ .done := by rw [hreader]; exact ⟨nofun, nofun⟩
      split
      · exact h.plain hturn hread hover rfl
      · have hstarted : (s.setTurn { turn with nativeStarted := true }).Ordered :=
          h.setTurn hturn rfl rfl rfl rfl rfl
        exact hstarted.plain rfl hread hover rfl

/-- The reader offers a mapped request while the turn waits for nothing. -/
theorem Ordered.offer (h : s.Ordered) (hturn : s.turn = some turn) (hlive : turn.terminal = false)
    (hwait : turn.waiting = none)
    (hclear : ∀ entry ∈ s.queue.retained, entry.value.notice = false)
    (htransition : ∀ id, turn.transition ≠ some (some id)) (hread : s.reader.withdraws = none)
    (hover : s.reader ≠ .joining ∧ s.reader ≠ .done)
    (hready : ∀ r, s.find id = some r → r.mapped.isSome = true) :
    (s.offerUnlessAnswered id turn).Ordered := by
  unfold offerUnlessAnswered
  split
  · exact h.plain hturn hread hover rfl
  · rename_i r hfind
    obtain ⟨hr, hid⟩ := mem_of_find hfind
    subst hid
    split
    · exact h.plain hturn hread hover rfl
    · rename_i hcond
      simp only [Bool.or_eq_true, not_or, Bool.not_eq_true] at hcond
      have hcan : r.canAnswer = true := by
        rw [(h.orderly.sound r hr).canAnswer, hcond.1]
        rfl
      unfold offerRequest
      simp only [hfind, hcan, if_true]
      have horderly := h.orderly
      rw [hturn] at horderly
      refine ⟨horderly.offered hlive hwait hclear htransition hover hr hcond.1
        (hready r hfind), h.bound_of_turn hturn⟩

theorem Ordered.mapRequest (h : s.Ordered) (hturn : s.turn = some turn)
    (hlive : turn.terminal = false) (hwait : turn.waiting = none) (hfind : s.find id = some r)
    {offered : Offered Flow} (hkind : offered.isPermission = true ↔ r.kind = .permission) :
    (s.mapRequest id offered).Ordered := by
  obtain ⟨hr, hid⟩ := mem_of_find hfind
  subst hid
  have horderly := h.orderly
  rw [hturn] at horderly
  have hmapped := horderly.mapped hlive hwait hr hkind
  rw [← hturn] at hmapped
  exact ⟨hmapped, h.bound⟩

theorem mapped_of_mapRequest {offered : Offered Flow}
    (h : (s.mapRequest id offered).find id = some r) :
    r.mapped = some { requestId := s.requestSequence + 1, offered } := by
  obtain ⟨hmem, hid⟩ := mem_of_find h
  obtain ⟨x, -, ⟨-, rfl⟩ | ⟨hne, rfl⟩⟩ := Orderly.mem_change.1 hmem
  · rfl
  · exact absurd hid hne

/-- Where the reader may go from the head of its loop. -/
theorem inTurn_idle {requests : List (Request Params Flow Content)} {q q' : SessionQueue Message}
    {reader : Reader} (h : InTurn requests q .idle turn) (hretained : q'.retained = q.retained)
    (hentries : q'.entries.Sublist q.entries) (hover : reader ≠ .joining ∧ reader ≠ .done)
    (hoffers : reader.offers = none)
    (hsettles : ∀ ticket, reader = .completing ticket → turn.nativeSettled = true)
    (hmaps : ∀ id, reader = .mapping id → ∃ r ∈ requests, r.id = id ∧ r.kind = .permission)
    (hclear : reader.prepares ≠ none → turn.waiting = none ∧
      (∀ entry ∈ q.retained, entry.value.notice = false) ∧
      ∀ id, turn.transition ≠ some (some id)) : InTurn requests q' reader turn := by
  have hlive := h.live nofun nofun
  have hactive := h.active hlive
  refine h.goes_on nofun rfl rfl hlive (fun _ he => hretained ▸ he) hover hsettles ?_
  refine
    { hactive with
      order := fun hwait _ => (hactive.order hwait rfl).sublist hentries
      clear := ?_
      single := fun hp => (hclear hp).2.2
      ready := ?_
      maps := hmaps }
  · rw [hretained]
    rintro (hp | htransition)
    · exact ⟨(hclear hp).1, (hclear hp).2.1⟩
    · exact hactive.clear (Or.inr htransition)
  · rintro id (ho | htransition)
    · rw [hoffers] at ho
      cases ho
    · exact hactive.ready id (Or.inr htransition)

/-- The entry the reader may take first; a request only while the turn waits for none. -/
theorem next_spec {canTake : Message → Bool} {q : SessionQueue Message}
    (h : q.next canTake = some entry) : entry ∈ q.entries ∧ canTake entry.value = true :=
  ⟨List.mem_of_find?_eq_some h,
    @List.find?_some _ (fun e : QueueEntry Message => canTake e.value) _ _ h⟩

/-- A request that is taken stands behind no notice, so no notice waits. -/
theorem no_notice_of_request (h : s.Ordered) (hturn : s.turn = some turn)
    (hreader : s.reader = .idle) (hnext : s.queue.next (canTake turn) = some entry)
    (hrequest : entry.value.isRequest = true) :
    turn.waiting = none ∧ ∀ other ∈ s.queue.retained, other.value.notice = false := by
  obtain ⟨-, htake⟩ := next_spec hnext
  have hwait : turn.waiting = none := by
    simpa [canTake, hrequest] using htake
  refine ⟨hwait, fun other ho => ?_⟩
  have hin := h.orderly.inTurn turn hturn
  rw [hreader] at hin
  have hlive := hin.live nofun nofun
  cases hn : other.value.notice with
  | false => rfl
  | true =>
    rcases h.orderly.notices other ho hn with hmem | hread
    · -- everything may be taken, so the entry is the first one
      have hall : ∀ e ∈ s.queue.entries, canTake turn e.value = true := by
        intro e _
        simp [canTake, hwait]
      cases hentries : s.queue.entries with
      | nil =>
        rw [hentries] at hmem
        cases hmem
      | cons first rest =>
        have hfirst : entry = first := by
          have htakes := hall first (by rw [hentries]; exact List.mem_cons_self)
          unfold SessionQueue.next at hnext
          simp only [hentries, List.find?_cons, htakes, Option.some.injEq] at hnext
          exact hnext.symm
        have horder := (hin.active hlive).order hwait rfl
        rw [hentries, List.pairwise_cons] at horder
        rw [hentries] at hmem
        rcases List.mem_cons.1 hmem with heq | hrest
        · rw [heq, ← hfirst, Message.notice_of_request hrequest] at hn
          cases hn
        · have hfalse := horder.1 other hrest (hfirst ▸ hrequest)
          rw [hn] at hfalse
          cases hfalse
    · rw [hreader] at hread
      cases hread

theorem Ordered.process (h : s.Ordered) (hb : Budget i s.queue) (tool : Bool)
    (hturn : s.turn = some turn) (hreader : s.reader = .idle)
    (htransition : turn.transition = none) (hnext : s.queue.next (canTake turn) = some entry)
    (husable : (({ s with queue := s.queue.taken entry } :
      Session Params Flow Answers Content).process i tool turn entry).usable = true) :
    (({ s with queue := s.queue.taken entry } :
      Session Params Flow Answers Content).process i tool turn entry).Ordered := by
  obtain ⟨hentry, -⟩ := next_spec hnext
  have hkept : entry ∈ s.queue.retained := hb.exact.entries.subset hentry
  have horderly := h.orderly
  rw [hturn, hreader] at horderly
  have hin := horderly.inTurn turn rfl
  have hbound : ∀ {reader : Reader}, Orderly s.requests s.requestSequence (s.queue.taken entry)
      (some turn) reader (s.gated.map Prod.fst) →
      ({ s with queue := s.queue.taken entry, reader } :
        Session Params Flow Answers Content).Ordered := by
    intro reader ho
    refine ⟨?_, h.bound⟩
    rw [hturn]
    exact ho
  unfold Session.process at husable ⊢
  cases hvalue : entry.value with
  | update =>
    refine hbound (horderly.taken hb.exact rfl hentry (by rw [hvalue]; nofun) nofun nofun
      (fun _ ht => Option.some.inj ht) ?_)
    exact inTurn_idle hin rfl List.filter_sublist ⟨nofun, nofun⟩ rfl nofun nofun
      (fun hp => absurd rfl hp)
  | unavailable id requestId =>
    refine hbound (horderly.taken hb.exact rfl hentry (fun _ => rfl) ?_ nofun
      (fun _ ht => Option.some.inj ht) ?_)
    · intro ticket hticket
      exact ⟨Option.some.inj hticket, by rw [hvalue]; rfl⟩
    · exact inTurn_idle hin rfl List.filter_sublist ⟨nofun, nofun⟩ rfl nofun nofun
        (fun hp => absurd rfl hp)
  | terminal =>
    simp only [hvalue] at husable
    simp only
    split
    · rename_i hpending
      rw [if_pos hpending, fail_usable] at husable
      cases husable
    · refine hbound (horderly.taken hb.exact rfl hentry (by rw [hvalue]; nofun) nofun ?_
        (fun _ ht => Option.some.inj ht) ?_)
      · intro ticket hticket
        simp only [Reader.completing.injEq] at hticket
        exact ⟨hticket, by rw [hvalue]; rfl⟩
      · refine inTurn_idle hin rfl List.filter_sublist ⟨nofun, nofun⟩ rfl (fun _ _ => ?_) nofun
          (fun hp => absurd rfl hp)
        exact (hin.settled entry hkept (by rw [hvalue]; rfl)).1
  | request id =>
    have hrequest : entry.value.isRequest = true := by
      rw [hvalue]
      rfl
    obtain ⟨hwait, hclear⟩ := no_notice_of_request h hturn hreader hnext hrequest
    have hidle : ({ s with queue := s.queue.taken entry } :
        Session Params Flow Answers Content).Ordered := by
      have hidle : InTurn s.requests (s.queue.taken entry) .idle turn :=
        inTurn_idle hin rfl List.filter_sublist ⟨nofun, nofun⟩ rfl nofun nofun
          fun hp => absurd rfl hp
      have htaken : Orderly s.requests s.requestSequence (s.queue.taken entry) (some turn) .idle
          (s.gated.map Prod.fst) :=
        horderly.taken hb.exact rfl hentry (by rw [hvalue]; nofun) nofun nofun nofun hidle
      have hstays := hbound htaken
      rw [← hreader] at hstays
      exact hstays
    simp only [hvalue] at husable
    simp only
    split
    · exact hidle
    · rename_i r hfind
      simp only [hfind] at husable
      split
      · exact hidle
      · rename_i hcond
        simp only [Bool.or_eq_true, not_or, Bool.not_eq_true] at hcond
        split
        · rename_i hkind
          refine hbound (horderly.taken hb.exact rfl hentry (by rw [hvalue]; nofun) nofun nofun
            nofun ?_)
          obtain ⟨hr, hid⟩ := mem_of_find hfind
          refine inTurn_idle hin rfl List.filter_sublist ⟨nofun, nofun⟩ rfl nofun
            (fun x hx => ⟨r, hr, ?_, hkind⟩) fun _ => ?_
          · rw [hid]
            exact Reader.mapping.inj hx
          refine ⟨hwait, hclear, fun id hid => ?_⟩
          rw [htransition] at hid
          cases hid
        · rename_i hkind
          unfold takeForm
          have hread : ({ s with queue := s.queue.taken entry } :
              Session Params Flow Answers Content).reader.withdraws = none := by
            rw [hreader]
            rfl
          have hover : s.reader ≠ .joining ∧ s.reader ≠ .done := by
            rw [hreader]
            exact ⟨nofun, nofun⟩
          split
          · exact (hidle.modify id (Request.release_mild _)).plain hturn hread hover rfl
          · split
            · exact (hidle.modify id (Request.hostWork_mild true)).plain hturn hread hover rfl
            · have hlive := hin.live nofun nofun
              have hoffered : (Offered.form (i.flow r.params)).isPermission = true ↔
                  r.kind = .permission := by simp [Offered.isPermission, hkind]
              have hmapped := hidle.mapRequest hturn hlive hwait hfind hoffered
              refine hmapped.offer hturn hlive hwait hclear (fun x hx => ?_) hread hover
                fun x hx => ?_
              · rw [htransition] at hx
                cases hx
              · rw [mapped_of_mapRequest hx]
                rfl

theorem Ordered.drain (h : s.Ordered) (hb : Budget i s.queue) (tool : Bool)
    (hturn : s.turn = some turn) (hreader : s.reader = .idle)
    (husable : (s.drain i tool turn).usable = true) : (s.drain i tool turn).Ordered := by
  unfold Session.drain at husable ⊢
  split
  · rename_i next htransition
    have horderly := h.orderly
    rw [hturn, hreader] at horderly
    have hin := horderly.inTurn turn rfl
    have hlive := hin.live nofun nofun
    have hactive := hin.active hlive
    refine ⟨horderly.moved rfl nofun (Or.inl rfl) ?_, h.bound_of_turn hturn⟩
    refine hin.goes_on nofun rfl rfl hlive (fun _ he => he) ⟨nofun, nofun⟩ nofun ?_
    refine
      { hactive with
        order := fun hwait _ => hactive.order hwait rfl
        clear := ?_
        single := fun _ _ hid => by cases hid
        ready := ?_
        maps := nofun }
    · rintro (hp | ⟨_, hid⟩)
      · cases next with
        | none => exact absurd rfl hp
        | some id => exact hactive.clear (Or.inr ⟨id, htransition⟩)
      · cases hid
    · rintro id (ho | hid)
      · cases next with
        | none => cases ho
        | some id' =>
          cases ho
          exact hactive.ready id (Or.inr htransition)
      · cases hid
  · rename_i htransition
    split
    · exact h
    · rename_i entry hnext
      simp only [htransition, hnext] at husable
      exact h.process hb tool hturn hreader htransition hnext husable

/-- A permission that is mapped while the turn waits for nothing. -/
theorem Ordered.mapPermission (h : s.Ordered) (hturn : s.turn = some turn)
    (hreader : s.reader = .mapping id) (husable : (s.mapPermission i id turn).usable = true) :
    (s.mapPermission i id turn).Ordered := by
  have hin := h.orderly.inTurn turn hturn
  rw [hreader] at hin
  have hlive := hin.live (by simp) (by simp)
  have hactive := hin.active hlive
  have hprepares : (Reader.mapping id).prepares ≠ none := by simp [Reader.prepares]
  obtain ⟨hwait, hclear⟩ := hactive.clear (Or.inl hprepares)
  have htransition := hactive.single hprepares
  have hread : s.reader.withdraws = none := by rw [hreader]; rfl
  have hover : s.reader ≠ .joining ∧ s.reader ≠ .done := by simp [hreader]
  unfold Session.mapPermission at husable ⊢
  split
  · exact h.plain hturn hread hover rfl
  · rename_i r hfind
    simp only [hfind] at husable
    split
    · exact h.plain hturn hread hover rfl
    · rename_i hcond
      simp only [hcond] at husable
      split
      · rename_i error hmap
        simp only [hmap, Bool.false_eq_true, if_false, fail_usable] at husable
      · rename_i permission _
        have hkind : (Offered.permission permission : Offered Flow).isPermission = true ↔
            r.kind = .permission := by
          obtain ⟨hr, hid⟩ := mem_of_find hfind
          obtain ⟨x, hx, hxid, hxkind⟩ := hactive.maps id rfl
          rw [h.orderly.eq_of_id hx hr (hxid.trans hid.symm)] at hxkind
          simp [Offered.isPermission, hxkind]
        have hmapped := h.mapRequest hturn hlive hwait hfind hkind
        have hfound : ∀ x, (s.mapRequest id (.permission permission)).find id = some x →
            x.mapped.isSome = true := by
          intro x hx
          rw [mapped_of_mapRequest hx]
          rfl
        split
        · -- the warning comes first, and the request stays mapped meanwhile
          have horderly := hmapped.orderly
          rw [show (s.mapRequest id (.permission permission)).turn = some turn from hturn] at horderly
          refine ⟨?_, hmapped.bound⟩
          show Orderly _ _ _ s.turn _ _
          rw [hturn]
          have hin' := horderly.inTurn turn rfl
          have hactive' := hin'.active hlive
          refine horderly.moved (hread ▸ rfl) (fun _ hr => by cases hr) (Or.inl rfl) ?_
          refine hin'.goes_on hover.2 rfl rfl hlive (fun _ he => he) (by simp)
            (fun _ hr => by cases hr) ?_
          refine
            { hactive' with
              order := fun hwait' _ => hactive'.order hwait' hread
              clear := fun _ => ⟨hwait, hclear⟩
              single := fun _ => htransition
              ready := ?_
              maps := fun _ hr => by cases hr }
          rintro x (ho | hx)
          · obtain rfl := Option.some.inj ho
            obtain ⟨hr, hid⟩ := mem_of_find hfind
            exact ⟨_, Orderly.mem_change.2 ⟨r, hr, Or.inl ⟨hid, rfl⟩⟩, hid, rfl⟩
          · exact absurd hx (htransition x)
        · exact hmapped.offer hturn hlive hwait hclear htransition hread hover hfound

theorem Ordered.release (h : s.Ordered) (hb : Budget i s.queue) {t : Nat}
    (ht : s.reader.withdraws ≠ some t) :
    ({ s with queue := s.queue.release t } : Session Params Flow Answers Content).Ordered :=
  ⟨h.orderly.release hb.exact ht, h.bound⟩

/-- The reader offers the request it has prepared. -/
theorem Ordered.offers (h : s.Ordered) (hturn : s.turn = some turn)
    (hlive : turn.terminal = false) (hoffers : s.reader.offers = some id) :
    (s.offerUnlessAnswered id turn).Ordered := by
  have hin := h.orderly.inTurn turn hturn
  have hactive := hin.active hlive
  have hplace : s.reader.prepares ≠ none ∧ s.reader.withdraws = none ∧
      s.reader ≠ .joining ∧ s.reader ≠ .done := by
    cases hreader : s.reader with
    | warning _ => exact ⟨nofun, rfl, nofun, nofun⟩
    | changing next =>
      rw [hreader] at hoffers
      obtain rfl : next = some id := hoffers
      exact ⟨nofun, rfl, nofun, nofun⟩
    | _ => rw [hreader] at hoffers; cases hoffers
  obtain ⟨hprepares, hread, hover⟩ := hplace
  obtain ⟨hwait, hclear⟩ := hactive.clear (Or.inl hprepares)
  refine h.offer hturn hlive hwait hclear (hactive.single hprepares) hread hover fun r hfind => ?_
  obtain ⟨hr, hid⟩ := mem_of_find hfind
  obtain ⟨x, hx, hxid, hmapped⟩ := hactive.ready id (Or.inl hoffers)
  rw [← h.orderly.eq_of_id hx hr (hxid.trans hid.symm)]
  exact hmapped

/-- The notice is emitted: the wait for its request ends. -/
theorem Ordered.announced (h : s.Ordered) (hturn : s.turn = some turn)
    (hreader : s.reader = .withdrawing ticket id) :
    ({ s.endWait id with reader := .resuming ticket } :
      Session Params Flow Answers Content).Ordered := by
  have horderly := h.orderly
  rw [hturn, hreader] at horderly
  have hin := horderly.inTurn turn rfl
  have hlive := hin.live nofun nofun
  have hactive := hin.active hlive
  obtain ⟨entry, he, -, hn⟩ := horderly.reading ticket rfl
  have hnone : ∀ r ∈ s.requests, r.noticeable = false := by
    intro r hr
    cases hnr : r.noticeable with
    | false => rfl
    | true =>
      have hquiet := horderly.quiet r hr hnr entry he
      rw [hn] at hquiet
      cases hquiet
  rw [endWait_eq]
  refine ⟨?_, h.bound_of_turn hturn⟩
  rw [hturn]
  refine horderly.moved rfl nofun (Or.inr rfl) ?_
  have hfields : ∀ turn' : Turn,
      turn' = (if turn.waiting = some id then { turn with waiting := none } else turn) →
      turn'.nativeSettled = turn.nativeSettled ∧ turn'.terminal = turn.terminal ∧
        turn'.sourceSettled = turn.sourceSettled ∧ turn'.transition = turn.transition ∧
          (turn'.waiting = none ∨ turn'.waiting = turn.waiting) := by
    intro turn' heq
    rw [heq]
    split
    · exact ⟨rfl, rfl, rfl, rfl, Or.inl rfl⟩
    · exact ⟨rfl, rfl, rfl, rfl, Or.inr rfl⟩
  obtain ⟨hsettled, hterminal, hsource, htransition, hwaiting⟩ := hfields _ rfl
  refine hin.goes_on nofun hsettled hsource (hterminal.trans hlive) (fun _ he => he) ⟨nofun, nofun⟩
    nofun ?_
  refine
    { waits := fun r hr hn' => absurd hn' (by simp [hnone r hr])
      waited := ?_
      order := fun _ hread => by cases hread
      clear := ?_
      single := fun hp => absurd rfl hp
      ready := ?_
      maps := nofun }
  · intro x hx
    rcases hwaiting with hw | hw
    · rw [hw] at hx
      cases hx
    · exact hactive.waited x (hw ▸ hx)
  · rintro (hp | htrans)
    · exact absurd rfl hp
    · rw [htransition] at htrans
      obtain ⟨hw, hclear⟩ := hactive.clear (Or.inr htrans)
      rw [hclear entry he] at hn
      cases hn
  · rintro x (ho | hx)
    · cases ho
    · exact hactive.ready x (Or.inr (htransition ▸ hx))

/-- The entry of the notice is released: no notice is left. -/
theorem Ordered.resumed (h : s.Ordered) (hb : Budget i s.queue) (hturn : s.turn = some turn)
    (hreader : s.reader = .resuming ticket) :
    ({ s with reader := .idle, queue := s.queue.release ticket } :
      Session Params Flow Answers Content).Ordered := by
  have horderly := h.orderly
  rw [hturn, hreader] at horderly
  have hin := horderly.inTurn turn rfl
  have hlive := hin.live nofun nofun
  have hactive := hin.active hlive
  obtain ⟨notice, he, hticket, hn⟩ := horderly.reading ticket rfl
  have hgone : ∀ entry ∈ (s.queue.release ticket).retained, entry.value.notice = false := by
    intro entry hentry
    rw [SessionQueue.retained_release, List.mem_filter] at hentry
    cases hno : entry.value.notice with
    | false => rfl
    | true =>
      have hsame := (horderly.oneNotice entry hentry.1 notice he hno hn).trans hticket
      exact absurd hsame (by simpa using hentry.2)
  refine ⟨?_, h.bound⟩
  rw [hturn]
  refine horderly.released ?_ rfl ?_
  · intro entry hentry hne hno
    refine absurd (hgone entry ?_) (by simp [hno])
    rw [SessionQueue.retained_release, List.mem_filter]
    exact ⟨hentry, by simpa using hne⟩
  · refine hin.goes_on nofun rfl rfl hlive (fun entry hentry => List.mem_of_mem_filter
      (SessionQueue.retained_release s.queue ticket ▸ hentry)) ⟨nofun, nofun⟩ nofun ?_
    refine
      { hactive with
        order := fun _ _ => List.pairwise_of_forall_mem_list fun a _ b hb' _ =>
          hgone b ((hb.exact.release ticket).entries.subset hb')
        clear := ?_
        single := fun hp => absurd rfl hp
        ready := ?_
        maps := nofun }
    · rintro (hp | htrans)
      · exact absurd rfl hp
      · exact ⟨(hactive.clear (Or.inr htrans)).1, hgone⟩
    · rintro x (ho | hx)
      · cases ho
      · exact hactive.ready x (Or.inr hx)

/-- The terminal message was read: its entry is released, and the turn is over. -/
theorem Ordered.completed (h : s.Ordered) (hb : Budget i s.queue) (hturn : s.turn = some turn)
    (hreader : s.reader = .completing ticket) :
    ({ s.setTurn { turn with terminal := true, waiting := none } with
        reader := .joining
        queue := s.queue.release ticket } : Session Params Flow Answers Content).Ordered := by
  have horderly := h.orderly
  rw [hturn, hreader] at horderly
  have hin := horderly.inTurn turn rfl
  refine ⟨?_, h.bound_of_turn hturn⟩
  refine horderly.released ?_ rfl ?_
  · intro entry hentry hne hno
    rcases horderly.notices entry hentry hno with hmem | hread
    · rw [hb.exact.entries_release]
      exact List.mem_filter.2 ⟨hmem, by simpa using hne⟩
    · cases hread
  · refine
      { settled := ?_
        finished := fun _ => Or.inl rfl
        joining := fun _ => rfl
        settles := fun _ => hin.settles (Or.inr ⟨ticket, rfl⟩)
        source := fun hs => nomatch (hin.source hs).1
        active := nofun }
    intro entry hentry hterminal
    rw [SessionQueue.retained_release, List.mem_filter] at hentry
    have hsame := horderly.ending ticket rfl entry hentry.1 hterminal
    exact absurd hsame (by simpa using hentry.2)

/-- Every request of the turn has left the transport: the source of the turn is settled. -/
theorem Ordered.joined (h : s.Ordered) (hturn : s.turn = some turn)
    (hreader : s.reader = .joining) :
    (if s.retainedSize = 0 then
      { s.setTurn { turn with sourceSettled := true } with reader := .done } else s).Ordered := by
  split
  · rename_i hsize
    have horderly := h.orderly
    rw [hturn, hreader] at horderly
    have hin := horderly.inTurn turn rfl
    have hterminal := hin.joining (Or.inl rfl)
    refine ⟨horderly.moved rfl nofun (Or.inl rfl) ?_, h.bound_of_turn hturn⟩
    refine
      { hin with
        finished := fun _ => Or.inr rfl
        joining := fun _ => hterminal
        settles := fun _ => hin.settles (Or.inl hterminal)
        source := fun _ => ⟨rfl, fun r hr => ?_⟩
        active := fun hno => absurd hterminal (by simpa using hno) }
    have hnil := List.length_eq_zero_iff.1 hsize
    have hnot := List.filter_eq_nil_iff.1 hnil r hr
    simpa using hnot
  · exact h

theorem Ordered.advance (h : s.Ordered) (hb : Budget i s.queue) (tool : Bool)
    (husable : (s.advance i tool).usable = true) : (s.advance i tool).Ordered := by
  unfold Session.advance at husable ⊢
  split
  · exact h
  · rename_i turn hturn
    simp only [hturn] at husable
    split
    · exact h
    · rename_i hcond
      simp only [hcond, if_false, Bool.false_eq_true] at husable
      have horderly := h.orderly
      rw [hturn] at horderly
      have hin := horderly.inTurn turn rfl
      have hlive := hin.live
      split
      case h_1 | h_2 => exact h
      case h_3 hreader | h_5 hreader | h_10 _ hreader | h_11 _ hreader =>
        exact h.plain hturn (by rw [hreader]; rfl) (by rw [hreader]; exact ⟨nofun, nofun⟩) rfl
      case h_4 hreader =>
        simp only [hreader] at husable
        exact h.drain hb tool hturn hreader husable
      case h_6 _ hreader | h_9 _ hreader =>
        refine h.offers hturn (hlive (by rw [hreader]; nofun) (by rw [hreader]; nofun)) ?_
        rw [hreader]
        rfl
      case h_7 ticket hreader =>
        have hread : s.reader.withdraws = none := by rw [hreader]; rfl
        have hreleased := h.release hb (t := ticket) (by rw [hread]; nofun)
        exact hreleased.plain hturn hread (by
          rw [hreader]
          exact ⟨nofun, nofun⟩) rfl
      case h_8 id hreader =>
        simp only [hreader] at husable
        exact h.mapPermission hturn hreader husable
      case h_12 ticket id hreader => exact h.announced hturn hreader
      case h_13 ticket hreader => exact h.resumed hb hturn hreader
      case h_14 ticket hreader => exact h.completed hb hturn hreader
      case h_15 hreader => exact h.joined hturn hreader

/-! ## Events after the end -/

end Session

open Session

/-- What every state of a session keeps: the budget, and the order while it is usable. -/
structure Session.Kept (i : Interactions Params Flow Answers Content)
    (s : Session Params Flow Answers Content) : Prop where
  budget : Budget i s.queue
  ordered : s.usable = true → s.Ordered

end Provider

end AgentSdk
