/-!
# Results with errors

Rules for taking a successful run of an `Except` computation apart.  A guard
that raises an error is `failIf`; a successful computation passed every guard
on its way, and each rule below reads one of them off.

## Main results

* `bind_eq_ok` — a sequence succeeds when both parts do.
* `failIf_eq_ok` — a guard succeeds when its condition fails.
* `foldlM_ok_mem`, `foldlM_ok_read` — what a successful fold says about each
  element, and what it has accumulated.
* `foldlM_ok_map` — a fold that follows another one.
-/

namespace AgentSdk.Outcome

variable {ε α β : Type}

/-- Raise an error when a condition holds. -/
def failIf (c : Prop) [Decidable c] (e : ε) : Except ε Unit := if c then .error e else .ok ()

@[simp] theorem failIf_eq_ok {c : Prop} [Decidable c] {e : ε} {u : Unit} :
    failIf c e = .ok u ↔ ¬c := by
  unfold failIf
  split <;> simp_all

theorem failIf_of_not {c : Prop} [Decidable c] (e : ε) (h : ¬c) : failIf c e = .ok () := by
  simp [failIf, h]

theorem failIf_of {c : Prop} [Decidable c] (e : ε) (h : c) : failIf c e = .error e := by
  simp [failIf, h]

theorem bind_eq_ok {x : Except ε α} {f : α → Except ε β} {b : β} :
    (x >>= f) = .ok b ↔ ∃ a, x = .ok a ∧ f a = .ok b := by
  cases x with
  | error | ok => simp [bind, Except.bind]

theorem bind_error {x : Except ε α} {f : α → Except ε β} {e : ε} :
    (x >>= f) = .error e ↔ x = .error e ∨ ∃ a, x = .ok a ∧ f a = .error e := by
  cases x with
  | error | ok => simp [bind, Except.bind]

@[simp] theorem ok_bind (a : α) (f : α → Except ε β) :
    ((Except.ok a : Except ε α) >>= f) = f a := rfl

@[simp] theorem error_bind (e : ε) (f : α → Except ε β) :
    ((Except.error e : Except ε α) >>= f) = .error e := rfl

@[simp] theorem pure_eq_ok (a : α) : (pure a : Except ε α) = .ok a := rfl

theorem failIf_bind {c : Prop} [Decidable c] {e : ε} {f : Unit → Except ε β} (h : ¬c) :
    (failIf c e >>= f) = f () := by
  rw [failIf_of_not e h, ok_bind]

/-- A guard in front of a computation: the computation runs when the condition
fails. -/
theorem failIf_bind_eq_ok {c : Prop} [Decidable c] {e : ε} {f : Unit → Except ε β} {b : β} :
    (failIf c e >>= f) = .ok b ↔ ¬c ∧ f () = .ok b := by
  rw [bind_eq_ok]
  constructor
  · rintro ⟨u, hguard, hrest⟩
    exact ⟨failIf_eq_ok.1 hguard, hrest⟩
  · rintro ⟨hguard, hrest⟩
    exact ⟨(), failIf_eq_ok.2 hguard, hrest⟩

/-- A check of every element succeeds when each check does. -/
theorem forM_eq_ok {f : α → Except ε Unit} {l : List α} {u : Unit} :
    l.forM f = .ok u ↔ ∀ a ∈ l, f a = .ok () := by
  induction l with
  | nil => exact ⟨fun _ _ h => absurd h List.not_mem_nil, fun _ => rfl⟩
  | cons a l ih =>
    have hcons : (a :: l).forM f = (f a >>= fun _ => l.forM f) := rfl
    rw [hcons, bind_eq_ok, List.forall_mem_cons]
    constructor
    · rintro ⟨_, hhead, htail⟩
      exact ⟨hhead, ih.1 htail⟩
    · rintro ⟨hhead, htail⟩
      exact ⟨_, hhead, ih.2 htail⟩

/-- A successful fold succeeded at each element. -/
theorem foldlM_ok_mem {f : β → α → Except ε β} {l : List α} {b c : β}
    (h : l.foldlM f b = .ok c) : ∀ a ∈ l, ∃ x y, f x a = .ok y := by
  induction l generalizing b with
  | nil => simp
  | cons a l ih =>
    obtain ⟨d, hhead, htail⟩ := bind_eq_ok.1 (show (f b a >>= fun d => l.foldlM f d) = .ok c from h)
    intro x hx
    rcases List.mem_cons.1 hx with hxa | hmem
    · exact ⟨b, d, hxa ▸ hhead⟩
    · exact ih htail x hmem

/-- What a fold appends to a list that it carries. -/
theorem foldlM_ok_read {γ : Type} {f : β → α → Except ε β} (read : β → List γ)
    (part : α → List γ) {l : List α} (hstep : ∀ x, ∀ a ∈ l, ∀ y, f x a = .ok y → read y = read x ++ part a) {b c : β}
    (h : l.foldlM f b = .ok c) : read c = read b ++ l.flatMap part := by
  induction l generalizing b with
  | nil =>
    cases h
    simp
  | cons a l ih =>
    obtain ⟨d, hhead, htail⟩ := bind_eq_ok.1 (show (f b a >>= fun d => l.foldlM f d) = .ok c from h)
    have hd : read d = read b ++ part a := hstep b a (by simp) d hhead
    rw [ih (fun x y hy => hstep x y (by simp [hy])) htail, hd, List.flatMap_cons,
      List.append_assoc]

/-- What every step keeps holds of the result. -/
theorem foldlM_ok_invariant {f : β → α → Except ε β} {I : β → Prop}
    (step : ∀ x a y, I x → f x a = .ok y → I y) {l : List α} {b c : β} (hb : I b)
    (h : l.foldlM f b = .ok c) : I c := by
  induction l generalizing b with
  | nil =>
    cases h
    exact hb
  | cons a l ih =>
    obtain ⟨d, hhead, htail⟩ := bind_eq_ok.1 (show (f b a >>= fun d => l.foldlM f d) = .ok c from h)
    exact ih (step b a d hb hhead) htail

/-- A successful fold, followed step by step by another one. -/
theorem foldlM_ok_map {α' : Type} {f : β → α → Except ε β} {f' : β → α' → Except ε β}
    (map : α → α') (state : β → β) {l : List α}
    (hstep : ∀ x, ∀ a ∈ l, ∀ y, f x a = .ok y → f' (state x) (map a) = .ok (state y)) {b c : β}
    (h : l.foldlM f b = .ok c) : (l.map map).foldlM f' (state b) = .ok (state c) := by
  induction l generalizing b with
  | nil =>
    cases h
    rfl
  | cons a l ih =>
    obtain ⟨d, hhead, htail⟩ := bind_eq_ok.1 (show (f b a >>= fun d => l.foldlM f d) = .ok c from h)
    have hrest := ih (fun x y hy => hstep x y (by simp [hy])) htail
    exact bind_eq_ok.2 ⟨state d, hstep b a (by simp) d hhead, hrest⟩

end AgentSdk.Outcome
