import AgentSdk.Lib.JsonText
import AgentSdk.Sandbox.LedgerSet

/-!
# Link validation

Every recorded link is resolved over the records alone: a work list of
components is walked, and a link met on the way puts its target in front of it.

## Main results

* `linkLoop_settles` — the loop over a spill store ends as the loop over the
  records does.
* `validateSymlinks_settles` — the same for all records of a ledger.
-/

namespace AgentSdk.Sandbox

open AgentSdk.Text AgentSdk.Paced

/-- A computation that only has a result, in any monad with errors. -/
def liftResult {m : Type → Type} [Monad m] [MonadExcept SandboxError m] {α : Type}
    (r : Except SandboxError α) : m α :=
  match r with
  | .ok a => pure a
  | .error e => throw e

section Model

variable {m : Type → Type} [Monad m] [MonadExcept SandboxError m]

def invalidLink (path reason : JsString) : SandboxError :=
  .validation [js "path"] (js "Symbolic link " ++ path ++ js ": " ++ reason)

/-- The bytes of components, each with a separator. -/
def workingBytes (components : List JsString) : Nat :=
  (components.map fun item => utf8Length item + 1).sum

/-- A work list within the declared bounds. -/
def WorkingBound (resolved remaining : List JsString) : Prop :=
  resolved.length + remaining.length ≤ Limits.maxSymlinkResolutionComponents ∧
    workingBytes resolved + workingBytes remaining ≤ Limits.maxSymlinkResolutionBytes

instance (resolved remaining : List JsString) : Decidable (WorkingBound resolved remaining) := by
  unfold WorkingBound
  infer_instance

def workingBound (path : JsString) (resolved remaining : List JsString) :
    Except SandboxError Unit :=
  Outcome.failIf (¬WorkingBound resolved remaining)
    (invalidLink path (js "resolution exceeds its bounded path working set"))

/-- A resolved path within the common path envelope. -/
def WithinEnvelope (resolved : List JsString) : Prop :=
  resolved.length ≤ Limits.maxPathSegments ∧
    utf8Length ([slash].intercalate resolved) ≤ Limits.maxPathBytes

instance (resolved : List JsString) : Decidable (WithinEnvelope resolved) := by
  unfold WithinEnvelope
  infer_instance

/-- `JSON.stringify([candidate, remaining])`. -/
def stateKey (candidate : JsString) (remaining : List JsString) : JsString :=
  Json.stringify (.arr [.str candidate, .arr (remaining.map Json.str)])

def linkLoop (lookup : SandboxRelativePath → m (Option MetadataRecord)) (path : JsString)
    (rootDepth : Nat) (resolved remaining : List JsString) (seen : List JsString)
    (expansions : Nat) : m Unit :=
  match remaining with
  | [] => pure ()
  | component :: remaining =>
    if component = [] ∨ component = js "." then
      linkLoop lookup path rootDepth resolved remaining seen expansions
    else if component = js ".." then
      if resolved.length ≤ rootDepth then
        throw (invalidLink path (js "target escapes the selected publication root"))
      else linkLoop lookup path rootDepth resolved.dropLast remaining seen expansions
    else if ¬WithinEnvelope (resolved ++ [component]) then
      throw (invalidLink path (js "resolved path exceeds the common path envelope"))
    else do
      let candidate := [slash].intercalate (resolved ++ [component])
      let observed ← liftResult (parseSandboxRelativePath candidate) >>= lookup
      match observed with
      | some (.symlink _ target) =>
        if seen.contains (stateKey candidate remaining) then pure ()
        else if _h : Limits.maxSymlinkExpansions < expansions + 1 then
          throw (invalidLink path (js "resolution exceeds forty symbolic-link expansions"))
        else do
          liftResult (workingBound path resolved (target.text.splitOn slash ++ remaining))
          linkLoop lookup path rootDepth resolved (target.text.splitOn slash ++ remaining)
            (stateKey candidate remaining :: seen) (expansions + 1)
      | some (.file _) =>
        if remaining ≠ [] then
          throw (invalidLink path (js "target traverses a regular-file member"))
        else linkLoop lookup path rootDepth (resolved ++ [component]) remaining seen expansions
      | _ => linkLoop lookup path rootDepth (resolved ++ [component]) remaining seen expansions
  termination_by (Limits.maxSymlinkExpansions - expansions, remaining.length)
  decreasing_by
    -- Every step drops a component; an expansion uses up one of those allowed.
    · exact Prod.Lex.right _ (Nat.lt_succ_self _)
    · exact Prod.Lex.right _ (Nat.lt_succ_self _)
    · exact Prod.Lex.left _ _ (by omega)
    · exact Prod.Lex.right _ (Nat.lt_succ_self _)
    · exact Prod.Lex.right _ (Nat.lt_succ_self _)

def validateLink (lookup : SandboxRelativePath → m (Option MetadataRecord))
    (path : SandboxRelativePath) (target : SandboxSymlinkTarget)
    (root : Option SandboxRelativePath) : m Unit := do
  let rootDepth := (root.map fun root => root.segments.length).getD 0
  let resolved := path.segments.dropLast
  let remaining := target.text.splitOn slash
  liftResult (workingBound path.text resolved remaining)
  linkLoop lookup path.text rootDepth resolved remaining [stateKey path.text []] 1

end Model

/-! ### All links of a ledger -/

/-- The test of a record against the publication directory. -/
def rejectsRoot (root : Option SandboxRelativePath) (record : MetadataRecord) : Bool :=
  match root with
  | none => false
  | some root =>
    if record.path = root then record.kind != .directory
    else !(root.text ++ [slash]).isPrefixOf record.path.text

def outsideError : SandboxError :=
  .validation [js "path"] (js "Metadata lies outside its selected publication directory.")

/-- One record: inside the root, and confined when it is a link. -/
def checkRecord {m : Type → Type} [Monad m] [MonadExcept SandboxError m]
    (lookup : SandboxRelativePath → m (Option MetadataRecord))
    (root : Option SandboxRelativePath) (record : MetadataRecord) : m Unit :=
  if rejectsRoot root record then throw outsideError
  else
    match record with
    | .symlink path target => validateLink lookup path target root
    | _ => pure ()

namespace Ledger

variable (progress : Progress)

def linksLoop (ledger : Ledger) (root : Option SandboxRelativePath) :
    Nat → RunCursor → SpillM Unit
  | 0, _ => throw .exhausted
  | rounds + 1, cursor => do
      let (record, cursor) ← readRecord progress ledger.files.data.1 cursor
      match record with
      | none => pure ()
      | some record => do
          let record ← Paced.lift (decodeRecord record)
          checkRecord (lookup progress ledger) root record
          linksLoop ledger root rounds cursor

def validateSymlinks (ledger : Ledger) (root : Option SandboxRelativePath) :
    SpillM (LedgerCall Unit) :=
  if ledger.phase ≠ .sealed then
    ledger.reject (js "Link validation requires a sealed ledger without a replay owner.")
  else
    ledger.enter do
      linksLoop progress ledger root (ledger.files.data.1.length + 1) ⟨0, ledger.state.stop⟩
      pure (ledger, ())

end Ledger

/-! ### The same over the records alone -/

/-- The record of a path among records. -/
def recordAt (records : List MetadataRecord) (path : SandboxRelativePath) :
    Except SandboxError (Option MetadataRecord) :=
  .ok (records.find? fun record => record.path = path)

theorem settles_liftResult {α : Type} (r : Except SandboxError α) :
    Settles (liftResult r : SpillM α) r := by
  cases r with
  | error e => exact Settles.throw e
  | ok a => exact Settles.pure a

theorem liftResult_eq {α : Type} (r : Except SandboxError α) :
    (liftResult r : Except SandboxError α) = r := by
  cases r <;> rfl

variable {lookup : SandboxRelativePath → SpillM (Option MetadataRecord)}
  {find : SandboxRelativePath → Except SandboxError (Option MetadataRecord)}

/-- The loop over a spill store ends as the loop over the records does. -/
theorem linkLoop_settles (hlookup : ∀ p, Settles (lookup p) (find p)) (path : JsString)
    (rootDepth : Nat) (resolved remaining seen : List JsString) (expansions : Nat) :
    Settles (linkLoop lookup path rootDepth resolved remaining seen expansions)
      (linkLoop find path rootDepth resolved remaining seen expansions) := by
  induction resolved, remaining, seen, expansions using linkLoop.induct rootDepth with
  | case1 resolved seen expansions =>
    rw [linkLoop, linkLoop]
    exact Settles.pure ()
  | case2 resolved seen expansions component remaining hskip ih =>
    rw [linkLoop, linkLoop, if_pos hskip, if_pos hskip]
    exact ih
  | case3 resolved seen expansions remaining hdepth hname =>
    rw [linkLoop, linkLoop, if_neg hname, if_neg hname, if_pos rfl, if_pos rfl, if_pos hdepth,
      if_pos hdepth]
    exact Settles.throw _
  | case4 resolved seen expansions remaining hdepth hname ih =>
    rw [linkLoop, linkLoop, if_neg hname, if_neg hname, if_pos rfl, if_pos rfl, if_neg hdepth,
      if_neg hdepth]
    exact ih
  | case5 resolved seen expansions component remaining hname hparent henvelope =>
    rw [linkLoop, linkLoop, if_neg hname, if_neg hname, if_neg hparent, if_neg hparent,
      if_pos henvelope, if_pos henvelope]
    exact Settles.throw _
  | case6 resolved seen expansions component remaining hname hparent henvelope _ ih₁ ih₂ =>
    rw [linkLoop, linkLoop, if_neg hname, if_neg hname, if_neg hparent, if_neg hparent,
      if_neg henvelope, if_neg henvelope]
    have hobserved : Settles
        (liftResult (parseSandboxRelativePath ([slash].intercalate (resolved ++ [component]))) >>=
          lookup)
        (liftResult (parseSandboxRelativePath ([slash].intercalate (resolved ++ [component]))) >>=
          find) := by
      rw [liftResult_eq]
      exact (settles_liftResult _).seq fun p _ => hlookup p
    refine hobserved.seq fun observed _ => ?_
    match observed with
    | none => exact ih₂
    | some (.directory _) => exact ih₂
    | some (.file _) =>
      dsimp only
      split
      · exact Settles.throw _
      · exact ih₂
    | some (.symlink _ target) =>
      dsimp only
      split
      · exact Settles.pure ()
      · split
        · exact Settles.throw _
        · rename_i hexpansions
          rw [liftResult_eq]
          exact (settles_liftResult _).seq fun _ _ => ih₁ target hexpansions

theorem validateLink_settles (hlookup : ∀ p, Settles (lookup p) (find p))
    (path : SandboxRelativePath) (target : SandboxSymlinkTarget)
    (root : Option SandboxRelativePath) :
    Settles (validateLink lookup path target root) (validateLink find path target root) := by
  unfold validateLink
  dsimp only
  rw [liftResult_eq]
  exact (settles_liftResult _).seq fun _ _ => linkLoop_settles hlookup _ _ _ _ _ _

theorem checkRecord_settles (hlookup : ∀ p, Settles (lookup p) (find p))
    (root : Option SandboxRelativePath) (record : MetadataRecord) :
    Settles (checkRecord lookup root record) (checkRecord find root record) := by
  unfold checkRecord
  split
  · exact Settles.throw _
  · cases record with
    | file | directory => exact Settles.pure ()
    | symlink path target => exact validateLink_settles hlookup path target root

namespace Ledger

variable (progress : Progress)

theorem linksLoop_settles {ledger : Ledger} {sorted : List MetadataRecord} (h : Sealed ledger sorted)
    (hsorted : Ascending sorted) (root : Option SandboxRelativePath)
    (records : List MetadataRecord) :
    ∀ (cursor : RunCursor) (rounds : Nat),
      At ledger.files.data.1 cursor (records.map encodeRecord) → records.length < rounds →
      Settles (linksLoop progress ledger root rounds cursor)
        (records.forM (checkRecord (recordAt sorted) root)) := by
  induction records with
  | nil =>
    intro cursor rounds hat hrounds
    obtain ⟨rounds, rfl⟩ : ∃ k, rounds = k + 1 := ⟨rounds - 1, by simp at hrounds; omega⟩
    obtain ⟨cursor', _, hread⟩ := readRecord_at progress hat (by simp) h.fits
    exact hread.bind (Settles.pure _)
  | cons record records ih =>
    intro cursor rounds hat hrounds
    obtain ⟨rounds, rfl⟩ : ∃ k, rounds = k + 1 := ⟨rounds - 1, by simp at hrounds; omega⟩
    obtain ⟨cursor', hat', hread⟩ := readRecord_at progress hat
      (valid_of_perm (List.Perm.refl _)) h.fits
    have hdecode : Settles (Paced.lift (decodeRecord (encodeRecord record))) (.ok record) := by
      rw [decodeRecord_encodeRecord]
      exact Settles.lift _
    have hnext := ih cursor' rounds hat' (by simp at hrounds; omega)
    have hlookup : ∀ p, Settles (lookup progress ledger p) (recordAt sorted p) :=
      lookup_settles progress h hsorted
    exact hread.bind (hdecode.bind
      ((checkRecord_settles hlookup root record).seq fun _ _ => hnext))

/-- Validating the links of a sealed ledger checks its records in order. -/
theorem validateSymlinks_settles {ledger : Ledger} {sorted : List MetadataRecord}
    (h : Sealed ledger sorted) (hsorted : Ascending sorted) (root : Option SandboxRelativePath) :
    ∃ ledger', Settles (validateSymlinks progress ledger root)
      (.ok (ledger', sorted.forM (checkRecord (recordAt sorted) root))) := by
  have hcount := h.count_le
  have hloop := linksLoop_settles progress h hsorted root sorted _
    (ledger.files.data.1.length + 1) h.at_start (by omega)
  rw [validateSymlinks, if_neg (by simp [h.phase])]
  cases hresult : sorted.forM (checkRecord (recordAt sorted) root) with
  | error e =>
    rw [hresult] at hloop
    exact ⟨_, enter_error _ hloop.bind_error⟩
  | ok u =>
    rw [hresult] at hloop
    exact ⟨ledger, enter_ok (hloop.bind (Settles.pure _))⟩

end Ledger

end AgentSdk.Sandbox
