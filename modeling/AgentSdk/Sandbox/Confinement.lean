import AgentSdk.Sandbox.Links

/-!
# Confinement of symbolic links

A walk resolves components one at a time from a directory, as POSIX path
resolution does: `..` leaves the last directory, a recorded link is replaced by
its target and a component without a record is an opaque name.  Validation runs
the walk of each link up to its end or to a state seen before.

## Main results

* `linkLoop_sound` — an accepted walk lives in a closed set of confined states.
* `linkLoop_refusal` — a refused walk leaves the root, passes through a file or
  exceeds a bound.
* `symlinks_confined` — both for every ledger that was finished.
-/

namespace AgentSdk.Sandbox

open AgentSdk.Text AgentSdk.Paced

/-! ### Walks -/

/-- A directory reached so far and the components still to be resolved. -/
structure Walk where
  dir : List JsString
  todo : List JsString
  deriving DecidableEq

/-- How a walk goes on. -/
inductive Onward where
  | done
  | notDirectory
  | aboveWorkspace
  | move (walk : Walk)
  | expand (walk : Walk)

/-- One component of the work list, over the records found at component lists. -/
def Walk.onward (entry : List JsString → Option MetadataRecord) (walk : Walk) : Onward :=
  match walk.todo with
  | [] => .done
  | component :: rest =>
    if component = [] ∨ component = js "." then .move ⟨walk.dir, rest⟩
    else if component = js ".." then
      if walk.dir = [] then .aboveWorkspace else .move ⟨walk.dir.dropLast, rest⟩
    else
      match entry (walk.dir ++ [component]) with
      | some (.symlink _ target) => .expand ⟨walk.dir, target.text.splitOn slash ++ rest⟩
      | some (.file _) =>
        if rest = [] then .move ⟨walk.dir ++ [component], rest⟩ else .notDirectory
      | _ => .move ⟨walk.dir ++ [component], rest⟩

/-- The record at a list of components. -/
def entryAt (records : List MetadataRecord) (segments : List JsString) : Option MetadataRecord :=
  records.find? fun record => record.path.segments = segments

section Walks

variable (entry : List JsString → Option MetadataRecord)

/-- One walk follows another. -/
def Follows (w w' : Walk) : Prop := w.onward entry = .move w' ∨ w.onward entry = .expand w'

/-- A walk is reached from another by some steps, of which `n` are expansions. -/
inductive Reaches (start : Walk) : Nat → Walk → Prop where
  | start : Reaches start 0 start
  | move {n : Nat} {w w' : Walk} : Reaches start n w → w.onward entry = .move w' →
      Reaches start n w'
  | expand {n : Nat} {w w' : Walk} : Reaches start n w → w.onward entry = .expand w' →
      Reaches start (n + 1) w'

/-- A state of a walk inside the root: the directory is the root or below it,
the next component does not leave the workspace, and no directory on the way is
itself a link, so that the parent of the directory is the one above it. -/
structure Confined (root : List JsString) (w : Walk) : Prop where
  inside : root <+: w.dir
  below : w.onward entry ≠ .aboveWorkspace
  plain : ∀ dir, dir <+: w.dir → dir ≠ [] → ∀ path target, entry dir ≠ some (.symlink path target)

/-- What the walk of a refused link runs into. -/
inductive Refusal (root : List JsString) (start : Walk) : Prop where
  | leaves {n : Nat} {w : Walk} : Reaches entry start n w →
      (w.onward entry = .aboveWorkspace ∨ ¬root <+: w.dir) → Refusal root start
  | file {n : Nat} {w : Walk} : Reaches entry start n w → w.onward entry = .notDirectory →
      Refusal root start
  | expansions {n : Nat} {w : Walk} : Reaches entry start n w →
      Limits.maxSymlinkExpansions < n + 1 → Refusal root start
  | envelope {n : Nat} {w : Walk} {component : JsString} {rest : List JsString} :
      Reaches entry start n w → w.todo = component :: rest →
      ¬WithinEnvelope (w.dir ++ [component]) → Refusal root start
  | workingSet {n : Nat} {w : Walk} : Reaches entry start n w → ¬WorkingBound w.dir w.todo →
      Refusal root start

end Walks

theorem Reaches.mem {entry : List JsString → Option MetadataRecord} {start w : Walk} {n : Nat}
    (h : Reaches entry start n w) {S : Walk → Prop} (hstart : S start)
    (hclosed : ∀ w, S w → ∀ w', Follows entry w w' → S w') : S w := by
  induction h with
  | start => exact hstart
  | move _ hmove ih => exact hclosed _ ih _ (Or.inl hmove)
  | expand _ hexpand ih => exact hclosed _ ih _ (Or.inr hexpand)

/-! ### Components -/

/-- Components as targets and paths hold them. -/
structure CleanComponent (component : JsString) : Prop where
  within : utf8Within component Limits.maxPathSegmentBytes = true
  safe : ∀ u ∈ component, isUnsafe u = false
  noSlash : slash ∉ component

/-- Components of a resolved directory. -/
structure CleanName (component : JsString) : Prop extends CleanComponent component where
  named : ¬(component = [] ∨ component = js ".")
  notParent : component ≠ js ".."

theorem CleanName.safeSegment {component : JsString} (h : CleanName component) :
    safeSegment component = true := by
  have hne : component ≠ [] := fun h' => h.named (Or.inl h')
  have hdot : component ≠ js "." := fun h' => h.named (Or.inr h')
  have hpos : 0 < component.length := List.length_pos_iff.2 hne
  simp only [Sandbox.safeSegment, Bool.and_eq_true, decide_eq_true_eq, bne_iff_ne]
  exact ⟨⟨⟨hpos, hdot⟩, h.notParent⟩, h.within⟩

theorem mem_join {segments : List JsString} {u : UInt16}
    (hu : u ∈ [slash].intercalate segments) : u = slash ∨ ∃ s ∈ segments, u ∈ s := by
  induction segments with
  | nil => simp at hu
  | cons s rest ih =>
    cases rest with
    | nil => exact Or.inr ⟨s, by simp, by simpa using hu⟩
    | cons t rest =>
      rw [List.intercalate_cons_cons, List.append_assoc, List.mem_append, List.mem_append] at hu
      rcases hu with hu | hu | hu
      · exact Or.inr ⟨s, by simp, hu⟩
      · exact Or.inl (by simpa using hu)
      · rcases ih hu with hslash | ⟨v, hv, huv⟩
        · exact Or.inl hslash
        · exact Or.inr ⟨v, by simp [hv], huv⟩

/-- Clean names within the envelope are the components of a path. -/
theorem parse_candidate {names : List JsString} (hne : names ≠ [])
    (hclean : ∀ c ∈ names, CleanName c) (henvelope : WithinEnvelope names) :
    ∃ path : SandboxRelativePath,
      parseSandboxRelativePath ([slash].intercalate names) = .ok path ∧ path.segments = names := by
  have hsplit : ([slash].intercalate names).splitOn slash = names :=
    List.splitOn_intercalate slash (fun c hc => (hclean c hc).noSlash) hne
  have hwellFormed : wellFormed ([slash].intercalate names) = true := by
    refine wellFormed_join (by decide) fun c hc => ?_
    have hwithin := (hclean c hc).within
    simp only [utf8Within, Bool.and_eq_true] at hwithin
    exact hwithin.1
  have hpos : 0 < ([slash].intercalate names).length := by
    refine List.length_pos_iff.2 fun hempty => ?_
    rw [hempty, List.splitOn_nil] at hsplit
    exact (hclean [] (by simp [← hsplit])).named (Or.inl rfl)
  have hvalid : relativePathSchema ([slash].intercalate names) = true := by
    simp only [relativePathSchema, safePath, safeSegments, utf8Within, hwellFormed, hsplit,
      Bool.true_and, Bool.and_eq_true, decide_eq_true_eq, List.all_eq_true, Bool.not_eq_true',
      List.any_eq_false]
    refine ⟨⟨⟨hpos, henvelope.2⟩, ?_⟩, henvelope.1, fun c hc => (hclean c hc).safeSegment⟩
    intro u hu
    rcases mem_join hu with rfl | ⟨c, hc, huc⟩
    · decide
    · simp [(hclean c hc).safe u huc]
  exact ⟨⟨_, hvalid⟩, by simp [parseSandboxRelativePath, hvalid], hsplit⟩

variable {c : JsString} {record : MetadataRecord}

theorem SandboxRelativePath.clean (path : SandboxRelativePath) (hc : c ∈ path.segments) :
    CleanName c := by
  have hsafe := path.safe_of_mem hc
  simp only [safeSegment, Bool.and_eq_true, decide_eq_true_eq, bne_iff_ne] at hsafe
  refine ⟨⟨hsafe.2, fun u hu => path.not_unsafe (Joined.mem_of_mem_splitOn hc hu),
    path.slash_not_mem hc⟩, ?_, hsafe.1.2⟩
  rintro (rfl | rfl)
  · exact absurd hsafe.1.1.1 (by simp)
  · exact hsafe.1.1.2 rfl

theorem SandboxSymlinkTarget.clean (target : SandboxSymlinkTarget)
    (hc : c ∈ target.text.splitOn slash) : CleanComponent c := by
  have h := target.valid
  simp only [symlinkTargetSchema, Bool.and_eq_true, Bool.not_eq_true', List.any_eq_false,
    List.all_eq_true] at h
  exact ⟨h.2 c hc, fun u hu => by simpa using h.1.1.2 u (Joined.mem_of_mem_splitOn hc hu),
    Joined.not_mem_of_mem_splitOn hc⟩

/-! ### The record a walk meets -/

theorem recordAt_entryAt {records : List MetadataRecord} {path : SandboxRelativePath} :
    recordAt records path = .ok (entryAt records path.segments) := by
  have hsame : (fun record : MetadataRecord => decide (record.path = path)) =
      fun record => decide (record.path.segments = path.segments) := by
    funext record
    exact decide_eq_decide.2 ⟨fun h => by rw [h], SandboxRelativePath.segments_inj⟩
  rw [recordAt, entryAt, hsame]

/-- Looking a clean candidate up gives the record at its components. -/
theorem observe_candidate {records : List MetadataRecord} {resolved : List JsString}
    {component : JsString} (hclean : ∀ c ∈ resolved ++ [component], CleanName c)
    (henvelope : WithinEnvelope (resolved ++ [component])) :
    (liftResult (parseSandboxRelativePath ([slash].intercalate (resolved ++ [component]))) >>=
        recordAt records : Except SandboxError (Option MetadataRecord)) =
      .ok (entryAt records (resolved ++ [component])) := by
  obtain ⟨path, hparse, hsegments⟩ := parse_candidate (by simp) hclean henvelope
  rw [hparse, ← hsegments, ← recordAt_entryAt]
  rfl

theorem stateKey_inj {c' : JsString} {r r' : List JsString} (h : stateKey c r = stateKey c' r') :
    c = c' ∧ r = r' := by
  have hvalue := Json.stringify_inj h
  simp only [Json.arr.injEq, List.cons.injEq, Json.str.injEq, and_true] at hvalue
  refine ⟨hvalue.1, List.map_injective_iff.2 ?_ hvalue.2⟩
  intro a b hab
  exact Json.str.inj hab

/-! ### Accepted walks -/

/-- Where the loop stands: a clean directory inside the root without links on
the way, and clean components to resolve. -/
structure Position (entry : List JsString → Option MetadataRecord) (root : List JsString)
    (w : Walk) : Prop where
  names : ∀ c ∈ w.dir, CleanName c
  components : ∀ c ∈ w.todo, CleanComponent c
  inside : root <+: w.dir
  plain : ∀ dir, dir <+: w.dir → dir ≠ [] → ∀ path target, entry dir ≠ some (.symlink path target)

/-- The states the loop has left behind: each is confined and leads to another
of them or to the current one, and a key seen belongs to an expansion whose
result is among them. -/
structure Trail (entry : List JsString → Option MetadataRecord) (root : List JsString)
    (visited : Walk → Prop) (current : Walk) (seen : List JsString) : Prop where
  confined : ∀ w, visited w → Confined entry root w
  closed : ∀ w, visited w → ∀ w', Follows entry w w' → visited w' ∨ w' = current
  keys : ∀ key ∈ seen, ∃ dir component rest path target,
    key = stateKey ([slash].intercalate (dir ++ [component])) rest ∧
    (∀ c ∈ dir ++ [component], CleanName c) ∧
    entry (dir ++ [component]) = some (.symlink path target) ∧
    (visited ⟨dir, target.text.splitOn slash ++ rest⟩ ∨
      Walk.mk dir (target.text.splitOn slash ++ rest) = current)

/-- Confined states that lead to no others. -/
def ClosedSet (entry : List JsString → Option MetadataRecord) (root : List JsString)
    (S : Walk → Prop) : Prop :=
  ∀ w, S w → Confined entry root w ∧ ∀ w', Follows entry w w' → S w'

section Sound

variable {records : List MetadataRecord} {root : List JsString} {visited : Walk → Prop}
  {current : Walk} {seen : List JsString}

variable {next w : Walk} {component : JsString} {dir rest : List JsString}

theorem Position.confined (h : Position (entryAt records) root w)
    (hbelow : w.onward (entryAt records) ≠ .aboveWorkspace) : Confined (entryAt records) root w :=
  ⟨h.inside, hbelow, h.plain⟩

/-- The set that ends a trail: its states and the current one. -/
theorem Trail.close (h : Trail (entryAt records) root visited current seen)
    (hcurrent : Confined (entryAt records) root current)
    (hnext : ∀ w', Follows (entryAt records) current w' → visited w' ∨ w' = current) :
    ClosedSet (entryAt records) root fun w => visited w ∨ w = current := by
  rintro w (hw | rfl)
  · exact ⟨h.confined w hw, h.closed w hw⟩
  · exact ⟨hcurrent, hnext⟩

/-- A trail goes on to the one state that follows the current one. -/
theorem Trail.extend (key : Option JsString)
    (h : Trail (entryAt records) root visited current seen)
    (hcurrent : Confined (entryAt records) root current)
    (hnext : ∀ w', Follows (entryAt records) current w' → w' = next)
    (hkey : ∀ k ∈ key, ∃ dir component rest path target,
      k = stateKey ([slash].intercalate (dir ++ [component])) rest ∧
      (∀ c ∈ dir ++ [component], CleanName c) ∧
      entryAt records (dir ++ [component]) = some (.symlink path target) ∧
      Walk.mk dir (target.text.splitOn slash ++ rest) = next) :
    Trail (entryAt records) root (fun w => visited w ∨ w = current) next (key.toList ++ seen) := by
  constructor
  · rintro w (hw | rfl)
    · exact h.confined w hw
    · exact hcurrent
  · rintro w (hw | rfl) w' hfollows
    · exact Or.inl (h.closed w hw w' hfollows)
    · exact Or.inr (hnext w' hfollows)
  · intro k hk
    rcases List.mem_append.1 hk with hnew | hold
    · obtain ⟨dir, component, rest, path, target, hk, hclean, hentry, hwalk⟩ :=
        hkey k (Option.mem_toList.1 hnew)
      exact ⟨dir, component, rest, path, target, hk, hclean, hentry, Or.inr hwalk⟩
    · obtain ⟨dir, component, rest, path, target, hk, hclean, hentry, hwalk⟩ := h.keys k hold
      exact ⟨dir, component, rest, path, target, hk, hclean, hentry, Or.inl hwalk⟩

theorem onward_skip (entry : List JsString → Option MetadataRecord) (dir rest : List JsString)
    (h : component = [] ∨ component = js ".") :
    (Walk.mk dir (component :: rest)).onward entry = .move ⟨dir, rest⟩ := by
  simp only [Walk.onward]
  rw [if_pos h]

theorem onward_parent (entry : List JsString → Option MetadataRecord) (dir rest : List JsString)
    (h : ¬(js ".." = [] ∨ js ".." = js ".")) :
    (Walk.mk dir (js ".." :: rest)).onward entry =
      if dir = [] then .aboveWorkspace else .move ⟨dir.dropLast, rest⟩ := by
  simp only [Walk.onward]
  rw [if_neg h, if_pos trivial]

theorem onward_name (entry : List JsString → Option MetadataRecord) (dir rest : List JsString)
    (h : ¬(component = [] ∨ component = js ".")) (hparent : ¬component = js "..") :
    (Walk.mk dir (component :: rest)).onward entry =
      match entry (dir ++ [component]) with
      | some (.symlink _ target) => .expand ⟨dir, target.text.splitOn slash ++ rest⟩
      | some (.file _) => if rest = [] then .move ⟨dir ++ [component], rest⟩ else .notDirectory
      | _ => .move ⟨dir ++ [component], rest⟩ := by
  simp only [Walk.onward]
  rw [if_neg h, if_neg hparent]

theorem follows_of_move {entry : List JsString → Option MetadataRecord}
    (h : w.onward entry = .move next) : ∀ w', Follows entry w w' → w' = next := by
  rintro w' (hmove | hexpand)
  · rw [h] at hmove
    exact (Onward.move.inj hmove).symm
  · rw [h] at hexpand
    cases hexpand

theorem follows_of_expand {entry : List JsString → Option MetadataRecord}
    (h : w.onward entry = .expand next) : ∀ w', Follows entry w w' → w' = next := by
  rintro w' (hmove | hexpand)
  · rw [h] at hmove
    cases hmove
  · rw [h] at hexpand
    exact (Onward.expand.inj hexpand).symm

theorem Position.candidate (h : Position (entryAt records) root ⟨dir, component :: rest⟩)
    (hname : ¬(component = [] ∨ component = js ".")) (hparent : ¬component = js "..") :
    ∀ c ∈ dir ++ [component], CleanName c := by
  intro c hc
  rcases List.mem_append.1 hc with hold | hnew
  · exact h.names c hold
  · rw [List.mem_singleton.1 hnew]
    exact ⟨h.components component (by simp), hname, hparent⟩

/-- The position one name further on. -/
theorem Position.push (h : Position (entryAt records) root ⟨dir, component :: rest⟩)
    (hname : ¬(component = [] ∨ component = js ".")) (hparent : ¬component = js "..")
    (hentry : ∀ path target, entryAt records (dir ++ [component]) ≠ some (.symlink path target)) :
    Position (entryAt records) root ⟨dir ++ [component], rest⟩ := by
  refine ⟨h.candidate hname hparent, fun c hc => h.components c (by simp [show c ∈ rest from hc]),
    h.inside.trans (List.prefix_append _ _), ?_⟩
  · intro part hinit hne
    rcases List.prefix_concat_iff.1 hinit with heq | hold
    · rw [heq]
      exact hentry
    · exact h.plain part hold hne

theorem Position.drop (h : Position (entryAt records) root ⟨dir, component :: rest⟩) :
    Position (entryAt records) root ⟨dir, rest⟩ :=
  ⟨h.names, fun c hc => h.components c (by simp [show c ∈ rest from hc]), h.inside, h.plain⟩

theorem Position.parent (h : Position (entryAt records) root ⟨dir, component :: rest⟩)
    (hdepth : root.length < dir.length) : Position (entryAt records) root ⟨dir.dropLast, rest⟩ := by
  have hdrop : dir.dropLast <+: dir := List.dropLast_prefix dir
  refine ⟨fun c hc => h.names c (hdrop.subset hc), h.drop.components, ?_,
    fun p hp => h.plain p (hp.trans hdrop)⟩
  refine List.prefix_of_prefix_length_le h.inside hdrop ?_
  rw [List.length_dropLast]
  omega

theorem Position.expand (h : Position (entryAt records) root ⟨dir, component :: rest⟩)
    (target : SandboxSymlinkTarget) :
    Position (entryAt records) root ⟨dir, target.text.splitOn slash ++ rest⟩ := by
  refine ⟨h.names, ?_, h.inside, h.plain⟩
  intro c hc
  rcases List.mem_append.1 hc with hnew | hold
  · exact target.clean hnew
  · exact h.drop.components c hold

/-- An accepted walk lives in a closed set of confined states. -/
theorem linkLoop_sound (path : JsString) (resolved remaining seen : List JsString)
    (expansions : Nat) :
    ∀ {visited : Walk → Prop}, Position (entryAt records) root ⟨resolved, remaining⟩ →
      Trail (entryAt records) root visited ⟨resolved, remaining⟩ seen →
      linkLoop (recordAt records) path root.length resolved remaining seen expansions = .ok () →
      ∃ S, ClosedSet (entryAt records) root S ∧ S ⟨resolved, remaining⟩ ∧
        ∀ w, visited w → S w := by
  -- What holds behind a state that was passed holds of that state as well.
  have hback : ∀ {visited : Walk → Prop} {w w' : Walk},
      (∃ S, ClosedSet (entryAt records) root S ∧ S w' ∧ ∀ x, visited x ∨ x = w → S x) →
      ∃ S, ClosedSet (entryAt records) root S ∧ S w ∧ ∀ x, visited x → S x := by
    rintro visited w w' ⟨S, hclosed, -, hvisited⟩
    exact ⟨S, hclosed, hvisited w (Or.inr rfl), fun x hx => hvisited x (Or.inl hx)⟩
  induction resolved, remaining, seen, expansions using linkLoop.induct
      root.length with
  | case1 resolved seen expansions =>
    intro visited hposition htrail _
    have hcurrent := hposition.confined (by simp [Walk.onward])
    refine ⟨_, htrail.close hcurrent ?_, Or.inr rfl, fun w => Or.inl⟩
    rintro w' (h | h) <;> simp [Walk.onward] at h
  | case2 resolved seen expansions component remaining hskip ih =>
    intro visited hposition htrail hok
    have honward := onward_skip (entryAt records) resolved remaining hskip
    have hcurrent := hposition.confined (by rw [honward]; simp)
    rw [linkLoop, if_pos hskip] at hok
    exact hback (ih hposition.drop
      (htrail.extend none hcurrent (follows_of_move honward) (by simp)) hok)
  | case3 resolved seen expansions remaining hdepth hname =>
    intro visited _ _ hok
    rw [linkLoop, if_neg hname, if_pos rfl, if_pos hdepth] at hok
    cases hok
  | case4 resolved seen expansions remaining hdepth hname ih =>
    intro visited hposition htrail hok
    have honward : (Walk.mk resolved (js ".." :: remaining)).onward (entryAt records) =
        .move ⟨resolved.dropLast, remaining⟩ := by
      rw [onward_parent _ _ _ hname, if_neg]
      rintro rfl
      simp at hdepth
    have hcurrent := hposition.confined (by rw [honward]; simp)
    rw [linkLoop, if_neg hname, if_pos rfl, if_neg hdepth] at hok
    exact hback (ih (hposition.parent (by omega))
      (htrail.extend none hcurrent (follows_of_move honward) (by simp)) hok)
  | case5 resolved seen expansions component remaining hname hparent henvelope =>
    intro visited _ _ hok
    rw [linkLoop, if_neg hname, if_neg hparent, if_pos henvelope] at hok
    cases hok
  | case6 resolved seen expansions component remaining hname hparent henvelope candidate ih₁ =>
    rename_i ih₂
    intro visited hposition htrail hok
    have hclean := hposition.candidate hname hparent
    have honward := onward_name (entryAt records) resolved remaining
      hname hparent
    rw [linkLoop, if_neg hname, if_neg hparent, if_neg henvelope] at hok
    dsimp only at hok
    rw [observe_candidate hclean (not_not.1 henvelope), Outcome.ok_bind] at hok
    -- A name that is no link is pushed.
    have hpush : (Walk.mk resolved (component :: remaining)).onward (entryAt records) =
          .move ⟨resolved ++ [component], remaining⟩ →
        (∀ path target, entryAt records (resolved ++ [component]) ≠ some (.symlink path target)) →
        linkLoop (recordAt records) path root.length (resolved ++ [component]) remaining seen
          expansions = .ok () →
        ∃ S, ClosedSet (entryAt records) root S ∧ S ⟨resolved, component :: remaining⟩ ∧
          ∀ w, visited w → S w := by
      intro hmove hentry hrest
      have hcurrent := hposition.confined (by rw [hmove]; simp)
      exact hback (ih₂ (hposition.push hname hparent hentry)
        (htrail.extend none hcurrent (follows_of_move hmove) (by simp)) hrest)
    cases hentry : entryAt records (resolved ++ [component]) with
    | none =>
      rw [hentry] at hok honward hpush
      exact hpush honward (by simp) hok
    | some record =>
      rw [hentry] at hok honward hpush
      cases record with
      | directory q => exact hpush honward (by simp) hok
      | file q =>
        dsimp only at hok honward
        split at hok
        · cases hok
        · rename_i hlast
          rw [if_pos (not_not.1 hlast)] at honward
          exact hpush honward (by simp) hok
      | symlink q target =>
        dsimp only at hok honward
        have hcurrent := hposition.confined (by rw [honward]; simp)
        split at hok
        · -- A state seen before: the expansion leads back into the trail.
          rename_i hseen
          refine ⟨_, htrail.close hcurrent ?_, Or.inr rfl, fun w => Or.inl⟩
          intro w' hfollows
          obtain rfl := follows_of_expand honward w' hfollows
          obtain ⟨dir, name, rest, q', target', hkey, hclean', hentry', hwalk⟩ :=
            htrail.keys _ (by simpa using hseen)
          obtain ⟨hjoin, rfl⟩ := stateKey_inj hkey
          have hparts := Joined.join_inj (by simp) (by simp)
            (fun c hc => (hclean c hc).noSlash) (fun c hc => (hclean' c hc).noSlash) hjoin
          obtain ⟨rfl, hlast⟩ := List.append_inj' hparts rfl
          rw [← hlast, hentry] at hentry'
          obtain ⟨-, rfl⟩ := MetadataRecord.symlink.inj (Option.some.inj hentry')
          exact hwalk
        · split at hok
          · cases hok
          · rename_i hexpansions
            rw [liftResult_eq, Outcome.bind_eq_ok] at hok
            obtain ⟨_, _, hrest⟩ := hok
            exact hback (ih₁ target hexpansions
              (hposition.expand target)
              (htrail.extend (some (stateKey candidate remaining)) hcurrent
                (follows_of_expand honward) (by
                  intro k hk
                  obtain rfl := Option.some.inj hk
                  exact ⟨resolved, component, remaining, q, target, rfl, hclean, hentry, rfl⟩))
              hrest)

/-! ### Refused walks -/

theorem parent_refusal {n : Nat} {start : Walk} {resolved remaining : List JsString}
    (hposition : Position (entryAt records) root ⟨resolved, js ".." :: remaining⟩)
    (hreaches : Reaches (entryAt records) start n ⟨resolved, js ".." :: remaining⟩)
    (hdepth : resolved.length ≤ root.length) (hname : ¬(js ".." = [] ∨ js ".." = js ".")) :
    Refusal (entryAt records) root start := by
  have hroot : root = resolved :=
    hposition.inside.eq_of_length (Nat.le_antisymm hposition.inside.length_le hdepth)
  have honward := onward_parent (entryAt records) resolved remaining hname
  by_cases hempty : resolved = []
  · rw [if_pos hempty] at honward
    exact .leaves hreaches (Or.inl honward)
  · rw [if_neg hempty] at honward
    refine .leaves (hreaches.move honward) (Or.inr fun hinside => ?_)
    have hlength := hinside.length_le
    have hpos := List.length_pos_iff.2 hempty
    rw [hroot, List.length_dropLast] at hlength
    omega

/-- A refused walk leaves the root, passes through a file or exceeds a bound. -/
theorem linkLoop_refusal (path : JsString) {start : Walk} (resolved remaining seen : List JsString)
    (expansions : Nat) :
    ∀ {n : Nat} {e : SandboxError}, Position (entryAt records) root ⟨resolved, remaining⟩ →
      Reaches (entryAt records) start n ⟨resolved, remaining⟩ → expansions = n + 1 →
      linkLoop (recordAt records) path root.length resolved remaining seen expansions = .error e →
      Refusal (entryAt records) root start := by
  induction resolved, remaining, seen, expansions using linkLoop.induct
      root.length with
  | case1 resolved seen expansions =>
    intro n e _ _ _ herror
    rw [linkLoop] at herror
    cases herror
  | case2 resolved seen expansions component remaining hskip ih =>
    intro n e hposition hreaches hcount herror
    rw [linkLoop, if_pos hskip] at herror
    exact ih hposition.drop (hreaches.move (onward_skip _ _ _ hskip)) hcount herror
  | case3 resolved seen expansions remaining hdepth hname =>
    intro n e hposition hreaches _ _
    exact parent_refusal hposition hreaches hdepth hname
  | case4 resolved seen expansions remaining hdepth hname ih =>
    intro n e hposition hreaches hcount herror
    have honward : (Walk.mk resolved (js ".." :: remaining)).onward (entryAt records) =
        .move ⟨resolved.dropLast, remaining⟩ := by
      rw [onward_parent _ _ _ hname, if_neg]
      rintro rfl
      simp at hdepth
    rw [linkLoop, if_neg hname, if_pos rfl, if_neg hdepth] at herror
    exact ih (hposition.parent (by omega)) (hreaches.move honward) hcount herror
  | case5 resolved seen expansions component remaining _ _ henvelope =>
    intro n e _ hreaches _ _
    exact .envelope hreaches rfl henvelope
  | case6 resolved seen expansions component remaining hname hparent henvelope _ ih₁ =>
    rename_i ih₂
    intro n e hposition hreaches hcount herror
    have hclean := hposition.candidate hname hparent
    have honward := onward_name (entryAt records) resolved remaining
      hname hparent
    rw [linkLoop, if_neg hname, if_neg hparent, if_neg henvelope] at herror
    dsimp only at herror
    rw [observe_candidate hclean (not_not.1 henvelope), Outcome.ok_bind] at herror
    cases hentry : entryAt records (resolved ++ [component]) with
    | none =>
      rw [hentry] at herror honward
      exact ih₂ (hposition.push hname hparent (by simp [hentry])) (hreaches.move honward) hcount
        herror
    | some record =>
      rw [hentry] at herror honward
      cases record with
      | directory q =>
        exact ih₂ (hposition.push hname hparent (by simp [hentry])) (hreaches.move honward)
          hcount herror
      | file q =>
        dsimp only at herror honward
        split at herror
        · rename_i hmore
          rw [if_neg hmore] at honward
          exact .file hreaches honward
        · rename_i hlast
          rw [if_pos (not_not.1 hlast)] at honward
          exact ih₂ (hposition.push hname hparent (by simp [hentry])) (hreaches.move honward)
            hcount herror
      | symlink q target =>
        dsimp only at herror honward
        have hexpanded := hreaches.expand honward
        split at herror
        · cases herror
        · split at herror
          · rename_i hmany
            exact .expansions hexpanded (by omega)
          · rename_i hexpansions
            rw [liftResult_eq, Outcome.bind_error] at herror
            rcases herror with hbound | ⟨_, _, hrest⟩
            · refine .workingSet hexpanded fun hfits => ?_
              rw [workingBound, Outcome.failIf_of_not _ (not_not.2 hfits)] at hbound
              cases hbound
            · exact ih₁ target hexpansions (hposition.expand target) hexpanded
                (by omega) hrest

end Sound

/-! ### Records inside the root -/

/-- The components of a publication directory, or of the whole workspace. -/
def rootSegments (root : Option SandboxRelativePath) : List JsString :=
  (root.map fun root => root.segments).getD []

theorem rejectsRoot_iff {root path : SandboxRelativePath} (hpath : record.path = path) :
    rejectsRoot (some root) record = true ↔
      (path = root ∧ record.kind ≠ .directory) ∨ (path ≠ root ∧ ¬root.Contains path) := by
  have htext : (root.text ++ [slash]).isPrefixOf path.text = true ↔ root.Contains path := by
    rw [List.isPrefixOf_iff_prefix, ← root.join_segments, ← path.join_segments,
      Joined.join_prefix root.segments_ne_nil path.segments_ne_nil
        (fun _ hs => root.slash_not_mem hs) fun _ hs => path.slash_not_mem hs]
    exact and_congr_right fun _ => not_congr
      ⟨SandboxRelativePath.segments_inj, fun h => by rw [h]⟩
  simp only [rejectsRoot, hpath]
  split
  · rename_i heq
    simp [heq]
  · rename_i hne
    rw [Bool.not_eq_true', Bool.eq_false_iff, Ne, htext]
    simp [hne]

/-- Where the walk of a link starts: its directory and its target. -/
def linkStart (path : SandboxRelativePath) (target : SandboxSymlinkTarget) : Walk :=
  ⟨path.segments.dropLast, target.text.splitOn slash⟩

section Links

variable {records : List MetadataRecord} {root : Option SandboxRelativePath}
  {path : SandboxRelativePath} {target : SandboxSymlinkTarget}

theorem path_split (path : SandboxRelativePath) :
    ∃ name, path.segments = path.segments.dropLast ++ [name] :=
  ⟨path.segments.getLast path.segments_ne_nil,
    (List.dropLast_append_getLast path.segments_ne_nil).symm⟩

theorem entryAt_of_mem (hfree : ConflictFree records) {record : MetadataRecord}
    (hrecord : record ∈ records) : entryAt records record.path.segments = some record := by
  cases hfind : entryAt records record.path.segments with
  | none =>
    have hnone := List.find?_eq_none.1 hfind record hrecord
    simp at hnone
  | some other =>
    have hother := List.mem_of_find?_eq_some hfind
    have hsegments : other.path.segments = record.path.segments := by
      simpa using List.find?_some hfind
    have hpath := SandboxRelativePath.segments_inj hsegments
    rw [List.inj_on_of_nodup_map hfree.distinct hother hrecord hpath]

/-- The records at component lists do not depend on the order of records. -/
theorem entryAt_perm {records' : List MetadataRecord} (hfree : ConflictFree records)
    (hperm : records'.Perm records) : entryAt records' = entryAt records := by
  have hfree' := (ConflictFree.perm hperm).2 hfree
  funext segments
  cases hfind : entryAt records segments with
  | none =>
    refine List.find?_eq_none.2 fun record hrecord => ?_
    exact List.find?_eq_none.1 hfind record (hperm.mem_iff.1 hrecord)
  | some record =>
    have hmem := hperm.mem_iff.2 (List.mem_of_find?_eq_some hfind)
    have hsegments : record.path.segments = segments := by simpa using List.find?_some hfind
    rw [← hsegments]
    exact entryAt_of_mem hfree' hmem

/-- A link inside the root starts from a clean directory without links. -/
theorem linkStart_position (hfree : ConflictFree records)
    (hlink : MetadataRecord.symlink path target ∈ records)
    (hroot : rejectsRoot root (.symlink path target) = false) :
    Position (entryAt records) (rootSegments root) (linkStart path target) := by
  obtain ⟨name, hname⟩ := path_split path
  have hdrop : path.segments.dropLast <+: path.segments := List.dropLast_prefix _
  refine ⟨fun c hc => path.clean (hdrop.subset hc), fun c hc => target.clean hc, ?_, ?_⟩
  · cases root with
    | none => exact List.nil_prefix
    | some root =>
      have haccept : ¬rejectsRoot (some root) (.symlink path target) = true := by simp [hroot]
      rw [rejectsRoot_iff rfl, not_or, not_and, not_and, not_not, not_not] at haccept
      have hne : path ≠ root := fun heq => nomatch haccept.1 heq
      obtain ⟨hinside, -⟩ := haccept.2 hne
      change root.segments <+: path.segments at hinside
      rw [hname] at hinside
      rcases List.prefix_concat_iff.1 hinside with heq | hinside
      · exact absurd (SandboxRelativePath.segments_inj (hname.trans heq.symm)) hne
      · exact hinside
  · -- A link on the way would lie above the record.
    intro dir hdir _ q t hentry
    have hq := List.mem_of_find?_eq_some hentry
    have hfound := List.find?_some hentry
    have hsegments : q.segments = dir := of_decide_eq_true hfound
    refine hfree.apart _ hq _ hlink (by simp [MetadataRecord.kind]) ⟨?_, ?_⟩
    · show q.segments <+: path.segments
      rw [hsegments]
      exact hdir.trans hdrop
    · intro heq
      have hpath : q = path := heq
      have hlength := hdir.length_le
      rw [← hsegments, hpath] at hlength
      change path.segments.length ≤ path.segments.dropLast.length at hlength
      have hpos := List.length_pos_iff.2 path.segments_ne_nil
      rw [List.length_dropLast] at hlength
      omega

theorem validateLink_eq : validateLink (recordAt records) path target root =
    (workingBound path.text (linkStart path target).dir (linkStart path target).todo >>= fun _ =>
      linkLoop (recordAt records) path.text (rootSegments root).length (linkStart path target).dir
        (linkStart path target).todo [stateKey path.text []] 1) := by
  unfold validateLink
  dsimp only
  rw [liftResult_eq]
  cases root <;> rfl

/-- The walk of an accepted link stays confined for any number of steps. -/
theorem validateLink_confined (hfree : ConflictFree records)
    (hlink : MetadataRecord.symlink path target ∈ records)
    (hroot : rejectsRoot root (.symlink path target) = false)
    (hok : validateLink (recordAt records) path target root = .ok ()) {n : Nat} {w : Walk}
    (hreaches : Reaches (entryAt records) (linkStart path target) n w) :
    Confined (entryAt records) (rootSegments root) w := by
  obtain ⟨name, hname⟩ := path_split path
  rw [validateLink_eq, Outcome.bind_eq_ok] at hok
  obtain ⟨_, _, hloop⟩ := hok
  have htrail : Trail (entryAt records) (rootSegments root) (fun _ => False)
      (linkStart path target) [stateKey path.text []] := by
    refine ⟨fun w hw => hw.elim, fun w hw => hw.elim, ?_⟩
    intro key hkey
    rw [List.mem_singleton.1 hkey]
    refine ⟨path.segments.dropLast, name, [], path, target, ?_, ?_, ?_, Or.inr ?_⟩
    · rw [← hname, path.join_segments]
    · rw [← hname]
      exact fun c hc => path.clean hc
    · rw [← hname]
      exact entryAt_of_mem hfree hlink
    · rw [List.append_nil]
      rfl
  obtain ⟨S, hclosed, hstart, _⟩ := linkLoop_sound path.text _ _ _ _
    (linkStart_position hfree hlink hroot) htrail hloop
  exact (hclosed w (hreaches.mem hstart fun w hw => (hclosed w hw).2)).1

theorem validateLink_refusal (hfree : ConflictFree records)
    (hlink : MetadataRecord.symlink path target ∈ records)
    (hroot : rejectsRoot root (.symlink path target) = false) {e : SandboxError}
    (herror : validateLink (recordAt records) path target root = .error e) :
    Refusal (entryAt records) (rootSegments root) (linkStart path target) := by
  rw [validateLink_eq, Outcome.bind_error] at herror
  rcases herror with hbound | ⟨_, _, hloop⟩
  · refine .workingSet .start fun hfits => ?_
    rw [workingBound, Outcome.failIf_of_not _ (not_not.2 hfits)] at hbound
    cases hbound
  · exact linkLoop_refusal path.text _ _ _ _ (linkStart_position hfree hlink hroot) .start rfl hloop

end Links

/-! ### Every link of a ledger -/

/-- A record that does not belong to a publication directory: it lies outside
it, or it is the directory itself recorded as something else. -/
def OutsideRoot (root : Option SandboxRelativePath) (record : MetadataRecord) : Prop :=
  ∃ directory, root = some directory ∧
    ((record.path = directory ∧ record.kind ≠ .directory) ∨
      (record.path ≠ directory ∧ ¬directory.Contains record.path))

theorem rejectsRoot_eq_true {root : Option SandboxRelativePath} :
    rejectsRoot root record = true ↔ OutsideRoot root record := by
  cases root with
  | none => simp [rejectsRoot, OutsideRoot]
  | some root =>
    rw [rejectsRoot_iff rfl]
    simp [OutsideRoot]

theorem checkRecord_eq_ok
    {find : SandboxRelativePath → Except SandboxError (Option MetadataRecord)}
    {root : Option SandboxRelativePath} :
    checkRecord find root record = .ok () ↔ ¬OutsideRoot root record ∧
      ∀ path target, record = .symlink path target → validateLink find path target root = .ok () := by
  rw [← rejectsRoot_eq_true]
  unfold checkRecord
  by_cases hreject : rejectsRoot root record = true
  · rw [if_pos hreject]
    constructor
    · intro h
      cases h
    · intro h
      exact absurd hreject h.1
  · rw [if_neg hreject]
    cases record with
    | file | directory => exact ⟨fun _ => ⟨hreject, by simp⟩, fun _ => rfl⟩
    | symlink path target =>
      constructor
      · intro hok
        refine ⟨hreject, ?_⟩
        rintro q t heq
        obtain ⟨rfl, rfl⟩ := MetadataRecord.symlink.inj heq
        exact hok
      · intro h
        exact h.2 path target rfl

/-- Validation of a finished ledger succeeds only when every link is confined,
at every step of its resolution, and fails only when a record does not belong to
the root, or the resolution of a link leaves the root, passes through a regular
file or exceeds a bound. -/
theorem symlinks_confined (options : MetadataLedgerOptions) (progress : Progress)
    (records : List MetadataRecord) (root : Option SandboxRelativePath) :
    ∃ ledger result, Settles (Ledger.fillAndFinish progress options records)
        (.ok (ledger, result)) ∧
      (result = .ok () → ∃ ledger' validated,
        Settles (Ledger.validateSymlinks progress ledger root) (.ok (ledger', validated)) ∧
        (validated = .ok () → ∀ path target, .symlink path target ∈ records →
          ∀ n w, Reaches (entryAt records) (linkStart path target) n w →
            Confined (entryAt records) (rootSegments root) w) ∧
        (∀ e, validated = .error e →
          (∃ record ∈ records, OutsideRoot root record) ∨
          ∃ path target, .symlink path target ∈ records ∧
            Refusal (entryAt records) (rootSegments root) (linkStart path target))) := by
  obtain ⟨ledger, result, hsettles, hiff, hsealed⟩ :=
    Ledger.fillAndFinish_settles options progress records
  refine ⟨ledger, result, hsettles, fun hok => ?_⟩
  have hfree := (hiff.1 hok).1
  have hperm := Ledger.componentOrder_perm records
  have hascending := Ledger.ascending_of_before (Ledger.componentOrder_before records)
    ((hperm.map _).nodup_iff.2 hfree.distinct)
  obtain ⟨ledger', hvalidate⟩ := Ledger.validateSymlinks_settles progress
    (hsealed hok) hascending root
  have hfreeOrder := (ConflictFree.perm hperm).2 hfree
  have hentry := entryAt_perm hfree hperm
  refine ⟨ledger', _, hvalidate, ?_, ?_⟩
  · intro hvalid path target hlink n w hreaches
    have hmem := hperm.mem_iff.2 hlink
    obtain ⟨hinside, hlinkOk⟩ := checkRecord_eq_ok.1 (Outcome.forM_eq_ok.1 hvalid _ hmem)
    rw [← hentry] at hreaches ⊢
    rw [← rejectsRoot_eq_true, Bool.not_eq_true] at hinside
    exact validateLink_confined hfreeOrder hmem hinside (hlinkOk path target rfl) hreaches
  · intro e herror
    by_contra hno
    rw [not_or, not_exists] at hno
    have hall : (Ledger.componentOrder records).forM
        (checkRecord (recordAt (Ledger.componentOrder records)) root) = .ok () := by
      refine Outcome.forM_eq_ok.2 fun record hrecord => ?_
      have hinside : ¬OutsideRoot root record := fun h =>
        hno.1 record ⟨hperm.mem_iff.1 hrecord, h⟩
      refine checkRecord_eq_ok.2 ⟨hinside, ?_⟩
      rintro path target rfl
      cases hlink : validateLink (recordAt (Ledger.componentOrder records)) path target root with
      | ok u => rfl
      | error e =>
        rw [← rejectsRoot_eq_true, Bool.not_eq_true] at hinside
        have hrefusal := validateLink_refusal hfreeOrder hrecord hinside hlink
        rw [hentry] at hrefusal
        exact absurd ⟨path, target, hperm.mem_iff.1 hrecord, hrefusal⟩ hno.2
    rw [hall] at herror
    cases herror

/-- The directory of the same name, recorded as a file. -/
def treeFile : MetadataRecord := .file ⟨js "tree", by decide⟩

/-- A file recorded at the root itself is refused, although it lies neither
outside the root nor behind a link. -/
theorem root_file_refused : ∃ ledger ledger' e,
    Settles (Ledger.fillAndFinish Ledger.wholeProgress Ledger.smallestOptions [treeFile])
      (.ok (ledger, .ok ())) ∧
    Settles (Ledger.validateSymlinks Ledger.wholeProgress ledger (some treeFile.path))
      (.ok (ledger', .error e)) ∧
    ∀ record ∈ [treeFile], record.kind ≠ .symlink ∧ treeFile.path.segments <+: record.path.segments := by
  obtain ⟨ledger, result, hsettles, hiff, hsealed⟩ :=
    Ledger.fillAndFinish_settles Ledger.smallestOptions Ledger.wholeProgress [treeFile]
  have hok : result = .ok () := by
    refine hiff.2 ⟨⟨by simp, ?_⟩, by decide⟩
    intro a ha r hr _ hcontains
    rw [List.mem_singleton.1 ha, List.mem_singleton.1 hr] at hcontains
    exact hcontains.2 rfl
  subst hok
  have hsealed' := hsealed rfl
  rw [show Ledger.componentOrder [treeFile] = [treeFile] by simp [Ledger.componentOrder]] at hsealed'
  obtain ⟨ledger', hvalidate⟩ := Ledger.validateSymlinks_settles Ledger.wholeProgress
    hsealed' (by simp [Ledger.Ascending]) (some treeFile.path)
  exact ⟨ledger, ledger', outsideError, hsettles, hvalidate, by simp [treeFile, MetadataRecord.kind]⟩

end AgentSdk.Sandbox
