import AgentSdk.Lib.Assoc
import AgentSdk.Lib.JsonData
import AgentSdk.Lib.UnitClasses
import AgentSdk.Provider.Session

/-!
# The options of a permission

A native permission request brings a menu of options, each with an identity and
a kind.  The menu is mapped to canonical options under identities of their own.
Options that would be remembered are mapped only when the whole menu is one that
the selected mapping declares; otherwise they are left out.

## Main results

* `mapAcpPermissionOptions_spec` — every mapped option stands for one native
  option of the kind that is shown, and remembered ones only in a declared menu.
-/

namespace AgentSdk

namespace Text

/-- `trimEnd` -/
def trimEnd (text : JsString) : JsString := (text.reverse.dropWhile isSpaceUnit).reverse

/-- `trim` -/
def trim (text : JsString) : JsString := trimEnd (text.dropWhile isSpaceUnit)

end Text

namespace Provider

open AgentSdk.Text

/-! ## Native values -/

abbrev NativeObject (ν : Type) := List (JsString × JsonData ν)

variable {ν : Type}

def nativeObject (value : Option (JsonData ν)) (field : String) :
    Except SessionError (NativeObject ν) :=
  match value with
  | some (.obj fields) => .ok fields
  | _ =>
    .error
      { reasonCode := "acp_session_invalid_value", message := s!"ACP {field} must be an object." }

def nativeString (value : Option (JsonData ν)) (field : String) : Except SessionError JsString :=
  match value with
  | some (.str text) => .ok text
  | _ =>
    .error
      { reasonCode := "acp_session_invalid_value", message := s!"ACP {field} must be a string." }

def displayText (value : Option (JsonData ν)) (fallback : JsString) (limit : Nat) : JsString :=
  let text :=
    match value with
    | some (.str text) => trim text
    | _ => []
  trimEnd ((if text = [] then fallback else text).take limit)

/-- A value is the given text. -/
def isText (value : Option (JsonData ν)) (text : JsString) : Bool :=
  match value with
  | some (.str other) => other = text
  | _ => false

/-- A value is a text. -/
def isString : Option (JsonData ν) → Bool
  | some (.str _) => true
  | _ => false

/-! ## Menus -/

inductive PermissionKind where
  | allowOnce
  | rejectOnce
  | allowAlways
  | rejectAlways
  deriving DecidableEq

namespace PermissionKind

def text : PermissionKind → JsString
  | allowOnce => js "allow_once"
  | rejectOnce => js "reject_once"
  | allowAlways => js "allow_always"
  | rejectAlways => js "reject_always"

def all : List PermissionKind := [allowOnce, rejectOnce, allowAlways, rejectAlways]

def approved (kind : PermissionKind) : Bool := kind = allowOnce || kind = allowAlways

def remembered (kind : PermissionKind) : Bool := kind = allowAlways || kind = rejectAlways

end PermissionKind

/-- `AcpPermissionOptionSignature` -/
structure OptionSignature where
  optionId : JsString
  kind : PermissionKind
  deriving DecidableEq

inductive ToolKind where
  | read
  | edit
  | delete
  | move
  | search
  | execute
  | think
  | fetch
  | switchMode
  | other
  deriving DecidableEq

def ToolKind.text : ToolKind → JsString
  | read => js "read"
  | edit => js "edit"
  | delete => js "delete"
  | move => js "move"
  | search => js "search"
  | execute => js "execute"
  | think => js "think"
  | fetch => js "fetch"
  | switchMode => js "switch_mode"
  | other => js "other"

/-- `AcpPermissionMenuSignature` -/
structure MenuSignature where
  toolKind : ToolKind
  options : List OptionSignature
  deriving DecidableEq

/-- `AcpPermissionMappingSelection` -/
inductive MappingSelection where
  | onceOnly
  | grokBuild
  | declared (menus : List MenuSignature)
  deriving DecidableEq

structure NativePermissionOption (ν : Type) extends OptionSignature where
  source : NativeObject ν

def GROK_EDIT_MENU : MenuSignature where
  toolKind := .edit
  options :=
    [{ optionId := js "allow-edits-session", kind := .allowAlways },
      { optionId := js "allow-once", kind := .allowOnce },
      { optionId := js "reject-once", kind := .rejectOnce }]

/-- The menus whose remembered options may be mapped. -/
def MappingSelection.menus : MappingSelection → List MenuSignature
  | onceOnly => []
  | grokBuild => [GROK_EDIT_MENU]
  | declared menus => menus

def unsupportedConsequence : SessionError :=
  { reasonCode := "acp_permission_consequence_unsupported"
    message := "The selected ACP permission mapping does not represent this complete native menu." }

def optionsInvalid (message : String) : SessionError :=
  { reasonCode := "acp_permission_options_invalid", message }

/-! ## Reading the native options -/

/-- C0 and C1 control characters, and the delete character. -/
def isControlUnit (unit : UInt16) : Bool :=
  decide (unit.toNat ≤ 0x1f) || decide (0x7f ≤ unit.toNat ∧ unit.toNat ≤ 0x9f)

def optionKind? (value : Option (JsonData ν)) : Option PermissionKind :=
  PermissionKind.all.find? fun kind => isText value kind.text

/-- One option, after those with the given identities. -/
def readNativeOption (ids : List JsString) (value : JsonData ν) :
    Except SessionError (NativePermissionOption ν) := do
  let option ← nativeObject (some value) "permission option"
  let optionId ← nativeString (option.lookup (js "optionId")) "permission option identity"
  if optionId = [] ∨ 256 < optionId.length ∨ optionId ≠ trim optionId ∨
      optionId.any isControlUnit = true then
    .error (optionsInvalid "ACP permission option identities must be bounded canonical strings.")
  else if optionId ∈ ids then
    .error
      { reasonCode := "acp_permission_option_duplicate"
        message := "ACP repeated a permission option identity." }
  else
    match optionKind? (option.lookup (js "kind")) with
    | none => .error (optionsInvalid "ACP permission option kind is unsupported.")
    | some kind => .ok { optionId, kind, source := option }

def readOptionsFrom (ids : List JsString) :
    List (JsonData ν) → Except SessionError (List (NativePermissionOption ν))
  | [] => .ok []
  | value :: rest => do
      let option ← readNativeOption ids value
      let options ← readOptionsFrom (option.optionId :: ids) rest
      .ok (option :: options)

def readNativeOptions (params : NativeObject ν) :
    Except SessionError (List (NativePermissionOption ν)) :=
  match params.lookup (js "options") with
  | some (.arr values) =>
    if values.length < 1 ∨ 16 < values.length then
      .error (optionsInvalid "ACP permission menus require between one and sixteen options.")
    else readOptionsFrom [] values
  | _ => .error (optionsInvalid "ACP permission menus require between one and sixteen options.")

/-! ## Declared menus -/

def matchesMenu (menu : MenuSignature) (tool : NativeObject ν)
    (options : List (NativePermissionOption ν)) : Bool :=
  isText (tool.lookup (js "kind")) menu.toolKind.text &&
    decide (menu.options.length = options.length) &&
    (menu.options.zip options).all fun pair =>
      decide (pair.1.optionId = pair.2.optionId) && decide (pair.1.kind = pair.2.kind)

/-- `assertCompleteChoiceFields`: no field of the request or of an option is left unread. -/
def completeChoiceFields (params : NativeObject ν) (options : List (NativePermissionOption ν)) :
    Bool :=
  (params.all fun field => [js "sessionId", js "toolCall", js "options"].contains field.1) &&
    options.all fun option => option.source.all fun field =>
      [js "optionId", js "name", js "kind"].contains field.1

def qualifiedGrokEdit (tool : NativeObject ν) (options : List (NativePermissionOption ν)) : Bool :=
  match tool.lookup (js "rawInput") with
  | some (.obj input) =>
    matchesMenu GROK_EDIT_MENU tool options && decide (input.length = 5) &&
      isString (input.lookup (js "file_path")) && !isText (input.lookup (js "file_path")) [] &&
      isString (input.lookup (js "old_string")) && isString (input.lookup (js "new_string")) &&
      isText (input.lookup (js "variant")) (js "SearchReplace") &&
      (match input.lookup (js "replace_all") with
        | some (.bool value) => !value
        | _ => false)
  | _ => false

/-! ## The mapping -/

/-- What the selected mapping makes of a menu: `complete`, and `fallback`. -/
def selectMapping (selection : MappingSelection) (params tool : NativeObject ν)
    (native : List (NativePermissionOption ν)) : Except SessionError (Bool × Bool) :=
  match selection with
  | .onceOnly => .ok (false, false)
  | .declared menus =>
    if !completeChoiceFields params native then .error unsupportedConsequence
    else if !(menus.any fun menu => matchesMenu menu tool native) then
      .error unsupportedConsequence
    else .ok (true, false)
  | .grokBuild =>
    if isText (tool.lookup (js "kind")) (js "edit") then
      if !completeChoiceFields params native then .error unsupportedConsequence
      else if !qualifiedGrokEdit tool native then .error unsupportedConsequence
      else .ok (true, false)
    else .ok (false, true)

def rememberedExplanation : JsString :=
  js <| "The provider is asked to remember this decision. Duration and future matching are " ++
    "unspecified. Delivery does not establish successful persistence or revocation."

/-- The decision shown with an option of a kind. -/
def PermissionKind.decision (kind : PermissionKind) : Decision :=
  if kind.approved then .approved else .denied

/-- The consequence shown with an option of a kind. -/
def PermissionKind.consequence (kind : PermissionKind) : Consequence :=
  if kind.remembered then .remembrance rememberedExplanation else .scoped

/-- The identity of the option at an index, counted from one. -/
def approvalOptionId (index : Nat) : JsString := js "acp:option:" ++ natDecimal (index + 1)

def optionLabel (option : NativePermissionOption ν) : JsString :=
  if option.kind.remembered then
    if option.kind.approved then js "Allow and remember" else js "Deny and remember"
  else
    displayText (option.source.lookup (js "name"))
      (if option.kind.approved then js "Allow once" else js "Reject once") 120

/-- The option at an index, with its native identity; none when it is left out. -/
def mapOption (complete : Bool) (option : NativePermissionOption ν) (index : Nat) :
    Option (ApprovalOption × JsString) :=
  if option.kind.remembered && !complete then none
  else
    some
      ({ optionId := approvalOptionId index
         label := optionLabel option
         decision := option.kind.decision
         consequence := option.kind.consequence },
        option.optionId)

def persistenceUnsupported : SessionError :=
  { reasonCode := "acp_permission_persistence_unsupported"
    message := "ACP offered no supported once-only permission choice." }

def mapAcpPermissionOptions (selection : MappingSelection) (params : NativeObject ν) :
    Except SessionError MappedPermission := do
  let native ← readNativeOptions params
  let tool ← nativeObject (params.lookup (js "toolCall")) "permission tool"
  let (complete, fallback) ← selectMapping selection params tool native
  let mapped := native.zipIdx.filterMap fun pair => mapOption complete pair.1 pair.2
  if mapped = [] then .error (if fallback then unsupportedConsequence else persistenceUnsupported)
  else
    .ok
      { options := mapped.map Prod.fst
        nativeOptions := mapped.map fun pair => (pair.1.optionId, pair.2)
        warning := fallback }

/-- `permission` of the mapping of a turn. -/
def turnPermission (selection : MappingSelection) (params : NativeObject ν) :
    Except SessionError MappedPermission := do
  let _ ← nativeObject (params.lookup (js "toolCall")) "permission tool"
  mapAcpPermissionOptions selection params

variable {text : JsString} {params : NativeObject ν} {native : List (NativePermissionOption ν)}
  {selection : MappingSelection} {permission : MappedPermission}

/-! ## What the mapping shows -/

theorem readNativeOption_ok {ids : List JsString} {value : JsonData ν}
    {option : NativePermissionOption ν} (h : readNativeOption ids value = .ok option) :
    option.optionId ∉ ids := by
  unfold readNativeOption at h
  simp only [bind, Except.bind] at h
  split at h
  · cases h
  · split at h
    · cases h
    · split at h
      · cases h
      · split at h
        · cases h
        · rename_i hfresh
          split at h
          · cases h
          · cases h
            exact hfresh

/-- The identities of the native options are distinct. -/
theorem readOptionsFrom_ok {ids : List JsString} {values : List (JsonData ν)}
    {options : List (NativePermissionOption ν)} (h : readOptionsFrom ids values = .ok options) :
    (options.map fun option => option.optionId).Nodup ∧
      ∀ option ∈ options, option.optionId ∉ ids := by
  induction values generalizing ids options with
  | nil =>
    cases h
    exact ⟨List.nodup_nil, fun _ hoption => by cases hoption⟩
  | cons value rest ih =>
    simp only [readOptionsFrom, bind, Except.bind] at h
    split at h
    · cases h
    · rename_i option hoption
      split at h
      · cases h
      · rename_i others hothers
        cases h
        have hfresh := readNativeOption_ok hoption
        obtain ⟨hnodup, hnew⟩ := ih hothers
        constructor
        · rw [List.map_cons, List.nodup_cons]
          refine ⟨fun hmem => ?_, hnodup⟩
          obtain ⟨other, hother, heq⟩ := List.mem_map.1 hmem
          exact hnew other hother (by rw [heq]; exact List.mem_cons_self)
        · intro other hother
          rcases List.mem_cons.1 hother with rfl | hother
          · exact hfresh
          · exact fun hmem => hnew other hother (List.mem_cons_of_mem _ hmem)

theorem readNativeOptions_nodup (h : readNativeOptions params = .ok native) :
    (native.map fun option => option.optionId).Nodup := by
  unfold readNativeOptions at h
  split at h
  · split at h
    · cases h
    · exact (readOptionsFrom_ok h).1
  · cases h

theorem approvalOptionId_inj {m n : Nat} (h : approvalOptionId m = approvalOptionId n) : m = n := by
  have hdecimal := natDecimal_inj (List.append_cancel_left h)
  omega

theorem mapOption_some {complete : Bool} {option : NativePermissionOption ν} {index : Nat}
    {shown : ApprovalOption} {nativeId : JsString}
    (h : mapOption complete option index = some (shown, nativeId)) :
    shown.optionId = approvalOptionId index ∧ shown.decision = option.kind.decision ∧
      shown.consequence = option.kind.consequence ∧ nativeId = option.optionId ∧
        (option.kind.remembered = true → complete = true) := by
  unfold mapOption at h
  split at h
  · cases h
  · rename_i hkept
    cases h
    refine ⟨rfl, rfl, rfl, rfl, fun hremembered => ?_⟩
    rw [hremembered, Bool.true_and] at hkept
    simpa using hkept

/-- What is mapped of a menu, option by option. -/
def mappedOptions (complete : Bool) (native : List (NativePermissionOption ν)) :
    List (ApprovalOption × JsString) :=
  native.zipIdx.filterMap fun pair => mapOption complete pair.1 pair.2

theorem mem_mappedOptions {complete : Bool} {shown : ApprovalOption} {nativeId : JsString}
    (h : (shown, nativeId) ∈ mappedOptions complete native) :
    ∃ option ∈ native, ∃ index, mapOption complete option index = some (shown, nativeId) := by
  obtain ⟨⟨option, index⟩, hpair, hmapped⟩ := List.mem_filterMap.1 h
  exact ⟨option, List.fst_mem_of_mem_zipIdx hpair, index, hmapped⟩

/-- Options are shown under distinct identities. -/
theorem mappedOptions_nodup (complete : Bool) (native : List (NativePermissionOption ν)) :
    ((mappedOptions complete native).map fun pair => pair.1.optionId).Nodup := by
  have hpairs : ∀ start, ((native.zipIdx start).filterMap fun pair =>
      mapOption complete pair.1 pair.2).Pairwise fun a b => a.1.optionId ≠ b.1.optionId := by
    intro start
    have hindexes : ((native.zipIdx start).map Prod.snd).Nodup := by
      rw [List.zipIdx_map_snd]
      exact List.nodup_range'
    rw [List.pairwise_filterMap]
    refine (List.pairwise_map.1 (List.nodup_iff_pairwise_ne.1 hindexes)).imp ?_
    rintro ⟨option, m⟩ ⟨option', n⟩ hne ⟨shown, id⟩ hshown ⟨shown', id'⟩ hshown' heq
    obtain ⟨hm, -⟩ := mapOption_some hshown
    obtain ⟨hn, -⟩ := mapOption_some hshown'
    exact hne (approvalOptionId_inj (hm.symm.trans (heq.trans hn)))
  rw [List.nodup_iff_pairwise_ne, List.pairwise_map]
  exact hpairs 0

/-- A complete menu is one of those that the mapping declares. -/
theorem selectMapping_complete {tool : NativeObject ν} {fallback : Bool}
    (h : selectMapping selection params tool native = .ok (true, fallback)) :
    ∃ menu ∈ selection.menus, matchesMenu menu tool native = true := by
  unfold selectMapping at h
  split at h
  · cases h
  · split at h
    · cases h
    · split at h
      · cases h
      · rename_i menus hcomplete hmatch
        have hany : (menus.any fun menu => matchesMenu menu tool native) = true := by
          simpa using hmatch
        exact List.any_eq_true.1 hany
  · split at h
    · split at h
      · cases h
      · split at h
        · cases h
        · rename_i hqualified
          refine ⟨GROK_EDIT_MENU, List.mem_singleton.2 rfl, ?_⟩
          have hedit : qualifiedGrokEdit tool native = true := by simpa using hqualified
          unfold qualifiedGrokEdit at hedit
          split at hedit
          · simp only [Bool.and_eq_true] at hedit
            exact hedit.1.1.1.1.1.1.1
          · cases hedit
    · cases h

/-- The mapped options of a request and the native ones they stand for. -/
structure MapsMenu (selection : MappingSelection) (params : NativeObject ν)
    (native : List (NativePermissionOption ν)) (permission : MappedPermission) : Prop where
  read : readNativeOptions params = .ok native
  distinct : (native.map fun option => option.optionId).Nodup
  shown : ∀ shown ∈ permission.options, ∃ option ∈ native,
    permission.nativeOptions.lookup shown.optionId = some option.optionId ∧
      shown.decision = option.kind.decision ∧ shown.consequence = option.kind.consequence
  remembered : ∀ shown ∈ permission.options, shown.consequence ≠ .scoped →
    ∃ tool menu, nativeObject (params.lookup (js "toolCall")) "permission tool" = .ok tool ∧
      menu ∈ selection.menus ∧ matchesMenu menu tool native = true

theorem mapAcpPermissionOptions_ok (h : mapAcpPermissionOptions selection params = .ok permission) :
    ∃ native tool complete fallback, readNativeOptions params = .ok native ∧
      nativeObject (params.lookup (js "toolCall")) "permission tool" = .ok tool ∧
      selectMapping selection params tool native = .ok (complete, fallback) ∧
      permission.options = (mappedOptions complete native).map Prod.fst ∧
      permission.nativeOptions =
        (mappedOptions complete native).map fun pair => (pair.1.optionId, pair.2) := by
  unfold mapAcpPermissionOptions at h
  simp only [bind, Except.bind] at h
  split at h
  · cases h
  · rename_i native hread
    split at h
    · cases h
    · rename_i tool htool
      split at h
      · cases h
      · rename_i selected hselected
        split at h
        · cases h
        · cases h
          exact ⟨native, tool, selected.1, selected.2, hread, htool, hselected, rfl, rfl⟩

/-- Every mapped option stands for one native option of the kind that is shown, and a remembered one
is mapped only when the whole menu is declared. -/
theorem mapAcpPermissionOptions_spec
    (h : mapAcpPermissionOptions selection params = .ok permission) :
    ∃ native, MapsMenu selection params native permission := by
  obtain ⟨native, tool, complete, fallback, hread, htool, hselected, hoptions, hnative⟩ :=
    mapAcpPermissionOptions_ok h
  have hstands : ∀ shown ∈ permission.options, ∃ nativeId, (shown, nativeId) ∈
      mappedOptions complete native := by
    intro shown hshown
    rw [hoptions] at hshown
    obtain ⟨⟨_, nativeId⟩, hpair, rfl⟩ := List.mem_map.1 hshown
    exact ⟨nativeId, hpair⟩
  refine ⟨native, hread, readNativeOptions_nodup hread, fun shown hshown => ?_,
    fun shown hshown hremembered => ?_⟩
  · obtain ⟨nativeId, hpair⟩ := hstands shown hshown
    obtain ⟨option, hoption, index, hmapped⟩ := mem_mappedOptions hpair
    obtain ⟨-, hdecision, hconsequence, rfl, -⟩ := mapOption_some hmapped
    refine ⟨option, hoption, ?_, hdecision, hconsequence⟩
    rw [hnative]
    apply Assoc.lookup_of_mem
    · rw [List.map_map]
      exact mappedOptions_nodup complete native
    · exact List.mem_map.2 ⟨_, hpair, rfl⟩
  · obtain ⟨nativeId, hpair⟩ := hstands shown hshown
    obtain ⟨option, hoption, index, hmapped⟩ := mem_mappedOptions hpair
    obtain ⟨-, -, hconsequence, -, hcomplete⟩ := mapOption_some hmapped
    have hkind : option.kind.remembered = true := by
      by_contra hnot
      rw [hconsequence, PermissionKind.consequence, if_neg hnot] at hremembered
      exact hremembered rfl
    rw [hcomplete hkind] at hselected
    obtain ⟨menu, hmenu, hmatch⟩ := selectMapping_complete hselected
    exact ⟨tool, menu, htool, hmenu, hmatch⟩

theorem turnPermission_spec (h : turnPermission selection params = .ok permission) :
    ∃ native, MapsMenu selection params native permission := by
  unfold turnPermission at h
  simp only [bind, Except.bind] at h
  split at h
  · cases h
  · exact mapAcpPermissionOptions_spec h

end Provider

end AgentSdk
