import AgentSdk.Network.ConnectGrammar

/-!
# The policy and the helper

A destination that the sandbox policy admits is to be usable through the Docker
helper, and the helper is to admit no host name that the policy refuses as the
spelling of an IPv4 address.  Both fail at the last label: the policy admits a
label of digits and hyphens, and the helper admits `0x` and hexadecimal digits.

## Main results

* `parseConnect_canonical` — the canonical request of a destination.
* `destinations_agree` — when the policy and the helper agree.
* `destinations_disagree` — a host name on either side.
-/

namespace AgentSdk.Network

open AgentSdk.Text

/-- The canonical CONNECT request for a destination. -/
def canonicalHeader (destination : HttpsDestination) : JsString :=
  headerText destination 49 [⟨js "Host", destination.authority⟩]

theorem length_authority_le {destination : HttpsDestination}
    (hname : destination.hostname.length ≤ 253) (hport : destination.port ≤ 65535) :
    destination.authority.length ≤ 259 := by
  have hdigits := length_natDecimal_le (k := 5) (n := destination.port) (by omega) (by omega)
  simp only [HttpsDestination.authority, List.length_append, List.length_cons]
  omega

theorem validDestination_iff {destination : HttpsDestination} :
    validDestination destination = true ↔ canonicalHostname destination.hostname = true ∧
      1 ≤ destination.port ∧ destination.port ≤ 65535 := by
  simp [validDestination, and_assoc]

theorem lowered_host : lowered (js "Host") = js "host" := by decide

/-- **The canonical request of a destination** is accepted with every allow-list that
names a destination the helper accepts. -/
theorem parseConnect_canonical {destinations : List HttpsDestination}
    {destination : HttpsDestination} (hmem : destination ∈ destinations) :
    parseConnect (canonicalHeader destination) destinations = .ok destination ↔
      validDestination destination = true := by
  rw [validDestination_iff]
  constructor
  · intro h
    have ⟨minor, fields, hheader⟩ := parseConnect_iff.1 h
    exact ⟨hheader.hostname, hheader.port⟩
  · rintro ⟨hcanonical, hport⟩
    have hname : destination.hostname.length ≤ 253 := by
      have hcommon := (canonicalHostname_iff.1 hcanonical).1
      simp only [commonHostname, Bool.and_eq_true, decide_eq_true_eq] at hcommon
      exact hcommon.1.1
    have hauthority := length_authority_le hname hport.2
    refine parseConnect_iff.2 ⟨49, [⟨js "Host", destination.authority⟩],
      { text := rfl, length := ?_, version := .inr rfl, admitted := hmem, hostname := hcanonical,
        port := hport, admissible := ?_, once := by simp, host := ?_ }⟩
    · have hconnect : (js "CONNECT ").length = 8 := by decide
      have hversion : (js " HTTP/1.").length = 8 := by decide
      have hhost : (js "Host").length = 4 := by decide
      simp only [canonicalHeader, headerText, headerLines, requestLine, HeaderField.line,
        List.map_cons, List.map_nil, List.intercalate_cons_cons, List.intercalate_singleton,
        List.length_append, List.length_cons, List.length_nil, hconnect, hversion, hhost]
      omega
    · intro field hfield
      rw [List.mem_singleton.1 hfield]
      exact .host lowered_host (.inl rfl)
    · exact ⟨_, List.mem_singleton.2 rfl, lowered_host⟩

/-- **When the policy and the helper agree.**  The helper takes a list that the policy
admits, and each canonical request for it, exactly when every last label has a
letter.  A destination that the helper takes is no spelling of an IPv4 address that the
policy refuses exactly when it is no such spelling with a hexadecimal last label. -/
theorem destinations_agree (destinations : List HttpsDestination)
    (helperDestination : HttpsDestination) :
    (destinationsSchema destinations = true →
      ((∀ destination ∈ destinations, validDestination destination = true ∧
          parseConnect (canonicalHeader destination) destinations = .ok destination) ↔
        ∀ destination ∈ destinations, (lastLabel destination.hostname).any isLower = true)) ∧
    (validDestination helperDestination = true →
      parseConnect (canonicalHeader helperDestination) [helperDestination] =
        .ok helperDestination ∧
      (¬((ipv4Spelling helperDestination.hostname).isSome = true ∧
          destinationSchema helperDestination = false) ↔
        ¬((ipv4Spelling helperDestination.hostname).isSome = true ∧
          hexLabel (lastLabel helperDestination.hostname) = true))) := by
  constructor
  · intro hschema
    simp only [destinationsSchema, Bool.and_eq_true, List.all_eq_true] at hschema
    have heach := hschema.1.2
    constructor
    · intro h destination hmem
      have hcanonical := (validDestination_iff.1 (h destination hmem).1).1
      exact List.any_eq_true.2 (canonicalHostname_iff.1 hcanonical).2
    · intro h destination hmem
      have hdestination := heach destination hmem
      simp only [destinationSchema, Bool.and_eq_true, decide_eq_true_eq] at hdestination
      obtain ⟨⟨hpolicy, hpos⟩, hle⟩ := hdestination
      have hcanonical : canonicalHostname destination.hostname = true :=
        canonicalHostname_iff.2
          ⟨(policyHostname_iff.1 hpolicy).1, List.any_eq_true.1 (h destination hmem)⟩
      have hvalid := validDestination_iff.2 ⟨hcanonical, hpos, hle⟩
      exact ⟨hvalid, (parseConnect_canonical hmem).2 hvalid⟩
  · intro hvalid
    refine ⟨(parseConnect_canonical (List.mem_singleton.2 rfl)).2 hvalid, ?_⟩
    obtain ⟨hcanonical, hpos, hle⟩ := validDestination_iff.1 hvalid
    obtain ⟨hcommon, hletter⟩ := canonicalHostname_iff.1 hcanonical
    have hnumeric := numericAddressLabel_of_lower (List.any_eq_true.2 hletter)
    have hschema : destinationSchema helperDestination =
        !hexLabel (lastLabel helperDestination.hostname) := by
      simp [destinationSchema, policyHostname, hcommon, hnumeric, hpos, hle]
    rw [hschema, Bool.not_eq_false']

/-- A host name that the policy admits and the helper refuses. -/
def hyphenatedDestination : HttpsDestination := ⟨js "a.1-2", 443⟩

/-- A host name that the helper admits, and that spells 127.0.0.1. -/
def hexadecimalDestination : HttpsDestination := ⟨js "127.0x1", 443⟩

theorem destinations_disagree :
    (destinationsSchema [hyphenatedDestination] = true ∧
      validDestination hyphenatedDestination = false) ∧
    (validDestination hexadecimalDestination = true ∧
      (parseConnect (canonicalHeader hexadecimalDestination) [hexadecimalDestination]).isOk = true ∧
      ipv4Spelling hexadecimalDestination.hostname = some (127 * 256 ^ 3 + 1) ∧
      destinationSchema hexadecimalDestination = false) := by
  decide

end AgentSdk.Network
