import AgentSdk.Network.Connect

/-!
# What the CONNECT parser accepts

The parser accepts a header exactly when it is the text of the grammar: every
check of the parser is read off the grammar and every part of the grammar off
the checks.

## Main results

* `parseAuthority_eq_ok`, `readFields_eq_ok` — the request line and the fields.
* `parseConnect_iff` — the header.
* `ConnectHeader.lines` — the lines of an accepted header.
-/

namespace AgentSdk.Network

open AgentSdk.Text AgentSdk.Outcome AgentSdk.PairSplit

variable {destinations : List HttpsDestination} {destination : HttpsDestination}
  {header line name value : JsString} {minor : UInt16} {fields : List HeaderField}

/-! ## The destination -/

theorem parseAuthority_eq_ok :
    parseAuthority destinations line = .ok destination ↔
      destination ∈ destinations ∧ canonicalHostname destination.hostname = true ∧
        1 ≤ destination.port ∧ destination.port ≤ 65535 ∧
        ∃ minor : UInt16, (minor = 48 ∨ minor = 49) ∧ line = requestLine destination minor := by
  constructor
  · intro h
    unfold parseAuthority at h
    split at h
    · cases h
    next hostname digits hline =>
      have ⟨hcanonical, h⟩ := failIf_bind_eq_ok.1 h
      have ⟨hadmitted, h⟩ := failIf_bind_eq_ok.1 h
      have hdestination := Except.ok.inj h
      have ⟨minor, hminor, htext, _, _, hport⟩ := requestLine?_eq_some.1 hline
      push Not at hadmitted
      subst hdestination
      refine ⟨hadmitted.2, by simpa using hcanonical, portText_pos hport, hadmitted.1, minor,
        hminor, ?_⟩
      rw [htext, requestLine, HttpsDestination.authority, natDecimal_of_portText hport]
      simp
  · rintro ⟨hadmitted, hcanonical, hpos, hle, minor, hminor, rfl⟩
    have ⟨hne, hunits⟩ := hostUnits_of_canonical hcanonical
    have hport := isPortText_natDecimal hpos (show destination.port < 100000 by omega)
    have hline : requestLine? (requestLine destination minor) =
        some (destination.hostname, natDecimal destination.port) :=
      requestLine?_eq_some.2 ⟨minor, hminor, by simp [requestLine, HttpsDestination.authority],
        hne, hunits, hport⟩
    have hread : readRadix 10 (natDecimal destination.port) = destination.port :=
      readRadix_radix (by omega) (by omega) destination.port
    unfold parseAuthority
    rw [hline]
    simp only [hread]
    exact failIf_bind_eq_ok.2 ⟨by simp [hcanonical], failIf_bind_eq_ok.2
      ⟨by simp [hadmitted, hle], rfl⟩⟩

/-! ## The fields -/

theorem fieldNames_plain (h : name ∈ fieldNames) :
    (58 : UInt16) ∉ name ∧ name.all isPrintable = true := by
  have hall : ∀ name ∈ fieldNames, (58 : UInt16) ∉ name ∧ name.all isPrintable = true := by
    decide
  exact hall name h

theorem not_mem_colon {spelled : JsString} (h : lowered spelled ∈ fieldNames) :
    (58 : UInt16) ∉ spelled := fun hmem =>
  (fieldNames_plain h).1 (List.mem_map.2 ⟨58, hmem, lowerUnit_colon.2 rfl⟩)

theorem fieldLine?_eq_some :
    fieldLine? line = some (name, value) ↔
      ∃ field : HeaderField, line = field.line ∧ lowered field.name = name ∧
        field.value = value ∧ name ∈ fieldNames ∧ value ≠ [] ∧
        ∀ u ∈ value, isPrintable u = true := by
  constructor
  · intro h
    unfold fieldLine? at h
    simp only at h
    split at h
    next hparts =>
      have ⟨hname, hmark, hne, hvalue⟩ := hparts
      simp only [Option.some.injEq, Prod.mk.injEq] at h
      refine ⟨⟨line.takeWhile (· ≠ 58), value⟩, ?_, h.1, rfl, h.1 ▸ hname, h.2 ▸ hne,
        List.all_eq_true.1 (h.2 ▸ hvalue)⟩
      have hrest : line.dropWhile (· ≠ 58) = 58 :: 32 :: value := by
        rw [← List.take_append_drop 2 (line.dropWhile (· ≠ 58)), hmark, h.2]
        rfl
      rw [HeaderField.line, ← hrest, List.takeWhile_append_dropWhile]
    · cases h
  · rintro ⟨field, rfl, rfl, rfl, hname, hne, hvalue⟩
    have hcolon := not_mem_colon hname
    have hbefore : ∀ u ∈ field.name, decide (u ≠ 58) = true := fun u hu => by
      rw [decide_eq_true_eq]
      exact fun heq => hcolon (heq ▸ hu)
    have ⟨htake, hdrop⟩ := takeWhile_append_stop (32 :: field.value) hbefore
      (show decide ((58 : UInt16) ≠ 58) = false by decide)
    unfold fieldLine? HeaderField.line
    simp only [htake, hdrop]
    rw [if_pos ⟨hname, rfl, by simpa using hne, by simpa using hvalue⟩]
    rfl

/-- A field is admissible when its name and its value pass the checks of the loop. -/
theorem admissible_iff {field : HeaderField}
    (hcanonical : canonicalHostname destination.hostname = true) :
    field.Admissible destination ↔
      lowered field.name ∈ fieldNames ∧ field.value ≠ [] ∧
        (∀ u ∈ field.value, isPrintable u = true) ∧
        admissibleValue destination (lowered field.name) field.value = true := by
  have ⟨hne, hunits⟩ := hostUnits_of_canonical hcanonical
  have hhost : ∀ u ∈ destination.hostname, isPrintable u = true :=
    fun u hu => isPrintable_of_hostUnit (hunits u hu)
  have hauthority : ∀ u ∈ destination.authority, isPrintable u = true := by
    intro u hu
    rcases List.mem_append.1 hu with hin | hin
    · exact hhost u hin
    · rcases List.mem_cons.1 hin with heq | hdigit
      · rw [heq]
        decide
      · exact isPrintable_of_digit (isDigit_of_mem_natDecimal hdigit)
  constructor
  · intro h
    cases h with
    | host hname hvalue =>
      have hvalues : field.value ≠ [] ∧ ∀ u ∈ field.value, isPrintable u = true := by
        rcases hvalue with heq | ⟨_, heq⟩
        · rw [heq]
          exact ⟨by simp [HttpsDestination.authority], hauthority⟩
        · rw [heq]
          exact ⟨hne, hhost⟩
      refine ⟨by rw [hname]; decide, hvalues.1, hvalues.2, ?_⟩
      rw [hname, admissibleValue, if_pos rfl]
      rcases hvalue with heq | ⟨hport, heq⟩
      · simp [heq]
      · simp [heq, hport]
    | agent hname hprintable hvisible =>
      have ⟨u, hu, _⟩ := hvisible
      refine ⟨by rw [hname]; decide, List.ne_nil_of_mem hu, hprintable, ?_⟩
      rw [hname, admissibleValue, if_neg (by decide), if_pos rfl]
      exact List.any_eq_true.2 hvisible
    | connection hname hvalue =>
      have hprintable : ∀ u ∈ field.value, isPrintable u = true := by
        rcases hvalue with heq | heq
        · exact printable_of_lowered heq (by decide)
        · exact printable_of_lowered heq (by decide)
      have hnonempty : field.value ≠ [] := by
        intro hnil
        rw [hnil] at hvalue
        revert hvalue
        decide
      have hadmissible : ∀ name, name = js "connection" ∨ name = js "proxy-connection" →
          name ∈ fieldNames ∧ admissibleValue destination name field.value = true := by
        intro name hname
        have hnot : name ≠ js "host" ∧ name ≠ js "user-agent" ∧ name ∈ fieldNames := by
          rcases hname with heq | heq
          · subst heq; decide
          · subst heq; decide
        refine ⟨hnot.2.2, ?_⟩
        rw [admissibleValue, if_neg hnot.1, if_neg hnot.2.1]
        simpa using hvalue
      have ⟨hmem, hvalues⟩ := hadmissible _ hname
      exact ⟨hmem, hnonempty, hprintable, hvalues⟩
  · rintro ⟨hname, _, hprintable, hvalue⟩
    unfold admissibleValue at hvalue
    split at hvalue
    next hname =>
      rw [Bool.or_eq_true, Bool.and_eq_true, beq_iff_eq, beq_iff_eq, beq_iff_eq] at hvalue
      exact .host hname hvalue
    next hnothost =>
      split at hvalue
      next hname => exact .agent hname hprintable (List.any_eq_true.1 hvalue)
      next hnotagent =>
        rw [Bool.or_eq_true, beq_iff_eq, beq_iff_eq] at hvalue
        simp only [fieldNames, List.mem_cons, List.not_mem_nil, or_false] at hname
        refine .connection ?_ hvalue
        rcases hname with heq | heq | heq | heq
        · exact absurd heq hnothost
        · exact .inl heq
        · exact .inr heq
        · exact absurd heq hnotagent

/-- **The loop accepts admissible fields with distinct names.** -/
theorem readFields_eq_ok {lines seen names : List JsString}
    (hcanonical : canonicalHostname destination.hostname = true) :
    readFields destination lines seen = .ok names ↔
      ∃ fields : List HeaderField, lines = fields.map HeaderField.line ∧
        (∀ field ∈ fields, field.Admissible destination) ∧
        (fields.map fun field => lowered field.name).Nodup ∧
        (∀ field ∈ fields, lowered field.name ∉ seen) ∧
        names = seen ++ fields.map fun field => lowered field.name := by
  induction lines generalizing seen with
  | nil =>
    constructor
    · intro h
      have hnames := Except.ok.inj h
      exact ⟨[], rfl, by simp, by simp, by simp, by simp [← hnames]⟩
    · rintro ⟨fields, hlines, _, _, _, rfl⟩
      have hnil : fields = [] := by simpa using hlines.symm
      subst hnil
      simp [readFields]
  | cons line lines ih =>
    constructor
    · intro h
      unfold readFields at h
      split at h
      · cases h
      next name value hline =>
        have ⟨hfresh, h⟩ := failIf_bind_eq_ok.1 h
        have ⟨hvalue, h⟩ := failIf_bind_eq_ok.1 h
        have ⟨field, htext, hname, hsame, hknown, hne, hprintable⟩ := fieldLine?_eq_some.1 hline
        have ⟨fields, hlines, hadmissible, hnodup, hnew, hnames⟩ := ih.1 h
        subst hname hsame
        refine ⟨field :: fields, by rw [htext, hlines]; rfl, ?_, ?_, ?_, ?_⟩
        · intro other hother
          rcases List.mem_cons.1 hother with heq | hin
          · rw [heq]
            exact (admissible_iff hcanonical).2
              ⟨hknown, hne, hprintable, by simpa using hvalue⟩
          · exact hadmissible other hin
        · rw [List.map_cons, List.nodup_cons]
          refine ⟨fun hmem => ?_, hnodup⟩
          have ⟨other, hother, heq⟩ := List.mem_map.1 hmem
          exact hnew other hother (by simp [heq])
        · intro other hother
          rcases List.mem_cons.1 hother with heq | hin
          · exact heq ▸ hfresh
          · exact fun hmem => hnew other hin (List.mem_append_left _ hmem)
        · rw [hnames]
          simp
    · rintro ⟨fields, hlines, hadmissible, hnodup, hnew, rfl⟩
      cases fields with
      | nil => cases hlines
      | cons field fields =>
        rw [List.map_cons, List.cons.injEq] at hlines
        rw [List.map_cons, List.nodup_cons] at hnodup
        have ⟨hknown, hne, hprintable, hvalue⟩ :=
          (admissible_iff hcanonical).1 (hadmissible field (by simp))
        have hline : fieldLine? line = some (lowered field.name, field.value) :=
          fieldLine?_eq_some.2 ⟨field, hlines.1, rfl, rfl, hknown, hne, hprintable⟩
        unfold readFields
        rw [hline]
        refine failIf_bind_eq_ok.2 ⟨hnew field (by simp), failIf_bind_eq_ok.2
          ⟨by simp [hvalue], ih.2 ⟨fields, hlines.2, fun other hother =>
            hadmissible other (by simp [hother]), hnodup.2, ?_, by simp⟩⟩⟩
        intro other hother hmem
        rcases List.mem_append.1 hmem with hold | hhere
        · exact hnew other (by simp [hother]) hold
        · exact hnodup.1 (List.mem_map.2 ⟨other, hother, List.mem_singleton.1 hhere⟩)

/-! ## The header -/

theorem requestLine_printable (hcanonical : canonicalHostname destination.hostname = true)
    (hminor : minor = 48 ∨ minor = 49) :
    ∀ u ∈ requestLine destination minor, isPrintable u = true := by
  have ⟨_, hunits⟩ := hostUnits_of_canonical hcanonical
  intro u hu
  simp only [requestLine, HttpsDestination.authority, List.mem_append, List.mem_cons,
    List.not_mem_nil, or_false] at hu
  rcases hu with hin | (hin | hin | hin) | hin | hin
  · exact List.all_eq_true.1 (show (js "CONNECT ").all isPrintable = true by decide) u hin
  · exact isPrintable_of_hostUnit (hunits u hin)
  · rw [hin]
    decide
  · exact isPrintable_of_digit (isDigit_of_mem_natDecimal hin)
  · exact List.all_eq_true.1 (show (js " HTTP/1.").all isPrintable = true by decide) u hin
  · rw [hin]
    rcases hminor with heq | heq
    · rw [heq]; decide
    · rw [heq]; decide

theorem field_printable {field : HeaderField}
    (hcanonical : canonicalHostname destination.hostname = true)
    (h : field.Admissible destination) : ∀ u ∈ field.line, isPrintable u = true := by
  have ⟨hknown, _, hprintable, _⟩ := (admissible_iff hcanonical).1 h
  intro u hu
  simp only [HeaderField.line, List.mem_append, List.mem_cons] at hu
  rcases hu with hin | hin | hin | hin
  · exact printable_of_lowered rfl (fieldNames_plain hknown).2 u hin
  · rw [hin]
    decide
  · rw [hin]
    decide
  · exact hprintable u hin

/-- The lines of a header of the grammar are printable. -/
theorem ConnectHeader.lines (h : ConnectHeader destinations destination minor fields header) :
    ∀ line ∈ headerLines destination minor fields, ∀ u ∈ line, isPrintable u = true := by
  intro line hline
  rcases List.mem_cons.1 hline with heq | hin
  · rw [heq]
    exact requestLine_printable h.hostname h.version
  · have ⟨field, hfield, heq⟩ := List.mem_map.1 hin
    rw [← heq]
    exact field_printable h.hostname (h.admissible field hfield)

/-- A header that passes the whole-text check ends behind a text. -/
theorem endsHeader_iff {text : JsString} :
    endsHeader text = true ↔ ∃ body, text = body ++ [13, 10, 13, 10] := by
  unfold endsHeader
  rw [List.isSuffixOf_iff_suffix]
  exact ⟨fun ⟨body, h⟩ => ⟨body, h.symm⟩, fun ⟨body, h⟩ => ⟨body, h.symm⟩⟩

theorem take_body (body : JsString) :
    (body ++ [13, 10, 13, 10]).take ((body ++ [13, 10, 13, 10]).length - 4) = body := by
  rw [List.length_append, List.length_cons, List.length_cons, List.length_cons, List.length_cons,
    List.length_nil]
  exact List.take_left' (by omega)

theorem ConnectHeader.units (h : ConnectHeader destinations destination minor fields header) :
    ∀ u ∈ header, isHeaderUnit u = true := by
  have hcr : isHeaderUnit 13 = true := by decide
  have hlf : isHeaderUnit 10 = true := by decide
  have hjoined : ∀ {lines : List JsString}, (∀ line ∈ lines, ∀ u ∈ line, isPrintable u = true) →
      ∀ u ∈ [13, 10].intercalate lines, isHeaderUnit u = true := by
    intro lines hlines
    induction lines with
    | nil => simp
    | cons line lines ih =>
      have hline := fun u hu => isHeaderUnit_of_printable (hlines line (by simp) u hu)
      cases lines with
      | nil => simpa using hline
      | cons next lines =>
        intro u hu
        rw [List.intercalate_cons_cons, List.append_assoc] at hu
        rcases List.mem_append.1 hu with hin | hin
        · exact hline u hin
        · rcases List.mem_append.1 hin with hmark | hrest
          · simp only [List.mem_cons, List.not_mem_nil, or_false] at hmark
            rcases hmark with heq | heq
            · exact heq ▸ hcr
            · exact heq ▸ hlf
          · exact ih (fun other hother => hlines other (by simp [hother])) u hrest
  rw [h.text, headerText]
  intro u hu
  rcases List.mem_append.1 hu with hin | hin
  · exact hjoined h.lines u hin
  · simp only [List.mem_cons, List.not_mem_nil, or_false] at hin
    rcases hin with heq | heq | heq | heq <;> rw [heq] <;> decide

theorem lt_of_headerUnit {u : UInt16} (h : isHeaderUnit u = true) : u.toNat < 0x80 := by
  simp only [isHeaderUnit, isPrintable, Bool.or_eq_true, Bool.and_eq_true, decide_eq_true_eq,
    beq_iff_eq] at h
  rcases h with (h | h) | h
  · omega
  · rw [h]
    decide
  · rw [h]
    decide

/-- **The parser accepts exactly the grammar.** -/
theorem parseConnect_iff :
    parseConnect header destinations = .ok destination ↔
      ∃ minor fields, ConnectHeader destinations destination minor fields header := by
  constructor
  · intro h
    unfold parseConnect at h
    have ⟨hwhole, h⟩ := failIf_bind_eq_ok.1 h
    have ⟨endpoint, hauthority, h⟩ := bind_eq_ok.1 h
    have ⟨names, hfields, h⟩ := bind_eq_ok.1 h
    have ⟨hhost, h⟩ := failIf_bind_eq_ok.1 h
    have hsame := Except.ok.inj h
    subst hsame
    push Not at hwhole hhost
    have ⟨hlength, _, hends⟩ := hwhole
    have hended : endsHeader header = true := by simpa using hends
    have ⟨body, hbody⟩ := endsHeader_iff.1 hended
    subst hbody
    rw [take_body] at hauthority hfields
    have ⟨hadmitted, hcanonical, hpos, hle, minor, hminor, hrequest⟩ :=
      parseAuthority_eq_ok.1 hauthority
    have ⟨fields, hlines, hadmissible, hnodup, _, hnames⟩ := (readFields_eq_ok hcanonical).1 hfields
    refine ⟨minor, fields, ?_, ?_, hminor, hadmitted, hcanonical, ⟨hpos, hle⟩, hadmissible,
      hnodup, ?_⟩
    · have hsplit : splitPair 13 10 body = headerLines endpoint minor fields := by
        cases hparts : splitPair 13 10 body with
        | nil => exact absurd hparts (splitPair_ne_nil body)
        | cons first rest =>
          rw [hparts] at hrequest hlines
          rw [headerLines, ← hlines, ← hrequest]
          rfl
      rw [headerText, ← hsplit, intercalate_splitPair]
    · exact le_trans (length_le_utf8Length _) hlength
    · rw [hnames, List.nil_append] at hhost
      have ⟨field, hfield, heq⟩ := List.mem_map.1 hhost
      exact ⟨field, hfield, heq⟩
  · rintro ⟨minor, fields, h⟩
    have hunits := h.units
    have hsize := (ascii_size header fun u hu => lt_of_headerUnit (hunits u hu)).2
    have hsplit : splitPair 13 10 ([13, 10].intercalate (headerLines destination minor fields)) =
        headerLines destination minor fields :=
      splitPair_intercalate (by simp [headerLines]) fun line hline =>
        not_mem_of_printable (h.lines line hline)
    have hauthority : parseAuthority destinations (requestLine destination minor) =
        .ok destination :=
      parseAuthority_eq_ok.2 ⟨h.admitted, h.hostname, h.port.1, h.port.2, minor, h.version, rfl⟩
    have hfields : readFields destination (fields.map HeaderField.line) [] =
        .ok (fields.map fun field => lowered field.name) :=
      (readFields_eq_ok h.hostname).2 ⟨fields, rfl, h.admissible, h.once, by simp, by simp⟩
    unfold parseConnect
    refine failIf_bind_eq_ok.2 ⟨?_, bind_eq_ok.2 ⟨destination, ?_, bind_eq_ok.2
      ⟨fields.map fun field => lowered field.name, ?_, failIf_bind_eq_ok.2 ⟨?_, rfl⟩⟩⟩⟩
    · have hall : header.all isHeaderUnit = true := List.all_eq_true.2 hunits
      have hends : endsHeader header = true := endsHeader_iff.2 ⟨_, h.text⟩
      have hlength := h.length
      simp [hall, hends, hsize, hlength]
    · rw [h.text, headerText, take_body, hsplit]
      exact hauthority
    · rw [h.text, headerText, take_body, hsplit]
      exact hfields
    · have ⟨field, hfield, heq⟩ := h.host
      exact fun hno => hno (List.mem_map.2 ⟨field, hfield, heq⟩)

end AgentSdk.Network
