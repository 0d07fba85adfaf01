import AgentSdk.Lib.Joined
import AgentSdk.Lib.PairSplit
import AgentSdk.Lib.Radix
import AgentSdk.Network.Hostname

/-!
# CONNECT requests

`parseConnect` reads the header of a CONNECT request: a request line for an
admitted destination and a few fields.  It checks the whole text, splits it at
the line ends and reads each line with a regular expression; what it accepts is
exactly the grammar of `ConnectHeader`.

The regular expressions are written as the one way in which they can match: the
units of each group end where the next literal begins.  The whole text was
checked before, so the case folding of the field expressions is that of ASCII.

## Main results

* `requestLine?_eq_some` — the request lines.
-/

namespace AgentSdk.Network

open AgentSdk.Text AgentSdk.Outcome AgentSdk.PairSplit

/-! ## Lines -/

/-- `[\x20-\x7e]` -/
def isPrintable (u : UInt16) : Bool := decide (32 ≤ u.toNat) && decide (u.toNat ≤ 126)

/-- `[\x21-\x7e]` -/
def isVisible (u : UInt16) : Bool := decide (33 ≤ u.toNat) && decide (u.toNat ≤ 126)

/-- `[a-z0-9.-]` -/
def isHostUnit (u : UInt16) : Bool := isLabelUnit u || u == 46

/-- `/[^\x20-\x7e\r\n]/` does not match. -/
def isHeaderUnit (u : UInt16) : Bool := isPrintable u || u == 13 || u == 10

def lowerUnit (u : UInt16) : UInt16 :=
  if 65 ≤ u.toNat ∧ u.toNat ≤ 90 then UInt16.ofNat (u.toNat + 32) else u

/-- `toLowerCase` -/
def lowered (s : JsString) : JsString := s.map lowerUnit

/-- `[1-9][0-9]{0,4}` -/
def isPortText (digits : JsString) : Bool :=
  decide (1 ≤ digits.length) && decide (digits.length ≤ 5) && digits.all isDigit &&
    decide (digits.head? ≠ some 48)

/-- `/^CONNECT ([a-z0-9.-]+):([1-9][0-9]{0,4}) HTTP\/1\.[01]$/`, with its two groups. -/
def requestLine? (line : JsString) : Option (JsString × JsString) :=
  if (js "CONNECT ").isPrefixOf line = true then
    let target := line.drop (js "CONNECT ").length
    let hostname := target.takeWhile isHostUnit
    let rest := target.dropWhile isHostUnit
    let digits := (rest.drop 1).takeWhile isDigit
    let version := (rest.drop 1).dropWhile isDigit
    if hostname ≠ [] ∧ rest.head? = some 58 ∧ isPortText digits = true ∧
        (version = js " HTTP/1.0" ∨ version = js " HTTP/1.1") then some (hostname, digits)
    else none
  else none

/-- The fields that a header may have. -/
def fieldNames : List JsString :=
  [js "host", js "connection", js "proxy-connection", js "user-agent"]

/-- `/^(Host|Connection|Proxy-Connection|User-Agent): ([\x20-\x7e]+)$/i`, the name in
lower case. -/
def fieldLine? (line : JsString) : Option (JsString × JsString) :=
  let name := lowered (line.takeWhile (· ≠ 58))
  let rest := line.dropWhile (· ≠ 58)
  let value := rest.drop 2
  if name ∈ fieldNames ∧ rest.take 2 = [58, 32] ∧ value ≠ [] ∧ value.all isPrintable = true then
    some (name, value)
  else none

/-! ## The parser -/

/-- The check of a field's value. -/
def admissibleValue (endpoint : HttpsDestination) (name value : JsString) : Bool :=
  if name = js "host" then
    value == endpoint.authority || (endpoint.port == 443 && value == endpoint.hostname)
  else if name = js "user-agent" then value.any isVisible
  else lowered value == js "close" || lowered value == js "keep-alive"

/-- The loop over the field lines, with the names met so far. -/
def readFields (endpoint : HttpsDestination) :
    List JsString → List JsString → Except String (List JsString)
  | [], fields => pure fields
  | line :: lines, fields =>
    match fieldLine? line with
    | none => throw "Unexpected CONNECT header."
    | some (name, value) => do
        failIf (name ∈ fields) "Unexpected CONNECT header."
        failIf (admissibleValue endpoint name value = false) "Invalid CONNECT header value."
        readFields endpoint lines (fields ++ [name])

/-- `header.endsWith('\r\n\r\n')` -/
def endsHeader (header : JsString) : Bool := [13, 10, 13, 10].isSuffixOf header

/-- The destination of a request line. -/
def parseAuthority (destinations : List HttpsDestination) (line : JsString) :
    Except String HttpsDestination :=
  match requestLine? line with
  | none => throw "Invalid CONNECT authority."
  | some (hostname, digits) => do
      failIf (canonicalHostname hostname = false) "Invalid CONNECT authority."
      let endpoint : HttpsDestination := ⟨hostname, readRadix 10 digits⟩
      failIf (65535 < endpoint.port ∨ endpoint ∉ destinations)
        "CONNECT destination is not admitted."
      pure endpoint

def parseConnect (header : JsString) (destinations : List HttpsDestination) :
    Except String HttpsDestination := do
  failIf (8192 < utf8Length header ∨ header.all isHeaderUnit = false ∨ endsHeader header = false)
    "Invalid CONNECT header."
  let lines := splitPair 13 10 (header.take (header.length - 4))
  let endpoint ← parseAuthority destinations (lines.headD [])
  let fields ← readFields endpoint lines.tail []
  failIf (js "host" ∉ fields) "CONNECT requires an exact Host header."
  pure endpoint

/-! ## The grammar -/

/-- A field as it is spelled. -/
structure HeaderField where
  name : JsString
  value : JsString

def HeaderField.line (field : HeaderField) : JsString := field.name ++ 58 :: 32 :: field.value

/-- A field of a request for a destination. -/
inductive HeaderField.Admissible (destination : HttpsDestination) (field : HeaderField) : Prop
  | host (name : lowered field.name = js "host")
      (value : field.value = destination.authority ∨
        (destination.port = 443 ∧ field.value = destination.hostname))
  | agent (name : lowered field.name = js "user-agent")
      (printable : ∀ u ∈ field.value, isPrintable u = true)
      (visible : ∃ u ∈ field.value, isVisible u = true)
  | connection (name : lowered field.name = js "connection" ∨
        lowered field.name = js "proxy-connection")
      (value : lowered field.value = js "close" ∨ lowered field.value = js "keep-alive")

/-- The request line of a destination, for version 1.0 or 1.1. -/
def requestLine (destination : HttpsDestination) (minor : UInt16) : JsString :=
  js "CONNECT " ++ (destination.authority ++ (js " HTTP/1." ++ [minor]))

/-- The lines of a header. -/
def headerLines (destination : HttpsDestination) (minor : UInt16) (fields : List HeaderField) :
    List JsString := requestLine destination minor :: fields.map HeaderField.line

/-- The text of a header: its lines and one empty line. -/
def headerText (destination : HttpsDestination) (minor : UInt16) (fields : List HeaderField) :
    JsString := [13, 10].intercalate (headerLines destination minor fields) ++ [13, 10, 13, 10]

/-- **The grammar of CONNECT headers.** -/
structure ConnectHeader (destinations : List HttpsDestination) (destination : HttpsDestination)
    (minor : UInt16) (fields : List HeaderField) (header : JsString) : Prop where
  text : header = headerText destination minor fields
  length : header.length ≤ 8192
  version : minor = 48 ∨ minor = 49
  admitted : destination ∈ destinations
  hostname : canonicalHostname destination.hostname = true
  port : 1 ≤ destination.port ∧ destination.port ≤ 65535
  admissible : ∀ field ∈ fields, field.Admissible destination
  once : (fields.map fun field => lowered field.name).Nodup
  host : ∃ field ∈ fields, lowered field.name = js "host"

/-! ## Units -/

theorem isHeaderUnit_of_printable {u : UInt16} (h : isPrintable u = true) :
    isHeaderUnit u = true := by
  simp [isHeaderUnit, h]

theorem isPrintable_of_hostUnit {u : UInt16} (h : isHostUnit u = true) : isPrintable u = true := by
  have hcases : isDigit u = true ∨ isLower u = true ∨ u = 45 ∨ u = 46 := by
    simp only [isHostUnit, isLabelUnit, isLabelEnd, Bool.or_eq_true, beq_iff_eq] at h
    tauto
  rcases hcases with h | h | h | h
  · simp only [isDigit, isPrintable, Bool.and_eq_true, decide_eq_true_eq] at h ⊢
    omega
  · simp only [isLower, isPrintable, Bool.and_eq_true, decide_eq_true_eq] at h ⊢
    omega
  · subst h
    decide
  · subst h
    decide

theorem isPrintable_of_digit {u : UInt16} (h : isDigit u = true) : isPrintable u = true := by
  simp only [isDigit, isPrintable, Bool.and_eq_true, decide_eq_true_eq] at h ⊢
  omega

/-- Lower case keeps and reflects what is printable. -/
theorem isPrintable_lowerUnit (u : UInt16) : isPrintable (lowerUnit u) = isPrintable u := by
  unfold lowerUnit
  split
  next hupper =>
    have hnat : (UInt16.ofNat (u.toNat + 32)).toNat = u.toNat + 32 := by
      rw [UInt16.toNat_ofNat']
      omega
    rw [Bool.eq_iff_iff]
    simp only [isPrintable, hnat, Bool.and_eq_true, decide_eq_true_eq]
    omega
  · rfl

theorem lowerUnit_colon {u : UInt16} : lowerUnit u = 58 ↔ u = 58 := by
  unfold lowerUnit
  split
  next hupper =>
    have hnat : (UInt16.ofNat (u.toNat + 32)).toNat = u.toNat + 32 := by
      rw [UInt16.toNat_ofNat']
      omega
    constructor
    · intro heq
      rw [heq] at hnat
      have hcolon : (58 : UInt16).toNat = 58 := rfl
      omega
    · intro heq
      subst heq
      simp at hupper
  · exact Iff.rfl

theorem printable_of_lowered {s t : JsString} (h : lowered s = t)
    (ht : t.all isPrintable = true) : ∀ u ∈ s, isPrintable u = true := by
  intro u hu
  rw [List.all_eq_true] at ht
  rw [← isPrintable_lowerUnit]
  exact ht _ (h ▸ List.mem_map_of_mem hu)

theorem not_mem_of_printable {s : JsString} (h : ∀ u ∈ s, isPrintable u = true) :
    (13 : UInt16) ∉ s := fun hmem => by
  have hno := h 13 hmem
  revert hno
  decide

/-! ## The request line -/

theorem isDigit_of_portText {digits : JsString} (h : isPortText digits = true) :
    ∀ u ∈ digits, isDigit u = true := by
  simp only [isPortText, Bool.and_eq_true] at h
  exact List.all_eq_true.1 h.1.2

/-- The decimals of five digits are the port texts. -/
theorem isPortText_natDecimal {n : Nat} (hpos : 1 ≤ n) (hlt : n < 100000) :
    isPortText (natDecimal n) = true := by
  have hne := natDecimal_ne_nil n
  have hlength := length_natDecimal_le (k := 5) (by omega) hlt
  have hdigits : (natDecimal n).all isDigit = true :=
    List.all_eq_true.2 fun u => isDigit_of_mem_natDecimal
  have hhead := head?_natDecimal (Nat.pos_iff_ne_zero.1 hpos)
  have hlen : 1 ≤ (natDecimal n).length := List.length_pos_iff.2 hne
  simp [isPortText, hlength, hdigits, hhead, hlen]

theorem natDecimal_of_portText {digits : JsString} (h : isPortText digits = true) :
    natDecimal (readRadix 10 digits) = digits := by
  have hdigits := isDigit_of_portText h
  simp only [isPortText, Bool.and_eq_true, decide_eq_true_eq] at h
  exact natDecimal_readRadix (List.length_pos_iff.1 h.1.1.1) hdigits h.2

theorem portText_pos {digits : JsString} (h : isPortText digits = true) :
    1 ≤ readRadix 10 digits := by
  by_contra hzero
  have hspell := natDecimal_of_portText h
  have hz : readRadix 10 digits = 0 := by omega
  rw [hz] at hspell
  rw [← hspell] at h
  revert h
  decide

theorem takeWhile_append_stop {α : Type} {p : α → Bool} {xs : List α} {z : α} (ys : List α)
    (hxs : ∀ x ∈ xs, p x = true) (hz : p z = false) :
    (xs ++ z :: ys).takeWhile p = xs ∧ (xs ++ z :: ys).dropWhile p = z :: ys := by
  rw [List.takeWhile_append_of_pos hxs, List.dropWhile_append_of_pos hxs]
  simp [hz]

theorem requestLine?_eq_some {line hostname digits : JsString} :
    requestLine? line = some (hostname, digits) ↔
      ∃ minor : UInt16, (minor = 48 ∨ minor = 49) ∧
        line = js "CONNECT " ++ (hostname ++ 58 :: (digits ++ (js " HTTP/1." ++ [minor]))) ∧
        hostname ≠ [] ∧ (∀ u ∈ hostname, isHostUnit u = true) ∧ isPortText digits = true := by
  have hversion : ∀ version : JsString, (version = js " HTTP/1.0" ∨ version = js " HTTP/1.1") ↔
      ∃ minor : UInt16, (minor = 48 ∨ minor = 49) ∧ version = js " HTTP/1." ++ [minor] := by
    intro version
    constructor
    · intro h
      rcases h with h | h
      · exact ⟨48, .inl rfl, by rw [h]; decide⟩
      · exact ⟨49, .inr rfl, by rw [h]; decide⟩
    · rintro ⟨minor, hminor, rfl⟩
      rcases hminor with h | h
      · exact .inl (by rw [h]; decide)
      · exact .inr (by rw [h]; decide)
  have hcolon : isHostUnit 58 = false := by decide
  have hspace : isDigit 32 = false := by decide
  constructor
  · intro h
    unfold requestLine? at h
    split at h
    next hprefix =>
      rw [List.isPrefixOf_iff_prefix] at hprefix
      have ⟨target, htarget⟩ := hprefix
      simp only [← htarget, List.drop_left] at h ⊢
      split at h
      next hparts =>
        have ⟨hne, hhead, hport, hend⟩ := hparts
        simp only [Option.some.injEq, Prod.mk.injEq] at h
        have ⟨hhost, hdigits⟩ := h
        rw [hversion] at hend
        have ⟨minor, hminor, hrest⟩ := hend
        refine ⟨minor, hminor, ?_, hhost ▸ hne, ?_, hdigits ▸ hport⟩
        · have hcut : target.dropWhile isHostUnit =
              58 :: (target.dropWhile isHostUnit).drop 1 := by
            cases hdrop : target.dropWhile isHostUnit with
            | nil => simp [hdrop] at hhead
            | cons u rest =>
              rw [hdrop] at hhead
              simp only [List.head?_cons, Option.some.injEq] at hhead
              simp [hhead]
          have hsplit : (target.dropWhile isHostUnit).drop 1 =
              digits ++ (js " HTTP/1." ++ [minor]) := by
            rw [← hdigits, ← hrest, List.takeWhile_append_dropWhile]
          rw [← hhost, ← hsplit, ← hcut, List.takeWhile_append_dropWhile]
        · intro u hu
          rw [← hhost] at hu
          exact List.all_eq_true.1 List.all_takeWhile u hu
      · cases h
    · cases h
  · rintro ⟨minor, hminor, rfl, hne, hhost, hport⟩
    have hspaces : js " HTTP/1." ++ [minor] = 32 :: (js "HTTP/1." ++ [minor]) := by
      have hunits : js " HTTP/1." = 32 :: js "HTTP/1." := by decide
      rw [hunits, List.cons_append]
    have ⟨htake, hdrop⟩ := takeWhile_append_stop
      (digits ++ (js " HTTP/1." ++ [minor])) hhost hcolon
    have ⟨htake', hdrop'⟩ := takeWhile_append_stop (js "HTTP/1." ++ [minor])
      (isDigit_of_portText hport) hspace
    rw [← hspaces] at htake' hdrop'
    have hend : js " HTTP/1." ++ [minor] = js " HTTP/1.0" ∨
        js " HTTP/1." ++ [minor] = js " HTTP/1.1" := (hversion _).2 ⟨minor, hminor, rfl⟩
    unfold requestLine?
    rw [if_pos (List.isPrefixOf_iff_prefix.2 (List.prefix_append _ _))]
    simp only [List.drop_left, htake, hdrop, List.head?_cons, List.drop_succ_cons, List.drop_zero,
      htake', hdrop']
    rw [if_pos ⟨hne, trivial, hport, hend⟩]

/-- A canonical host name consists of host units. -/
theorem hostUnits_of_canonical {hostname : JsString} (h : canonicalHostname hostname = true) :
    hostname ≠ [] ∧ ∀ u ∈ hostname, isHostUnit u = true := by
  obtain ⟨hcommon, _⟩ := canonicalHostname_iff.1 h
  constructor
  · intro hnil
    subst hnil
    simp [commonHostname, labels] at hcommon
  · intro u hu
    have hjoin : [46].intercalate (labels hostname) = hostname := List.intercalate_splitOn 46
    by_cases hdot : u = 46
    · subst hdot
      decide
    · have hmem : ∃ label ∈ labels hostname, u ∈ label := by
        rw [← hjoin] at hu
        exact (Joined.mem_intercalate hu).resolve_left hdot
      obtain ⟨label, hlabel, hin⟩ := hmem
      have hdns := commonHostname_label hcommon hlabel
      simp only [dnsLabel, Bool.and_eq_true, List.all_eq_true] at hdns
      simp [isHostUnit, hdns.1.1.2 u hin]

end AgentSdk.Network
