import AgentSdk.Lib.Text
import AgentSdk.Lib.Outcome
import Mathlib.Tactic.Common

/-!
# HTTPS destinations

A destination is a host name and a port.  The sandbox policy and the Docker
helper each decide which host names are canonical: the labels are the same, but
the policy excludes a last label that is a number and the helper asks for a
letter in it.

The checks of a label are regular expressions over single code units; they are
written as conditions on the units of the label.

## Main results

* `policyHostname_iff`, `canonicalHostname_iff` — the two checks as the same labels
  and a condition on the last one.
-/

namespace AgentSdk.Network

open AgentSdk.Text

/-! ## Code units -/

def isLower (u : UInt16) : Bool := decide (97 ≤ u.toNat) && decide (u.toNat ≤ 122)

/-- `[a-z0-9]` -/
def isLabelEnd (u : UInt16) : Bool := isLower u || isDigit u

/-- `[a-z0-9-]` -/
def isLabelUnit (u : UInt16) : Bool := isLabelEnd u || u == 45

/-- `[0-9a-f]` -/
def isLowerHex (u : UInt16) : Bool :=
  isDigit u || (decide (97 ≤ u.toNat) && decide (u.toNat ≤ 102))

/-! ## Labels -/

structure HttpsDestination where
  hostname : JsString
  port : Nat
  deriving DecidableEq

/-- `/^[a-z0-9](?:[a-z0-9-]{0,61}[a-z0-9])?$/` -/
def dnsLabel (label : JsString) : Bool :=
  decide (label.length ≤ 63) && label.all isLabelUnit && label.head?.any isLabelEnd &&
    label.getLast?.any isLabelEnd

/-- `hostname.split('.')` -/
def labels (hostname : JsString) : List JsString := hostname.splitOn 46

/-- `labels.at(-1) ?? ''` -/
def lastLabel (hostname : JsString) : JsString := (labels hostname).getLast?.getD []

/-- `/^(?:[0-9]+|0x[0-9a-f]+)$/` -/
def numericAddressLabel (label : JsString) : Bool :=
  (decide (label ≠ []) && label.all isDigit) ||
    ((js "0x").isPrefixOf label && decide (label.drop 2 ≠ []) && (label.drop 2).all isLowerHex)

/-- What both checks ask of a host name. -/
def commonHostname (hostname : JsString) : Bool :=
  decide (hostname.length ≤ 253) && decide (2 ≤ (labels hostname).length) &&
    (labels hostname).all fun label => dnsLabel label && !(js "xn--").isPrefixOf label

/-- `canonicalHostname` of the sandbox policy. -/
def policyHostname (value : JsString) : Bool :=
  commonHostname value && !numericAddressLabel (lastLabel value)

/-- `canonicalHostname` of the Docker helper. -/
def canonicalHostname (hostname : JsString) : Bool :=
  commonHostname hostname && (lastLabel hostname).any isLower

/-! ## Destinations -/

/-- `destinationSchema` -/
def destinationSchema (destination : HttpsDestination) : Bool :=
  policyHostname destination.hostname && decide (1 ≤ destination.port) &&
    decide (destination.port ≤ 65535)

def maxNetworkDestinations : Nat := 128

/-- `${hostname}:${port}` -/
def HttpsDestination.authority (destination : HttpsDestination) : JsString :=
  destination.hostname ++ 58 :: natDecimal destination.port

/-- `destinationsSchema` accepts the list of a `restricted_https` policy. -/
def destinationsSchema (destinations : List HttpsDestination) : Bool :=
  decide (1 ≤ destinations.length) && decide (destinations.length ≤ maxNetworkDestinations) &&
    destinations.all destinationSchema &&
    decide (destinations.map HttpsDestination.authority).Nodup

/-- `validDestination` of the Docker helper. -/
def validDestination (value : HttpsDestination) : Bool :=
  canonicalHostname value.hostname && decide (1 ≤ value.port) && decide (value.port ≤ 65535)

/-! ## Spellings of IPv4 addresses -/

/-- `[0-7]` -/
def isOctal (u : UInt16) : Bool := decide (48 ≤ u.toNat) && decide (u.toNat ≤ 55)

/-- The number that a run of digits spells in base `b`; letters count from ten. -/
def unitsNumber (b : Nat) (digits : JsString) : Nat :=
  digits.foldl (fun n u => n * b + if isDigit u then u.toNat - 48 else u.toNat - 87) 0

/-- A part of an IPv4 address as host parsers read it: hexadecimal, octal or decimal. -/
def ipv4Part (label : JsString) : Option Nat :=
  if (js "0x").isPrefixOf label = true ∧ (label.drop 2).all isLowerHex = true then
    some (unitsNumber 16 (label.drop 2))
  else if label.head? = some 48 ∧ label.all isOctal = true then some (unitsNumber 8 label)
  else if label ≠ [] ∧ label.all isDigit = true then some (unitsNumber 10 label)
  else none

/-- The address that a host name of at most four numbers spells: the last number
fills the parts that are missing. -/
def ipv4Spelling (hostname : JsString) : Option Nat := do
  let parts ← (labels hostname).mapM ipv4Part
  let last ← parts.getLast?
  let front := parts.dropLast
  if parts.length ≤ 4 ∧ (∀ part ∈ front, part < 256) ∧ last < 256 ^ (4 - front.length) then
    some ((front.foldl (fun n part => n * 256 + part) 0) * 256 ^ (4 - front.length) + last)
  else none

/-! ## The two checks -/

theorem policyHostname_iff {hostname : JsString} :
    policyHostname hostname = true ↔
      commonHostname hostname = true ∧ numericAddressLabel (lastLabel hostname) = false := by
  simp [policyHostname]

theorem canonicalHostname_iff {hostname : JsString} :
    canonicalHostname hostname = true ↔
      commonHostname hostname = true ∧ ∃ u ∈ lastLabel hostname, isLower u = true := by
  simp [canonicalHostname]

theorem commonHostname_label {hostname label : JsString} (h : commonHostname hostname = true)
    (hlabel : label ∈ labels hostname) : dnsLabel label = true := by
  simp only [commonHostname, Bool.and_eq_true, List.all_eq_true] at h
  exact (h.2 label hlabel).1

theorem not_isLower_of_isDigit {u : UInt16} (h : isDigit u = true) : isLower u = false := by
  simp only [isDigit, Bool.and_eq_true, decide_eq_true_eq] at h
  simp only [isLower, Bool.and_eq_false_iff, decide_eq_false_iff_not]
  omega

/-- A last label of digits has no letter. -/
theorem digits_no_lower {label : JsString} (h : label.all isDigit = true) :
    label.any isLower = false := by
  rw [List.any_eq_false]
  intro u hu
  rw [List.all_eq_true] at h
  simp [not_isLower_of_isDigit (h u hu)]

/-- `0x[0-9a-f]+` -/
def hexLabel (label : JsString) : Bool :=
  (js "0x").isPrefixOf label && decide (label.drop 2 ≠ []) && (label.drop 2).all isLowerHex

/-- The labels that the policy refuses and the helper takes. -/
theorem numericAddressLabel_of_lower {label : JsString} (h : label.any isLower = true) :
    numericAddressLabel label = hexLabel label := by
  have hdigits : label.all isDigit = false := by
    rw [Bool.eq_false_iff]
    intro hall
    rw [digits_no_lower hall] at h
    cases h
  simp [numericAddressLabel, hexLabel, hdigits]

end AgentSdk.Network
