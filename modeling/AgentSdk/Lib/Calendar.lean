import AgentSdk.Lib.Text

/-!
# ISO timestamps

The Gregorian calendar from year 0 on, the reader of ISO date-time text in UTC
and the writer of its canonical form with milliseconds.  A time is the number of
milliseconds since the start of year 0: comparisons and differences do not
depend on where the counting starts.

The reader accepts what a strict ISO check accepts: four-digit years, days that
exist in their month, optional seconds and any number of fractional digits, of
which the first three count.
-/

namespace AgentSdk.Calendar

open AgentSdk.Text

/-! ## Dates -/

def isLeapYear (y : Nat) : Bool :=
  decide (y % 4 = 0) && (decide (y % 100 ≠ 0) || decide (y % 400 = 0))

def daysInYear (y : Nat) : Nat := if isLeapYear y then 366 else 365

def daysInMonth (y m : Nat) : Nat :=
  if m = 2 then (if isLeapYear y then 29 else 28)
  else if m = 4 ∨ m = 6 ∨ m = 9 ∨ m = 11 then 30 else 31

/-- Days from the start of year 0 to the start of year `y`. -/
def daysBeforeYear (y : Nat) : Nat := 365 * y + (y + 3) / 4 - (y + 99) / 100 + (y + 399) / 400

/-- Days from the start of year `y` to the start of its month `m`. -/
def daysBeforeMonth (y m : Nat) : Nat := ((List.range' 1 (m - 1)).map (daysInMonth y)).sum

/-- A date and a time of day, UTC. -/
structure DateTime where
  year : Nat
  month : Nat
  day : Nat
  hour : Nat
  minute : Nat
  second : Nat
  millisecond : Nat
  deriving DecidableEq

/-- The date exists and the time lies within the day. -/
def DateTime.valid (d : DateTime) : Bool :=
  decide (1 ≤ d.month) && decide (d.month ≤ 12) && decide (1 ≤ d.day) &&
    decide (d.day ≤ daysInMonth d.year d.month) && decide (d.hour < 24) &&
    decide (d.minute < 60) && decide (d.second < 60) && decide (d.millisecond < 1000)

/-- Milliseconds since the start of year 0. -/
def DateTime.toMillis (d : DateTime) : Nat :=
  (daysBeforeYear d.year + daysBeforeMonth d.year d.month + (d.day - 1)) * 86400000 +
    d.hour * 3600000 + d.minute * 60000 + d.second * 1000 + d.millisecond

/-- The year in which day `d`, counted from the start of year `y`, falls. -/
def splitYear : Nat → Nat → Nat → Nat × Nat
  | 0, y, d => (y, d)
  | fuel + 1, y, d =>
    if d < daysInYear y then (y, d) else splitYear fuel (y + 1) (d - daysInYear y)

/-- The month of year `y` in which day `d`, counted from the start of month
`m`, falls. -/
def splitMonth (y : Nat) : Nat → Nat → Nat → Nat × Nat
  | 0, m, d => (m, d)
  | fuel + 1, m, d =>
    if d < daysInMonth y m then (m, d) else splitMonth y fuel (m + 1) (d - daysInMonth y m)

/-- The date of a time. -/
def ofMillis (t : Nat) : DateTime :=
  let days := t / 86400000
  let rest := t % 86400000
  let inYear := splitYear (days / 365 + 1) 0 days
  let inMonth := splitMonth inYear.1 11 1 inYear.2
  { year := inYear.1, month := inMonth.1, day := inMonth.2 + 1,
    hour := rest / 3600000, minute := rest / 60000 % 60, second := rest / 1000 % 60,
    millisecond := rest % 1000 }

/-! ## Text -/

/-- The value of a digit. -/
def digit? (u : UInt16) : Option Nat := if isDigit u then some (u.toNat - 48) else none

/-- The value of a run of digits. -/
def number? (us : JsString) : Option Nat :=
  us.foldl (fun acc u => do
    let n ← acc
    let d ← digit? u
    pure (10 * n + d)) (some 0)

/-- The fraction of a second in milliseconds: the first three digits count. -/
def millis? (us : JsString) : Option Nat :=
  if us = [] ∨ us.all isDigit = false then none else number? ((us ++ [48, 48, 48]).take 3)

/-- What follows `hh:mm`: nothing, seconds, or seconds with a fraction; then
the zone `Z`. -/
def seconds? : JsString → Option (Nat × Nat)
  | [z] => if z = 90 then some (0, 0) else none
  | c :: s1 :: s2 :: rest =>
    if c = 58 then do
      let second ← number? [s1, s2]
      match rest with
      | [z] => if z = 90 then some (second, 0) else none
      | p :: fraction =>
        if p = 46 ∧ fraction.getLast? = some 90 then do
          let ms ← millis? fraction.dropLast
          pure (second, ms)
        else none
      | [] => none
    else none
  | _ => none

/-- Read an ISO date-time in UTC. -/
def parseIso : JsString → Option DateTime
  | y1 :: y2 :: y3 :: y4 :: c1 :: m1 :: m2 :: c2 :: d1 :: d2 :: c3 :: h1 :: h2 :: c4 ::
      n1 :: n2 :: rest =>
      if c1 = 45 ∧ c2 = 45 ∧ c3 = 84 ∧ c4 = 58 then do
        let year ← number? [y1, y2, y3, y4]
        let month ← number? [m1, m2]
        let day ← number? [d1, d2]
        let hour ← number? [h1, h2]
        let minute ← number? [n1, n2]
        let (second, millisecond) ← seconds? rest
        let date : DateTime := ⟨year, month, day, hour, minute, second, millisecond⟩
        if date.valid then some date else none
      else none
  | _ => none

/-- The time an ISO text denotes. -/
def dateParse (s : JsString) : Option Nat := (parseIso s).map DateTime.toMillis

/-- Two, three and four decimal digits. -/
def pad2 (n : Nat) : JsString := [digitUnit (n / 10 % 10), digitUnit (n % 10)]

def pad3 (n : Nat) : JsString := digitUnit (n / 100 % 10) :: pad2 n

def pad4 (n : Nat) : JsString := digitUnit (n / 1000 % 10) :: pad3 n

/-- The year, with a sign and six digits where four do not suffice. -/
def yearText (y : Nat) : JsString :=
  if y < 10000 then pad4 y
  else 43 :: digitUnit (y / 100000 % 10) :: digitUnit (y / 10000 % 10) :: pad4 y

/-- The canonical text of a time, with milliseconds. -/
def isoText (t : Nat) : JsString :=
  let d := ofMillis t
  yearText d.year ++ 45 :: (pad2 d.month ++ 45 :: (pad2 d.day ++ 84 :: (pad2 d.hour ++ 58 ::
    (pad2 d.minute ++ 58 :: (pad2 d.second ++ 46 :: (pad3 d.millisecond ++ [90]))))))

end AgentSdk.Calendar
