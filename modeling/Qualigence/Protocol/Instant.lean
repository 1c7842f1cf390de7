import Mathlib.Data.Nat.Notation

/-! # Instants

Timestamps are texts in the format of `toISOString` and are compared as texts. The
calendar below converts between a time value in milliseconds and that format.
-/

namespace Qualigence.Protocol

/-- An instant as it is stored and sent. -/
abbrev Timestamp := String

/-- Days since 1970-01-01 of a date of the proleptic Gregorian calendar. -/
def daysFromCivil (year : Int) (month day : ℕ) : Int :=
  let y := if month ≤ 2 then year - 1 else year
  let era := y / 400
  let yearOfEra := y - era * 400
  let dayOfYear := ((153 * ((month + 9) % 12) + 2) / 5 + day : ℕ) - 1
  let dayOfEra := yearOfEra * 365 + yearOfEra / 4 - yearOfEra / 100 + dayOfYear
  era * 146097 + dayOfEra - 719468

/-- The date, as year, month and day, that lies the given number of days after
1970-01-01. -/
def civilFromDays (days : Int) : Int × ℕ × ℕ :=
  let z := days + 719468
  let era := z / 146097
  let dayOfEra := (z - era * 146097).toNat
  let yearOfEra := (dayOfEra - dayOfEra / 1460 + dayOfEra / 36524 - dayOfEra / 146096) / 365
  let dayOfYear := dayOfEra - (365 * yearOfEra + yearOfEra / 4 - yearOfEra / 100)
  let mp := (5 * dayOfYear + 2) / 153
  let month := if mp < 10 then mp + 3 else mp - 9
  let year := (yearOfEra : Int) + era * 400
  (if month ≤ 2 then year + 1 else year, month, dayOfYear - (153 * mp + 2) / 5 + 1)

/-- The lowest `width` decimal digits of a number. -/
def padded : (width : ℕ) → ℕ → List Char
  | 0, _ => []
  | width + 1, n => padded width (n / 10) ++ [Nat.digitChar (n % 10)]

/-- Four digits for the years 0 to 9999, a sign and six digits for the others. -/
def isoYear (year : Int) : List Char :=
  if 0 ≤ year ∧ year ≤ 9999 then padded 4 year.toNat
  else (if year < 0 then '-' else '+') :: padded 6 year.natAbs

/-- `new Date(ms).toISOString()`. -/
def toISOString (ms : Int) : Timestamp :=
  let (year, month, day) := civilFromDays (ms / 86400000)
  let rest := (ms % 86400000).toNat
  String.ofList (isoYear year ++ ['-'] ++ padded 2 month ++ ['-'] ++ padded 2 day ++ ['T'] ++
    padded 2 (rest / 3600000) ++ [':'] ++ padded 2 (rest / 60000 % 60) ++ [':'] ++
    padded 2 (rest / 1000 % 60) ++ ['.'] ++ padded 3 (rest % 1000) ++ ['Z'])

/-- The value of a text of decimal digits. -/
def digitsValue (cs : List Char) : Option ℕ :=
  cs.foldlM (fun n c => if c.isDigit then some (n * 10 + (c.toNat - 48)) else none) 0

/-- `Date.parse` of a text that matches
`^\d{4}-\d{2}-\d{2}T\d{2}:\d{2}:\d{2}\.\d{3}Z$`; no value for another text or for
fields out of range. -/
def parseInstant (text : Timestamp) : Option Int :=
  match text.toList with
  | [y1, y2, y3, y4, '-', m1, m2, '-', d1, d2, 'T', h1, h2, ':', n1, n2, ':', s1, s2, '.',
      f1, f2, f3, 'Z'] => do
    let year ← digitsValue [y1, y2, y3, y4]
    let month ← digitsValue [m1, m2]
    let day ← digitsValue [d1, d2]
    let hour ← digitsValue [h1, h2]
    let minute ← digitsValue [n1, n2]
    let second ← digitsValue [s1, s2]
    let milli ← digitsValue [f1, f2, f3]
    if 1 ≤ month ∧ month ≤ 12 ∧ 1 ≤ day ∧ day ≤ 31 ∧ hour ≤ 24 ∧ minute ≤ 59 ∧ second ≤ 59 ∧
        (hour = 24 → minute = 0 ∧ second = 0 ∧ milli = 0) then
      some (daysFromCivil year month day * 86400000 +
        ((hour * 3600000 + minute * 60000 + second * 1000 + milli : ℕ) : Int))
    else none
  | _ => none

/-- The text of an instant is the one `toISOString` writes. -/
def isInstant (text : Timestamp) : Bool :=
  match parseInstant text with
  | some ms => toISOString ms = text
  | none => false

/-- `Date.parse` of a text in the format of `toISOString`, where a year with a sign has six digits.
The calendar repeats itself every 400 years. -/
def parseDate (text : Timestamp) : Option Int :=
  match text.toList with
  | sign :: y1 :: y2 :: y3 :: y4 :: y5 :: y6 :: rest =>
    if sign = '+' ∨ sign = '-' then do
      let n ← digitsValue [y1, y2, y3, y4, y5, y6]
      let year : Int := if sign = '-' then -n else n
      let ms ← parseInstant (String.ofList (padded 4 (year % 400).toNat ++ rest))
      some (ms + year / 400 * (146097 * 86400000))
    else parseInstant text
  | _ => parseInstant text

/-- The greatest distance of a time value from 1970. -/
def maxTimeValue : ℕ := 8640000000000000

/-- The time value of a text that `toISOString` writes. -/
def instantMs (text : Timestamp) : Option Int :=
  (parseDate text).filter fun ms => ms.natAbs ≤ maxTimeValue ∧ toISOString ms = text

example : (instantMs "+012345-06-07T08:09:10.011Z").isSome ∧
    (instantMs "-000000-01-01T00:00:00.000Z").isNone ∧
    instantMs "1970-01-01T00:00:01.000Z" = some 1000 := by
  decide

example : isInstant "2024-02-29T23:59:59.999Z" ∧ ¬ isInstant "2023-02-29T00:00:00.000Z" := by
  decide

end Qualigence.Protocol
