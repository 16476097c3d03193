/-
Akumuli.Query.SpecEnv — one choice of the collaborators the parsers call
(`Env`), modelled from the specification, so that a parser can be run on a
given query.

Modelled from the spec: a timestamp counts 10 ns intervals since the epoch
(§3); a `range` bound is an ISO-8601 basic date-time `YYYYMMDDTHHMMSS`
(§4.B, §8 scenario 1); a step of `1s` is `10^8` ticks (§8 scenario 3); the
aggregation functions are those the aggregate tuple of §6 names, and an
unknown name is `AKU_EQUERY_PARSING_ERROR` (§7). Only seconds are read as
a duration, and only dates from 1970 on. No statement over this
environment uses group-by, so its `GroupByTag` maps nothing.
-/
import Akumuli.Query.Statements

namespace Akumuli.QP

/-- The aggregation functions. Modelled from the spec: §6 names the
aggregate tuple `(count, sum, min, max, ...)`. -/
inductive AggregationFunction where
  | count
  | sum
  | min
  | max
  deriving DecidableEq, Repr

/-- `Aggregation::to_string`. Modelled from the spec. -/
def aggToString : AggregationFunction → String
  | .count => "count"
  | .sum => "sum"
  | .min => "min"
  | .max => "max"

/-- `Aggregation::from_string`. Modelled from the spec. -/
def aggFromString (name : String) : Status × AggregationFunction :=
  match [AggregationFunction.count, .sum, .min, .max].find? (aggToString · = name) with
  | some f => (.success, f)
  | none => (.equeryParsingError, .count)

/-- The value of a non-empty run of decimal digits. -/
def digitsValue (cs : List Char) : Option Nat :=
  if cs ≠ [] ∧ cs.all Char.isDigit then
    some (cs.foldl (fun n c => 10 * n + (c.toNat - '0'.toNat)) 0)
  else none

/-- `DateTimeUtil::parse_duration`: a number of seconds, `<digits>s`, in
10 ns ticks. Modelled from the spec. -/
def parseDuration (s : String) : Option Nat :=
  if s.data.getLast? = some 's' then (digitsValue s.data.dropLast).map (· * 10 ^ 8) else none

/-- The days from 1970-01-01 to a date of the proleptic Gregorian calendar
in or after 1970 (the civil-to-days formula counted from March). -/
def daysFromCivil (y m d : Nat) : Nat :=
  let y := if m ≤ 2 then y - 1 else y
  let era := y / 400
  let yoe := y - era * 400
  let doy := (153 * ((m + 9) % 12) + 2) / 5 + d - 1
  era * 146097 + (yoe * 365 + yoe / 4 - yoe / 100 + doy) - 719468

/-- `DateTimeUtil::from_iso_string` on `YYYYMMDDTHHMMSS`, in 10 ns ticks
since the epoch. Modelled from the spec. -/
def fromIsoString (s : String) : Option Nat :=
  match s.data with
  | [y1, y2, y3, y4, mo1, mo2, d1, d2, 'T', h1, h2, mi1, mi2, s1, s2] => do
    let y ← digitsValue [y1, y2, y3, y4]
    let mo ← digitsValue [mo1, mo2]
    let d ← digitsValue [d1, d2]
    let h ← digitsValue [h1, h2]
    let mi ← digitsValue [mi1, mi2]
    let sec ← digitsValue [s1, s2]
    if 1970 ≤ y ∧ 1 ≤ mo ∧ mo ≤ 12 ∧ 1 ≤ d ∧ d ≤ 31 ∧ h < 24 ∧ mi < 60 ∧ sec < 60 then
      some ((((daysFromCivil y mo d * 24 + h) * 60 + mi) * 60 + sec) * 10 ^ 8)
    else none
  | _ => none

/-- The collaborators of the parsers as the specification describes them. -/
def specEnv : Env AggregationFunction where
  parseDuration := parseDuration
  fromIsoString := fromIsoString
  aggFromString := aggFromString
  aggToString := aggToString
  groupByTag := fun _ _ _ => ⟨[], .empty⟩

example : fromIsoString "19700101T000001" = some (10 ^ 8) := by decide
example : (fromIsoString "20150102T000000").bind (fun b => (fromIsoString "20150101T000000").map (b - ·)) =
    some (86400 * 10 ^ 8) := by decide
example : parseDuration "1s" = some (10 ^ 8) := by decide

end Akumuli.QP
