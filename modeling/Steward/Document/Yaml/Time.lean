import Steward.Document.Yaml.Tag

/-!
# Days and moments

A day of the calendar, and a moment of a day, which may say how far its zone is from the common one.
Only what there is in the calendar can be made of what is written.
-/

namespace Steward.Yaml

/-- A day of the calendar. -/
structure Day where
  year : Nat
  month : Nat
  day : Nat
  deriving DecidableEq, Repr

/-- A time of a day, with the minutes that its zone is ahead of the common one. -/
structure Moment where
  day : Day
  hour : Nat
  minute : Nat
  second : Nat
  microsecond : Nat
  zone : Option Int
  deriving DecidableEq, Repr

/-- A number with leading zeros. -/
def padded (width value : Nat) : String :=
  let digits := toString value
  "".pushn '0' (width - digits.length) ++ digits

namespace Day

def isLeap (year : Nat) : Bool := year % 4 == 0 && (year % 100 != 0 || year % 400 == 0)

def monthLengths (year : Nat) : List Nat :=
  [31, if isLeap year then 29 else 28, 31, 30, 31, 30, 31, 31, 30, 31, 30, 31]

/-- Whether the calendar has the day. -/
def exists? (day : Day) : Bool :=
  1 ≤ day.year && 1 ≤ day.month && 1 ≤ day.day &&
    match (monthLengths day.year)[day.month - 1]? with
    | some length => day.day ≤ length
    | none => false

def toText (day : Day) : String :=
  padded 4 day.year ++ "-" ++ padded 2 day.month ++ "-" ++ padded 2 day.day

end Day

namespace Moment

/-- Whether there is such a moment; a zone is less than a day away. -/
def exists? (moment : Moment) : Bool :=
  moment.day.exists? && moment.hour < 24 && moment.minute < 60 && moment.second < 60 &&
    moment.zone.all fun zone => zone.natAbs < 24 * 60

def toText (moment : Moment) : String :=
  let fraction := if moment.microsecond = 0 then "" else "." ++ padded 6 moment.microsecond
  let zone :=
    match moment.zone with
    | none => ""
    | some zone =>
      (if zone < 0 then "-" else "+") ++ padded 2 (zone.natAbs / 60) ++ ":" ++ padded 2 (zone.natAbs % 60)
  moment.day.toText ++ " " ++ padded 2 moment.hour ++ ":" ++ padded 2 moment.minute ++ ":" ++
    padded 2 moment.second ++ fraction ++ zone

end Moment

/-- The microseconds of a written fraction, of which six digits count. -/
def microseconds (fraction : List Char) : Nat :=
  let digits := fraction.take 6
  numberOf 10 digits * Nat.pow 10 (6 - digits.length)

/-- The minutes that a written zone is ahead of the common one. -/
def zoneMinutes : Option (Char × List Char × List Char) → Int
  | none => 0
  | some (sign, hours, minutes) =>
    let distance : Int := numberOf 10 hours * 60 + numberOf 10 minutes
    if sign = '-' then -distance else distance

/-- What a written time stands for: a day, or a moment of it. -/
def TimeForm.meaning (form : TimeForm) : Except Flaw (Day × Option Moment) :=
  let day : Day := ⟨numberOf 10 form.year, numberOf 10 form.month, numberOf 10 form.day⟩
  let moment := form.clock.map fun clock =>
    (⟨day, numberOf 10 clock.hour, numberOf 10 clock.minute, numberOf 10 clock.second,
      microseconds clock.fraction, clock.zone.map zoneMinutes⟩ : Moment)
  if day.exists? && moment.all (·.exists?) then .ok (day, moment) else .error (.unusable .wrongValue)

end Steward.Yaml
