/-!
# Calendar dates and times

The dates and times of day that configuration files can hold, and their texts in messages.
-/

namespace EntryLint

/-- A day of the calendar. -/
structure Date where
  year : Nat
  month : Nat
  day : Nat
  deriving DecidableEq, Repr

/-- What is wrong with a date or time that is none. -/
inductive DateError where
  | year (given : Nat)
  | month
  | day
  | hour
  | minute
  | second
  deriving DecidableEq, Repr

namespace DateError

/-- The text of a date error. -/
def message : DateError → String
  | year given => s!"year {given} is out of range"
  | month => "month must be in 1..12"
  | day => "day is out of range for month"
  | hour => "hour must be in 0..23"
  | minute => "minute must be in 0..59"
  | second => "second must be in 0..59"

end DateError

namespace Date

/-- Whether a year has a leap day. -/
def isLeap (year : Nat) : Bool :=
  year % 4 = 0 && (year % 100 ≠ 0 || year % 400 = 0)

/-- The number of days of a month. -/
def daysIn (year month : Nat) : Nat :=
  if month = 2 then (if isLeap year then 29 else 28)
  else if month = 4 || month = 6 || month = 9 || month = 11 then 30
  else 31

/-- The date with the given numbers, if there is one. -/
def of (year month day : Nat) : Except DateError Date :=
  if year = 0 then .error (.year year)
  else if month = 0 || 12 < month then .error .month
  else if day = 0 || daysIn year month < day then .error .day
  else .ok { year, month, day }

/-- A number with at least the given count of digits. -/
def padded (width n : Nat) : String :=
  let digits := Nat.toDigits 10 n
  String.ofList (List.replicate (width - digits.length) '0' ++ digits)

/-- A date as year, month and day with hyphens. -/
def text (d : Date) : String :=
  s!"{padded 4 d.year}-{padded 2 d.month}-{padded 2 d.day}"

/-- A date as messages show it. -/
def shown (d : Date) : String :=
  s!"datetime.date({d.year}, {d.month}, {d.day})"

end Date

/-- A time of a day, with the name and offset in minutes of its zone if it has one. -/
structure Moment where
  date : Date
  hour : Nat
  minute : Nat
  second : Nat
  microsecond : Nat
  zone : Option (String × Int) := none
  deriving DecidableEq, Repr

namespace Moment

/-- A moment with a space between date and time, and the zone as an offset. -/
def text (t : Moment) : String :=
  let clock := s!"{Date.padded 2 t.hour}:{Date.padded 2 t.minute}:{Date.padded 2 t.second}"
  let fraction := if t.microsecond = 0 then "" else "." ++ Date.padded 6 t.microsecond
  let zone :=
    match t.zone with
    | none => ""
    | some (_, offset) =>
      let sign := if offset < 0 then "-" else "+"
      let minutes := offset.natAbs
      sign ++ Date.padded 2 (minutes / 60) ++ ":" ++ Date.padded 2 (minutes % 60)
  t.date.text ++ " " ++ clock ++ fraction ++ zone

/-- A moment as messages show it; seconds and their fraction are left out when they are zero. -/
def shown (t : Moment) : String :=
  let base := s!"{t.date.year}, {t.date.month}, {t.date.day}, {t.hour}, {t.minute}"
  let seconds :=
    if t.microsecond ≠ 0 then s!", {t.second}, {t.microsecond}"
    else if t.second ≠ 0 then s!", {t.second}"
    else ""
  let zone :=
    match t.zone with
    | none => ""
    | some (name, offset) =>
      let days := Int.fdiv offset 1440
      let seconds := (Int.fmod offset 1440) * 60
      let delta :=
        if offset = 0 then "0"
        else if days = 0 then s!"seconds={seconds}"
        else if seconds = 0 then s!"days={days}"
        else s!"days={days}, seconds={seconds}"
      s!", tzinfo=datetime.timezone(datetime.timedelta({delta}), '{name}')"
  s!"datetime.datetime({base}{seconds}{zone})"

end Moment

end EntryLint
