import Recast.Text.Basic

/-!
# Dates and times

A `Date` is a day of the calendar and a `Moment` a time of a day, perhaps with an offset from
universal time. Both have two texts: the plain one, and the one that says what they are made of.
-/

namespace Recast

/-- A number with at least `width` digits. -/
def padNat (width n : Nat) : Text :=
  let digits := showNat n
  List.replicate (width - digits.length) '0' ++ digits

/-- A day. -/
structure Date where
  year : Nat
  month : Nat
  day : Nat
  deriving DecidableEq, Repr

/-- A time of a day. The offset is in minutes. -/
structure Moment where
  date : Date
  hour : Nat
  minute : Nat
  second : Nat
  microsecond : Nat
  offset? : Option Int
  deriving DecidableEq, Repr

/-! ## The calendar -/

/-- The number of days of a month. -/
def daysOfMonth (year month : Nat) : Nat :=
  if month = 2 then
    if year % 4 = 0 && (year % 100 != 0 || year % 400 = 0) then 29 else 28
  else if [4, 6, 9, 11].contains month then 30
  else 31

/-- What is wrong with a date that is on no calendar. -/
def Date.fault? (date : Date) : Option Text :=
  if date.year = 0 then some "year 0 is out of range".toList
  else if date.month = 0 || 12 < date.month then some "month must be in 1..12".toList
  else if date.day = 0 || daysOfMonth date.year date.month < date.day then
    some "day is out of range for month".toList
  else none

/-- What is wrong with a moment that is on no clock. -/
def Moment.fault? (moment : Moment) : Option Text :=
  moment.date.fault?
    <|> if 23 < moment.hour then some "hour must be in 0..23".toList
      else if 59 < moment.minute then some "minute must be in 0..59".toList
      else if 59 < moment.second then some "second must be in 0..59".toList
      else none

/-- How many days the months of a year before this one have. -/
def daysBefore (year month : Nat) : Nat :=
  ((List.range (month - 1)).map fun earlier => daysOfMonth year (earlier + 1)).foldl Nat.add 0

/-- How many days have passed since the first day of the calendar. -/
def Date.number (date : Date) : Nat :=
  let years := date.year - 1
  years * 365 + years / 4 - years / 100 + years / 400 + daysBefore date.year date.month + date.day

/-- The time in universal time, in millionths of a second. -/
def Moment.instant (moment : Moment) : Int :=
  let minutes : Int :=
    moment.date.number * 1440 + moment.hour * 60 + moment.minute - moment.offset?.getD 0
  (minutes * 60 + moment.second) * 1000000 + moment.microsecond

/-! ## Texts -/

/-- Year, month and day with dashes. -/
def Date.plain (date : Date) : Text :=
  padNat 4 date.year ++ "-".toList ++ padNat 2 date.month ++ "-".toList ++ padNat 2 date.day

/-- The numbers of a date. -/
def Date.numbers (date : Date) : List Text :=
  [showNat date.year, showNat date.month, showNat date.day]

/-- The date and what it is made of. -/
def Date.text (date : Date) : Text :=
  "datetime.date(".toList ++ joinComma date.numbers ++ ")".toList

/-- Hours and minutes of an offset. -/
def plainOffset (offset : Int) : Text :=
  (if offset < 0 then "-".toList else "+".toList) ++ padNat 2 (offset.natAbs / 60) ++ ":".toList
    ++ padNat 2 (offset.natAbs % 60)

/-- Date, time and offset. -/
def Moment.plain (moment : Moment) : Text :=
  moment.date.plain ++ " ".toList ++ padNat 2 moment.hour ++ ":".toList ++ padNat 2 moment.minute
    ++ ":".toList ++ padNat 2 moment.second
    ++ (if moment.microsecond = 0 then [] else ".".toList ++ padNat 6 moment.microsecond)
    ++ match moment.offset? with
      | some offset => plainOffset offset
      | none => []

/-- An offset as full days and the seconds that go beyond them. -/
def differenceText (minutes : Int) : Text :=
  let days := Int.fdiv minutes 1440
  let seconds := (Int.fmod minutes 1440).toNat * 60
  let parts := (if days = 0 then [] else
      ["days=".toList ++ (if days < 0 then "-".toList else []) ++ showNat days.natAbs])
    ++ if seconds = 0 then [] else ["seconds=".toList ++ showNat seconds]
  "datetime.timedelta(".toList ++ joinComma parts ++ ")".toList

/-- The offset and what it is made of. -/
def offsetText (offset : Int) : Text :=
  if offset = 0 then "datetime.timezone.utc".toList
  else "datetime.timezone(".toList ++ differenceText offset ++ ")".toList

/-- The moment and what it is made of; zeros at the end of the time are left out. -/
def Moment.text (moment : Moment) : Text :=
  let seconds :=
    if moment.microsecond ≠ 0 then [showNat moment.second, showNat moment.microsecond]
    else if moment.second ≠ 0 then [showNat moment.second]
    else []
  let zone := match moment.offset? with
    | some offset => ["tzinfo=".toList ++ offsetText offset]
    | none => []
  "datetime.datetime(".toList
    ++ joinComma (moment.date.numbers ++ [showNat moment.hour, showNat moment.minute] ++
      seconds ++ zone)
    ++ ")".toList

end Recast
