/-!
# Dates, times and moments

Calendar dates of the proleptic Gregorian calendar, times of day with nanoseconds, and moments
(a date with a time). A leap second is written as second 60: it is kept as second 59 with a
full second or more of nanoseconds.

Texts: a year outside `0..9999` carries its sign; a fraction of a second is shown with three,
six or nine digits, whichever is the least that loses nothing.
-/

namespace Stencil

namespace Calendar

/-- A number with zeros in front up to a width. -/
def padded (width n : Nat) : List Char :=
  let ds := Nat.toDigits 10 n
  List.replicate (width - ds.length) '0' ++ ds

end Calendar

open Calendar

/-- A date of the proleptic Gregorian calendar. -/
structure Date where
  year : Int
  month : Nat
  day : Nat
  deriving DecidableEq, Repr

/-- A time of day. A leap second has `nano` of one billion or more. -/
structure TimeOfDay where
  hour : Nat
  minute : Nat
  second : Nat
  nano : Nat
  deriving DecidableEq, Repr

/-- A date and a time of day. -/
structure Moment where
  date : Date
  time : TimeOfDay
  deriving DecidableEq, Repr

namespace Date

/-- `YYYY-MM-DD`; a year outside `0..9999` carries its sign. -/
def text (d : Date) : String :=
  let year :=
    if 0 ≤ d.year ∧ d.year ≤ 9999 then padded 4 d.year.toNat
    else (if d.year < 0 then '-' else '+') :: padded 4 d.year.natAbs
  String.ofList (year ++ '-' :: padded 2 d.month ++ '-' :: padded 2 d.day)

end Date

namespace TimeOfDay

/-- The start of the day. -/
def midnight : TimeOfDay := ⟨0, 0, 0, 0⟩

/-- The fraction of a second behind its point: nothing, or the least of three, six and nine
digits that loses nothing. -/
def fractionText (nano : Nat) : List Char :=
  if nano = 0 then []
  else if nano % 1000000 = 0 then '.' :: padded 3 (nano / 1000000)
  else if nano % 1000 = 0 then '.' :: padded 6 (nano / 1000)
  else '.' :: padded 9 nano

/-- `HH:MM:SS` and the fraction; a leap second is second 60. -/
def text (t : TimeOfDay) : String :=
  let (second, nano) :=
    if 1000000000 ≤ t.nano then (t.second + 1, t.nano - 1000000000) else (t.second, t.nano)
  String.ofList (padded 2 t.hour ++ ':' :: padded 2 t.minute ++ ':' :: padded 2 second ++
    fractionText nano)

end TimeOfDay

namespace Moment

/-- The date and the time, with `separator` between them. -/
def textWith (separator : String) (m : Moment) : String :=
  m.date.text ++ separator ++ m.time.text

end Moment

end Stencil
