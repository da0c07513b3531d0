import ExpressLinks.Text.Digits

/-!
# Calendar

The date and time of a moment, given in seconds since the start of 1970 in
universal time. Years start in March here, so that the day added in leap years
is the last one.
-/

namespace ExpressLinks.Calendar

/-- A date. -/
structure Date where
  year : Nat
  month : Nat
  day : Nat
  deriving DecidableEq, Repr

/-- The date that many days after the first of March of the year 0. A cycle of
    400 years has 146097 days. -/
def Date.ofDays (days : Nat) : Date :=
  let cycle := days / 146097
  let dayOfCycle := days % 146097
  let yearOfCycle :=
    (dayOfCycle - dayOfCycle / 1460 + dayOfCycle / 36524 - dayOfCycle / 146096) / 365
  let dayOfYear := dayOfCycle - (365 * yearOfCycle + yearOfCycle / 4 - yearOfCycle / 100)
  let month := (5 * dayOfYear + 2) / 153
  let day := dayOfYear - (153 * month + 2) / 5 + 1
  if month < 10 then ⟨400 * cycle + yearOfCycle, month + 3, day⟩
  else ⟨400 * cycle + yearOfCycle + 1, month - 9, day⟩

/-- The days from the first of March of the year 0 to the start of 1970. -/
def daysBefore1970 : Nat := 719468

/-- A number with at least that many digits. -/
def padded (width n : Nat) : String :=
  let digits := Text.decimal n
  String.ofList (List.replicate (width - digits.length) '0' ++ digits)

/-- The fraction of a second, with no, three, six or nine digits. -/
def fraction (nanoseconds : Nat) : String :=
  if nanoseconds = 0 then ""
  else if nanoseconds % 1000000 = 0 then "." ++ padded 3 (nanoseconds / 1000000)
  else if nanoseconds % 1000 = 0 then "." ++ padded 6 (nanoseconds / 1000)
  else "." ++ padded 9 nanoseconds

/-- The date and time of a moment with its offset from universal time, which is
    none. -/
def describe (seconds nanoseconds : Nat) : String :=
  let date := Date.ofDays (seconds / 86400 + daysBefore1970)
  let time := seconds % 86400
  padded 4 date.year ++ "-" ++ padded 2 date.month ++ "-" ++ padded 2 date.day ++ "T"
    ++ padded 2 (time / 3600) ++ ":" ++ padded 2 (time / 60 % 60) ++ ":" ++ padded 2 (time % 60)
    ++ fraction nanoseconds ++ "+00:00"

end ExpressLinks.Calendar
