import VideoGateway.Text.Integer

/-!
# Instants and dates

An instant counts nanoseconds from the beginning of the year 1970. Its date is
that of the Gregorian calendar, extended to all years, in universal time.
-/
namespace VideoGateway

structure Instant where
  nanoseconds : Int
deriving DecidableEq, Repr

/-- A day of the Gregorian calendar. -/
structure Date where
  year : Int
  month : Nat
  day : Nat
deriving DecidableEq, Repr

namespace Instant

/-- Nanoseconds. -/
def perMillisecond : Int := 1000000
def perSecond : Int := 1000000000

def secondsPerDay : Int := 86400

def ofSeconds (s : Int) : Instant := ⟨s * perSecond⟩

def seconds (i : Instant) : Int := Int.fdiv i.nanoseconds perSecond

/-- The nanoseconds from an earlier instant to this one. -/
def since (later earlier : Instant) : Int := later.nanoseconds - earlier.nanoseconds

/-- The day that a number of days after the beginning is. Years are counted from
March on, so that the leap day is the last of its year, in cycles of 400 years. -/
def dateOfDay (n : Int) : Date :=
  let n := n + 719468
  let cycle := Int.fdiv n 146097
  let dayOfCycle := (Int.fmod n 146097).toNat
  let yearOfCycle :=
    (dayOfCycle - dayOfCycle / 1460 + dayOfCycle / 36524 - dayOfCycle / 146096) / 365
  let dayOfYear := dayOfCycle - (365 * yearOfCycle + yearOfCycle / 4 - yearOfCycle / 100)
  let monthFromMarch := (5 * dayOfYear + 2) / 153
  let month := if monthFromMarch < 10 then monthFromMarch + 3 else monthFromMarch - 9
  let year : Int := cycle * 400 + yearOfCycle
  ⟨if month ≤ 2 then year + 1 else year, month, dayOfYear - (153 * monthFromMarch + 2) / 5 + 1⟩

def date (i : Instant) : Date :=
  dateOfDay (Int.fdiv i.seconds secondsPerDay)

end Instant

namespace Date

/-- The digits of a number, filled up with zeros to a width. -/
def padded (width n : Nat) : String :=
  let digits := Nat.toDigits 10 n
  String.ofList (List.replicate (width - digits.length) '0' ++ digits)

/-- Four digits of the year, with a sign when it has more or is negative. -/
def yearText (year : Int) : String :=
  if year < 0 then "-" ++ padded 4 year.natAbs
  else if 9999 < year then "+" ++ padded 4 year.natAbs
  else padded 4 year.natAbs

/-- Year, month and day with slashes between them. -/
def path (d : Date) : String :=
  yearText d.year ++ "/" ++ padded 2 d.month ++ "/" ++ padded 2 d.day

end Date

end VideoGateway
