/-!
The proleptic Gregorian calendar: days counted from 1970-01-01 as year, month and day of the month,
and back. Years are astronomical, so the year before 1 is 0.
-/
namespace AuditTrail.Calendar

/-- A day by its calendar date. -/
structure Date where
  year : Int
  month : Nat
  day : Nat
deriving DecidableEq, Repr

def isLeap (year : Int) : Bool :=
  year % 4 = 0 && (year % 100 ≠ 0 || year % 400 = 0)

def monthLengths (leap : Bool) : List Nat :=
  [31, if leap then 29 else 28, 31, 30, 31, 30, 31, 31, 30, 31, 30, 31]

/-- The length of a month; there is no day in a month that does not exist. -/
def daysInMonth (year : Int) (month : Nat) : Nat :=
  if month = 0 then 0 else (monthLengths (isLeap year)).getD (month - 1) 0

def Date.isValid (d : Date) : Bool :=
  1 ≤ d.day && d.day ≤ daysInMonth d.year d.month

def daysBeforeYear (year : Int) : Int :=
  let y := year - 1
  365 * y + y / 4 - y / 100 + y / 400

def daysBeforeMonth (leap : Bool) (month : Nat) : Nat :=
  ((monthLengths leap).take (month - 1)).foldl (· + ·) 0

def epochDays : Int := 719162

def Date.toDays (d : Date) : Int :=
  daysBeforeYear d.year + daysBeforeMonth (isLeap d.year) d.month + d.day - 1 - epochDays

/-- The month and the day of the month of a day of the year, both counted from 1 in the result. The
lengths are those of the months from `month` on. -/
def monthOfDay : Nat → List Nat → Nat → Nat × Nat
  | month, [], n => (month, n + 1)
  | month, len :: rest, n =>
    if n < len then (month, n + 1) else monthOfDay (month + 1) rest (n - len)

/-- The year that a day belongs to, and the day's place in it from 0. The day is given as the
number of days from 0001-01-01. -/
def yearOfDays (n : Int) : Int × Nat :=
  let q400 := n / 146097
  let r400 := n % 146097
  let q100 := min (r400 / 36524) 3
  let r100 := r400 - q100 * 36524
  let q4 := r100 / 1461
  let r4 := r100 % 1461
  let q1 := min (r4 / 365) 3
  (q400 * 400 + q100 * 100 + q4 * 4 + q1 + 1, (r4 - q1 * 365).toNat)

def Date.ofDays (n : Int) : Date :=
  let (year, dayOfYear) := yearOfDays (n + epochDays)
  let (month, day) := monthOfDay 1 (monthLengths (isLeap year)) dayOfYear
  ⟨year, month, day⟩

end AuditTrail.Calendar
