import AuditTrail.Text.Positional
import AuditTrail.Time.Instant
/-!
Instants as text in the manner of RFC 3339. Two forms are written: one of fixed width with nine
places, in which text order is time order, and one with the fewest of 0, 3, 6 or 9 places that lose
nothing. One form is read: a layout of fixed places with a time zone.
-/
namespace AuditTrail.Instant

open Positional

/-- A year of four digits, or with a sign if it lies outside 0 to 9999. -/
def writeYear (year : Int) : List Char :=
  if 0 ≤ year ∧ year ≤ 9999 then padded 4 year.toNat
  else
    let ds := if year.natAbs ≤ 9999 then padded 4 year.natAbs else decimal year.natAbs
    (if year < 0 then '-' else '+') :: ds

/-- Date and time of day, without fraction and zone. -/
def writeSeconds (t : Instant) : List Char :=
  let d := t.date
  let (h, m, s) := t.clock
  writeYear d.year ++ '-' :: padded 2 d.month ++ '-' :: padded 2 d.day
    ++ 'T' :: padded 2 h ++ ':' :: padded 2 m ++ ':' :: padded 2 s

/-- The form of fixed width, for years 0 to 9999. -/
def sortable (t : Instant) : String :=
  String.ofList (t.writeSeconds ++ '.' :: padded 9 t.fraction ++ ['Z'])

/-- The fraction with the fewest places of 0, 3, 6 and 9 that lose nothing. -/
def writeFraction (n : Nat) : List Char :=
  if n = 0 then []
  else if n % 1000000 = 0 then '.' :: padded 3 (n / 1000000)
  else if n % 1000 = 0 then '.' :: padded 6 (n / 1000)
  else '.' :: padded 9 n

def short (t : Instant) : String :=
  String.ofList (t.writeSeconds ++ writeFraction t.fraction ++ ['Z'])

/-- Why a text is no instant. -/
inductive ReadFault where
  | tooShort
  | invalid
  | outOfRange
  | tooLong
deriving DecidableEq, Repr

def ReadFault.message : ReadFault → String
  | tooShort => "premature end of input"
  | invalid => "input contains invalid characters"
  | outOfRange => "input is out of range"
  | tooLong => "trailing input"

def spanDigits (cs : List Char) : List Char × List Char :=
  cs.span (fun c => (decimalValue? c).isSome)

/-- The value of digits that `spanDigits` gives. -/
def digitsValue (ds : List Char) : Nat :=
  value 10 (ds.filterMap decimalValue?)

/-- Reads exactly `count` decimal digits. -/
def readDigits (count : Nat) (cs : List Char) : Except ReadFault (Nat × List Char) :=
  match (cs.take count).mapM decimalValue? with
  | some vs => if vs.length = count then .ok (value 10 vs, cs.drop count) else .error .tooShort
  | none => .error .invalid

def readMark (accepts : Char → Bool) : List Char → Except ReadFault (List Char)
  | c :: r => if accepts c then .ok r else .error .invalid
  | [] => .error .tooShort

/-- Reads a fraction of at least one digit, as nanoseconds; places after the ninth are dropped. -/
def readFraction (cs : List Char) : Except ReadFault (Nat × List Char) :=
  let (ds, rest) := spanDigits cs
  if ds.isEmpty then
    .error (if rest.isEmpty then .tooShort else .invalid)
  else
    let nine := ds.take 9
    .ok (digitsValue (nine ++ List.replicate (9 - nine.length) '0'), rest)

/-- Reads the sign of a zone, true if the zone is behind UTC. The minus sign proper counts as a
hyphen. -/
def readSign : List Char → Except ReadFault (Bool × List Char)
  | '+' :: r => .ok (false, r)
  | '-' :: r => .ok (true, r)
  | '\u2212' :: r => .ok (true, r)
  | _ :: _ => .error .invalid
  | [] => .error .tooShort

/-- The next two characters, if there are two bytes of text. -/
def pair (cs : List Char) : Except ReadFault (Char × Char × List Char) :=
  match cs with
  | a :: b :: r => .ok (a, b, r)
  | [a] => if a.utf8Size < 2 then .error .tooShort else .error .invalid
  | [] => .error .tooShort

/-- Reads the hours and minutes of a zone, as seconds. `mark` reads what stands between them. -/
def readOffset (mark : List Char → Except ReadFault (List Char)) (cs : List Char) :
    Except ReadFault (Int × List Char) := do
  let (behind, cs) ← readSign cs
  let (a, b, cs) ← pair cs
  match decimalValue? a, decimalValue? b with
  | some h₁, some h₂ =>
    let cs ← mark cs
    let (a, b, cs) ← pair cs
    match decimalValue? a, decimalValue? b with
    | some m₁, some m₂ =>
      if 6 ≤ m₁ then .error .outOfRange
      else
        let seconds : Int := (h₁ * 10 + h₂) * 3600 + (m₁ * 10 + m₂) * 60
        .ok (if behind then -seconds else seconds, cs)
    | _, _ => .error .invalid
  | _, _ => .error .invalid

/-- Reads a zone: `Z` in either case, or an offset. -/
def readZone (mark : List Char → Except ReadFault (List Char)) :
    List Char → Except ReadFault (Int × List Char)
  | 'Z' :: r => .ok (0, r)
  | 'z' :: r => .ok (0, r)
  | cs => readOffset mark cs

/-- The second of the day and the nanoseconds that a clock reading adds to. A second of 60 is the
leap second after second 59. -/
def timeOfDay? (h m s : Nat) : Option (Nat × Nat) :=
  if 24 ≤ h ∨ 60 ≤ m ∨ 61 ≤ s then none
  else if s = 60 then some (h * 3600 + m * 60 + 59, 1000000000)
  else some (h * 3600 + m * 60 + s, 0)

def fixedPlaces : Nat := 19

/-- Fails unless a condition holds. -/
def require (holds : Bool) (fault : ReadFault) : Except ReadFault Unit :=
  if holds then .ok () else .error fault

/-- Reads an instant: four digits of year and two of everything else, a `T` or a space between date
and time, an optional fraction, and a zone less than a day from UTC. -/
def read (s : String) : Except ReadFault Instant := do
  let cs := s.toList
  require (fixedPlaces ≤ s.utf8ByteSize) .tooShort
  let (year, cs) ← readDigits 4 cs
  let cs ← readMark (· = '-') cs
  let (month, cs) ← readDigits 2 cs
  let cs ← readMark (· = '-') cs
  let (day, cs) ← readDigits 2 cs
  let date : Calendar.Date := ⟨year, month, day⟩
  require date.isValid .outOfRange
  let cs ← readMark (fun c => c = 'T' || c = 't' || c = ' ') cs
  let (h, cs) ← readDigits 2 cs
  let cs ← readMark (· = ':') cs
  let (m, cs) ← readDigits 2 cs
  let cs ← readMark (· = ':') cs
  let (sec, cs) ← readDigits 2 cs
  let (fraction, cs) ← match cs with
    | '.' :: r => readFraction r
    | _ => .ok (0, cs)
  match timeOfDay? h m sec with
  | none => .error .outOfRange
  | some (second, extra) =>
    let (offset, cs) ← readZone (readMark (· = ':')) cs
    require (offset.natAbs < 86400) .outOfRange
    require cs.isEmpty .tooLong
    .ok (ofLocal date second (extra + fraction) offset)

end AuditTrail.Instant
