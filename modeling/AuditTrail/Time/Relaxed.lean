import AuditTrail.Text.Blank
import AuditTrail.Text.Split
import AuditTrail.Time.Written
/-!
A generous reader of instants, used where a program wrote the text: years may be short or carry a
sign, other parts may have one digit, and white space may stand before every part.
-/
namespace AuditTrail.Instant

open Positional

/-- The first year of the range in which dates are kept. -/
def firstYear : Int := -262143

/-- The last year of the range in which dates are kept. -/
def lastYear : Int := 262142

def isYear (year : Int) : Bool :=
  firstYear ≤ year && year ≤ lastYear

/-- Reads one to `width` decimal digits after white space. -/
def readShort? (width : Nat) (cs : List Char) : Option (Nat × List Char) :=
  let cs := Blank.trimStart cs
  let ds := (spanDigits (cs.take width)).1
  if ds.isEmpty then none else some (digitsValue ds, cs.drop ds.length)

/-- Reads digits of any count. -/
def readLong? (cs : List Char) : Option (Nat × List Char) :=
  let (ds, rest) := spanDigits cs
  if ds.isEmpty then none else some (digitsValue ds, rest)

/-- Reads a year: up to four digits, or any count of them after a sign. -/
def readYear? (cs : List Char) : Option (Int × List Char) :=
  match Blank.trimStart cs with
  | '-' :: r => (readLong? r).map fun (y, r) => (-(y : Int), r)
  | '+' :: r => (readLong? r).map fun (y, r) => ((y : Int), r)
  | cs => (readShort? 4 cs).map fun (y, r) => ((y : Int), r)

/-- Reads one character after white space. -/
def readAfterBlank? (mark : Char) (cs : List Char) : Option (List Char) :=
  Split.after? [mark] (Blank.trimStart cs)

/-- Drops what may stand between the hours and the minutes of a zone. -/
def dropZoneMarks (cs : List Char) : List Char :=
  cs.dropWhile fun c => c = ':' || Blank.isBlank c

/-- Reads a zone, which may also be `UTC` in any letter case. -/
def readNamedZone? (cs : List Char) : Option (Int × List Char) :=
  if (cs.take 3).map Char.toUpper = ['U', 'T', 'C'] then some (0, cs.drop 3)
  else (readZone (fun cs => .ok (dropZoneMarks cs)) cs).toOption

/-- Reads an instant generously. Both the local date and the date in UTC have to be in the range of
years. -/
def readRelaxed? (s : String) : Option Instant := do
  let cs := s.toList
  let (year, cs) ← readYear? cs
  let cs ← readAfterBlank? '-' cs
  let (month, cs) ← readShort? 2 cs
  let cs ← readAfterBlank? '-' cs
  let (day, cs) ← readShort? 2 cs
  let cs ← (readMark (fun c => c = 'T' || c = 't' || c = ' ') cs).toOption
  let (h, cs) ← readShort? 2 cs
  let cs ← readAfterBlank? ':' cs
  let (m, cs) ← readShort? 2 cs
  let cs ← readAfterBlank? ':' cs
  let (sec, cs) ← readShort? 2 cs
  let (fraction, cs) ← match cs with
    | '.' :: r => (readFraction r).toOption
    | _ => some (0, cs)
  let (offset, cs) ← readNamedZone? (Blank.trimStart cs)
  let date : Calendar.Date := ⟨year, month, day⟩
  let (second, extra) ← timeOfDay? h m sec
  let t := ofLocal date second (extra + fraction) offset
  if isYear year && date.isValid && offset.natAbs < 86400 && (Blank.trimStart cs).isEmpty
      && isYear t.year then
    some t
  else none

end AuditTrail.Instant
