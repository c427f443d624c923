import AuditTrail.Error
import AuditTrail.Text.Split
import AuditTrail.Text.Utf8
/-!
The four spellings of an identifier: 32 hexadecimal digits, the same digits in hyphenated groups of
8, 4, 4, 4 and 12, and the hyphenated form in braces or after `urn:uuid:`. A text that is none of
them is refused with the first reason found, counted in bytes.
-/
namespace AuditTrail.Id

/-- Why a text spells no identifier. -/
inductive SpellingFault where
  | length (found : Nat)
  | character (found : Char) (index : Nat)
  | groupCount (found : Nat)
  | groupLength (group expected found : Nat)
deriving DecidableEq, Repr

namespace SpellingFault

def message : SpellingFault → String
  | length n => "invalid length: found " ++ toString n
  | character c i => "invalid character: found `" ++ String.singleton c ++ "` at " ++ toString i
  | groupCount n => "invalid group count: expected 5, found " ++ toString n
  | groupLength g e n =>
    "invalid group length in group " ++ toString g ++ ": expected " ++ toString e ++ ", found "
      ++ toString n

end SpellingFault

def ofHexDigits? (ds : List Char) : Option Id :=
  (ds.mapM Positional.hexValue?).map fun vs => ofNat (Positional.value 16 vs)

/-- The first character that is neither a hexadecimal digit nor a hyphen, with its byte index. -/
def firstForeign? : Nat → List Char → Option (Char × Nat)
  | _, [] => none
  | i, c :: r =>
    if c = '-' ∨ (Positional.hexValue? c).isSome then firstForeign? (i + c.utf8Size) r
    else some (c, i)

def hyphens : Nat → List Char → List Nat
  | _, [] => []
  | i, c :: r => if c = '-' then i :: hyphens (i + 1) r else hyphens (i + 1) r

/-- The first of the four hyphens that is out of its place, as the length of the group before it.
Each group is given by its number, the place where it starts and its length. -/
def misplaced? : List (Nat × Nat × Nat) → List Nat → Option SpellingFault
  | (g, start, len) :: gs, h :: hs =>
    if h = start + len then misplaced? gs hs else some (.groupLength g len (h - start))
  | _, _ => none

def leadingGroups : List (Nat × Nat × Nat) :=
  [(0, 0, 8), (1, 9, 4), (2, 14, 4), (3, 19, 4)]

/-- Why `cs` is not hyphenated as it should be. `total` is the length that messages speak of,
`offset` the place of `cs` in the text, and `grouped` tells that hyphens were due. -/
def fault (total offset : Nat) (grouped : Bool) (cs : List Char) : SpellingFault :=
  match firstForeign? offset cs with
  | some (c, i) => .character c i
  | none =>
    let hs := hyphens 0 cs
    if hs.isEmpty && !grouped then .length total
    else if hs.length ≠ 4 then .groupCount (hs.length + 1)
    else (misplaced? leadingGroups hs).getD (.groupLength 4 12 (total - 24))

/-- Whether 36 characters have hyphens and digits where the canonical form has them. -/
def isHyphenated (cs : List Char) : Bool :=
  cs.length = 36 && (firstForeign? 0 cs).isNone && hyphens 0 cs = [8, 13, 18, 23]

def ofHyphenated (cs : List Char) : Except SpellingFault Id :=
  if isHyphenated cs then
    match ofHexDigits? (cs.filter (· ≠ '-')) with
    | some id => .ok id
    | none => .error (fault 36 0 true cs)
  else .error (fault 36 0 true cs)

def inBraces? (cs : List Char) : Option (List Char) :=
  match cs with
  | '\x7b' :: r => if r.getLast? = some '\x7d' then some r.dropLast else none
  | _ => none

def afterPrefix? (cs : List Char) : Option (List Char) :=
  Split.after? "urn:uuid:".toList cs

/-- The hyphenated part of a text whose length is that of a spelling with one. -/
def core? (cs : List Char) : Option (List Char) :=
  let n := Utf8.size cs
  if n = 36 then some cs
  else if n = 38 then inBraces? cs
  else if n = 45 then
    if (afterPrefix? ((cs.take 9).map Char.toLower)).isSome then some (cs.drop 9) else none
  else none

/-- Why a text without hyphenated part is no identifier either. -/
def plainFault (cs : List Char) : SpellingFault :=
  let n := Utf8.size cs
  if n = 0 ∨ 45 < n then .length n
  else match inBraces? cs, afterPrefix? cs with
    | some inner, _ => fault n 1 true inner
    | none, some rest => fault n 9 true rest
    | none, none => fault n 0 false cs

def parse (s : String) : Except SpellingFault Id :=
  let cs := s.toList
  match core? cs with
  | some core => ofHyphenated core
  | none =>
    match ofHexDigits? cs with
    | some id => if cs.length = 32 then .ok id else .error (plainFault cs)
    | none => .error (plainFault cs)

/-- Reads an identifier; a text that spells none is named in the error. -/
def read (s : String) : Except Error Id :=
  (parse s).mapError fun f => .invalidId s f.message

end AuditTrail.Id
