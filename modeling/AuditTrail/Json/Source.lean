import AuditTrail.Text.Positional
/-!
JSON documents as they are written. Reading fixes the structure only: strings keep their escapes
and numbers their digits until somebody asks for a value, so a string that nobody reads is never
checked. The input is a list of units, where `none` stands for bytes that form no character.
-/
namespace AuditTrail.Json

/-- A character, or bytes that form none. -/
abbrev Units := List (Option Char)

/-- A document whose strings and numbers are kept as written, without their quotes. -/
inductive Source where
  | null
  | boolean (b : Bool)
  | number (written : List Char)
  | string (written : Units)
  | array (items : List Source)
  | object (members : List (Units × Source))
deriving Inhabited

def isSpace : Option Char → Bool
  | some c => c = ' ' || c = '\n' || c = '\t' || c = '\r'
  | none => false

def skip (u : Units) : Units :=
  u.dropWhile isSpace

def isHex : Option Char → Bool
  | some c => (Positional.hexValue? c).isSome
  | none => false

/-- Whether a character may follow a backslash alone. -/
def isShortEscape (c : Char) : Bool :=
  c = '"' || c = '\\' || c = '/' || c = 'b' || c = 'f' || c = 'n' || c = 'r' || c = 't'

/-- Reads the rest of a string after its opening quote: what is written, and what follows the
closing quote. Escapes have to be complete and controls may not stand unescaped. -/
def readString : Units → Option (Units × Units)
  | [] => none
  | some '"' :: r => some ([], r)
  | some '\\' :: some 'u' :: a :: b :: c :: d :: r =>
    if isHex a && isHex b && isHex c && isHex d then
      (readString r).map fun (w, r) => (some '\\' :: some 'u' :: a :: b :: c :: d :: w, r)
    else none
  | some '\\' :: some e :: r =>
    if isShortEscape e then
      (readString r).map fun (w, r) => (some '\\' :: some e :: w, r)
    else none
  | some c :: r =>
    if c = '\\' || c.toNat < 32 then none
    else (readString r).map fun (w, r) => (some c :: w, r)
  | none :: r => (readString r).map fun (w, r) => (none :: w, r)

def spanDigits : Units → List Char × Units
  | some c :: r =>
    if (Positional.decimalValue? c).isSome then
      let (ds, rest) := spanDigits r
      (c :: ds, rest)
    else ([], some c :: r)
  | u => ([], u)

/-- Reads a number: no leading zeros, at least one digit before and after a point, and an optional
exponent. -/
def readNumber (u : Units) : Option (List Char × Units) := do
  let (sign, u) := match u with
    | some '-' :: r => (['-'], r)
    | _ => ([], u)
  let (whole, u) := spanDigits u
  if whole.isEmpty || (whole.head? = some '0' && whole.length ≠ 1) then none
  let (fraction, u) ← match u with
    | some '.' :: r =>
      let (ds, r) := spanDigits r
      if ds.isEmpty then none else some ('.' :: ds, r)
    | _ => some ([], u)
  let exponent (e : Char) (r : Units) : Option (List Char × Units) :=
    let (mark, r) := match r with
      | some '+' :: r => (['+'], r)
      | some '-' :: r => (['-'], r)
      | _ => ([], r)
    let (ds, r) := spanDigits r
    if ds.isEmpty then none else some (e :: mark ++ ds, r)
  let (power, u) ← match u with
    | some 'e' :: r => exponent 'e' r
    | some 'E' :: r => exponent 'E' r
    | _ => some ([], u)
  some (sign ++ whole ++ fraction ++ power, u)

/-- What follows a word, if the input begins with it. -/
def readWord (word : List Char) (u : Units) : Option Units :=
  if u.take word.length = word.map some then some (u.drop word.length) else none

mutual

/-- Reads a document, after any white space. -/
def readValue : Nat → Units → Option (Source × Units)
  | 0, _ => none
  | fuel + 1, u =>
    match skip u with
    | some '"' :: r => (readString r).map fun (w, r) => (.string w, r)
    | some '[' :: r =>
      match skip r with
      | some ']' :: r => some (.array [], r)
      | r => (readItems fuel r).map fun (items, r) => (.array items, r)
    | some '\x7b' :: r =>
      match skip r with
      | some '\x7d' :: r => some (.object [], r)
      | r => (readMembers fuel r).map fun (members, r) => (.object members, r)
    | some 'n' :: r => (readWord "ull".toList r).map fun r => (.null, r)
    | some 't' :: r => (readWord "rue".toList r).map fun r => (.boolean true, r)
    | some 'f' :: r => (readWord "alse".toList r).map fun r => (.boolean false, r)
    | u => (readNumber u).map fun (n, r) => (.number n, r)

def readItems : Nat → Units → Option (List Source × Units)
  | 0, _ => none
  | fuel + 1, u => do
    let (item, r) ← readValue fuel u
    match skip r with
    | some ']' :: r => some ([item], r)
    | some ',' :: r =>
      let (items, r) ← readItems fuel r
      some (item :: items, r)
    | _ => none

def readMembers : Nat → Units → Option (List (Units × Source) × Units)
  | 0, _ => none
  | fuel + 1, u =>
    match skip u with
    | some '"' :: r => do
      let (key, r) ← readString r
      match skip r with
      | some ':' :: r =>
        let (value, r) ← readValue fuel r
        match skip r with
        | some '\x7d' :: r => some ([(key, value)], r)
        | some ',' :: r =>
          let (members, r) ← readMembers fuel r
          some ((key, value) :: members, r)
        | _ => none
      | _ => none
    | _ => none

end

/-- Reads one document and nothing else but white space. Every step takes a unit or passes from a
collection to its first item, so twice the length of the input bounds the depth. -/
def Source.read? (u : Units) : Option Source :=
  match readValue (2 * u.length + 2) u with
  | some (s, r) => if (skip r).isEmpty then some s else none
  | none => none

def unitsOf (s : String) : Units :=
  s.toList.map some

def hexNumber? (ds : Units) : Option Nat :=
  (ds.mapM fun (d : Option Char) => d.bind Positional.hexValue?).map (Positional.value 16)

def shortEscape (c : Char) : Char :=
  if c = 'b' then '\x08'
  else if c = 'f' then '\x0c'
  else if c = 'n' then '\n'
  else if c = 'r' then '\r'
  else if c = 't' then '\t'
  else c

/-- The characters that a written string stands for. Numbered escapes of surrogates have to come in
pairs, and every unit has to be a character. -/
def decodeString : Units → Option (List Char)
  | [] => some []
  | some '\\' :: some 'u' :: a :: b :: c :: d :: r =>
    match hexNumber? [a, b, c, d] with
    | none => none
    | some n =>
      if 0xD800 ≤ n ∧ n ≤ 0xDBFF then
        match r with
        | some '\\' :: some 'u' :: e :: f :: g :: h :: r =>
          match hexNumber? [e, f, g, h] with
          | some m =>
            if 0xDC00 ≤ m ∧ m ≤ 0xDFFF then
              (decodeString r).map
                (Char.ofNat (0x10000 + (n - 0xD800) * 0x400 + (m - 0xDC00)) :: ·)
            else none
          | none => none
        | _ => none
      else if 0xDC00 ≤ n ∧ n ≤ 0xDFFF then none
      else (decodeString r).map (Char.ofNat n :: ·)
  | some '\\' :: some e :: r => (decodeString r).map (shortEscape e :: ·)
  | some c :: r => (decodeString r).map (c :: ·)
  | none :: _ => none

def textOf? (written : Units) : Option String :=
  (decodeString written).map String.ofList

end AuditTrail.Json
