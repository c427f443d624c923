import AuditTrail.Json.Binary64
import AuditTrail.Json.TextMap
import AuditTrail.Text.Quoted
import AuditTrail.Text.Utf8
/-!
Why and where a text is no JSON object of strings. The place is the line and the number of bytes in
it up to the point where reading stopped, so this walk goes over bytes.
-/
namespace AuditTrail.Json

/-- What reading met that it could not use. -/
inductive Unexpected where
  | null
  | boolean (b : Bool)
  | integer (text : String)
  | decimal (text : String)
  | string (s : String)
  | sequence
  | map

def Unexpected.message : Unexpected → String
  | null => "null"
  | boolean true => "boolean `true`"
  | boolean false => "boolean `false`"
  | integer n => "integer `" ++ n ++ "`"
  | decimal n => "floating point `" ++ n ++ "`"
  | string s => "string " ++ Quoted.quote s
  | sequence => "sequence"
  | map => "map"

/-- Why reading stopped. -/
inductive Cause where
  | endInValue
  | endInObject
  | endInString
  | noColon
  | noCommaOrEnd
  | noWord
  | noValue
  | keyNoString
  | badEscape
  | badNumber
  | control
  | loneSurrogate
  | outOfRange
  | brokenPair
  | trailingComma
  | trailingCharacters
  | wrongType (found : Unexpected) (expected : String)

def Cause.message : Cause → String
  | endInValue => "EOF while parsing a value"
  | endInObject => "EOF while parsing an object"
  | endInString => "EOF while parsing a string"
  | noColon => "expected `:`"
  | noCommaOrEnd => "expected `,` or `\x7d`"
  | noWord => "expected ident"
  | noValue => "expected value"
  | keyNoString => "key must be a string"
  | badEscape => "invalid escape"
  | badNumber => "invalid number"
  | control => "control character (\\u0000-\\u001F) found while parsing a string"
  | outOfRange => "number out of range"
  | loneSurrogate => "lone leading surrogate in hex escape"
  | brokenPair => "unexpected end of hex escape"
  | trailingComma => "trailing comma"
  | trailingCharacters => "trailing characters"
  | wrongType found expected => "invalid type: " ++ found.message ++ ", expected " ++ expected

/-- Bytes still to read and the number of those read. -/
structure Place where
  rest : List UInt8
  index : Nat

/-- A stop: its cause and the number of bytes up to it. -/
abbrev Walk := Except (Cause × Nat)

namespace Place

/-- The place after some bytes. -/
def step (p : Place) (n : Nat := 1) : Place :=
  ⟨p.rest.drop n, p.index + min n p.rest.length⟩

def stop {α : Type} (p : Place) (c : Cause) : Walk α :=
  .error (c, p.index)

def stopAtNext {α : Type} (p : Place) (c : Cause) : Walk α :=
  .error (c, p.step.index)

/-- The next byte as a character; bytes above ASCII all look alike. -/
def peek? (p : Place) : Option Char :=
  p.rest.head?.map fun b => if b < 0x80 then Char.ofNat b.toNat else '\uFFFD'

/-- The place after white space. -/
def skip (p : Place) : Place :=
  let n := (p.rest.takeWhile fun b => b = 32 || b = 10 || b = 9 || b = 13).length
  p.step n

end Place

/-- The value of four bytes as hexadecimal digits, and the place after them. -/
def walkHex (p : Place) : Walk (Nat × Place) :=
  if p.rest.length < 4 then (p.step 4).stop .endInString
  else
    match (p.rest.take 4).mapM fun b => Positional.hexValue? (Char.ofNat b.toNat) with
    | some vs => .ok (Positional.value 16 vs, p.step 4)
    | none => (p.step 4).stop .badEscape

def walkPairMark (mark : Char) (p : Place) : Walk Place :=
  match p.peek? with
  | none => p.stop .endInString
  | some c => if c = mark then .ok p.step else p.step.stop .brokenPair

/-- Walks over a numbered escape after its `u`. -/
def walkNumberedEscape (p : Place) : Walk Place := do
  let (n, p) ← walkHex p
  if 0xDC00 ≤ n ∧ n ≤ 0xDFFF then p.stop .loneSurrogate
  else if n < 0xD800 ∨ 0xDBFF < n then .ok p
  else
    let p ← walkPairMark '\\' p
    let p ← walkPairMark 'u' p
    let (m, p) ← walkHex p
    if 0xDC00 ≤ m ∧ m ≤ 0xDFFF then .ok p else p.stop .loneSurrogate

/-- Walks over a string after its opening quote. Each round takes at least a byte. -/
def walkString : Nat → Place → Walk Place
  | 0, p => p.stop .endInString
  | fuel + 1, p =>
    match p.peek? with
    | none => p.stop .endInString
    | some '"' => .ok p.step
    | some '\\' =>
      match p.step.peek? with
      | none => p.step.stop .endInString
      | some 'u' => do
        let p ← walkNumberedEscape (p.step 2)
        walkString fuel p
      | some e => if isShortEscape e then walkString fuel (p.step 2) else (p.step 2).stop .badEscape
    | some c => if c.toNat < 32 then p.step.stop .control else walkString fuel p.step

def walkWord : List Char → Place → Walk Place
  | [], p => .ok p
  | c :: r, p =>
    match p.peek? with
    | none => p.stop .endInValue
    | some d => if c = d then walkWord r p.step else p.step.stop .noWord

def digitCount (p : Place) : Nat :=
  (p.rest.takeWhile fun b => 48 ≤ b && b ≤ 57).length

def between (p q : Place) : List Char :=
  (p.rest.take (q.index - p.index)).map fun b => Char.ofNat b.toNat

/-- Appends digits to a number while it stays within a bound, and says how many digits are left. -/
def gather (bound : Nat) : Nat → List Char → Nat × Nat
  | n, [] => (n, 0)
  | n, c :: r =>
    let m := n * 10 + (Positional.decimalValue? c).getD 0
    if m ≤ bound then gather bound m r else (n, r.length + 1)

/-- The greatest magnitude of a whole number below zero that is read as such. -/
def maxBelowZero : Nat := 9223372036854775808

def maxPower : Nat := 2147483647

/-- Walks over the digits before the point. Only a zero that stands alone comes first. -/
def walkWhole (p : Place) : Walk Place :=
  match p.peek? with
  | none => p.stop .endInValue
  | some '0' => if digitCount p.step = 0 then .ok p.step else p.step.stopAtNext .badNumber
  | some _ => if digitCount p = 0 then p.step.stop .badNumber else .ok (p.step (digitCount p))

/-- Walks over the point and the digits after it, if there are any. Appends those that fit to the
significand, and says how many they are. -/
def walkPlaces (significand : Nat) (p : Place) : Walk (Nat × Nat × Place) :=
  match p.peek? with
  | some '.' =>
    let p := p.step
    let n := digitCount p
    if n = 0 then p.stopAtNext (if p.rest.isEmpty then .endInValue else .badNumber)
    else
      let (significand, left) := gather max64 significand (between p (p.step n))
      .ok (significand, n - left, p.step n)
  | _ => .ok (significand, 0, p)

def hasPower (p : Place) : Bool :=
  p.peek? = some 'e' || p.peek? = some 'E'

/-- Walks over a power of ten, if there is one. One too great is an error, unless it cannot make
the number greater. -/
def walkPower (significand : Nat) (p : Place) : Walk (Int × Place) :=
  if !hasPower p then .ok (0, p)
  else
    let p := p.step
    let (minus, p) := match p.peek? with
      | some '-' => (true, p.step)
      | some '+' => (false, p.step)
      | _ => (false, p)
    let n := digitCount p
    if n = 0 then
      if p.rest.isEmpty then p.stop .endInValue else p.step.stop .badNumber
    else
      let (power, left) := gather maxPower 0 (between p (p.step n))
      if 0 < left && !minus && significand ≠ 0 then (p.step (n - left + 1)).stop .outOfRange
      else .ok (if minus then -power else power, p.step n)

/-- Walks over a number after its sign and says what it was. A number with a point or a power of
ten is decimal, and so is a whole number that does not fit 64 bits, and zero with a sign. Of a
decimal number a significand of 64 bits is kept, and digits that do not fit it are dropped. -/
def walkNumber (negative : Bool) (start : Place) : Walk (Unexpected × Place) := do
  let sign := if negative then "-" else ""
  let p ← walkWhole start
  let whole := between start p
  let isWhole := p.peek? ≠ some '.' && !hasPower p
  let (significand, left) := gather max64 0 whole
  if isWhole && left = 0 && !(negative && (significand = 0 || maxBelowZero < significand)) then
    .ok (.integer (sign ++ String.ofList whole), p)
  else
    let (significand, places, p) ← walkPlaces significand p
    let (power, p) ← walkPower significand p
    match Binary64.ofDecimal? significand (left - places + power) with
    | some x => .ok (.decimal (sign ++ x.text), p)
    | none => p.stop .outOfRange

/-- The text of a string that `walkString` passed. -/
def writtenBetween (p q : Place) : String :=
  let bytes := p.rest.take (q.index - p.index - 1)
  (textOf? (Utf8.units bytes)).getD ""

def wrongType {α : Type} (p : Place) (expected : String) : Walk α :=
  let report (found : Unexpected) (q : Place) : Walk α := q.stop (.wrongType found expected)
  match p.peek? with
  | some 'n' => do report .null (← walkWord "ull".toList p.step)
  | some 't' => do report (.boolean true) (← walkWord "rue".toList p.step)
  | some 'f' => do report (.boolean false) (← walkWord "alse".toList p.step)
  | some '"' => do
    let q ← walkString p.rest.length p.step
    report (.string (writtenBetween p.step q)) q
  | some '[' => report .sequence p
  | some '\x7b' => report .map p
  | some '-' => do
    let (found, q) ← walkNumber true p.step
    report found q
  | some c =>
    if (Positional.decimalValue? c).isSome then do
      let (found, q) ← walkNumber false p
      report found q
    else p.stopAtNext .noValue
  | none => p.stopAtNext .endInValue

/-- Walks over a member after the quote that opens its key. -/
def walkMember (p : Place) : Walk Place := do
  let p := (← walkString (p.rest.length + 1) p).skip
  match p.peek? with
  | some ':' =>
    let p := p.step.skip
    match p.peek? with
    | none => p.stopAtNext .endInValue
    | some '"' => walkString p.rest.length p.step
    | some _ => wrongType p "a string"
  | some _ => p.stopAtNext .noColon
  | none => p.stopAtNext .endInObject

def walkMembers : Nat → Bool → Place → Walk Place
  | 0, _, p => p.stop .endInObject
  | fuel + 1, isFirst, p => do
    let p := p.skip
    match p.peek? with
    | none => p.stopAtNext .endInObject
    | some '\x7d' => .ok p.step
    | some c =>
      if isFirst then
        if c = '"' then
          let p ← walkMember p.step
          walkMembers fuel false p
        else p.stopAtNext .keyNoString
      else if c = ',' then
        let p := p.step.skip
        match p.peek? with
        | some '"' =>
          let p ← walkMember p.step
          walkMembers fuel false p
        | some '\x7d' => p.stopAtNext .trailingComma
        | some _ => p.stopAtNext .keyNoString
        | none => p.stopAtNext .endInValue
      else p.stopAtNext .noCommaOrEnd

def walkTextMap (p : Place) : Walk Unit := do
  let p := p.skip
  match p.peek? with
  | none => p.stopAtNext .endInValue
  | some '\x7b' =>
    let p := (← walkMembers (p.rest.length + 1) true p.step).skip
    match p.peek? with
    | none => .ok ()
    | some _ => p.stopAtNext .trailingCharacters
  | some _ => wrongType p "a map"

/-- The line and column after some bytes, the line from 1 and the column from 0. -/
def lineAndColumn (bytes : List UInt8) : Nat × Nat :=
  (1 + bytes.count 10, (bytes.reverse.takeWhile (· ≠ 10)).length)

def textMapFault (s : String) : String :=
  let bytes := Utf8.encode s
  match walkTextMap ⟨bytes, 0⟩ with
  | .ok () => ""
  | .error (cause, index) =>
    let (line, column) := lineAndColumn (bytes.take index)
    cause.message ++ " at line " ++ toString line ++ " column " ++ toString column

end AuditTrail.Json
