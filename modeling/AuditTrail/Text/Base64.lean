/-!
Bytes as text over the URL-safe alphabet, four characters for three bytes, without padding. Reading
accepts only what writing produces: a text of a wrong length, with a foreign character or with bits
left over is refused.
-/
namespace AuditTrail.Base64

def symbol (n : Nat) : Char :=
  if n < 26 then Char.ofNat (65 + n)
  else if n < 52 then Char.ofNat (71 + n)
  else if n < 62 then Char.ofNat (n - 4)
  else if n = 62 then '-'
  else '_'

def number? (c : Char) : Option Nat :=
  if 'A' ≤ c ∧ c ≤ 'Z' then some (c.toNat - 65)
  else if 'a' ≤ c ∧ c ≤ 'z' then some (c.toNat - 71)
  else if '0' ≤ c ∧ c ≤ '9' then some (c.toNat + 4)
  else if c = '-' then some 62
  else if c = '_' then some 63
  else none

theorem number?_symbol : ∀ n, n < 64 → number? (symbol n) = some n := by decide

/-- Writes bytes in groups of three; the last group may be shorter. -/
def encode : List UInt8 → List Char
  | [] => []
  | [a] => [symbol (a.toNat / 4), symbol (a.toNat % 4 * 16)]
  | [a, b] =>
    [symbol (a.toNat / 4), symbol (a.toNat % 4 * 16 + b.toNat / 16), symbol (b.toNat % 16 * 4)]
  | a :: b :: c :: r =>
    symbol (a.toNat / 4) :: symbol (a.toNat % 4 * 16 + b.toNat / 16)
      :: symbol (b.toNat % 16 * 4 + c.toNat / 64) :: symbol (c.toNat % 64) :: encode r

/-- The bytes of six-bit numbers. A last group of one number, or one whose unused bits are not
zero, is refused. -/
def gather? : List Nat → Option (List UInt8)
  | [] => some []
  | [_] => none
  | [w, x] =>
    if x % 16 = 0 then some [UInt8.ofNat (w * 4 + x / 16)] else none
  | [w, x, y] =>
    if y % 4 = 0 then
      some [UInt8.ofNat (w * 4 + x / 16), UInt8.ofNat (x % 16 * 16 + y / 4)]
    else none
  | w :: x :: y :: z :: r =>
    (gather? r).map fun bytes =>
      UInt8.ofNat (w * 4 + x / 16) :: UInt8.ofNat (x % 16 * 16 + y / 4)
        :: UInt8.ofNat (y % 4 * 64 + z) :: bytes

/-- Reads what `encode` writes. -/
def decode? (cs : List Char) : Option (List UInt8) :=
  (cs.mapM number?).bind gather?

end AuditTrail.Base64
