/-!
Characters in a byte sequence. Well-formed sequences give characters; each longest start of a
character that is not completed, and each byte that starts none, gives one `none`. The strict and
the replacing reader are two views of the same division.
-/
namespace AuditTrail.Utf8

def isContinuation (b : UInt8) : Bool := 0x80 ≤ b && b ≤ 0xBF

/-- Whether `b` may follow the lead byte `a`. Overlong forms, surrogates and numbers above the
last character are excluded here, so later bytes need no further test. -/
def follows (a b : UInt8) : Bool :=
  if a < 0xC2 then false
  else if a = 0xE0 then 0xA0 ≤ b && b ≤ 0xBF
  else if a = 0xED then 0x80 ≤ b && b ≤ 0x9F
  else if a = 0xF0 then 0x90 ≤ b && b ≤ 0xBF
  else if a = 0xF4 then 0x80 ≤ b && b ≤ 0x8F
  else if a < 0xF4 then isContinuation b
  else false

def payload (b : UInt8) : Nat := b.toNat % 64

def units : List UInt8 → List (Option Char)
  | [] => []
  | a :: r =>
    if a < 0x80 then some (Char.ofNat a.toNat) :: units r
    else match r with
      | [] => [none]
      | b :: r₁ =>
        if !follows a b then none :: units (b :: r₁)
        else if a < 0xE0 then
          some (Char.ofNat (a.toNat % 32 * 64 + payload b)) :: units r₁
        else match r₁ with
          | [] => [none]
          | c :: r₂ =>
            if !isContinuation c then none :: units (c :: r₂)
            else if a < 0xF0 then
              some (Char.ofNat ((a.toNat % 16 * 64 + payload b) * 64 + payload c)) :: units r₂
            else match r₂ with
              | [] => [none]
              | d :: r₃ =>
                if !isContinuation d then none :: units (d :: r₃)
                else
                  some (Char.ofNat
                    (((a.toNat % 8 * 64 + payload b) * 64 + payload c) * 64 + payload d))
                    :: units r₃

def decode? (bytes : List UInt8) : Option String :=
  ((units bytes).mapM id).map String.ofList

/-- The text of any bytes; each ill-formed stretch becomes a replacement character. -/
def decodeReplacing (bytes : List UInt8) : String :=
  String.ofList ((units bytes).map (·.getD '\uFFFD'))

def encode (s : String) : List UInt8 :=
  s.toUTF8.toList

def size : List Char → Nat
  | [] => 0
  | c :: r => c.utf8Size + size r

end AuditTrail.Utf8
