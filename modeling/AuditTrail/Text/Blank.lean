/-!
White space in the sense of Unicode, and its removal from texts.
-/
namespace AuditTrail.Blank

def isBlank (c : Char) : Bool :=
  let n := c.toNat
  (9 ≤ n && n ≤ 13) || n = 32 || n = 0x85 || n = 0xA0 || n = 0x1680
    || (0x2000 ≤ n && n ≤ 0x200A) || n = 0x2028 || n = 0x2029 || n = 0x202F || n = 0x205F
    || n = 0x3000

def trimStart (cs : List Char) : List Char :=
  cs.dropWhile isBlank

def isEmpty (s : String) : Bool :=
  s.toList.all isBlank

end AuditTrail.Blank
