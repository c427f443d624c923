import AuditTrail.Text.Positional
import AuditTrail.Text.Printable
/-!
Texts inside messages, in double quotes. Quotes and backslashes are escaped, four controls have
letters of their own, and every other character that would not show is written by its number.
-/
namespace AuditTrail.Quoted

/-- The hexadecimal digits of a number, without leading zeros. -/
def hexadecimal (n : Nat) : List Char :=
  Nat.toDigits 16 n

def escape (c : Char) : List Char :=
  if c = '"' then ['\\', '"']
  else if c = '\\' then ['\\', '\\']
  else if c = '\n' then ['\\', 'n']
  else if c = '\r' then ['\\', 'r']
  else if c = '\t' then ['\\', 't']
  else if c = '\x00' then ['\\', '0']
  else if Printable.isHidden c then ['\\', 'u', '\x7b'] ++ hexadecimal c.toNat ++ ['\x7d']
  else [c]

def quote (s : String) : String :=
  String.ofList ('"' :: s.toList.flatMap escape ++ ['"'])

end AuditTrail.Quoted
