import AuditTrail.Text.Positional
/-!
JSON documents as values, and their text in two layouts: compact, and indented by two spaces a
level. Members are written in the order in which the document holds them.
-/
namespace AuditTrail

/-- A JSON document with whole numbers. -/
inductive Json where
  | null
  | boolean (b : Bool)
  | number (n : Int)
  | string (s : String)
  | array (items : List Json)
  | object (members : List (String × Json))
deriving Inhabited

namespace Json

/-- A character as it stands in a string. Only quotes, backslashes and controls are escaped. -/
def escape (c : Char) : List Char :=
  if c = '"' then ['\\', '"']
  else if c = '\\' then ['\\', '\\']
  else if c = '\x08' then ['\\', 'b']
  else if c = '\x0c' then ['\\', 'f']
  else if c = '\n' then ['\\', 'n']
  else if c = '\r' then ['\\', 'r']
  else if c = '\t' then ['\\', 't']
  else if c.toNat < 32 then
    ['\\', 'u'] ++ (Positional.digits 16 4 c.toNat).map Positional.digitChar
  else [c]

def writeString (s : String) : List Char :=
  '"' :: s.toList.flatMap escape ++ ['"']

def writeNumber (n : Int) : List Char :=
  if n < 0 then '-' :: Positional.decimal n.natAbs else Positional.decimal n.natAbs

mutual

def write : Json → List Char
  | null => "null".toList
  | boolean true => "true".toList
  | boolean false => "false".toList
  | number n => writeNumber n
  | string s => writeString s
  | array items => '[' :: writeItems items ++ [']']
  | object members => '\x7b' :: writeMembers members ++ ['\x7d']

def writeItems : List Json → List Char
  | [] => []
  | [j] => write j
  | j :: rest => write j ++ ',' :: writeItems rest

def writeMembers : List (String × Json) → List Char
  | [] => []
  | [(k, j)] => writeString k ++ ':' :: write j
  | (k, j) :: rest => writeString k ++ ':' :: write j ++ ',' :: writeMembers rest

end

def text (j : Json) : String :=
  String.ofList (write j)

def lineBreak (level : Nat) : List Char :=
  '\n' :: List.replicate (2 * level) ' '

mutual

def writeAt (level : Nat) : Json → List Char
  | array (j :: rest) =>
    '[' :: writeItemsAt (level + 1) (j :: rest) ++ lineBreak level ++ [']']
  | object (m :: rest) =>
    '\x7b' :: writeMembersAt (level + 1) (m :: rest) ++ lineBreak level ++ ['\x7d']
  | null => "null".toList
  | boolean true => "true".toList
  | boolean false => "false".toList
  | number n => writeNumber n
  | string s => writeString s
  | array [] => ['[', ']']
  | object [] => ['\x7b', '\x7d']

def writeItemsAt (level : Nat) : List Json → List Char
  | [] => []
  | [j] => lineBreak level ++ writeAt level j
  | j :: rest => lineBreak level ++ writeAt level j ++ ',' :: writeItemsAt level rest

def writeMembersAt (level : Nat) : List (String × Json) → List Char
  | [] => []
  | [(k, j)] => lineBreak level ++ writeString k ++ ':' :: ' ' :: writeAt level j
  | (k, j) :: rest =>
    lineBreak level ++ writeString k ++ ':' :: ' ' :: writeAt level j
      ++ ',' :: writeMembersAt level rest

end

def indented (j : Json) : String :=
  String.ofList (writeAt 0 j)

def ofOption (s : Option String) : Json :=
  match s with
  | some s => string s
  | none => null

end Json

end AuditTrail
