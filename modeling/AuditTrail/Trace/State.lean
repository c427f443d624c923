import AuditTrail.Text.Split
/-!
The `tracestate` header of a trace context: members `key=value` between commas, at most 32 of them,
with different keys. Pieces without any character are passed over.
-/
namespace AuditTrail.TraceState

def isLetter (c : Char) : Bool :=
  'a' ≤ c && c ≤ 'z'

def isTenantStart (c : Char) : Bool :=
  isLetter c || ('0' ≤ c && c ≤ '9')

def isKeyChar (c : Char) : Bool :=
  isTenantStart c || c = '_' || c = '-' || c = '*' || c = '/'

/-- A first character of one class and at most `max` further key characters. -/
def isName (start : Char → Bool) (max : Nat) : List Char → Bool
  | [] => false
  | c :: r => start c && r.all isKeyChar && r.length ≤ max

/-- Whether a text is a key: a plain name, or a tenant and a vendor with `@` between them. -/
def isKey (cs : List Char) : Bool :=
  isName isLetter 255 cs ||
    match Split.first? '@' cs with
    | some (tenant, vendor) => isName isTenantStart 240 tenant && isName isLetter 13 vendor
    | none => false

/-- Whether a character may stand in a value: printable ASCII without comma and equals sign. -/
def isValueChar (c : Char) : Bool :=
  ' ' ≤ c && c ≤ '~' && c ≠ ',' && c ≠ '='

/-- Whether a text is a value: 1 to 256 characters, the last not a space. -/
def isValue (cs : List Char) : Bool :=
  cs.all isValueChar && 1 ≤ cs.length && cs.length ≤ 256 && cs.getLast? ≠ some ' '

def isPadding (c : Char) : Bool :=
  c = ' ' || c = '\t'

/-- The key of a member, if the member is well formed. -/
def memberKey? (piece : List Char) : Option (List Char) :=
  match Split.first? '=' (Split.trimBoth isPadding piece) with
  | some (key, value) => if isKey key && isValue value then some key else none
  | none => none

def maxMembers : Nat := 32

/-- Whether pieces are good members whose keys differ from each other and from those seen. -/
def areMembers (seen : List (List Char)) : List (List Char) → Bool
  | [] => true
  | piece :: rest =>
    if piece.isEmpty then areMembers seen rest
    else if maxMembers ≤ seen.length then false
    else match memberKey? piece with
      | some key => !seen.contains key && areMembers (key :: seen) rest
      | none => false

def isValid (s : String) : Bool :=
  areMembers [] (Split.pieces ',' s.toList)

end AuditTrail.TraceState
