import AuditTrail.Json.TextMap
import AuditTrail.Statement.Syntax
import AuditTrail.Time.Written
/-!
Cells of the embedded database. Identifiers, instants and maps are kept as text, in forms whose text
order is their own order where one is needed.
-/
namespace AuditTrail.Embedded

/-- A stored value. -/
inductive Cell where
  | null
  | integer (n : Int)
  | text (s : String)
  | blob (bytes : List UInt8)
deriving DecidableEq

instance : Inhabited Cell := ⟨.null⟩

namespace Cell

def typeName : Cell → String
  | null => "Null"
  | integer _ => "Integer"
  | text _ => "Text"
  | blob _ => "Blob"

def rank : Cell → Nat
  | null => 0
  | integer _ => 1
  | text _ => 2
  | blob _ => 3

/-- Whether a list of bytes comes before another. -/
def bytesBefore : List UInt8 → List UInt8 → Bool
  | [], [] => false
  | [], _ :: _ => true
  | _ :: _, [] => false
  | a :: as, b :: bs => a < b || (a = b && bytesBefore as bs)

/-- Whether a cell comes before another: by type, then by number, by text or by bytes. -/
def before : Cell → Cell → Bool
  | integer a, integer b => a < b
  | text a, text b => a < b
  | blob a, blob b => bytesBefore a b
  | a, b => a.rank < b.rank

/-- Whether both cells hold the same; a missing value is equal to nothing. -/
def equals (a b : Cell) : Bool :=
  a ≠ null && a = b

/-- Whether both cells hold something and the first comes before the second. -/
def below (a b : Cell) : Bool :=
  a ≠ null && b ≠ null && a.before b

end Cell

def idsText (ids : List Id) : String :=
  (Json.array (ids.map fun id => .string id.text)).text

end AuditTrail.Embedded

namespace AuditTrail

def Flag.cell : Flag → Embedded.Cell
  | unset => .null
  | on => .integer 1
  | off => .integer 0

def Value.cell : Value → Embedded.Cell
  | null => .null
  | id i => .text i.text
  | ids is => .text (Embedded.idsText is)
  | instant t => .text t.sortable
  | text s => .text s
  | flag f => f.cell
  | map m => .text (Json.textMapText m)
  | integer n => .integer n
  | count n => .integer n
  | bytes bs => .blob bs

end AuditTrail
