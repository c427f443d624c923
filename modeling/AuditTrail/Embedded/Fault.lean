import AuditTrail.Embedded.Cell
import AuditTrail.Embedded.Depth
import AuditTrail.Error
/-!
What the embedded database itself reports.
-/
namespace AuditTrail.Embedded

/-- Why a statement failed, or why a column of its answer cannot be read. -/
inductive Fault where
  | locked
  | notADatabase
  | tooDeep
  | noTable (name : String)
  | notUnique (table : Table) (key : List Column)
  | brokenReference
  | malformedJson
  | columnType (type : String) (index : Nat) (column : Column)
  | outOfRange (n : Int) (index : Nat)
  | conversion (index : Nat) (cause : String)
deriving DecidableEq

def Fault.message : Fault → String
  | locked => "database is locked"
  | notADatabase => "file is not a database"
  | tooDeep => "Expression tree is too large (maximum depth " ++ toString depthLimit ++ ")"
  | noTable name => "no such table: " ++ name
  | notUnique t key =>
    "UNIQUE constraint failed: " ++ ", ".intercalate (key.map fun c => t.name ++ "." ++ c.text)
  | brokenReference => "FOREIGN KEY constraint failed"
  | malformedJson => "malformed JSON"
  | columnType type index c =>
    "Invalid column type " ++ type ++ " at index: " ++ toString index ++ ", name: " ++ c.text
  | outOfRange n index => "Integer " ++ toString n ++ " out of range at index " ++ toString index
  | conversion index cause =>
    "Conversion error from type Text at index: " ++ toString index ++ ", " ++ cause

/-- A fault as an error of the store, with what was being done. -/
def Fault.error (doing : String) (f : Fault) : Error :=
  .internal StoreKind.embedded.name (doing ++ ": " ++ f.message)

end AuditTrail.Embedded
