import AuditTrail.Embedded.Database
import AuditTrail.Text.Hexadecimal
/-!
Embedded databases as documents, for a program that keeps them in files. Cells are texts, numbers,
null, or objects that hold bytes as hexadecimal digits. A row is an object of its cells, a table an
array of its rows, and a table that is missing is null.
-/
namespace AuditTrail.Embedded

open Json

namespace Archive

def bytesField : String := "bytes"

def integer? : List Char → Option Int
  | '-' :: ds => (Positional.natural? ds).map fun n => -(n : Int)
  | ds => (Positional.natural? ds).map fun n => (n : Int)

def cell : Codec Cell where
  write
    | .null => .null
    | .integer n => .number n
    | .text s => .string s
    | .blob bs => .object [(bytesField, .string (String.ofList (Hexadecimal.encode bs)))]
  read?
    | .null => some .null
    | .number written => (integer? written).map .integer
    | .string written => (textOf? written).map .text
    | .object [(key, .string written)] => do
      let key ← textOf? key
      if key = bytesField then
        let digits ← textOf? written
        (Hexadecimal.decode? digits.toList).map .blob
      else none
    | _ => none

def cellOf? (t : Table) : Units × Source → Option (Column × Cell)
  | (key, value) => do
    let column ← t.column? (← textOf? key)
    let value ← cell.read? value
    some (column, value)

def row (t : Table) : Codec Row where
  write := fun r => .object (r.map fun e => (e.1.text, cell.write e.2))
  read?
    | .object members => members.mapM (cellOf? t)
    | _ => none

def rows (t : Table) : Codec (List Row) where
  write := fun rs => .array (rs.map (row t).write)
  read?
    | .array items => items.mapM (row t).read?
    | _ => none

def table (t : Table) : Json.Field Database :=
  .of t.name (rows t).optional (fun db => db.rows? t) (fun rs db => db.put t rs)

def layout : Layout Database where
  start := Database.empty
  fields := Table.all.map table
    ++ [.of "last_number" (unsigned max64) Database.lastNumber
      (fun n db => { db with lastNumber := n })]

end Archive

namespace Database

def archive (db : Database) : String :=
  (Archive.layout.codec.write db).text

/-- The database of a text. The empty text is the database without tables. -/
def ofArchive? (s : String) : Option Database :=
  if s = "" then some empty else Archive.layout.codec.ofText? s

end Database

end AuditTrail.Embedded
