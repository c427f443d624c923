import AuditTrail.Id
import AuditTrail.Statement.Column
/-!
Partitions of a server store. The rows of a project live in a partition of each divided table, which
is named for the table and the project's number.
-/
namespace AuditTrail.Server

/-- The partition of a table that a project's number stands for. -/
structure Partition where
  table : String
  number : Int
deriving DecidableEq, Repr

namespace Partition

def name (p : Partition) : String :=
  p.table ++ "_ppn_" ++ toString p.number

/-- The script that creates a partition for the rows of one project. An identifier is written with
hexadecimal digits and hyphens only, so it can stand in the text. -/
def create (p : Partition) (project : Id) : String :=
  "CREATE TABLE " ++ p.name ++ " PARTITION OF " ++ p.table ++ " FOR VALUES IN ('" ++ project.text
    ++ "')"

def drop (p : Partition) : String :=
  "DROP TABLE IF EXISTS " ++ p.name ++ " CASCADE"

end Partition

/-- The partitions of a project, in the order in which they are created. -/
def partitionsOf (number : Int) : List Partition :=
  Table.partitioned.map fun t => ⟨t.name, number⟩

end AuditTrail.Server
