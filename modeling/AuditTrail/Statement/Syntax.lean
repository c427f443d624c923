import AuditTrail.Id
import AuditTrail.Statement.Column
import AuditTrail.Text.TextMap
import AuditTrail.Time.Instant
import AuditTrail.Flag
/-!
Statements to a database as data. Values are never part of a statement's text: they are bound to
its places, so they stay typed values here, and each store decides how it writes them.
-/
namespace AuditTrail

/-- An integer of 32 bits. -/
def Short (n : Int) : Prop := -2147483648 ≤ n ∧ n < 2147483648

instance (n : Int) : Decidable (Short n) := inferInstanceAs (Decidable (_ ∧ _))

/-- A value bound to a place of a statement. Integers belong to columns; a count limits rows. -/
inductive Value where
  | null
  | id (id : Id)
  | ids (ids : List Id)
  | instant (t : Instant)
  | text (s : String)
  | flag (f : Flag)
  | map (m : TextMap)
  | integer (n : Int)
  | count (n : Nat)
  | bytes (bs : List UInt8)
deriving DecidableEq

namespace Value

def ofText? : Option String → Value
  | some s => text s
  | none => null

def ofBytes? : Option (List UInt8) → Value
  | some bs => bytes bs
  | none => null

end Value

/-- A condition on the rows of a table. -/
inductive Condition where
  | equals (column : Column) (value : Value)
  | below (column : Column) (value : Value)
  | atLeast (column : Column) (value : Value)
  | among (column : Column) (ids : List Id)
  | labelled (labels : TextMap)
deriving DecidableEq

/-- A column to sort by. -/
structure SortKey where
  column : Column
  descending : Bool
deriving DecidableEq, Repr

/-- How many rows are wanted. -/
inductive Bound where
  | all
  | first
  | upTo (n : Nat)
deriving DecidableEq, Repr

/-- A choice of rows. No columns means that only their presence matters. A locking choice keeps
others from changing the rows until the transaction ends. -/
structure Selection where
  columns : List Column
  table : Table
  conditions : List Condition
  order : List SortKey
  bound : Bound
  locking : Bool
deriving DecidableEq

/-- A statement. Inserts and updates may answer with columns of the rows that they have written. -/
inductive Statement where
  | select (selection : Selection)
  | insert (table : Table) (entries : List (Column × Value)) (returning : List Column)
  | update (table : Table) (entries : List (Column × Value)) (conditions : List Condition)
      (returning : List Column)
  | delete (table : Table) (conditions : List Condition)
deriving DecidableEq

namespace Statement

def table : Statement → Table
  | select s => s.table
  | insert t _ _ => t
  | update t _ _ _ => t
  | delete t _ => t

/-- The columns of the rows that a statement answers with. -/
def columns : Statement → List Column
  | select s => s.columns
  | insert _ _ returning | update _ _ _ returning => returning
  | delete _ _ => []

/-- The conditions on the rows that a statement is about. -/
def conditions : Statement → List Condition
  | select s => s.conditions
  | insert _ _ _ => []
  | update _ _ conditions _ | delete _ conditions => conditions

end Statement

end AuditTrail
