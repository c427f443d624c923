import AuditTrail.Error
import AuditTrail.Statement.Syntax
/-!
The text of statements. A value is never written into a text: it is bound, and a place with its number
stands for it. Text and values come about together, so the number of a place is the number of values
that are bound by then.
-/
namespace AuditTrail

/-- What stands before the number of a place. -/
def StoreKind.placeMark : StoreKind → String
  | .embedded => "?"
  | .server => "$"

/-- Writing in the course of which values are bound. -/
abbrev Writing := StateM (List Value)

/-- Binds a value and gives the text of its place. -/
def Writing.place (kind : StoreKind) (v : Value) : Writing String := do
  modify (· ++ [v])
  return kind.placeMark ++ toString (← get).length

open Writing

def columnList (cs : List Column) : String :=
  ", ".intercalate (cs.map Column.text)

/-- A label as the embedded store looks it up in the JSON text of the labels. -/
def writeLabel (e : String × String) : Writing String := do
  let key ← place .embedded (.text e.1)
  let value ← place .embedded (.text e.2)
  return "EXISTS (SELECT 1 FROM json_each(records.labels) WHERE key = " ++ key ++ " AND value = "
    ++ value ++ ")"

def Condition.write (kind : StoreKind) : Condition → Writing String
  | equals c v => return c.text ++ " = " ++ (← place kind v)
  | below c v => return c.text ++ " < " ++ (← place kind v)
  | atLeast c v => return c.text ++ " >= " ++ (← place kind v)
  | among c ids => do
    let ids ← place kind (.ids ids)
    match kind with
    | .embedded => return c.text ++ " IN (SELECT value FROM json_each(" ++ ids ++ "))"
    | .server => return c.text ++ " = ANY(" ++ ids ++ ")"
  | labelled m =>
    match kind with
    | .embedded => return " AND ".intercalate (← m.entries.mapM writeLabel)
    | .server => return "labels @> " ++ (← place kind (.map m))

/-- Conditions of which all have to hold. -/
def writeConditions (kind : StoreKind) : List Condition → Writing String
  | [] => return ""
  | cs => return " WHERE " ++ " AND ".intercalate (← cs.mapM (Condition.write kind))

def writeAssignment (kind : StoreKind) (e : Column × Value) : Writing String :=
  return e.1.text ++ " = " ++ (← place kind e.2)

def SortKey.text (k : SortKey) : String :=
  if k.descending then k.column.text ++ " DESC" else k.column.text

def orderText (order : List SortKey) : String :=
  if order.isEmpty then "" else " ORDER BY " ++ ", ".intercalate (order.map SortKey.text)

def Bound.write (kind : StoreKind) : Bound → Writing String
  | all => return ""
  | first => return " LIMIT 1"
  | upTo n => return " LIMIT " ++ (← place kind (.count n))

def returningText (cs : List Column) : String :=
  if cs.isEmpty then "" else " RETURNING " ++ columnList cs

def Selection.write (kind : StoreKind) (s : Selection) : Writing String := do
  let conditions ← writeConditions kind s.conditions
  let bound ← s.bound.write kind
  return "SELECT " ++ (if s.columns.isEmpty then "1" else columnList s.columns) ++ " FROM "
    ++ s.table.name ++ conditions ++ orderText s.order ++ bound
    ++ if s.locking then " FOR UPDATE" else ""

namespace Statement

def write (kind : StoreKind) : Statement → Writing String
  | select s => s.write kind
  | insert t entries returning => do
    let places ← entries.mapM fun e => place kind e.2
    return "INSERT INTO " ++ t.name ++ " (" ++ columnList (entries.map (·.1)) ++ ") VALUES ("
      ++ ", ".intercalate places ++ ")" ++ returningText returning
  | update t entries conditions returning => do
    let assignments ← entries.mapM (writeAssignment kind)
    let conditions ← writeConditions kind conditions
    return "UPDATE " ++ t.name ++ " SET " ++ ", ".intercalate assignments ++ conditions
      ++ returningText returning
  | delete t conditions => return "DELETE FROM " ++ t.name ++ (← writeConditions kind conditions)

def text (kind : StoreKind) (s : Statement) : String :=
  ((s.write kind).run []).1

/-- The values that are bound to the places of a statement, in the order of their numbers. -/
def values (kind : StoreKind) (s : Statement) : List Value :=
  ((s.write kind).run []).2

end Statement

end AuditTrail
