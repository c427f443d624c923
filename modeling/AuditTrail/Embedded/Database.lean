import AuditTrail.Embedded.Row
/-!
The embedded database: its tables, and what a statement does to them. Every statement either fails
and leaves the tables alone, or gives the tables as they are afterwards. Keys are unique; with
references enforced, a record needs its project and a change needs its record, and changes go with
their record. Tables take any number of rows and cells of any length, and a statement binds any number
of values: the sizes that the engine itself refuses are left out here.
-/
namespace AuditTrail.Embedded

/-- The tables, each of which may be missing, and the last number given to a project. -/
structure Database where
  projects : Option (List Row)
  records : Option (List Row)
  changes : Option (List Row)
  version : Option (List Row)
  lastNumber : Nat
deriving DecidableEq

namespace Database

/-- The database without tables. -/
def empty : Database := ⟨none, none, none, none, 0⟩

instance : Inhabited Database := ⟨empty⟩

def rows? (db : Database) : Table → Option (List Row)
  | .projects => db.projects
  | .records => db.records
  | .changes => db.changes
  | .version => db.version

/-- The database with a table replaced; none removes it. -/
def put (db : Database) (t : Table) (rows : Option (List Row)) : Database :=
  match t with
  | .projects => { db with projects := rows }
  | .records => { db with records := rows }
  | .changes => { db with changes := rows }
  | .version => { db with version := rows }

@[simp] theorem rows?_put (db : Database) (t u : Table) (rows : Option (List Row)) :
    (db.put t rows).rows? u = if u = t then rows else db.rows? u := by
  cases t <;> cases u <;> rfl

def tables (db : Database) : List Table :=
  Table.all.filter fun t => (db.rows? t).isSome

def require (db : Database) (t : Table) : Except Fault (List Row) :=
  match db.rows? t with
  | some rows => .ok rows
  | none => .error (.noTable t.name)

end Database

def label? : Json.Units × Json.Source → Option (String × String)
  | (key, .string value) => do
    let k ← Json.textOf? key
    let v ← Json.textOf? value
    some (k, v)
  | _ => none

/-- The labels of a record, as far as they are texts; none if they are no JSON at all. -/
def labels? (row : Row) : Option (List (String × String)) :=
  match row.get .labels with
  | .text s =>
    match Json.Source.read? (Json.unitsOf s) with
    | some (.object members) => some (members.filterMap label?)
    | some _ => some []
    | none => none
  | _ => some []

def holds (row : Row) : Condition → Bool
  | .equals c v => (row.get c).equals v.cell
  | .below c v => (row.get c).below v.cell
  | .atLeast c v =>
    row.get c ≠ .null && v.cell ≠ .null && !(row.get c).before v.cell
  | .among c ids => ids.any fun i => (row.get c).equals (.text i.text)
  | .labelled m =>
    match labels? row with
    | some ls => m.entries.all fun e => ls.contains e
    | none => false

def meets (cs : List Condition) (row : Row) : Bool :=
  cs.all (holds row)

def isLabelled : Condition → Bool
  | .labelled _ => true
  | _ => false

/-- Whether labels have to be looked at that cannot be read. They are looked at last. -/
def isUnreadable (cs : List Condition) (row : Row) : Bool :=
  cs.any isLabelled && (labels? row).isNone && meets (cs.filter (!isLabelled ·)) row

/-- Whether a row comes before another in an order. -/
def precedes : List SortKey → Row → Row → Bool
  | [], _, _ => false
  | k :: ks, a, b =>
    let x := a.get k.column
    let y := b.get k.column
    if x = y then precedes ks a b
    else if k.descending then y.before x
    else x.before y

/-- Rows in an order; rows that the order does not tell apart stay as they are. -/
def arrange (order : List SortKey) (rows : List Row) : List Row :=
  if order.isEmpty then rows else rows.mergeSort fun a b => !precedes order b a

def restrict {α : Type} (bound : Bound) (l : List α) : List α :=
  match bound with
  | .all => l
  | .first => l.take 1
  | .upTo n => l.take n

def choose (cs : List Condition) (row : Row) : Option (Except Fault Row) :=
  if isUnreadable cs row then some (.error .malformedJson)
  else if meets cs row then some (.ok row)
  else none

/-- The chosen rows in order. A row that cannot be judged stands as its fault, which ends the
reading when it is reached. -/
def chosen (s : Selection) (rows : List Row) : List (Except Fault Row) :=
  restrict s.bound ((arrange s.order rows).filterMap (choose s.conditions))

def keyOf : Table → List Column
  | .projects => [.id]
  | .records => [.projectId, .id]
  | .changes => [.projectId, .recordId, .position]
  | .version => []

/-- The table that a table's rows refer to, and how: a column of the row and the column it has to
agree with. -/
def parent? : Table → Option (Table × List (Column × Column))
  | .records => some (.projects, [(.projectId, .id)])
  | .changes => some (.records, [(.projectId, .projectId), (.recordId, .id)])
  | _ => none

def refersTo (link : List (Column × Column)) (child parent : Row) : Bool :=
  link.all fun l => child.get l.1 = parent.get l.2

/-- What a statement gives: the tables afterwards, the rows it answers with, and the number of rows
it has written or removed. -/
structure Outcome where
  database : Database
  rows : List (Except Fault Row)
  affected : Nat

namespace Database

/-- The rows that rows of a table refer to. A table of that kind that is missing is only noticed
when references are enforced. -/
def parents (db : Database) (enforced : Bool) (t : Table) :
    Except Fault (Option (List Row × List (Column × Column))) :=
  match enforced, parent? t with
  | true, some (p, link) =>
    match db.rows? p with
    | some rows => .ok (some (rows, link))
    | none => .error (.noTable ("main." ++ p.name))
  | _, _ => .ok none

/-- The rows that a statement answers with: those it has written, if it is to answer. -/
def answer (returning : List Column) (rows : List Row) : List (Except Fault Row) :=
  if returning.isEmpty then [] else rows.map .ok

/-- Adds a row. Projects are numbered. -/
def insert (db : Database) (enforced : Bool) (t : Table) (entries : List (Column × Value))
    (returning : List Column) : Except Fault Outcome := do
  let rows ← db.require t
  let parents ← db.parents enforced t
  let row := Row.ofEntries entries
  if !(keyOf t).isEmpty && rows.any (Row.agree (keyOf t) row) then
    .error (.notUnique t (keyOf t))
  else if (parents.map fun (ps, link) => ps.any (refersTo link row)) = some false then
    .error .brokenReference
  else if t = .projects then
    let n := db.lastNumber + 1
    let row := row.set .partitionNumber (.integer n)
    .ok ⟨{ db.put t (some (rows ++ [row])) with lastNumber := n }, answer returning [row], 1⟩
  else .ok ⟨db.put t (some (rows ++ [row])), answer returning [row], 1⟩

/-- Changes the rows that meet conditions. No statement of the store changes a key. -/
def update (db : Database) (t : Table) (entries : List (Column × Value))
    (conditions : List Condition) (returning : List Column) : Except Fault Outcome := do
  let rows ← db.require t
  let change (row : Row) : Row := if meets conditions row then row.setAll entries else row
  let hit := rows.filter (meets conditions)
  .ok ⟨db.put t (some (rows.map change)), answer returning (hit.map (Row.setAll · entries)),
    hit.length⟩

def cascade (db : Database) (t : Table) (gone : List Row) : Database :=
  match db.rows? t, parent? t with
  | some rows, some (_, link) =>
    db.put t (some (rows.filter fun r => !gone.any (refersTo link r)))
  | _, _ => db

def isReferred (db : Database) (t : Table) (gone : List Row) : Bool :=
  match db.rows? t, parent? t with
  | some rows, some (_, link) => rows.any fun r => gone.any (refersTo link r)
  | _, _ => false

def delete (db : Database) (enforced : Bool) (t : Table) (conditions : List Condition) :
    Except Fault Outcome := do
  let rows ← db.require t
  let _ ← db.parents enforced t
  let gone := rows.filter (meets conditions)
  let db := db.put t (some (rows.filter (!meets conditions ·)))
  if enforced && t = .projects && db.isReferred .records gone then .error .brokenReference
  else
    .ok ⟨if enforced && t = .records then db.cascade .changes gone else db, [], gone.length⟩

def run (db : Database) (enforced : Bool) : Statement → Except Fault Outcome
  | .select s => (db.require s.table).map fun rows => ⟨db, chosen s rows, 0⟩
  | .insert t entries returning => db.insert enforced t entries returning
  | .update t entries conditions returning => db.update t entries conditions returning
  | .delete t conditions => db.delete enforced t conditions

end Database

end AuditTrail.Embedded
