import AuditTrail.Proofs.Ledger
import AuditTrail.Server.Line
import AuditTrail.Server.Partition

/-! A database server that keeps the tables of a store, as far as a store makes use of it. Every
statement is refused, and leaves the tables alone, or gives the tables as they are afterwards. A
transaction works on tables of its own, which last once it is committed; when a statement in it is
refused, it answers nothing but its end. -/
namespace AuditTrail.Server

namespace Datum

/-- Whether a value can be sent for a column: there is no character zero in texts, and numbers have
room in their width. -/
def Fits : Datum → Prop
  | text s => PlainText s
  | document (some m) => m.Plain
  | integer w n => w.Holds n
  | _ => True

instance : (d : Datum) → Decidable d.Fits
  | text s => inferInstanceAs (Decidable (PlainText s))
  | document (some m) => inferInstanceAs (Decidable m.Plain)
  | integer w n => inferInstanceAs (Decidable (w.Holds n))
  | null | id _ | ids _ | moment _ | flag _ | document none | bytes _ => .isTrue trivial

def before : Datum → Datum → Bool
  | id i, id j => i < j
  | moment m, moment n => m < n
  | integer v m, integer w n => v = w ∧ m < n
  | _, _ => false

/-- Whether values are equal. Nothing is equal to what is missing. -/
def same : Datum → Datum → Bool
  | null, _ => false
  | a, b => a = b

/-- Whether a document has some entry. -/
def hasEntry (e : String × String) : Datum → Bool
  | document (some m) => m.entries.contains e
  | _ => false

end Datum

/-! Rows that are chosen -/

def holds (row : Row) : Condition → Bool
  | .equals c v => (row.get c).same v.datum
  | .below c v => (row.get c).before v.datum
  | .atLeast c v => v.datum.before (row.get c) || v.datum.same (row.get c)
  | .among c ids => ids.any fun i => (row.get c).same (.id i)
  | .labelled m => m.entries.all fun e => (row.get .labels).hasEntry e

def meets (conditions : List Condition) (row : Row) : Bool :=
  conditions.all (holds row)

/-- Whether a row comes before another in an order. -/
def precedes : List SortKey → Row → Row → Bool
  | [], _, _ => false
  | k :: rest, a, b =>
    let x := a.get k.column
    let y := b.get k.column
    if x = y then precedes rest a b
    else if k.descending then y.before x
    else x.before y

def restrict {α : Type} (l : List α) : Bound → List α
  | .all => l
  | .first => l.take 1
  | .upTo n => l.take n

/-- The rows that are chosen, in order and with the columns that are wanted. -/
def chosen (s : Selection) (rows : List Row) : List Row :=
  (restrict (inOrder (fun a b => precedes s.order a b = true) (rows.filter (meets s.conditions)))
    s.bound).map (Row.only s.columns)

/-- A row of values that are given by their columns. -/
def Row.ofEntries (entries : List (Column × Value)) : Row :=
  entries.map fun e => (e.1, e.2.datum)

/-- A row with values in the place of its own. -/
def Row.setAll (entries : List (Column × Value)) (row : Row) : Row :=
  row.map fun e => (e.1, ((entries.lookup e.1).map Value.datum).getD e.2)

/-- The rows of each table. -/
abbrev Database := Table → List Row

/-- How new projects get numbers. No two projects have the same number, and numbers do not run out. -/
structure Numbering where
  next : Database → Int
  fresh : ∀ db : Database, ∀ row ∈ db .projects, row.get .partitionNumber ≠ .integer .eight (next db)

/-- The number that is greater than all the numbers of some rows. -/
def nextNumber : List Row → Int
  | [] => 1
  | row :: rest =>
    match row.get .partitionNumber with
    | .integer .eight n => max (n + 1) (nextNumber rest)
    | _ => nextNumber rest

theorem lt_nextNumber {rows : List Row} {row : Row} (mem : row ∈ rows) {n : Int}
    (number : row.get .partitionNumber = .integer .eight n) : n < nextNumber rows := by
  induction rows with
  | nil => contradiction
  | cons first rest ih =>
    unfold nextNumber
    rcases List.mem_cons.mp mem with rfl | later
    · simp only [number]
      omega
    · have below := ih later
      split <;> omega

/-- Numbers that go up. -/
def Numbering.ascending : Numbering where
  next db := nextNumber (db .projects)
  fresh := fun _ _ mem number => Int.lt_irrefl _ (lt_nextNumber mem number)

def primaryKey : Table → List Column
  | .projects => [.id]
  | .records => [.projectId, .id]
  | .changes => [.projectId, .recordId, .position]
  | .version => []

/-- Whether rows of a table may not stand beside each other. -/
def clash (t : Table) (a b : Row) : Bool :=
  !(primaryKey t).isEmpty && (primaryKey t).all fun c => a.get c = b.get c

def refersTo (child parent : Row) : Bool := child.get .projectId = parent.get .id

namespace Database

def put (db : Database) (t : Table) (rows : List Row) : Database :=
  fun u => if u = t then rows else db u

/-- The rows that a statement answers with: those that it has written, if it is to answer. -/
def returned (returning : List Column) (rows : List Row) : List Row :=
  if returning.isEmpty then [] else rows.map (Row.only returning)

def newRow (numbering : Numbering) (db : Database) (t : Table) (entries : List (Column × Value)) : Row :=
  if t = .projects then (.partitionNumber, .integer .eight (numbering.next db)) :: Row.ofEntries entries
  else Row.ofEntries entries

/-- Adds a row, which needs a key of its own and, if it is a record, its project. -/
def insert (numbering : Numbering) (db : Database) (t : Table) (entries : List (Column × Value))
    (returning : List Column) : Option (Reply × Database) :=
  let row := newRow numbering db t entries
  if (db t).any (clash t row) then none
  else if t = .records && !(db .projects).any (refersTo row) then none
  else some (⟨returned returning [row], 1⟩, db.put t (db t ++ [row]))

def update (db : Database) (t : Table) (entries : List (Column × Value)) (conditions : List Condition)
    (returning : List Column) : Reply × Database :=
  let hit := (db t).filter (meets conditions)
  (⟨returned returning (hit.map (Row.setAll entries)), hit.length⟩,
    db.put t ((db t).map fun row => if meets conditions row then row.setAll entries else row))

/-- Removes rows. A project stays as long as there are records in it. -/
def delete (db : Database) (t : Table) (conditions : List Condition) : Option (Reply × Database) :=
  let gone := (db t).filter (meets conditions)
  if t = .projects && (db .records).any fun r => gone.any (refersTo r) then none
  else some (⟨[], gone.length⟩, db.put t ((db t).filter fun row => !meets conditions row))

/-- What a statement comes to, if it is not refused. -/
def run (numbering : Numbering) (db : Database) (s : Statement) : Option (Reply × Database) :=
  if ∀ v ∈ s.written.map (·.2) ++ s.conditions.map Condition.value, v.datum.Fits then
    match s with
    | .select s => some (⟨chosen s (db s.table), 0⟩, db)
    | .insert t entries returning => db.insert numbering t entries returning
    | .update t entries conditions returning => some (db.update t entries conditions returning)
    | .delete t conditions => db.delete t conditions
  else none

/-- Whether a script drops the partition of a table that a row belongs to. -/
def dropped (db : Database) (text : String) (t : Table) (row : Row) : Bool :=
  (db .projects).any fun p => refersTo row p && match p.get .partitionNumber with
    | .integer .eight n => text = Partition.drop ⟨t.name, n⟩
    | _ => false

/-- The tables after a script: it drops a partition with its rows, or it does nothing to rows. -/
def script (db : Database) (text : String) : Database := fun t =>
  if t ∈ Table.partitioned then (db t).filter fun row => !db.dropped text t row else db t

def query (numbering : Numbering) (db : Database) : Query → Option (Reply × Database)
  | .probe => some (⟨[[]], 1⟩, db)
  | .statement s => db.run numbering s

end Database

/-- Where a connection stands: between transactions, in one that has tables of its own, or in one that
can only end. -/
inductive Stage where
  | idle
  | working (db : Database)
  | broken

/-- A server: the tables that last, and where the connection to it stands. -/
structure Engine where
  lasting : Database
  stage : Stage

namespace Engine

/-- What a statement or a script comes to where the connection stands. -/
def proceed (f : Database → Option (Reply × Database)) (e : Engine) : Except Fault Reply × Engine :=
  match e.stage with
  | .idle =>
    match f e.lasting with
    | some (reply, db) => (.ok reply, ⟨db, .idle⟩)
    | none => (.error .refused, e)
  | .working db =>
    match f db with
    | some (reply, db) => (.ok reply, ⟨e.lasting, .working db⟩)
    | none => (.error .refused, ⟨e.lasting, .broken⟩)
  | .broken => (.error .refused, e)

/-- The engine after the beginning of a transaction. In a transaction no other begins. -/
def begun (e : Engine) : Engine :=
  match e.stage with
  | .idle => ⟨e.lasting, .working e.lasting⟩
  | _ => e

/-- The engine after a transaction was asked to last. A broken one is rolled back. -/
def committed (e : Engine) : Engine :=
  match e.stage with
  | .working db => ⟨db, .idle⟩
  | _ => ⟨e.lasting, .idle⟩

def answer (numbering : Numbering) : Request → Engine → Except Fault Reply × Engine
  | .connection, e => (.ok .empty, e)
  | .begin, e => (.ok .empty, e.begun)
  | .commit, e => (.ok .empty, e.committed)
  | .rollback, e => (.ok .empty, ⟨e.lasting, .idle⟩)
  | .script text, e => e.proceed fun db => some (.empty, db.script text)
  | .prepare _, e => e.proceed fun db => some (.empty, db)
  | .execute q, e => e.proceed fun db => db.query numbering q

end Engine

/-- A database server at the other end of a line. -/
def Peer.database (numbering : Numbering) : Peer Engine where
  reachable := true
  greet e := (.welcome, e)
  answer := Engine.answer numbering

end AuditTrail.Server
