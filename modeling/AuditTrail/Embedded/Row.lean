import AuditTrail.Embedded.Fault
import AuditTrail.Id.Spelling
import AuditTrail.Json.TextMapFault
import AuditTrail.Project
import AuditTrail.Record
/-!
Rows of the embedded database, and how projects, records and changes are read from them. A column is
read by its place in the list of selected columns, which is what a fault speaks of.
-/
namespace AuditTrail.Embedded

/-- A row: its columns and their cells. -/
abbrev Row := List (Column × Cell)

namespace Row

/-- The cell of a column; a column that a row does not have holds nothing. -/
def get : Row → Column → Cell
  | [], _ => .null
  | e :: r, c => if e.1 = c then e.2 else get r c

def set (c : Column) (v : Cell) : Row → Row
  | [] => [(c, v)]
  | e :: r => if e.1 = c then (c, v) :: r else e :: set c v r

theorem get_set (row : Row) (c d : Column) (v : Cell) :
    (row.set c v).get d = if d = c then v else row.get d := by
  induction row with
  | nil => by_cases h : c = d <;> simp [set, get, h, eq_comm]
  | cons e r ih =>
    by_cases hc : e.1 = c
    · by_cases h : c = d <;> simp [set, get, hc, h, eq_comm]
    · by_cases he : e.1 = d
      · simp [set, get, he, show ¬d = c from fun h => hc (he.trans h)]
      · simp [set, get, hc, he, ih]

def setAll (row : Row) (entries : List (Column × Value)) : Row :=
  entries.foldl (fun r e => r.set e.1 e.2.cell) row

def ofEntries (entries : List (Column × Value)) : Row :=
  entries.map fun e => (e.1, e.2.cell)

def agree (key : List Column) (a b : Row) : Bool :=
  key.all fun c => a.get c = b.get c

end Row

abbrev Reader (α : Type) := Row → Except Fault α

namespace Reader

def index (selected : List Column) (c : Column) : Nat :=
  selected.idxOf c

def wrongType (selected : List Column) (c : Column) (cell : Cell) : Fault :=
  .columnType cell.typeName (index selected c) c

def text (selected : List Column) (c : Column) : Reader String := fun row =>
  match row.get c with
  | .text s => .ok s
  | cell => .error (wrongType selected c cell)

def text? (selected : List Column) (c : Column) : Reader (Option String) := fun row =>
  match row.get c with
  | .null => .ok none
  | .text s => .ok (some s)
  | cell => .error (wrongType selected c cell)

def bytes? (selected : List Column) (c : Column) : Reader (Option (List UInt8)) := fun row =>
  match row.get c with
  | .null => .ok none
  | .blob bs => .ok (some bs)
  | cell => .error (wrongType selected c cell)

/-- Reads a flag; any number but zero is on. -/
def flag (selected : List Column) (c : Column) : Reader Flag := fun row =>
  match row.get c with
  | .null => .ok .unset
  | .integer n => .ok (if n = 0 then .off else .on)
  | cell => .error (wrongType selected c cell)

def fits32 (n : Int) : Bool :=
  -2147483648 ≤ n && n ≤ 2147483647

def int32 (selected : List Column) (c : Column) : Reader Int := fun row =>
  match row.get c with
  | .integer n => if fits32 n then .ok n else .error (.outOfRange n (index selected c))
  | cell => .error (wrongType selected c cell)

def status (selected : List Column) (c : Column) : Reader Status := fun row => do
  let n ← int32 selected c row
  match Status.ofCode? n with
  | some s => .ok s
  | none => .error (.outOfRange n (index selected c))

def id (selected : List Column) (c : Column) : Reader Id := fun row => do
  let s ← text selected c row
  match Id.read s with
  | .ok i => .ok i
  | .error e => .error (.conversion (index selected c) e.message)

def instant (selected : List Column) (c : Column) : Reader Instant := fun row => do
  let s ← text selected c row
  match Instant.read s with
  | .ok t => .ok t
  | .error f => .error (.conversion (index selected c) f.message)

def map (selected : List Column) (c : Column) : Reader TextMap := fun row => do
  let s ← text selected c row
  match Json.textMapOf? s with
  | some m => .ok m
  | none => .error (.conversion (index selected c) (Json.textMapFault s))

def project : Reader Project := fun row => do
  let cs := Column.ofProject
  let i ← id cs .id row
  let createTime ← instant cs .createTime row
  let displayName ← text cs .displayName row
  let updateRecords ← flag cs .updateRecords row
  let deleteRecords ← flag cs .deleteRecords row
  return ⟨i, createTime, displayName, updateRecords, deleteRecords⟩

/-- Reads a record without its changes. The status comes first. -/
def record : Reader Record := fun row => do
  let cs := Column.ofRecord
  let status ← status cs .operationStatus row
  let i ← id cs .id row
  let project ← id cs .projectId row
  let createTime ← instant cs .createTime row
  let labels ← map cs .labels row
  let resourceKind ← text cs .resourceKind row
  let resourceId ← text cs .resourceId row
  let resourceMetadata ← map cs .resourceMetadata row
  let operationKind ← text cs .operationKind row
  let operationId ← text cs .operationId row
  let time ← instant cs .operationTime row
  let operationMetadata ← map cs .operationMetadata row
  let parent ← text? cs .traceParent row
  let state ← text? cs .traceState row
  let actorKind ← text cs .actorKind row
  let actorId ← text cs .actorId row
  let actorMetadata ← map cs .actorMetadata row
  return {
    id := i
    project := project
    createTime := createTime
    labels := labels
    resource := ⟨resourceKind, resourceId, resourceMetadata, []⟩
    operation := ⟨operationKind, operationId, time, operationMetadata, ⟨parent, state⟩, status⟩
    actor := ⟨actorKind, actorId, actorMetadata⟩ }

def change : Reader (Id × Change) := fun row => do
  let cs := Column.ofChange
  let i ← id cs .recordId row
  let name ← text cs .name row
  let description ← text? cs .description row
  let oldValue ← bytes? cs .oldValue row
  let newValue ← bytes? cs .newValue row
  return (i, ⟨name, description, oldValue, newValue⟩)

end Reader

end AuditTrail.Embedded
