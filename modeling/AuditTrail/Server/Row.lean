import AuditTrail.Project
import AuditTrail.Record
import AuditTrail.Server.Datum
/-!
Rows of a database server, and how projects, records and changes are read from them. A fault tells
the column by its name and by its place in the row.
-/
namespace AuditTrail.Server

/-- A row: its columns and their values. -/
abbrev Row := List (Column × Datum)

/-- The value of a column, if the row has such a column. -/
def Row.get? : Row → Column → Option Datum
  | [], _ => none
  | e :: r, c => if e.1 = c then some e.2 else Row.get? r c

/-- The value of a column, which is missing where it was left out. -/
def Row.get (row : Row) (c : Column) : Datum := (row.get? c).getD .null

/-- A row with nothing but some columns. -/
def Row.only (columns : List Column) (row : Row) : Row :=
  columns.map fun c => (c, row.get c)

/-- Why a column cannot be read. -/
inductive ColumnFault where
  | absent (column : Column)
  | undecodable (column : Column) (index : Nat)
  | unknownStatus (n : Int)
deriving DecidableEq

namespace ColumnFault

/-- The wording for a column that there is not, by its name or its place. -/
def missing (column : String) : String :=
  "invalid column `" ++ column ++ "`"

/-- The wording for a value that does not fit, by the place of its column. -/
def misfit (index : Nat) : String :=
  "error deserializing column " ++ toString index

def message : ColumnFault → String
  | absent c => "Failed to read column " ++ c.text ++ ": " ++ missing c.text
  | undecodable c index => "Failed to read column " ++ c.text ++ ": " ++ misfit index
  | unknownStatus n =>
    "Failed to read column " ++ Column.operationStatus.text ++ ": unknown status " ++ toString n

end ColumnFault

abbrev Reader (α : Type) := Row → Except ColumnFault α

namespace Reader

def column {α : Type} (fit? : Datum → Option α) (c : Column) : Reader α := fun row =>
  match row.get? c with
  | none => .error (.absent c)
  | some d =>
    match fit? d with
    | some a => .ok a
    | none => .error (.undecodable c (row.findIdx (·.1 = c)))

theorem column_eq_ok {α : Type} {fit? : Datum → Option α} {c : Column} {row : Row} {a : α} :
    column fit? c row = .ok a ↔ (row.get? c).bind fit? = some a := by
  unfold column
  cases row.get? c with
  | none => simp
  | some d => cases found : fit? d <;> simp [found]

def orNull {α : Type} (fit? : Datum → Option α) : Datum → Option (Option α)
  | .null => some none
  | d => (fit? d).map some

def id? : Datum → Option Id
  | .id i => some i
  | _ => none

def instant? : Datum → Option Instant
  | .moment n => instantOf? n
  | _ => none

def text? : Datum → Option String
  | .text s => some s
  | _ => none

def truth? : Datum → Option Bool
  | .flag b => some b
  | _ => none

/-- A whole number; one of another width does not fit. -/
def integer? (w : Width) : Datum → Option Int
  | .integer v n => if v = w ∧ w.Holds n then some n else none
  | _ => none

def map? : Datum → Option TextMap
  | .document m => m
  | _ => none

def bytes? : Datum → Option (List UInt8)
  | .bytes bs => some bs
  | _ => none

/-- A flag; a missing one is open. -/
def flag? (d : Datum) : Option Flag :=
  (orNull truth? d).map Flag.ofOption

/-- The number in the first column, or why there is none. -/
def number (w : Width) : Row → Except String Int
  | [] => .error (ColumnFault.missing "0")
  | e :: _ =>
    match integer? w e.2 with
    | some n => .ok n
    | none => .error (ColumnFault.misfit 0)

def status : Reader Status := fun row => do
  let n ← column (integer? .four) .operationStatus row
  match Status.ofCode? n with
  | some s => .ok s
  | none => .error (.unknownStatus n)

def project : Reader Project := fun row => do
  let i ← column id? .id row
  let createTime ← column instant? .createTime row
  let displayName ← column text? .displayName row
  let updateRecords ← column flag? .updateRecords row
  let deleteRecords ← column flag? .deleteRecords row
  return ⟨i, createTime, displayName, updateRecords, deleteRecords⟩

/-- Reads a record without its changes. The status comes first. -/
def record : Reader Record := fun row => do
  let status ← status row
  let i ← column id? .id row
  let project ← column id? .projectId row
  let createTime ← column instant? .createTime row
  let labels ← column map? .labels row
  let resourceKind ← column text? .resourceKind row
  let resourceId ← column text? .resourceId row
  let resourceMetadata ← column map? .resourceMetadata row
  let operationKind ← column text? .operationKind row
  let operationId ← column text? .operationId row
  let time ← column instant? .operationTime row
  let operationMetadata ← column map? .operationMetadata row
  let parent ← column (orNull text?) .traceParent row
  let state ← column (orNull text?) .traceState row
  let actorKind ← column text? .actorKind row
  let actorId ← column text? .actorId row
  let actorMetadata ← column map? .actorMetadata row
  return {
    id := i
    project := project
    createTime := createTime
    labels := labels
    resource := ⟨resourceKind, resourceId, resourceMetadata, []⟩
    operation := ⟨operationKind, operationId, time, operationMetadata, ⟨parent, state⟩, status⟩
    actor := ⟨actorKind, actorId, actorMetadata⟩ }

def change : Reader (Id × Change) := fun row => do
  let i ← column id? .recordId row
  let name ← column text? .name row
  let description ← column (orNull text?) .description row
  let oldValue ← column (orNull bytes?) .oldValue row
  let newValue ← column (orNull bytes?) .newValue row
  return (i, ⟨name, description, oldValue, newValue⟩)

end Reader

end AuditTrail.Server
