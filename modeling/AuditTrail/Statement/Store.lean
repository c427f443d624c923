import AuditTrail.Page
import AuditTrail.Statement.Syntax
/-!
The statements of an audit store. Both kinds of store send the same statements; only their text
differs.
-/
namespace AuditTrail

def Condition.project (id : Id) : Condition := .equals .id (.id id)

def Condition.ofProject (id : Id) : Condition := .equals .projectId (.id id)

namespace Selection

def plain (columns : List Column) (table : Table) (conditions : List Condition) : Selection :=
  ⟨columns, table, conditions, [], .all, false⟩

def project (id : Id) : Selection :=
  plain Column.ofProject .projects [.project id]

def projectPresence (id : Id) : Selection :=
  plain [] .projects [.project id]

/-- The number of a project's partitions, held until the transaction ends. -/
def partitionNumber (id : Id) : Selection :=
  { plain [.partitionNumber] .projects [.project id] with locking := true }

/-- A page of projects, by descending identifier. -/
def projects (limit : Nat) (cursor : ProjectCursor) : Selection where
  columns := Column.ofProject
  table := .projects
  conditions := match cursor.lastId with
    | some id => [.below .id (.id id)]
    | none => []
  order := [⟨.id, true⟩]
  bound := .upTo limit
  locking := false

/-- A record without its changes. -/
def record (project id : Id) : Selection :=
  plain Column.ofRecord .records [.ofProject project, .equals .id (.id id)]

/-- The changes of records, by record and in their order. -/
def changes (project : Id) (records : List Id) : Selection where
  columns := Column.ofChange
  table := .changes
  conditions := [.ofProject project, .among .recordId records]
  order := [⟨.recordId, false⟩, ⟨.position, false⟩]
  bound := .all
  locking := false

def optional {α : Type} (condition : α → Condition) : Option α → List Condition
  | some a => [condition a]
  | none => []

def matching (column : Column) (s : Option String) : List Condition :=
  optional (fun s => .equals column (.text s)) (s.filter (· ≠ ""))

def filtering (f : RecordFilter) : List Condition :=
  (if f.labels.entries.isEmpty then [] else [.labelled f.labels])
    ++ matching .resourceKind f.resourceKind
    ++ matching .resourceId f.resourceId
    ++ matching .operationKind f.operationKind
    ++ matching .operationId f.operationId
    ++ matching .actorKind f.actorKind
    ++ matching .actorId f.actorId
    ++ optional (fun t => .atLeast .operationTime (.instant t)) f.timeFrom
    ++ optional (fun t => .below .operationTime (.instant t)) f.timeTo

/-- What a sort key asks of the records that come after it: both parts have to be smaller. -/
def after : Option (Instant × Id) → List Condition
  | some (t, id) => [.below .operationTime (.instant t), .below .id (.id id)]
  | none => []

/-- A page of a project's records, by descending operation time and identifier. -/
def records (project : Id) (filter : RecordFilter) (limit : Nat) (key : Option (Instant × Id)) :
    Selection where
  columns := Column.ofRecord
  table := .records
  conditions := .ofProject project :: filtering filter ++ after key
  order := [⟨.operationTime, true⟩, ⟨.id, true⟩]
  bound := .upTo limit
  locking := false

end Selection

/-- The fields of a resource except its changes. -/
def Resource.entries (r : Resource) : List (Column × Value) :=
  [(.resourceKind, .text r.kind), (.resourceId, .text r.id), (.resourceMetadata, .map r.metadata)]

def Operation.entries (o : Operation) : List (Column × Value) :=
  [(.operationKind, .text o.kind), (.operationId, .text o.id),
    (.operationTime, .instant o.time), (.operationMetadata, .map o.metadata),
    (.traceParent, .ofText? o.trace.parent), (.traceState, .ofText? o.trace.state),
    (.operationStatus, .integer o.status.code)]

def Actor.entries (a : Actor) : List (Column × Value) :=
  [(.actorKind, .text a.kind), (.actorId, .text a.id), (.actorMetadata, .map a.metadata)]

/-- The fields of a record that is created in a batch of a project at a time. -/
def Record.entries (r : Record) (project : Id) (createTime : Instant) : List (Column × Value) :=
  [(.id, .id r.id), (.projectId, .id project), (.createTime, .instant createTime),
      (.labels, .map r.labels)]
    ++ r.resource.entries ++ r.operation.entries ++ r.actor.entries

def Change.entries (c : Change) : List (Column × Value) :=
  [(.name, .text c.name), (.description, .ofText? c.description), (.oldValue, .ofBytes? c.oldValue),
    (.newValue, .ofBytes? c.newValue)]

def Project.entries (p : Project) : List (Column × Value) :=
  [(.id, .id p.id), (.createTime, .instant p.createTime), (.displayName, .text p.displayName),
    (.updateRecords, .flag p.updateRecords), (.deleteRecords, .flag p.deleteRecords)]

def entryIf {α : Type} (column : Column) (value : α → Value) : Option α → List (Column × Value)
  | some a => [(column, value a)]
  | none => []

def ProjectUpdate.entries (u : ProjectUpdate) : List (Column × Value) :=
  entryIf .displayName .text u.displayName
    ++ entryIf .updateRecords .flag u.updateRecords
    ++ entryIf .deleteRecords .flag u.deleteRecords

def RecordUpdate.entries (u : RecordUpdate) : List (Column × Value) :=
  entryIf .labels .map u.labels
    ++ ((u.resource.map Resource.entries).getD [])
    ++ ((u.operation.map Operation.entries).getD [])
    ++ ((u.actor.map Actor.entries).getD [])

namespace Statement

/-- Creates a project, and answers with columns of it. -/
def insertProject (p : Project) (returning : List Column) : Statement :=
  .insert .projects p.entries returning

/-- Changes fields of a project, and answers with the project. -/
def updateProject (id : Id) (u : ProjectUpdate) : Statement :=
  .update .projects u.entries [.project id] Column.ofProject

def deleteProject (id : Id) : Statement :=
  .delete .projects [.project id]

def insertRecord (project : Id) (createTime : Instant) (r : Record) : Statement :=
  .insert .records (r.entries project createTime) []

def updateRecord (project id : Id) (u : RecordUpdate) : Statement :=
  .update .records u.entries [.ofProject project, .equals .id (.id id)] []

def deleteRecord (project id : Id) : Statement :=
  .delete .records [.ofProject project, .equals .id (.id id)]

def deleteRecords (project : Id) : Statement :=
  .delete .records [.ofProject project]

def insertChange (project record : Id) (position : Nat) (c : Change) : Statement :=
  .insert .changes
    ([(.recordId, .id record), (.projectId, .id project), (.position, .integer position)]
      ++ c.entries) []

def deleteChanges (project record : Id) : Statement :=
  .delete .changes [.ofProject project, .equals .recordId (.id record)]

def deleteProjectChanges (project : Id) : Statement :=
  .delete .changes [.ofProject project]

end Statement

end AuditTrail
