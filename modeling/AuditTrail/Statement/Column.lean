/-!
The tables of an audit store and the columns in them.
-/
namespace AuditTrail

/-- A table. -/
inductive Table where
  | projects
  | records
  | changes
  | version
deriving DecidableEq, Repr, Inhabited

namespace Table

def name : Table → String
  | projects => "projects"
  | records => "records"
  | changes => "records_resource_changes"
  | version => "schema_version"

/-- All tables, in the order of their names. -/
def all : List Table := [projects, records, changes, version]

/-- The tables that hold the rows of all projects side by side, in the order in which they are
divided into parts. -/
def partitioned : List Table := [records, changes]

def ofName? (s : String) : Option Table :=
  all.find? (·.name = s)

end Table

/-- A column. A name that occurs in several tables is one column here. -/
inductive Column where
  | partitionNumber
  | id
  | projectId
  | recordId
  | createTime
  | displayName
  | updateRecords
  | deleteRecords
  | labels
  | resourceKind
  | resourceId
  | resourceMetadata
  | operationKind
  | operationId
  | operationTime
  | operationMetadata
  | traceParent
  | traceState
  | operationStatus
  | actorKind
  | actorId
  | actorMetadata
  | position
  | name
  | description
  | oldValue
  | newValue
  | version
deriving DecidableEq, Repr, Inhabited

namespace Column

def text : Column → String
  | partitionNumber => "partition_number"
  | id => "id"
  | projectId => "project_id"
  | recordId => "record_id"
  | createTime => "create_time"
  | displayName => "display_name"
  | updateRecords => "update_record_enabled"
  | deleteRecords => "delete_record_enabled"
  | labels => "labels"
  | resourceKind => "resource_type"
  | resourceId => "resource_id"
  | resourceMetadata => "resource_metadata"
  | operationKind => "operation_type"
  | operationId => "operation_id"
  | operationTime => "operation_time"
  | operationMetadata => "operation_metadata"
  | traceParent => "operation_traceparent"
  | traceState => "operation_tracestate"
  | operationStatus => "operation_status"
  | actorKind => "actor_type"
  | actorId => "actor_id"
  | actorMetadata => "actor_metadata"
  | position => "position"
  | name => "name"
  | description => "description"
  | oldValue => "old_value"
  | newValue => "new_value"
  | version => "version"

/-- The columns that make up a project, in the order in which they are selected. -/
def ofProject : List Column :=
  [id, createTime, displayName, updateRecords, deleteRecords]

/-- The columns that make up a record without its changes. -/
def ofRecord : List Column :=
  [id, projectId, createTime, labels, resourceKind, resourceId, resourceMetadata,
    operationKind, operationId, operationTime, operationMetadata, traceParent, traceState,
    operationStatus, actorKind, actorId, actorMetadata]

def ofChange : List Column :=
  [recordId, name, description, oldValue, newValue]

end Column

/-- The columns of a table, in the order of its definition. -/
def Table.columns : Table → List Column
  | .projects => .partitionNumber :: Column.ofProject
  | .records => Column.ofRecord
  | .changes =>
    [.recordId, .projectId, .position, .name, .description, .oldValue, .newValue]
  | .version => [.version]

def Table.column? (t : Table) (s : String) : Option Column :=
  t.columns.find? (·.text = s)

end AuditTrail
