import AuditTrail.Config.Server
import AuditTrail.Server.Dialogue
/-!
The tables of a server store. They are created once, in one transaction, under a lock that keeps
others from doing the same; a version number in the database tells that they are there. Whether
the rows of projects are kept apart is decided when the tables are created.
-/
namespace AuditTrail.Server

def schemaVersion : Int := 1

/-- Waits until nobody else creates tables; the lock ends with the transaction. -/
def lockScript : String := "SELECT pg_advisory_xact_lock(7412093)"

def versionScript : String :=
  "CREATE TABLE IF NOT EXISTS schema_version ( version INTEGER NOT NULL )"

/-- The table of projects, which numbers them. -/
def projectsScript : String :=
  "CREATE TABLE IF NOT EXISTS projects ( "
    ++ "id UUID PRIMARY KEY, "
    ++ "partition_number BIGINT GENERATED ALWAYS AS IDENTITY UNIQUE, "
    ++ "create_time TIMESTAMPTZ NOT NULL, "
    ++ "display_name TEXT NOT NULL, "
    ++ "update_record_enabled BOOLEAN NULL, "
    ++ "delete_record_enabled BOOLEAN NULL )"

/-- The end of the definition of a table that is divided by projects, if it is. -/
def divided (partitioned : Bool) : String :=
  if partitioned then " PARTITION BY LIST (project_id)" else ""

def recordsScript (partitioned : Bool) : String :=
  "CREATE TABLE IF NOT EXISTS records ( "
    ++ "id UUID NOT NULL, "
    ++ "project_id UUID NOT NULL REFERENCES projects (id), "
    ++ "create_time TIMESTAMPTZ NOT NULL, "
    ++ "labels JSONB NOT NULL DEFAULT '\x7b\x7d', "
    ++ "resource_type TEXT NOT NULL, "
    ++ "resource_id TEXT NOT NULL, "
    ++ "resource_metadata JSONB NOT NULL DEFAULT '\x7b\x7d', "
    ++ "operation_type TEXT NOT NULL, "
    ++ "operation_id TEXT NOT NULL, "
    ++ "operation_time TIMESTAMPTZ NOT NULL, "
    ++ "operation_metadata JSONB NOT NULL DEFAULT '\x7b\x7d', "
    ++ "operation_traceparent TEXT NULL, "
    ++ "operation_tracestate TEXT NULL, "
    ++ "operation_status INTEGER NOT NULL DEFAULT 0, "
    ++ "actor_type TEXT NOT NULL, "
    ++ "actor_id TEXT NOT NULL, "
    ++ "actor_metadata JSONB NOT NULL DEFAULT '\x7b\x7d', "
    ++ "PRIMARY KEY (project_id, id) )" ++ divided partitioned

def indexesScript : String :=
  "CREATE INDEX IF NOT EXISTS idx_records_operation_time "
    ++ "ON records (project_id, operation_time DESC, id DESC); "
    ++ "CREATE INDEX IF NOT EXISTS idx_records_labels "
    ++ "ON records USING GIN (labels)"

/-- The table of changes. It does not refer to the table of records, so that a part of that table
can be dropped without a look at the others. -/
def changesScript (partitioned : Bool) : String :=
  "CREATE TABLE IF NOT EXISTS records_resource_changes ( "
    ++ "record_id UUID NOT NULL, "
    ++ "project_id UUID NOT NULL, "
    ++ "position INTEGER NOT NULL, "
    ++ "name TEXT NOT NULL, "
    ++ "description TEXT NULL, "
    ++ "old_value BYTEA NULL, "
    ++ "new_value BYTEA NULL, "
    ++ "PRIMARY KEY (project_id, record_id, position) )" ++ divided partitioned

def versionQuery : Query :=
  .statement (.select ⟨[.version], .version, [], [], .first, false⟩)

def clearVersionQuery : Query :=
  .statement (.delete .version [])

def setVersionQuery (n : Int) : Query :=
  .statement (.insert .version [(.version, .integer n)] [])

open Dialogue Fault

/-- Reads the version; a database without one counts as version 0. The column of the version holds a
number in every row, so one that cannot be read is not met; it is an error like any other here. -/
def readVersion : Dialogue Int := do
  script (migration "Failed to create schema_version table") versionScript
  match ← performOptional (migration "Failed to query schema version") versionQuery with
  | none => return 0
  | some row =>
    demand ((Reader.number .four row).mapError fun why =>
      .migration ("error retrieving column 0: " ++ why))

def createTables (partitioned : Bool) : Dialogue Unit := do
  script (migration "Failed to create projects table") projectsScript
  script (migration "Failed to create records table") (recordsScript partitioned)
  script (migration "Failed to create records indexes") indexesScript
  script (migration "Failed to create records_resource_changes table") (changesScript partitioned)

def setVersion (n : Int) : Dialogue Unit := do
  let _ ← perform (migration "Failed to clear schema_version") clearVersionQuery
  let _ ← perform (migration "Failed to set schema_version") (setVersionQuery n)

/-- Creates the tables of a database that has none, and refuses one with newer tables. -/
def ensureTables (config : ServerConfig) : Dialogue Unit := do
  connect
  transaction (migration "Failed to begin schema transaction")
      (migration "Failed to commit schema") do
    script (migration "Failed to acquire schema lock") lockScript
    let version ← readVersion
    if version = 0 then
      createTables config.tenantPartitioning
      setVersion schemaVersion
    else if schemaVersion < version then
      throw (.migration ("database schema version " ++ toString version
        ++ " is newer than supported version " ++ toString schemaVersion))

/-- Creates the tables if need be; whatever goes wrong is a failed migration. -/
def migrate (config : ServerConfig) : Dialogue Unit :=
  tryCatch (ensureTables config) fun e => throw (.migration e.message)

end AuditTrail.Server
