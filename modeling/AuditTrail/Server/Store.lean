import AuditTrail.Contract
import AuditTrail.Server.Partition
import AuditTrail.Server.Schema
import AuditTrail.Statement.Store
/-!
The server store: the operations of an audit store as dialogues. Every operation that sends more
than one statement does so in one transaction. Statements are noted where the server is about to
see them, before anything can go wrong with them.
-/
namespace AuditTrail.Server

open Dialogue Fault

def perform (doing : String) (s : Statement) : Dialogue Reply := do
  mention s
  Dialogue.perform (internal doing) (.statement s)

/-- Notes a statement and runs it; it may give one row at most. -/
def performOptional (doing : String) (s : Statement) : Dialogue (Option Row) := do
  mention s
  Dialogue.performOptional (internal doing) (.statement s)

def transaction {α : Type} (committing : String) (work : Dialogue α) : Dialogue α :=
  Dialogue.transaction (internal "Failed to begin transaction") (rolledBack committing) work

/-- Fails unless a project exists. -/
def requireProject (id : Id) : Dialogue Unit := do
  match ← performOptional "Failed to check project" (.select (.projectPresence id)) with
  | some _ => return ()
  | none => throw (.projectNotFound id)

def readProject (id : Id) : Dialogue Project := do
  match ← performOptional "Failed to read project" (.select (.project id)) with
  | some row => read Reader.project row
  | none => throw (.projectNotFound id)

/-- Reads the number of a project. -/
def readNumber (row : Row) : Dialogue Int :=
  demand ((Reader.number .eight row).mapError fun why =>
    .internal StoreKind.server.name ("Failed to read partition number: " ++ why))

def readChanges (project : Id) (records : List Id) : Dialogue (List (Id × Change)) := do
  if records.isEmpty then return []
  let reply ← perform "Failed to load resource changes" (.select (.changes project records))
  reply.rows.mapM (read Reader.change)

def readRecord (project id : Id) : Dialogue Record := do
  match ← performOptional "Failed to read record" (.select (.record project id)) with
  | some row =>
    let r ← read Reader.record row
    let found ← readChanges project [id]
    return r.withChanges (Record.changesOf found id)
  | none => throw (.recordNotFound project id)

/-- Runs a statement for each item, with its place. The statement has been prepared. -/
def executeEach {α : Type} (doing : String) (s : Nat → α → Statement) :
    Nat → List α → Dialogue Unit
  | _, [] => return ()
  | n, a :: rest => do
    let _ ← request (internal doing) (.execute (.statement (s n a)))
    executeEach doing s (n + 1) rest

/-- Prepares a statement for the first of some items and runs it for each. -/
def insertEach {α : Type} (doing : String) (s : Nat → α → Statement) :
    List α → Dialogue Unit
  | [] => return ()
  | a :: rest => do
    mention (s 0 a)
    let _ ← request (internal "Failed to prepare insert") (.prepare (.statement (s 0 a)))
    executeEach doing s 0 (a :: rest)

def insertChanges (project record : Id) (changes : List Change) : Dialogue Unit :=
  insertEach "Failed to insert resource change" (Statement.insertChange project record) changes

def deleteChanges (project record : Id) : Dialogue Unit := do
  let _ ← perform "Failed to delete resource changes" (.deleteChanges project record)

def insertAllChanges (project : Id) : List Record → Dialogue Unit
  | [] => return ()
  | r :: rest => do
    insertChanges project r.id r.resource.changes
    insertAllChanges project rest

def scriptEach (doing : String) (text : Partition → String) : List Partition → Dialogue Unit
  | [] => return ()
  | p :: rest => do
    script (internal (doing ++ " " ++ p.name)) (text p)
    scriptEach doing text rest

def deleteEach : List Statement → Dialogue Unit
  | [] => return ()
  | s :: rest => do
    let _ ← perform "Failed to drop project" s
    deleteEach rest

/-- Creates a project, with partitions of its own if the store keeps projects apart. -/
def createProject (config : ServerConfig) (p : Project) : Dialogue Unit := do
  connect
  transaction "Failed to commit project" do
    let s := Statement.insertProject p [.partitionNumber]
    mention s
    let row ← performOne (internal "Failed to insert project") (.statement s)
    let number ← readNumber row
    if config.tenantPartitioning then
      scriptEach "Failed to create partition" (Partition.create · p.id) (partitionsOf number)

def getProject (id : Id) : Dialogue Project := do
  connect
  readProject id

def listProjects (limit : Nat) (cursor : ProjectCursor) : Dialogue (List Project) := do
  connect
  let reply ← perform "Failed to list projects" (.select (.projects limit cursor))
  reply.rows.mapM (read Reader.project)

/-- Changes fields of a project and gives the project as it is then. One statement needs no
transaction of its own. -/
def updateProject (id : Id) (u : ProjectUpdate) : Dialogue Project := do
  if u.isEmpty then throw .nothingToUpdate
  let s := Statement.updateProject id u
  mention s
  connect
  match ← Dialogue.performOptional (internal "Failed to update project") (.statement s) with
  | some row => read Reader.project row
  | none => throw (.projectNotFound id)

/-- Deletes a project with all its records: its partitions if the store keeps projects apart, its
rows otherwise. -/
def dropProject (config : ServerConfig) (id : Id) : Dialogue Unit := do
  connect
  transaction "Failed to commit project drop" do
    match ← performOptional "Failed to read project" (.select (.partitionNumber id)) with
    | none => throw (.projectNotFound id)
    | some row =>
      let number ← readNumber row
      if config.tenantPartitioning then
        scriptEach "Failed to drop partition" Partition.drop (partitionsOf number)
      else deleteEach [.deleteProjectChanges id, .deleteRecords id]
      deleteEach [.deleteProject id]

/-- Creates records of one project. All of them get the creation time of the first. -/
def createRecords (records : List Record) : Dialogue Unit := do
  match records with
  | [] => throw .emptyBatch
  | first :: _ =>
    let project := first.project
    if records.any (·.project ≠ project) then throw .mixedBatch
    connect
    transaction "Failed to commit records" do
      requireProject project
      insertEach "Failed to insert record"
        (fun _ r => Statement.insertRecord project first.createTime r) records
      insertAllChanges project records

def getRecord (project id : Id) : Dialogue Record := do
  connect
  transaction "Failed to commit read" do
    requireProject project
    readRecord project id

def listRecords (project : Id) (filter : RecordFilter) (limit : Nat) (cursor : RecordCursor) :
    Dialogue (List Record) := do
  let key ← demand cursor.keyset
  let s := Statement.select (.records project filter limit key)
  mention s
  connect
  transaction "Failed to commit read" do
    requireProject project
    let reply ← Dialogue.perform (internal "Failed to list records") (.statement s)
    let records ← reply.rows.mapM (read Reader.record)
    let found ← readChanges project (records.map (·.id))
    return Record.attach found records

/-- Changes groups of a record's fields and gives the record as it is then. -/
def updateRecord (project id : Id) (u : RecordUpdate) : Dialogue Record := do
  if u.isEmpty then throw .nothingToUpdate
  connect
  transaction "Failed to commit record update" do
    let p ← readProject project
    if !p.allowsUpdate then throw (.disabled project "update record")
    let reply ← perform "Failed to update record" (.updateRecord project id u)
    if reply.affected = 0 then throw (.recordNotFound project id)
    match u.resource with
    | some r =>
      deleteChanges project id
      insertChanges project id r.changes
    | none => pure ()
    readRecord project id

/-- Deletes a record; one that is not there may be deleted as well. -/
def deleteRecord (project id : Id) : Dialogue Unit := do
  connect
  transaction "Failed to commit record delete" do
    let p ← readProject project
    if !p.allowsDelete then throw (.disabled project "delete record")
    deleteChanges project id
    let _ ← perform "Failed to delete record" (.deleteRecord project id)

/-- Fails unless the server answers. -/
def checkHealth : Dialogue Unit :=
  ask .connection fun
    | .error _ => throw (.unavailable StoreKind.server.name)
    | .ok _ => do
      let _ ← performOne (internal "Health check failed") .probe

/-- What a server store offers: partitions, if it is configured so. -/
def capabilities (config : ServerConfig) : List Capability :=
  if config.tenantPartitioning then [.tenantPartitioning] else []

def store (config : ServerConfig) : AuditStore Dialogue where
  kind := .server
  capabilities := capabilities config
  checkHealth := checkHealth
  createProject := createProject config
  getProject := getProject
  listProjects := listProjects
  updateProject := updateProject
  dropProject := dropProject config
  createRecords := createRecords
  getRecord := getRecord
  listRecords := listRecords
  updateRecord := updateRecord
  deleteRecord := deleteRecord

def summary (config : ServerConfig) : String :=
  "PostgresBackend \x7b config: " ++ config.summary ++ ", .. \x7d"

end AuditTrail.Server
