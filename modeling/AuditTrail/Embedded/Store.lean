import AuditTrail.Contract
import AuditTrail.Embedded.Open
import AuditTrail.Embedded.Schema
import AuditTrail.Statement.Store
/-!
The embedded store: the operations of an audit store as work in a session. Every operation that
writes runs in one transaction, so an operation that fails changes nothing.
-/
namespace AuditTrail.Embedded

namespace Work

def exists? (doing : String) (s : Statement) : Work Bool := do
  return !(← perform doing s).rows.isEmpty

/-- Fails unless a project exists. -/
def requireProject (id : Id) : Work Unit := do
  let s := Statement.select (.projectPresence id)
  note s
  if !(← exists? "Failed to check project" s) then throw (.projectNotFound id)

def readProject (id : Id) : Work Project := do
  let s := Statement.select (.project id)
  note s
  let doing := "Failed to read project"
  match ← readFirst doing Reader.project (← perform doing s) with
  | some p => return p
  | none => throw (.projectNotFound id)

def readChanges (project : Id) (records : List Id) : Work (List (Id × Change)) := do
  if records.isEmpty then return []
  let s := Statement.select (.changes project records)
  note s
  prepare "Failed to prepare query" s
  readAll "Failed to read change row" Reader.change (← step "Failed to read change row" s)

def readRecord (project id : Id) : Work Record := do
  let s := Statement.select (.record project id)
  note s
  let doing := "Failed to read record"
  match ← readFirst doing Reader.record (← perform doing s) with
  | some r =>
    let found ← readChanges project [id]
    return r.withChanges (Record.changesOf found id)
  | none => throw (.recordNotFound project id)

def insertEach (project record : Id) : Nat → List Change → Work Unit
  | _, [] => pure ()
  | n, c :: rest => do
    let _ ← step "Failed to insert resource change" (.insertChange project record n c)
    insertEach project record (n + 1) rest

def insertChanges (project record : Id) (changes : List Change) : Work Unit := do
  match changes with
  | [] => pure ()
  | c :: rest =>
    note (.insertChange project record 0 c)
    keepPrepared "Failed to prepare insert" .changes
    insertEach project record 0 (c :: rest)

def deleteChanges (project record : Id) : Work Unit := do
  let s := Statement.deleteChanges project record
  note s
  let _ ← perform "Failed to delete resource changes" s

def insertRecords (project : Id) (createTime : Instant) : List Record → Work Unit
  | [] => pure ()
  | r :: rest => do
    let _ ← step "Failed to insert record" (.insertRecord project createTime r)
    insertRecords project createTime rest

def insertAllChanges (project : Id) : List Record → Work Unit
  | [] => pure ()
  | r :: rest => do
    insertChanges project r.id r.resource.changes
    insertAllChanges project rest

def deleteAll (doing : String) : List Statement → Work Unit
  | [] => pure ()
  | s :: rest => do
    note s
    let _ ← perform doing s
    deleteAll doing rest

end Work

open Work

def createProject (p : Project) : Work Unit := do
  connect
  transaction .write "Failed to commit project" do
    let s := Statement.insertProject p []
    note s
    let _ ← perform "Failed to insert project" s

def getProject (id : Id) : Work Project := do
  connect
  readProject id

def listProjects (limit : Nat) (cursor : ProjectCursor) : Work (List Project) := do
  connect
  let s := Statement.select (.projects limit cursor)
  note s
  prepare "Failed to prepare query" s
  let doing := "Failed to read project row"
  readAll doing Reader.project (← step doing s)

def updateProject (id : Id) (u : ProjectUpdate) : Work Project := do
  if u.isEmpty then throw .nothingToUpdate
  let s := Statement.updateProject id u
  note s
  connect
  transaction .write "Failed to commit project update" do
    let doing := "Failed to update project"
    match ← readFirst doing Reader.project (← perform doing s) with
    | some p => return p
    | none => throw (.projectNotFound id)

/-- Creates records of one project. All of them get the creation time of the first. -/
def createRecords (records : List Record) : Work Unit := do
  match records with
  | [] => throw .emptyBatch
  | first :: _ =>
    let project := first.project
    if records.any (·.project ≠ project) then throw .mixedBatch
    connect
    transaction .write "Failed to commit records" do
      requireProject project
      note (.insertRecord project first.createTime first)
      keepPrepared "Failed to prepare insert" .records
      insertRecords project first.createTime records
      insertAllChanges project records

def getRecord (project id : Id) : Work Record := do
  connect
  transaction .read "Failed to commit read" do
    requireProject project
    readRecord project id

def listRecords (project : Id) (filter : RecordFilter) (limit : Nat) (cursor : RecordCursor) :
    Work (List Record) := do
  let key ← ExceptT.mk (pure cursor.keyset)
  let s := Statement.select (.records project filter limit key)
  note s
  connect
  transaction .read "Failed to commit read" do
    requireProject project
    prepare "Failed to prepare query" s
    let doing := "Failed to read record row"
    let records ← readAll doing Reader.record (← step doing s)
    let found ← readChanges project (records.map (·.id))
    return Record.attach found records

/-- Changes groups of a record's fields and gives the record as it is then. -/
def updateRecord (project id : Id) (u : RecordUpdate) : Work Record := do
  if u.isEmpty then throw .nothingToUpdate
  connect
  transaction .write "Failed to commit record update" do
    let p ← readProject project
    if !p.allowsUpdate then throw (.disabled project "update record")
    let s := Statement.updateRecord project id u
    note s
    if (← perform "Failed to update record" s).affected = 0 then
      throw (.recordNotFound project id)
    match u.resource with
    | some r =>
      deleteChanges project id
      insertChanges project id r.changes
    | none => pure ()
    readRecord project id

/-- Deletes a record; one that is not there may be deleted as well. -/
def deleteRecord (project id : Id) : Work Unit := do
  connect
  transaction .write "Failed to commit record delete" do
    let p ← readProject project
    if !p.allowsDelete then throw (.disabled project "delete record")
    deleteChanges project id
    deleteAll "Failed to delete record" [.deleteRecord project id]

def dropProject (id : Id) : Work Unit := do
  connect
  transaction .write "Failed to commit project drop" do
    requireProject id
    deleteAll "Failed to drop project"
      [.deleteProjectChanges id, .deleteRecords id, .deleteProject id]

/-- Fails unless the database can be reached. -/
def checkHealth : Work Unit := do
  match (← get).unreachable? with
  | some _ => throw (.unavailable StoreKind.embedded.name)
  | none => pure ()

/-- Creates the tables if need be; whatever goes wrong is a failed migration. -/
def migrate : Work Unit :=
  ExceptT.adapt (fun e => .migration e.message) ensureTables

def listTables : Work (List String) := do
  connect
  match (← get).readable with
  | .ok db => return db.tables.map Table.name
  | .error f => throw (.internal StoreKind.embedded.name f.message)

/-- The embedded store. It offers nothing beyond the contract: projects share their tables. -/
def store : AuditStore Work where
  kind := .embedded
  capabilities := []
  checkHealth := checkHealth
  createProject := createProject
  getProject := getProject
  listProjects := listProjects
  updateProject := updateProject
  dropProject := dropProject
  createRecords := createRecords
  getRecord := getRecord
  listRecords := listRecords
  updateRecord := updateRecord
  deleteRecord := deleteRecord

def openStore (place : EmbeddedPlace) (reachable : Bool) (file : Option Database) :
    Except Error Session := do
  let s ← Session.start place reachable file
  let (result, s) := migrate.run s
  result.map fun _ => s

/-- Opens a store whose pool has yet to be built. -/
def launchStore (place : EmbeddedPlace) (reachable : Bool) (file : Option Database) :
    Except PoolDemand (Except Error Session) := do
  place.poolPlan.build
  return openStore place reachable file

def Session.summary (s : Session) : String :=
  "SqliteBackend \x7b config: " ++ s.place.backend.summary ++ ", is_memory: " ++ toString s.inMemory
    ++ ", .. \x7d"

end AuditTrail.Embedded
