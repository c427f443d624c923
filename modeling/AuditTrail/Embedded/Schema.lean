import AuditTrail.Embedded.Session
/-!
The tables of an embedded store. They are created once; a version number in the database tells that
they are there.
-/
namespace AuditTrail.Embedded

def schemaVersion : Int := 1

namespace Database

def create (t : Table) (db : Database) : Database :=
  if (db.rows? t).isSome then db else db.put t (some [])

def createAll (db : Database) : Database :=
  ((db.create .projects).create .records).create .changes

/-- The version in a database. A version that cannot be read counts as none. -/
def schemaVersion (db : Database) : Int :=
  match db.version with
  | some (row :: _) => ((Reader.int32 [.version] .version row).toOption).getD 0
  | _ => 0

def setVersion (n : Int) (db : Database) : Database :=
  db.put .version (some [[(.version, .integer n)]])

end Database

namespace Work

/-- Changes the tables outside a transaction, so that the change lasts at once. A change that does
nothing needs no right to write. -/
def alter (doing : String) (change : Database → Database) : Work Unit := do
  let failWith (f : Fault) : Work Unit := throw (.migration (doing ++ ": " ++ f.message))
  let s ← get
  match s.readable with
  | .error f => failWith f
  | .ok db =>
    let changed := change db
    if changed = db then set { s with known := some db.tables }
    else match s.writable with
      | .error f => failWith f
      | .ok _ =>
        if s.canCommit then set { s with file := some changed, known := some changed.tables }
        else failWith .locked

/-- Creates the tables of a database that has none, and refuses one with newer tables. -/
def createTables : Work Unit := do
  alter "Failed to create schema_version table" (Database.create .version)
  let version := (((← get).readable.map Database.schemaVersion).toOption).getD 0
  if version = 0 then
    alter "Failed to create schema v1" Database.createAll
    alter "Failed to clear schema_version" fun db => db.put .version (some [])
    alter "Failed to set schema_version" (Database.setVersion schemaVersion)
  else if schemaVersion < version then
    throw (.migration ("database schema version " ++ toString version
      ++ " is newer than supported version " ++ toString schemaVersion))

def ensureTables : Work Unit := do
  connect
  createTables

end Work

end AuditTrail.Embedded
