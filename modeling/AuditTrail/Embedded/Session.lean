import AuditTrail.Config.Embedded
import AuditTrail.Embedded.Database
import AuditTrail.Statement.Text
/-!
A session with an embedded database: one connection, what it knows of the tables, and what other
connections hold. Work in a session reads and writes the database through statements; work inside a
transaction either succeeds as a whole or leaves the database as it was. Of the limits of the engine
only the depth of expressions is kept, since filters of a moderate size reach it.
-/
namespace AuditTrail.Embedded

/-- What another connection holds of the database. A reader holds it until it has finished. -/
inductive Hold where
  | free
  | reading
  | writing
  | exclusive
deriving DecidableEq, Repr

/-- The state of a session. `enforced` says whether references between tables are enforced, and
`file` is none if the file holds no database. -/
structure Session where
  place : EmbeddedPlace
  enforced : Bool
  reachable : Bool
  file : Option Database
  hold : Hold
  known : Option (List Table)
  prepared : List Table
  written : Bool
  log : List String
deriving DecidableEq

namespace Session

def inMemory (s : Session) : Bool :=
  s.place.path = memoryPath

/-- Whether changes go to a log of their own, so that readers and a writer do not meet. -/
def writesAhead (s : Session) : Bool :=
  s.place.backend.writeAhead && !s.inMemory

def readable (s : Session) : Except Fault Database :=
  match s.file with
  | none => .error .notADatabase
  | some db => if s.hold = .exclusive && !s.writesAhead then .error .locked else .ok db

def writable (s : Session) : Except Fault Database :=
  match s.file with
  | none => .error .notADatabase
  | some db => if s.hold = .exclusive || s.hold = .writing then .error .locked else .ok db

def canCommit (s : Session) : Bool :=
  s.hold ≠ .reading || s.writesAhead

/-- Why the database cannot be reached, if it cannot. -/
def unreachable? (s : Session) : Option String :=
  if s.reachable then none
  else some ("timed out waiting for connection: unable to open database file: " ++ s.place.path)

def knows (s : Session) (t : Table) : Bool :=
  match s.known with
  | some ts => ts.contains t
  | none => false

/-- Looks up a table in what the connection knows, and in the database if the table is not there. -/
def lookUp (t : Table) (s : Session) : Except Fault Session :=
  if s.knows t then .ok s
  else do
    let db ← s.readable
    if (db.rows? t).isSome then .ok { s with known := some db.tables }
    else .error (.noTable t.name)

def step (statement : Statement) (s : Session) : Except Fault (Outcome × Session) := do
  let db ← s.readable
  let outcome ← db.run s.enforced statement
  .ok (outcome,
    { s with
      file := some outcome.database
      known := some db.tables
      written := s.written || outcome.affected ≠ 0 })

/-- The session after a statement was tried that met the tables as they are. -/
def refresh (s : Session) : Session :=
  match s.readable with
  | .ok db => { s with known := some db.tables }
  | .error _ => s

end Session

abbrev Work := ExceptT Error (StateM Session)

namespace Work

/-- Fails with a fault of the database, told with what was being done. -/
def fail {α : Type} (doing : String) (f : Fault) : Work α :=
  throw (f.error doing)

def note (s : Statement) : Work Unit :=
  modify fun session =>
    if session.place.backend.logQueries then
      { session with log := session.log ++ [s.text .embedded] }
    else session

def connect : Work Unit := do
  match (← get).unreachable? with
  | some cause => throw (.connectionFailed StoreKind.embedded.name cause)
  | none => pure ()

def lookUp (doing : String) (t : Table) : Work Unit := do
  match Session.lookUp t (← get) with
  | .ok session => set session
  | .error f => modify Session.refresh; fail doing f

/-- Fails if an expression is deeper than the engine allows. -/
def checkDepth (doing : String) (depth : Nat) : Work Unit :=
  if depthLimit < depth then fail doing .tooDeep else pure ()

/-- Prepares a statement. Its conditions are joined before its table is looked up; what they choose
from is looked at when the table is known. -/
def prepare (doing : String) (s : Statement) : Work Unit := do
  checkDepth doing s.depth
  lookUp doing s.table
  checkDepth doing s.fullDepth

/-- Prepares an insert into a table, which stays prepared for the life of the connection. An insert
has no conditions. -/
def keepPrepared (doing : String) (t : Table) : Work Unit := do
  if t ∉ (← get).prepared then
    lookUp doing t
    modify fun session => { session with prepared := t :: session.prepared }

def step (doing : String) (s : Statement) : Work Outcome := do
  match Session.step s (← get) with
  | .ok (outcome, session) => set session; return outcome
  | .error f => modify Session.refresh; fail doing f

def perform (doing : String) (s : Statement) : Work Outcome := do
  prepare doing s
  step doing s

def readRow {α : Type} (read : Reader α) (row : Except Fault Row) : Except Fault α :=
  row.bind read

def readAll {α : Type} (doing : String) (read : Reader α) (outcome : Outcome) : Work (List α) :=
  match outcome.rows.mapM (readRow read) with
  | .ok l => pure l
  | .error f => fail doing f

/-- Reads the first row of an answer, if there is one. -/
def readFirst {α : Type} (doing : String) (read : Reader α) (outcome : Outcome) :
    Work (Option α) :=
  match outcome.rows.head?.map (readRow read) with
  | some (.ok a) => pure (some a)
  | some (.error f) => fail doing f
  | none => pure none

/-- How a transaction begins: ready to write, or only to read. -/
inductive Mode where
  | read
  | write
deriving DecidableEq, Repr

def begin? (mode : Mode) (s : Session) : Except Fault Session :=
  match mode with
  | .read => .ok { s with written := false }
  | .write => s.writable.map fun _ => { s with written := false }

/-- The session at the end of a transaction that leaves the database as it was. -/
def rollback (before after : Session) : Session :=
  { after with file := before.file }

/-- Work inside a transaction. If the work fails or its changes cannot be made to last, the
database is as it was before. -/
def transaction {α : Type} (mode : Mode) (committing : String) (work : Work α) : Work α :=
  ExceptT.mk fun before =>
    match begin? mode before with
    | .error f => (.error (f.error "Failed to begin transaction"), before)
    | .ok session =>
      match work.run.run session with
      | (.error e, after) => (.error e, rollback before after)
      | (.ok a, after) =>
        if after.written && !after.canCommit then
          (.error (.rolledBack (committing ++ ": " ++ Fault.locked.message)),
            rollback before after)
        else (.ok a, after)

def run {α : Type} (work : Work α) (s : Session) : Except Error α × Session :=
  ExceptT.run work |>.run s

end Work

end AuditTrail.Embedded
