import AuditTrail.Embedded.Session
/-!
Opening an embedded database, and what may happen to it from outside while it is open.
-/
namespace AuditTrail

/-- How many connections a pool keeps, and how long a client waits for one. -/
structure PoolPlan where
  maxSize : Nat
  minIdle : Nat
  timeoutMs : Nat
deriving DecidableEq, Repr

/-- The pool of an embedded database. Every connection to memory has a database of its own, so there
is exactly one. -/
def EmbeddedPlace.poolPlan (p : EmbeddedPlace) : PoolPlan :=
  if p.path = memoryPath then ⟨1, 1, p.backend.connectionTimeoutMs⟩
  else ⟨p.backend.maxConnections, p.backend.minConnections, p.backend.connectionTimeoutMs⟩

/-- What a pool demands of its plan. A plan that breaks a demand does not fail: it stops the program. -/
inductive PoolDemand where
  | room
  | patience
  | idleWithinRoom
deriving DecidableEq, Repr

namespace PoolDemand

/-- The demands in the order in which a pool comes to them. -/
def all : List PoolDemand := [room, patience, idleWithinRoom]

/-- Whether a plan meets a demand. -/
def holds (p : PoolPlan) : PoolDemand → Bool
  | room => 0 < p.maxSize
  | patience => 0 < p.timeoutMs
  | idleWithinRoom => p.minIdle ≤ p.maxSize

end PoolDemand

/-- Builds a pool, unless the plan breaks a demand. -/
def PoolPlan.build (p : PoolPlan) : Except PoolDemand Unit :=
  match PoolDemand.all.find? fun d => !d.holds p with
  | some broken => .error broken
  | none => .ok ()

namespace Embedded

namespace Session

/-- Whether the engine enforces references on a connection that says nothing about them. -/
def enforcedUnasked : Bool := true

/-- A new connection to a database. The settings can ask for references to be enforced, but cannot
turn off what the engine does unasked. -/
def fresh (place : EmbeddedPlace) (reachable : Bool) (file : Option Database) : Session where
  place := place
  enforced := place.backend.foreignKeys || enforcedUnasked
  reachable := reachable
  file := file
  hold := .free
  known := none
  prepared := []
  written := false
  log := []

/-- Opens a database. A pool that keeps idle connections makes them at once, and the log of changes
needs a connection to be turned on. -/
def start (place : EmbeddedPlace) (reachable : Bool) (file : Option Database) :
    Except Error Session :=
  let s := fresh place reachable file
  match s.unreachable? with
  | some cause =>
    if 0 < place.poolPlan.minIdle || s.writesAhead then
      .error (.connectionFailed StoreKind.embedded.name cause)
    else .ok s
  | none =>
    if s.writesAhead && s.file.isNone then
      .error (Fault.notADatabase.error "Failed to enable WAL mode")
    else .ok s

/-- Opens a database whose pool has yet to be built. -/
def launch (place : EmbeddedPlace) (reachable : Bool) (file : Option Database) :
    Except PoolDemand (Except Error Session) := do
  place.poolPlan.build
  return start place reachable file

def inMemoryOf (config : EmbeddedConfig) : Session :=
  fresh ⟨memoryPath, config⟩ true (some Database.empty)

/-- Closes a session and opens its database again. A database in memory ends with its session. -/
def reopen (s : Session) : Except Error Session :=
  let file := if s.inMemory then some Database.empty else s.file
  (start s.place s.reachable file).map fun new => { new with hold := s.hold }

/-- The session after another connection has taken or released the database. -/
def setHold (h : Hold) (s : Session) : Session :=
  { s with hold := h }

end Session

/-- The digits of a whole number with an optional sign and white space around it. -/
def integerOf? (s : String) : Option Int :=
  match Split.trimBoth (fun c => c = ' ' || c = '\t' || c = '\n') s.toList with
  | '-' :: r => (Positional.natural? r).map fun n => -(n : Int)
  | '+' :: r => (Positional.natural? r).map fun n => (n : Int)
  | cs => (Positional.natural? cs).map fun n => (n : Int)

/-- How a column likes to keep what it is given. -/
inductive Affinity where
  | text
  | integer
  | bytes
deriving DecidableEq, Repr

def affinity : Column → Affinity
  | .partitionNumber | .updateRecords | .deleteRecords | .operationStatus | .position
  | .version => .integer
  | .oldValue | .newValue => .bytes
  | _ => .text

/-- A cell as a column keeps it: numbers become digits in a column of texts, and digits become
numbers in a column of numbers. -/
def Affinity.keep (a : Affinity) (cell : Cell) : Cell :=
  match a, cell with
  | .text, .integer n => .text (toString n)
  | .integer, .text s => match integerOf? s with
    | some n => .integer n
    | none => .text s
  | _, cell => cell

namespace Database

/-- Sets a column in all rows of a table, and tells their number. -/
def setColumn (t : Table) (c : Column) (cell : Cell) (db : Database) : Nat × Database :=
  match db.rows? t with
  | some rows =>
    (rows.length, db.put t (some (rows.map (Row.set c ((affinity c).keep cell)))))
  | none => (0, db)

def dropTable (t : Table) (db : Database) : Database :=
  db.put t none

end Database

def Session.edit (f : Database → Database) (s : Session) : Session :=
  { s with file := s.file.map f }

end Embedded

end AuditTrail
