import AuditTrail.CommandLine.Invocation
import AuditTrail.Contract
import AuditTrail.Document
import AuditTrail.Limits.Check
/-!
Running commands on a store. The answer of a command is a document.
-/
namespace AuditTrail

/-- What a new project is given that nobody writes down: its identifier and the time. -/
structure Birth where
  id : Id
  time : Instant
deriving DecidableEq

/-- A new identifier: it begins with the milliseconds since 1970, so that later ones are greater,
and goes on with noise; two fixed groups of bits tell identifiers of this kind. -/
def Id.timed (millis noise : Nat) : Id :=
  let (high, low) := (noise / 0x4000000000000000 % 0x1000, noise % 0x4000000000000000)
  ofNat (((millis % 0x1000000000000 * 16 + 7) * 0x1000 + high) * 0x10000000000000000
    + 0x8000000000000000 + low)

def Birth.at (time : Instant) (noise : Nat) : Birth :=
  ⟨Id.timed (time.seconds.toNat * 1000 + time.nanos / 1000000) noise, time⟩

namespace Command

variable {m : Type → Type} [Monad m] [MonadExceptOf Error m]

/-- Work that only decides whether to go on. -/
def demand {α : Type} (r : Except Error α) : m α :=
  match r with
  | .ok a => pure a
  | .error e => throw e

def checkName : Option String → m Unit
  | some s => demand (checkDisplayName s)
  | none => pure ()

def run (store : AuditStore m) (birth : Birth) : Command → m Json
  | migrate => do
    store.checkHealth
    return .object [
      ("backend", .string store.kind.name),
      ("capabilities", .array (store.capabilities.map fun c => .string c.name)),
      ("schema", .string "up to date")]
  | createProject displayName updateRecords deleteRecords => do
    demand (checkDisplayName displayName)
    let p : Project := ⟨birth.id, birth.time, displayName, updateRecords, deleteRecords⟩
    store.createProject p
    return Document.project p
  | getProject id => return Document.project (← store.getProject id)
  | listProjects page => do
    let limit := Page.limit page.size
    let cursor ← demand (ProjectCursor.decode page.token)
    let projects ← store.listProjects limit cursor
    return Document.page "projects" (projects.map Document.project)
      (ProjectCursor.nextPage projects limit).encode
  | updateProject id u => do
    checkName u.displayName
    return Document.project (← store.updateProject id u)
  | getRecord project id =>
    return Document.record Document.shownBytes (← store.getRecord project id)
  | listRecords project filter page => do
    let limit := Page.limit page.size
    let cursor ← demand (RecordCursor.decode page.token)
    let records ← store.listRecords project filter limit cursor
    return Document.page "records" (records.map (Document.record Document.shownBytes))
      (RecordCursor.nextPage records limit).encode

end Command

end AuditTrail
