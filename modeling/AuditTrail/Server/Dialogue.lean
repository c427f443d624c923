import AuditTrail.Error
import AuditTrail.Server.Row
/-!
Conversations with a database server as data. A dialogue says what is asked next, whatever the
server answers; nothing is sent until somebody carries it out. So what a store sends, and in which
order, can be told for every server.
-/
namespace AuditTrail.Server

/-- Why a request was not answered as hoped. -/
inductive Fault where
  | refused
  | closed
  | rowCount
  | unreachable
  | noEncryption
  | noPassword
deriving DecidableEq, Repr

namespace Fault

def message : Fault → String
  | refused => "db error"
  | closed => "connection closed"
  | rowCount => "query returned an unexpected number of rows"
  | unreachable => "error connecting to server"
  | noEncryption => "error performing TLS handshake"
  | noPassword => "invalid configuration"

def internal (doing : String) (f : Fault) : Error :=
  .internal StoreKind.server.name (doing ++ ": " ++ f.message)

def migration (doing : String) (f : Fault) : Error :=
  .migration (doing ++ ": " ++ f.message)

def rolledBack (doing : String) (f : Fault) : Error :=
  .rolledBack (doing ++ ": " ++ f.message)

def connection (f : Fault) : Error :=
  .connectionFailed StoreKind.server.name
    ("Error occurred while creating a new object: " ++ f.message)

end Fault

/-- What a server runs: a statement, or a probe that only shows that the server answers. -/
inductive Query where
  | probe
  | statement (s : Statement)
deriving DecidableEq

/-- What is asked for. A connection is asked for before anything is sent. A script is a text
without values; a query is prepared before it runs. -/
inductive Request where
  | connection
  | begin
  | commit
  | rollback
  | script (text : String)
  | prepare (q : Query)
  | execute (q : Query)
deriving DecidableEq

/-- What a server answers: rows, and how many it has written or removed. -/
structure Reply where
  rows : List Row
  affected : Nat
deriving DecidableEq

def Reply.empty : Reply := ⟨[], 0⟩

/-- A conversation: it is over, or it notes a statement that will be sent, or it asks and goes on
with the answer. -/
inductive Dialogue (α : Type) where
  | done (result : Except Error α)
  | note (s : Statement) (rest : Dialogue α)
  | ask (r : Request) (next : Except Fault Reply → Dialogue α)

namespace Dialogue

variable {α β : Type}

/-- A dialogue followed by what its result calls for; an error ends it. -/
def andThen : Dialogue α → (α → Dialogue β) → Dialogue β
  | done (.ok a), f => f a
  | done (.error e), _ => done (.error e)
  | note s rest, f => note s (rest.andThen f)
  | ask r next, f => ask r fun answer => (next answer).andThen f

def orElse : Dialogue α → (Error → Dialogue α) → Dialogue α
  | done (.ok a), _ => done (.ok a)
  | done (.error e), f => f e
  | note s rest, f => note s (rest.orElse f)
  | ask r next, f => ask r fun answer => (next answer).orElse f

instance : Monad Dialogue where
  pure a := done (.ok a)
  bind := andThen

instance : MonadExceptOf Error Dialogue where
  throw e := done (.error e)
  tryCatch := orElse

@[simp] theorem pure_eq (a : α) : (pure a : Dialogue α) = done (.ok a) := rfl

@[simp] theorem bind_eq (d : Dialogue α) (f : α → Dialogue β) : d >>= f = d.andThen f := rfl

@[simp] theorem throw_eq (e : Error) : (throw e : Dialogue α) = done (.error e) := rfl

theorem andThen_done (d : Dialogue α) : d.andThen (fun a => done (.ok a)) = d := by
  induction d with
  | done r => cases r <;> rfl
  | note s rest ih => simp [andThen, ih]
  | ask r next ih => simp [andThen, ih]

theorem andThen_assoc {γ : Type} (d : Dialogue α) (f : α → Dialogue β) (g : β → Dialogue γ) :
    (d.andThen f).andThen g = d.andThen fun a => (f a).andThen g := by
  induction d with
  | done r => cases r <;> rfl
  | note s rest ih => simp [andThen, ih]
  | ask r next ih => simp [andThen, ih]

def demand (r : Except Error α) : Dialogue α := done r

def mention (s : Statement) : Dialogue Unit := note s (done (.ok ()))

/-- Asks for something; a fault is reported. -/
def request (report : Fault → Error) (r : Request) : Dialogue Reply :=
  ask r fun
    | .ok reply => done (.ok reply)
    | .error f => done (.error (report f))

def connect : Dialogue Unit := do
  let _ ← request Fault.connection .connection

def perform (report : Fault → Error) (q : Query) : Dialogue Reply := do
  let _ ← request report (.prepare q)
  request report (.execute q)

def performOptional (report : Fault → Error) (q : Query) : Dialogue (Option Row) := do
  match (← perform report q).rows with
  | [] => return none
  | [row] => return some row
  | _ => throw (report .rowCount)

def performOne (report : Fault → Error) (q : Query) : Dialogue Row := do
  match ← performOptional report q with
  | some row => return row
  | none => throw (report .rowCount)

def script (report : Fault → Error) (text : String) : Dialogue Unit := do
  let _ ← request report (.script text)

def read (reader : Reader α) (row : Row) : Dialogue α :=
  demand ((reader row).mapError fun f => .internal StoreKind.server.name f.message)

/-- Gives up a transaction: it is rolled back, whatever comes of that. -/
def giveUp (e : Error) : Dialogue α :=
  ask .rollback fun _ => done (.error e)

/-- The end of a transaction, which lasts if its work has succeeded. -/
def close (committing : Fault → Error) : Except Error α → Dialogue α
  | .ok a => do
    let _ ← request committing .commit
    return a
  | .error e => giveUp e

def closing (committing : Fault → Error) : Dialogue α → Dialogue α
  | done r => close committing r
  | note s rest => note s (rest.closing committing)
  | ask r next => ask r fun answer => (next answer).closing committing

def transaction (beginning committing : Fault → Error) (work : Dialogue α) : Dialogue α :=
  ask .begin fun
    | .ok _ => work.closing committing
    | .error f => giveUp (beginning f)

end Dialogue

end AuditTrail.Server
