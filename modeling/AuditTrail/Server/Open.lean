import AuditTrail.Server.Line
import AuditTrail.Server.Store
/-!
Opening a server store, and a server that can never be reached.
-/
namespace AuditTrail.Server

variable {σ : Type}

def obstacle? (config : ServerConfig) : Option Error :=
  if config.database.isEmpty then
    some (.internal StoreKind.server.name
      "Failed to create pool builder: configuration property \"dbname\" not found")
  else none

/-- Opens a line: connects once, so that a server that cannot be used shows at once. -/
def openLine (peer : Peer σ) (config : ServerConfig) (s : σ) : Except Error Unit × Line × σ :=
  match obstacle? config with
  | some e => (.error e, Line.idle config, s)
  | none => (Line.idle config).run peer Dialogue.connect s

/-- Opens a line and creates the tables if need be. A line on which that fails is given up. -/
def openStore (peer : Peer σ) (config : ServerConfig) (s : σ) : Except Error Unit × Line × σ :=
  match openLine peer config s with
  | (.error e, l, s) => (.error e, l, s)
  | (.ok (), l, s) =>
    match l.run peer (migrate config) s with
    | (.error e, l, s) => (.error e, l.abandon, s)
    | (.ok (), l, s) => (.ok (), l, s)

def Peer.absent : Peer Unit where
  reachable := false
  greet s := (.closed, s)
  answer _ s := (.error .closed, s)

end AuditTrail.Server
