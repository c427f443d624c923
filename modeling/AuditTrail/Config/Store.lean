import AuditTrail.Config.Embedded
import AuditTrail.Config.Server
import AuditTrail.Error
import AuditTrail.Text.Blank
/-!
Which store to open, and the settings of both kinds.
-/
namespace AuditTrail

open Json

/-- A choice of store with settings for both kinds. -/
structure StoreConfig where
  kind : StoreKind
  embedded : EmbeddedPlace
  server : ServerConfig
deriving DecidableEq, Repr

/-- What is wrong with the settings of a store. -/
inductive ConfigProblem where
  | emptyPath
  | noConnections
  | minAboveMax
  | emptyHost
  | zeroPort
  | emptyDatabase
  | noServerConnections
deriving DecidableEq, Repr

def ConfigProblem.message : ConfigProblem → String
  | emptyPath => "SQLite database path cannot be empty"
  | noConnections => "SQLite max connections cannot be 0"
  | minAboveMax => "SQLite min connections cannot exceed max connections"
  | emptyHost => "PostgreSQL host cannot be empty"
  | zeroPort => "PostgreSQL port cannot be 0"
  | emptyDatabase => "PostgreSQL database name cannot be empty"
  | noServerConnections => "PostgreSQL max connections cannot be 0"

namespace StoreConfig

def default : StoreConfig := ⟨.embedded, EmbeddedPlace.default, ServerConfig.default⟩

def layout : Layout StoreConfig where
  start := default
  fields := [
    .of "kind" (named StoreKind.name StoreKind.all) kind (fun k c => { c with kind := k }),
    .of "sqlite" EmbeddedPlace.layout.codec embedded (fun e c => { c with embedded := e }),
    .of "postgres" ServerConfig.codec server (fun s c => { c with server := s })]

def codec : Codec StoreConfig := layout.codec

def problemIf (p : ConfigProblem) (holds : Bool) : List ConfigProblem :=
  if holds then [p] else []

/-- Everything that is wrong with the settings of the chosen kind, in a fixed order. -/
def problems (c : StoreConfig) : List ConfigProblem :=
  match c.kind with
  | .embedded =>
    let pool := c.embedded.backend
    problemIf .emptyPath (Blank.isEmpty c.embedded.path)
      ++ problemIf .noConnections (pool.maxConnections = 0)
      ++ problemIf .minAboveMax (pool.maxConnections < pool.minConnections)
  | .server =>
    problemIf .emptyHost (Blank.isEmpty c.server.host)
      ++ problemIf .zeroPort (c.server.port = 0)
      ++ problemIf .emptyDatabase (Blank.isEmpty c.server.database)
      ++ problemIf .noServerConnections (c.server.maxConnections = 0)

end StoreConfig

end AuditTrail
