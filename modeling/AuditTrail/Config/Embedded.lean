import AuditTrail.Json.Codec
/-!
Configuration of the embedded store: where the database is, and how connections to it are kept.
-/
namespace AuditTrail

open Json

/-- How connections to an embedded database are kept. -/
structure EmbeddedConfig where
  maxConnections : Nat
  minConnections : Nat
  connectionTimeoutMs : Nat
  busyTimeoutMs : Nat
  writeAhead : Bool
  foreignKeys : Bool
  logQueries : Bool
deriving DecidableEq, Repr

namespace EmbeddedConfig

def default : EmbeddedConfig := ⟨10, 1, 30000, 5000, true, true, false⟩

def layout : Layout EmbeddedConfig where
  start := default
  fields := [
    .of "max_connections" (unsigned max32) maxConnections
      (fun n c => { c with maxConnections := n }),
    .of "min_connections" (unsigned max32) minConnections
      (fun n c => { c with minConnections := n }),
    .of "connection_timeout_ms" (unsigned max64) connectionTimeoutMs
      (fun n c => { c with connectionTimeoutMs := n }),
    .of "busy_timeout_ms" (unsigned max32) busyTimeoutMs (fun n c => { c with busyTimeoutMs := n }),
    .of "enable_wal" truth writeAhead (fun b c => { c with writeAhead := b }),
    .of "enable_foreign_keys" truth foreignKeys (fun b c => { c with foreignKeys := b }),
    .of "log_queries" truth logQueries (fun b c => { c with logQueries := b })]

def codec : Codec EmbeddedConfig := layout.codec

/-- The configuration on one line, with the names of its members. -/
def summary (c : EmbeddedConfig) : String :=
  "SqliteBackendConfig \x7b max_connections: " ++ toString c.maxConnections
    ++ ", min_connections: " ++ toString c.minConnections
    ++ ", connection_timeout_ms: " ++ toString c.connectionTimeoutMs
    ++ ", busy_timeout_ms: " ++ toString c.busyTimeoutMs
    ++ ", enable_wal: " ++ toString c.writeAhead
    ++ ", enable_foreign_keys: " ++ toString c.foreignKeys
    ++ ", log_queries: " ++ toString c.logQueries ++ " \x7d"

end EmbeddedConfig

def memoryPath : String := ":memory:"

/-- Where an embedded database is, and how connections to it are kept. -/
structure EmbeddedPlace where
  path : String
  backend : EmbeddedConfig
deriving DecidableEq, Repr

namespace EmbeddedPlace

def default : EmbeddedPlace := ⟨memoryPath, EmbeddedConfig.default⟩

def layout : Layout EmbeddedPlace where
  start := default
  fields := [
    .of "database_path" textual path (fun s c => { c with path := s }),
    .of "backend" EmbeddedConfig.codec backend (fun b c => { c with backend := b })]

end EmbeddedPlace

end AuditTrail
