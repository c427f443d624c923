import AuditTrail.Json.Codec
import AuditTrail.Text.Quoted
/-!
Configuration of the server store: where the database server is, who connects, and what every
session is told.
-/
namespace AuditTrail

open Json

/-- Whether connections to a server are encrypted. -/
inductive SslMode where
  | disable
  | prefer
  | require
deriving DecidableEq, Repr, Inhabited

namespace SslMode

def name : SslMode → String
  | disable => "disable"
  | prefer => "prefer"
  | require => "require"

def title : SslMode → String
  | disable => "Disable"
  | prefer => "Prefer"
  | require => "Require"

def all : List SslMode := [disable, prefer, require]

def parse (s : String) : Except String SslMode :=
  match all.find? (·.name = s.toLower) with
  | some m => .ok m
  | none => .error ("unknown sslmode: " ++ s.toLower)

end SslMode

/-- How to reach a database server. -/
structure ServerConfig where
  host : String
  port : Nat
  database : String
  user : String
  password : Option String
  sslMode : SslMode
  maxConnections : Nat
  connectTimeoutSecs : Nat
  statementTimeoutMs : Nat
  tenantPartitioning : Bool
  logQueries : Bool
deriving DecidableEq, Repr

namespace ServerConfig

def default : ServerConfig :=
  ⟨"localhost", 5432, "auditum", "auditum", none, .prefer, 10, 5, 30000, true, false⟩

def layout : Layout ServerConfig where
  start := default
  fields := [
    .of "host" textual host (fun s c => { c with host := s }),
    .of "port" (unsigned max16) port (fun n c => { c with port := n }),
    .of "dbname" textual database (fun s c => { c with database := s }),
    .of "user" textual user (fun s c => { c with user := s }),
    .of "password" textual.optional password (fun s c => { c with password := s }),
    .of "ssl_mode" (named SslMode.name SslMode.all) sslMode (fun m c => { c with sslMode := m }),
    .of "max_connections" (unsigned max64) maxConnections
      (fun n c => { c with maxConnections := n }),
    .of "connect_timeout_secs" (unsigned max64) connectTimeoutSecs
      (fun n c => { c with connectTimeoutSecs := n }),
    .of "statement_timeout_ms" (unsigned max64) statementTimeoutMs
      (fun n c => { c with statementTimeoutMs := n }),
    .of "tenant_partitioning" truth tenantPartitioning
      (fun b c => { c with tenantPartitioning := b }),
    .of "log_queries" truth logQueries (fun b c => { c with logQueries := b })]

def codec : Codec ServerConfig := layout.codec

def sessionOptions (c : ServerConfig) : String :=
  "-c statement_timeout=" ++ toString c.statementTimeoutMs

/-- The configuration on one line, with the names of its members. -/
def summary (c : ServerConfig) : String :=
  let password := match c.password with
    | some p => "Some(" ++ Quoted.quote p ++ ")"
    | none => "None"
  "PostgresConfig \x7b host: " ++ Quoted.quote c.host
    ++ ", port: " ++ toString c.port
    ++ ", dbname: " ++ Quoted.quote c.database
    ++ ", user: " ++ Quoted.quote c.user
    ++ ", password: " ++ password
    ++ ", ssl_mode: " ++ c.sslMode.title
    ++ ", max_connections: " ++ toString c.maxConnections
    ++ ", connect_timeout_secs: " ++ toString c.connectTimeoutSecs
    ++ ", statement_timeout_ms: " ++ toString c.statementTimeoutMs
    ++ ", tenant_partitioning: " ++ toString c.tenantPartitioning
    ++ ", log_queries: " ++ toString c.logQueries ++ " \x7d"

end ServerConfig

end AuditTrail
