import AuditTrail.Config.Server
import AuditTrail.Text.Positional
/-!
The variables of a process's environment, and the server configuration that they give. A number or
a mode that cannot be read counts as missing.
-/
namespace AuditTrail

abbrev Environment := List (String × String)

def Environment.get? (env : Environment) (name : String) : Option String :=
  env.lookup name

def ServerConfig.ofEnvironment (env : Environment) : ServerConfig :=
  let base := ServerConfig.default
  let number (name : String) (max : Nat) : Option Nat :=
    (env.get? name).bind fun s => Positional.unsigned? max s.toList
  { base with
    host := (env.get? "AUDITUM_PG_HOST").getD base.host
    port := (number "AUDITUM_PG_PORT" Json.max16).getD base.port
    database := (env.get? "AUDITUM_PG_DBNAME").getD base.database
    user := (env.get? "AUDITUM_PG_USER").getD base.user
    password := env.get? "AUDITUM_PG_PASSWORD"
    sslMode :=
      ((env.get? "AUDITUM_PG_SSLMODE").bind fun s => (SslMode.parse s).toOption).getD base.sslMode
    maxConnections := (number "AUDITUM_PG_MAX_CONNECTIONS" Json.max64).getD base.maxConnections }

end AuditTrail
