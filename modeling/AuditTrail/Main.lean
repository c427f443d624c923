import AuditTrail.CommandLine.Process
import AuditTrail.Embedded.Archive
import Std.Time.DateTime.Timestamp
/-!
The program: gathers the environment, the time and the database file, runs the command and prints
the report.
-/
namespace AuditTrail

def variableNames : List String := [
  "AUDITUM_STORE", "AUDITUM_SQLITE_PATH", "AUDITUM_DATABASE_URL", "AUDITUM_LOG_LEVEL",
  "AUDITUM_LOG_QUERIES", "AUDITUM_PG_HOST", "AUDITUM_PG_PORT", "AUDITUM_PG_DBNAME",
  "AUDITUM_PG_USER", "AUDITUM_PG_PASSWORD", "AUDITUM_PG_SSLMODE", "AUDITUM_PG_MAX_CONNECTIONS"]

def readEnvironment : IO Environment := do
  let values ← variableNames.mapM fun name => return (name, ← IO.getEnv name)
  return values.filterMap fun (name, value) => value.map fun v => (name, v)

def birthNow : IO Birth := do
  let now ← Std.Time.Timestamp.now
  let nanos := now.toNanosecondsSinceUnixEpoch.val
  let noise ← IO.getRandomBytes 10
  let time : Instant := ⟨nanos / 1000000000, (nanos % 1000000000).toNat⟩
  return Birth.at time (Positional.value 256 (noise.toList.map UInt8.toNat))

/-- The database in a file, which is made if it is not there; none if it cannot be. -/
def readDatabase (path : String) : IO (Option (Option Embedded.Database)) := do
  try
    let _ ← IO.FS.Handle.mk path .append
    let text ← IO.FS.readFile path
    return some (Embedded.Database.ofArchive? text)
  catch _ => return none

def runEmbedded (p : CommandLine.Plan) (birth : Birth) : IO CommandLine.Report := do
  let path := p.config.embedded.path
  if path = memoryPath then
    return (p.runEmbedded birth true (some Embedded.Database.empty)).1
  match ← readDatabase path with
  | none => return (p.runEmbedded birth false none).1
  | some file =>
    match p.runEmbedded birth true file with
    | (report, some db) =>
      IO.FS.writeFile path db.archive
      return report
    | (report, none) => return report

/-- Runs the program. It has no way to a server. -/
def runProgram (args : List String) : IO CommandLine.Report := do
  let env ← readEnvironment
  match CommandLine.plan env args with
  | .error report => return report
  | .ok p =>
    let birth ← birthNow
    match p.config.kind with
    | .embedded => runEmbedded p birth
    | .server => return p.runServer birth Server.Peer.absent ()

end AuditTrail

def main (args : List String) : IO UInt32 := do
  let report ← AuditTrail.runProgram args
  IO.print report.output
  IO.eprint report.errors
  return report.exitCode.toUInt32
