import AuditTrail.CommandLine.Run
import AuditTrail.Embedded.Store
import AuditTrail.Server.Open
/-!
Whole runs of the program: from its arguments and its environment to what it prints and the code
with which it ends. A command is only run on a store whose settings are in order, and a run that
fails prints nothing but its errors.
-/
namespace AuditTrail

namespace CommandLine

/-- What a run gives: the code with which it ends and what it prints. -/
structure Report where
  exitCode : Nat
  output : String
  errors : String
deriving DecidableEq, Repr

namespace Report

def success (j : Json) : Report := ⟨0, j.indented ++ "\n", ""⟩

/-- A run that has failed, with a line for each cause. -/
def failure (lines : List String) : Report := ⟨1, "", String.join (lines.map (· ++ "\n"))⟩

def error (message : String) : Report := failure ["Error: " ++ message]

def misconfigured (problems : List String) : Report :=
  failure (problems.map ("Configuration error: " ++ ·))

def usage : String :=
  "Usage: auditum [OPTIONS] <migrate | projects <create | get | list | update> | "
    ++ "records <get | list>>\n"

/-- The report on a command line that is refused. Asking for help is no mistake. -/
def ofUsage : UsageError → Report
  | .helpWanted => ⟨0, usage, ""⟩
  | e => ⟨2, "", "error: " ++ e.message ++ "\n\n" ++ usage⟩

end Report

/-- What a run is going to do: a command and the store on which to run it. -/
structure Plan where
  config : StoreConfig
  command : Command

/-- The plan of a command line, or the report on what is wrong with it. -/
def plan (env : Environment) (args : List String) : Except Report Plan := do
  let i ← (Invocation.read env args).mapError Report.ofUsage
  if !i.problems.isEmpty then
    throw (Report.misconfigured (i.problems.map Invocation.Problem.message))
  let config ← (i.storeConfig env).mapError fun e => Report.error e.message
  if !config.problems.isEmpty then
    throw (Report.misconfigured (config.problems.map ConfigProblem.message))
  return ⟨config, i.command⟩

def notOpened (kind : StoreKind) (e : Error) : Report :=
  .error ("Failed to open " ++ kind.name ++ " store: " ++ e.message)

def reportOf : Except Error Json → Report
  | .ok j => .success j
  | .error e => .error e.message

/-- Runs a plan on an embedded database, and gives the database as it is then. -/
def Plan.runEmbedded (p : Plan) (birth : Birth) (reachable : Bool)
    (file : Option Embedded.Database) : Report × Option Embedded.Database :=
  match Embedded.openStore p.config.embedded reachable file with
  | .error e => (notOpened .embedded e, file)
  | .ok session =>
    let (result, session) := Embedded.Work.run (p.command.run Embedded.store birth) session
    (reportOf result, session.file)

def Plan.runServer {σ : Type} (p : Plan) (birth : Birth) (peer : Server.Peer σ) (s : σ) : Report :=
  match Server.openStore peer p.config.server s with
  | (.error e, _) => notOpened .server e
  | (.ok (), line, s) =>
    reportOf (line.run peer (p.command.run (Server.store p.config.server) birth) s).1

end CommandLine

/-- The databases in a directory, by the names of their files. -/
abbrev Directory := List (String × Embedded.Database)

namespace Directory

open CommandLine

/-- The name of the file in the directory that a path leads to. A path through another directory
leads nowhere. -/
def fileName? (path : String) : Option String :=
  let name := go path.toList
  if name.contains '/' || name = [] || name = ['.'] || name = ['.', '.'] then none
  else some (String.ofList name)
where
  /-- The path without steps that stay where they are. -/
  go : List Char → List Char
    | '.' :: '/' :: r => go r
    | cs => cs

/-- The database in a file. A file that is not there holds the database without tables. -/
def database (dir : Directory) (name : String) : Embedded.Database :=
  (dir.lookup name).getD Embedded.Database.empty

def put (dir : Directory) (name : String) (db : Embedded.Database) : Directory :=
  (name, db) :: dir.filter (·.1 ≠ name)

/-- Runs a plan on an embedded database in the directory. A database in memory begins without
tables and is gone afterwards. -/
def runEmbedded (p : Plan) (birth : Birth) (dir : Directory) : Report × Directory :=
  let path := p.config.embedded.path
  if path = memoryPath then
    ((p.runEmbedded birth true (some Embedded.Database.empty)).1, dir)
  else
    match fileName? path with
    | none => ((p.runEmbedded birth false none).1, dir)
    | some name =>
      match p.runEmbedded birth true (some (dir.database name)) with
      | (report, some db) => (report, dir.put name db)
      | (report, none) => (report, dir)

/-- Runs the program in a directory, where no server can be reached. -/
def run (env : Environment) (birth : Birth) (args : List String) (dir : Directory) :
    Report × Directory :=
  match plan env args with
  | .error report => (report, dir)
  | .ok p =>
    match p.config.kind with
    | .embedded => runEmbedded p birth dir
    | .server => (p.runServer birth Server.Peer.absent (), dir)

end Directory

end AuditTrail
