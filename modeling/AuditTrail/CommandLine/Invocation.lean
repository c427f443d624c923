import AuditTrail.CommandLine.Grammar
import AuditTrail.Config.ConnectionString
import AuditTrail.Config.Environment
import AuditTrail.Config.Store
import AuditTrail.Page
import AuditTrail.Id.Spelling
/-!
The commands of the program and how they are written. Options in front of the command choose and
tune the store; a command names what is to be done.
-/
namespace AuditTrail

/-- A page that somebody asks for; size zero leaves the choice to the program. -/
structure PageRequest where
  size : Nat
  token : String
deriving DecidableEq, Repr

/-- What is to be done. -/
inductive Command where
  | migrate
  | createProject (displayName : String) (updateRecords deleteRecords : Flag)
  | getProject (id : Id)
  | listProjects (page : PageRequest)
  | updateProject (id : Id) (u : ProjectUpdate)
  | getRecord (project id : Id)
  | listRecords (project : Id) (filter : RecordFilter) (page : PageRequest)
deriving DecidableEq

/-- The options in front of the command. -/
structure StoreOptions where
  store : StoreKind
  databasePath : String
  databaseUrl : Option String
  logLevel : String
  logQueries : Bool
deriving DecidableEq, Repr

/-- A command line that has been understood. -/
structure Invocation where
  options : StoreOptions
  command : Command
deriving DecidableEq

namespace CommandLine

/-- Everything that a command line may say. What it leaves out keeps its default. -/
structure Draft where
  options : StoreOptions
  displayName : Option String
  project : Option Id
  id : Option Id
  updateRecords : Option Flag
  deleteRecords : Option Flag
  filter : RecordFilter
  page : PageRequest

namespace Draft

def start : Draft where
  options := ⟨.embedded, "auditum.db", none, "info", false⟩
  displayName := none
  project := none
  id := none
  updateRecords := none
  deleteRecords := none
  filter := ⟨TextMap.empty, none, none, none, none, none, none, none, none⟩
  page := ⟨0, ""⟩

def withOptions (f : StoreOptions → StoreOptions) (d : Draft) : Draft :=
  { d with options := f d.options }

def withFilter (f : RecordFilter → RecordFilter) (d : Draft) : Draft :=
  { d with filter := f d.filter }

end Draft

def readId (s : String) : Except UsageError Id :=
  (Id.read s).mapError fun e => .invalid e.message

def readFlag (s : String) : Except UsageError Flag :=
  let s := s.toLower
  if s = "true" then .ok .on
  else if s = "false" then .ok .off
  else if s = "unset" then .ok .unset
  else .error (.invalid ("invalid flag '" ++ s ++ "', expected true, false or unset"))

/-- Reads a label: a key that is not empty, an equals sign and a value. -/
def readLabel (s : String) : Except UsageError (String × String) :=
  match Split.first? '=' s.toList with
  | some (c :: key, value) => .ok (String.ofList (c :: key), String.ofList value)
  | _ => .error (.invalid ("invalid label '" ++ s ++ "', expected key=value"))

def readTime (s : String) : Except UsageError Instant :=
  (Instant.read s).mapError fun f => .invalid ("invalid time '" ++ s ++ "': " ++ f.message)

def readStore (s : String) : Except UsageError StoreKind :=
  (StoreKind.parse s).mapError .invalid

def greatest : Int := 9223372036854775807

def readInteger (s : String) : Except String Int :=
  let (negative, ds) := match s.toList with
    | '-' :: r => (true, r)
    | '+' :: r => (false, r)
    | cs => (false, cs)
  if s.isEmpty then .error "cannot parse integer from empty string"
  else match Positional.natural? ds with
    | none => .error "invalid digit found in string"
    | some n =>
      let n : Int := if negative then -n else n
      if greatest < n then .error "number too large to fit in target type"
      else if n < -greatest - 1 then .error "number too small to fit in target type"
      else .ok n

def readSize (s : String) : Except UsageError Nat :=
  match readInteger s with
  | .error m => .error (.invalid m)
  | .ok n =>
    if 0 ≤ n ∧ n ≤ Json.max32 then .ok n.toNat
    else .error (.invalid (toString n ++ " is not in 0..=" ++ toString Json.max32))

def readSwitch (s : String) : Except UsageError Bool :=
  if s = "true" then .ok true
  else if s = "false" then .ok false
  else .error .notAChoice

def readText (s : String) : Except UsageError String := .ok s

def parameter {α : Type} (name : String) (read : String → Except UsageError α)
    (set : α → Draft → Draft) : Parameter Draft where
  name := name
  usage := .single
  fromEnvironment := none
  set := fun s d => (read s).map (set · d)

/-- An option in front of the command, which a variable may give as well. -/
def storeOption {α : Type} (name envName : String) (read : String → Except UsageError α)
    (set : α → StoreOptions → StoreOptions) : Parameter Draft :=
  { parameter name read fun a => Draft.withOptions (set a) with
    fromEnvironment := some envName }

def filterOption {α : Type} (name : String) (read : String → Except UsageError α)
    (set : α → RecordFilter → RecordFilter) : Parameter Draft :=
  parameter name read fun a => Draft.withFilter (set a)

def storeOptions : List (Parameter Draft) := [
  storeOption "store" "AUDITUM_STORE" readStore (fun k o => { o with store := k }),
  storeOption "sqlite-path" "AUDITUM_SQLITE_PATH" readText
    (fun s o => { o with databasePath := s }),
  storeOption "database-url" "AUDITUM_DATABASE_URL" readText
    (fun s o => { o with databaseUrl := some s }),
  storeOption "log-level" "AUDITUM_LOG_LEVEL" readText (fun s o => { o with logLevel := s }),
  { storeOption "log-queries" "AUDITUM_LOG_QUERIES" readSwitch
      (fun b o => { o with logQueries := b }) with usage := .switch }]

def pageOptions : List (Parameter Draft) := [
  parameter "page-size" readSize (fun n d => { d with page := { d.page with size := n } }),
  parameter "page-token" readText (fun s d => { d with page := { d.page with token := s } })]

def flagOptions : List (Parameter Draft) := [
  parameter "update-record-enabled" readFlag (fun f d => { d with updateRecords := some f }),
  parameter "delete-record-enabled" readFlag (fun f d => { d with deleteRecords := some f })]

def filterOptions : List (Parameter Draft) := [
  { filterOption "label" readLabel
      (fun e f => { f with labels := f.labels.insert e.1 e.2 }) with usage := .many },
  filterOption "resource-type" readText (fun s f => { f with resourceKind := some s }),
  filterOption "resource-id" readText (fun s f => { f with resourceId := some s }),
  filterOption "operation-type" readText (fun s f => { f with operationKind := some s }),
  filterOption "operation-id" readText (fun s f => { f with operationId := some s }),
  filterOption "from" readTime (fun t f => { f with timeFrom := some t }),
  filterOption "to" readTime (fun t f => { f with timeTo := some t }),
  filterOption "actor-type" readText (fun s f => { f with actorKind := some s }),
  filterOption "actor-id" readText (fun s f => { f with actorId := some s })]

def displayNameParameter : Parameter Draft :=
  parameter "display-name" readText fun s d => { d with displayName := some s }

def projectParameter : Parameter Draft :=
  parameter "project" readId fun i d => { d with project := some i }

def idParameter : Parameter Draft :=
  parameter "id" readId fun i d => { d with id := some i }

def projectCommands : List (Grammar Draft) := [
  .command "create" flagOptions [displayNameParameter] [],
  .command "get" [] [projectParameter] [],
  .command "list" pageOptions [] [],
  .command "update" (displayNameParameter :: flagOptions) [projectParameter] []]

def recordCommands : List (Grammar Draft) := [
  .command "get" [] [projectParameter, idParameter] [],
  .command "list" (filterOptions ++ pageOptions) [projectParameter] []]

def grammar : Grammar Draft :=
  .command "auditum" storeOptions [] [
    .command "migrate" [] [] [],
    .command "projects" [] [] projectCommands,
    .command "records" [] [] recordCommands]

def Draft.command? (d : Draft) : List String → Option Command
  | ["migrate"] => some .migrate
  | ["projects", "create"] => d.displayName.map fun s =>
    .createProject s (d.updateRecords.getD .unset) (d.deleteRecords.getD .unset)
  | ["projects", "get"] => d.project.map .getProject
  | ["projects", "list"] => some (.listProjects d.page)
  | ["projects", "update"] => d.project.map fun i =>
    .updateProject i ⟨d.displayName, d.updateRecords, d.deleteRecords⟩
  | ["records", "get"] => d.project.bind fun p => d.id.map fun i => .getRecord p i
  | ["records", "list"] => d.project.map fun p => .listRecords p d.filter d.page
  | _ => none

end CommandLine

namespace Invocation

open CommandLine

def read (env : Environment) (args : List String) : Except UsageError Invocation := do
  let (path, d) ← CommandLine.read grammar env.get? Draft.start args
  match d.command? path with
  | some c => .ok ⟨d.options, c⟩
  | none => .error .missingArgument

/-- What is wrong with a command line apart from the store that it chooses. -/
inductive Problem where
  | emptyLogLevel
  | urlWithoutServer
  | fromAfterTo
deriving DecidableEq, Repr

def Problem.message : Problem → String
  | emptyLogLevel => "Log level cannot be empty"
  | urlWithoutServer => "--database-url only applies to the postgres store"
  | fromAfterTo => "--from cannot be later than --to"

/-- Whether a command asks for times that end before they begin. -/
def isBackwards : Command → Bool
  | .listRecords _ f _ =>
    match f.timeFrom, f.timeTo with
    | some a, some b => b < a
    | _, _ => false
  | _ => false

/-- Everything that is wrong with a command line, in a fixed order. -/
def problems (i : Invocation) : List Problem :=
  (if Blank.isEmpty i.options.logLevel then [.emptyLogLevel] else [])
    ++ (if i.options.store = .embedded ∧ i.options.databaseUrl.isSome then [.urlWithoutServer]
      else [])
    ++ (if isBackwards i.command then [.fromAfterTo] else [])

/-- The settings of the store. Without a connection string those of a server come from the
environment. -/
def storeConfig (env : Environment) (i : Invocation) : Except Error StoreConfig := do
  let server ← match i.options.databaseUrl with
    | some url => ServerConfig.ofConnectionString url
    | none => .ok (ServerConfig.ofEnvironment env)
  return {
    kind := i.options.store
    embedded := ⟨i.options.databasePath,
      { EmbeddedConfig.default with logQueries := i.options.logQueries }⟩
    server := { server with logQueries := i.options.logQueries } }

end Invocation

end AuditTrail
