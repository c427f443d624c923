import AuditTrail.Error
import AuditTrail.Page
/-!
The contract of an audit store, whatever keeps the data: its operations, what clients may ask of it,
and what they get.
-/
namespace AuditTrail

/-- The operations of a store, each of which may fail. -/
structure AuditStore (m : Type → Type) where
  kind : StoreKind
  capabilities : List Capability
  checkHealth : m Unit
  createProject : Project → m Unit
  getProject : Id → m Project
  listProjects : Nat → ProjectCursor → m (List Project)
  updateProject : Id → ProjectUpdate → m Project
  dropProject : Id → m Unit
  createRecords : List Record → m Unit
  getRecord : Id → Id → m Record
  listRecords : Id → RecordFilter → Nat → RecordCursor → m (List Record)
  updateRecord : Id → Id → RecordUpdate → m Record
  deleteRecord : Id → Id → m Unit

/-- What a client asks of a store. -/
inductive Request where
  | createProject (p : Project)
  | getProject (id : Id)
  | listProjects (limit : Nat) (cursor : ProjectCursor)
  | updateProject (id : Id) (u : ProjectUpdate)
  | dropProject (id : Id)
  | createRecords (records : List Record)
  | getRecord (project id : Id)
  | listRecords (project : Id) (filter : RecordFilter) (limit : Nat) (cursor : RecordCursor)
  | updateRecord (project id : Id) (u : RecordUpdate)
  | deleteRecord (project id : Id)
deriving DecidableEq

/-- What a client gets from a store. -/
inductive Answer where
  | done
  | project (p : Project)
  | projects (ps : List Project)
  | record (r : Record)
  | records (rs : List Record)
deriving DecidableEq

def AuditStore.handle {m : Type → Type} [Monad m] (store : AuditStore m) : Request → m Answer
  | .createProject p => do store.createProject p; return .done
  | .getProject id => return .project (← store.getProject id)
  | .listProjects limit cursor => return .projects (← store.listProjects limit cursor)
  | .updateProject id u => return .project (← store.updateProject id u)
  | .dropProject id => do store.dropProject id; return .done
  | .createRecords records => do store.createRecords records; return .done
  | .getRecord project id => return .record (← store.getRecord project id)
  | .listRecords project filter limit cursor =>
    return .records (← store.listRecords project filter limit cursor)
  | .updateRecord project id u => return .record (← store.updateRecord project id u)
  | .deleteRecord project id => do store.deleteRecord project id; return .done

end AuditTrail
