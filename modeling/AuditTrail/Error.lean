import AuditTrail.Id
import AuditTrail.Text.Quoted
/-!
What can go wrong in a store, and how it is worded.
-/
namespace AuditTrail

/-- The two kinds of store: embedded in a file or memory, and behind a database server. -/
inductive StoreKind where
  | embedded
  | server
deriving DecidableEq, Repr, Inhabited

namespace StoreKind

def name : StoreKind → String
  | embedded => "sqlite"
  | server => "postgres"

def all : List StoreKind := [embedded, server]

/-- Reads a name in any letter case; the server kind has two names. -/
def parse (s : String) : Except String StoreKind :=
  let s := s.toLower
  if s = "sqlite" then .ok embedded
  else if s = "postgres" ∨ s = "postgresql" then .ok server
  else .error ("unknown store '" ++ s ++ "', expected 'sqlite' or 'postgres'")

end StoreKind

/-- What a store may offer beyond the common contract. -/
inductive Capability where
  | tenantPartitioning
deriving DecidableEq, Repr, Inhabited

def Capability.name : Capability → String
  | tenantPartitioning => "tenant-partitioning"

/-- Why an operation failed. -/
inductive Error where
  | projectNotFound (id : Id)
  | recordNotFound (project id : Id)
  | disabled (project : Id) (operation : String)
  | nothingToUpdate
  | emptyBatch
  | mixedBatch
  | invalidField (field message : String)
  | invalidId (value message : String)
  | invalidCursor (cursor : String)
  | rolledBack (reason : String)
  | unavailable (store : String)
  | connectionFailed (store message : String)
  | poolExhausted (store : String)
  | unsupported (store capability : String)
  | migration (message : String)
  | internal (store message : String)
  | serialization (message : String)
deriving DecidableEq

namespace Error

def message : Error → String
  | projectNotFound id => "project not found: " ++ id.text
  | recordNotFound project id => "record not found: " ++ project.text ++ "/" ++ id.text
  | disabled project operation => operation ++ " is disabled for project " ++ project.text
  | nothingToUpdate => "nothing to update"
  | emptyBatch => "no records to create"
  | mixedBatch => "records must have the same project id"
  | invalidField field m => "invalid " ++ field ++ ": " ++ m
  | invalidId value m => "invalid id " ++ Quoted.quote value ++ ": " ++ m
  | invalidCursor cursor => "invalid pagination cursor: " ++ cursor
  | rolledBack reason => "transaction rolled back: " ++ reason
  | unavailable store => "backend unavailable: " ++ store
  | connectionFailed store m => "connection failed to " ++ store ++ ": " ++ m
  | poolExhausted store => "connection pool exhausted for " ++ store
  | unsupported store capability => "capability '" ++ capability ++ "' not supported by " ++ store
  | migration m => "schema migration failed: " ++ m
  | internal store m => "internal error in " ++ store ++ ": " ++ m
  | serialization m => "serialization error: " ++ m

def isProjectNotFound : Error → Bool
  | projectNotFound _ => true
  | _ => false

def isRecordNotFound : Error → Bool
  | recordNotFound _ _ => true
  | _ => false

def isDisabled : Error → Bool
  | disabled _ _ => true
  | _ => false

end Error

end AuditTrail
