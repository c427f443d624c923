import AuditTrail.Contract
import AuditTrail.Embedded.Store
import AuditTrail.Proofs.Embedded.Depth
import AuditTrail.Proofs.Embedded.Row
import AuditTrail.Proofs.Result

/-! What the operations of a store do to its three tables, without sessions, transactions and
references: each is a function from the rows before to a result and the rows after, and a failure
has no rows after. No operation looks at whether references are enforced. -/
namespace AuditTrail.Embedded

/-- The rows of a store's tables, and the last number given to a project. -/
structure Content where
  projects : List Row
  records : List Row
  changes : List Row
  lastNumber : Nat
deriving DecidableEq

namespace Content

/-- The content of a database whose tables have just been created. -/
def empty : Content := ⟨[], [], [], 0⟩

/-- The row of a project with its number. -/
def projectRow (p : Project) (number : Nat) : Row :=
  (Row.ofEntries p.entries).set .partitionNumber (.integer number)

/-- The row of a record of a batch. -/
def recordRow (project : Id) (createTime : Instant) (r : Record) : Row :=
  Row.ofEntries (r.entries project createTime)

/-- The row of a change at a position. -/
def changeRow (project record : Id) (position : Nat) (change : Change) : Row :=
  Row.ofEntries ([(.recordId, .id record), (.projectId, .id project),
    (.position, .integer position)] ++ change.entries)

/-- The rows of changes from a position on. -/
def changeRows (project record : Id) : Nat → List Change → List Row
  | _, [] => []
  | n, change :: rest => changeRow project record n change :: changeRows project record (n + 1) rest

/-- The rows of all changes of a batch. -/
def batchChanges (project : Id) (records : List Record) : List Row :=
  records.flatMap fun r => changeRows project r.id 0 r.resource.changes

/-- Whether rows can be added one after the other without repeating a key. -/
def admits (key : List Column) : List Row → List Row → Bool
  | _, [] => true
  | old, row :: rest => !old.any (Row.agree key row) && admits key (old ++ [row]) rest

/-- Adds rows to a table unless that repeats a key. -/
def extend (t : Table) (doing : String) (old new : List Row) : Except Error (List Row) :=
  if admits (keyOf t) old new then .ok (old ++ new)
  else .error ((Fault.notUnique t (keyOf t)).error doing)

/-- A reading whose fault is told with what was being done. -/
def reading {α : Type} (doing : String) (result : Except Fault α) : Except Error α :=
  result.mapError (Fault.error doing)

/-- Fails if the engine refuses a statement. -/
def preparing (doing : String) (st : Statement) : Except Error Unit :=
  if st.Fits then .ok () else .error (Fault.tooDeep.error doing)

section
variable (c : Content)

/-- Whether a project exists. -/
def hasProject (id : Id) : Bool := c.projects.any (Row.isProject id)

/-- Whether a record exists. -/
def hasRecord (project id : Id) : Bool := c.records.any (Row.isRecord project id)

/-- Fails unless a project exists. -/
def requireProject (id : Id) : Except Error Unit :=
  if c.hasProject id then .ok () else .error (.projectNotFound id)

/-- A project as it is read. -/
def readProject (id : Id) : Except Error Project :=
  match c.projects.find? (Row.isProject id) with
  | some row => reading "Failed to read project" (Reader.project row)
  | none => .error (.projectNotFound id)

/-- The changes of records as they are read. -/
def readChanges (project : Id) (records : List Id) : Except Error (List (Id × Change)) :=
  if records.isEmpty then .ok []
  else reading "Failed to read change row"
    ((chosen (.changes project records) c.changes).mapM (Work.readRow Reader.change))

/-- A record as it is read. -/
def readRecord (project id : Id) : Except Error Record :=
  match c.records.find? (Row.isRecord project id) with
  | some row => do
    let r ← reading "Failed to read record" (Reader.record row)
    let found ← c.readChanges project [id]
    return r.withChanges (Record.changesOf found id)
  | none => .error (.recordNotFound project id)

/-- The content with rows of records added. -/
def addRecords (rows : List Row) : Except Error Content :=
  (extend .records "Failed to insert record" c.records rows).map ({ c with records := · })

/-- The content with rows of changes added. -/
def addChanges (rows : List Row) : Except Error Content :=
  (extend .changes "Failed to insert resource change" c.changes rows).map ({ c with changes := · })

/-- The content with a project added. -/
def addProject (p : Project) : Content :=
  { c with
    projects := c.projects ++ [projectRow p (c.lastNumber + 1)]
    lastNumber := c.lastNumber + 1 }

/-- The content with fields of a project changed. -/
def assignProject (id : Id) (u : ProjectUpdate) : Content :=
  { c with projects := c.projects.map fun row =>
      if row.isProject id then row.setAll u.entries else row }

/-- The content with fields of a record changed. -/
def assignRecord (project id : Id) (u : RecordUpdate) : Content :=
  { c with records := c.records.map fun row =>
      if row.isRecord project id then row.setAll u.entries else row }

/-- The content without the changes of a record. -/
def removeChanges (project record : Id) : Content :=
  { c with changes := c.changes.filter (!Row.isChange project record ·) }

/-- The content with other changes of a record. -/
def replaceChanges (project record : Id) (changes : List Change) : Content :=
  let rest := c.removeChanges project record
  { rest with changes := rest.changes ++ changeRows project record 0 changes }

/-- The content without a record and its changes. -/
def removeRecord (project id : Id) : Content :=
  let rest := c.removeChanges project id
  { rest with records := c.records.filter (!Row.isRecord project id ·) }

/-- The content without a project and all that belongs to it. -/
def removeProject (id : Id) : Content :=
  { c with
    projects := c.projects.filter (!Row.isProject id ·)
    records := c.records.filter (!Row.isOf id ·)
    changes := c.changes.filter (!Row.isOf id ·) }

/-- The content after the selected groups of a record have been written. -/
def assign (project id : Id) (u : RecordUpdate) : Content :=
  match u.resource with
  | some r => (c.assignRecord project id u).replaceChanges project id r.changes
  | none => c.assignRecord project id u

/-! The operations -/

def createProject (p : Project) : Except Error Content :=
  if c.hasProject p.id then
    .error ((Fault.notUnique .projects (keyOf .projects)).error "Failed to insert project")
  else .ok (c.addProject p)

def listProjects (limit : Nat) (cursor : ProjectCursor) : Except Error (List Project) :=
  reading "Failed to read project row"
    ((chosen (.projects limit cursor) c.projects).mapM (Work.readRow Reader.project))

def updateProject (id : Id) (u : ProjectUpdate) : Except Error (Project × Content) :=
  if u.isEmpty then .error .nothingToUpdate
  else match c.projects.find? (Row.isProject id) with
    | some row =>
      (reading "Failed to update project" (Reader.project (row.setAll u.entries))).map
        (·, c.assignProject id u)
    | none => .error (.projectNotFound id)

def dropProject (id : Id) : Except Error Content := do
  c.requireProject id
  return c.removeProject id

def createRecords : List Record → Except Error Content
  | [] => .error .emptyBatch
  | first :: rest => do
    let batch := first :: rest
    if batch.any (·.project ≠ first.project) then .error .mixedBatch
    else
      c.requireProject first.project
      let c ← c.addRecords (batch.map (recordRow first.project first.createTime))
      c.addChanges (batchChanges first.project batch)

def getRecord (project id : Id) : Except Error Record := do
  c.requireProject project
  c.readRecord project id

def listRecords (project : Id) (filter : RecordFilter) (limit : Nat) (cursor : RecordCursor) :
    Except Error (List Record) := do
  let key ← cursor.keyset
  c.requireProject project
  preparing "Failed to prepare query" (.select (.records project filter limit key))
  let records ← reading "Failed to read record row"
    ((chosen (.records project filter limit key) c.records).mapM (Work.readRow Reader.record))
  let found ← c.readChanges project (records.map (·.id))
  return Record.attach found records

def updateRecord (project id : Id) (u : RecordUpdate) : Except Error (Record × Content) :=
  if u.isEmpty then .error .nothingToUpdate
  else do
    let p ← c.readProject project
    if !p.allowsUpdate then .error (.disabled project "update record")
    else if !c.hasRecord project id then .error (.recordNotFound project id)
    else
      let changed := c.assign project id u
      let record ← changed.readRecord project id
      return (record, changed)

def deleteRecord (project id : Id) : Except Error Content := do
  let p ← c.readProject project
  if !p.allowsDelete then .error (.disabled project "delete record")
  else return c.removeRecord project id

/-- What a request comes to: a result with the content afterwards, or an error. -/
def handle : Request → Except Error (Answer × Content)
  | .createProject p => (c.createProject p).map (.done, ·)
  | .getProject id => (c.readProject id).map (.project ·, c)
  | .listProjects limit cursor => (c.listProjects limit cursor).map (.projects ·, c)
  | .updateProject id u => (c.updateProject id u).map fun (p, d) => (.project p, d)
  | .dropProject id => (c.dropProject id).map (.done, ·)
  | .createRecords records => (c.createRecords records).map (.done, ·)
  | .getRecord project id => (c.getRecord project id).map (.record ·, c)
  | .listRecords project filter limit cursor =>
    (c.listRecords project filter limit cursor).map (.records ·, c)
  | .updateRecord project id u => (c.updateRecord project id u).map fun (r, d) => (.record r, d)
  | .deleteRecord project id => (c.deleteRecord project id).map (.done, ·)

/-- The content after a result; a failure leaves it alone. -/
def settle {α : Type} : Except Error (α × Content) → Content
  | .ok p => p.2
  | .error _ => c

/-- What a client gets for a request. -/
def reply (r : Request) : Except Error Answer := (c.handle r).map (·.1)

/-- The content after a request. -/
def after (r : Request) : Content := c.settle (c.handle r)

end

/-! What there is, and rows that are added -/

theorem hasProject_iff {c : Content} {id : Id} :
    c.hasProject id = true ↔ ∃ row, c.projects.find? (Row.isProject id) = some row := by
  rw [hasProject, List.any_eq_true, ← List.find?_isSome, Option.isSome_iff_exists]

theorem hasProject_of_requireProject {c : Content} {id : Id} {u : Unit}
    (ok : c.requireProject id = .ok u) : c.hasProject id = true := by
  unfold requireProject at ok
  split at ok
  · assumption
  · contradiction

theorem hasRecord_iff {c : Content} {project id : Id} :
    c.hasRecord project id = true ↔
      ∃ row, c.records.find? (Row.isRecord project id) = some row := by
  rw [hasRecord, List.any_eq_true, ← List.find?_isSome, Option.isSome_iff_exists]

theorem hasRecord_eq_false_iff {c : Content} {project id : Id} :
    c.hasRecord project id = false ↔
      (c.records.filter (Row.isRecord project id)).length = 0 := by
  rw [hasRecord, List.any_eq_false, List.length_eq_zero_iff, List.filter_eq_nil_iff]

theorem hasRecord_assignRecord (c : Content) (project id : Id) (u : RecordUpdate) :
    (c.assignRecord project id u).hasRecord project id = c.hasRecord project id := by
  simp only [hasRecord, assignRecord, List.any_map]
  congr 1
  funext row
  simp only [Function.comp_apply]
  split <;> simp

section
variable (t : Table) (doing : String) (old : List Row)

@[simp] theorem extend_nil : extend t doing old [] = .ok old := by
  simp [extend, admits]

theorem extend_cons (row : Row) (rest : List Row) :
    extend t doing old (row :: rest) =
      if old.any (Row.agree (keyOf t) row) then .error ((Fault.notUnique t (keyOf t)).error doing)
      else extend t doing (old ++ [row]) rest := by
  cases clash : old.any (Row.agree (keyOf t) row) <;> simp [extend, admits, clash]

theorem extend_eq_ok {t : Table} {doing : String} {old new rows : List Row}
    (extended : extend t doing old new = .ok rows) :
    admits (keyOf t) old new = true ∧ rows = old ++ new := by
  unfold extend at extended
  split at extended
  · next admitted => exact ⟨admitted, (Except.ok.inj extended).symm⟩
  · contradiction

theorem extend_append (xs ys : List Row) :
    extend t doing old (xs ++ ys) = extend t doing old xs >>= (extend t doing · ys) := by
  induction xs generalizing old with
  | nil => simp only [List.nil_append, extend_nil]; rfl
  | cons x xs ih =>
    simp only [List.cons_append, extend_cons, ih]
    split <;> rfl
end

section
variable (c : Content)

@[simp] theorem addRecords_nil : c.addRecords [] = .ok c := by
  simp [addRecords, Except.map]

@[simp] theorem addChanges_nil : c.addChanges [] = .ok c := by
  simp [addChanges, Except.map]

theorem addRecords_cons (row : Row) (rest : List Row) :
    c.addRecords (row :: rest) =
      if c.records.any (Row.agree (keyOf .records) row) then
        .error ((Fault.notUnique .records (keyOf .records)).error "Failed to insert record")
      else addRecords { c with records := c.records ++ [row] } rest := by
  simp only [addRecords, extend_cons]
  split <;> rfl

theorem addChanges_cons (row : Row) (rest : List Row) :
    c.addChanges (row :: rest) =
      if c.changes.any (Row.agree (keyOf .changes) row) then
        .error ((Fault.notUnique .changes (keyOf .changes)).error "Failed to insert resource change")
      else addChanges { c with changes := c.changes ++ [row] } rest := by
  simp only [addChanges, extend_cons]
  split <;> rfl

theorem addChanges_append (xs ys : List Row) :
    c.addChanges (xs ++ ys) = c.addChanges xs >>= (·.addChanges ys) := by
  simp only [addChanges, extend_append]
  cases extend .changes "Failed to insert resource change" c.changes xs <;> rfl

variable {c} {d : Content} {rows : List Row}

theorem addRecords_eq_ok (added : c.addRecords rows = .ok d) :
    admits (keyOf .records) c.records rows = true ∧ d = { c with records := c.records ++ rows } := by
  obtain ⟨_, extended, rfl⟩ := map_eq_ok added
  obtain ⟨admitted, rfl⟩ := extend_eq_ok extended
  exact ⟨admitted, rfl⟩

theorem addChanges_eq_ok (added : c.addChanges rows = .ok d) :
    admits (keyOf .changes) c.changes rows = true ∧ d = { c with changes := c.changes ++ rows } := by
  obtain ⟨_, extended, rfl⟩ := map_eq_ok added
  obtain ⟨admitted, rfl⟩ := extend_eq_ok extended
  exact ⟨admitted, rfl⟩

theorem records_of_addChanges (added : c.addChanges rows = .ok d) : d.records = c.records := by
  rw [(addChanges_eq_ok added).2]
end

theorem hasRecord_append {c : Content} {project : Id} {createTime : Instant} {records : List Record}
    {r : Record} (mem : r ∈ records) (rows : List Row) :
    hasRecord { c with records := rows ++ records.map (recordRow project createTime) }
      project r.id = true := by
  refine List.any_eq_true.mpr ⟨recordRow project createTime r, ?_, ?_⟩
  · exact List.mem_append_right _ (List.mem_map_of_mem mem)
  · simp [Row.isRecord, Row.isOf, recordRow, Row.ofEntries, Record.entries, Row.get, Value.cell]

theorem admits_changeRows (project record : Id) (changes : List Change) :
    ∀ (n : Nat) (old : List Row),
      (∀ row ∈ old, row.isChange project record = true →
        ∃ m : Nat, m < n ∧ row.get .position = .integer m) →
      admits (keyOf .changes) old (changeRows project record n changes) = true := by
  induction changes with
  | nil => intros; rfl
  | cons change rest ih =>
    intro n old below
    have fields : ∀ k (ch : Change), (changeRow project record k ch).isChange project record = true ∧
        (changeRow project record k ch).get .position = .integer k := by
      intro k ch
      simp [Row.isChange, Row.isOf, changeRow, Row.ofEntries, Row.get, Value.cell]
    simp only [changeRows, admits, Bool.and_eq_true, Bool.not_eq_true', List.any_eq_false]
    refine ⟨?_, ih (n + 1) _ ?_⟩
    · intro row mem clash
      have same := Row.agree_iff.mp clash
      obtain ⟨own, place⟩ := fields n change
      have owner : row.isChange project record = true := by
        simpa [Row.isChange, Row.isOf, same .projectId (by decide), same .recordId (by decide)]
          using own
      obtain ⟨m, less, at_⟩ := below row mem owner
      rw [same .position (by decide), at_] at place
      have := Int.ofNat.inj (Cell.integer.inj place)
      omega
    · intro row mem owner
      rcases List.mem_append.mp mem with mem | mem
      · obtain ⟨m, less, at_⟩ := below row mem owner
        exact ⟨m, by omega, at_⟩
      · rw [List.mem_singleton.mp mem]
        exact ⟨n, by omega, (fields n change).2⟩

/-- Changes that take the place of all changes of a record repeat no key. -/
theorem addChanges_removeChanges (c : Content) (project record : Id) (changes : List Change) :
    (c.removeChanges project record).addChanges (changeRows project record 0 changes) =
      .ok (c.replaceChanges project record changes) := by
  have admitted := admits_changeRows project record changes 0 (c.removeChanges project record).changes
    fun row mem owner => absurd owner (by simpa using (List.mem_filter.mp mem).2)
  rw [addChanges, extend, if_pos admitted]
  rfl

end Content

end AuditTrail.Embedded
