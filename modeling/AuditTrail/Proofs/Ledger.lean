import AuditTrail.Contract
import AuditTrail.Proofs.Order
import AuditTrail.Proofs.Statement

/-! What a store is for, without a word about how anything is kept. A ledger is a list of projects and a
list of records with their changes; every request has one result there, and one ledger after it. The
texts of internal errors are left out, as a ledger has no inside. -/
namespace AuditTrail

/-- An error without what it says about the inside of a store. -/
def Error.outline : Error → Error
  | .internal _ _ => .internal "" ""
  | e => e

/-- The error of a request that breaks a rule of the store itself. -/
def Error.inside : Error := .internal "" ""

/-- The identifiers under which a record is found. -/
def Record.key (r : Record) : Id × Id := (r.project, r.id)

/-- A record with the groups of an update in the place of its own. -/
def RecordUpdate.apply (u : RecordUpdate) (r : Record) : Record :=
  { r with
    labels := u.labels.getD r.labels
    resource := u.resource.getD r.resource
    operation := u.operation.getD r.operation
    actor := u.actor.getD r.actor }

/-- A project with the fields of an update in the place of its own. -/
def ProjectUpdate.apply (u : ProjectUpdate) (p : Project) : Project :=
  { p with
    displayName := u.displayName.getD p.displayName
    updateRecords := u.updateRecords.getD p.updateRecords
    deleteRecords := u.deleteRecords.getD p.deleteRecords }

/-! What an update changes -/

/-- A group comes from the update that selects it, or else from the value before. -/
theorem mem_group {α : Type} {f : α → List (Column × Value)} {selected : Option α} {own : α}
    {e : Column × Value} (mem : e ∈ f (selected.getD own)) :
    e ∈ (selected.map f).getD [] ∨ selected = none ∧ e ∈ f own := by
  cases selected with
  | none => exact .inr ⟨rfl, mem⟩
  | some a => exact .inl mem

/-- A value of a changed record is written, or it stays in a column that is not. -/
theorem RecordUpdate.mem_entries_apply {u : RecordUpdate} {r : Record} {project : Id}
    {createTime : Instant} {e : Column × Value}
    (mem : e ∈ (u.apply r).entries project createTime) :
    e ∈ u.entries ∨ e.1 ∉ u.entries.map (·.1) ∧ e ∈ r.entries project createTime := by
  have unwritten (other : u.writes e.1 = false) : e.1 ∉ u.entries.map (·.1) := fun mem => by
    simp [RecordUpdate.writes_of_mem mem] at other
  have selected : e ∈ u.entries ↔ ((e ∈ entryIf .labels .map u.labels ∨
      e ∈ (u.resource.map Resource.entries).getD []) ∨ e ∈ (u.operation.map Operation.entries).getD [])
        ∨ e ∈ (u.actor.map Actor.entries).getD [] := by
    simp only [RecordUpdate.entries, List.mem_append]
  simp only [Record.entries, RecordUpdate.apply, List.mem_append, selected] at mem ⊢
  rcases mem with ((mem | mem) | mem) | mem
  · simp only [List.mem_cons, List.not_mem_nil, or_false] at mem
    rcases mem with rfl | rfl | rfl | rfl
    · exact .inr ⟨unwritten rfl, .inl (.inl (.inl (by simp)))⟩
    · exact .inr ⟨unwritten rfl, .inl (.inl (.inl (by simp)))⟩
    · exact .inr ⟨unwritten rfl, .inl (.inl (.inl (by simp)))⟩
    · cases labels : u.labels with
      | none =>
        have unselected : u.writes .labels = false := by simp [RecordUpdate.writes, labels]
        exact .inr ⟨unwritten unselected, .inl (.inl (.inl (by simp)))⟩
      | some m => exact .inl (.inl (.inl (.inl (by simp [entryIf]))))
  · rcases mem_group mem with written | ⟨none, stays⟩
    · exact .inl (.inl (.inl (.inr written)))
    · refine .inr ⟨unwritten ?_, .inl (.inl (.inr stays))⟩
      simp only [Resource.entries, List.mem_cons, List.not_mem_nil, or_false] at stays
      rcases stays with rfl | rfl | rfl <;> simp [RecordUpdate.writes, none]
  · rcases mem_group mem with written | ⟨none, stays⟩
    · exact .inl (.inl (.inr written))
    · refine .inr ⟨unwritten ?_, .inl (.inr stays)⟩
      simp only [Operation.entries, List.mem_cons, List.not_mem_nil, or_false] at stays
      rcases stays with rfl | rfl | rfl | rfl | rfl | rfl | rfl <;> simp [RecordUpdate.writes, none]
  · rcases mem_group mem with written | ⟨none, stays⟩
    · exact .inl (.inr written)
    · refine .inr ⟨unwritten ?_, .inr stays⟩
      simp only [Actor.entries, List.mem_cons, List.not_mem_nil, or_false] at stays
      rcases stays with rfl | rfl | rfl <;> simp [RecordUpdate.writes, none]

theorem ProjectUpdate.mem_entries_apply {u : ProjectUpdate} {p : Project} {e : Column × Value}
    (mem : e ∈ (u.apply p).entries) :
    e ∈ u.entries ∨ e.1 ∉ u.entries.map (·.1) ∧ e ∈ p.entries := by
  simp only [Project.entries, ProjectUpdate.apply, List.mem_cons, List.not_mem_nil, or_false] at mem
  rcases mem with rfl | rfl | rfl | rfl | rfl <;> rcases u with ⟨_ | _, _ | _, _ | _⟩ <;>
    simp [ProjectUpdate.entries, Project.entries, entryIf]

/-- The projects and records of a store. -/
structure Ledger where
  projects : List Project
  records : List Record
deriving DecidableEq

namespace Ledger

def empty : Ledger := ⟨[], []⟩

/-- No identifier occurs twice, and every record has its project. -/
structure Sound (l : Ledger) : Prop where
  projects : (l.projects.map (·.id)).Nodup
  records : (l.records.map Record.key).Nodup
  owned : ∀ r ∈ l.records, ∃ p ∈ l.projects, p.id = r.project

section
variable (l : Ledger)

def project (id : Id) : Except Error Project :=
  match l.projects.find? (·.id = id) with
  | some p => .ok p
  | none => .error (.projectNotFound id)

def record (project id : Id) : Except Error Record :=
  match l.records.find? (·.key = (project, id)) with
  | some r => .ok r
  | none => .error (.recordNotFound project id)

/-! The requests -/

def createProject (p : Project) : Except Error Ledger :=
  if l.projects.any (·.id = p.id) then .error .inside
  else .ok { l with projects := l.projects ++ [p] }

def listProjects (limit : Nat) (cursor : ProjectCursor) : List Project :=
  (inOrder Project.Precedes (l.projects.filter cursor.admits)).take limit

def setProject (id : Id) (u : ProjectUpdate) : Ledger :=
  { l with projects := l.projects.map fun p => if p.id = id then u.apply p else p }

def updateProject (id : Id) (u : ProjectUpdate) : Except Error (Project × Ledger) :=
  if u.isEmpty then .error .nothingToUpdate
  else (l.project id).map fun p => (u.apply p, l.setProject id u)

def removeProject (id : Id) : Ledger where
  projects := l.projects.filter (·.id ≠ id)
  records := l.records.filter (·.project ≠ id)

def dropProject (id : Id) : Except Error Ledger :=
  (l.project id).map fun _ => l.removeProject id

def addRecords (createTime : Instant) (batch : List Record) : Ledger :=
  { l with records := l.records ++ batch.map fun r => { r with createTime := createTime } }

/-- Creates records of one project. All of them get the creation time of the first. -/
def createRecords : List Record → Except Error Ledger
  | [] => .error .emptyBatch
  | first :: rest =>
    if (first :: rest).any (·.project ≠ first.project) then .error .mixedBatch
    else do
      let _ ← l.project first.project
      if ((l.records ++ first :: rest).map Record.key).Nodup then
        .ok (l.addRecords first.createTime (first :: rest))
      else .error .inside

def getRecord (project id : Id) : Except Error Record := do
  let _ ← l.project project
  l.record project id

def page (project : Id) (f : RecordFilter) (limit : Nat) (cursor : RecordCursor) : List Record :=
  (inOrder Record.Precedes (l.records.filter fun r =>
    r.project = project && (f.admits r && cursor.admits r))).take limit

def listRecords (project : Id) (f : RecordFilter) (limit : Nat) (cursor : RecordCursor) :
    Except Error (List Record) := do
  let _ ← cursor.keyset
  let _ ← l.project project
  return l.page project f limit cursor

def setRecord (project id : Id) (u : RecordUpdate) : Ledger :=
  { l with records := l.records.map fun r => if r.key = (project, id) then u.apply r else r }

def updateRecord (project id : Id) (u : RecordUpdate) : Except Error (Record × Ledger) :=
  if u.isEmpty then .error .nothingToUpdate
  else do
    let p ← l.project project
    if !p.allowsUpdate then .error (.disabled project "update record")
    else (l.record project id).map fun r => (u.apply r, l.setRecord project id u)

def removeRecord (project id : Id) : Ledger :=
  { l with records := l.records.filter (·.key ≠ (project, id)) }

/-- Deletes a record; one that is not there may be deleted as well. -/
def deleteRecord (project id : Id) : Except Error Ledger := do
  let p ← l.project project
  if !p.allowsDelete then .error (.disabled project "delete record")
  else .ok (l.removeRecord project id)

/-- What a request comes to: an answer with the ledger afterwards, or an error. -/
def handle : Request → Except Error (Answer × Ledger)
  | .createProject p => (l.createProject p).map (.done, ·)
  | .getProject id => (l.project id).map (.project ·, l)
  | .listProjects limit cursor => .ok (.projects (l.listProjects limit cursor), l)
  | .updateProject id u => (l.updateProject id u).map fun (p, m) => (.project p, m)
  | .dropProject id => (l.dropProject id).map (.done, ·)
  | .createRecords records => (l.createRecords records).map (.done, ·)
  | .getRecord project id => (l.getRecord project id).map (.record ·, l)
  | .listRecords project f limit cursor => (l.listRecords project f limit cursor).map (.records ·, l)
  | .updateRecord project id u => (l.updateRecord project id u).map fun (r, m) => (.record r, m)
  | .deleteRecord project id => (l.deleteRecord project id).map (.done, ·)

/-- What a client gets for a request, whatever an internal error says. -/
def reply (r : Request) : Except Error Answer := ((l.handle r).map (·.1)).mapError Error.outline

/-- The ledger after a request; a failure leaves it alone. -/
def after (r : Request) : Ledger :=
  match l.handle r with
  | .ok (_, m) => m
  | .error _ => l
end

end Ledger

/-! Values that every store keeps as they are -/

/-- An instant in the years 0 to 9999 that is a whole number of microseconds, and no leap second. -/
structure Instant.Plain (t : Instant) : Prop where
  ordinary : t.Ordinary
  regular : t.nanos < 1000000000
  whole : 1000 ∣ t.nanos

instance (t : Instant) : Decidable t.Plain :=
  decidable_of_iff (t.Ordinary ∧ t.nanos < 1000000000 ∧ 1000 ∣ t.nanos)
    ⟨fun h => ⟨h.1, h.2.1, h.2.2⟩, fun h => ⟨h.ordinary, h.regular, h.whole⟩⟩

/-- A text without the character zero. -/
def PlainText (s : String) : Prop := '\x00' ∉ s.toList

instance (s : String) : Decidable (PlainText s) := inferInstanceAs (Decidable (_ ∉ _))

def TextMap.Plain (m : TextMap) : Prop := ∀ e ∈ m.entries, PlainText e.1 ∧ PlainText e.2

instance (m : TextMap) : Decidable m.Plain := inferInstanceAs (Decidable (∀ e ∈ m.entries, _))

def Value.Plain : Value → Prop
  | .instant t => t.Plain
  | .text s => PlainText s
  | .map m => m.Plain
  | .integer n => Short n
  | _ => True

instance : (v : Value) → Decidable v.Plain
  | .instant t => inferInstanceAs (Decidable t.Plain)
  | .text s => inferInstanceAs (Decidable (PlainText s))
  | .map m => inferInstanceAs (Decidable m.Plain)
  | .integer n => inferInstanceAs (Decidable (Short n))
  | .null | .id _ | .ids _ | .flag _ | .count _ | .bytes _ => .isTrue trivial

/-- Values of columns all of which are plain. -/
def PlainEntries (entries : List (Column × Value)) : Prop := ∀ e ∈ entries, e.2.Plain

instance (entries : List (Column × Value)) : Decidable (PlainEntries entries) :=
  inferInstanceAs (Decidable (∀ e ∈ entries, _))

/-- Changes with plain values whose positions are numbers of 32 bits. -/
structure PlainChanges (changes : List Change) : Prop where
  values : ∀ c ∈ changes, PlainEntries c.entries
  length_lt : changes.length < 2147483648

instance (changes : List Change) : Decidable (PlainChanges changes) :=
  decidable_of_iff ((∀ c ∈ changes, PlainEntries c.entries) ∧ changes.length < 2147483648)
    ⟨fun h => ⟨h.1, h.2⟩, fun h => ⟨h.values, h.length_lt⟩⟩

/-- A record of plain values. -/
structure Record.Plain (r : Record) : Prop where
  values : PlainEntries (r.entries r.project r.createTime)
  changes : PlainChanges r.resource.changes

instance (r : Record) : Decidable r.Plain :=
  decidable_of_iff (PlainEntries (r.entries r.project r.createTime) ∧ PlainChanges r.resource.changes)
    ⟨fun h => ⟨h.1, h.2⟩, fun h => ⟨h.values, h.changes⟩⟩

/-- New values for a record, all of them plain. -/
structure RecordUpdate.Plain (u : RecordUpdate) : Prop where
  values : PlainEntries u.entries
  changes : ∀ r ∈ u.resource, PlainChanges r.changes

instance (u : RecordUpdate) : Decidable u.Plain :=
  decidable_of_iff (PlainEntries u.entries ∧ ∀ r ∈ u.resource, PlainChanges r.changes)
    ⟨fun h => ⟨h.1, h.2⟩, fun h => ⟨h.values, h.changes⟩⟩

/-- A request all of whose values are plain. -/
def Request.Plain : Request → Prop
  | .createProject p => PlainEntries p.entries
  | .updateProject _ u => PlainEntries u.entries
  | .createRecords records => ∀ r ∈ records, r.Plain
  | .listRecords _ f _ cursor =>
    (∀ c ∈ Selection.filtering f, c.value.Plain) ∧ ∀ t ∈ cursor.lastTime, t.Plain
  | .updateRecord _ _ u => u.Plain
  | _ => True

instance : (r : Request) → Decidable r.Plain
  | .createProject p => inferInstanceAs (Decidable (PlainEntries p.entries))
  | .updateProject _ u => inferInstanceAs (Decidable (PlainEntries u.entries))
  | .createRecords records => inferInstanceAs (Decidable (∀ r ∈ records, r.Plain))
  | .listRecords _ f _ cursor => inferInstanceAs (Decidable
    ((∀ c ∈ Selection.filtering f, c.value.Plain) ∧ ∀ t ∈ cursor.lastTime, t.Plain))
  | .updateRecord _ _ u => inferInstanceAs (Decidable u.Plain)
  | .getProject _ | .listProjects _ _ | .dropProject _ | .getRecord _ _ | .deleteRecord _ _ =>
    .isTrue trivial

/-- A ledger of plain values. -/
structure Ledger.Plain (l : Ledger) : Prop where
  projects : ∀ p ∈ l.projects, PlainEntries p.entries
  records : ∀ r ∈ l.records, r.Plain

end AuditTrail
