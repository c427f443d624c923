import AuditTrail.Proofs.Embedded.Reading
import AuditTrail.Proofs.Id.Spelling
import AuditTrail.Proofs.Json.TextMap
import AuditTrail.Proofs.Ledger
import AuditTrail.Proofs.Time.Sortable

/-! Rows that hold a value, column by column. What they hold is what is read from them, provided that
the times are ones that can be read; otherwise nothing is read at all. -/
namespace AuditTrail

namespace Embedded

/-- Whether a row holds the value of each entry in its column. -/
def Row.Keeps (row : Row) (entries : List (Column × Value)) : Prop :=
  ∀ e ∈ entries, row.get e.1 = e.2.cell

namespace Row

variable {row : Row} {entries : List (Column × Value)} {project : Id} {createTime : Instant}

theorem keeps_ofEntries (distinct : (entries.map (·.1)).Nodup) : (ofEntries entries).Keeps entries := by
  induction entries with
  | nil => exact fun _ mem => by contradiction
  | cons e rest ih =>
    obtain ⟨fresh, distinct⟩ := List.nodup_cons.mp distinct
    refine List.forall_mem_cons.mpr ⟨if_pos rfl, fun x mem => ?_⟩
    have other : e.1 ≠ x.1 := fun same => fresh (List.mem_map.mpr ⟨x, mem, same.symm⟩)
    exact (if_neg other).trans (ih distinct x mem)

theorem keeps_recordRow (project : Id) (createTime : Instant) (r : Record) :
    (Content.recordRow project createTime r).Keeps (r.entries project createTime) :=
  keeps_ofEntries (by decide : Column.ofRecord.Nodup)

theorem keeps_projectRow (p : Project) (number : Nat) :
    (Content.projectRow p number).Keeps p.entries := by
  intro e mem
  have other : e.1 ≠ .partitionNumber := fun same => by
    have column : Column.partitionNumber ∈ Column.ofProject := same ▸ List.mem_map_of_mem mem
    exact absurd column (by decide)
  have distinct : (p.entries.map (·.1)).Nodup := (by decide : Column.ofProject.Nodup)
  rw [Content.projectRow, get_set, if_neg other]
  exact keeps_ofEntries distinct e mem

/-- A row holds what is written to it, and what it held in the columns that are not written. -/
theorem keeps_setAll {new old : List (Column × Value)} (distinct : (new.map (·.1)).Nodup)
    (split : ∀ e ∈ entries, e ∈ new ∨ e.1 ∉ new.map (·.1) ∧ e ∈ old) (kept : row.Keeps old) :
    (row.setAll new).Keeps entries := by
  intro e mem
  rcases split e mem with written | ⟨absent, stays⟩
  · exact get_setAll_of_mem written distinct
  · rw [get_setAll_of_notMem absent]
    exact kept e stays

theorem keeps_updateRecord (u : RecordUpdate) {r : Record}
    (kept : row.Keeps (r.entries project createTime)) :
    (row.setAll u.entries).Keeps ((u.apply r).entries project createTime) :=
  keeps_setAll u.nodup_columns (fun _ mem => RecordUpdate.mem_entries_apply mem) kept

theorem keeps_updateProject (u : ProjectUpdate) {p : Project} (kept : row.Keeps p.entries) :
    (row.setAll u.entries).Keeps (u.apply p).entries := by
  have distinct : (u.entries.map (·.1)).Nodup := by
    rcases u with ⟨_ | _, _ | _, _ | _⟩ <;> simp [ProjectUpdate.entries, entryIf]
  exact keeps_setAll distinct (fun _ mem => ProjectUpdate.mem_entries_apply mem) kept

end Row

namespace Reader

variable {row : Row} {columns : List Column} {c : Column}

/-! Cells -/

theorem text_of_get {s : String} (held : row.get c = (Value.text s).cell) :
    text columns c row = .ok s := by
  simp only [text, held, Value.cell]

theorem text?_of_get {s : Option String} (held : row.get c = (Value.ofText? s).cell) :
    text? columns c row = .ok s := by
  cases s <;> simp only [text?, held, Value.ofText?, Value.cell]

theorem bytes?_of_get {bs : Option (List UInt8)} (held : row.get c = (Value.ofBytes? bs).cell) :
    bytes? columns c row = .ok bs := by
  cases bs <;> simp only [bytes?, held, Value.ofBytes?, Value.cell]

theorem flag_of_get {f : Flag} (held : row.get c = (Value.flag f).cell) :
    flag columns c row = .ok f := by
  cases f <;> simp [flag, held, Value.cell, Flag.cell]

theorem status_of_get {s : Status} (held : row.get c = (Value.integer s.code).cell) :
    status columns c row = .ok s := by
  have fits : fits32 s.code = true := by cases s <;> rfl
  simp only [status, int32, held, Value.cell, fits, if_true, bind, Except.bind, Status.ofCode?_code]

theorem id_of_get {i : Id} (held : row.get c = (Value.id i).cell) : id columns c row = .ok i := by
  have read : text columns c row = .ok i.text := text_of_get held
  simp only [id, read, bind, Except.bind, Id.read_text]

theorem map_of_get {m : TextMap} (held : row.get c = (Value.map m).cell) :
    map columns c row = .ok m := by
  have read : text columns c row = .ok (Json.textMapText m) := text_of_get held
  simp only [map, read, bind, Except.bind, Json.textMapOf?_textMapText]

theorem instant_of_get {t : Instant} (ordinary : t.Ordinary)
    (held : row.get c = (Value.instant t).cell) : instant columns c row = .ok t := by
  have read : text columns c row = .ok t.sortable := text_of_get held
  simp only [instant, read, bind, Except.bind, Instant.read_sortable ordinary]

/-- A time is read from its text or the text cannot be converted. -/
theorem instant_cases (columns : List Column) {t : Instant} (held : row.get c = (Value.instant t).cell) :
    (∃ u, Instant.read t.sortable = .ok u ∧ instant columns c row = .ok u) ∨
      ∃ cause, instant columns c row = .error (.conversion (index columns c) cause) := by
  have read : text columns c row = .ok t.sortable := text_of_get held
  simp only [instant, read, bind, Except.bind]
  cases Instant.read t.sortable with
  | ok u => exact .inl ⟨u, rfl, rfl⟩
  | error f => exact .inr ⟨f.message, rfl⟩

theorem project_of_keeps {p : Project} (kept : row.Keeps p.entries) (created : p.createTime.Ordinary) :
    project row = .ok p := by
  simp only [Row.Keeps, Project.entries, List.forall_mem_cons] at kept
  obtain ⟨i, createTime, displayName, updateRecords, deleteRecords, -⟩ := kept
  simp only [project, id_of_get i, instant_of_get created createTime, text_of_get displayName,
    flag_of_get updateRecords, flag_of_get deleteRecords, bind, Except.bind]
  rfl

theorem record_of_keeps {r : Record} {project : Id} {createTime : Instant}
    (kept : row.Keeps (r.entries project createTime)) (created : createTime.Ordinary)
    (operated : r.operation.time.Ordinary) : record row
      = .ok (Record.withChanges { r with project := project, createTime := createTime } []) := by
  simp only [Row.Keeps, Record.entries, Resource.entries, Operation.entries, Actor.entries,
    List.cons_append, List.nil_append, List.forall_mem_cons] at kept
  obtain ⟨i, owner, create, labels, resourceKind, resourceId, resourceMetadata, operationKind,
    operationId, time, operationMetadata, parent, state, status, actorKind, actorId, actorMetadata,
    -⟩ := kept
  simp only [record, status_of_get status, id_of_get i, id_of_get owner,
    instant_of_get created create, map_of_get labels, text_of_get resourceKind,
    text_of_get resourceId, map_of_get resourceMetadata, text_of_get operationKind,
    text_of_get operationId, instant_of_get operated time, map_of_get operationMetadata,
    text?_of_get parent, text?_of_get state, text_of_get actorKind, text_of_get actorId,
    map_of_get actorMetadata, bind, Except.bind]
  rfl

theorem change_changeRow (project i : Id) (position : Nat) (c : Change) :
    change (Content.changeRow project i position c) = .ok (i, c) := by
  have kept : (Content.changeRow project i position c).Keeps ([(.recordId, .id i),
      (.projectId, .id project), (.position, .integer position)] ++ c.entries) :=
    Row.keeps_ofEntries (by simp [Change.entries])
  simp only [Row.Keeps, Change.entries, List.cons_append, List.nil_append,
    List.forall_mem_cons] at kept
  obtain ⟨owner, -, -, name, description, oldValue, newValue, -⟩ := kept
  simp only [change, id_of_get owner, text_of_get name, text?_of_get description,
    bytes?_of_get oldValue, bytes?_of_get newValue, bind, Except.bind]
  rfl

end Reader

end Embedded

end AuditTrail
