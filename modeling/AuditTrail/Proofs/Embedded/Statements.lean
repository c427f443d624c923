import AuditTrail.Proofs.Embedded.Content

/-! What the statements of a store do to a database that has its tables. References never decide
anything: a row is added only where the row that it refers to has been found, and rows are removed
only after all rows that refer to them. -/
namespace AuditTrail.Embedded

/-- The rows of a table of the store. -/
def Content.rows (c : Content) : Table → List Row
  | .projects => c.projects
  | .records => c.records
  | .changes => c.changes
  | .version => []

namespace Database

/-- A database has the tables of a store, with the given rows. -/
structure Holds (db : Database) (c : Content) : Prop where
  projects : db.projects = some c.projects
  records : db.records = some c.records
  changes : db.changes = some c.changes
  lastNumber : db.lastNumber = c.lastNumber

variable {db : Database} {c : Content} {enforced : Bool}

theorem Holds.rows? (holds : db.Holds c) {t : Table} (stored : t ≠ .version) :
    db.rows? t = some (c.rows t) := by
  cases t with
  | projects => exact holds.projects
  | records => exact holds.records
  | changes => exact holds.changes
  | version => contradiction

theorem Holds.require (holds : db.Holds c) {t : Table} (stored : t ≠ .version) :
    db.require t = .ok (c.rows t) := by
  simp only [Database.require, holds.rows? stored]

theorem Holds.parents (holds : db.Holds c) (t : Table) :
    db.parents enforced t = .ok (if enforced then
      (parent? t).map fun p => (c.rows p.1, p.2) else none) := by
  cases enforced with
  | false => rfl
  | true => cases t <;> simp [Database.parents, parent?, holds.rows?]

theorem Holds.putProjects (holds : db.Holds c) (rows : List Row) :
    (db.put .projects (some rows)).Holds { c with projects := rows } :=
  ⟨rfl, holds.records, holds.changes, holds.lastNumber⟩

theorem Holds.putRecords (holds : db.Holds c) (rows : List Row) :
    (db.put .records (some rows)).Holds { c with records := rows } :=
  ⟨holds.projects, rfl, holds.changes, holds.lastNumber⟩

theorem Holds.putChanges (holds : db.Holds c) (rows : List Row) :
    (db.put .changes (some rows)).Holds { c with changes := rows } :=
  ⟨holds.projects, holds.records, rfl, holds.lastNumber⟩

theorem run_select (holds : db.Holds c) {s : Selection} (stored : s.table ≠ .version) :
    db.run enforced (.select s) = .ok ⟨db, chosen s (c.rows s.table), 0⟩ := by
  simp only [run, holds.require stored]
  rfl

/-- An insert whose row finds what it refers to fails on a repeated key only. -/
theorem insert_referring (holds : db.Holds c) {t : Table} (stored : t ≠ .version)
    (numbered : t ≠ .projects) {entries : List (Column × Value)}
    (referring : ∀ p link, parent? t = some (p, link) →
      (c.rows p).any (refersTo link (Row.ofEntries entries)) = true) :
    db.insert enforced t entries [] =
      if (c.rows t).any (Row.agree (keyOf t) (Row.ofEntries entries)) then
        .error (.notUnique t (keyOf t))
      else .ok ⟨db.put t (some (c.rows t ++ [Row.ofEntries entries])), [], 1⟩ := by
  have keyed : (keyOf t).isEmpty = false := by cases t <;> first | rfl | contradiction
  have found : ¬ ((if enforced then (parent? t).map fun p => (c.rows p.1, p.2) else none).map
      fun p => p.1.any (refersTo p.2 (Row.ofEntries entries))) = some false := by
    cases enforced with
    | false => simp
    | true =>
      cases parent : parent? t with
      | none => simp
      | some p => simp [referring p.1 p.2 parent]
  simp only [insert, holds.require stored, holds.parents, bind, Except.bind, keyed, Bool.not_false,
    Bool.true_and, if_neg found, if_neg numbered]
  rfl

variable (enforced)

theorem run_insertProject (holds : db.Holds c) (p : Project) :
    if c.hasProject p.id then
      db.run enforced (.insertProject p []) = .error (.notUnique .projects (keyOf .projects))
    else ∃ after, db.run enforced (.insertProject p []) = .ok ⟨after, [], 1⟩ ∧
      after.Holds (c.addProject p) := by
  have stored : db.require .projects = .ok c.projects := holds.require (by decide)
  have free : db.parents enforced .projects = .ok none := by
    rw [holds.parents]
    cases enforced <;> rfl
  have clash : c.projects.any (Row.agree [.id] (Row.ofEntries p.entries)) = c.hasProject p.id := by
    refine congrArg c.projects.any (funext fun row => ?_)
    simp [Row.agree, Row.ofEntries, Row.get, Project.entries, Value.cell, Row.isProject, eq_comm]
  simp only [run, Statement.insertProject, insert, stored, free, bind, Except.bind, keyOf, clash,
    List.isEmpty_cons, Bool.not_false, Bool.true_and, Option.map_none, reduceCtorEq, if_false]
  cases c.hasProject p.id with
  | true => simp
  | false =>
    refine ⟨_, rfl, ?_, holds.records, holds.changes, ?_⟩
    · simp only [put, Content.addProject, Content.projectRow, holds.lastNumber]
    · simp only [Content.addProject, holds.lastNumber]

theorem run_insertRecord (holds : db.Holds c) {project : Id} (present : c.hasProject project = true)
    (createTime : Instant) (r : Record) :
    let row := Content.recordRow project createTime r
    if c.records.any (Row.agree (keyOf .records) row) then
      db.run enforced (.insertRecord project createTime r)
        = .error (.notUnique .records (keyOf .records))
    else ∃ after, db.run enforced (.insertRecord project createTime r) = .ok ⟨after, [], 1⟩ ∧
      after.Holds { c with records := c.records ++ [row] } := by
  intro row
  have referring : ∀ p link, parent? .records = some (p, link) →
      (c.rows p).any (refersTo link row) = true := by
    rintro p link ⟨⟩
    obtain ⟨owner, mem, isProject⟩ := List.any_eq_true.mp present
    refine List.any_eq_true.mpr ⟨owner, mem, ?_⟩
    have name : owner.get .id = .text project.text := by simpa [Row.isProject] using isProject
    simp [refersTo, name, row, Content.recordRow, Row.ofEntries, Record.entries, Row.get,
      Value.cell]
  simp only [run, Statement.insertRecord,
    insert_referring holds (by decide) (by decide) referring]
  split
  · next clash => exact if_pos clash
  · next free => exact ⟨_, if_neg free, holds.putRecords _⟩

theorem run_insertChange (holds : db.Holds c) {project record : Id}
    (present : c.hasRecord project record = true) (n : Nat) (change : Change) :
    let row := Content.changeRow project record n change
    if c.changes.any (Row.agree (keyOf .changes) row) then
      db.run enforced (.insertChange project record n change)
        = .error (.notUnique .changes (keyOf .changes))
    else ∃ after, db.run enforced (.insertChange project record n change) = .ok ⟨after, [], 1⟩ ∧
      after.Holds { c with changes := c.changes ++ [row] } := by
  intro row
  have referring : ∀ p link, parent? .changes = some (p, link) →
      (c.rows p).any (refersTo link row) = true := by
    rintro p link ⟨⟩
    obtain ⟨owner, mem, isRecord⟩ := List.any_eq_true.mp present
    refine List.any_eq_true.mpr ⟨owner, mem, ?_⟩
    have names : owner.get .projectId = .text project.text ∧ owner.get .id = .text record.text := by
      simpa [Row.isRecord, Row.isOf] using isRecord
    simp [refersTo, names, row, Content.changeRow, Row.ofEntries, Row.get, Value.cell]
  simp only [run, Statement.insertChange,
    insert_referring holds (by decide) (by decide) referring]
  split
  · next clash => exact if_pos clash
  · next free => exact ⟨_, if_neg free, holds.putChanges _⟩

theorem run_updateProject (holds : db.Holds c) (id : Id) (u : ProjectUpdate) :
    ∃ after, db.run enforced (.updateProject id u) =
        .ok ⟨after, (c.projects.filter (Row.isProject id)).map fun row => .ok (row.setAll u.entries),
          (c.projects.filter (Row.isProject id)).length⟩ ∧
      after.Holds (c.assignProject id u) := by
  have stored : db.require .projects = .ok c.projects := holds.require (by decide)
  have select : meets [Condition.project id] = Row.isProject id := funext fun _ => meets_project id
  refine ⟨db.put .projects (some (c.assignProject id u).projects), ?_, holds.putProjects _⟩
  simp [run, Statement.updateProject, update, stored, bind, Except.bind, answer, Column.ofProject,
    select, Content.assignProject, Function.comp_def]

theorem run_updateRecord (holds : db.Holds c) (project id : Id) (u : RecordUpdate) :
    ∃ after, db.run enforced (.updateRecord project id u) =
        .ok ⟨after, [], (c.records.filter (Row.isRecord project id)).length⟩ ∧
      after.Holds (c.assignRecord project id u) := by
  have stored : db.require .records = .ok c.records := holds.require (by decide)
  refine ⟨db.put .records (some (c.assignRecord project id u).records), ?_, holds.putRecords _⟩
  have select : meets [.ofProject project, .equals .id (.id id)] = Row.isRecord project id :=
    funext fun _ => meets_record project id
  simp [run, Statement.updateRecord, update, stored, bind, Except.bind, answer, select,
    Content.assignRecord]

/-- A delete from the changes removes the rows that it picks and nothing else. -/
theorem run_deleteChanges (holds : db.Holds c) {conditions : List Condition} {p : Row → Bool}
    (picks : meets conditions = p) :
    ∃ after, db.run enforced (.delete .changes conditions) =
        .ok ⟨after, [], (c.changes.filter p).length⟩ ∧
      after.Holds { c with changes := c.changes.filter (!p ·) } := by
  have stored : db.require .changes = .ok c.changes := holds.require (by decide)
  refine ⟨db.put .changes (some (c.changes.filter (!p ·))), ?_, holds.putChanges _⟩
  simp [run, delete, stored, holds.parents, bind, Except.bind, picks]

/-- A delete from the records removes the rows that it picks and nothing else, once no change
refers to them. -/
theorem run_deleteRecords (holds : db.Holds c) {conditions : List Condition} {p : Row → Bool}
    (picks : meets conditions = p)
    (unreferred : ∀ change ∈ c.changes, ∀ r ∈ c.records, p r = true →
      refersTo [(.projectId, .projectId), (.recordId, .id)] change r = false) :
    ∃ after, db.run enforced (.delete .records conditions) =
        .ok ⟨after, [], (c.records.filter p).length⟩ ∧
      after.Holds { c with records := c.records.filter (!p ·) } := by
  have stored : db.require .records = .ok c.records := holds.require (by decide)
  have kept : c.changes.filter (fun change => !c.records.any fun r =>
      p r && refersTo [(.projectId, .projectId), (.recordId, .id)] change r) = c.changes := by
    refine List.filter_eq_self.mpr fun change mem => ?_
    rw [Bool.not_eq_true', List.any_eq_false]
    intro r stays gone
    obtain ⟨gone, refers⟩ := Bool.and_eq_true_iff.mp gone
    rw [unreferred change mem r stays gone] at refers
    contradiction
  have result := holds.putRecords (c.records.filter (!p ·))
  cases enforced with
  | false =>
    refine ⟨db.put .records (some (c.records.filter (!p ·))), ?_, result⟩
    simp [run, delete, stored, holds.parents, bind, Except.bind, picks]
  | true =>
    refine ⟨(db.put .records (some (c.records.filter (!p ·)))).put .changes (some c.changes), ?_,
      result.putChanges _⟩
    simp [run, delete, stored, holds.parents, bind, Except.bind, picks, cascade,
      holds.rows?, Content.rows, parent?, kept]

/-- A delete of a project removes its row and nothing else, once it has no records. -/
theorem run_deleteProject (holds : db.Holds c) (id : Id)
    (unreferred : ∀ r ∈ c.records, r.isOf id = false) :
    ∃ after, db.run enforced (.deleteProject id) =
        .ok ⟨after, [], (c.projects.filter (Row.isProject id)).length⟩ ∧
      after.Holds { c with projects := c.projects.filter (!Row.isProject id ·) } := by
  have stored : db.require .projects = .ok c.projects := holds.require (by decide)
  have select : meets [Condition.project id] = Row.isProject id := funext fun _ => meets_project id
  have free : (db.put .projects (some (c.projects.filter (!Row.isProject id ·)))).isReferred
      .records (c.projects.filter (Row.isProject id)) = false := by
    simp only [isReferred, rows?_put, reduceCtorEq, if_false, holds.rows? (t := .records) (by decide),
      parent?]
    rw [List.any_eq_false]
    intro r mem
    rw [Bool.not_eq_true, List.any_eq_false]
    intro owner gone
    have name : owner.get .id = .text id.text := by
      simpa [Row.isProject] using (List.mem_filter.mp gone).2
    have other := unreferred r mem
    simp only [Row.isOf, decide_eq_false_iff_not] at other
    simp [refersTo, name, other]
  refine ⟨db.put .projects (some (c.projects.filter (!Row.isProject id ·))), ?_,
    holds.putProjects _⟩
  simp [run, Statement.deleteProject, delete, stored, holds.parents, bind, Except.bind, select,
    free]

end Database

end AuditTrail.Embedded
