import AuditTrail.Proofs.Id.Text
import AuditTrail.Proofs.Statement
import AuditTrail.Embedded.Database

/-! Which rows the conditions of a store's statements pick out, and what assignments leave in a row.
Conditions compare whole texts, so the identifiers in a row decide alone. -/
namespace AuditTrail.Embedded

theorem Cell.equals_text (a : Cell) (s : String) : a.equals (.text s) = decide (a = .text s) := by
  by_cases same : a = .text s <;> simp [Cell.equals, same]

namespace Row

/-- Whether a row is that of a project. -/
def isProject (id : Id) (row : Row) : Bool :=
  row.get .id = .text id.text

/-- Whether a row belongs to a project. -/
def isOf (project : Id) (row : Row) : Bool :=
  row.get .projectId = .text project.text

/-- Whether a row is that of a record. -/
def isRecord (project id : Id) (row : Row) : Bool :=
  row.isOf project && row.get .id = .text id.text

/-- Whether a row is a change of a record. -/
def isChange (project record : Id) (row : Row) : Bool :=
  row.isOf project && row.get .recordId = .text record.text

variable {row a b : Row} {column : Column} {entries : List (Column × Value)}

theorem isOf_of_isRecord {project id : Id} (h : row.isRecord project id = true) :
    row.isOf project = true :=
  (Bool.and_eq_true_iff.mp h).1

theorem isOf_of_isChange {project record : Id} (h : row.isChange project record = true) :
    row.isOf project = true :=
  (Bool.and_eq_true_iff.mp h).1

theorem isOf_unique {p q : Id} (hp : row.isOf p = true) (hq : row.isOf q = true) : p = q := by
  simp only [isOf, decide_eq_true_eq] at hp hq
  exact Id.text_injective (Cell.text.inj (hp.symm.trans hq))

theorem isRecord_unique {p q i j : Id} (hi : row.isRecord p i = true)
    (hj : row.isRecord q j = true) : p = q ∧ i = j := by
  refine ⟨isOf_unique (isOf_of_isRecord hi) (isOf_of_isRecord hj), ?_⟩
  simp only [isRecord, Bool.and_eq_true, decide_eq_true_eq] at hi hj
  exact Id.text_injective (Cell.text.inj (hi.2.symm.trans hj.2))

theorem isChange_unique {p q i j : Id} (hi : row.isChange p i = true)
    (hj : row.isChange q j = true) : p = q ∧ i = j := by
  refine ⟨isOf_unique (isOf_of_isChange hi) (isOf_of_isChange hj), ?_⟩
  simp only [isChange, Bool.and_eq_true, decide_eq_true_eq] at hi hj
  exact Id.text_injective (Cell.text.inj (hi.2.symm.trans hj.2))

theorem agree_iff {key : List Column} : agree key a b = true ↔ ∀ c ∈ key, a.get c = b.get c := by
  simp [agree]

theorem agree_comm (key : List Column) (a b : Row) : agree key a b = agree key b a := by
  rw [Bool.eq_iff_iff, agree_iff, agree_iff]
  exact forall₂_congr fun c _ => eq_comm

theorem get_setAll_of_notMem (absent : column ∉ entries.map (·.1)) :
    (row.setAll entries).get column = row.get column := by
  induction entries generalizing row with
  | nil => rfl
  | cons e rest ih =>
    simp only [List.map_cons, List.mem_cons, not_or] at absent
    refine (ih absent.2).trans ?_
    rw [get_set, if_neg absent.1]

theorem get_setAll_of_mem {value : Value} (mem : (column, value) ∈ entries)
    (distinct : (entries.map (·.1)).Nodup) : (row.setAll entries).get column = value.cell := by
  induction entries generalizing row with
  | nil => contradiction
  | cons e rest ih =>
    rw [List.map_cons, List.nodup_cons] at distinct
    rcases List.mem_cons.mp mem with rfl | mem
    · refine (get_setAll_of_notMem distinct.1).trans ?_
      rw [get_set, if_pos rfl]
    · exact ih mem distinct.2

/-- An update of a record leaves every column that it does not select. -/
theorem get_setAll_of_not_writes (row : Row) {u : RecordUpdate} {column : Column}
    (kept : u.writes column = false) : (row.setAll u.entries).get column = row.get column :=
  get_setAll_of_notMem fun mem => by simp [RecordUpdate.writes_of_mem mem] at kept

@[simp] theorem isOf_setAll (row : Row) (u : RecordUpdate) (project : Id) :
    (row.setAll u.entries).isOf project = row.isOf project := by
  rw [isOf, get_setAll_of_not_writes row rfl]
  rfl

@[simp] theorem isRecord_setAll (row : Row) (u : RecordUpdate) (project id : Id) :
    (row.setAll u.entries).isRecord project id = row.isRecord project id := by
  rw [isRecord, isOf_setAll, get_setAll_of_not_writes row rfl]
  rfl

@[simp] theorem isProject_setAll (row : Row) (u : ProjectUpdate) (id : Id) :
    (row.setAll u.entries).isProject id = row.isProject id := by
  have kept : Column.id ∉ u.entries.map (·.1) := fun mem => by
    simpa using ProjectUpdate.column_of_mem mem
  simp [isProject, get_setAll_of_notMem kept]

end Row

variable {row : Row}

@[simp] theorem meets_project (id : Id) : meets [.project id] row = row.isProject id := by
  simp [meets, holds, Condition.project, Row.isProject, Value.cell, Cell.equals_text]

theorem holds_ofProject (project : Id) : holds row (.ofProject project) = row.isOf project := by
  simp [holds, Condition.ofProject, Row.isOf, Value.cell, Cell.equals_text]

@[simp] theorem meets_ofProject (project : Id) :
    meets [.ofProject project] row = row.isOf project := by
  simp [meets, holds_ofProject]

@[simp] theorem meets_record (project id : Id) :
    meets [.ofProject project, .equals .id (.id id)] row = row.isRecord project id := by
  simp [meets, holds, Condition.ofProject, Row.isRecord, Row.isOf, Value.cell, Cell.equals_text]

@[simp] theorem meets_changes (project record : Id) :
    meets [.ofProject project, .equals .recordId (.id record)] row
      = row.isChange project record := by
  simp [meets, holds, Condition.ofProject, Row.isChange, Row.isOf, Value.cell, Cell.equals_text]

theorem filter_filter_of_imp {p q : Row → Bool} (rows : List Row)
    (inside : ∀ row, p row = true → q row = true) : (rows.filter q).filter p = rows.filter p := by
  rw [List.filter_filter]
  refine List.filter_congr fun row _ => ?_
  cases picked : p row with
  | false => rfl
  | true => rw [inside row picked, Bool.and_self]

theorem meets_cons (c : Condition) (cs : List Condition) :
    meets (c :: cs) row = (holds row c && meets cs row) := rfl

/-- Rows that are judged by a test are those that pass it. -/
theorem filterMap_choose_of {cs : List Condition} {q : Row → Bool} {rows : List Row}
    (judged : ∀ row ∈ rows, choose cs row = if q row then some (.ok row) else none) :
    rows.filterMap (choose cs) = (rows.filter q).map .ok := by
  induction rows with
  | nil => rfl
  | cons row rest ih =>
    obtain ⟨first, others⟩ := List.forall_mem_cons.mp judged
    cases passed : q row <;> simp [first, passed, ih others]

/-- Without a condition on labels every row can be judged. -/
theorem choose_of_plain {cs : List Condition} (plain : cs.any isLabelled = false) (row : Row) :
    choose cs row = if meets cs row then some (.ok row) else none := by
  simp [choose, isUnreadable, plain]

theorem filterMap_choose {cs : List Condition} (plain : cs.any isLabelled = false)
    (rows : List Row) : rows.filterMap (choose cs) = (rows.filter (meets cs)).map .ok :=
  filterMap_choose_of fun row _ => choose_of_plain plain row

/-- Without an order rows stay in place. -/
theorem chosen_plain (columns : List Column) (t : Table) {cs : List Condition} (rows : List Row)
    (plain : cs.any isLabelled = false) :
    chosen (.plain columns t cs) rows = (rows.filter (meets cs)).map .ok :=
  filterMap_choose plain rows

end AuditTrail.Embedded
