import AuditTrail.Proofs.Embedded.Keys
import AuditTrail.Proofs.Embedded.Order
import AuditTrail.Proofs.Embedded.Reading

/-! The share that a project has in the tables: its own row, its records and their changes. Whatever
is read on behalf of a project is read from its share alone. The order of the rows in a table does not
matter, since every listing has a key that tells the rows of one project apart. -/
namespace AuditTrail.Embedded

/-- The cells that make up a project; its partition number is not among them. -/
def Row.projectCells (row : Row) : List Cell := Column.ofProject.map row.get

/-- Two contents in which a project has the same share. -/
structure SameFor (owner : Id) (c d : Content) : Prop where
  project : (c.projects.find? (Row.isProject owner)).map Row.projectCells
    = (d.projects.find? (Row.isProject owner)).map Row.projectCells
  records : (c.records.filter (Row.isOf owner)).Perm (d.records.filter (Row.isOf owner))
  changes : (c.changes.filter (Row.isOf owner)).Perm (d.changes.filter (Row.isOf owner))

variable {owner : Id} {c d : Content} {rows rows' : List Row} {p q : Row → Bool}

theorem SameFor.symm (same : SameFor owner c d) : SameFor owner d c :=
  ⟨same.project.symm, same.records.symm, same.changes.symm⟩

theorem SameFor.trans {e : Content} (first : SameFor owner c d) (second : SameFor owner d e) :
    SameFor owner c e :=
  ⟨first.project.trans second.project, first.records.trans second.records,
    first.changes.trans second.changes⟩

theorem get_of_projectCells {a b : Row} (same : a.projectCells = b.projectCells) :
    ∀ column ∈ Column.ofProject, a.get column = b.get column :=
  List.map_inj_left.mp same

/-! Conditions that only rows of a project meet see nothing but its share -/

theorem filter_perm_of_owned (share : (rows.filter q).Perm (rows'.filter q))
    (owned : ∀ row, p row = true → q row = true) : (rows.filter p).Perm (rows'.filter p) := by
  rw [← filter_filter_of_imp rows owned, ← filter_filter_of_imp rows' owned]
  exact share.filter p

theorem any_eq_of_owned (share : (rows.filter q).Perm (rows'.filter q))
    (owned : ∀ row, p row = true → q row = true) : rows.any p = rows'.any p := by
  have picked : ∀ l : List Row, l.any p = (l.filter p).any fun _ => true := by
    intro l
    rw [List.any_filter]
    simp
  rw [picked, picked]
  exact (filter_perm_of_owned share owned).any_eq

theorem find?_eq_of_owned (share : (rows.filter q).Perm (rows'.filter q))
    (owned : ∀ row, p row = true → q row = true)
    (unique : ∀ a ∈ rows, ∀ b ∈ rows, p a = true → p b = true → a = b) :
    rows.find? p = rows'.find? p := by
  have picked : (arrange [] rows).filter p = (arrange [] rows').filter p := by
    refine filter_arrange_congr (filter_perm_of_owned share owned) fun a aMem b bMem _ => ?_
    obtain ⟨aMem, ha⟩ := List.mem_filter.mp aMem
    obtain ⟨bMem, hb⟩ := List.mem_filter.mp bMem
    exact unique a aMem b bMem ha hb
  rw [← List.head?_filter, ← List.head?_filter]
  exact congrArg List.head? picked

/-- Rows that no condition can pick need not be looked at. -/
theorem filterMap_filter_of_owned {cs : List Condition}
    (owned : ∀ row, q row = false → choose cs row = none) (l : List Row) :
    (l.filter q).filterMap (choose cs) = l.filterMap (choose cs) := by
  induction l with
  | nil => rfl
  | cons row rest ih =>
    cases own : q row with
    | true => simp only [List.filter_cons, own, if_true, List.filterMap_cons, ih]
    | false => simp [own, ih, owned row own]

theorem chosen_eq_of_owned (s : Selection) (share : (rows.filter q).Perm (rows'.filter q))
    (owned : ∀ row, q row = false → choose s.conditions row = none)
    (apart : ∀ a ∈ rows.filter q, ∀ b ∈ rows.filter q,
      (∀ k ∈ s.order, a.get k.column = b.get k.column) → a = b) :
    chosen s rows = chosen s rows' := by
  rw [chosen, chosen, ← filterMap_filter_of_owned owned (arrange s.order rows),
    ← filterMap_filter_of_owned owned (arrange s.order rows'), filter_arrange_congr share apart]

theorem meets_ofProject_cons {cs : List Condition} {row : Row} (other : row.isOf owner = false) :
    meets (.ofProject owner :: cs) row = false := by
  rw [meets_cons, holds_ofProject, other, Bool.false_and]

/-- A condition on the project is looked at before any labels are. -/
theorem choose_other {cs : List Condition} {row : Row} (other : row.isOf owner = false) :
    choose (.ofProject owner :: cs) row = none := by
  have readable : isUnreadable (.ofProject owner :: cs) row = false := by
    have kept : (Condition.ofProject owner :: cs).filter (!isLabelled ·)
        = .ofProject owner :: cs.filter (!isLabelled ·) := rfl
    rw [isUnreadable, kept, meets_ofProject_cons other, Bool.and_false]
  rw [choose, readable, meets_ofProject_cons other]
  rfl

/-- An order that covers the key of a table, but for the project, tells the rows of a project
apart. -/
theorem eq_of_order (keyed : c.Keyed) (t : Table) {order : List SortKey}
    (covered : ∀ column ∈ keyOf t, column = .projectId ∨ column ∈ order.map (·.column)) :
    ∀ a ∈ (c.rows t).filter (Row.isOf owner), ∀ b ∈ (c.rows t).filter (Row.isOf owner),
      (∀ k ∈ order, a.get k.column = b.get k.column) → a = b := by
  intro a aMem b bMem agree
  obtain ⟨aMem, ha⟩ := List.mem_filter.mp aMem
  obtain ⟨bMem, hb⟩ := List.mem_filter.mp bMem
  refine Content.eq_of_agree (keyed t) aMem bMem (Row.agree_iff.mpr fun column mem => ?_)
  rcases covered column mem with rfl | mem
  · simp only [Row.isOf, decide_eq_true_eq] at ha hb
    rw [ha, hb]
  · obtain ⟨k, sorted, rfl⟩ := List.mem_map.mp mem
    exact agree k sorted

/-! What two contents tell a project -/

namespace SameFor

variable (same : SameFor owner c d)
include same

theorem hasProject : c.hasProject owner = d.hasProject owner := by
  have found := congrArg Option.isSome same.project
  rwa [Option.isSome_map, Option.isSome_map, List.isSome_find?, List.isSome_find?] at found

theorem requireProject : c.requireProject owner = d.requireProject owner := by
  rw [Content.requireProject, Content.requireProject, same.hasProject]

/-- Either no project is there on both sides, or two rows that are read alike. -/
theorem find?_project :
    (c.projects.find? (Row.isProject owner) = none ∧
      d.projects.find? (Row.isProject owner) = none) ∨
    ∃ a b, c.projects.find? (Row.isProject owner) = some a ∧
      d.projects.find? (Row.isProject owner) = some b ∧ a.projectCells = b.projectCells := by
  have project := same.project
  cases left : c.projects.find? (Row.isProject owner) <;>
    cases right : d.projects.find? (Row.isProject owner) <;> rw [left, right] at project
  · exact .inl ⟨rfl, rfl⟩
  · contradiction
  · contradiction
  · exact .inr ⟨_, _, rfl, rfl, Option.some.inj project⟩

theorem readProject : c.readProject owner = d.readProject owner := by
  unfold Content.readProject
  rcases same.find?_project with ⟨left, right⟩ | ⟨a, b, left, right, alike⟩
  · rw [left, right]
  · simp only [left, right, Reader.project_congr (get_of_projectCells alike)]

theorem hasRecord (id : Id) : c.hasRecord owner id = d.hasRecord owner id :=
  any_eq_of_owned same.records fun _ => Row.isOf_of_isRecord

variable (keyed : c.Keyed)
include keyed

theorem find?_record (id : Id) :
    c.records.find? (Row.isRecord owner id) = d.records.find? (Row.isRecord owner id) :=
  find?_eq_of_owned same.records (fun _ => Row.isOf_of_isRecord) fun _ aMem _ bMem =>
    keyed.eq_of_isRecord aMem bMem

theorem readChanges (ids : List Id) : c.readChanges owner ids = d.readChanges owner ids := by
  have found : chosen (.changes owner ids) c.changes = chosen (.changes owner ids) d.changes :=
    chosen_eq_of_owned _ same.changes (fun _ => choose_other)
      (eq_of_order keyed .changes (by simp [keyOf, Selection.changes]))
  rw [Content.readChanges, Content.readChanges, found]

theorem readRecord (id : Id) : c.readRecord owner id = d.readRecord owner id := by
  unfold Content.readRecord
  rw [same.find?_record keyed id, same.readChanges keyed [id]]

theorem chosen_records (filter : RecordFilter) (limit : Nat) (key : Option (Instant × Id)) :
    chosen (.records owner filter limit key) c.records
      = chosen (.records owner filter limit key) d.records :=
  chosen_eq_of_owned _ same.records (fun _ => choose_other)
    (eq_of_order keyed .records (by simp [keyOf, Selection.records]))

end SameFor

end AuditTrail.Embedded
