import AuditTrail.Proofs.Embedded.Refinement
import AuditTrail.Proofs.Embedded.Step

/-! Keys stay unique whatever is asked of a store. Rows are added where no row has their key, and
nothing that is written to a row that stays belongs to a key. -/
namespace AuditTrail.Embedded

namespace Row

variable {row a b : Row} {column : Column}

/-- No update changes what belongs to the key of a table. -/
theorem get_assignRecord (p : Row → Bool) {u : RecordUpdate} (kept : u.writes column = false) :
    (if p row then row.setAll u.entries else row).get column = row.get column := by
  split
  · exact get_setAll_of_not_writes row kept
  · rfl

theorem get_assignProject (p : Row → Bool) (u : ProjectUpdate)
    (kept : column ∉ [Column.displayName, .updateRecords, .deleteRecords]) :
    (if p row then row.setAll u.entries else row).get column = row.get column := by
  split
  · refine get_setAll_of_notMem fun mem => kept ?_
    simpa using ProjectUpdate.column_of_mem mem
  · rfl

theorem agree_congr {key : List Column} {f : Row → Row} (kept : ∀ c ∈ key, ∀ row : Row,
    (f row).get c = row.get c) : agree key (f a) (f b) = agree key a b := by
  rw [Bool.eq_iff_iff, agree_iff, agree_iff]
  refine forall₂_congr fun c mem => ?_
  rw [kept c mem a, kept c mem b]

end Row

namespace Content

/-- No two rows of a table share its key. -/
def Keyed (c : Content) : Prop :=
  ∀ t, (c.rows t).Pairwise fun a b => Row.agree (keyOf t) a b = false

variable {c d : Content} {r : Request}

/-! The keys of the rows that are added -/

theorem id_projectRow (p : Project) (number : Nat) :
    (projectRow p number).get .id = .text p.id.text := by
  rw [projectRow, Row.get_set]
  rfl

@[simp] theorem projectId_recordRow (project : Id) (createTime : Instant) (r : Record) :
    (recordRow project createTime r).get .projectId = .text project.text := rfl

@[simp] theorem id_recordRow (project : Id) (createTime : Instant) (r : Record) :
    (recordRow project createTime r).get .id = .text r.id.text := rfl

theorem isRecord_recordRow (project : Id) (createTime : Instant) (r : Record) (id : Id) :
    (recordRow project createTime r).isRecord project id = decide (r.id = id) := by
  simp [Row.isRecord, Row.isOf]

theorem isRecord_recordRow_self (project : Id) (createTime : Instant) (r : Record) :
    (recordRow project createTime r).isRecord project r.id = true :=
  (isRecord_recordRow project createTime r r.id).trans (decide_eq_true rfl)

theorem isChange_of_mem_changeRows {project record : Id} {changes : List Change} {row : Row} :
    ∀ {n : Nat}, row ∈ changeRows project record n changes → row.isChange project record = true := by
  induction changes with
  | nil =>
    intro n mem
    contradiction
  | cons change rest ih =>
    intro n mem
    rcases List.mem_cons.mp mem with rfl | mem
    · simp [Row.isChange, Row.isOf, changeRow, Row.ofEntries, Row.get, Value.cell]
    · exact ih mem

theorem exists_of_mem_batchChanges {project : Id} {batch : List Record} {row : Row}
    (mem : row ∈ batchChanges project batch) : ∃ b ∈ batch, row.isChange project b.id = true := by
  obtain ⟨b, batched, change⟩ := List.mem_flatMap.mp mem
  exact ⟨b, batched, isChange_of_mem_changeRows change⟩

/-! The keys of a table -/

theorem pairwise_of_admits {key : List Column} {old new : List Row}
    (apart : old.Pairwise fun a b => Row.agree key a b = false)
    (admitted : admits key old new = true) :
    (old ++ new).Pairwise fun a b => Row.agree key a b = false := by
  induction new generalizing old with
  | nil => rwa [List.append_nil]
  | cons row rest ih =>
    simp only [admits, Bool.and_eq_true, Bool.not_eq_true', List.any_eq_false] at admitted
    obtain ⟨fresh, later⟩ := admitted
    rw [← List.singleton_append, ← List.append_assoc]
    refine ih (List.pairwise_append.mpr ⟨apart, List.pairwise_singleton _ _, ?_⟩) later
    intro a mem b same
    rw [List.mem_singleton.mp same, Row.agree_comm, ← Bool.not_eq_true]
    exact fresh a mem

theorem pairwise_map {key : List Column} {f : Row → Row} {rows : List Row}
    (kept : ∀ c ∈ key, ∀ row : Row, (f row).get c = row.get c)
    (apart : rows.Pairwise fun a b => Row.agree key a b = false) :
    (rows.map f).Pairwise fun a b => Row.agree key a b = false :=
  List.pairwise_map.mpr (apart.imp fun h => (Row.agree_congr kept).trans h)

/-- In a table with a key, rows that agree on the key are one row. -/
theorem eq_of_agree {key : List Column} {rows : List Row} {a b : Row}
    (apart : rows.Pairwise fun a b => Row.agree key a b = false) (aMem : a ∈ rows) (bMem : b ∈ rows)
    (agree : Row.agree key a b = true) : a = b := by
  induction apart with
  | nil => contradiction
  | cons fresh _ ih =>
    rcases List.mem_cons.mp aMem with rfl | aRest <;> rcases List.mem_cons.mp bMem with rfl | bRest
    · rfl
    · rw [fresh b bRest] at agree
      contradiction
    · rw [Row.agree_comm, fresh a aRest] at agree
      contradiction
    · exact ih aRest bRest

theorem Keyed.eq_of_isRecord (keyed : c.Keyed) {project id : Id} {a b : Row} (aMem : a ∈ c.records)
    (bMem : b ∈ c.records) (ha : a.isRecord project id = true) (hb : b.isRecord project id = true) :
    a = b := by
  refine eq_of_agree (keyed .records) aMem bMem (Row.agree_iff.mpr ?_)
  simp only [Row.isRecord, Row.isOf, Bool.and_eq_true, decide_eq_true_eq] at ha hb
  simp [keyOf, ha, hb]

theorem Keyed.eq_of_isProject (keyed : c.Keyed) {id : Id} {a b : Row} (aMem : a ∈ c.projects)
    (bMem : b ∈ c.projects) (ha : a.isProject id = true) (hb : b.isProject id = true) : a = b := by
  refine eq_of_agree (keyed .projects) aMem bMem (Row.agree_iff.mpr ?_)
  simp only [Row.isProject, decide_eq_true_eq] at ha hb
  simp [keyOf, ha, hb]

/-- A condition that fixes the key picks one row at most. -/
theorem filter_eq_toList_find? {key : List Column} {pick : Row → Bool} {rows : List Row}
    (apart : rows.Pairwise fun a b => Row.agree key a b = false)
    (fixed : ∀ a b : Row, pick a = true → pick b = true → Row.agree key a b = true) :
    rows.filter pick = (rows.find? pick).toList := by
  induction apart with
  | nil => rfl
  | @cons row rest fresh _ ih =>
    cases picked : pick row with
    | false => simpa [picked] using ih
    | true =>
      have none : rest.filter pick = [] := by
        refine List.filter_eq_nil_iff.mpr fun other mem again => ?_
        have agree := fixed row other picked again
        rw [fresh other mem] at agree
        contradiction
      simp [picked, none]

theorem Keyed.filter_isProject (keyed : c.Keyed) (id : Id) :
    c.projects.filter (Row.isProject id) = (c.projects.find? (Row.isProject id)).toList := by
  refine filter_eq_toList_find? (keyed .projects) fun a b ha hb => ?_
  simp only [Row.isProject, decide_eq_true_eq] at ha hb
  simp [Row.agree_iff, keyOf, ha, hb]

/-- Only the keys of a table that changes have to be looked at. -/
theorem Keyed.replace {t : Table} (keyed : c.Keyed)
    (apart : (d.rows t).Pairwise fun a b => Row.agree (keyOf t) a b = false)
    (others : ∀ u, u ≠ t → d.rows u = c.rows u) : d.Keyed := by
  intro u
  by_cases same : u = t
  · rwa [same]
  · rw [others u same]
    exact keyed u

theorem Keyed.addRecords (keyed : c.Keyed) {rows : List Row} (added : c.addRecords rows = .ok d) :
    d.Keyed := by
  obtain ⟨admitted, rfl⟩ := addRecords_eq_ok added
  refine keyed.replace (pairwise_of_admits (keyed .records) admitted) ?_
  rintro (_ | _ | _ | _) other <;> first | rfl | contradiction

theorem Keyed.addChanges (keyed : c.Keyed) {rows : List Row} (added : c.addChanges rows = .ok d) :
    d.Keyed := by
  obtain ⟨admitted, rfl⟩ := addChanges_eq_ok added
  refine keyed.replace (pairwise_of_admits (keyed .changes) admitted) ?_
  rintro (_ | _ | _ | _) other <;> first | rfl | contradiction

theorem Keyed.addProject (keyed : c.Keyed) {p : Project} (absent : c.hasProject p.id = false) :
    (c.addProject p).Keyed := by
  refine keyed.replace (t := .projects)
    (List.pairwise_append.mpr ⟨keyed .projects, List.pairwise_singleton _ _, ?_⟩) ?_
  · intro a mem b same
    rw [List.mem_singleton.mp same, ← Bool.not_eq_true, Row.agree_iff]
    intro clash
    have own : a.isProject p.id = true := by
      simp [Row.isProject, clash .id (by decide), id_projectRow]
    simp [List.any_eq_false.mp absent a mem] at own
  · rintro (_ | _ | _ | _) other <;> first | rfl | contradiction

theorem Keyed.assignProject (keyed : c.Keyed) (id : Id) (u : ProjectUpdate) :
    (c.assignProject id u).Keyed := by
  refine keyed.replace (t := .projects) (pairwise_map (fun c mem row => ?_) (keyed .projects)) ?_
  · obtain rfl := List.mem_singleton.mp mem
    exact Row.get_assignProject _ u (by decide)
  · rintro (_ | _ | _ | _) other <;> first | rfl | contradiction

theorem Keyed.assignRecord (keyed : c.Keyed) (project id : Id) (u : RecordUpdate) :
    (c.assignRecord project id u).Keyed := by
  refine keyed.replace (t := .records) (pairwise_map (fun c mem row => ?_) (keyed .records)) ?_
  · rcases List.mem_cons.mp mem with rfl | mem
    · exact Row.get_assignRecord _ rfl
    · obtain rfl := List.mem_singleton.mp mem
      exact Row.get_assignRecord _ rfl
  · rintro (_ | _ | _ | _) other <;> first | rfl | contradiction

/-- Rows that are taken away leave the keys of the others apart. -/
theorem Keyed.sublist (keyed : c.Keyed) (fewer : ∀ t, (d.rows t).Sublist (c.rows t)) : d.Keyed :=
  fun t => (keyed t).sublist (fewer t)

theorem Keyed.removeChanges (keyed : c.Keyed) (project record : Id) :
    (c.removeChanges project record).Keyed := by
  refine keyed.sublist fun t => ?_
  cases t with
  | changes => exact List.filter_sublist
  | projects | records | version => exact .refl _

theorem Keyed.removeRecord (keyed : c.Keyed) (project id : Id) :
    (c.removeRecord project id).Keyed := by
  refine (keyed.removeChanges project id).sublist fun t => ?_
  cases t with
  | records => exact List.filter_sublist
  | projects | changes | version => exact .refl _

theorem Keyed.removeProject (keyed : c.Keyed) (id : Id) : (c.removeProject id).Keyed := by
  refine keyed.sublist fun t => ?_
  cases t with
  | projects | records | changes => exact List.filter_sublist
  | version => exact .refl _

theorem Keyed.assign (keyed : c.Keyed) (project id : Id) (u : RecordUpdate) :
    (c.assign project id u).Keyed := by
  have assigned := keyed.assignRecord project id u
  unfold Content.assign
  cases u.resource with
  | none => exact assigned
  | some r =>
    exact (assigned.removeChanges project id).addChanges
      (addChanges_removeChanges (c.assignRecord project id u) project id r.changes)

/-- Records that can be added together have identifiers of their own, which no record of the project
has had before. -/
theorem fresh_of_keyed {project : Id} {createTime : Instant} {batch : List Record} {old : List Row}
    (apart : (old ++ batch.map (recordRow project createTime)).Pairwise fun a b =>
      Row.agree (keyOf .records) a b = false) :
    (batch.map (·.id)).Nodup ∧ ∀ row ∈ old, ∀ b ∈ batch, row.isRecord project b.id = false := by
  obtain ⟨_, added, across⟩ := List.pairwise_append.mp apart
  constructor
  · refine List.pairwise_map.mpr ((List.pairwise_map.mp added).imp fun {a b} distinct same => ?_)
    rw [← Bool.not_eq_true, Row.agree_iff] at distinct
    refine distinct fun column mem => ?_
    rcases List.mem_cons.mp mem with rfl | mem
    · rw [projectId_recordRow, projectId_recordRow]
    · obtain rfl := List.mem_singleton.mp mem
      rw [id_recordRow, id_recordRow, same]
  · intro row mem b batched
    have distinct := across row mem _ (List.mem_map_of_mem batched)
    refine Bool.eq_false_iff.mpr fun own => ?_
    rw [← Bool.not_eq_true, Row.agree_iff] at distinct
    simp only [Row.isRecord, Row.isOf, Bool.and_eq_true, decide_eq_true_eq] at own
    refine distinct fun column mem => ?_
    rcases List.mem_cons.mp mem with rfl | mem
    · exact own.1
    · obtain rfl := List.mem_singleton.mp mem
      exact own.2

theorem Keyed.step (keyed : c.Keyed) (step : Step c r d) : d.Keyed := by
  cases step with
  | createProject absent => exact keyed.addProject absent
  | updateProject present => exact keyed.assignProject _ _
  | dropProject present => exact keyed.removeProject _
  | createRecords together present records changes =>
    exact (keyed.addRecords records).addChanges changes
  | updateRecord gate allowed present => exact keyed.assign _ _ _
  | deleteRecord gate allowed => exact keyed.removeRecord _ _

theorem Keyed.after (keyed : c.Keyed) (r : Request) : (c.after r).Keyed := by
  rcases after_cases c r with same | ⟨_, step⟩
  · rwa [same]
  · exact keyed.step step

theorem keyed_empty : Content.empty.Keyed := by
  intro t
  cases t <;> exact .nil

end Content

end AuditTrail.Embedded
