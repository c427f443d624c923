import AuditTrail.Proofs.Embedded.Keys
import AuditTrail.Proofs.Embedded.Reachable

/-! What every reachable content of a store satisfies: keys are unique, every row finds the row that
it belongs to, and the changes of a record are numbered from zero without a gap. The operations see to
that alone, each by the order of its own statements. -/
namespace AuditTrail.Embedded

namespace Row

/-- Whether a change is one of a record. -/
def concerns (record change : Row) : Bool :=
  change.get .projectId = record.get .projectId && change.get .recordId = record.get .id

/-- The positions of rows are the numbers from zero on, each of them once. -/
def Numbered (rows : List Row) : Prop :=
  (rows.map (·.get .position)).Perm ((List.range rows.length).map fun n => .integer n)

variable {row record change : Row} {project id : Id}

theorem concerns_eq (own : record.isRecord project id = true) :
    record.concerns change = change.isChange project id := by
  simp only [isRecord, isOf, Bool.and_eq_true, decide_eq_true_eq] at own
  simp only [concerns, isChange, isOf, own.1, own.2]

theorem concerns_congr {record' : Row} (project : record'.get .projectId = record.get .projectId)
    (id : record'.get .id = record.get .id) : record'.concerns = record.concerns := by
  funext change
  simp only [concerns, project, id]

theorem isOf_eq (concerned : record.concerns change = true) (project : Id) :
    change.isOf project = record.isOf project := by
  simp only [concerns, Bool.and_eq_true, decide_eq_true_eq] at concerned
  simp only [isOf, concerned.1]

theorem isChange_eq (concerned : record.concerns change = true) (project id : Id) :
    change.isChange project id = record.isRecord project id := by
  rw [isChange, isRecord, isOf_eq concerned]
  simp only [concerns, Bool.and_eq_true, decide_eq_true_eq] at concerned
  rw [concerned.2]

end Row

namespace Content

/-- Keys are unique, rows belong to rows that are there, and changes are numbered. -/
structure Sound (c : Content) : Prop where
  keyed : c.Keyed
  records_owned : ∀ r ∈ c.records, ∃ p ∈ c.projects, r.get .projectId = p.get .id
  changes_owned : ∀ ch ∈ c.changes, ∃ r ∈ c.records, r.concerns ch = true
  numbered : ∀ r ∈ c.records, Row.Numbered (c.changes.filter r.concerns)

theorem sound_empty : Content.empty.Sound :=
  ⟨keyed_empty, by simp [Content.empty], by simp [Content.empty], by simp [Content.empty]⟩

/-! The changes that are added for a record -/

theorem position_changeRows (project record : Id) (changes : List Change) :
    ∀ n, (changeRows project record n changes).map (·.get .position) =
      (List.range' n changes.length).map fun k => .integer k := by
  induction changes with
  | nil => intro n; rfl
  | cons change rest ih =>
    intro n
    simp only [changeRows, List.map_cons, ih, List.length_cons, List.range'_succ]
    rfl

theorem length_changeRows (project record : Id) (changes : List Change) :
    ∀ n, (changeRows project record n changes).length = changes.length := by
  induction changes with
  | nil => intro n; rfl
  | cons change rest ih => intro n; simp only [changeRows, List.length_cons, ih]

theorem numbered_changeRows (project record : Id) (changes : List Change) :
    Row.Numbered (changeRows project record 0 changes) := by
  rw [Row.Numbered, position_changeRows, length_changeRows, List.range_eq_range']

theorem filter_changeRows {project record : Id} {changes : List Change} {n : Nat} {r : Row}
    (own : r.isRecord project record = true) :
    (changeRows project record n changes).filter r.concerns = changeRows project record n changes :=
  List.filter_eq_self.mpr fun _ mem =>
    (Row.concerns_eq own).trans (isChange_of_mem_changeRows mem)

theorem filter_changeRows_other {project record : Id} {changes : List Change} {n : Nat} {r : Row}
    (other : r.isRecord project record = false) :
    (changeRows project record n changes).filter r.concerns = [] := by
  refine List.filter_eq_nil_iff.mpr fun ch mem concerned => ?_
  rw [← Row.isChange_eq concerned, isChange_of_mem_changeRows mem] at other
  contradiction

/-- Of the changes of a batch, those that concern a record of it are the record's own. -/
theorem filter_batchChanges {project : Id} {createTime : Instant} {batch : List Record} {b : Record}
    (distinct : (batch.map (·.id)).Nodup) (mem : b ∈ batch) :
    (batchChanges project batch).filter (recordRow project createTime b).concerns
      = changeRows project b.id 0 b.resource.changes := by
  have own (x : Record) := isRecord_recordRow project createTime b x.id
  have apart : ∀ rest : List Record, b.id ∉ rest.map (·.id) →
      (batchChanges project rest).filter (recordRow project createTime b).concerns = [] := by
    intro rest absent
    rw [batchChanges, List.filter_flatMap, List.flatMap_eq_nil_iff]
    intro x mem
    refine filter_changeRows_other ((own x).trans (decide_eq_false fun same => absent ?_))
    exact List.mem_map.mpr ⟨x, mem, same.symm⟩
  induction batch with
  | nil => contradiction
  | cons x rest ih =>
    obtain ⟨fresh, distinct⟩ := List.nodup_cons.mp distinct
    rw [batchChanges, List.flatMap_cons, List.filter_append]
    rcases List.mem_cons.mp mem with rfl | mem
    · rw [filter_changeRows (isRecord_recordRow_self project createTime b), ← batchChanges,
        apart rest fresh, List.append_nil]
    · have other : b.id ≠ x.id := fun same => fresh (List.mem_map.mpr ⟨b, mem, same⟩)
      rw [filter_changeRows_other ((own x).trans (decide_eq_false other)), List.nil_append]
      exact ih distinct mem

/-! What one change of the rows preserves -/

variable {c d : Content} {r : Request}

theorem Sound.addProject (sound : c.Sound) {p : Project} (absent : c.hasProject p.id = false) :
    (c.addProject p).Sound where
  keyed := sound.keyed.addProject absent
  records_owned := by
    intro row mem
    obtain ⟨owner, present, same⟩ := sound.records_owned row mem
    exact ⟨owner, List.mem_append_left _ present, same⟩
  changes_owned := sound.changes_owned
  numbered := sound.numbered

theorem Sound.assignProject (sound : c.Sound) (id : Id) (u : ProjectUpdate) :
    (c.assignProject id u).Sound where
  keyed := sound.keyed.assignProject id u
  records_owned := by
    intro row mem
    obtain ⟨owner, present, same⟩ := sound.records_owned row mem
    refine ⟨_, List.mem_map_of_mem present, ?_⟩
    rw [Row.get_assignProject _ _ (by decide), same]
  changes_owned := sound.changes_owned
  numbered := sound.numbered

/-- With a project all its records go, and with them all of their changes. -/
theorem Sound.removeProject (sound : c.Sound) (id : Id) : (c.removeProject id).Sound where
  keyed := sound.keyed.removeProject id
  records_owned := by
    intro row mem
    obtain ⟨mem, other⟩ := List.mem_filter.mp mem
    obtain ⟨owner, present, same⟩ := sound.records_owned row mem
    refine ⟨owner, List.mem_filter.mpr ⟨present, ?_⟩, same⟩
    rwa [Row.isProject, ← same]
  changes_owned := by
    intro ch mem
    obtain ⟨mem, other⟩ := List.mem_filter.mp mem
    obtain ⟨row, present, concerned⟩ := sound.changes_owned ch mem
    refine ⟨row, List.mem_filter.mpr ⟨present, ?_⟩, concerned⟩
    rwa [← Row.isOf_eq concerned]
  numbered := by
    intro row mem
    obtain ⟨mem, other⟩ := List.mem_filter.mp mem
    have same : (c.removeProject id).changes.filter row.concerns
        = c.changes.filter row.concerns :=
      filter_filter_of_imp _ fun ch concerned => by rwa [Row.isOf_eq concerned]
    rw [same]
    exact sound.numbered row mem

theorem Sound.assignRecord (sound : c.Sound) (project id : Id) (u : RecordUpdate) :
    (c.assignRecord project id u).Sound := by
  have concerns (row : Row) :
      (if row.isRecord project id then row.setAll u.entries else row).concerns = row.concerns :=
    Row.concerns_congr (Row.get_assignRecord _ rfl) (Row.get_assignRecord _ rfl)
  refine ⟨sound.keyed.assignRecord project id u, ?_, ?_, ?_⟩
  · intro row mem
    obtain ⟨old, stored, rfl⟩ := List.mem_map.mp mem
    rw [Row.get_assignRecord _ rfl]
    exact sound.records_owned old stored
  · intro ch mem
    obtain ⟨row, present, concerned⟩ := sound.changes_owned ch mem
    exact ⟨_, List.mem_map_of_mem present, (congrFun (concerns row) ch).trans concerned⟩
  · intro row mem
    obtain ⟨old, stored, rfl⟩ := List.mem_map.mp mem
    rw [concerns]
    exact sound.numbered old stored

/-- The changes that stay are those of the other records. -/
theorem filter_removeChanges {project id : Id} {row : Row} (other : row.isRecord project id = false) :
    (c.removeChanges project id).changes.filter row.concerns = c.changes.filter row.concerns :=
  filter_filter_of_imp _ fun ch concerned => by
    rw [Row.isChange_eq concerned, other]
    rfl

theorem filter_removeChanges_own {project id : Id} {row : Row}
    (own : row.isRecord project id = true) :
    (c.removeChanges project id).changes.filter row.concerns = [] := by
  refine List.filter_eq_nil_iff.mpr fun ch mem concerned => ?_
  have gone := (List.mem_filter.mp mem).2
  rw [Row.isChange_eq concerned, own] at gone
  contradiction

theorem Sound.replaceChanges (sound : c.Sound) {project id : Id}
    (present : c.hasRecord project id = true) (changes : List Change) :
    (c.replaceChanges project id changes).Sound where
  keyed := (sound.keyed.removeChanges project id).addChanges
    (addChanges_removeChanges c project id changes)
  records_owned := sound.records_owned
  changes_owned := by
    intro ch mem
    rcases List.mem_append.mp mem with mem | mem
    · exact sound.changes_owned ch (List.mem_filter.mp mem).1
    · obtain ⟨row, mem', own⟩ := List.any_eq_true.mp present
      exact ⟨row, mem', (Row.concerns_eq own).trans (isChange_of_mem_changeRows mem)⟩
  numbered := by
    intro row mem
    rw [Content.replaceChanges, List.filter_append]
    cases own : row.isRecord project id with
    | true =>
      rw [filter_removeChanges_own own, filter_changeRows own]
      exact numbered_changeRows project id changes
    | false =>
      rw [filter_removeChanges own, filter_changeRows_other own, List.append_nil]
      exact sound.numbered row mem

theorem Sound.assign (sound : c.Sound) {project id : Id} (present : c.hasRecord project id = true)
    (u : RecordUpdate) : (c.assign project id u).Sound := by
  have assigned := sound.assignRecord project id u
  unfold Content.assign
  cases u.resource with
  | none => exact assigned
  | some resource =>
    refine assigned.replaceChanges ?_ resource.changes
    rwa [hasRecord_assignRecord]

/-- A change that stays is one of a record that stays. -/
theorem Sound.removeRecord (sound : c.Sound) (project id : Id) :
    (c.removeRecord project id).Sound where
  keyed := sound.keyed.removeRecord project id
  records_owned := fun row mem => sound.records_owned row (List.mem_filter.mp mem).1
  changes_owned := by
    intro ch mem
    obtain ⟨mem, other⟩ := List.mem_filter.mp mem
    obtain ⟨row, present, concerned⟩ := sound.changes_owned ch mem
    refine ⟨row, List.mem_filter.mpr ⟨present, ?_⟩, concerned⟩
    rwa [← Row.isChange_eq concerned]
  numbered := by
    intro row mem
    obtain ⟨mem, other⟩ := List.mem_filter.mp mem
    have stays : row.isRecord project id = false := by simpa using other
    rw [Content.removeRecord]
    simp only [filter_removeChanges stays]
    exact sound.numbered row mem

/-- A record that is already there gets none of the changes of a batch. -/
theorem filter_batchChanges_old {project : Id} {batch : List Record} {row : Row}
    (fresh : ∀ b ∈ batch, row.isRecord project b.id = false) :
    (batchChanges project batch).filter row.concerns = [] := by
  refine List.filter_eq_nil_iff.mpr fun ch mem concerned => ?_
  obtain ⟨b, batched, own⟩ := exists_of_mem_batchChanges mem
  rw [Row.isChange_eq concerned, fresh b batched] at own
  contradiction

/-- No change that is already there concerns a record that has just been added. -/
theorem Sound.filter_changes_new (sound : c.Sound) {project : Id} (createTime : Instant) {b : Record}
    (fresh : ∀ row ∈ c.records, row.isRecord project b.id = false) :
    c.changes.filter (recordRow project createTime b).concerns = [] := by
  refine List.filter_eq_nil_iff.mpr fun ch mem concerned => ?_
  obtain ⟨row, stored, belongs⟩ := sound.changes_owned ch mem
  have own := isRecord_recordRow_self project createTime b
  rw [← Row.isChange_eq concerned, Row.isChange_eq belongs, fresh row stored] at own
  contradiction

theorem Sound.addBatch (sound : c.Sound) {project : Id} {createTime : Instant}
    {batch : List Record} {e : Content} (present : c.hasProject project = true)
    (records : c.addRecords (batch.map (recordRow project createTime)) = .ok d)
    (changes : d.addChanges (batchChanges project batch) = .ok e) : e.Sound := by
  have keyed := (sound.keyed.addRecords records).addChanges changes
  obtain ⟨_, rfl⟩ := addRecords_eq_ok records
  obtain ⟨_, rfl⟩ := addChanges_eq_ok changes
  obtain ⟨distinct, fresh⟩ := fresh_of_keyed (keyed .records)
  refine ⟨keyed, ?_, ?_, ?_⟩
  · intro row mem
    rcases List.mem_append.mp mem with mem | mem
    · exact sound.records_owned row mem
    · obtain ⟨b, _, rfl⟩ := List.mem_map.mp mem
      obtain ⟨owner, mem, own⟩ := List.any_eq_true.mp present
      refine ⟨owner, mem, ?_⟩
      simp only [Row.isProject, decide_eq_true_eq] at own
      rw [own, projectId_recordRow]
  · intro ch mem
    rcases List.mem_append.mp mem with mem | mem
    · obtain ⟨row, stored, concerned⟩ := sound.changes_owned ch mem
      exact ⟨row, List.mem_append_left _ stored, concerned⟩
    · obtain ⟨b, mem, own⟩ := exists_of_mem_batchChanges mem
      refine ⟨_, List.mem_append_right _ (List.mem_map_of_mem mem), ?_⟩
      rwa [Row.concerns_eq (isRecord_recordRow_self project createTime b)]
  · intro row mem
    rw [List.filter_append]
    rcases List.mem_append.mp mem with mem | mem
    · rw [filter_batchChanges_old (fresh row mem), List.append_nil]
      exact sound.numbered row mem
    · obtain ⟨b, batched, rfl⟩ := List.mem_map.mp mem
      rw [sound.filter_changes_new createTime fun row stored => fresh row stored b batched,
        List.nil_append, filter_batchChanges distinct batched]
      exact numbered_changeRows project b.id b.resource.changes

theorem Sound.step (sound : c.Sound) (step : Step c r d) : d.Sound := by
  cases step with
  | createProject absent => exact sound.addProject absent
  | updateProject present => exact sound.assignProject _ _
  | dropProject present => exact sound.removeProject _
  | createRecords together present records changes => exact sound.addBatch present records changes
  | updateRecord gate allowed present => exact sound.assign present _
  | deleteRecord gate allowed => exact sound.removeRecord _ _

theorem Sound.after (sound : c.Sound) (r : Request) : (c.after r).Sound := by
  rcases after_cases c r with same | ⟨_, step⟩
  · rwa [same]
  · exact sound.step step

end Content

theorem Reachable.sound {s : Session} (reached : Reachable s) : s.content.Sound :=
  reached.invariant Content.sound_empty fun _ r sound => sound.after r

/-- Whatever the settings ask for and whatever the engine enforces: requests to an empty database that
has just been opened get the same replies and lead to the same rows, which are sound. -/
theorem enforcement_decides_nothing {place place' : EmbeddedPlace} {s t : Session}
    (left : openStore place true (some .empty) = .ok s)
    (right : openStore place' true (some .empty) = .ok t) (e e' : Bool) (rs : List Request) :
    Session.replies { s with enforced := e } rs = Session.replies { t with enforced := e' } rs ∧
      ∃ c : Content, c.Sound ∧ (Session.afterAll { s with enforced := e } rs).Serves c ∧
        (Session.afterAll { t with enforced := e' } rs).Serves c := by
  have first := (serves_of_openStore left).enforcing e
  have second := (serves_of_openStore right).enforcing e'
  have reached := (Reachable.opened e left).afterAll rs
  refine ⟨first.replies second rs, rs.foldl Content.after .empty, ?_, first.afterAll rs,
    second.afterAll rs⟩
  rw [← (first.afterAll rs).content]
  exact reached.sound

/-- Two records with changes: the change of one is replaced before that record is deleted, and the other
record is there when the project is dropped. -/
theorem enforcement_decides_nothing_on_off :
    let on := Session.opened ⟨memoryPath, { EmbeddedConfig.default with foreignKeys := true }⟩
    let off := Session.opened ⟨memoryPath, { EmbeddedConfig.default with foreignKeys := false }⟩
    let change (name : String) : Change := ⟨name, none, none, none⟩
    let project : Project := { (default : Project) with deleteRecords := .on }
    let first : Record := (default : Record).withChanges [change "total"]
    let second : Record := { first.withChanges [change "total", change "tax"] with id := .ofNat 1 }
    let requests := [Request.createProject project, .createRecords [first],
      .updateRecord .nil .nil ⟨none, some ⟨"invoice", "7", .empty, [change "sum"]⟩, none, none⟩,
      .createRecords [second], .deleteRecord .nil .nil, .dropProject .nil,
      .getRecord .nil (.ofNat 1)]
    (Session.replies { on with enforced := true } requests).map (·.isOk)
        = [true, true, true, true, true, true, false] ∧
      Session.replies { on with enforced := true } requests
        = Session.replies { off with enforced := false } requests ∧
      ∃ c : Content, c.Sound ∧ (Session.afterAll { on with enforced := true } requests).Serves c ∧
        (Session.afterAll { off with enforced := false } requests).Serves c := by
  intro on off change project first second requests
  exact ⟨by decide +kernel,
    enforcement_decides_nothing (openStore_empty _) (openStore_empty _) true false requests⟩

end AuditTrail.Embedded
