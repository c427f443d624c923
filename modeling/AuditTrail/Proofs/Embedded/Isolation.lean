import AuditTrail.Proofs.Embedded.Frame
import AuditTrail.Proofs.Embedded.Share
import AuditTrail.Proofs.Embedded.Soundness

/-! Projects do not interfere. A request on a project is answered from the share of that project and
changes nothing else, so what it comes to does not depend on other projects, and requests on
different projects can be made in either order. -/
namespace AuditTrail.Embedded

/-- Whether a request is one on a project. A batch is one on the project of its first record. -/
def IsOn (owner : Id) : Request → Prop
  | .createProject p => p.id = owner
  | .getProject id | .updateProject id _ | .dropProject id => id = owner
  | .createRecords records => ∀ r ∈ records.head?, r.project = owner
  | .getRecord project _ | .listRecords project _ _ _ | .updateRecord project _ _
  | .deleteRecord project _ => project = owner
  | .listProjects _ _ => False

/-- Two results that are the same error, or successes that are related. -/
inductive Alike {α β : Type} (R : α → β → Prop) : Except Error α → Except Error β → Prop
  | error (e : Error) : Alike R (.error e) (.error e)
  | ok {a : α} {b : β} (related : R a b) : Alike R (.ok a) (.ok b)

section
variable {α β γ δ : Type} {R : α → β → Prop} {S : γ → δ → Prop}

theorem Alike.refl (x : Except Error α) : Alike Eq x x := by
  cases x with
  | error e => exact .error e
  | ok a => exact .ok rfl

theorem Alike.map {x : Except Error α} {y : Except Error β} {f : α → γ} {g : β → δ}
    (alike : Alike R x y) (related : ∀ a b, R a b → S (f a) (g b)) : Alike S (x.map f) (y.map g) := by
  cases alike with
  | error e => exact .error e
  | ok h => exact .ok (related _ _ h)

theorem Alike.bind {x : Except Error α} {y : Except Error β} {f : α → Except Error γ}
    {g : β → Except Error δ} (alike : Alike R x y) (next : ∀ a b, R a b → Alike S (f a) (g b)) :
    Alike S (x >>= f) (y >>= g) := by
  cases alike with
  | error e => exact .error e
  | ok h => exact next _ _ h
end

theorem Row.get_setAll_congr {a b : Row} {column : Column} (entries : List (Column × Value))
    (same : a.get column = b.get column) :
    (a.setAll entries).get column = (b.setAll entries).get column := by
  induction entries generalizing a b with
  | nil => exact same
  | cons e rest ih =>
    refine ih ?_
    rw [Row.get_set, Row.get_set, same]

theorem Row.projectCells_setAll {a b : Row} (entries : List (Column × Value))
    (alike : a.projectCells = b.projectCells) :
    (a.setAll entries).projectCells = (b.setAll entries).projectCells :=
  List.map_inj_left.mpr fun column mem =>
    Row.get_setAll_congr entries (get_of_projectCells alike column mem)

namespace SameFor

variable {owner : Id} {c d : Content}

/-! What one change of the rows does to a share -/

theorem projectCells_projectRow (p : Project) (m n : Nat) :
    (Content.projectRow p m).projectCells = (Content.projectRow p n).projectCells := by
  simp [Row.projectCells, Column.ofProject, Content.projectRow, Row.get_set]

theorem find?_addProject {p : Project} (absent : c.hasProject p.id = false) :
    (c.addProject p).projects.find? (Row.isProject p.id)
      = some (Content.projectRow p (c.lastNumber + 1)) := by
  have own : (Content.projectRow p (c.lastNumber + 1)).isProject p.id = true := by
    simp [Row.isProject, Content.id_projectRow]
  have none : c.projects.find? (Row.isProject p.id) = none :=
    List.find?_eq_none.mpr fun row mem => List.any_eq_false.mp absent row mem
  rw [Content.addProject, List.find?_append, none, List.find?_singleton, if_pos own]
  rfl

theorem addProject {p : Project} (same : SameFor p.id c d) (absent : c.hasProject p.id = false) :
    SameFor p.id (c.addProject p) (d.addProject p) where
  project := by
    have absent' : d.hasProject p.id = false := same.hasProject ▸ absent
    rw [find?_addProject absent, find?_addProject absent', Option.map_some, Option.map_some,
      projectCells_projectRow p (c.lastNumber + 1) (d.lastNumber + 1)]
  records := same.records
  changes := same.changes

theorem assignProject (same : SameFor owner c d) (u : ProjectUpdate) :
    SameFor owner (c.assignProject owner u) (d.assignProject owner u) where
  project := by
    have kept : (Row.isProject owner ∘ fun row =>
        if row.isProject owner then row.setAll u.entries else row) = Row.isProject owner := by
      funext row
      simp only [Function.comp_apply]
      split <;> simp
    simp only [Content.assignProject, List.find?_map, kept]
    rcases same.find?_project with ⟨left, right⟩ | ⟨a, b, left, right, alike⟩
    · rw [left, right]
    · rw [left, right]
      simp only [Option.map_some, List.find?_some left, List.find?_some right, if_true,
        Row.projectCells_setAll u.entries alike]
  records := same.records
  changes := same.changes

/-- A project that has been removed has no share. -/
theorem removeProject (owner : Id) (c d : Content) :
    SameFor owner (c.removeProject owner) (d.removeProject owner) where
  project := by
    simp only [Content.removeProject, ← List.head?_filter, filter_other_own]
  records := by
    simp only [Content.removeProject, filter_other_own]
    exact .nil
  changes := by
    simp only [Content.removeProject, filter_other_own]
    exact .nil

theorem filter_map_isOf {f : Row → Row} (kept : ∀ row : Row, (f row).isOf owner = row.isOf owner)
    (rows : List Row) :
    (rows.map f).filter (Row.isOf owner) = (rows.filter (Row.isOf owner)).map f := by
  have same : Row.isOf owner ∘ f = Row.isOf owner := funext kept
  rw [List.filter_map, same]

theorem assignRecord (same : SameFor owner c d) (id : Id) (u : RecordUpdate) :
    SameFor owner (c.assignRecord owner id u) (d.assignRecord owner id u) where
  project := same.project
  records := by
    have kept (row : Row) : (if row.isRecord owner id then row.setAll u.entries else row).isOf owner
        = row.isOf owner := by
      split <;> simp
    rw [Content.assignRecord, Content.assignRecord, filter_map_isOf kept, filter_map_isOf kept]
    exact same.records.map _
  changes := same.changes

theorem filter_comm (p q : Row → Bool) (rows : List Row) :
    (rows.filter p).filter q = (rows.filter q).filter p := by
  rw [List.filter_filter, List.filter_filter]
  exact List.filter_congr fun row _ => Bool.and_comm _ _

theorem removeChanges (same : SameFor owner c d) (id : Id) :
    SameFor owner (c.removeChanges owner id) (d.removeChanges owner id) where
  project := same.project
  records := same.records
  changes := by
    rw [Content.removeChanges, Content.removeChanges, filter_comm, filter_comm _ _ d.changes]
    exact same.changes.filter _

theorem removeRecord (same : SameFor owner c d) (id : Id) :
    SameFor owner (c.removeRecord owner id) (d.removeRecord owner id) where
  project := same.project
  records := by
    rw [Content.removeRecord, Content.removeRecord, filter_comm, filter_comm _ _ d.records]
    exact same.records.filter _
  changes := (same.removeChanges id).changes

theorem replaceChanges (same : SameFor owner c d) (id : Id) (changes : List Change) :
    SameFor owner (c.replaceChanges owner id changes) (d.replaceChanges owner id changes) where
  project := same.project
  records := same.records
  changes := by
    rw [Content.replaceChanges, Content.replaceChanges, List.filter_append, List.filter_append]
    exact (same.removeChanges id).changes.append_right _

theorem assign (same : SameFor owner c d) (id : Id) (u : RecordUpdate) :
    SameFor owner (c.assign owner id u) (d.assign owner id u) := by
  unfold Content.assign
  cases u.resource with
  | none => exact same.assignRecord id u
  | some resource => exact (same.assignRecord id u).replaceChanges id resource.changes

/-- Whether rows of a project repeat a key is decided by its share. -/
theorem admits_congr {key : List Column} (tenant : .projectId ∈ key) {new : List Row}
    (own : ∀ row ∈ new, row.isOf owner = true) {old old' : List Row}
    (share : (old.filter (Row.isOf owner)).Perm (old'.filter (Row.isOf owner))) :
    Content.admits key old new = Content.admits key old' new := by
  induction new generalizing old old' with
  | nil => rfl
  | cons row rest ih =>
    obtain ⟨first, others⟩ := List.forall_mem_cons.mp own
    have clash : old.any (Row.agree key row) = old'.any (Row.agree key row) := by
      refine any_eq_of_owned share fun a agree => ?_
      rw [Row.isOf, ← Row.agree_iff.mp agree .projectId tenant]
      exact first
    have extended : ((old ++ [row]).filter (Row.isOf owner)).Perm
        ((old' ++ [row]).filter (Row.isOf owner)) := by
      rw [List.filter_append, List.filter_append]
      exact share.append_right _
    rw [Content.admits, Content.admits, clash, ih others extended]

theorem addRecords (same : SameFor owner c d) {rows : List Row}
    (own : ∀ row ∈ rows, row.isOf owner = true) :
    Alike (SameFor owner) (c.addRecords rows) (d.addRecords rows) := by
  have tenant : Column.projectId ∈ keyOf .records := by decide
  simp only [Content.addRecords, Content.extend, admits_congr tenant own same.records]
  split
  · refine .ok ⟨same.project, ?_, same.changes⟩
    rw [List.filter_append, List.filter_append]
    exact same.records.append_right _
  · exact .error _

theorem addChanges (same : SameFor owner c d) {rows : List Row}
    (own : ∀ row ∈ rows, row.isOf owner = true) :
    Alike (SameFor owner) (c.addChanges rows) (d.addChanges rows) := by
  have tenant : Column.projectId ∈ keyOf .changes := by decide
  simp only [Content.addChanges, Content.extend, admits_congr tenant own same.changes]
  split
  · refine .ok ⟨same.project, same.records, ?_⟩
    rw [List.filter_append, List.filter_append]
    exact same.changes.append_right _
  · exact .error _

/-! What the operations come to -/

theorem createProject {p : Project} (same : SameFor p.id c d) :
    Alike (SameFor p.id) (c.createProject p) (d.createProject p) := by
  unfold Content.createProject
  rw [← same.hasProject]
  cases absent : c.hasProject p.id with
  | true => exact .error _
  | false => exact .ok (same.addProject absent)

theorem updateProject (same : SameFor owner c d) (u : ProjectUpdate) :
    Alike (fun p q => p.1 = q.1 ∧ SameFor owner p.2 q.2)
      (c.updateProject owner u) (d.updateProject owner u) := by
  unfold Content.updateProject
  cases u.isEmpty with
  | true => exact .error _
  | false =>
    rcases same.find?_project with ⟨left, right⟩ | ⟨a, b, left, right, alike⟩
    · rw [left, right]
      exact .error _
    · have read : Reader.project (a.setAll u.entries) = Reader.project (b.setAll u.entries) :=
        Reader.project_congr (get_of_projectCells (Row.projectCells_setAll u.entries alike))
      simp only [left, right, read]
      refine (Alike.refl _).map ?_
      rintro p _ rfl
      exact ⟨rfl, same.assignProject u⟩

theorem dropProject (same : SameFor owner c d) :
    Alike (SameFor owner) (c.dropProject owner) (d.dropProject owner) := by
  unfold Content.dropProject
  rw [same.requireProject]
  refine (Alike.refl _).bind fun _ _ _ => ?_
  exact .ok (.removeProject owner c d)

theorem createRecords (same : SameFor owner c d) {records : List Record}
    (on : ∀ r ∈ records.head?, r.project = owner) :
    Alike (SameFor owner) (c.createRecords records) (d.createRecords records) := by
  cases records with
  | nil => exact .error _
  | cons first rest =>
    obtain rfl := on first rfl
    simp only [Content.createRecords]
    split
    · exact .error _
    · rw [same.requireProject]
      refine (Alike.refl _).bind fun _ _ _ => ?_
      refine (same.addRecords fun row mem => ?_).bind fun c' d' added =>
        added.addChanges fun row mem => ?_
      · obtain ⟨r, _, rfl⟩ := List.mem_map.mp mem
        simp [Row.isOf]
      · obtain ⟨r, _, own⟩ := Content.exists_of_mem_batchChanges mem
        exact Row.isOf_of_isChange own

theorem deleteRecord (same : SameFor owner c d) (id : Id) :
    Alike (SameFor owner) (c.deleteRecord owner id) (d.deleteRecord owner id) := by
  unfold Content.deleteRecord
  rw [same.readProject]
  refine (Alike.refl _).bind ?_
  rintro p _ rfl
  cases p.allowsDelete with
  | false => exact .error _
  | true => exact .ok (same.removeRecord id)

variable (keyed : c.Keyed)
include keyed

theorem getRecord (same : SameFor owner c d) (id : Id) :
    c.getRecord owner id = d.getRecord owner id := by
  rw [Content.getRecord, Content.getRecord, same.requireProject, same.readRecord keyed id]

theorem listRecords (same : SameFor owner c d) (filter : RecordFilter) (limit : Nat)
    (cursor : RecordCursor) :
    c.listRecords owner filter limit cursor = d.listRecords owner filter limit cursor := by
  unfold Content.listRecords
  simp only [same.requireProject, same.chosen_records keyed, same.readChanges keyed]

theorem updateRecord (same : SameFor owner c d) (id : Id) (u : RecordUpdate) :
    Alike (fun p q => p.1 = q.1 ∧ SameFor owner p.2 q.2)
      (c.updateRecord owner id u) (d.updateRecord owner id u) := by
  have assigned := same.assign id u
  unfold Content.updateRecord
  cases u.isEmpty with
  | true => exact .error _
  | false =>
    rw [same.readProject, same.hasRecord id]
    refine (Alike.refl _).bind ?_
    rintro p _ rfl
    cases p.allowsUpdate with
    | false => exact .error _
    | true =>
      cases d.hasRecord owner id with
      | false => exact .error _
      | true =>
        simp only [assigned.readRecord (keyed.assign owner id u) id]
        refine (Alike.refl _).bind ?_
        rintro r _ rfl
        exact .ok ⟨rfl, assigned⟩

theorem handle (same : SameFor owner c d) {r : Request} (on : IsOn owner r) :
    Alike (fun p q => p.1 = q.1 ∧ SameFor owner p.2 q.2) (c.handle r) (d.handle r) := by
  have reads {α : Type} (x : Except Error α) (f : α → Answer) :
      Alike (fun p q : Answer × Content => p.1 = q.1 ∧ SameFor owner p.2 q.2)
        (x.map fun a => (f a, c)) (x.map fun a => (f a, d)) := by
    refine (Alike.refl x).map ?_
    rintro a _ rfl
    exact ⟨rfl, same⟩
  cases r with
  | createProject p =>
    obtain rfl := on
    exact same.createProject.map fun _ _ after => ⟨rfl, after⟩
  | getProject id =>
    obtain rfl := on
    simp only [Content.handle, same.readProject]
    exact reads _ _
  | listProjects limit cursor => exact on.elim
  | updateProject id u =>
    obtain rfl := on
    exact (same.updateProject u).map fun _ _ after => ⟨congrArg Answer.project after.1, after.2⟩
  | dropProject id =>
    obtain rfl := on
    exact same.dropProject.map fun _ _ after => ⟨rfl, after⟩
  | createRecords records => exact (same.createRecords on).map fun _ _ after => ⟨rfl, after⟩
  | getRecord project id =>
    obtain rfl := on
    simp only [Content.handle, same.getRecord keyed]
    exact reads _ _
  | listRecords project filter limit cursor =>
    obtain rfl := on
    simp only [Content.handle, same.listRecords keyed]
    exact reads _ _
  | updateRecord project id u =>
    obtain rfl := on
    exact (same.updateRecord keyed id u).map fun _ _ after =>
      ⟨congrArg Answer.record after.1, after.2⟩
  | deleteRecord project id =>
    obtain rfl := on
    exact (same.deleteRecord id).map fun _ _ after => ⟨rfl, after⟩

/-- A request on a project comes to the same wherever the project has the same share. -/
theorem reply_after (same : SameFor owner c d) {r : Request} (on : IsOn owner r) :
    c.reply r = d.reply r ∧ SameFor owner (c.after r) (d.after r) := by
  have settled {x y : Except Error (Answer × Content)}
      (alike : Alike (fun p q => p.1 = q.1 ∧ SameFor owner p.2 q.2) x y) :
      x.map (·.1) = y.map (·.1) ∧ SameFor owner (c.settle x) (d.settle y) := by
    cases alike with
    | error e => exact ⟨rfl, same⟩
    | ok related => exact ⟨congrArg Except.ok related.1, related.2⟩
  exact settled (same.handle keyed on)

end SameFor

/-- The rows of a table that belong to the share of a project. -/
def shareOf (owner : Id) : Table → Row → Bool
  | .projects => Row.isProject owner
  | .records | .changes => Row.isOf owner
  | .version => fun _ => false

namespace Content

variable {p q : Id} {c d : Content} {r : Request} {t : Table} {row : Row}

theorem shareOf_unique (hp : shareOf p t row = true) (hq : shareOf q t row = true) : p = q := by
  cases t with
  | projects =>
    simp only [shareOf, Row.isProject, decide_eq_true_eq] at hp hq
    exact Id.text_injective (Cell.text.inj (hp.symm.trans hq))
  | records | changes => exact Row.isOf_unique hp hq
  | version => contradiction

/-- A granted request is about rows of its project only. -/
theorem Step.shareOf_of_touches (step : Step c r d) (on : IsOn p r)
    (touched : touches r t row = true) : shareOf p t row = true := by
  cases step with
  | createProject | updateProject =>
    obtain rfl := on
    cases t with
    | projects => exact touched
    | records | changes | version => contradiction
  | dropProject =>
    obtain rfl := on
    cases t with
    | projects | records | changes => exact touched
    | version => contradiction
  | createRecords together =>
    obtain rfl := on _ rfl
    cases t with
    | records =>
      obtain ⟨x, batched, own⟩ := List.any_eq_true.mp touched
      rw [together x batched] at own
      exact Row.isOf_of_isRecord own
    | changes =>
      obtain ⟨x, batched, own⟩ := List.any_eq_true.mp touched
      rw [together x batched] at own
      exact Row.isOf_of_isChange own
    | projects | version => contradiction
  | updateRecord | deleteRecord =>
    obtain rfl := on
    cases t with
    | records => exact Row.isOf_of_isRecord touched
    | changes => exact Row.isOf_of_isChange touched
    | projects | version => contradiction

/-- Rows outside the share of a project stay as they are, whatever is asked on the project. -/
theorem filter_after (c : Content) (on : IsOn p r) (t : Table) {pick : Row → Bool}
    (apart : ∀ row, pick row = true → shareOf p t row = false) :
    ((c.after r).rows t).filter pick = (c.rows t).filter pick := by
  rcases after_cases c r with same | ⟨_, step⟩
  · rw [same]
  · refine filter_of_frame (step.frame t) fun row picked => Bool.eq_false_iff.mpr fun touched => ?_
    have own := step.shareOf_of_touches on touched
    rw [apart row picked] at own
    contradiction

theorem sameFor_after (c : Content) (on : IsOn p r) (other : p ≠ q) : SameFor q c (c.after r) := by
  have kept (t : Table) := c.filter_after on t fun row share =>
    Bool.eq_false_iff.mpr fun own => other (shareOf_unique own share)
  refine ⟨?_, ?_, ?_⟩
  · rw [← List.head?_filter, ← List.head?_filter]
    exact congrArg (fun rows => rows.head?.map Row.projectCells) (kept .projects).symm
  · exact .of_eq (kept .records).symm
  · exact .of_eq (kept .changes).symm

end Content

end AuditTrail.Embedded
