import AuditTrail.Proofs.Embedded.ProjectListing
import AuditTrail.Proofs.Ledger.Step
import Mathlib.Data.List.Forall2

/-! Rows that represent a ledger, row by row. A request to such rows comes to what it comes to on the
ledger, and leaves rows that represent the ledger after it, unless the engine refuses to look for it. -/
namespace AuditTrail

/-- What a client gets whose store takes so many labels and conditions at a time and no more. -/
def Ledger.replyWithin (l : Ledger) (r : Request) : Except Error Answer := do
  let answer ← l.reply r
  if r.terms ≤ termLimit then return answer else throw .inside

theorem Ledger.replyWithin_of_terms {l : Ledger} {r : Request} (fits : r.terms ≤ termLimit) :
    l.replyWithin r = l.reply r := by
  simp only [replyWithin, fits, if_true, bind_pure]

namespace Embedded

section
variable {α β : Type} {R : α → β → Prop} {l : List α} {m : List β} {p : α → Bool} {q : β → Bool}

/-- The first that is looked for is found on both sides or on none. -/
theorem find?_forall₂ (related : List.Forall₂ R l m) (same : ∀ {a b}, R a b → p a = q b) :
    (l.find? p = none ∧ m.find? q = none) ∨
      ∃ a b, l.find? p = some a ∧ m.find? q = some b ∧ a ∈ l ∧ R a b := by
  induction related with
  | nil => exact .inl ⟨rfl, rfl⟩
  | @cons a b l m first _ ih =>
    cases picked : q b with
    | true =>
      have left : p a = true := (same first).trans picked
      exact .inr ⟨a, b, List.find?_cons_of_pos left, List.find?_cons_of_pos picked,
        List.mem_cons_self, first⟩
    | false =>
      have left : ¬ p a = true := by simp [same first, picked]
      have right : ¬ q b = true := by simp [picked]
      rw [List.find?_cons_of_neg left, List.find?_cons_of_neg right]
      rcases ih with none | ⟨x, y, found, found', mem, xy⟩
      · exact .inl none
      · exact .inr ⟨x, y, found, found', List.mem_cons_of_mem _ mem, xy⟩

theorem any_forall₂ (related : List.Forall₂ R l m) (same : ∀ {a b}, R a b → p a = q b) :
    l.any p = m.any q := by
  induction related with
  | nil => rfl
  | cons first _ ih => rw [List.any_cons, List.any_cons, same first, ih]

theorem and_mem_forall₂ (related : List.Forall₂ R l m) :
    List.Forall₂ (fun a b => R a b ∧ b ∈ m) l m := by
  induction related with
  | nil => exact .nil
  | cons first _ ih =>
    exact .cons ⟨first, List.mem_cons_self⟩
      (ih.imp fun a b ⟨ab, mem⟩ => ⟨ab, List.mem_cons_of_mem _ mem⟩)

theorem filter_forall₂ (related : List.Forall₂ R l m) (same : ∀ {a b}, R a b → p a = q b) :
    List.Forall₂ R (l.filter p) (m.filter q) :=
  List.rel_filter (fun a b ab => by simp only [same ab]) related

/-- Entries that are told apart can be taken to be those of a function. -/
theorem exists_map_eq [DecidableEq α] [Inhabited β] (related : List.Forall₂ R l m)
    (distinct : l.Nodup) : ∃ view : α → β, (∀ a ∈ l, R a (view a)) ∧ l.map view = m := by
  induction related with
  | nil => exact ⟨fun _ => default, by simp, rfl⟩
  | @cons a b l m first _ ih =>
    obtain ⟨fresh, distinct⟩ := List.nodup_cons.mp distinct
    obtain ⟨view, each, whole⟩ := ih distinct
    have other : ∀ x ∈ l, x ≠ a := fun x mem same => fresh (same ▸ mem)
    refine ⟨fun x => if x = a then b else view x, ?_, ?_⟩
    · intro x mem
      rcases List.mem_cons.mp mem with same | mem
      · simpa [same] using first
      · simpa [other x mem] using each x mem
    · rw [List.map_cons, if_pos rfl, ← whole]
      refine congrArg (b :: ·) (List.map_congr_left fun x mem => ?_)
      rw [if_neg (other x mem)]
end

namespace Content

/-- Rows that hold the projects and records of a ledger, with their changes. -/
structure Represents (c : Content) (l : Ledger) : Prop where
  sound : c.Sound
  projects : List.Forall₂ (fun row p => Row.Keeps row p.entries) c.projects l.projects
  records : List.Forall₂ c.Stores c.records l.records

/-- A result of a request to rows and one of a request to a ledger: what is granted is answered alike and
leaves rows that represent the ledger, and what is refused is refused for the same reason. -/
inductive Agrees {α : Type} : Except Error (α × Content) → Except Error (α × Ledger) → Prop
  | granted {a : α} {d : Content} {m : Ledger} (represents : d.Represents m) :
      Agrees (.ok (a, d)) (.ok (a, m))
  | refused {e f : Error} (same : e.outline = f.outline) : Agrees (.error e) (.error f)

variable {c d : Content} {l m : Ledger}

theorem Keyed.nodup (keyed : c.Keyed) (t : Table) : (c.rows t).Nodup :=
  (keyed t).imp fun {a b} apart same => by
    rw [same, Row.agree_iff.mpr fun _ _ => rfl] at apart
    contradiction

theorem Agrees.map {α β : Type} {x : Except Error (α × Content)} {y : Except Error (α × Ledger)}
    (agrees : Agrees x y) (g : α → β) :
    Agrees (x.map fun p => (g p.1, p.2)) (y.map fun p => (g p.1, p.2)) := by
  cases agrees with
  | granted represents => exact .granted represents
  | refused same => exact .refused same

/-- A request that answers nothing. -/
theorem Agrees.done {x : Except Error Content} {y : Except Error Ledger} {α β : Type} {a : α}
    (agrees : Agrees (x.map (a, ·)) (y.map (a, ·))) (b : β) :
    Agrees (x.map (b, ·)) (y.map (b, ·)) := by
  have mapped := agrees.map fun _ => b
  rwa [map_map, map_map] at mapped

/-- A request that only reads. -/
theorem Represents.reads {α β : Type} (represents : c.Represents l) (x : Except Error α) (g : α → β) :
    Agrees (x.map fun a => (g a, c)) (x.map fun a => (g a, l)) := by
  cases x with
  | error e => exact .refused rfl
  | ok a => exact .granted represents

/-- Whether rows store a record depends on nothing but their changes. -/
theorem Stores.congr {row : Row} {r : Record} (stores : c.Stores row r) (same : d.changes = c.changes) :
    d.Stores row r := by
  refine ⟨stores.kept, ?_⟩
  rw [← stores.changes]
  simp only [entry, same]

theorem Stores.isRecord_eq {row : Row} {r : Record} (stores : c.Stores row r) (project id : Id) :
    row.isRecord project id = decide (r.key = (project, id)) := by
  rw [Bool.eq_iff_iff, decide_eq_true_eq]
  constructor
  · intro own
    obtain ⟨rfl, rfl⟩ := Row.isRecord_unique stores.isRecord own
    rfl
  · intro same
    obtain ⟨rfl, rfl⟩ := Prod.mk.inj same
    exact stores.isRecord

/-- Records are stored as before if a request names none of them. -/
theorem Step.stores {request : Request} (step : Step c request d) {rows : List Row}
    {records : List Record} (stored : List.Forall₂ c.Stores rows records)
    (other : ∀ r ∈ records, ¬ names r.project r.id request) :
    List.Forall₂ d.Stores rows records := by
  induction stored with
  | nil => exact .nil
  | cons first _ ih =>
    obtain ⟨own, others⟩ := List.forall_mem_cons.mp other
    exact .cons (first.frame step own) (ih others)

theorem isOf_eq {row : Row} {r : Record} (stores : c.Stores row r) (project : Id) :
    row.isOf project = decide (r.project = project) := by
  have owner : row.get .projectId = .text r.project.text := by
    simpa [Row.isOf] using Row.isOf_of_isRecord stores.isRecord
  simp [Row.isOf, owner]

/-- An update changes one project on both sides. -/
theorem forall₂_assignProject {R : Row → Project → Prop} {rows : List Row} {ps : List Project} {id : Id}
    {u : ProjectUpdate} (related : List.Forall₂ R rows ps)
    (keeps : ∀ {row p}, R row p → row.Keeps p.entries)
    (updates : ∀ {row p}, R row p → R (row.setAll u.entries) (u.apply p)) :
    List.Forall₂ R (rows.map fun row => if row.isProject id then row.setAll u.entries else row)
      (ps.map fun p => if p.id = id then u.apply p else p) := by
  refine List.forall₂_map_left_iff.mpr (List.forall₂_map_right_iff.mpr ?_)
  refine related.imp fun row p same => ?_
  by_cases own : p.id = id
  · rw [if_pos own, if_pos ((isProject_eq (keeps same) id).trans (decide_eq_true own))]
    exact updates same
  · rw [if_neg own, if_neg (by simp [isProject_eq (keeps same) id, own])]
    exact same

/-! Keys of rows that are added -/

theorem admits_iff {key : List Column} {old new : List Row} : admits key old new = true ↔
    (new.Pairwise fun a b => Row.agree key a b = false) ∧
      ∀ a ∈ old, ∀ b ∈ new, Row.agree key a b = false := by
  induction new generalizing old with
  | nil => simp [admits]
  | cons row rest ih =>
    simp only [admits, Bool.and_eq_true, Bool.not_eq_true', List.any_eq_false, ih,
      List.pairwise_cons, List.forall_mem_append, List.forall_mem_singleton, List.forall_mem_cons,
      Bool.not_eq_true, Row.agree_comm key row]
    constructor
    · rintro ⟨fresh, later, apart, others⟩
      exact ⟨⟨others, later⟩, fun a mem => ⟨fresh a mem, apart a mem⟩⟩
    · rintro ⟨⟨others, later⟩, apart⟩
      exact ⟨fun a mem => (apart a mem).1, later, fun a mem => (apart a mem).2, others⟩

theorem addRecords_of_admits {rows : List Row} (admitted : admits (keyOf .records) c.records rows = true) :
    c.addRecords rows = .ok { c with records := c.records ++ rows } := by
  rw [addRecords, extend, if_pos admitted]
  rfl

theorem addChanges_of_admits {rows : List Row} (admitted : admits (keyOf .changes) c.changes rows = true) :
    c.addChanges rows = .ok { c with changes := c.changes ++ rows } := by
  rw [addChanges, extend, if_pos admitted]
  rfl

theorem agree_recordRow (row : Row) (project : Id) (createTime : Instant) (b : Record) :
    Row.agree (keyOf .records) row (recordRow project createTime b) = row.isRecord project b.id := by
  simp only [Row.agree, keyOf, List.all_cons, List.all_nil, Bool.and_true, projectId_recordRow,
    id_recordRow]
  rfl

theorem admits_append (key : List Column) (xs ys : List Row) : ∀ old : List Row,
    admits key old (xs ++ ys) = (admits key old xs && admits key (old ++ xs) ys) := by
  induction xs with
  | nil => intro old; simp [admits]
  | cons x xs ih => intro old; simp [admits, ih, Bool.and_assoc]

/-- The changes of new records repeat no key. -/
theorem admits_batchChanges {project : Id} {batch : List Record} :
    ∀ {old : List Row}, (batch.map (·.id)).Nodup →
      (∀ row ∈ old, ∀ b ∈ batch, row.isChange project b.id = false) →
      admits (keyOf .changes) old (batchChanges project batch) = true := by
  induction batch with
  | nil => exact fun _ _ => rfl
  | cons b rest ih =>
    intro old distinct fresh
    obtain ⟨unused, distinct⟩ := List.nodup_cons.mp distinct
    rw [batchChanges, List.flatMap_cons, admits_append, Bool.and_eq_true]
    constructor
    · refine admits_changeRows project b.id b.resource.changes 0 old fun row mem own => ?_
      rw [fresh row mem b List.mem_cons_self] at own
      contradiction
    · refine ih distinct fun row mem x later => ?_
      rcases List.mem_append.mp mem with mem | mem
      · exact fresh row mem x (List.mem_cons_of_mem _ later)
      · refine Bool.eq_false_iff.mpr fun own => unused ?_
        have same := (Row.isChange_unique own (isChange_of_mem_changeRows mem)).2
        exact List.mem_map.mpr ⟨x, later, same⟩

/-- Rows of records can be added just when their identifiers are new and different. -/
theorem admits_batch (c : Content) (project : Id) (createTime : Instant) (batch : List Record) :
    admits (keyOf .records) c.records (batch.map (recordRow project createTime))
      = !(batch.any (c.hasRecord project ·.id) || !(batch.map (·.id)).Nodup) := by
  have distinct : (batch.map (recordRow project createTime)).Pairwise
      (fun a b => Row.agree (keyOf .records) a b = false) ↔ (batch.map (·.id)).Nodup := by
    rw [List.Nodup, List.pairwise_map, List.pairwise_map]
    simp only [agree_recordRow, isRecord_recordRow, decide_eq_false_iff_not, ne_eq]
  have fresh : (∀ a ∈ c.records, ∀ b ∈ batch.map (recordRow project createTime),
      Row.agree (keyOf .records) a b = false) ↔ ∀ b ∈ batch, c.hasRecord project b.id = false := by
    simp only [List.forall_mem_map, agree_recordRow, hasRecord, List.any_eq_false, Bool.not_eq_true]
    exact ⟨fun free b new a old => free a old b new, fun free a old b new => free b new a old⟩
  rw [Bool.eq_iff_iff, admits_iff, distinct, fresh]
  simp [and_comm]

/-- The changes of a batch can be added after its records. -/
theorem exists_addChanges (sound : c.Sound) {project : Id} {createTime : Instant} {batch : List Record}
    (admitted : admits (keyOf .records) c.records (batch.map (recordRow project createTime)) = true) :
    ∃ d e, c.addRecords (batch.map (recordRow project createTime)) = .ok d ∧
      d.addChanges (batchChanges project batch) = .ok e := by
  obtain ⟨unused, fresh⟩ := fresh_of_keyed (pairwise_of_admits (sound.keyed .records) admitted)
  refine ⟨_, _, addRecords_of_admits admitted, addChanges_of_admits (admits_batchChanges unused ?_)⟩
  intro ch mem b batched
  obtain ⟨row, stored, concerned⟩ := sound.changes_owned ch mem
  rw [Row.isChange_eq concerned]
  exact fresh row stored b batched

namespace Represents

variable (represents : c.Represents l)
include represents

/-! What is read -/

theorem find_project (id : Id) :
    (c.projects.find? (Row.isProject id) = none ∧ l.project id = .error (.projectNotFound id)) ∨
      ∃ row p, c.projects.find? (Row.isProject id) = some row ∧ l.project id = .ok p ∧
        row.Keeps p.entries ∧ p ∈ l.projects := by
  unfold Ledger.project
  rcases find?_forall₂ represents.projects (p := Row.isProject id) (q := (·.id = id))
    fun kept => isProject_eq kept id with ⟨none, none'⟩ | ⟨row, p, found, found', -, kept⟩
  · exact .inl ⟨none, by rw [none']⟩
  · exact .inr ⟨row, p, found, by rw [found'], kept, List.mem_of_find?_eq_some found'⟩

theorem find_record (project id : Id) :
    (c.records.find? (Row.isRecord project id) = none ∧
      l.record project id = .error (.recordNotFound project id)) ∨
      ∃ row r, c.records.find? (Row.isRecord project id) = some row ∧ l.record project id = .ok r ∧
        row ∈ c.records ∧ c.Stores row r ∧ r ∈ l.records ∧ r.project = project ∧ r.id = id := by
  unfold Ledger.record
  rcases find?_forall₂ represents.records (p := Row.isRecord project id) (q := (·.key = (project, id)))
    fun stores => stores.isRecord_eq project id with ⟨none, none'⟩ | ⟨row, r, found, found', mem, stores⟩
  · exact .inl ⟨none, by rw [none']⟩
  · have own : r.key = (project, id) := by simpa using List.find?_some found'
    exact .inr ⟨row, r, found, by rw [found'], mem, stores, List.mem_of_find?_eq_some found',
      Prod.mk.inj own⟩

theorem requireProject (id : Id) : c.requireProject id = (l.project id).map fun _ => () := by
  unfold Content.requireProject
  rcases represents.find_project id with ⟨none, none'⟩ | ⟨row, p, found, found', -, -⟩
  · have absent : ¬ c.hasProject id = true := by simp [hasProject_iff, none]
    rw [if_neg absent, none']
    rfl
  · rw [if_pos (hasProject_iff.mpr ⟨row, found⟩), found']
    rfl

variable (plain : l.Plain)
include plain

theorem readProject (id : Id) : c.readProject id = l.project id := by
  unfold Content.readProject
  rcases represents.find_project id with ⟨none, none'⟩ | ⟨row, p, found, found', kept, mem⟩
  · rw [none, none']
  · rw [found, found']
    simp only [Reader.project_of_keeps kept (plain.created mem).ordinary]
    rfl

omit represents in
theorem shows {row : Row} {r : Record} (stores : c.Stores row r) (mem : r ∈ l.records) :
    c.Shows row r :=
  ⟨stores, (plain.records r mem).created.ordinary, (plain.records r mem).operated.ordinary⟩

theorem readRecord (project id : Id) : c.readRecord project id = l.record project id := by
  rcases represents.find_record project id with
    ⟨none, none'⟩ | ⟨row, r, found, found', stored, stores, mem, rfl, rfl⟩
  · rw [Content.readRecord, none, none']
  · have shows := shows plain stores mem
    rw [found']
    exact (readRecord_of_entry represents.sound.keyed (shows.entry represents.sound.keyed stored)
      shows.read).trans rfl

/-! Projects -/

omit plain in
theorem createProject (p : Project) :
    Agrees ((c.createProject p).map ((), ·)) ((l.createProject p).map ((), ·)) := by
  have present : c.hasProject p.id = l.projects.any (·.id = p.id) :=
    any_forall₂ represents.projects fun kept => isProject_eq kept p.id
  unfold Content.createProject Ledger.createProject
  rw [present]
  split
  · exact .refused rfl
  · next absent =>
    refine .granted ⟨represents.sound.addProject ?_, ?_, ?_⟩
    · rw [present]
      exact Bool.not_eq_true _ ▸ absent
    · exact List.rel_append represents.projects (.cons (Row.keeps_projectRow _ _) .nil)
    · exact represents.records.imp fun row r stores => stores.congr rfl

theorem updateProject (id : Id) (u : ProjectUpdate) :
    Agrees (c.updateProject id u) (l.updateProject id u) := by
  unfold Content.updateProject Ledger.updateProject
  split
  · exact .refused rfl
  · rcases represents.find_project id with ⟨none, none'⟩ | ⟨row, p, found, found', kept, mem⟩
    · rw [none, none']
      exact .refused rfl
    · have read := Reader.project_of_keeps (Row.keeps_updateProject u kept) (plain.created mem).ordinary
      rw [found, found']
      simp only [read]
      refine .granted ⟨represents.sound.assignProject id u, ?_,
        represents.records.imp fun row r stores => stores.congr rfl⟩
      exact forall₂_assignProject represents.projects (fun kept => kept) fun kept =>
        Row.keeps_updateProject u kept

omit plain in
theorem dropProject (id : Id) :
    Agrees ((c.dropProject id).map ((), ·)) ((l.dropProject id).map ((), ·)) := by
  unfold Content.dropProject Ledger.dropProject
  rw [represents.requireProject id]
  rcases represents.find_project id with ⟨-, none'⟩ | ⟨row, p, found, found', -, -⟩
  · rw [none']
    exact .refused rfl
  · rw [found']
    have step : Step c (.dropProject id) (c.removeProject id) :=
      .dropProject (hasProject_iff.mpr ⟨row, found⟩)
    refine .granted ⟨represents.sound.step step, ?_, ?_⟩
    · refine filter_forall₂ represents.projects fun kept => ?_
      simp [isProject_eq kept]
    · refine step.stores (filter_forall₂ represents.records fun stores => ?_) fun r mem same => ?_
      · simp [isOf_eq stores]
      · have other := (List.mem_filter.mp mem).2
        simp [show r.project = id from same.symm] at other

theorem listProjects (limit : Nat) (cursor : ProjectCursor) :
    c.listProjects limit cursor = .ok (l.listProjects limit cursor) := by
  have each : List.Forall₂ Row.ShowsProject c.projects l.projects :=
    (and_mem_forall₂ represents.projects).imp fun row p ⟨kept, mem⟩ =>
      ⟨kept, (plain.created mem).ordinary⟩
  obtain ⟨view, shows, whole⟩ := exists_map_eq each (represents.sound.keyed.nodup .projects)
  have sorted := (sorted_projects represents.sound.keyed shows).filter cursor.admits
  have perm : ((c.listedProjects.map view).filter cursor.admits).Perm
      (l.projects.filter cursor.admits) := by
    rw [← whole]
    exact ((arrange_perm _ c.projects).map view).filter _
  obtain ⟨p, answered, same⟩ := map_eq_ok (reply_listProjects shows limit cursor)
  obtain ⟨page, listed, rfl⟩ := map_eq_ok answered
  rw [listed, Ledger.listProjects, Project.places.inOrder_eq sorted perm, Answer.projects.inj same]

/-! Records -/

omit plain in
/-- Rows of records can be added just when no identifier would occur twice. -/
theorem admits_records (sound : l.Sound) {batch : List Record} {project : Id} (createTime : Instant)
    (together : ∀ r ∈ batch, r.project = project) :
    admits (keyOf .records) c.records (batch.map (recordRow project createTime)) = true ↔
      ((l.records ++ batch).map Record.key).Nodup := by
  have taken : batch.any (c.hasRecord project ·.id) = false ↔
      ∀ a ∈ l.records.map Record.key, ∀ b ∈ batch.map Record.key, a ≠ b := by
    have one (b : Record) : c.hasRecord project b.id = l.records.any (·.key = (project, b.id)) :=
      any_forall₂ represents.records fun stores => stores.isRecord_eq project b.id
    simp only [List.any_eq_false, one, List.forall_mem_map]
    constructor
    · intro free r stored b batched same
      refine free b batched (List.any_eq_true.mpr ⟨r, stored, decide_eq_true ?_⟩)
      rw [same, Record.key, together b batched]
    · intro free b batched used
      obtain ⟨r, stored, same⟩ := List.any_eq_true.mp used
      refine free r stored b batched ((of_decide_eq_true same).trans ?_)
      rw [Record.key, together b batched]
  have ids : (batch.map (·.id)).Nodup ↔ (batch.map Record.key).Nodup := by
    rw [List.Nodup, List.Nodup, List.pairwise_map, List.pairwise_map]
    refine List.Pairwise.iff_of_mem fun {a b} aMem bMem => ?_
    simp [Record.key, together a aMem, together b bMem]
  rw [admits_batch, List.map_append, List.nodup_append, ← taken, ← ids]
  simp [sound.records, and_comm]

section Batch

variable {first : Record} {rest : List Record} (together : ∀ r ∈ first :: rest, r.project = first.project)
  (distinct : ((l.records ++ first :: rest).map Record.key).Nodup)
include together distinct

omit plain in
theorem addBatch (there : c.hasProject first.project = true) {d e : Content}
    (rows : c.addRecords ((first :: rest).map (recordRow first.project first.createTime)) = .ok d)
    (changes : d.addChanges (batchChanges first.project (first :: rest)) = .ok e) :
    e.Represents (l.addRecords first.createTime (first :: rest)) := by
  have projects : e.projects = c.projects := by
    rw [(addChanges_eq_ok changes).2, (addRecords_eq_ok rows).2]
  have records : e.records
      = c.records ++ (first :: rest).map (recordRow first.project first.createTime) := by
    rw [records_of_addChanges changes, (addRecords_eq_ok rows).2]
  have old : List.Forall₂ e.Stores c.records l.records := by
    refine (Step.createRecords together there rows changes).stores represents.records ?_
    rintro r mem ⟨b, batched, project, id⟩
    rw [List.map_append, List.nodup_append] at distinct
    refine distinct.2.2 _ (List.mem_map_of_mem mem) _ (List.mem_map_of_mem batched) ?_
    rw [Record.key, Record.key, project, id]
  have new : ∀ b ∈ first :: rest, e.Stores (recordRow first.project first.createTime b)
      { b with createTime := first.createTime } := by
    intro b batched
    have own := together b batched
    constructor
    · rw [show ({ b with createTime := first.createTime } : Record).project = first.project from own]
      exact Row.keeps_recordRow first.project first.createTime b
    · have entry := entry_addBatch represents.sound rows changes batched
      rw [← own] at entry
      exact congrArg Prod.snd entry
  refine ⟨represents.sound.addBatch there rows changes, ?_, ?_⟩
  · rw [projects]
    exact represents.projects
  · rw [records]
    exact List.rel_append old (List.forall₂_map_left_iff.mpr (List.forall₂_map_right_iff.mpr
      (List.forall₂_same.mpr new)))

end Batch

omit plain in
theorem createRecords (sound : l.Sound) (records : List Record) :
    Agrees ((c.createRecords records).map ((), ·)) ((l.createRecords records).map ((), ·)) := by
  cases records with
  | nil => exact .refused rfl
  | cons first rest =>
    rw [Content.createRecords, Ledger.createRecords]
    split
    · exact .refused rfl
    · next together =>
      have together : ∀ r ∈ first :: rest, r.project = first.project := by simpa using together
      have admitted := represents.admits_records sound first.createTime together
      rw [represents.requireProject]
      rcases represents.find_project first.project with ⟨-, none'⟩ | ⟨row, p, found, found', -, -⟩
      · rw [none']
        exact .refused rfl
      · rw [found']
        by_cases distinct : ((l.records ++ first :: rest).map Record.key).Nodup
        · obtain ⟨d, e, rows, changes⟩ := exists_addChanges represents.sound (admitted.mpr distinct)
          have there := hasProject_iff.mpr ⟨row, found⟩
          simp only [rows, if_pos distinct]
          change Agrees ((d.addChanges _).map _) _
          rw [changes]
          exact .granted (represents.addBatch together distinct there rows changes)
        · have refused : c.addRecords ((first :: rest).map
              (recordRow first.project first.createTime)) = .error
                ((Fault.notUnique .records (keyOf .records)).error "Failed to insert record") := by
            rw [addRecords, extend, if_neg fun admits => distinct (admitted.mp admits)]
            rfl
          simp only [refused, if_neg distinct]
          exact .refused rfl

theorem getRecord (project id : Id) : c.getRecord project id = l.getRecord project id := by
  unfold Content.getRecord Ledger.getRecord
  rw [represents.requireProject, represents.readRecord plain]
  cases l.project project <;> rfl

/-- The rows of a project are read as its records. -/
theorem exists_views (project : Id) : ∃ view : Row → Record, c.Views project view ∧
    ((c.listed project).map view).Perm (l.records.filter (·.project = project)) := by
  have each : List.Forall₂ c.Shows c.records l.records :=
    (and_mem_forall₂ represents.records).imp fun row r ⟨stores, mem⟩ => shows plain stores mem
  obtain ⟨view, shows, whole⟩ := exists_map_eq each (represents.sound.keyed.nodup .records)
  have own : ∀ row ∈ c.records, row.isOf project = decide ((view row).project = project) :=
    fun row mem => isOf_eq (shows row mem).stores project
  refine ⟨view, ?_, ?_⟩
  · intro row mem
    obtain ⟨stored, named⟩ := mem_listed.mp mem
    rw [own row stored, decide_eq_true_eq] at named
    exact ⟨named, shows row stored⟩
  · have stored : (c.records.filter (Row.isOf project)).map view
        = l.records.filter (·.project = project) := by
      rw [← whole, List.filter_map, List.filter_congr own]
      rfl
    rw [← stored]
    exact ((arrange_perm _ c.records).filter (Row.isOf project)).map view

theorem listRecords (project : Id) (f : RecordFilter) (limit : Nat) (cursor : RecordCursor)
    (request : (Request.listRecords project f limit cursor).Plain) :
    c.listRecords project f limit cursor = (do
      let page ← l.listRecords project f limit cursor
      if f.terms + cursor.terms ≤ termLimit then return page
      else throw (Fault.tooDeep.error "Failed to prepare query")) := by
  cases complete : cursor.isComplete with
  | false =>
    have half := RecordCursor.keyset_of_half complete
    simp only [Content.listRecords, Ledger.listRecords, half, bind, Except.bind]
  | true =>
    obtain ⟨key, keyset⟩ := RecordCursor.keyset_of_complete complete
    rcases represents.find_project project with ⟨-, none'⟩ | ⟨row, p, found, found', -, -⟩
    · simp only [Content.listRecords, Ledger.listRecords, keyset, represents.requireProject, none',
        bind, Except.bind, Except.map]
    · obtain ⟨view, views, perm⟩ := represents.exists_views plain project
      have sorted := (views.sorted represents.sound.keyed).filter fun r => f.admits r && cursor.admits r
      have perm := perm.filter fun r => f.admits r && cursor.admits r
      simp only [List.filter_filter, Bool.and_comm (_ && _)] at perm
      obtain ⟨filtered, dated⟩ := request
      obtain ⟨first, last⟩ := RecordFilter.plain_times filtered
      have present := hasProject_iff.mpr ⟨row, found⟩
      simp only [Ledger.listRecords, keyset, found', bind, Except.bind, Ledger.page,
        Record.places.inOrder_eq sorted perm]
      by_cases fits : f.terms + cursor.terms ≤ termLimit
      · rw [views.listRecords (fun t some => (first t some).ordinary)
          (fun t some => (last t some).ordinary) (fun t some => (dated t some).ordinary)
          represents.sound.keyed present limit complete fits]
        simp only [fits, if_true]
        rfl
      · rw [listRecords_refused present keyset (Nat.not_le.mp fits) limit]
        simp only [fits, if_false]
        rfl

omit plain in
theorem assign {project id : Id} {u : RecordUpdate}
    (step : Step c (.updateRecord project id u) (c.assign project id u)) :
    (c.assign project id u).Represents (l.setRecord project id u) := by
  refine ⟨represents.sound.step step, ?_, ?_⟩
  · rw [step.projects_eq fun _ => rfl]
    exact represents.projects
  · rw [records_assign]
    refine List.forall₂_map_left_iff.mpr (List.forall₂_map_right_iff.mpr ?_)
    refine represents.records.imp fun row r stores => ?_
    rw [stores.isRecord_eq project id]
    by_cases own : r.key = (project, id)
    · obtain ⟨rfl, rfl⟩ := Prod.mk.inj own
      simpa [Record.key] using stores.assign u
    · simp only [own, decide_false, Bool.false_eq_true, if_false]
      refine stores.frame step fun named => own ?_
      rw [Record.key, named.1, named.2]

theorem updateRecord (project id : Id) {u : RecordUpdate} (request : u.Plain) :
    Agrees (c.updateRecord project id u) (l.updateRecord project id u) := by
  unfold Content.updateRecord Ledger.updateRecord
  rw [represents.readProject plain]
  split
  · exact .refused rfl
  · cases gate : l.project project with
    | error e => exact .refused rfl
    | ok p =>
      simp only [bind, Except.bind]
      cases allowed : p.allowsUpdate with
      | false => exact .refused rfl
      | true =>
        simp only [Bool.not_true, Bool.false_eq_true, if_false]
        rcases represents.find_record project id with
          ⟨none, none'⟩ | ⟨row, r, found, found', stored, stores, mem, rfl, rfl⟩
        · have absent : c.hasRecord project id = false :=
            Bool.eq_false_iff.mpr fun present => by
              obtain ⟨row, found⟩ := hasRecord_iff.mp present
              rw [none] at found
              contradiction
          simp only [absent, none', Bool.not_false, if_true]
          exact .refused rfl
        · have present : c.hasRecord r.project r.id = true := hasRecord_iff.mpr ⟨row, found⟩
          have step : Step c (.updateRecord r.project r.id u) (c.assign r.project r.id u) :=
            .updateRecord ((represents.readProject plain r.project).trans gate) allowed present
          have changed : (l.setRecord r.project r.id u).Plain :=
            plain.step (r := .updateRecord r.project r.id u) request .updateRecord
          have reread := (represents.assign step).readRecord changed r.project r.id
          rw [Ledger.record_setRecord, found'] at reread
          simp only [present, reread, found', Bool.not_true, Bool.false_eq_true, if_false]
          exact .granted (represents.assign step)

theorem deleteRecord (project id : Id) :
    Agrees ((c.deleteRecord project id).map ((), ·)) ((l.deleteRecord project id).map ((), ·)) := by
  unfold Content.deleteRecord Ledger.deleteRecord
  rw [represents.readProject plain]
  cases gate : l.project project with
  | error e => exact .refused rfl
  | ok p =>
    simp only [bind, Except.bind]
    cases allowed : p.allowsDelete with
    | false => exact .refused rfl
    | true =>
      have step : Step c (.deleteRecord project id) (c.removeRecord project id) :=
        .deleteRecord ((represents.readProject plain project).trans gate) allowed
      refine .granted ⟨represents.sound.step step, represents.projects, ?_⟩
      refine step.stores (filter_forall₂ represents.records fun stores => ?_) fun r mem named => ?_
      · simp [stores.isRecord_eq]
      · have other := (List.mem_filter.mp mem).2
        simp [Record.key, ← named.1, ← named.2] at other

end Represents

/-- Whatever is asked that the engine does not refuse, rows that represent a ledger of plain values give the
answer of the ledger and represent the ledger after it. -/
theorem Represents.handle (represents : c.Represents l) (sound : l.Sound) (plain : l.Plain)
    {r : Request} (request : r.Plain) (fits : r.terms ≤ termLimit) : Agrees (c.handle r) (l.handle r) := by
  cases r with
  | createProject p => exact (represents.createProject p).done Answer.done
  | getProject id =>
    simp only [Content.handle, Ledger.handle, represents.readProject plain]
    exact represents.reads _ Answer.project
  | listProjects limit cursor =>
    simp only [Content.handle, Ledger.handle, represents.listProjects plain]
    exact .granted represents
  | updateProject id u => exact (represents.updateProject plain id u).map Answer.project
  | dropProject id => exact (represents.dropProject id).done Answer.done
  | createRecords records => exact (represents.createRecords sound records).done Answer.done
  | getRecord project id =>
    simp only [Content.handle, Ledger.handle, represents.getRecord plain]
    exact represents.reads _ Answer.record
  | listRecords project f limit cursor =>
    have listed := represents.listRecords plain project f limit cursor request
    rw [Request.terms] at fits
    simp only [fits, if_true, bind_pure] at listed
    simp only [Content.handle, Ledger.handle, listed]
    exact represents.reads _ Answer.records
  | updateRecord project id u => exact (represents.updateRecord plain project id request).map Answer.record
  | deleteRecord project id => exact (represents.deleteRecord plain project id).done Answer.done

theorem Represents.reply (represents : c.Represents l) (sound : l.Sound) (plain : l.Plain)
    {r : Request} (request : r.Plain) : (c.reply r).mapError Error.outline = l.replyWithin r := by
  by_cases fits : r.terms ≤ termLimit
  · have agrees := represents.handle sound plain request fits
    rw [Ledger.replyWithin_of_terms fits]
    unfold Content.reply Ledger.reply
    generalize c.handle r = x at agrees ⊢
    generalize l.handle r = y at agrees ⊢
    cases agrees with
    | granted => rfl
    | refused same => exact congrArg Except.error same
  · obtain ⟨project, f, limit, cursor, rfl⟩ := Request.eq_listRecords_of_terms fits
    have listed := represents.listRecords plain project f limit cursor request
    rw [Request.terms] at fits
    simp only [fits, if_false] at listed
    simp only [Content.reply, Content.handle, listed, Ledger.replyWithin, Ledger.reply, Ledger.handle,
      Request.terms, fits, if_false]
    cases l.listRecords project f limit cursor <;> rfl

theorem Represents.after (represents : c.Represents l) (sound : l.Sound) (plain : l.Plain)
    {r : Request} (request : r.Plain) : (c.after r).Represents (l.after r) := by
  by_cases fits : r.terms ≤ termLimit
  · have agrees := represents.handle sound plain request fits
    unfold Content.after Ledger.after
    generalize c.handle r = x at agrees ⊢
    generalize l.handle r = y at agrees ⊢
    cases agrees with
    | granted after => exact after
    | refused => exact represents
  · -- What is refused only reads, and so does the ledger.
    obtain ⟨project, f, limit, cursor, rfl⟩ := Request.eq_listRecords_of_terms fits
    have kept : c.after (.listRecords project f limit cursor) = c := by
      simp only [Content.after, Content.handle]
      cases c.listRecords project f limit cursor <;> rfl
    have kept' : l.after (.listRecords project f limit cursor) = l := by
      simp only [Ledger.after, Ledger.handle]
      cases l.listRecords project f limit cursor <;> rfl
    rwa [kept, kept']

theorem represents_empty : empty.Represents .empty := ⟨sound_empty, .nil, .nil⟩

end Content

end Embedded

end AuditTrail
