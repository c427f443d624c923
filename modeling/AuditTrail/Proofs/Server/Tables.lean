import AuditTrail.Proofs.Ledger.Step
import AuditTrail.Proofs.Server.Database

/-! Rows that hold projects, records and changes. Of each row it is said which conditions it meets, how
it stands in the orders of listings and what is read from it. -/
namespace AuditTrail.Server

/-! Instants -/

section Micros

variable {t u : Instant}

/-- The microseconds of an instant that is a whole number of them. -/
theorem microsOf_eq (plain : t.Plain) : ∃ k : Nat, t.nanos = 1000 * k ∧
    microsOf t = (t.seconds - millennium) * 1000000 + k := by
  obtain ⟨k, nanos⟩ := plain.whole
  refine ⟨k, nanos, ?_⟩
  have whole : (t.seconds - millennium) * 1000000000 + (t.nanos : Int)
      = 1000 * ((t.seconds - millennium) * 1000000 + k) := by
    omega
  rw [microsOf, whole]
  exact Int.mul_tdiv_cancel_left _ (by decide)

theorem instantOf?_microsOf (plain : t.Plain) : instantOf? (microsOf t) = some t := by
  obtain ⟨k, nanos, micros⟩ := microsOf_eq plain
  have regular := plain.regular
  have back : instantOf (microsOf t) = t := by
    rw [Instant.eq_iff]
    simp only [instantOf, micros]
    omega
  have first := plain.ordinary.first
  have last := plain.ordinary.last
  simp only [instantOf?, back, yearRange]
  exact if_pos ⟨by omega, by omega⟩

theorem microsOf_lt_microsOf (ht : t.Plain) (hu : u.Plain) : microsOf t < microsOf u ↔ t < u := by
  obtain ⟨k, tNanos, tMicros⟩ := microsOf_eq ht
  obtain ⟨n, uNanos, uMicros⟩ := microsOf_eq hu
  have tRegular := ht.regular
  have uRegular := hu.regular
  rw [Instant.lt_iff, tMicros, uMicros]
  omega

theorem microsOf_inj (ht : t.Plain) (hu : u.Plain) : microsOf t = microsOf u ↔ t = u := by
  constructor
  · intro same
    have back := instantOf?_microsOf ht
    rw [same, instantOf?_microsOf hu] at back
    exact (Option.some.inj back).symm
  · exact congrArg microsOf

end Micros

/-! Rows -/

/-- A change with the record that it belongs to and its place there. -/
structure Placed where
  project : Id
  record : Id
  position : Nat
  change : Change
deriving DecidableEq

/-- The identifiers of the record that a change belongs to. -/
def Placed.owner (c : Placed) : Id × Id := (c.project, c.record)

def Placed.entries (c : Placed) : List (Column × Value) :=
  [(.recordId, .id c.record), (.projectId, .id c.project), (.position, .integer c.position)]
    ++ c.change.entries

/-- Changes of a record in places from `n` on. -/
def placed (project record : Id) : Nat → List Change → List Placed
  | _, [] => []
  | n, c :: rest => ⟨project, record, n, c⟩ :: placed project record (n + 1) rest

/-- The changes of a record in their places. -/
def changesIn (r : Record) : List Placed := placed r.project r.id 0 r.resource.changes

def projectRow (e : Int × Project) : Row :=
  (.partitionNumber, .integer .eight e.1) :: Row.ofEntries e.2.entries

/-- The row of a record, which tells nothing of its changes. -/
def recordRow (r : Record) : Row := Row.ofEntries (r.entries r.project r.createTime)

def changeRow (c : Placed) : Row := Row.ofEntries c.entries

/-- Projects with their numbers, records and the changes of records, in the order of their rows. The
changes of a record are those that have its identifiers. -/
structure Tables where
  projects : List (Int × Project)
  records : List Record
  changes : List Placed

def Tables.database (T : Tables) : Database
  | .projects => T.projects.map projectRow
  | .records => T.records.map recordRow
  | .changes => T.changes.map changeRow
  | .version => []

/-! What is read from rows -/

@[simp] theorem datum_id (i : Id) : (Value.id i).datum = .id i := rfl

@[simp] theorem datum_instant (t : Instant) : (Value.instant t).datum = .moment (microsOf t) := rfl

@[simp] theorem datum_text (s : String) : (Value.text s).datum = .text s := rfl

@[simp] theorem datum_flag (f : Flag) : (Value.flag f).datum = f.datum := rfl

@[simp] theorem datum_map (m : TextMap) : (Value.map m).datum = .document (some m) := rfl

@[simp] theorem datum_integer (n : Int) : (Value.integer n).datum = .integer .four n := rfl

@[simp] theorem flag?_datum (f : Flag) : Reader.flag? f.datum = some f := by
  cases f <;> rfl

@[simp] theorem text?_datum (s : Option String) :
    Reader.orNull Reader.text? (Value.ofText? s).datum = some s := by
  cases s <;> rfl

@[simp] theorem bytes?_datum (bs : Option (List UInt8)) :
    Reader.orNull Reader.bytes? (Value.ofBytes? bs).datum = some bs := by
  cases bs <;> rfl

theorem instant?_moment {t : Instant} (plain : t.Plain) :
    Reader.instant? (.moment (microsOf t)) = some t := instantOf?_microsOf plain

theorem read_project {p : Project} (created : p.createTime.Plain) :
    Reader.project (Row.ofEntries p.entries) = .ok p := by
  simp [Reader.project, Reader.column, Row.ofEntries, Project.entries, Row.get?,
    instant?_moment created, Reader.id?, Reader.text?, bind, Except.bind, pure, Except.pure]

@[simp] theorem integer?_status (s : Status) :
    Reader.integer? .four (.integer .four s.code) = some s.code := by
  cases s <;> rfl

theorem read_record {r : Record} (plain : r.Plain) :
    Reader.record (recordRow r) = .ok (r.withChanges []) := by
  simp [Reader.record, Reader.status, Reader.column, recordRow, Row.ofEntries, Record.entries,
    Resource.entries, Operation.entries, Actor.entries, Row.get?,
    instant?_moment plain.created, instant?_moment plain.operated, Reader.id?, Reader.text?,
    Reader.map?, bind, Except.bind, pure, Except.pure, Record.withChanges]

theorem read_change (c : Placed) :
    Reader.change ((changeRow c).only Column.ofChange) = .ok (c.record, c.change) := by
  simp [Reader.change, Reader.column, Row.only, Column.ofChange, changeRow, Row.ofEntries,
    Placed.entries, Change.entries, Row.get, Row.get?, Reader.id?, Reader.text?,
    bind, Except.bind, pure, Except.pure]

/-! Conditions that rows meet -/

@[simp] theorem same_id (i j : Id) : (Datum.id i).same (.id j) = decide (i = j) := by
  simp [Datum.same]

section Columns

variable (e : Int × Project) (r : Record) (c : Placed)

@[simp] theorem projectRow_id : (projectRow e).get .id = .id e.2.id := rfl

@[simp] theorem projectRow_number : (projectRow e).get .partitionNumber = .integer .eight e.1 := rfl

@[simp] theorem recordRow_id : (recordRow r).get .id = .id r.id := rfl

@[simp] theorem recordRow_project : (recordRow r).get .projectId = .id r.project := rfl

@[simp] theorem recordRow_time :
    (recordRow r).get .operationTime = .moment (microsOf r.operation.time) := rfl

@[simp] theorem changeRow_record : (changeRow c).get .recordId = .id c.record := rfl

@[simp] theorem changeRow_project : (changeRow c).get .projectId = .id c.project := rfl

@[simp] theorem changeRow_position : (changeRow c).get .position = .integer .four c.position := rfl

/-- The columns of a row that hold the texts of its record. -/
theorem recordRow_text {t : Column × String} (mem : t ∈ r.texts) : (recordRow r).get t.1 = .text t.2 := by
  simp only [Record.texts, List.mem_cons, List.not_mem_nil, or_false] at mem
  rcases mem with rfl | rfl | rfl | rfl | rfl | rfl <;> rfl

theorem meets_project (id : Id) : meets [.project id] (projectRow e) = decide (e.2.id = id) := by
  simp [meets, holds, Condition.project]

theorem meets_cursor (cursor : ProjectCursor) (limit : Nat) :
    meets (Selection.projects limit cursor).conditions (projectRow e) = cursor.admits e.2 := by
  rcases cursor with ⟨_ | id⟩
  · rfl
  · simp [meets, holds, Selection.projects, ProjectCursor.admits, Datum.before]

theorem meets_record (project id : Id) :
    meets [.ofProject project, .equals .id (.id id)] (recordRow r) = decide (r.key = (project, id)) := by
  simp [meets, holds, Condition.ofProject, Record.key]

theorem meets_recordOf (project : Id) :
    meets [.ofProject project] (recordRow r) = decide (r.project = project) := by
  simp [meets, holds, Condition.ofProject]

theorem meets_changeOfRecord (project record : Id) :
    meets [.ofProject project, .equals .recordId (.id record)] (changeRow c)
      = decide (c.owner = (project, record)) := by
  simp [meets, holds, Condition.ofProject, Placed.owner]

theorem meets_changeOf (project : Id) :
    meets [.ofProject project] (changeRow c) = decide (c.project = project) := by
  simp [meets, holds, Condition.ofProject]

theorem meets_among (project : Id) (records : List Id) :
    meets [.ofProject project, .among .recordId records] (changeRow c)
      = decide (c.project = project ∧ c.record ∈ records) := by
  have among : (records.any fun i => decide (c.record = i)) = decide (c.record ∈ records) := by
    rw [Bool.eq_iff_iff]
    simp
  simp [meets, holds, Condition.ofProject, among]

end Columns

theorem judges_recordRow {r : Record} (plain : r.Plain) :
    Judges (holds (recordRow r)) Instant.Plain r where
  labelled := by
    intro m
    have labels : (recordRow r).get .labels = .document (some r.labels) := rfl
    simp only [holds, labels, Datum.hasEntry]
    refine List.all_congr rfl fun e => ?_
    simp [TextMap.get?_eq_some_iff]
  text := by
    intro e mem s
    simp [holds, recordRow_text r mem, Datum.same]
  atLeast := by
    intro t fits
    have less := microsOf_lt_microsOf fits plain.operated
    have equal := microsOf_inj fits plain.operated
    simp only [holds, recordRow_time, datum_instant, Datum.before, Datum.same, less, Datum.moment.injEq,
      equal, ← Bool.decide_or, Instant.le_iff]
  below := by
    intro t fits
    simp [holds, Datum.before, microsOf_lt_microsOf plain.operated fits]
  belowId := by
    intro i
    simp [holds, Datum.before]

theorem meets_page {r : Record} (plain : r.Plain) {project : Id} {f : RecordFilter} {limit : Nat}
    {cursor : RecordCursor} (request : (Request.listRecords project f limit cursor).Plain)
    {key : Option (Instant × Id)} (complete : cursor.keyset = .ok key) :
    meets (Selection.records project f limit key).conditions (recordRow r)
      = (decide (r.project = project) && (f.admits r && cursor.admits r)) := by
  have judges := judges_recordRow plain
  obtain ⟨first, last⟩ := RecordFilter.plain_times request.1
  have own : holds (recordRow r) (.ofProject project) = decide (r.project = project) := by
    simp [holds, Condition.ofProject]
  simp only [Selection.records, meets, List.cons_append, List.all_cons, List.all_append, own,
    judges.filtering first last, judges.after complete request.2]

/-! Orders -/

/-- Changes stand by record and in their order. -/
def Placed.Precedes (a b : Placed) : Prop :=
  a.record < b.record ∨ a.record = b.record ∧ a.position < b.position

instance : DecidableRel Placed.Precedes := fun _ _ => inferInstanceAs (Decidable (_ ∨ _))

theorem Placed.precedes_iff {a b : Placed} : a.Precedes b ↔ a.record.number < b.record.number ∨
    a.record.number = b.record.number ∧ a.position < b.position := by
  have ids : a.record = b.record ↔ a.record.number = b.record.number :=
    ⟨congrArg Id.number, Id.ext_number⟩
  rw [Placed.Precedes, ids]
  rfl

theorem Placed.places : Places Placed.Precedes where
  asymm := by
    intro a b
    simp only [Placed.precedes_iff]
    omega
  split := by
    intro a c b
    simp only [Placed.precedes_iff]
    omega

theorem precedes_projectRow (a b : Int × Project) :
    precedes [⟨.id, true⟩] (projectRow a) (projectRow b) = true ↔ a.2.Precedes b.2 := by
  by_cases same : a.2.id = b.2.id
  · simp [precedes, same, Project.Precedes, Id.lt_irrefl]
  · simp [precedes, same, Project.Precedes, Datum.before]

theorem precedes_recordRow {a b : Record} (ha : a.Plain) (hb : b.Plain) :
    precedes [⟨.operationTime, true⟩, ⟨.id, true⟩] (recordRow a) (recordRow b) = true
      ↔ a.Precedes b := by
  have equal := microsOf_inj ha.operated hb.operated
  have less := microsOf_lt_microsOf hb.operated ha.operated
  by_cases time : a.operation.time = b.operation.time
  · by_cases same : a.id = b.id
    · simp [precedes, Record.Precedes, time, same, Id.lt_irrefl, Instant.lt_irrefl]
    · simp [precedes, Record.Precedes, time, same, Datum.before, Instant.lt_irrefl]
  · simp [precedes, Record.Precedes, equal, time, less, Datum.before]

theorem precedes_changeRow (a b : Placed) :
    precedes [⟨.recordId, false⟩, ⟨.position, false⟩] (changeRow a) (changeRow b) = true
      ↔ a.Precedes b := by
  by_cases same : a.record = b.record
  · have apart (less : a.position < b.position) : ¬ (a.position : Int) = b.position := by omega
    simpa [precedes, Placed.Precedes, same, Datum.before, Id.lt_irrefl] using apart
  · simp [precedes, Placed.Precedes, same, Datum.before]

end AuditTrail.Server
