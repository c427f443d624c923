import AuditTrail.Proofs.Embedded.Share
import AuditTrail.Proofs.Embedded.Values
import AuditTrail.Proofs.Query

/-! The conditions of a listing say of the cells of a row what its filter and its cursor say of the
record that the row holds. -/
namespace AuditTrail

namespace Instant

variable {t u : Instant}

theorem eq_of_not_lt (tu : ¬ t < u) (ut : ¬ u < t) : t = u := by
  rw [lt_iff] at tu ut
  have seconds : t.seconds = u.seconds := by omega
  have nanos : t.nanos = u.nanos := by omega
  cases t
  cases u
  simp_all

/-- The text of fixed width tells instants apart. -/
theorem sortable_inj (ht : t.Ordinary) (hu : u.Ordinary) : t.sortable = u.sortable ↔ t = u := by
  refine ⟨fun same => eq_of_not_lt ?_ ?_, congrArg sortable⟩
  · rw [← sortable_lt_sortable ht hu, same]
    exact String.lt_irrefl _
  · rw [← sortable_lt_sortable hu ht, same]
    exact String.lt_irrefl _

end Instant

namespace Embedded

variable {row : Row} {column : Column}

/-- Whether the times in some columns lie in the years 0 to 9999. -/
def Row.Dated (columns : List Column) (row : Row) : Prop :=
  ∀ column ∈ columns, ∃ t : Instant, t.Ordinary ∧ row.get column = .text t.sortable

theorem Content.dated_recordRow {p : Id} {createTime : Instant} {r : Record}
    (created : createTime.Ordinary) (operated : r.operation.time.Ordinary) :
    (recordRow p createTime r).Dated [.createTime, .operationTime] :=
  List.forall_mem_cons.mpr ⟨⟨_, created, rfl⟩, List.forall_mem_singleton.mpr ⟨_, operated, rfl⟩⟩

/-- A table that holds a batch of records whose times lie in those years. -/
theorem Content.dated_of_batch {c : Content} (p : Id) (createTime : Instant) (batch : List Record)
    (rows : c.records = batch.map (recordRow p createTime)) (created : createTime.Ordinary)
    (operated : ∀ r ∈ batch, r.operation.time.Ordinary) :
    ∀ row ∈ c.records, row.isOf p = true → row.Dated [.createTime, .operationTime] := by
  intro row mem _
  rw [rows] at mem
  obtain ⟨r, batched, rfl⟩ := List.mem_map.mp mem
  exact dated_recordRow created (operated r batched)

/-! One condition -/

theorem text_iff {found : String} (held : row.get column = .text found) (s : String) :
    holds row (.equals column (.text s)) = decide (found = s) := by
  simp [holds, held, Value.cell, Cell.equals_text]

theorem below_iff {t u : Instant} (held : row.get column = .text t.sortable) (ht : t.Ordinary)
    (hu : u.Ordinary) : holds row (.below column (.instant u)) = decide (t < u) := by
  simp [holds, held, Value.cell, Cell.below, Cell.before, Instant.sortable_lt_sortable ht hu]

theorem atLeast_iff {t u : Instant} (held : row.get column = .text t.sortable) (ht : t.Ordinary)
    (hu : u.Ordinary) : holds row (.atLeast column (.instant u)) = decide (u ≤ t) := by
  have order : decide (u ≤ t) = !decide (t < u) := by
    change decide (t.before u = false) = !decide (t.before u = true)
    cases t.before u <;> rfl
  simp [holds, held, Value.cell, Cell.before, Instant.sortable_lt_sortable ht hu, order]

theorem belowId_iff {i j : Id} (held : row.get column = .text i.text) :
    holds row (.below column (.id j)) = decide (i < j) := by
  simp only [holds, held, Value.cell, Cell.below, Cell.before, Id.text_lt_text, ne_eq, reduceCtorEq,
    not_false_eq_true, decide_true, Bool.true_and]

theorem labels?_of_get {m : TextMap} (held : row.get .labels = (Value.map m).cell) :
    labels? row = some m.entries := by
  have entries : (m.entries.map fun e =>
      (Json.written e.1, Json.Source.string (Json.written e.2))).filterMap label? = m.entries := by
    rw [List.filterMap_map]
    refine (List.filterMap_congr fun e _ => ?_).trans List.filterMap_some
    simp [label?]
  simp only [labels?, held, Value.cell, Json.read?_textMapText, entries]

theorem labelled_iff {m labels : TextMap} (held : row.get .labels = (Value.map labels).cell) :
    holds row (.labelled m) = m.entries.all fun e => labels.get? e.1 = some e.2 := by
  simp only [holds, labels?_of_get held]
  refine List.all_congr rfl fun e => ?_
  simp [TextMap.get?_eq_some_iff]

/-! All conditions -/

/-- A row that holds a record, whose times lie in the years 0 to 9999. -/
structure Content.Shows (c : Content) (row : Row) (r : Record) : Prop where
  stores : c.Stores row r
  created : r.createTime.Ordinary
  operated : r.operation.time.Ordinary

/-- A row with such times can be taken to hold a record with such times. -/
theorem Content.Stores.shows {c : Content} {r : Record} (stores : c.Stores row r)
    (dated : row.Dated [.createTime, .operationTime]) :
    ∃ r' : Record, r'.project = r.project ∧ c.Shows row r' := by
  obtain ⟨created, createdAt, create⟩ := dated .createTime (by simp)
  obtain ⟨operated, operatedAt, time⟩ := dated .operationTime (by simp)
  have kept := stores.kept
  simp only [Row.Keeps, Record.entries, Resource.entries, Operation.entries, Actor.entries,
    List.cons_append, List.nil_append, List.forall_mem_cons] at kept
  refine ⟨{ r with createTime := created, operation := { r.operation with time := operated } }, rfl,
    ⟨?_, stores.changes⟩, createdAt, operatedAt⟩
  simp only [Row.Keeps, Record.entries, Resource.entries, Operation.entries, Actor.entries,
    List.cons_append, List.nil_append, List.forall_mem_cons]
  obtain ⟨i, owner, -, labels, resourceKind, resourceId, resourceMetadata, operationKind, operationId,
    -, rest⟩ := kept
  exact ⟨i, owner, create, labels, resourceKind, resourceId, resourceMetadata, operationKind,
    operationId, time, rest⟩

namespace Content.Shows

variable {c : Content} {r : Record}

theorem held (shows : c.Shows row r) {e : Column × Value}
    (mem : e ∈ r.entries r.project r.createTime) : row.get e.1 = e.2.cell :=
  shows.stores.kept e mem

theorem operationTime (shows : c.Shows row r) :
    row.get .operationTime = .text r.operation.time.sortable :=
  shows.held (e := (.operationTime, .instant r.operation.time))
    (by simp [Record.entries, Operation.entries])

/-- The cells of a row say of conditions what is true of the record. -/
theorem judges (shows : c.Shows row r) : Judges (holds row) Instant.Ordinary r := by
  have kept := shows.stores.kept
  simp only [Row.Keeps, Record.entries, Resource.entries, Operation.entries, Actor.entries,
    List.cons_append, List.nil_append, List.forall_mem_cons] at kept
  obtain ⟨-, -, -, labels, resourceKind, resourceId, -, operationKind, operationId, time, -, -, -, -,
    actorKind, actorId, -⟩ := kept
  refine ⟨fun m => labelled_iff labels, ?_, fun t fits => atLeast_iff time shows.operated fits,
    fun t fits => below_iff time shows.operated fits, fun i => belowId_iff shows.stores.id⟩
  simp only [Record.texts, List.forall_mem_cons]
  exact ⟨text_iff resourceKind, text_iff resourceId, text_iff operationKind, text_iff operationId,
    text_iff actorKind, text_iff actorId, by simp⟩

theorem choose (shows : c.Shows row r) {f : RecordFilter} (first : ∀ t ∈ f.timeFrom, t.Ordinary)
    (last : ∀ t ∈ f.timeTo, t.Ordinary) {cursor : RecordCursor} {key : Option (Instant × Id)}
    (complete : cursor.keyset = .ok key) (dated : ∀ t ∈ cursor.lastTime, t.Ordinary) :
    choose (.ofProject r.project :: Selection.filtering f ++ Selection.after key) row =
      if f.admits r && cursor.admits r then some (.ok row) else none := by
  have labels := labels?_of_get (m := r.labels)
    (shows.held (e := (.labels, .map r.labels)) (by simp [Record.entries]))
  have own : holds row (.ofProject r.project) = true :=
    (holds_ofProject r.project).trans (Row.isOf_of_isRecord shows.stores.isRecord)
  have met : meets (.ofProject r.project :: Selection.filtering f ++ Selection.after key) row
      = (f.admits r && cursor.admits r) := by
    rw [List.cons_append, meets_cons, own, Bool.true_and, meets, List.all_append,
      shows.judges.filtering first last, shows.judges.after complete dated]
  simp only [Embedded.choose, isUnreadable, labels, Option.isNone_some, Bool.and_false, Bool.false_and,
    Bool.false_eq_true, if_false, met]

end Content.Shows

end Embedded

end AuditTrail
