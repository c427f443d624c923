import AuditTrail.Page
import AuditTrail.Statement.Store
import Mathlib.Data.List.Basic

/-! What a listing is to contain, said of projects and records themselves: which records a filter
admits, what comes after a cursor, and in which order everything is listed. Whoever reads the conditions
of a statement one by one as they are meant reads a filter and a cursor as they are meant. -/
namespace AuditTrail

/-- A map has an entry just when the key is looked up as the value. -/
theorem TextMap.get?_eq_some_iff (m : TextMap) (e : String × String) :
    m.get? e.1 = some e.2 ↔ e ∈ m.entries := by
  have ascending := m.ascending
  rw [TextMap.get?]
  generalize m.entries = entries at ascending ⊢
  induction entries with
  | nil => simp
  | cons x rest ih =>
    obtain ⟨first, later⟩ := List.pairwise_cons.mp ascending
    have tail := ih later
    by_cases same : e.1 = x.1
    · have absent : e ∉ rest := fun mem => String.ne_of_lt (first e mem) same.symm
      rw [List.lookup_cons, same, beq_self_eq_true]
      simp only [Option.some.injEq, List.mem_cons, absent, or_false, Prod.ext_iff, same, true_and]
      exact eq_comm
    · have other : e ≠ x := fun whole => same (congrArg Prod.fst whole)
      rw [List.lookup_cons, beq_false_of_ne same, List.mem_cons]
      simp only [tail, other, false_or]

/-- Whether a text is the wanted one. An empty text is not wanted by anyone. -/
def RecordFilter.accepts (wanted : Option String) (found : String) : Bool :=
  wanted.all fun s => s = "" || found = s

/-- Whether a record meets all conditions of a filter. The times of operations are those from the
first bound on and before the second. -/
def RecordFilter.admits (f : RecordFilter) (r : Record) : Bool :=
  f.labels.entries.all (fun e => r.labels.get? e.1 = some e.2)
    && accepts f.resourceKind r.resource.kind && accepts f.resourceId r.resource.id
    && accepts f.operationKind r.operation.kind && accepts f.operationId r.operation.id
    && accepts f.actorKind r.actor.kind && accepts f.actorId r.actor.id
    && f.timeFrom.all (fun t => t ≤ r.operation.time)
    && f.timeTo.all (fun t => r.operation.time < t)

/-- Whether a record comes after a cursor: both its time and its identifier are smaller. -/
def RecordCursor.admits (c : RecordCursor) (r : Record) : Bool :=
  c.lastTime.all (fun t => r.operation.time < t) && c.lastId.all (fun i => r.id < i)

/-- Whether a project comes after a cursor. -/
def ProjectCursor.admits (c : ProjectCursor) (p : Project) : Bool :=
  c.lastId.all fun i => p.id < i

/-- Records are listed by descending operation time, and those of one time by descending
identifier. -/
def Record.Precedes (a b : Record) : Prop :=
  b.operation.time < a.operation.time ∨ a.operation.time = b.operation.time ∧ b.id < a.id

instance (a b : Record) : Decidable (a.Precedes b) := inferInstanceAs (Decidable (_ ∨ _))

/-- Projects are listed by descending identifier. -/
def Project.Precedes (a b : Project) : Prop := b.id < a.id

instance (a b : Project) : Decidable (a.Precedes b) := inferInstanceAs (Decidable (_ < _))

/-! A cursor that is complete, or half -/

theorem RecordCursor.keyset_of_complete {c : RecordCursor} (complete : c.isComplete = true) :
    ∃ key, c.keyset = .ok key := by
  rcases c with ⟨_ | t, _ | id⟩
  · exact ⟨none, rfl⟩
  · contradiction
  · contradiction
  · exact ⟨some (t, id), rfl⟩

theorem RecordCursor.keyset_of_half {c : RecordCursor} (half : c.isComplete = false) :
    c.keyset = .error (.invalidCursor c.encode) := by
  rcases c with ⟨_ | t, _ | id⟩
  · contradiction
  · rfl
  · rfl
  · contradiction

/-! Conditions -/

/-- The texts of a record that a filter may ask for, by their columns. -/
def Record.texts (r : Record) : List (Column × String) :=
  [(.resourceKind, r.resource.kind), (.resourceId, r.resource.id), (.operationKind, r.operation.kind),
    (.operationId, r.operation.id), (.actorKind, r.actor.kind), (.actorId, r.actor.id)]

/-- A judgement of conditions that says what is true of a record, as long as the times that it is
compared with are of some kind. -/
structure Judges (judge : Condition → Bool) (fits : Instant → Prop) (r : Record) : Prop where
  labelled : ∀ m : TextMap, judge (.labelled m) = m.entries.all fun e => r.labels.get? e.1 = some e.2
  text : ∀ e ∈ r.texts, ∀ s, judge (.equals e.1 (.text s)) = decide (e.2 = s)
  atLeast : ∀ t, fits t → judge (.atLeast .operationTime (.instant t)) = decide (t ≤ r.operation.time)
  below : ∀ t, fits t → judge (.below .operationTime (.instant t)) = decide (r.operation.time < t)
  belowId : ∀ i, judge (.below .id (.id i)) = decide (r.id < i)

theorem all_optional {α : Type} (judge : Condition → Bool) (condition : α → Condition) (a : Option α) :
    (Selection.optional condition a).all judge = a.all fun a => judge (condition a) := by
  cases a with
  | none => rfl
  | some a => exact Bool.and_true _

namespace Judges

variable {judge : Condition → Bool} {fits : Instant → Prop} {r : Record} (judges : Judges judge fits r)
include judges

theorem matching {e : Column × String} (mem : e ∈ r.texts) (wanted : Option String) :
    (Selection.matching e.1 wanted).all judge = RecordFilter.accepts wanted e.2 := by
  cases wanted with
  | none => rfl
  | some s => by_cases empty : s = "" <;>
      simp [Selection.matching, all_optional, RecordFilter.accepts, judges.text e mem,
        Option.filter_some, empty]

theorem filtering {f : RecordFilter} (first : ∀ t ∈ f.timeFrom, fits t)
    (last : ∀ t ∈ f.timeTo, fits t) : (Selection.filtering f).all judge = f.admits r := by
  have labelled : (if f.labels.entries.isEmpty then [] else [Condition.labelled f.labels]).all judge
      = f.labels.entries.all fun e => r.labels.get? e.1 = some e.2 := by
    split
    · next empty => rw [List.isEmpty_iff.mp empty]; rfl
    · exact (Bool.and_true _).trans (judges.labelled _)
  have lower : f.timeFrom.all (fun t => judge (.atLeast .operationTime (.instant t)))
      = f.timeFrom.all fun t => t ≤ r.operation.time := by
    cases bound : f.timeFrom with
    | none => rfl
    | some t => exact judges.atLeast t (first t bound)
  have upper : f.timeTo.all (fun t => judge (.below .operationTime (.instant t)))
      = f.timeTo.all fun t => r.operation.time < t := by
    cases bound : f.timeTo with
    | none => rfl
    | some t => exact judges.below t (last t bound)
  have text {column : Column} {found : String} (mem : (column, found) ∈ r.texts)
      (wanted : Option String) :
      (Selection.matching column wanted).all judge = RecordFilter.accepts wanted found :=
    judges.matching mem wanted
  simp only [Selection.filtering, List.all_append, labelled,
    text (show (.resourceKind, r.resource.kind) ∈ r.texts by simp [Record.texts]),
    text (show (.resourceId, r.resource.id) ∈ r.texts by simp [Record.texts]),
    text (show (.operationKind, r.operation.kind) ∈ r.texts by simp [Record.texts]),
    text (show (.operationId, r.operation.id) ∈ r.texts by simp [Record.texts]),
    text (show (.actorKind, r.actor.kind) ∈ r.texts by simp [Record.texts]),
    text (show (.actorId, r.actor.id) ∈ r.texts by simp [Record.texts]),
    all_optional, lower, upper, RecordFilter.admits]

/-- A complete cursor asks of the conditions what it asks of the record. -/
theorem after {cursor : RecordCursor} {key : Option (Instant × Id)}
    (complete : cursor.keyset = .ok key) (dated : ∀ t ∈ cursor.lastTime, fits t) :
    (Selection.after key).all judge = cursor.admits r := by
  rcases cursor with ⟨_ | t, _ | i⟩
  · cases complete
    rfl
  · contradiction
  · contradiction
  · cases complete
    simp [Selection.after, judges.below t (dated t rfl), judges.belowId, RecordCursor.admits]

end Judges

end AuditTrail
