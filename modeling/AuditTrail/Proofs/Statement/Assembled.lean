import AuditTrail.Proofs.Statement.Places
import AuditTrail.Proofs.Statement.Slots

/-! The statements that are put together from what they are given: a page of records, and the updates of a
project and of a record. Each value has a place of its own behind the name of the column that it is
compared with or assigned to, and the text depends on what is given and what is not, and not on the
values. -/
namespace AuditTrail

open Piece

variable {kind : StoreKind}

/-! What statements are put together from -/

namespace RecordFilter

/-- The columns in which a filter may ask for a text. -/
def textColumns : List Column :=
  [.resourceKind, .resourceId, .operationKind, .operationId, .actorKind, .actorId]

def text? (f : RecordFilter) : Column → Option String
  | .resourceKind => f.resourceKind
  | .resourceId => f.resourceId
  | .operationKind => f.operationKind
  | .operationId => f.operationId
  | .actorKind => f.actorKind
  | .actorId => f.actorId
  | _ => none

/-- The text that a filter asks for in a column, unless it is empty. -/
def wanted? (f : RecordFilter) (c : Column) : Option String := (f.text? c).filter (· ≠ "")

def slots (kind : StoreKind) (f : RecordFilter) : List Slot :=
  (if f.labels.entries = [] then [] else labelsSlots f.labels kind)
    ++ textColumns.flatMap (fun c => (f.wanted? c).toList.map fun s => .of c " = " (.text s))
    ++ f.timeFrom.toList.map (fun t => .of .operationTime " >= " (.instant t))
    ++ f.timeTo.toList.map (fun t => .of .operationTime " < " (.instant t))

end RecordFilter

def RecordCursor.slots (c : RecordCursor) : List Slot :=
  c.lastTime.toList.map (fun t => .of .operationTime " < " (.instant t))
    ++ c.lastId.toList.map (fun id => .of .id " < " (.id id))

/-- What an update of a project sets a column to. -/
def ProjectUpdate.field? (u : ProjectUpdate) : Column → Option Value
  | .displayName => u.displayName.map .text
  | .updateRecords => u.updateRecords.map .flag
  | .deleteRecords => u.deleteRecords.map .flag
  | _ => none

/-- What an update of a record sets a column to. -/
def RecordUpdate.field? (u : RecordUpdate) : Column → Option Value
  | .labels => u.labels.map .map
  | .resourceKind => u.resource.map (.text ·.kind)
  | .resourceId => u.resource.map (.text ·.id)
  | .resourceMetadata => u.resource.map (.map ·.metadata)
  | .operationKind => u.operation.map (.text ·.kind)
  | .operationId => u.operation.map (.text ·.id)
  | .operationTime => u.operation.map (.instant ·.time)
  | .operationMetadata => u.operation.map (.map ·.metadata)
  | .traceParent => u.operation.map (.ofText? ·.trace.parent)
  | .traceState => u.operation.map (.ofText? ·.trace.state)
  | .operationStatus => u.operation.map (.integer ·.status.code)
  | .actorKind => u.actor.map (.text ·.kind)
  | .actorId => u.actor.map (.text ·.id)
  | .actorMetadata => u.actor.map (.map ·.metadata)
  | _ => none

/-- The columns that are set, and what they are set to. -/
def fieldsOf (field? : Column → Option Value) (columns : List Column) : List (Column × Value) :=
  columns.filterMap fun c => (field? c).map (c, ·)

theorem ProjectUpdate.entries_eq (u : ProjectUpdate) : u.entries = fieldsOf u.field? Column.ofProject := by
  rcases u with ⟨_ | _, _ | _, _ | _⟩ <;> rfl

theorem RecordUpdate.entries_eq (u : RecordUpdate) : u.entries = fieldsOf u.field? Column.ofRecord := by
  rcases u with ⟨_ | _, _ | _, _ | _, _ | _⟩ <;> rfl

/-- What a statement is put together from. A page of records goes on behind a cursor that is complete, or
from the beginning. -/
inductive Assembled where
  | records (project : Id) (filter : RecordFilter) (limit : Nat) (cursor : RecordCursor)
      (key : Option (Instant × Id)) (complete : cursor.keyset = .ok key)
  | projectUpdate (id : Id) (u : ProjectUpdate)
  | recordUpdate (project id : Id) (u : RecordUpdate)

namespace Assembled

/-- The statement that both kinds of store send. -/
def statement : Assembled → Statement
  | records project filter limit _ key _ => .select (.records project filter limit key)
  | projectUpdate id u => .updateProject id u
  | recordUpdate project id u => .updateRecord project id u

/-- The places that are meant: for everything that is given a place behind its column. -/
def slots (kind : StoreKind) : Assembled → List Slot
  | records project filter limit cursor _ _ =>
    .of .projectId " = " (.id project) :: filter.slots kind ++ cursor.slots
      ++ [⟨"LIMIT ", .count limit⟩]
  | projectUpdate id u =>
    (fieldsOf u.field? Column.ofProject).map (fun e => .of e.1 " = " e.2) ++ [.of .id " = " (.id id)]
  | recordUpdate project id u =>
    (fieldsOf u.field? Column.ofRecord).map (fun e => .of e.1 " = " e.2)
      ++ [.of .projectId " = " (.id project), .of .id " = " (.id id)]

end Assembled

theorem flatMap_optional {α : Type} {condition : α → Condition} {slot : α → Slot}
    (one : ∀ a, (condition a).slots kind = [slot a]) (o : Option α) :
    (Selection.optional condition o).flatMap (Condition.slots kind) = o.toList.map slot := by
  cases o with
  | none => rfl
  | some a => simp [Selection.optional, one]

/-- A filter asks for its texts column by column. -/
theorem filtering_eq (f : RecordFilter) : Selection.filtering f
    = (if f.labels.entries.isEmpty then [] else [.labelled f.labels])
      ++ RecordFilter.textColumns.flatMap (fun c => Selection.matching c (f.text? c))
      ++ Selection.optional (fun t => .atLeast .operationTime (.instant t)) f.timeFrom
      ++ Selection.optional (fun t => .below .operationTime (.instant t)) f.timeTo := by
  simp [Selection.filtering, RecordFilter.textColumns, RecordFilter.text?]

theorem flatMap_filtering (f : RecordFilter) :
    (Selection.filtering f).flatMap (Condition.slots kind) = f.slots kind := by
  have labelled : (if f.labels.entries.isEmpty then [] else [Condition.labelled f.labels]).flatMap
      (Condition.slots kind) = if f.labels.entries = [] then [] else labelsSlots f.labels kind := by
    by_cases none : f.labels.entries = [] <;> simp [none, Condition.slots]
  have texts (c : Column) : (Selection.matching c (f.text? c)).flatMap (Condition.slots kind)
      = (f.wanted? c).toList.map fun s => .of c " = " (.text s) :=
    flatMap_optional (fun _ => rfl) _
  have lower : (Selection.optional (fun t => .atLeast .operationTime (.instant t)) f.timeFrom).flatMap
      (Condition.slots kind) = f.timeFrom.toList.map fun t => .of .operationTime " >= " (.instant t) :=
    flatMap_optional (fun _ => rfl) _
  have upper : (Selection.optional (fun t => .below .operationTime (.instant t)) f.timeTo).flatMap
      (Condition.slots kind) = f.timeTo.toList.map fun t => .of .operationTime " < " (.instant t) :=
    flatMap_optional (fun _ => rfl) _
  simp only [filtering_eq, List.flatMap_append, List.flatMap_assoc, labelled, texts, lower, upper,
    RecordFilter.slots]

theorem flatMap_after {cursor : RecordCursor} {key : Option (Instant × Id)}
    (complete : cursor.keyset = .ok key) :
    (Selection.after key).flatMap (Condition.slots kind) = cursor.slots := by
  rcases cursor with ⟨_ | t, _ | i⟩ <;> cases complete <;> rfl

theorem Assembled.fills (a : Assembled) : Fills (a.statement.pieces kind) (a.slots kind) := by
  cases a with
  | records project filter limit cursor key complete =>
    have conditions : (Selection.records project filter limit key).conditions.flatMap
        (Condition.slots kind) = .of .projectId " = " (.id project) :: filter.slots kind ++ cursor.slots := by
      rw [Selection.records, List.cons_append, List.flatMap_cons, List.flatMap_append,
        flatMap_filtering, flatMap_after complete]
      rfl
    rw [slots, ← conditions]
    exact fills_selection (.records project filter limit key)
  | projectUpdate id u =>
    rw [slots, ← u.entries_eq]
    exact fills_update .projects u.entries [.project id] Column.ofProject
  | recordUpdate project id u =>
    rw [slots, ← u.entries_eq]
    exact fills_update .records u.entries [.ofProject project, .equals .id (.id id)] []

/-! The words of a layout -/

/-- The word of a piece, if it is one. -/
def Piece.word? : Piece → Option String
  | text s => some s
  | place _ => none

/-- Whether two layouts differ in their values alone. -/
def SameWords (ps qs : List Piece) : Prop := ps.map word? = qs.map word?

namespace SameWords

variable {ps qs rs ts : List Piece}

theorem append (first : SameWords ps qs) (second : SameWords rs ts) : SameWords (ps ++ rs) (qs ++ ts) := by
  rw [SameWords, List.map_append, List.map_append, first, second]

theorem after (s : String) (rest : SameWords ps qs) : SameWords (text s :: ps) (text s :: qs) :=
  congrArg (some s :: ·) rest

/-- The values of a layout do not get into its text. -/
theorem render {mark : String} (same : SameWords ps qs) (n : Nat) :
    Piece.render mark n ps = Piece.render mark n qs := by
  induction ps generalizing qs n with
  | nil =>
    obtain rfl := List.map_eq_nil_iff.mp same.symm
    rfl
  | cons p ps ih =>
    cases qs with
    | nil => cases same
    | cons q qs =>
      obtain ⟨first, rest⟩ := List.cons.inj same
      cases p <;> cases q <;> cases first <;> simp only [Piece.render, ih rest]

theorem join {between : String} {l m : List (List Piece)} (parts : List.Forall₂ SameWords l m) :
    SameWords (Piece.join between l) (Piece.join between m) := by
  induction parts with
  | nil => rfl
  | cons first rest ih =>
    cases rest with
    | nil => exact first
    | cons second rest => exact first.append (ih.after between)

end SameWords

namespace Condition

/-- Whether two conditions differ in their values alone. -/
def Alike (kind : StoreKind) (c d : Condition) : Prop := SameWords (c.pieces kind) (d.pieces kind)

theorem alike_equals (c : Column) (v w : Value) : (equals c v).Alike kind (equals c w) := rfl

theorem alike_below (c : Column) (v w : Value) : (below c v).Alike kind (below c w) := rfl

theorem alike_atLeast (c : Column) (v w : Value) : (atLeast c v).Alike kind (atLeast c w) := rfl

end Condition

theorem sameWords_conditions {cs ds : List Condition} (alike : List.Forall₂ (Condition.Alike kind) cs ds) :
    SameWords (conditionPieces kind cs) (conditionPieces kind ds) := by
  cases alike with
  | nil => rfl
  | cons first rest =>
    have parts := List.Forall₂.cons first rest
    refine (SameWords.join ?_).after " WHERE "
    rw [List.forall₂_map_left_iff, List.forall₂_map_right_iff]
    exact parts

theorem sameWords_labels {l m : List (String × String)} (count : l.length = m.length) :
    SameWords (join " AND " (l.map labelPieces)) (join " AND " (m.map labelPieces)) := by
  refine SameWords.join ?_
  rw [List.forall₂_map_left_iff, List.forall₂_map_right_iff, List.forall₂_iff_get]
  exact ⟨count, fun _ _ _ => rfl⟩

theorem sameWords_assignments {l m : List (Column × Value)} (columns : l.map (·.1) = m.map (·.1)) :
    SameWords (join ", " (l.map assignmentPieces)) (join ", " (m.map assignmentPieces)) := by
  rw [← List.forall₂_eq_eq_eq, List.forall₂_map_left_iff, List.forall₂_map_right_iff] at columns
  refine SameWords.join ?_
  rw [List.forall₂_map_left_iff, List.forall₂_map_right_iff]
  exact columns.imp fun a b same => by simp [SameWords, assignmentPieces, word?, same]

/-! The same fields with any values -/

/-- Whether two filters ask for the same fields. On a server it counts whether there are labels, and in an
embedded database how many. -/
structure RecordFilter.Alike (kind : StoreKind) (f g : RecordFilter) : Prop where
  labels : match kind with
    | .embedded => f.labels.entries.length = g.labels.entries.length
    | .server => f.labels.entries = [] ↔ g.labels.entries = []
  texts : ∀ c, (f.wanted? c).isSome = (g.wanted? c).isSome
  timeFrom : f.timeFrom.isSome = g.timeFrom.isSome
  timeTo : f.timeTo.isSome = g.timeTo.isSome

structure ProjectUpdate.Alike (u w : ProjectUpdate) : Prop where
  displayName : u.displayName.isSome = w.displayName.isSome
  updateRecords : u.updateRecords.isSome = w.updateRecords.isSome
  deleteRecords : u.deleteRecords.isSome = w.deleteRecords.isSome

structure RecordUpdate.Alike (u w : RecordUpdate) : Prop where
  labels : u.labels.isSome = w.labels.isSome
  resource : u.resource.isSome = w.resource.isSome
  operation : u.operation.isSome = w.operation.isSome
  actor : u.actor.isSome = w.actor.isSome

/-- Whether two statements are put together from the same fields, whatever is in them. -/
def Assembled.Alike (kind : StoreKind) : Assembled → Assembled → Prop
  | records _ f _ c _ _, records _ g _ d _ _ => f.Alike kind g ∧ c.isEmpty = d.isEmpty
  | projectUpdate _ u, projectUpdate _ w => u.Alike w
  | recordUpdate _ _ u, recordUpdate _ _ w => u.Alike w
  | _, _ => False

theorem map_fieldsOf (field? : Column → Option Value) (columns : List Column) :
    (fieldsOf field? columns).map (·.1) = columns.filter fun c => (field? c).isSome := by
  induction columns with
  | nil => rfl
  | cons c rest ih =>
    rw [fieldsOf] at ih ⊢
    cases given : field? c <;> simp [given, ih]

theorem ProjectUpdate.Alike.columns {u w : ProjectUpdate} (alike : u.Alike w) :
    u.entries.map (·.1) = w.entries.map (·.1) := by
  rw [u.entries_eq, w.entries_eq, map_fieldsOf, map_fieldsOf]
  refine List.filter_congr fun c _ => ?_
  cases c <;> simp [field?, alike.displayName, alike.updateRecords, alike.deleteRecords]

theorem RecordUpdate.Alike.columns {u w : RecordUpdate} (alike : u.Alike w) :
    u.entries.map (·.1) = w.entries.map (·.1) := by
  rw [u.entries_eq, w.entries_eq, map_fieldsOf, map_fieldsOf]
  refine List.filter_congr fun c _ => ?_
  cases c <;> simp [field?, alike.labels, alike.resource, alike.operation, alike.actor]

theorem alike_optional {α : Type} {condition : α → Condition}
    (alike : ∀ a b, (condition a).Alike kind (condition b)) {o p : Option α} (same : o.isSome = p.isSome) :
    List.Forall₂ (Condition.Alike kind) (Selection.optional condition o)
      (Selection.optional condition p) := by
  cases o <;> cases p <;> first
    | contradiction
    | exact .nil
    | exact .cons (alike _ _) .nil

theorem RecordFilter.Alike.labelled {f g : RecordFilter} (alike : f.Alike kind g) :
    List.Forall₂ (Condition.Alike kind) (if f.labels.entries.isEmpty then [] else [.labelled f.labels])
      (if g.labels.entries.isEmpty then [] else [.labelled g.labels]) := by
  have both : f.labels.entries = [] ↔ g.labels.entries = [] := by
    cases kind with
    | embedded =>
      have count : f.labels.entries.length = g.labels.entries.length := alike.labels
      rw [← List.length_eq_zero_iff, ← List.length_eq_zero_iff, count]
    | server => exact alike.labels
  by_cases none : f.labels.entries = []
  · simp [none, both.mp none]
  · have some := mt both.mpr none
    simp only [List.isEmpty_iff, none, some, if_false]
    refine .cons ?_ .nil
    cases kind with
    | embedded => exact sameWords_labels alike.labels
    | server => exact rfl

theorem RecordFilter.Alike.filtering {f g : RecordFilter} (alike : f.Alike kind g) :
    List.Forall₂ (Condition.Alike kind) (Selection.filtering f) (Selection.filtering g) := by
  have texts : List.Forall₂ (Condition.Alike kind)
      (textColumns.flatMap fun c => Selection.matching c (f.text? c))
      (textColumns.flatMap fun c => Selection.matching c (g.text? c)) := by
    refine List.rel_flatMap (List.forall₂_same.mpr fun _ _ => rfl) ?_
    rintro c _ rfl
    exact alike_optional (fun _ _ => Condition.alike_equals c _ _) (alike.texts c)
  have lower : List.Forall₂ (Condition.Alike kind)
      (Selection.optional (fun t => .atLeast .operationTime (.instant t)) f.timeFrom)
      (Selection.optional (fun t => .atLeast .operationTime (.instant t)) g.timeFrom) :=
    alike_optional (fun _ _ => Condition.alike_atLeast _ _ _) alike.timeFrom
  have upper : List.Forall₂ (Condition.Alike kind)
      (Selection.optional (fun t => .below .operationTime (.instant t)) f.timeTo)
      (Selection.optional (fun t => .below .operationTime (.instant t)) g.timeTo) :=
    alike_optional (fun _ _ => Condition.alike_below _ _ _) alike.timeTo
  rw [filtering_eq, filtering_eq]
  exact List.rel_append (List.rel_append (List.rel_append alike.labelled texts) lower) upper

theorem alike_after {c d : RecordCursor} {k l : Option (Instant × Id)} (first : c.keyset = .ok k)
    (second : d.keyset = .ok l) (same : c.isEmpty = d.isEmpty) :
    List.Forall₂ (Condition.Alike kind) (Selection.after k) (Selection.after l) := by
  rcases c with ⟨_ | t, _ | i⟩ <;> rcases d with ⟨_ | t, _ | i⟩ <;> cases first <;> cases second <;> first
    | contradiction
    | exact .nil
    | exact .cons rfl (.cons rfl .nil)

theorem sameWords_records {project project' : Id} {f g : RecordFilter} {limit limit' : Nat}
    {k l : Option (Instant × Id)}
    (alike : List.Forall₂ (Condition.Alike kind) (Selection.records project f limit k).conditions
      (Selection.records project' g limit' l).conditions) :
    SameWords ((Selection.records project f limit k).pieces kind)
      ((Selection.records project' g limit' l).pieces kind) := by
  have bounds : SameWords (Bound.pieces (.upTo limit)) (Bound.pieces (.upTo limit')) := rfl
  exact (((sameWords_conditions alike).after _).append (bounds.after _)).append rfl

theorem sameWords_update {t : Table} {entries others : List (Column × Value)} {cs ds : List Condition}
    {returning : List Column} (columns : entries.map (·.1) = others.map (·.1))
    (alike : List.Forall₂ (Condition.Alike kind) cs ds) :
    SameWords (Statement.pieces kind (.update t entries cs returning))
      (Statement.pieces kind (.update t others ds returning)) :=
  (((sameWords_assignments columns).after _).append (sameWords_conditions alike)).append rfl

theorem Assembled.Alike.sameWords {a b : Assembled} (alike : a.Alike kind b) :
    SameWords (a.statement.pieces kind) (b.statement.pieces kind) := by
  cases a <;> cases b <;> try contradiction
  case records.records complete project' g limit' d l complete' =>
    exact sameWords_records (.cons (Condition.alike_equals _ _ _)
      (List.rel_append alike.1.filtering (alike_after complete complete' alike.2)))
  case projectUpdate.projectUpdate =>
    exact sameWords_update (ProjectUpdate.Alike.columns alike)
      (.cons (Condition.alike_equals _ _ _) .nil)
  case recordUpdate.recordUpdate =>
    exact sameWords_update (RecordUpdate.Alike.columns alike)
      (.cons (Condition.alike_equals _ _ _) (.cons (Condition.alike_equals _ _ _) .nil))

theorem Assembled.values_eq (a : Assembled) :
    a.statement.values kind = (a.slots kind).map Slot.value := by
  have fills : Fills (a.statement.pieces kind) (a.slots kind) := a.fills
  rw [Statement.values_eq_pieces, ← map_value_slots "", ← List.forall₂_eq_eq_eq,
    List.forall₂_map_left_iff, List.forall₂_map_right_iff]
  exact (fills "").imp fun _ _ ends => ends.1

/-- The place of a slot stands behind its words, and no digit follows its number. -/
theorem Assembled.text_at_slot (a : Assembled) {k : Nat} {slot : Slot}
    (found : (a.slots kind)[k]? = some slot) : ∃ before after,
      a.statement.text kind
        = before ++ " " ++ slot.words ++ kind.placeMark ++ toString (k + 1) ++ after
      ∧ Undigited after.toList := by
  have fills : Fills (a.statement.pieces kind) (a.slots kind) := a.fills
  obtain ⟨count, ends⟩ := List.forall₂_iff_get.mp (fills "")
  obtain ⟨inside, rfl⟩ := List.getElem?_eq_some_iff.mp found
  have whole := List.getElem?_eq_getElem (count ▸ inside)
  obtain ⟨-, opening, words⟩ := ends k (count ▸ inside) inside
  obtain ⟨front, later, suffix, text⟩ := render_at_slot (m := kind.placeMark) (n := 1) whole
  have worded : Worded later := fun s mem => Worded.statement kind a.statement s (suffix.mem mem)
  refine ⟨front ++ opening, render kind.placeMark (k + 1 + 1) later, ?_, undigited_render worded _⟩
  rw [List.get_eq_getElem] at words
  rw [String.empty_append, words, Nat.add_comm 1 k] at text
  rw [Statement.text_eq_render, text]
  simp only [String.append_assoc, List.get_eq_getElem]

/-- Every statement that is put together binds each of its values to a place of its own. The places are
numbered from one on from left to right, and each stands behind the name of the column that its value is
compared with or assigned to. The same fields make the same text, whatever is in them. -/
theorem assembled_statements_bind_their_fields (kind : StoreKind) (a : Assembled) :
    a.statement.values kind = (a.slots kind).map Slot.value
    ∧ placesIn kind.mark (a.statement.text kind).toList
      = (List.range' 1 (a.slots kind).length).map (fun n => kind.placeMark ++ toString n)
    ∧ (∀ k slot, (a.slots kind)[k]? = some slot → ∃ before after,
      a.statement.text kind
        = before ++ " " ++ slot.words ++ kind.placeMark ++ toString (k + 1) ++ after
      ∧ Undigited after.toList)
    ∧ ∀ b, a.Alike kind b → a.statement.text kind = b.statement.text kind := by
  refine ⟨a.values_eq, ?_, fun k slot => a.text_at_slot, fun b alike => ?_⟩
  · rw [Statement.places_eq, a.values_eq, List.length_map]
  · rw [Statement.text_eq_render, Statement.text_eq_render]
    exact (Assembled.Alike.sameWords alike).render 1

/-- A page of the records whose resources are of some kind. -/
def Assembled.ofResourceKind (s : String) : Assembled :=
  .records Id.nil ⟨.empty, some s, some "", none, none, none, none, none, none⟩ 50 ⟨none, none⟩ none rfl

/-- A text that looks like the rest of a statement stays a value: its place stands where that of any text
stands, and nothing else in the statement changes. -/
theorem assembled_statements_bind_their_fields_hostile :
    let hostile := "' OR 1 = 1 OR '$2?2' = '"
    let page := Assembled.ofResourceKind hostile
    (page.statement.values .server)[1]? = some (.text hostile)
    ∧ (∃ before after, page.statement.text .server
        = before ++ " " ++ (Column.resourceKind.text ++ " = ") ++ StoreKind.server.placeMark
          ++ toString (1 + 1) ++ after
      ∧ Undigited after.toList)
    ∧ page.statement.text .server = (Assembled.ofResourceKind "post").statement.text .server := by
  intro hostile page
  obtain ⟨values, -, placed, same⟩ := assembled_statements_bind_their_fields .server page
  have second : (page.slots .server)[1]? = some (.of .resourceKind " = " (.text hostile)) := by
    decide +kernel
  have alike : page.Alike .server (.ofResourceKind "post") := by
    refine ⟨⟨Iff.rfl, fun c => ?_, rfl, rfl⟩, rfl⟩
    cases c <;> simp [RecordFilter.wanted?, RecordFilter.text?, hostile]
  have here := placed 1 _ second
  rw [Slot.words_of] at here
  refine ⟨?_, here, same _ alike⟩
  rw [values, List.getElem?_map, second]
  rfl

end AuditTrail
