import AuditTrail.Proofs.Statement.Layout
import AuditTrail.Statement.Store

/-! The texts that a server gets, as they read. A text says what is done to which table, then names
conditions of which all have to hold, and then orders and bounds the answer. Every value has a place of its
own, and the places are numbered from one on in the order of the values. -/
namespace AuditTrail

namespace Piece

variable {mark : String}

variable {α : Type} {pieces : α → List Piece} {value : α → Value}

theorem values_join (one : ∀ a, values (pieces a) = [value a]) (between : String) (l : List α) :
    values (join between (l.map pieces)) = l.map value := by
  induction l with
  | nil => rfl
  | cons a rest ih =>
    cases rest with
    | nil => exact one a
    | cons b rest =>
      rw [List.map_cons, List.map_cons, join_cons_cons, values_append, one]
      exact congrArg (value a :: ·) ih

/-- Parts with one place each are numbered one by one. -/
theorem render_join (wording : α → Nat → String)
    (words : ∀ a n, render mark n (pieces a) = wording a n) (one : ∀ a, values (pieces a) = [value a])
    (between : String) (n : Nat) (l : List α) : render mark n (join between (l.map pieces))
      = between.intercalate ((l.zipIdx n).map fun p => wording p.1 p.2) := by
  induction l generalizing n with
  | nil => rfl
  | cons a rest ih =>
    cases rest with
    | nil => exact (words a n).trans String.intercalate_singleton.symm
    | cons b rest =>
      rw [List.map_cons, List.map_cons, join_cons_cons, render_append, words, one, render,
        List.length_singleton, ← List.map_cons, ih]
      simp only [List.zipIdx_cons, List.map_cons, String.intercalate_cons_cons, String.append_assoc]

end Piece

open Piece

/-- How the place of some number is written. -/
def placeText (n : Nat) : String := "$" ++ toString n

/-! Conditions -/

namespace Condition

/-- The value that a condition compares with. -/
def value : Condition → Value
  | equals _ v | below _ v | atLeast _ v => v
  | among _ ids => .ids ids
  | labelled m => .map m

/-- A condition on a server, whose value has the place of some number. -/
def comparison : Condition → Nat → String
  | equals c _, n => c.text ++ " = " ++ placeText n
  | below c _, n => c.text ++ " < " ++ placeText n
  | atLeast c _, n => c.text ++ " >= " ++ placeText n
  | among c _, n => c.text ++ " = ANY(" ++ placeText n ++ ")"
  | labelled _, n => "labels @> " ++ placeText n

theorem values_pieces (c : Condition) : values (c.pieces .server) = [c.value] := by
  cases c <;> rfl

theorem render_pieces (c : Condition) (n : Nat) : render "$" n (c.pieces .server) = c.comparison n := by
  cases c <;> simp [pieces, render, comparison, placeText, String.append_assoc]

end Condition

/-- Conditions whose places are numbered from `n` on. -/
def comparisons (n : Nat) (cs : List Condition) : List String :=
  (cs.zipIdx n).map fun p => p.1.comparison p.2

/-- What a text says after its verb: where all of some conditions hold. -/
def whereText : List String → String
  | [] => ""
  | conditions => " WHERE " ++ " AND ".intercalate conditions

theorem values_conditionPieces (cs : List Condition) :
    values (conditionPieces .server cs) = cs.map Condition.value := by
  cases cs with
  | nil => rfl
  | cons c rest => exact values_join Condition.values_pieces " AND " (c :: rest)

theorem render_conditionPieces (n : Nat) (cs : List Condition) :
    render "$" n (conditionPieces .server cs) = whereText (comparisons n cs) := by
  cases cs with
  | nil => rfl
  | cons c rest =>
    have words := render_join Condition.comparison Condition.render_pieces Condition.values_pieces
      " AND " n (c :: rest)
    simp only [conditionPieces, render, words]
    rfl

/-! Statements -/

/-- A text by its parts. -/
structure Sentence where
  verb : String
  conditions : List String
  rest : String

def Sentence.text (s : Sentence) : String :=
  s.verb ++ whereText s.conditions ++ s.rest

def Bound.textAt (n : Nat) : Bound → String
  | all => ""
  | first => " LIMIT 1"
  | upTo _ => " LIMIT " ++ placeText n

def Bound.values : Bound → List Value
  | all | first => []
  | upTo n => [.count n]

/-- Places for values of columns, numbered from one on. -/
def placeList (entries : List (Column × Value)) : String :=
  ", ".intercalate ((entries.zipIdx 1).map fun p => placeText p.2)

def assignmentList (entries : List (Column × Value)) : String :=
  ", ".intercalate ((entries.zipIdx 1).map fun p => p.1.1.text ++ " = " ++ placeText p.2)

theorem values_assignmentPieces (e : Column × Value) : values (assignmentPieces e) = [e.2] := rfl

theorem values_place (e : Column × Value) : values [place e.2] = [e.2] := rfl

theorem values_bound (b : Bound) : values b.pieces = b.values := by
  cases b <;> rfl

theorem render_bound (n : Nat) (b : Bound) : render "$" n b.pieces = b.textAt n := by
  cases b <;> simp [Bound.pieces, Bound.textAt, render, placeText]

theorem render_placeList (entries : List (Column × Value)) :
    render "$" 1 (join ", " (entries.map fun e => [place e.2])) = placeList entries :=
  render_join (fun _ n => placeText n) (by simp [render, placeText]) values_place _ _ _

theorem render_assignmentList (entries : List (Column × Value)) :
    render "$" 1 (join ", " (entries.map assignmentPieces)) = assignmentList entries :=
  render_join (fun (e : Column × Value) n => e.1.text ++ " = " ++ placeText n)
    (by simp [assignmentPieces, render, placeText]) values_assignmentPieces _ _ _

namespace Statement

/-- The values that a statement writes, by their columns. -/
def written : Statement → List (Column × Value)
  | select _ | delete _ _ => []
  | insert _ entries _ | update _ entries _ _ => entries

def bound : Statement → Bound
  | select s => s.bound
  | _ => .all

/-- What a statement does to which table. -/
def verb : Statement → String
  | select s =>
    "SELECT " ++ (if s.columns.isEmpty then "1" else columnList s.columns) ++ " FROM " ++ s.table.name
  | insert t entries _ =>
    "INSERT INTO " ++ t.name ++ " (" ++ columnList (entries.map (·.1)) ++ ") VALUES ("
      ++ placeList entries ++ ")"
  | update t entries _ _ => "UPDATE " ++ t.name ++ " SET " ++ assignmentList entries
  | delete t _ => "DELETE FROM " ++ t.name

/-- What a statement says about its answer. -/
def rest : Statement → String
  | select s =>
    orderText s.order ++ s.bound.textAt (s.conditions.length + 1)
      ++ if s.locking then " FOR UPDATE" else ""
  | insert _ _ returning | update _ _ _ returning => returningText returning
  | delete _ _ => ""

/-- A statement as a server reads it. -/
def sentence (s : Statement) : Sentence :=
  ⟨s.verb, comparisons (s.written.length + 1) s.conditions, s.rest⟩

/-- The values of a statement: what it writes, what it compares with, and how much it wants. -/
theorem values_eq (s : Statement) : s.values .server
    = s.written.map (·.2) ++ s.conditions.map Condition.value ++ s.bound.values := by
  rw [values_eq_pieces]
  cases s with
  | select s =>
    simp [Statement.pieces, Selection.pieces, Piece.values, values_append, values_conditionPieces,
      values_bound, written, conditions, bound]
  | insert t entries returning =>
    simp [Statement.pieces, Piece.values, values_append, values_join values_place, written, conditions,
      bound, Bound.values]
  | update t entries cs returning =>
    simp [Statement.pieces, Piece.values, values_append, values_join values_assignmentPieces,
      values_conditionPieces, written, conditions, bound, Bound.values]
  | delete t cs =>
    simp [Statement.pieces, Piece.values, values_conditionPieces, written, conditions, bound,
      Bound.values]

theorem text_eq (s : Statement) : s.text .server = s.sentence.text := by
  rw [text_eq_render]
  cases s with
  | select s =>
    have sentence : (select s).sentence = ⟨(select s).verb, comparisons 1 s.conditions,
      (select s).rest⟩ := rfl
    have verb : (select s).verb = "SELECT " ++ (if s.columns.isEmpty then "1"
      else columnList s.columns) ++ " FROM " ++ s.table.name := rfl
    have rest : (select s).rest = orderText s.order ++ s.bound.textAt (s.conditions.length + 1)
      ++ if s.locking then " FOR UPDATE" else "" := rfl
    simp only [Statement.pieces, Selection.pieces, StoreKind.placeMark, render, render_append,
      render_conditionPieces, values_conditionPieces, render_bound, sentence, verb, rest, Sentence.text,
      String.append_assoc, String.append_empty, List.cons_append, List.length_map, Nat.add_comm 1]
  | insert t entries returning =>
    have sentence : (insert t entries returning).sentence
      = ⟨(insert t entries returning).verb, [], returningText returning⟩ := rfl
    have verb : (insert t entries returning).verb = "INSERT INTO " ++ t.name ++ " ("
      ++ columnList (entries.map (·.1)) ++ ") VALUES (" ++ placeList entries ++ ")" := rfl
    simp only [Statement.pieces, StoreKind.placeMark, render, render_append, render_placeList, sentence,
      verb, Sentence.text, whereText, String.append_assoc, String.append_empty, List.cons_append]
  | update t entries cs returning =>
    have sentence : (update t entries cs returning).sentence
      = ⟨"UPDATE " ++ t.name ++ " SET " ++ assignmentList entries,
        comparisons (entries.length + 1) cs, returningText returning⟩ := rfl
    simp only [Statement.pieces, StoreKind.placeMark, render, render_append, render_assignmentList,
      values_join values_assignmentPieces, render_conditionPieces, sentence, Sentence.text,
      String.append_assoc, String.append_empty, List.cons_append, List.length_map, Nat.add_comm 1]
  | delete t cs =>
    have sentence : (delete t cs).sentence = ⟨"DELETE FROM " ++ t.name, comparisons 1 cs, ""⟩ := rfl
    simp only [Statement.pieces, StoreKind.placeMark, render, render_conditionPieces, sentence,
      Sentence.text, String.append_empty]

/-- Every condition is written with a place of its own, to which its value is bound. -/
theorem condition_placed {s : Statement} {i : Nat} {c : Condition} (found : s.conditions[i]? = some c) :
    s.sentence.conditions[i]? = some (c.comparison (s.written.length + i + 1)) ∧
      (s.values .server)[s.written.length + i]? = some c.value := by
  have inside : i < s.conditions.length := (List.getElem?_eq_some_iff.mp found).1
  constructor
  · have shift : s.written.length + 1 + i = s.written.length + i + 1 := by omega
    simp [sentence, comparisons, found, shift]
  · have first : s.written.length + i - (s.written.map (·.2)).length = i := by simp
    rw [values_eq, List.append_assoc, List.getElem?_append_right (by simp), first,
      List.getElem?_append_left (by simpa using inside), List.getElem?_map, found]
    rfl

/-- What is written is bound to the places in front. -/
theorem written_placed {s : Statement} {i : Nat} {e : Column × Value} (found : s.written[i]? = some e) :
    (s.values .server)[i]? = some e.2 := by
  have inside : i < s.written.length := (List.getElem?_eq_some_iff.mp found).1
  rw [values_eq, List.append_assoc, List.getElem?_append_left (by simpa using inside)]
  simp [found]

end Statement

/-! What updates write -/

/-- Whether an update of a record writes a column: those of the groups that it selects. -/
def RecordUpdate.writes (u : RecordUpdate) : Column → Bool
  | .labels => u.labels.isSome
  | .resourceKind | .resourceId | .resourceMetadata => u.resource.isSome
  | .operationKind | .operationId | .operationTime | .operationMetadata | .traceParent
  | .traceState | .operationStatus => u.operation.isSome
  | .actorKind | .actorId | .actorMetadata => u.actor.isSome
  | _ => false

theorem RecordUpdate.writes_of_mem {u : RecordUpdate} {column : Column}
    (mem : column ∈ u.entries.map (·.1)) : u.writes column = true := by
  simp only [entries, List.map_append, List.mem_append] at mem
  rcases mem with ((mem | mem) | mem) | mem
  · cases selected : u.labels <;> simp [selected, entryIf] at mem
    simp [mem, writes, selected]
  · cases selected : u.resource <;> simp [selected, Resource.entries] at mem
    rcases mem with rfl | rfl | rfl <;> simp [writes, selected]
  · cases selected : u.operation <;> simp [selected, Operation.entries] at mem
    rcases mem with rfl | rfl | rfl | rfl | rfl | rfl | rfl <;> simp [writes, selected]
  · cases selected : u.actor <;> simp [selected, Actor.entries] at mem
    rcases mem with rfl | rfl | rfl <;> simp [writes, selected]

/-- The groups of a record have no column in common. -/
theorem RecordUpdate.nodup_columns (u : RecordUpdate) : (u.entries.map (·.1)).Nodup := by
  rcases u with ⟨_ | _, _ | _, _ | _, _ | _⟩ <;>
    simp [entries, entryIf, Resource.entries, Operation.entries, Actor.entries]

theorem ProjectUpdate.column_of_mem {u : ProjectUpdate} {column : Column}
    (mem : column ∈ u.entries.map (·.1)) :
    column = .displayName ∨ column = .updateRecords ∨ column = .deleteRecords := by
  simp only [entries, List.map_append, List.mem_append] at mem
  rcases mem with (mem | mem) | mem
  · cases selected : u.displayName <;> simp [selected, entryIf] at mem
    exact .inl mem
  · cases selected : u.updateRecords <;> simp [selected, entryIf] at mem
    exact .inr (.inl mem)
  · cases selected : u.deleteRecords <;> simp [selected, entryIf] at mem
    exact .inr (.inr mem)

end AuditTrail
