import AuditTrail.Statement.Text
import Mathlib.Data.List.Basic

/-! The layout of statements: pieces of text with values standing between them. While a statement is
written its places are numbered by a count of the values bound so far. In the finished text that number
is the rank of the place among all places, and the values are bound in the order in which they stand. -/
namespace AuditTrail

/-- A part of a statement's text, or a place for a value. -/
inductive Piece where
  | text (s : String)
  | place (value : Value)
deriving DecidableEq

namespace Piece

def join (between : String) : List (List Piece) → List Piece
  | [] => []
  | [p] => p
  | p :: ps => p ++ text between :: join between ps

/-- The text of pieces whose places are numbered from `n` on. -/
def render (mark : String) : Nat → List Piece → String
  | _, [] => ""
  | n, text s :: rest => s ++ render mark n rest
  | n, place _ :: rest => mark ++ toString n ++ render mark (n + 1) rest

def values : List Piece → List Value
  | [] => []
  | text _ :: rest => values rest
  | place v :: rest => v :: values rest

variable {mark : String}

theorem values_append (ps qs : List Piece) : values (ps ++ qs) = values ps ++ values qs := by
  induction ps with
  | nil => rfl
  | cons p r ih => cases p <;> simp [values, ih]

theorem render_append (n : Nat) (ps qs : List Piece) :
    render mark n (ps ++ qs) = render mark n ps ++ render mark (n + (values ps).length) qs := by
  induction ps generalizing n with
  | nil => simp [render, values]
  | cons p rest ih =>
    cases p with
    | text s => simp only [List.cons_append, render, values, ih, String.append_assoc]
    | place v =>
      have shift : n + 1 + (values rest).length = n + ((values rest).length + 1) := by omega
      simp only [List.cons_append, render, values, ih, String.append_assoc, List.length_cons, shift]

theorem join_cons_cons (between : String) (p q : List Piece) (ps : List (List Piece)) :
    join between (p :: q :: ps) = p ++ text between :: join between (q :: ps) := rfl

end Piece

open Piece

/-! How statements are laid out -/

def labelPieces (e : String × String) : List Piece :=
  [text "EXISTS (SELECT 1 FROM json_each(records.labels) WHERE key = ", place (.text e.1),
    text " AND value = ", place (.text e.2), text ")"]

def Condition.pieces (kind : StoreKind) : Condition → List Piece
  | equals c v => [text (c.text ++ " = "), place v]
  | below c v => [text (c.text ++ " < "), place v]
  | atLeast c v => [text (c.text ++ " >= "), place v]
  | among c ids =>
    match kind with
    | .embedded =>
      [text (c.text ++ " IN (SELECT value FROM json_each("), place (.ids ids), text "))"]
    | .server => [text (c.text ++ " = ANY("), place (.ids ids), text ")"]
  | labelled m =>
    match kind with
    | .embedded => join " AND " (m.entries.map labelPieces)
    | .server => [text "labels @> ", place (.map m)]

def conditionPieces (kind : StoreKind) : List Condition → List Piece
  | [] => []
  | cs => text " WHERE " :: join " AND " (cs.map (Condition.pieces kind))

def assignmentPieces (e : Column × Value) : List Piece :=
  [text (e.1.text ++ " = "), place e.2]

def Bound.pieces : Bound → List Piece
  | all => []
  | first => [text " LIMIT 1"]
  | upTo n => [text " LIMIT ", place (.count n)]

def Selection.pieces (kind : StoreKind) (s : Selection) : List Piece :=
  text ("SELECT " ++ (if s.columns.isEmpty then "1" else columnList s.columns) ++ " FROM "
      ++ s.table.name)
    :: conditionPieces kind s.conditions ++ text (orderText s.order) :: s.bound.pieces
    ++ [text (if s.locking then " FOR UPDATE" else "")]

namespace Statement

def pieces (kind : StoreKind) : Statement → List Piece
  | select s => s.pieces kind
  | insert t entries returning =>
    Piece.text ("INSERT INTO " ++ t.name ++ " (" ++ columnList (entries.map (·.1)) ++ ") VALUES (")
      :: join ", " (entries.map fun e => [place e.2])
      ++ [Piece.text ")", Piece.text (returningText returning)]
  | update t entries conditions returning =>
    Piece.text ("UPDATE " ++ t.name ++ " SET ") :: join ", " (entries.map assignmentPieces)
      ++ conditionPieces kind conditions ++ [Piece.text (returningText returning)]
  | delete t conditions => Piece.text ("DELETE FROM " ++ t.name) :: conditionPieces kind conditions

end Statement

/-! Writing follows the layout -/

namespace Writing

/-- Whether the text that is written and the values that are bound are those of a layout, whatever was
bound before. -/
def Follows (kind : StoreKind) (w : Writing String) (ps : List Piece) : Prop :=
  ∀ bound, w.run bound = (render kind.placeMark (bound.length + 1) ps, bound ++ values ps)

variable {kind : StoreKind} {v w : Writing String} {ps qs : List Piece}

theorem follows_text (s : String) : Follows kind (pure s) [text s] := fun bound => by
  change (s, bound) = _
  simp [render, values]

theorem follows_place (value : Value) : Follows kind (place kind value) [.place value] := fun bound => by
  change (kind.placeMark ++ toString (bound ++ [value]).length, bound ++ [value]) = _
  simp [render, values]

/-- What is written later stands later. -/
theorem Follows.append (first : Follows kind v ps) (second : Follows kind w qs) :
    Follows kind (do return (← v) ++ (← w)) (ps ++ qs) := fun bound => by
  change ((v.run bound).1 ++ (w.run (v.run bound).2).1, (w.run (v.run bound).2).2) = _
  have shift : (bound ++ values ps).length + 1 = bound.length + 1 + (values ps).length := by
    rw [List.length_append]
    omega
  rw [first bound, second (bound ++ values ps), render_append, values_append, shift, List.append_assoc]

theorem Follows.after (follows : Follows kind w ps) (before : String) :
    Follows kind (do return before ++ (← w)) (text before :: ps) :=
  (follows_text before).append follows

theorem Follows.before (follows : Follows kind w ps) (after : String) :
    Follows kind (do return (← w) ++ after) (ps ++ [text after]) :=
  follows.append (follows_text after)

/-- Two parts between texts, the first of which is written first. -/
theorem Follows.between (first : Follows kind v ps) (second : Follows kind w qs) (a b c : String) :
    Follows kind (do let s ← v; let t ← w; return a ++ s ++ b ++ t ++ c)
      (text a :: ps ++ text b :: qs ++ [text c]) := by
  have layout : text a :: ps ++ text b :: qs ++ [text c]
      = text a :: ps ++ [text b] ++ qs ++ [text c] := by simp
  rw [layout]
  exact (((first.after a).before b).append second).before c

variable {α : Type} {write : α → Writing String} {pieces : α → List Piece}

theorem follows_join (follows : ∀ a, Follows kind (write a) (pieces a)) (between : String) (l : List α) :
    Follows kind (do return between.intercalate (← l.mapM write)) (join between (l.map pieces)) := by
  induction l with
  | nil =>
    intro bound
    simp only [join, render, values, List.map_nil, List.append_nil]
    rfl
  | cons a rest ih =>
    cases rest with
    | nil =>
      intro bound
      rw [List.mapM_cons]
      change (between.intercalate [((write a).run bound).1], ((write a).run bound).2) = _
      rw [follows a bound, String.intercalate_singleton]
      rfl
    | cons b rest =>
      have parts : (do return between.intercalate (← (a :: b :: rest).mapM write))
          = (do return (← (do return (← write a) ++ (← pure between)))
            ++ (← (do return between.intercalate (← (b :: rest).mapM write)))) := by
        funext bound
        rw [List.mapM_cons, List.mapM_cons]
        exact congrArg (Prod.mk · _) String.intercalate_cons_cons
      have whole := ((follows a).append (follows_text between)).append ih
      rwa [← parts, List.append_assoc] at whole

/-! Parts of statements -/

theorem follows_label (e : String × String) : Follows .embedded (writeLabel e) (labelPieces e) :=
  (follows_place (.text e.1)).between (follows_place (.text e.2))
    "EXISTS (SELECT 1 FROM json_each(records.labels) WHERE key = " " AND value = " ")"

theorem follows_condition (c : Condition) : Follows kind (c.write kind) (c.pieces kind) := by
  cases c with
  | equals c v => exact (follows_place v).after (c.text ++ " = ")
  | below c v => exact (follows_place v).after (c.text ++ " < ")
  | atLeast c v => exact (follows_place v).after (c.text ++ " >= ")
  | among c ids =>
    cases kind with
    | embedded => exact ((follows_place (.ids ids)).after _).before "))"
    | server => exact ((follows_place (.ids ids)).after _).before ")"
  | labelled m =>
    cases kind with
    | embedded => exact follows_join follows_label " AND " m.entries
    | server => exact (follows_place (.map m)).after "labels @> "

theorem follows_conditions (cs : List Condition) :
    Follows kind (writeConditions kind cs) (conditionPieces kind cs) := by
  cases cs with
  | nil => exact fun bound => Prod.ext rfl (List.append_nil bound).symm
  | cons c rest => exact (follows_join follows_condition " AND " (c :: rest)).after " WHERE "

theorem follows_assignment (e : Column × Value) :
    Follows kind (writeAssignment kind e) (assignmentPieces e) :=
  (follows_place e.2).after (e.1.text ++ " = ")

theorem follows_bound (b : Bound) : Follows kind (b.write kind) b.pieces := by
  cases b with
  | all => exact fun bound => Prod.ext rfl (List.append_nil bound).symm
  | first => exact follows_text " LIMIT 1"
  | upTo n => exact (follows_place (.count n)).after " LIMIT "

theorem follows_statement (s : Statement) : Follows kind (s.write kind) (s.pieces kind) := by
  cases s with
  | select s => exact (follows_conditions s.conditions).between (follows_bound s.bound) _ _ _
  | insert t entries returning =>
    have places : Follows kind _ _ :=
      follows_join (fun e : Column × Value => follows_place e.2) ", " entries
    have whole := ((places.after ("INSERT INTO " ++ t.name ++ " (" ++ columnList (entries.map (·.1))
      ++ ") VALUES (")).before ")").before (returningText returning)
    rwa [List.append_assoc] at whole
  | update t entries conditions returning =>
    have assignments : Follows kind _ _ := follows_join follows_assignment ", " entries
    exact ((assignments.after ("UPDATE " ++ t.name ++ " SET ")).append
      (follows_conditions conditions)).before (returningText returning)
  | delete t conditions => exact (follows_conditions conditions).after ("DELETE FROM " ++ t.name)

end Writing

namespace Statement

variable {kind : StoreKind}

theorem text_eq_render (s : Statement) :
    s.text kind = render kind.placeMark 1 (s.pieces kind) :=
  congrArg Prod.fst (Writing.follows_statement s [])

theorem values_eq_pieces (s : Statement) : s.values kind = Piece.values (s.pieces kind) :=
  congrArg Prod.snd (Writing.follows_statement s [])

end Statement

end AuditTrail
