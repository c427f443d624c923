import AuditTrail.Proofs.Statement.Layout
import AuditTrail.Statement.Store
import Mathlib.Data.List.Forall2

/-! Places by what they are for. A place stands behind words that name a column and a sign, or the bound of
an answer, and these are words of their own, with a blank before them. -/
namespace AuditTrail

/-- A place for a value, with the words right before it. -/
structure Slot where
  words : String
  value : Value
deriving DecidableEq

namespace Slot

/-- A place behind a column and a sign. -/
def of (c : Column) (sign : String) (v : Value) : Slot := ⟨c.text ++ sign, v⟩

@[simp] theorem words_of (c : Column) (sign : String) (v : Value) :
    (of c sign v).words = c.text ++ sign := rfl

/-- Whether a slot's words, with all that stands back to the place before, end in the words of another, as
words of their own. -/
def Ends (whole slot : Slot) : Prop :=
  whole.value = slot.value ∧ ∃ before, whole.words = before ++ " " ++ slot.words

end Slot

namespace Piece

/-- The places of a layout, each with all the words back to the place before. -/
def slots (words : String) : List Piece → List Slot
  | [] => []
  | text s :: rest => slots (words ++ s) rest
  | place v :: rest => ⟨words, v⟩ :: slots "" rest

/-- The words behind the last place. -/
def tail (words : String) : List Piece → String
  | [] => words
  | text s :: rest => tail (words ++ s) rest
  | place _ :: rest => tail "" rest

theorem slots_append (words : String) (ps qs : List Piece) :
    slots words (ps ++ qs) = slots words ps ++ slots (tail words ps) qs := by
  induction ps generalizing words with
  | nil => rfl
  | cons p ps ih =>
    cases p with
    | text s => exact ih _
    | place v => exact congrArg (_ :: ·) (ih _)

theorem map_value_slots (words : String) (ps : List Piece) :
    (slots words ps).map Slot.value = values ps := by
  induction ps generalizing words with
  | nil => rfl
  | cons p ps ih =>
    cases p with
    | text s => exact ih _
    | place v => exact congrArg (v :: ·) (ih _)

/-- A place stands in the text right behind its words. -/
theorem render_at_slot {m words : String} {ps : List Piece} {n k : Nat} {slot : Slot}
    (found : (slots words ps)[k]? = some slot) : ∃ before later, later <:+ ps
      ∧ words ++ render m n ps
        = before ++ slot.words ++ m ++ toString (n + k) ++ render m (n + k + 1) later := by
  induction ps generalizing words n k with
  | nil => cases found
  | cons p ps ih =>
    cases p with
    | text s =>
      obtain ⟨before, later, suffix, same⟩ := ih (n := n) found
      refine ⟨before, later, suffix.trans (List.suffix_cons _ ps), ?_⟩
      rw [render, ← String.append_assoc, same]
    | place v =>
      cases k with
      | zero =>
        obtain rfl := Option.some.inj found
        refine ⟨"", ps, List.suffix_cons _ ps, ?_⟩
        simp [render, String.append_assoc]
      | succ k =>
        obtain ⟨before, later, suffix, same⟩ := ih (n := n + 1) found
        refine ⟨words ++ m ++ toString n ++ before, later, suffix.trans (List.suffix_cons _ ps), ?_⟩
        have count : n + 1 + k = n + (k + 1) := by omega
        rw [count, String.empty_append] at same
        simp only [render, same, String.append_assoc]

end Piece

open Piece

/-! Layouts by their slots -/

/-- Whether the places of a layout are these slots, whatever words stand before it. -/
def Fills (ps : List Piece) (slots : List Slot) : Prop :=
  ∀ words, List.Forall₂ Slot.Ends (Piece.slots words ps) slots

/-- Whether the places of a layout are these slots as long as a blank stands before it. -/
def FillsBehindBlank (ps : List Piece) (slots : List Slot) : Prop :=
  ∀ words, List.Forall₂ Slot.Ends (Piece.slots (words ++ " ") ps) slots

namespace Fills

variable {ps qs : List Piece} {slots more : List Slot}

theorem nil : Fills [] [] := fun _ => .nil

theorem append (first : Fills ps slots) (second : Fills qs more) : Fills (ps ++ qs) (slots ++ more) := by
  intro words
  rw [slots_append]
  exact List.rel_append (first words) (second _)

theorem after (s : String) (fills : Fills ps slots) : Fills (text s :: ps) slots :=
  fun words => fills (words ++ s)

theorem before (s : String) (fills : Fills ps slots) : Fills (ps ++ [text s]) slots := by
  have whole := fills.append (nil.after s)
  rwa [List.append_nil] at whole

theorem afterBlank {s : String} (t : String) (blank : s = t ++ " ") (fills : FillsBehindBlank ps slots) :
    Fills (text s :: ps) slots := fun words => by
  have whole := fills (words ++ t)
  rwa [String.append_assoc, ← blank] at whole

end Fills

theorem fills_placed (words : String) (v : Value) :
    FillsBehindBlank [text words, place v] [⟨words, v⟩] := fun before =>
  .cons ⟨rfl, before, rfl⟩ .nil

/-- Between the parts of a layout stand words that end in a blank. -/
theorem fills_join {α : Type} {pieces : α → List Piece} {slots : α → List Slot}
    (parts : ∀ a, FillsBehindBlank (pieces a) (slots a)) {between : String} (t : String)
    (blank : between = t ++ " ") (l : List α) :
    FillsBehindBlank (join between (l.map pieces)) (l.flatMap slots) := by
  induction l with
  | nil => exact fun _ => .nil
  | cons a rest ih =>
    cases rest with
    | nil => simpa [join] using parts a
    | cons b rest =>
      intro words
      rw [List.map_cons, List.map_cons, join_cons_cons, slots_append, List.flatMap_cons]
      exact List.rel_append (parts a words) ((Fills.afterBlank t blank ih) _)

/-! The parts of statements by their slots -/

def labelSlots (e : String × String) : List Slot :=
  [⟨"EXISTS (SELECT 1 FROM json_each(records.labels) WHERE key = ", .text e.1⟩,
    ⟨"AND value = ", .text e.2⟩]

/-- Labels are looked up one by one in an embedded database, and at once on a server. -/
def labelsSlots (m : TextMap) : StoreKind → List Slot
  | .embedded => m.entries.flatMap labelSlots
  | .server => [⟨"labels @> ", .map m⟩]

def Condition.slots (kind : StoreKind) : Condition → List Slot
  | equals c v => [.of c " = " v]
  | below c v => [.of c " < " v]
  | atLeast c v => [.of c " >= " v]
  | among c ids =>
    match kind with
    | .embedded => [.of c " IN (SELECT value FROM json_each(" (.ids ids)]
    | .server => [.of c " = ANY(" (.ids ids)]
  | labelled m => labelsSlots m kind

def Bound.slots : Bound → List Slot
  | all | first => []
  | upTo n => [⟨"LIMIT ", .count n⟩]

variable {kind : StoreKind}

theorem fills_label (e : String × String) : FillsBehindBlank (labelPieces e) (labelSlots e) := fun before =>
  .cons ⟨rfl, before, rfl⟩ (.cons ⟨rfl, "", rfl⟩ .nil)

theorem fills_condition (c : Condition) : FillsBehindBlank (c.pieces kind) (c.slots kind) := by
  cases c with
  | equals c v | below c v | atLeast c v => exact fills_placed _ v
  | among c ids =>
    cases kind with
    | embedded | server => exact fun before => .cons ⟨rfl, before, rfl⟩ .nil
  | labelled m =>
    cases kind with
    | embedded => exact fills_join fills_label " AND" rfl m.entries
    | server => exact fills_placed _ _

theorem fills_conditions (cs : List Condition) :
    Fills (conditionPieces kind cs) (cs.flatMap (Condition.slots kind)) := by
  cases cs with
  | nil => exact .nil
  | cons c rest => exact .afterBlank " WHERE" rfl (fills_join fills_condition " AND" rfl (c :: rest))

theorem fills_bound (b : Bound) : Fills b.pieces b.slots := by
  cases b with
  | all => exact .nil
  | first => exact fun _ => .nil
  | upTo n => exact fun words => .cons ⟨rfl, words, by simp [String.append_assoc]⟩ .nil

theorem fills_selection (s : Selection) :
    Fills (s.pieces kind) (s.conditions.flatMap (Condition.slots kind) ++ s.bound.slots) :=
  (((fills_conditions s.conditions).after _).append
    ((fills_bound s.bound).after (orderText s.order))).before _

theorem fills_update (t : Table) (entries : List (Column × Value)) (cs : List Condition)
    (returning : List Column) : Fills (Statement.pieces kind (.update t entries cs returning))
      (entries.map (fun e => .of e.1 " = " e.2) ++ cs.flatMap (Condition.slots kind)) := by
  have one : ∀ e, FillsBehindBlank (assignmentPieces e) [Slot.of e.1 " = " e.2] := fun e =>
    fills_placed (e.1.text ++ " = ") e.2
  have assignments : FillsBehindBlank (join ", " (entries.map assignmentPieces)) _ :=
    fills_join one "," rfl entries
  have opening : "UPDATE " ++ t.name ++ " SET " = "UPDATE " ++ t.name ++ " SET" ++ " " := by
    simp only [String.append_assoc, String.reduceAppend]
  rw [← List.map_eq_flatMap] at assignments
  exact ((Fills.afterBlank _ opening assignments).append (fills_conditions cs)).before _

end AuditTrail
