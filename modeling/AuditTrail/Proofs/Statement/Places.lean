import AuditTrail.Proofs.Statement.Layout
import Mathlib.Data.List.Basic

/-! The places in the text of a statement, found by looking for their marks. No word of a statement has
the mark of a place in it and none begins with a digit, so nothing else looks like a place and no word
goes on the number of a place. What is found are the numbers from one on, as many as values are bound. -/
namespace AuditTrail

def StoreKind.mark : StoreKind → Char
  | .embedded => '?'
  | .server => '$'

theorem StoreKind.toList_placeMark (kind : StoreKind) : kind.placeMark.toList = [kind.mark] := by
  cases kind <;> decide

/-- The places in a text from left to right: every mark with all digits behind it. -/
def placesIn (mark : Char) : List Char → List String
  | [] => []
  | c :: rest =>
    if c = mark then String.ofList (c :: rest.takeWhile Char.isDigit) :: placesIn mark rest
    else placesIn mark rest

/-- Whether a text does not begin with a digit. -/
def Undigited (cs : List Char) : Prop := ∀ c rest, cs = c :: rest → c.isDigit = false

theorem undigited_nil : Undigited [] := fun _ _ whole => by cases whole

theorem undigited_cons {c : Char} {rest : List Char} (other : c.isDigit = false) :
    Undigited (c :: rest) := fun _ _ whole => (List.cons.inj whole).1 ▸ other

theorem Undigited.append {cs ds : List Char} (first : Undigited cs) (second : Undigited ds) :
    Undigited (cs ++ ds) := by
  cases cs with
  | nil => exact second
  | cons c rest => exact undigited_cons (first c rest rfl)

/-- A text that can stand between places. -/
structure Wordy (s : String) : Prop where
  unmarked : ∀ kind : StoreKind, kind.mark ∉ s.toList
  undigited : Undigited s.toList

namespace Wordy

variable {s t : String}

theorem of_check (check : (s.toList.all fun c => c ≠ '?' ∧ c ≠ '$')
    ∧ (s.toList.head?.all fun c => !c.isDigit)) : Wordy s where
  unmarked kind mem := by
    have other := of_decide_eq_true (List.all_eq_true.mp check.1 _ mem)
    cases kind with
    | embedded => exact other.1 rfl
    | server => exact other.2 rfl
  undigited c rest whole := by simpa [whole] using check.2

theorem append (first : Wordy s) (second : Wordy t) : Wordy (s ++ t) where
  unmarked kind := by simp [first.unmarked kind, second.unmarked kind]
  undigited := by
    rw [String.toList_append]
    exact first.undigited.append second.undigited

theorem empty : Wordy "" := of_check (by decide)

theorem intercalate {between : String} (separator : Wordy between) {l : List String}
    (words : ∀ s ∈ l, Wordy s) : Wordy (between.intercalate l) := by
  induction l with
  | nil => exact empty
  | cons s rest ih =>
    cases rest with
    | nil =>
      rw [String.intercalate_singleton]
      exact words s List.mem_cons_self
    | cons t rest =>
      rw [String.intercalate_cons_cons]
      exact ((words s List.mem_cons_self).append separator).append
        (ih fun t mem => words t (List.mem_cons_of_mem s mem))

theorem column (c : Column) : Wordy c.text := of_check (by cases c <;> decide)

theorem table (t : Table) : Wordy t.name := of_check (by cases t <;> decide)

theorem columns (cs : List Column) : Wordy (columnList cs) := by
  refine intercalate (of_check (by decide)) fun s mem => ?_
  obtain ⟨c, -, rfl⟩ := List.mem_map.mp mem
  exact column c

theorem sortKey (k : SortKey) : Wordy k.text := by
  rw [SortKey.text]
  split
  · exact (column k.column).append (of_check (by decide))
  · exact column k.column

theorem order (l : List SortKey) : Wordy (orderText l) := by
  rw [orderText]
  split
  · exact empty
  · refine (of_check (by decide)).append (intercalate (of_check (by decide)) fun s mem => ?_)
    obtain ⟨k, -, rfl⟩ := List.mem_map.mp mem
    exact sortKey k

theorem returning (cs : List Column) : Wordy (returningText cs) := by
  rw [returningText]
  split
  · exact empty
  · exact (of_check (by decide)).append (columns cs)

end Wordy

/-! Layouts with words in them -/

/-- Whether all words of a layout can stand between places. -/
def Worded (ps : List Piece) : Prop := ∀ s, Piece.text s ∈ ps → Wordy s

namespace Worded

variable {ps qs : List Piece} {s : String} {v : Value}

theorem nil : Worded [] := fun _ mem => by cases mem

theorem text (word : Wordy s) (rest : Worded ps) : Worded (.text s :: ps) := fun t mem => by
  rcases List.mem_cons.mp mem with same | mem
  · exact Piece.text.inj same ▸ word
  · exact rest t mem

theorem place (rest : Worded ps) : Worded (.place v :: ps) := fun t mem => by
  rcases List.mem_cons.mp mem with other | mem
  · cases other
  · exact rest t mem

theorem append (first : Worded ps) (second : Worded qs) : Worded (ps ++ qs) := fun s mem =>
  (List.mem_append.mp mem).elim (first s) (second s)

theorem join {between : String} (separator : Wordy between) {l : List (List Piece)}
    (parts : ∀ ps ∈ l, Worded ps) : Worded (Piece.join between l) := by
  induction l with
  | nil => exact nil
  | cons ps rest ih =>
    cases rest with
    | nil => exact parts ps List.mem_cons_self
    | cons qs rest =>
      rw [Piece.join_cons_cons]
      exact (parts ps List.mem_cons_self).append
        (text separator (ih fun qs mem => parts qs (List.mem_cons_of_mem ps mem)))

theorem join_map {α : Type} {between : String} (separator : Wordy between) {pieces : α → List Piece}
    (parts : ∀ a, Worded (pieces a)) (l : List α) : Worded (Piece.join between (l.map pieces)) :=
  join separator fun _ mem => by
    obtain ⟨a, -, rfl⟩ := List.mem_map.mp mem
    exact parts a

/-- A column, some words, and a place. -/
theorem placed (c : Column) (word : Wordy s) (rest : Worded ps) :
    Worded (.text (c.text ++ s) :: .place v :: ps) :=
  text ((Wordy.column c).append word) (place rest)

theorem label (e : String × String) : Worded (labelPieces e) :=
  text (.of_check (by decide)) (place (text (.of_check (by decide)) (place
    (text (.of_check (by decide)) nil))))

theorem condition (kind : StoreKind) (c : Condition) : Worded (c.pieces kind) := by
  cases c with
  | equals c v | below c v | atLeast c v => exact placed c (.of_check (by decide)) nil
  | among c ids =>
    cases kind with
    | embedded | server => exact placed c (.of_check (by decide)) (text (.of_check (by decide)) nil)
  | labelled m =>
    cases kind with
    | embedded => exact join_map (.of_check (by decide)) label m.entries
    | server => exact text (.of_check (by decide)) (place nil)

theorem conditions (kind : StoreKind) (cs : List Condition) : Worded (conditionPieces kind cs) := by
  cases cs with
  | nil => exact nil
  | cons c rest =>
    exact text (.of_check (by decide)) (join_map (.of_check (by decide)) (condition kind) (c :: rest))

theorem bound (b : Bound) : Worded b.pieces := by
  cases b with
  | all => exact nil
  | first => exact text (.of_check (by decide)) nil
  | upTo n => exact text (.of_check (by decide)) (place nil)

theorem selection (kind : StoreKind) (s : Selection) : Worded (s.pieces kind) := by
  have chosen : Wordy ("SELECT " ++ if s.columns.isEmpty then "1" else columnList s.columns) := by
    split
    · exact .of_check (by decide)
    · exact Wordy.append (.of_check (by decide)) (.columns s.columns)
  have locked : Wordy (if s.locking then " FOR UPDATE" else "") := by
    split
    · exact .of_check (by decide)
    · exact .empty
  have opening := (chosen.append (t := " FROM ") (.of_check (by decide))).append (.table s.table)
  exact ((text opening (conditions kind s.conditions)).append
    (text (.order s.order) (bound s.bound))).append (text locked nil)

theorem statement (kind : StoreKind) (s : Statement) : Worded (s.pieces kind) := by
  cases s with
  | select s => exact selection kind s
  | insert t entries returning =>
    have opening : Wordy ("INSERT INTO " ++ t.name ++ " (" ++ columnList (entries.map (·.1))
        ++ ") VALUES (") :=
      (((Wordy.append (.of_check (by decide)) (.table t)).append (.of_check (by decide))).append
        (.columns _)).append (.of_check (by decide))
    exact (text opening (join_map (.of_check (by decide)) (fun _ => place nil) entries)).append
      (text (.of_check (by decide)) (text (.returning returning) nil))
  | update t entries cs returning =>
    have opening : Wordy ("UPDATE " ++ t.name ++ " SET ") :=
      (Wordy.append (.of_check (by decide)) (.table t)).append (.of_check (by decide))
    have assignments : Worded (Piece.join ", " (entries.map assignmentPieces)) :=
      join_map (.of_check (by decide)) (fun e => placed (s := " = ") e.1 (.of_check (by decide)) nil) entries
    exact ((text opening assignments).append (conditions kind cs)).append
      (text (.returning returning) nil)
  | delete t cs =>
    exact text (Wordy.append (.of_check (by decide)) (.table t)) (conditions kind cs)

end Worded

/-! Finding the places -/

variable {kind : StoreKind}

theorem placesIn_append {mark : Char} {word : List Char} (unmarked : mark ∉ word) (rest : List Char) :
    placesIn mark (word ++ rest) = placesIn mark rest := by
  induction word with
  | nil => rfl
  | cons c word ih =>
    obtain ⟨other, unmarked⟩ := not_or.mp (mt List.mem_cons.mpr unmarked)
    rw [List.cons_append, placesIn, if_neg (Ne.symm other), ih unmarked]

theorem digits_of_toString (n : Nat) : ∀ c ∈ (toString n).toList, c.isDigit = true := by
  intro c mem
  rw [Nat.toString_eq_repr, Nat.toList_repr] at mem
  exact Nat.isDigit_of_mem_toDigits (by decide) (by decide) mem

/-- A place is found whole if no digit follows it. -/
theorem placesIn_place (kind : StoreKind) (n : Nat) {rest : List Char} (undigited : Undigited rest) :
    placesIn kind.mark (kind.placeMark.toList ++ (toString n).toList ++ rest)
      = (kind.placeMark ++ toString n) :: placesIn kind.mark rest := by
  have number := digits_of_toString n
  have unmarked : kind.mark ∉ (toString n).toList := fun mem => by
    have digit := number _ mem
    cases kind <;> exact absurd digit (by decide)
  have run : ((toString n).toList ++ rest).takeWhile Char.isDigit = (toString n).toList := by
    rw [List.takeWhile_append_of_pos number]
    cases rest with
    | nil => simp
    | cons c rest => simp [undigited c rest rfl]
  rw [StoreKind.toList_placeMark, List.append_assoc, List.singleton_append, placesIn, if_pos rfl, run,
    placesIn_append unmarked]
  refine congrArg (· :: _) (String.toList_injective ?_)
  simp [StoreKind.toList_placeMark]

theorem undigited_render {ps : List Piece} (worded : Worded ps) (n : Nat) :
    Undigited (Piece.render kind.placeMark n ps).toList := by
  induction ps with
  | nil => exact undigited_nil
  | cons p ps ih =>
    have rest : Worded ps := fun s mem => worded s (List.mem_cons_of_mem p mem)
    cases p with
    | text s =>
      rw [Piece.render, String.toList_append]
      exact (worded s List.mem_cons_self).undigited.append (ih rest)
    | place v =>
      rw [Piece.render, String.toList_append, String.toList_append, StoreKind.toList_placeMark]
      exact undigited_cons (by cases kind <;> decide)

/-- The induction is on the layout: a word adds no place, and a place adds its own. -/
theorem placesIn_render {ps : List Piece} (worded : Worded ps) (n : Nat) :
    placesIn kind.mark (Piece.render kind.placeMark n ps).toList
      = (List.range' n (Piece.values ps).length).map fun k => kind.placeMark ++ toString k := by
  induction ps generalizing n with
  | nil => rfl
  | cons p ps ih =>
    have rest : Worded ps := fun s mem => worded s (List.mem_cons_of_mem p mem)
    cases p with
    | text s =>
      rw [Piece.render, String.toList_append,
        placesIn_append ((worded s List.mem_cons_self).unmarked kind), ih rest]
      rfl
    | place v =>
      rw [Piece.render, String.toList_append, String.toList_append,
        placesIn_place kind n (undigited_render rest (n + 1)), ih rest]
      rfl

/-- The places of a statement are numbered from one on from left to right, and there are as many as
there are values. -/
theorem Statement.places_eq (s : Statement) : placesIn kind.mark (s.text kind).toList
    = (List.range' 1 (s.values kind).length).map fun k => kind.placeMark ++ toString k := by
  rw [text_eq_render, values_eq_pieces, placesIn_render (Worded.statement kind s)]

end AuditTrail
