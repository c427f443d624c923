import AuditTrail.Json.Source
import AuditTrail.Json.Value
import AuditTrail.Proofs.Text.Positional
import Mathlib.Tactic.IntervalCases

/-! A written document is read as what was written: strings keep their escapes, which stand for the
characters that were escaped, and numbers keep their digits. -/
namespace AuditTrail.Json

open Positional

/-- Characters as they stand in a string. -/
def written (s : String) : Units := (s.toList.flatMap escape).map some

mutual

/-- What a reader finds where a document has been written. -/
def source : Json → Source
  | null => .null
  | boolean b => .boolean b
  | number n => .number (writeNumber n)
  | string s => .string (written s)
  | array items => .array (sources items)
  | object members => .object (memberSources members)

def sources : List Json → List Source
  | [] => []
  | j :: rest => source j :: sources rest

def memberSources : List (String × Json) → List (Units × Source)
  | [] => []
  | (k, j) :: rest => (written k, source j) :: memberSources rest

end

theorem memberSources_eq_map (members : List (String × Json)) :
    memberSources members = members.map fun m => (written m.1, m.2.source) := by
  induction members with
  | nil => rfl
  | cons m rest ih => rw [memberSources, ih, List.map_cons]

theorem sources_eq_map (items : List Json) : sources items = items.map source := by
  induction items with
  | nil => rfl
  | cons j rest ih => rw [sources, ih, List.map_cons]

/-! Strings -/

/-- A character is escaped by one other character, by its number, or not at all. -/
theorem escape_cases (c : Char) :
    (∃ e, escape c = ['\\', e] ∧ e ≠ 'u' ∧ isShortEscape e = true ∧ shortEscape e = c) ∨
    (c.toNat < 32 ∧ escape c = '\\' :: 'u' :: (digits 16 4 c.toNat).map digitChar) ∨
    (escape c = [c] ∧ c ≠ '"' ∧ c ≠ '\\' ∧ 32 ≤ c.toNat) := by
  unfold escape
  repeat' split
  all_goals first
    | next same => subst same; exact .inl ⟨_, rfl, by decide, rfl, rfl⟩
    | next small => exact .inr (.inl ⟨small, rfl⟩)
    | next quote backslash _ _ _ _ _ large =>
      exact .inr (.inr ⟨rfl, quote, backslash, Nat.not_lt.mp large⟩)

/-- The four digits of a number, which stand for it. -/
theorem four_digits {n : Nat} (small : n < 32) : ∃ a b c d,
    (digits 16 4 n).map digitChar = [a, b, c, d] ∧
      (isHex (some a) && isHex (some b) && isHex (some c) && isHex (some d)) = true ∧
      hexNumber? [some a, some b, some c, some d] = some n := by
  have all : ∀ n, n < 32 →
      (isHex (some (digitChar (n / 16 / 16 / 16 % 16))) && isHex (some (digitChar (n / 16 / 16 % 16)))
        && isHex (some (digitChar (n / 16 % 16))) && isHex (some (digitChar (n % 16)))) = true ∧
      hexNumber? [some (digitChar (n / 16 / 16 / 16 % 16)), some (digitChar (n / 16 / 16 % 16)),
        some (digitChar (n / 16 % 16)), some (digitChar (n % 16))] = some n := by
    decide
  exact ⟨_, _, _, _, rfl, all n small⟩

section
variable {e c : Char} {r : Units}

theorem readString_short (other : e ≠ 'u') (known : isShortEscape e = true) :
    readString (some '\\' :: some e :: r)
      = (readString r).map fun (w, r) => (some '\\' :: some e :: w, r) := by
  rw [readString, if_pos known]
  exact fun _ _ _ _ _ _ => other

theorem readString_plain (quote : c ≠ '"') (backslash : c ≠ '\\') (large : 32 ≤ c.toNat) :
    readString (some c :: r) = (readString r).map fun (w, r) => (some c :: w, r) := by
  rw [readString, if_neg (by simp [backslash, large])]
  · exact quote
  · exact fun _ _ _ _ _ _ => backslash
  · exact fun _ _ _ => backslash

theorem decodeString_short (other : e ≠ 'u') :
    decodeString (some '\\' :: some e :: r) = (decodeString r).map (shortEscape e :: ·) := by
  rw [decodeString]
  exact fun _ _ _ _ _ _ => other

theorem decodeString_plain (backslash : c ≠ '\\') :
    decodeString (some c :: r) = (decodeString r).map (c :: ·) := by
  rw [decodeString]
  · exact fun _ _ _ _ _ _ => backslash
  · exact fun _ _ _ => backslash
end

theorem readString_written (cs : List Char) (rest : Units) :
    readString ((cs.flatMap escape).map some ++ some '"' :: rest)
      = some ((cs.flatMap escape).map some, rest) := by
  induction cs with
  | nil => rfl
  | cons c cs ih =>
    rw [List.flatMap_cons, List.map_append, List.append_assoc]
    rcases escape_cases c with ⟨e, short, other, known, -⟩ | ⟨small, long⟩ |
      ⟨plain, quote, backslash, large⟩
    · simp only [short, List.map_cons, List.map_nil, List.cons_append, List.nil_append,
        readString_short other known, ih, Option.map_some]
    · obtain ⟨a, b, c, d, written, hex, -⟩ := four_digits small
      simp only [long, written, List.map_cons, List.map_nil, List.cons_append, List.nil_append,
        readString, hex, if_true, ih, Option.map_some]
    · simp only [plain, List.map_cons, List.map_nil, List.cons_append, List.nil_append,
        readString_plain quote backslash large, ih, Option.map_some]

theorem decodeString_written (cs : List Char) :
    decodeString ((cs.flatMap escape).map some) = some cs := by
  induction cs with
  | nil => rfl
  | cons c cs ih =>
    rw [List.flatMap_cons, List.map_append]
    rcases escape_cases c with ⟨e, short, other, -, same⟩ | ⟨small, long⟩ |
      ⟨plain, -, backslash, -⟩
    · simp only [short, List.map_cons, List.map_nil, List.cons_append, List.nil_append,
        decodeString_short other, ih, Option.map_some, same]
    · obtain ⟨x, y, z, w, written, -, number⟩ := four_digits small
      have low : ¬ (0xD800 ≤ c.toNat ∧ c.toNat ≤ 0xDBFF) := by omega
      have high : ¬ (0xDC00 ≤ c.toNat ∧ c.toNat ≤ 0xDFFF) := by omega
      simp only [long, written, List.map_cons, List.map_nil, List.cons_append, List.nil_append,
        decodeString, number, low, high, if_false, ih, Option.map_some, Char.ofNat_toNat]
    · simp only [plain, List.map_cons, List.map_nil, List.cons_append, List.nil_append,
        decodeString_plain backslash, ih, Option.map_some]

@[simp] theorem textOf?_written (s : String) : textOf? (written s) = some s := by
  rw [textOf?, written, decodeString_written, Option.map_some, String.ofList_toList]

/-! Numbers -/

/-- Input after a value: none, or a mark that ends the value. -/
def Ends (rest : Units) : Prop := ∀ u ∈ rest.head?, u ∈ [some ',', some ']', some '\x7d']

theorem ends_nil : Ends [] := by simp [Ends]

theorem ends_cons {c : Char} (mark : some c ∈ [some ',', some ']', some '\x7d']) (rest : Units) :
    Ends (some c :: rest) := by
  simpa [Ends] using mark

theorem spanDigits_append {ds : List Char} {rest : Units}
    (digits : ∀ c ∈ ds, (decimalValue? c).isSome = true) (ends : Ends rest) :
    spanDigits (ds.map some ++ rest) = (ds, rest) := by
  induction ds with
  | nil =>
    cases rest with
    | nil => rfl
    | cons u rest =>
      have mark := ends u rfl
      simp only [List.mem_cons, List.not_mem_nil, or_false] at mark
      rcases mark with rfl | rfl | rfl <;> rfl
  | cons c ds ih =>
    obtain ⟨first, others⟩ := List.forall_mem_cons.mp digits
    rw [List.map_cons, List.cons_append, spanDigits, if_pos first, ih others]

theorem ends_cases {rest : Units} (ends : Ends rest) :
    rest = [] ∨ ∃ c r, rest = some c :: r ∧ (c = ',' ∨ c = ']' ∨ c = '\x7d') := by
  cases rest with
  | nil => exact .inl rfl
  | cons u r =>
    have mark := ends u rfl
    simp only [List.mem_cons, List.not_mem_nil, or_false] at mark
    rcases mark with rfl | rfl | rfl
    · exact .inr ⟨_, r, rfl, .inl rfl⟩
    · exact .inr ⟨_, r, rfl, .inr (.inl rfl)⟩
    · exact .inr ⟨_, r, rfl, .inr (.inr rfl)⟩

theorem decimal_eq_cons (n : Nat) : ∃ d ds, d < 10 ∧ decimal n = digitChar d :: ds := by
  obtain ⟨ds, written, digits, -, some, -⟩ := decimal_digits n
  obtain ⟨d, rest, rfl⟩ := List.exists_cons_of_ne_nil some
  exact ⟨d, rest.map digitChar, digits d List.mem_cons_self, written⟩

/-- A number is made of digits, and has no zero in front of another. -/
theorem decimal_whole (n : Nat) : (∀ c ∈ decimal n, (decimalValue? c).isSome = true) ∧
    ((decimal n).isEmpty || ((decimal n).head? = some '0' && (decimal n).length ≠ 1)) = false := by
  obtain ⟨ds, written, digits, -, some, front⟩ := decimal_digits n
  rw [written]
  refine ⟨fun c => decimalValue?_of_mem_digitChar digits, ?_⟩
  obtain ⟨d, rest, rfl⟩ := List.exists_cons_of_ne_nil some
  have small : d < 16 := Nat.lt_trans (digits d List.mem_cons_self) (by decide)
  have zero : digitChar d = '0' ↔ d = 0 := digitChar_inj d small 0 (by decide)
  simp only [List.map_cons, List.isEmpty_cons, List.head?_cons, Option.some.injEq, zero,
    List.length_cons, List.length_map, Bool.false_or, Bool.and_eq_false_iff,
    decide_eq_false_iff_not]
  rw [← not_and_or]
  rintro ⟨rfl, long⟩
  exact long (front rfl).2

theorem readNumber_writeNumber (n : Int) {rest : Units} (ends : Ends rest) :
    readNumber ((writeNumber n).map some ++ rest) = some (writeNumber n, rest) := by
  obtain ⟨digits, whole⟩ := decimal_whole n.natAbs
  have span := spanDigits_append digits ends
  by_cases negative : n < 0
  · rw [writeNumber, if_pos negative, List.map_cons, List.cons_append]
    simp only [readNumber, span, whole]
    rcases ends_cases ends with rfl | ⟨c, r, rfl, rfl | rfl | rfl⟩ <;> simp
  · have unsigned : ∀ r, (decimal n.natAbs).map some ++ rest ≠ some '-' :: r := by
      obtain ⟨d, ds, small, written⟩ := decimal_eq_cons n.natAbs
      have digit : ∀ d, d < 10 → digitChar d ≠ '-' := by decide
      intro r same
      rw [written, List.map_cons, List.cons_append] at same
      exact digit d small (Option.some.inj (List.cons.inj same).1)
    rw [writeNumber, if_neg negative]
    simp only [readNumber, span, whole]
    rcases ends_cases ends with rfl | ⟨c, r, rfl, rfl | rfl | rfl⟩ <;> simp

/-! Documents -/

/-- The characters that a document can begin with. -/
def openings : List Char := "nft\"[\x7b-0123456789".toList

theorem skip_cons {c : Char} (solid : isSpace (some c) = false) (r : Units) :
    skip (some c :: r) = some c :: r := by
  rw [skip, List.dropWhile_cons_of_neg (by simp [solid])]

theorem isSpace_of_mem_openings (c : Char) (mem : c ∈ openings) : isSpace (some c) = false := by
  have solid : openings.all (fun c => !isSpace (some c)) = true := by decide
  simpa using List.all_eq_true.mp solid c mem

/-- A number begins with a digit or a minus sign. -/
theorem writeNumber_eq_cons (n : Int) :
    ∃ c r, writeNumber n = c :: r ∧ (c = '-' ∨ ∃ d < 10, c = digitChar d) := by
  unfold writeNumber
  split
  · exact ⟨'-', _, rfl, .inl rfl⟩
  · obtain ⟨d, ds, small, written⟩ := decimal_eq_cons n.natAbs
    exact ⟨_, ds, written, .inr ⟨d, small, rfl⟩⟩

theorem write_eq_cons (j : Json) : ∃ c r, write j = c :: r ∧ c ∈ openings := by
  cases j with
  | null => exact ⟨'n', _, rfl, by decide⟩
  | boolean b => cases b <;> exact ⟨_, _, rfl, by decide⟩
  | number n =>
    obtain ⟨c, r, written, first⟩ := writeNumber_eq_cons n
    refine ⟨c, r, written, ?_⟩
    rcases first with rfl | ⟨d, small, rfl⟩
    · decide
    · have digit : ∀ d, d < 10 → digitChar d ∈ openings := by decide
      exact digit d small
  | string s => exact ⟨'"', _, rfl, by decide⟩
  | array items => exact ⟨'[', _, rfl, by decide⟩
  | object members => exact ⟨'\x7b', _, rfl, by decide⟩

/-- What begins like a number is read as one. -/
theorem readValue_number (fuel : Nat) {c : Char} (first : c = '-' ∨ ∃ d < 10, c = digitChar d)
    (r : Units) : readValue (fuel + 1) (some c :: r)
      = (readNumber (some c :: r)).map fun (n, r) => (.number n, r) := by
  rcases first with rfl | ⟨d, small, rfl⟩
  · rfl
  · interval_cases d <;> rfl

theorem length_write_pos (j : Json) : 0 < (write j).length := by
  obtain ⟨c, r, written, -⟩ := write_eq_cons j
  rw [written]
  exact Nat.succ_pos _

theorem writeItems_cons (j k : Json) (rest : List Json) :
    writeItems (j :: k :: rest) = write j ++ ',' :: writeItems (k :: rest) := rfl

theorem writeMembers_cons (m n : String × Json) (rest : List (String × Json)) :
    writeMembers (m :: n :: rest)
      = writeString m.1 ++ ':' :: write m.2 ++ ',' :: writeMembers (n :: rest) := rfl

/-- The items of an array begin as the first of them does. -/
theorem writeItems_eq_cons (j : Json) (items : List Json) :
    ∃ c r, writeItems (j :: items) = c :: r ∧ c ∈ openings := by
  obtain ⟨c, r, written, first⟩ := write_eq_cons j
  cases items with
  | nil => exact ⟨c, r, written, first⟩
  | cons k rest =>
    refine ⟨c, r ++ ',' :: writeItems (k :: rest), ?_, first⟩
    rw [writeItems_cons, written, List.cons_append]

theorem writeMembers_eq_cons (m : String × Json) (members : List (String × Json)) :
    ∃ r, writeMembers (m :: members) = '"' :: r := by
  cases members with
  | nil => exact ⟨_, rfl⟩
  | cons n rest => exact ⟨_, rfl⟩

theorem readValue_items (fuel : Nat) {c : Char} (first : c ∈ openings) (r : Units) :
    readValue (fuel + 1) (some '[' :: some c :: r)
      = (readItems fuel (some c :: r)).map fun (items, r) => (.array items, r) := by
  rw [readValue, skip_cons rfl]
  simp only [skip_cons (isSpace_of_mem_openings c first)]
  split
  · next closed =>
    obtain rfl := Option.some.inj (List.cons.inj closed).1
    exact absurd first (by decide)
  · rfl

theorem readValue_members (fuel : Nat) (r : Units) :
    readValue (fuel + 1) (some '\x7b' :: some '"' :: r)
      = (readMembers fuel (some '"' :: r)).map fun (members, r) => (.object members, r) := rfl

theorem readString_writeString (s : String) (rest : Units) :
    ∃ r, (writeString s).map some ++ rest = some '"' :: r ∧ readString r = some (written s, rest) := by
  refine ⟨written s ++ some '"' :: rest, ?_, readString_written s.toList rest⟩
  simp [writeString, written]

mutual

theorem readValue_write (j : Json) (fuel : Nat) (rest : Units)
    (enough : 2 * (write j).length ≤ fuel) (ends : Ends rest) :
    readValue fuel ((write j).map some ++ rest) = some (j.source, rest) := by
  have pos := length_write_pos j
  obtain ⟨fuel, rfl⟩ := Nat.exists_eq_succ_of_ne_zero (n := fuel) (by omega)
  match j with
  | null => rfl
  | boolean true => rfl
  | boolean false => rfl
  | number n =>
    obtain ⟨c, r, written, first⟩ := writeNumber_eq_cons n
    have read := readNumber_writeNumber n ends
    rw [write, source]
    rw [written, List.map_cons, List.cons_append] at read ⊢
    rw [readValue_number fuel first, read]
    rfl
  | string s =>
    obtain ⟨r, opened, read⟩ := readString_writeString s rest
    rw [write, source, opened, readValue, skip_cons rfl]
    simp only [read, Option.map_some]
  | array [] => rfl
  | array (k :: items) =>
    have short : 2 * (writeItems (k :: items)).length < fuel := by
      simp only [write, List.length_append, List.length_cons, List.length_nil] at enough
      omega
    have read := readItems_write k items fuel rest short
    obtain ⟨c, r, written, first⟩ := writeItems_eq_cons k items
    simp only [write, source, List.map_cons, List.map_append, List.cons_append, List.append_assoc,
      List.map_nil, List.nil_append]
    rw [written, List.map_cons, List.cons_append] at read ⊢
    rw [readValue_items fuel first, read, Option.map_some]
  | object [] => rfl
  | object (m :: members) =>
    have short : 2 * (writeMembers (m :: members)).length < fuel := by
      simp only [write, List.length_append, List.length_cons, List.length_nil] at enough
      omega
    have read := readMembers_write m members fuel rest short
    obtain ⟨r, written⟩ := writeMembers_eq_cons m members
    simp only [write, source, List.map_cons, List.map_append, List.cons_append, List.append_assoc,
      List.map_nil, List.nil_append]
    rw [written, List.map_cons, List.cons_append] at read ⊢
    rw [readValue_members fuel, read, Option.map_some]
termination_by fuel

theorem readItems_write (j : Json) (items : List Json) (fuel : Nat) (rest : Units)
    (enough : 2 * (writeItems (j :: items)).length < fuel) :
    readItems fuel ((writeItems (j :: items)).map some ++ some ']' :: rest)
      = some (sources (j :: items), rest) := by
  obtain ⟨fuel, rfl⟩ := Nat.exists_eq_succ_of_ne_zero (n := fuel) (by omega)
  match items with
  | [] =>
    have read := readValue_write j fuel (some ']' :: rest)
      (by rw [writeItems] at enough; omega) (ends_cons (by decide) _)
    rw [writeItems, readItems, read]
    rfl
  | k :: items =>
    rw [writeItems_cons] at enough ⊢
    rw [List.length_append, List.length_cons] at enough
    have read := readValue_write j fuel
      (some ',' :: ((writeItems (k :: items)).map some ++ some ']' :: rest))
      (by omega) (ends_cons (by decide) _)
    have others := readItems_write k items fuel rest (by omega)
    rw [List.map_append, List.map_cons, List.append_assoc, List.cons_append, readItems, read]
    simp only [Option.bind_eq_bind, Option.bind_some, skip_cons (c := ',') rfl, others]
    rfl
termination_by fuel

theorem readMembers_write (m : String × Json) (members : List (String × Json)) (fuel : Nat)
    (rest : Units) (enough : 2 * (writeMembers (m :: members)).length < fuel) :
    readMembers fuel ((writeMembers (m :: members)).map some ++ some '\x7d' :: rest)
      = some (memberSources (m :: members), rest) := by
  obtain ⟨fuel, rfl⟩ := Nat.exists_eq_succ_of_ne_zero (n := fuel) (by omega)
  match m, members with
  | (key, j), [] =>
    have read := readValue_write j fuel (some '\x7d' :: rest)
      (by rw [writeMembers, List.length_append, List.length_cons] at enough; omega)
      (ends_cons (by decide) _)
    obtain ⟨r, opened, name⟩ := readString_writeString key
      (some ':' :: ((write j).map some ++ some '\x7d' :: rest))
    rw [writeMembers, List.map_append, List.map_cons, List.append_assoc, List.cons_append, opened,
      readMembers, skip_cons rfl]
    simp only [name, Option.bind_eq_bind, Option.bind_some, skip_cons (c := ':') rfl, read,
      skip_cons (c := '\x7d') rfl]
    rfl
  | (key, j), n :: members =>
    rw [writeMembers_cons] at enough ⊢
    simp only [List.length_append, List.length_cons] at enough
    have read := readValue_write j fuel
      (some ',' :: ((writeMembers (n :: members)).map some ++ some '\x7d' :: rest))
      (by omega) (ends_cons (by decide) _)
    have others := readMembers_write n members fuel rest (by omega)
    obtain ⟨r, opened, name⟩ := readString_writeString key (some ':' :: ((write j).map some ++
      some ',' :: ((writeMembers (n :: members)).map some ++ some '\x7d' :: rest)))
    simp only [List.map_append, List.map_cons, List.append_assoc, List.cons_append]
    rw [opened, readMembers, skip_cons rfl]
    simp only [name, Option.bind_eq_bind, Option.bind_some, skip_cons (c := ':') rfl, read,
      skip_cons (c := ',') rfl, others]
    rfl
termination_by fuel

end

theorem read?_units (j : Json) : Source.read? ((write j).map some) = some j.source := by
  have read := readValue_write j (2 * ((write j).map some).length + 2) []
    (by rw [List.length_map]; omega) ends_nil
  rw [List.append_nil] at read
  rw [Source.read?, read]
  rfl

/-- The text of a document is read as the document. -/
theorem read?_text (j : Json) : Source.read? (unitsOf j.text) = some j.source := by
  rw [unitsOf, text, String.toList_ofList]
  exact read?_units j

end AuditTrail.Json
