import AuditTrail.Proofs.Id.Spelling
import AuditTrail.Proofs.Text.Split

/-! The grammar of identifiers. Each of the four spellings has a length of its own, so the length of a
text tells where its digits have to be, and the places of its hyphens tell the groups. Digits are read one
by one, and an identifier that is read shows them in lower case. -/
namespace AuditTrail.Id

open Positional

/-- A hexadecimal digit, in either letter case. -/
def IsDigit (c : Char) : Prop :=
  c.isDigit = true ∨ c.toLower ∈ ['a', 'b', 'c', 'd', 'e', 'f']

instance (c : Char) : Decidable (IsDigit c) := inferInstanceAs (Decidable (_ ∨ _))

structure AreDigits (ds : List Char) : Prop where
  length : ds.length = 32
  each : ∀ c ∈ ds, IsDigit c

instance (ds : List Char) : Decidable (AreDigits ds) :=
  decidable_of_iff (ds.length = 32 ∧ ds.all (fun c => IsDigit c) = true)
    ⟨fun ⟨length, each⟩ => ⟨length, by simpa using each⟩,
      fun digits => ⟨digits.length, by simpa using digits.each⟩⟩

/-- The spellings of some digits. The scheme in front of them may be in either letter case. -/
inductive Spells (ds : List Char) : List Char → Prop where
  | plain : Spells ds ds
  | grouped : Spells ds (hyphenate ds)
  | braced : Spells ds ('\x7b' :: (hyphenate ds ++ ['\x7d']))
  | urn {scheme : List Char} (named : scheme.map Char.toLower = "urn:uuid:".toList) :
    Spells ds (scheme ++ hyphenate ds)

variable {cs ds es : List Char} {id : Id} {s t : String}

/-! Digits -/

/-- What a table says of the characters below 128. -/
theorem forall_ascii {p : Char → Prop} (table : ∀ n < 128, p (Char.ofNat n)) (c : Char)
    (narrow : c.toNat < 128) : p c := by
  have here := table c.toNat narrow
  rwa [Char.ofNat_toNat] at here

theorem toNat_lt_of_toLower {c : Char} (narrow : c.toLower.toNat < 128) : c.toNat < 128 := by
  by_cases upper : 'A'.val ≤ c.val ∧ c.val ≤ 'Z'.val
  · have last : c.toNat ≤ 90 := upper.2
    omega
  · have same : c.toLower = c := dif_neg upper
    exact same ▸ narrow

/-- Hexadecimal digits are below 128, so a table decides about them. -/
theorem toNat_lt_of_hexValue? {c : Char} {d : Nat} (read : hexValue? c = some d) : c.toNat < 128 := by
  have le (a b : Char) : a ≤ b ↔ a.toNat ≤ b.toNat := Iff.rfl
  by_contra wide
  have ascii : '9'.toNat < 128 ∧ 'f'.toNat < 128 ∧ 'F'.toNat < 128 := by decide
  simp only [hexValue?, le] at read
  rw [if_neg (by omega), if_neg (by omega), if_neg (by omega)] at read
  cases read

theorem hexValue?_eq_some_iff {c : Char} {d : Nat} :
    hexValue? c = some d ↔ d < 16 ∧ c.toLower = digitChar d := by
  have table := forall_ascii (p := fun c => (∀ d ∈ hexValue? c, d < 16 ∧ c.toLower = digitChar d) ∧
    ∀ d < 16, c.toLower = digitChar d → hexValue? c = some d) (by decide) c
  constructor
  · intro read
    exact (table (toNat_lt_of_hexValue? read)).1 d read
  · rintro ⟨small, same⟩
    have ascii : ∀ d < 16, (digitChar d).toNat < 128 := by decide
    exact (table (toNat_lt_of_toLower (same ▸ ascii d small))).2 d small same

theorem isDigit_iff {c : Char} : IsDigit c ↔ (hexValue? c).isSome = true := by
  have table := forall_ascii (p := fun c => (c.isDigit = true ∨
    c.toLower ∈ ['a', 'b', 'c', 'd', 'e', 'f']) ↔ (hexValue? c).isSome = true) (by decide) c
  constructor
  · intro digit
    refine (table ?_).mp digit
    rcases digit with decimal | letter
    · have range : c.toNat ≤ 57 := (Char.isDigit_iff_toNat.mp decimal).2
      omega
    · have ascii : ∀ d ∈ ['a', 'b', 'c', 'd', 'e', 'f'], d.toNat < 128 := by simp
      exact toNat_lt_of_toLower (ascii _ letter)
  · intro digit
    obtain ⟨d, read⟩ := Option.isSome_iff_exists.mp digit
    exact (table (toNat_lt_of_hexValue? read)).mpr digit

theorem ofHexDigits?_eq_some_iff (length : ds.length = 32) :
    ofHexDigits? ds = some id ↔ AreDigits ds ∧ id.hexDigits = ds.map Char.toLower := by
  rw [ofHexDigits?, Option.map_eq_some_iff]
  constructor
  · rintro ⟨vs, read, rfl⟩
    obtain ⟨small, same⟩ := (mapM_eq_some_iff fun _ _ => hexValue?_eq_some_iff).mp read
    have width : vs.length = 32 := by
      rw [← List.length_map (f := digitChar), ← same, List.length_map, length]
    have fits : value 16 vs < count := by
      have less := value_lt small
      rwa [width] at less
    have number : (ofNat (value 16 vs)).number = value 16 vs := Nat.mod_eq_of_lt fits
    refine ⟨⟨length, fun c mem => ?_⟩, ?_⟩
    · obtain ⟨d, digit, lower⟩ := List.mem_map.mp (same ▸ List.mem_map_of_mem mem)
      rw [isDigit_iff, hexValue?_eq_some_iff.mpr ⟨small d digit, lower.symm⟩]
      rfl
    · rw [hexDigits, number, ← width, digits_value small, same]
  · rintro ⟨digits, shown⟩
    refine ⟨Positional.digits 16 32 id.number, ?_, ?_⟩
    · refine (mapM_eq_some_iff fun _ _ => hexValue?_eq_some_iff).mpr ⟨?_, shown.symm⟩
      exact fun _ => lt_of_mem_digits (by decide) 32
    · rw [value_digits 32 id.number_lt_pow]
      exact ext_number (Nat.mod_eq_of_lt id.number_lt)

theorem exists_ofHexDigits? (digits : AreDigits ds) :
    ∃ id, ofHexDigits? ds = some id ∧ id.hexDigits = ds.map Char.toLower := by
  let vs := ds.map fun c => (hexValue? c).getD 0
  have read : ds.mapM hexValue? = some vs := by
    apply mapM_eq_some_map
    intro c mem
    obtain ⟨d, digit⟩ := Option.isSome_iff_exists.mp (isDigit_iff.mp (digits.each c mem))
    rw [digit]
    rfl
  have found : ofHexDigits? ds = some (ofNat (value 16 vs)) := by
    rw [ofHexDigits?, read]
    rfl
  exact ⟨_, found, ((ofHexDigits?_eq_some_iff digits.length).mp found).2⟩

/-! Groups -/

/-- The first hyphen ends a group without hyphens. -/
theorem hyphens_eq_cons {i h : Nat} {hs : List Nat} (found : hyphens i cs = h :: hs) :
    ∃ group rest, cs = group ++ '-' :: rest ∧ (∀ c ∈ group, c ≠ '-') ∧ h = i + group.length ∧
      hyphens (h + 1) rest = hs := by
  by_cases present : '-' ∈ cs
  · obtain ⟨group, rest, rfl, absent⟩ := List.eq_append_cons_of_mem present
    have plain : ∀ c ∈ group, c ≠ '-' := fun c mem same => absent (same ▸ mem)
    rw [hyphens_append plain] at found
    obtain ⟨rfl, later⟩ := List.cons.inj found
    exact ⟨group, rest, rfl, plain, rfl, later⟩
  · rw [hyphens_eq_nil fun c mem same => present (same ▸ mem)] at found
    contradiction

theorem ne_hyphen_of_hyphens {i : Nat} (none : hyphens i cs = []) : ∀ c ∈ cs, c ≠ '-' := by
  rintro _ mem rfl
  obtain ⟨group, rest, rfl, absent⟩ := List.eq_append_cons_of_mem mem
  rw [hyphens_append fun c mem same => absent (same ▸ mem)] at none
  contradiction

theorem firstForeign?_eq_none_iff {i : Nat} :
    firstForeign? i cs = none ↔ ∀ c ∈ cs, c = '-' ∨ (hexValue? c).isSome = true := by
  constructor
  · intro none
    induction cs generalizing i with
    | nil => simp
    | cons c rest ih =>
      rw [firstForeign?] at none
      split at none
      · next own => exact List.forall_mem_cons.mpr ⟨own, ih none⟩
      · contradiction
  · exact fun own => firstForeign?_eq_none own i

theorem AreDigits.ne_hyphen (digits : AreDigits ds) : ∀ c ∈ ds, c ≠ '-' := by
  rintro _ mem rfl
  have digit := isDigit_iff.mp (digits.each _ mem)
  contradiction

theorem hyphenate_groups {first second third fourth last : List Char} (sizeFirst : first.length = 8)
    (sizeSecond : second.length = 4) (sizeThird : third.length = 4) (sizeFourth : fourth.length = 4) :
    hyphenate (first ++ (second ++ (third ++ (fourth ++ last)))) = first ++ '-' :: (second
      ++ '-' :: (third ++ '-' :: (fourth ++ '-' :: last))) := by
  simp [hyphenate, List.drop_append, List.drop_of_length_le, sizeFirst, sizeSecond, sizeThird,
    sizeFourth]

/-- Hyphens in their four places leave five groups that make up 32 characters. -/
theorem exists_hyphenate (length : cs.length = 36) (places : hyphens 0 cs = [8, 13, 18, 23]) :
    ∃ ds, ds.length = 32 ∧ (∀ c ∈ ds, c ≠ '-' ∧ c ∈ cs) ∧ cs = hyphenate ds := by
  obtain ⟨first, rest, rfl, plainFirst, sizeFirst, places⟩ := hyphens_eq_cons places
  obtain ⟨second, rest, rfl, plainSecond, sizeSecond, places⟩ := hyphens_eq_cons places
  obtain ⟨third, rest, rfl, plainThird, sizeThird, places⟩ := hyphens_eq_cons places
  obtain ⟨fourth, last, rfl, plainFourth, sizeFourth, places⟩ := hyphens_eq_cons places
  have plainLast := ne_hyphen_of_hyphens places
  simp only [List.length_append, List.length_cons] at length
  refine ⟨first ++ (second ++ (third ++ (fourth ++ last))), ?_, ?_, ?_⟩
  · simp only [List.length_append]
    omega
  · intro c mem
    simp only [List.mem_append, List.mem_cons] at mem ⊢
    rcases mem with mem | mem | mem | mem | mem
    · exact ⟨plainFirst c mem, .inl mem⟩
    · exact ⟨plainSecond c mem, by simp [mem]⟩
    · exact ⟨plainThird c mem, by simp [mem]⟩
    · exact ⟨plainFourth c mem, by simp [mem]⟩
    · exact ⟨plainLast c mem, by simp [mem]⟩
  · exact (hyphenate_groups (by omega) (by omega) (by omega) (by omega)).symm

theorem isHyphenated_iff : isHyphenated cs = true ↔ ∃ ds, AreDigits ds ∧ cs = hyphenate ds := by
  simp only [isHyphenated, Bool.and_eq_true, decide_eq_true_eq, Option.isNone_iff_eq_none,
    firstForeign?_eq_none_iff]
  constructor
  · rintro ⟨⟨length, own⟩, places⟩
    obtain ⟨ds, width, inside, rfl⟩ := exists_hyphenate length places
    refine ⟨ds, ⟨width, fun c mem => ?_⟩, rfl⟩
    obtain ⟨plain, there⟩ := inside c mem
    exact isDigit_iff.mpr ((own c there).resolve_left plain)
  · rintro ⟨ds, digits, rfl⟩
    refine ⟨⟨length_hyphenate digits.length, fun c mem => ?_⟩,
      hyphens_hyphenate digits.length digits.ne_hyphen⟩
    exact (mem_hyphenate mem).imp_right fun mem => isDigit_iff.mp (digits.each c mem)

theorem ofHyphenated_eq_ok_iff : ofHyphenated cs = .ok id ↔
    ∃ ds, AreDigits ds ∧ cs = hyphenate ds ∧ id.hexDigits = ds.map Char.toLower := by
  constructor
  · intro read
    unfold ofHyphenated at read
    split at read
    · next shape =>
      obtain ⟨ds, digits, rfl⟩ := isHyphenated_iff.mp shape
      rw [filter_hyphenate digits.ne_hyphen] at read
      split at read
      · next id found =>
        cases read
        exact ⟨ds, digits, rfl, ((ofHexDigits?_eq_some_iff digits.length).mp found).2⟩
      · contradiction
    · contradiction
  · rintro ⟨ds, digits, rfl, shown⟩
    have found := (ofHexDigits?_eq_some_iff digits.length).mpr ⟨digits, shown⟩
    rw [ofHyphenated, if_pos (isHyphenated_iff.mpr ⟨ds, digits, rfl⟩),
      filter_hyphenate digits.ne_hyphen, found]

/-! Spellings -/

theorem inBraces?_eq_some_iff : inBraces? cs = some ds ↔ cs = '\x7b' :: (ds ++ ['\x7d']) := by
  constructor
  · intro inside
    unfold inBraces? at inside
    split at inside
    · next rest =>
      split at inside
      · next closed =>
        cases inside
        obtain ⟨front, rfl⟩ := List.getLast?_eq_some_iff.mp closed
        rw [List.dropLast_concat]
      · contradiction
    · contradiction
  · rintro rfl
    rw [inBraces?, List.getLast?_concat, if_pos rfl, List.dropLast_concat]

theorem utf8Size_of_isDigit {c : Char} (digit : IsDigit c) : c.utf8Size = 1 := by
  obtain ⟨d, read⟩ := Option.isSome_iff_exists.mp (isDigit_iff.mp digit)
  exact Char.utf8Size_eq_one_iff.mpr (Nat.le_of_lt_succ (toNat_lt_of_hexValue? read))

theorem length_scheme {scheme : List Char} (named : scheme.map Char.toLower = "urn:uuid:".toList) :
    scheme.length = 9 := by
  rw [← List.length_map (f := Char.toLower), named]
  rfl

namespace AreDigits

theorem size (digits : AreDigits ds) : Utf8.size ds = 32 :=
  (size_eq_length fun c mem => utf8Size_of_isDigit (digits.each c mem)).trans digits.length

theorem narrow (digits : AreDigits ds) : ∀ c ∈ hyphenate ds, c.utf8Size = 1 := by
  intro c mem
  rcases mem_hyphenate mem with rfl | mem
  · rfl
  · exact utf8Size_of_isDigit (digits.each c mem)

theorem size_hyphenate (digits : AreDigits ds) : Utf8.size (hyphenate ds) = 36 :=
  (size_eq_length digits.narrow).trans (length_hyphenate digits.length)

theorem size_braced (digits : AreDigits ds) :
    Utf8.size ('\x7b' :: (hyphenate ds ++ ['\x7d'])) = 38 := by
  have narrow : ∀ c ∈ '\x7b' :: (hyphenate ds ++ ['\x7d']), c.utf8Size = 1 := by
    intro c mem
    simp only [List.mem_cons, List.mem_append, List.not_mem_nil, or_false] at mem
    rcases mem with rfl | mem | rfl
    · rfl
    · exact digits.narrow c mem
    · rfl
  rw [size_eq_length narrow]
  simp [length_hyphenate digits.length]

theorem size_urn (digits : AreDigits ds) {scheme : List Char}
    (named : scheme.map Char.toLower = "urn:uuid:".toList) :
    Utf8.size (scheme ++ hyphenate ds) = 45 := by
  have narrow : ∀ c ∈ scheme ++ hyphenate ds, c.utf8Size = 1 := by
    intro c mem
    rcases List.mem_append.mp mem with mem | mem
    · have lower : c.toLower ∈ "urn:uuid:".toList := named ▸ List.mem_map_of_mem mem
      have ascii : ∀ c ∈ "urn:uuid:".toList, c.toNat < 128 := by simp
      have less := toNat_lt_of_toLower (ascii _ lower)
      exact Char.utf8Size_eq_one_iff.mpr (Nat.le_of_lt_succ less)
    · exact digits.narrow c mem
  rw [size_eq_length narrow]
  simp [length_hyphenate digits.length, length_scheme named]

end AreDigits

theorem Spells.size (spelled : Spells ds cs) (digits : AreDigits ds) :
    Utf8.size cs ∈ [32, 36, 38, 45] := by
  cases spelled with
  | plain => simp [digits.size]
  | grouped => simp [digits.size_hyphenate]
  | braced => simp [digits.size_braced]
  | urn named => simp [digits.size_urn named]

/-- A text whose hyphenated part is that of some digits spells them. -/
theorem spells_of_core (found : core? cs = some (hyphenate ds)) : Spells ds cs := by
  unfold core? at found
  dsimp only at found
  split at found
  · cases found
    exact .grouped
  · split at found
    · rw [inBraces?_eq_some_iff.mp found]
      exact .braced
    · split at found
      · split at found
        · next named =>
          obtain ⟨rest, after⟩ := Option.isSome_iff_exists.mp named
          have whole := Split.after?_eq_some_iff.mp after
          -- Nine characters are cut off, so nothing follows the prefix in them.
          have nothing : rest = [] := by
            have short := congrArg List.length whole
            have nine : "urn:uuid:".toList.length = 9 := rfl
            rw [List.length_append, List.length_map, nine] at short
            have := List.length_take_le 9 cs
            exact List.eq_nil_of_length_eq_zero (by omega)
          rw [nothing, List.append_nil] at whole
          have same := List.take_append_drop 9 cs
          rw [Option.some.inj found] at same
          exact same ▸ .urn whole
        · contradiction
      · contradiction

theorem core?_of_spells (digits : AreDigits ds) (spelled : Spells ds cs) :
    core? cs = some (hyphenate ds) ∨ cs = ds ∧ core? cs = none := by
  unfold core?
  cases spelled with
  | plain =>
    right
    rw [digits.size]
    exact ⟨rfl, rfl⟩
  | grouped =>
    left
    rw [digits.size_hyphenate]
    rfl
  | braced =>
    left
    rw [digits.size_braced]
    exact inBraces?_eq_some_iff.mpr rfl
  | @urn scheme named =>
    left
    have front : (scheme ++ hyphenate ds).take 9 = scheme := List.take_left' (length_scheme named)
    have back : (scheme ++ hyphenate ds).drop 9 = hyphenate ds := List.drop_left' (length_scheme named)
    have after : afterPrefix? (scheme.map Char.toLower) = some [] :=
      Split.after?_eq_some_iff.mpr (by rw [named, List.append_nil])
    rw [digits.size_urn named, front, back, after]
    rfl

/-- A text is read if it spells some digits, and what is read shows them. -/
theorem parse_eq_ok_iff : parse s = .ok id ↔
    ∃ ds, AreDigits ds ∧ Spells ds s.toList ∧ id.hexDigits = ds.map Char.toLower := by
  unfold parse
  constructor
  · intro read
    dsimp only at read
    split at read
    · next core found =>
      obtain ⟨ds, digits, rfl, shown⟩ := ofHyphenated_eq_ok_iff.mp read
      exact ⟨ds, digits, spells_of_core found, shown⟩
    · split at read
      · next id found =>
        split at read
        · next length =>
          cases read
          obtain ⟨digits, shown⟩ := (ofHexDigits?_eq_some_iff length).mp found
          exact ⟨s.toList, digits, .plain, shown⟩
        · contradiction
      · contradiction
  · rintro ⟨ds, digits, spelled, shown⟩
    rcases core?_of_spells digits spelled with core | ⟨plain, core⟩
    · simp only [core]
      exact ofHyphenated_eq_ok_iff.mpr ⟨ds, digits, rfl, shown⟩
    · simp only [core]
      rw [plain, (ofHexDigits?_eq_some_iff digits.length).mpr ⟨digits, shown⟩]
      exact if_pos digits.length

theorem read_eq_ok_iff : read s = .ok id ↔ parse s = .ok id := by
  unfold read
  cases parse s <;> simp [Except.mapError]

theorem text_of_hexDigits (shown : id.hexDigits = ds.map Char.toLower) :
    id.text = String.ofList (hyphenate (ds.map Char.toLower)) := by
  rw [text, shown]

theorem exists_read (digits : AreDigits ds) (spelled : Spells ds s.toList) :
    ∃ id, Id.read s = .ok id ∧ id.hexDigits = ds.map Char.toLower := by
  obtain ⟨id, -, shown⟩ := exists_ofHexDigits? digits
  exact ⟨id, read_eq_ok_iff.mpr (parse_eq_ok_iff.mpr ⟨ds, digits, spelled, shown⟩), shown⟩

/-- The texts that spell 32 digits are read as the identifier of these digits, which it shows in lower
case, so spellings name the same identifier exactly if their digits are the same apart from letter case.
Any other text is refused, and the error carries it. -/
theorem spellings_name_their_digits (s : String) :
    (∀ ds, AreDigits ds → Spells ds s.toList →
      (∃ id, Id.read s = .ok id ∧ id.text = String.ofList (hyphenate (ds.map Char.toLower))) ∧
      ∀ t es, AreDigits es → Spells es t.toList →
        (Id.read t = Id.read s ↔ es.map Char.toLower = ds.map Char.toLower)) ∧
    ((¬ ∃ ds, AreDigits ds ∧ Spells ds s.toList) →
      ∃ message, Id.read s = .error (.invalidId s message)) := by
  constructor
  · intro ds digits spelled
    obtain ⟨id, read, shown⟩ := exists_read digits spelled
    refine ⟨⟨id, read, text_of_hexDigits shown⟩, fun t es others written => ?_⟩
    obtain ⟨other, found, displayed⟩ := exists_read others written
    rw [read, found, ← shown, ← displayed]
    constructor
    · intro same
      rw [Except.ok.inj same]
    · intro same
      rw [hexDigits_injective same]
  · intro unspelled
    unfold Id.read
    cases outcome : parse s with
    | ok id =>
      obtain ⟨ds, digits, spelled, -⟩ := parse_eq_ok_iff.mp outcome
      exact absurd ⟨ds, digits, spelled⟩ unspelled
    | error fault => exact ⟨fault.message, rfl⟩

/-- A URN in mixed case and the plain digits in upper case. -/
theorem spellings_name_their_digits_mixed_case :
    let urn := "urN:Uuid:67E55044-10b1-426f-9247-BB680e5fe0c8"
    let plain := "67E5504410B1426F9247BB680E5FE0C8"
    (∃ id, Id.read urn = .ok id ∧ id.text = "67e55044-10b1-426f-9247-bb680e5fe0c8") ∧
      Id.read plain = Id.read urn ∧ ∃ message, Id.read "67e5" = .error (.invalidId "67e5" message) := by
  intro urn plain
  let mixed := "67E5504410b1426f9247BB680e5fe0c8".toList
  have digits : AreDigits mixed := by decide
  have upper : AreDigits plain.toList := by decide
  have spelled : Spells mixed urn.toList := by
    have parts : urn.toList = "urN:Uuid:".toList ++ hyphenate mixed := by decide
    rw [parts]
    exact .urn (by decide)
  obtain ⟨reads, same⟩ := (spellings_name_their_digits urn).1 mixed digits spelled
  refine ⟨reads, (same plain plain.toList upper .plain).mpr (by decide), ?_⟩
  apply (spellings_name_their_digits "67e5").2
  rintro ⟨ds, few, written⟩
  exact absurd (written.size few) (by decide)

/-- A scheme in upper case is read, although no text with a scheme in lower case is that one. -/
theorem upper_case_scheme_is_read :
    let s := "URN:UUID:67e55044-10b1-426f-9247-bb680e5fe0c8"
    (∃ id, Id.read s = .ok id) ∧ ∀ ds, AreDigits ds → s.toList ≠ ds ∧ s.toList ≠ hyphenate ds ∧
      s.toList ≠ '\x7b' :: (hyphenate ds ++ ['\x7d']) ∧
      s.toList ≠ "urn:uuid:".toList ++ hyphenate ds := by
  intro s
  let digits := "67e5504410b1426f9247bb680e5fe0c8".toList
  have spelled : Spells digits s.toList := by
    have parts : s.toList = "URN:UUID:".toList ++ hyphenate digits := by decide
    rw [parts]
    exact .urn (by decide)
  obtain ⟨id, read, -⟩ := exists_read (by decide) spelled
  have size : Utf8.size s.toList = 45 := by decide
  refine ⟨⟨id, read⟩, fun ds digits => ⟨?_, ?_, ?_, ?_⟩⟩
  · intro same
    have other := digits.size
    rw [← same, size] at other
    contradiction
  · intro same
    have other := digits.size_hyphenate
    rw [← same, size] at other
    contradiction
  · intro same
    have other := digits.size_braced
    rw [← same, size] at other
    contradiction
  · intro same
    have first : s.toList.head? = some 'u' := by
      rw [same]
      rfl
    exact absurd first (by decide)

end AuditTrail.Id
