import AuditTrail.Proofs.Result
import AuditTrail.Proofs.Time.Sortable

/-! The short form of an instant is read back in every year of the range, by the reader that also takes
what other programs write. -/
namespace AuditTrail.Instant

open Positional

variable {t : Instant} {width n : Nat} {c : Char} {rest : List Char}

/-! White space, which the reader would skip, is not written -/

theorem trimStart_cons (solid : Blank.isBlank c = false) : Blank.trimStart (c :: rest) = c :: rest := by
  rw [Blank.trimStart, List.dropWhile_cons_of_neg (by simp [solid])]

theorem toNat_of_digit (digit : (decimalValue? c).isSome = true) : 48 ≤ c.toNat ∧ c.toNat ≤ 57 := by
  unfold decimalValue? at digit
  split at digit
  · next bounds => exact bounds
  · contradiction

theorem isBlank_of_digit (digit : (decimalValue? c).isSome = true) : Blank.isBlank c = false := by
  have range := toNat_of_digit digit
  simp only [Blank.isBlank, Bool.or_eq_false_iff, Bool.and_eq_false_iff, decide_eq_false_iff_not]
  omega

theorem readAfterBlank?_cons (solid : Blank.isBlank c = false) :
    readAfterBlank? c (c :: rest) = some rest := by
  rw [readAfterBlank?, trimStart_cons solid, Split.after?, if_pos rfl, Split.after?]

/-- A number that is written with digits begins with one of them. -/
theorem padded_eq_cons (some : 0 < width) (n : Nat) :
    ∃ c ds, padded width n = c :: ds ∧ (decimalValue? c).isSome = true := by
  cases written : padded width n with
  | nil =>
    have length := length_padded width n
    rw [written] at length
    exact absurd length.symm (Nat.pos_iff_ne_zero.mp some)
  | cons c ds =>
    exact ⟨c, ds, rfl, decimalValue?_of_mem_padded (written ▸ List.mem_cons_self)⟩

theorem trimStart_padded (some : 0 < width) :
    Blank.trimStart (padded width n ++ rest) = padded width n ++ rest := by
  obtain ⟨c, ds, written, digit⟩ := padded_eq_cons some n
  rw [written, List.cons_append, trimStart_cons (isBlank_of_digit digit)]

/-! Numbers -/

theorem readShort?_padded (some : 0 < width) (small : n < Nat.pow 10 width) :
    readShort? width (padded width n ++ rest) = .some (n, rest) := by
  have front : (padded width n ++ rest).take width = padded width n :=
    List.take_left' (length_padded width n)
  have back : (padded width n ++ rest).drop width = rest :=
    List.drop_left' (length_padded width n)
  have span : spanDigits (padded width n ++ []) = (padded width n, []) :=
    spanDigits_padded (by simp)
  rw [List.append_nil] at span
  have written : (padded width n).isEmpty = false := by
    rw [List.isEmpty_eq_false_iff, ← List.length_pos_iff, length_padded]
    exact some
  simp only [readShort?, trimStart_padded some, front, span, written, Bool.false_eq_true, if_false,
    digitsValue_padded small, length_padded, back]

theorem readLong?_digits {ds : List Nat} (digits : ∀ d ∈ ds, d < 10) (some : ds ≠ [])
    (ends : ∀ c ∈ rest.head?, decimalValue? c = none) :
    readLong? (ds.map digitChar ++ rest) = .some (value 10 ds, rest) := by
  have span := spanDigits_append (fun _ => decimalValue?_of_mem_digitChar digits) ends
  have written : (ds.map digitChar).isEmpty = false := by simpa using some
  simp only [readLong?, span, written, Bool.false_eq_true, if_false, digitsValue,
    filterMap_decimalValue?_digitChar digits]

/-- A year outside 0 to 9999 has a sign, and at least four digits that hold its distance from 0. -/
theorem writeYear_signed {year : Int} (outside : ¬ (0 ≤ year ∧ year ≤ 9999)) : ∃ ds : List Nat,
    writeYear year = (if year < 0 then '-' else '+') :: ds.map digitChar ∧ (∀ d ∈ ds, d < 10) ∧
      value 10 ds = year.natAbs ∧ ds ≠ [] := by
  rw [writeYear, if_neg outside]
  by_cases short : year.natAbs ≤ 9999
  · have fits : year.natAbs < Nat.pow 10 4 := Nat.lt_succ_of_le short
    refine ⟨digits 10 4 year.natAbs, ?_, fun _ => lt_of_mem_digits_ten, value_digits 4 fits, ?_⟩
    · simp only [short, if_true, padded]
    · exact List.ne_nil_of_length_pos (by rw [length_digits]; decide)
  · obtain ⟨ds, written, small, sum, some, -⟩ := decimal_digits year.natAbs
    exact ⟨ds, by simp only [short, if_false, written], small, sum, some⟩

theorem readYear?_writeYear (year : Int) (rest : List Char)
    (ends : ∀ c ∈ rest.head?, decimalValue? c = none) :
    readYear? (writeYear year ++ rest) = some (year, rest) := by
  by_cases plain : 0 ≤ year ∧ year ≤ 9999
  · have fits : year.toNat < Nat.pow 10 4 := by
      rw [Nat.pow_eq]
      omega
    have read : readShort? 4 (padded 4 year.toNat ++ rest) = some (year.toNat, rest) :=
      readShort?_padded (by decide) fits
    obtain ⟨c, ds, written, digit⟩ := padded_eq_cons (show 0 < 4 by decide) year.toNat
    rw [writeYear_eq plain.1 plain.2, readYear?, trimStart_padded (by decide)]
    rw [written, List.cons_append] at read ⊢
    split
    · next same => obtain ⟨rfl, -⟩ := List.cons.inj same; contradiction
    · next same => obtain ⟨rfl, -⟩ := List.cons.inj same; contradiction
    · rw [read, Option.map_some]
      simp only [Int.toNat_of_nonneg plain.1]
  · obtain ⟨ds, written, small, sum, some⟩ := writeYear_signed plain
    have read := readLong?_digits small some ends
    rw [written, List.cons_append]
    by_cases before : year < 0
    · rw [if_pos before, readYear?, trimStart_cons rfl]
      simp only [read, Option.map_some, sum, Option.some.injEq, Prod.mk.injEq, and_true]
      omega
    · rw [if_neg before, readYear?, trimStart_cons rfl]
      simp only [read, Option.map_some, sum, Option.some.injEq, Prod.mk.injEq, and_true]
      omega

theorem toList_short (t : Instant) : t.short.toList =
    writeYear t.date.year ++ '-' :: (padded 2 t.date.month ++ '-' :: (padded 2 t.date.day
      ++ 'T' :: (padded 2 t.clock.1 ++ ':' :: (padded 2 t.clock.2.1 ++ ':' :: (padded 2 t.clock.2.2
        ++ (writeFraction t.fraction ++ ['Z'])))))) := by
  simp only [short, writeSeconds, String.toList_ofList, List.append_assoc, List.cons_append]

theorem bind_of_eq_some {α β : Type} {x : Option α} {a : α} (found : x = some a)
    (f : α → Option β) : x >>= f = f a := by
  rw [found]
  rfl

theorem readRelaxed?_short (proper : t.Proper) (range : isYear t.year = true) :
    readRelaxed? t.short = some t := by
  have fits := proper.fits
  obtain ⟨second, extra, time, rfl, nanos⟩ := timeOfDay?_clock proper
  have valid : (⟨t.date.year, t.date.month, t.date.day⟩ : Calendar.Date).isValid = true :=
    Calendar.Date.isValid_ofDays _
  have range' : isYear t.date.year = true := range
  have back : ofLocal ⟨t.date.year, t.date.month, t.date.day⟩ (t.seconds % 86400).toNat t.nanos 0
      = t := ofLocal_date t
  have mark (r : List Char) :
      (readMark (fun c => c = 'T' || c = 't' || c = ' ') ('T' :: r)).toOption = some r := rfl
  have zone : readNamedZone? (Blank.trimStart ['Z']) = some (0, []) := by decide
  rw [readRelaxed?, toList_short]
  refine (bind_of_eq_some (readYear?_writeYear _ _ (stops_cons rfl _)) _).trans ?_
  refine (bind_of_eq_some (readAfterBlank?_cons (c := '-') rfl) _).trans ?_
  refine (bind_of_eq_some (readShort?_padded Nat.two_pos fits.month) _).trans ?_
  refine (bind_of_eq_some (readAfterBlank?_cons (c := '-') rfl) _).trans ?_
  refine (bind_of_eq_some (readShort?_padded Nat.two_pos fits.day) _).trans ?_
  refine (bind_of_eq_some (mark _) _).trans ?_
  refine (bind_of_eq_some (readShort?_padded Nat.two_pos fits.hour) _).trans ?_
  refine (bind_of_eq_some (readAfterBlank?_cons (c := ':') rfl) _).trans ?_
  refine (bind_of_eq_some (readShort?_padded Nat.two_pos fits.minute) _).trans ?_
  refine (bind_of_eq_some (readAfterBlank?_cons (c := ':') rfl) _).trans ?_
  refine (bind_of_eq_some (readShort?_padded Nat.two_pos fits.second) _).trans ?_
  -- The reader goes on in one of two ways, according to whether there is a fraction.
  rcases writeFraction_cases fits.fraction with ⟨written, none⟩ |
    ⟨width, m, some, nine, small, whole, written⟩
  case' inl =>
    rw [none] at nanos
    rw [written]
    refine (bind_of_eq_some (a := (0, ['Z'])) rfl _).trans ?_
  case' inr =>
    have read := readFraction_padded ['Z'] some nine small (stops_cons rfl [])
    rw [whole] at read
    rw [written]
    refine (bind_of_eq_some (congrArg Except.toOption read) _).trans ?_
  all_goals
    refine (bind_of_eq_some zone _).trans ?_
    refine (bind_of_eq_some time _).trans ?_
    simp only [nanos, back, valid, range', range]
    rfl

theorem Ordinary.isYear (ordinary : t.Ordinary) : isYear t.year = true := by
  have first : firstYear ≤ t.year := Int.le_trans (by decide) ordinary.first
  have last : t.year ≤ lastYear := Int.le_trans ordinary.last (by decide)
  simp [Instant.isYear, first, last]

/-! What is read can be written -/

section
variable {cs : List Char} {offset : Int}

theorem digitsValue_lt (ds : List Char) : digitsValue ds < Nat.pow 10 ds.length := by
  have small : ∀ d ∈ ds.filterMap decimalValue?, d < 10 := by
    intro d mem
    obtain ⟨c, -, digit⟩ := List.mem_filterMap.mp mem
    unfold decimalValue? at digit
    split at digit
    · next range =>
      have last : c.toNat ≤ 57 := range.2
      have same := Option.some.inj digit
      omega
    · contradiction
  have length := List.length_filterMap_le decimalValue? ds
  exact Nat.lt_of_lt_of_le (value_lt small) (Nat.pow_le_pow_right (by decide) length)

/-- A fraction is less than a second, as at most nine places of it count. -/
theorem readFraction_lt (read : readFraction cs = .ok (n, rest)) : n < 1000000000 := by
  unfold readFraction at read
  simp only at read
  split at read
  · contradiction
  · obtain ⟨same, -⟩ := Prod.mk.inj (Except.ok.inj read)
    have small := digitsValue_lt ((spanDigits cs).1.take 9
      ++ List.replicate (9 - ((spanDigits cs).1.take 9).length) '0')
    have nine : ((spanDigits cs).1.take 9
        ++ List.replicate (9 - ((spanDigits cs).1.take 9).length) '0').length = 9 := by
      rw [List.length_append, List.length_replicate, List.length_take]
      omega
    rwa [same, nine] at small

/-- Zones differ by whole minutes, so a leap second stays at the end of a minute. -/
theorem readOffset_minutes {mark : List Char → Except ReadFault (List Char)}
    (read : readOffset mark cs = .ok (offset, rest)) : offset % 60 = 0 := by
  unfold readOffset at read
  obtain ⟨⟨behind, _⟩, -, read⟩ := bind_eq_ok.mp read
  obtain ⟨⟨a, b, _⟩, -, read⟩ := bind_eq_ok.mp read
  simp only at read
  split at read
  · obtain ⟨_, -, read⟩ := bind_eq_ok.mp read
    obtain ⟨⟨a, b, _⟩, -, read⟩ := bind_eq_ok.mp read
    simp only at read
    split at read
    · split at read
      · contradiction
      · obtain ⟨same, -⟩ := Prod.mk.inj (Except.ok.inj read)
        subst same
        split <;> omega
    · contradiction
  · contradiction

theorem readZone_minutes {mark : List Char → Except ReadFault (List Char)}
    (read : readZone mark cs = .ok (offset, rest)) : offset % 60 = 0 := by
  unfold readZone at read
  split at read
  · cases read
    rfl
  · cases read
    rfl
  · exact readOffset_minutes read

/-- A second of 60 is the last of a minute, and all others leave less than a second. -/
theorem timeOfDay?_cases {h m s second extra : Nat}
    (time : timeOfDay? h m s = some (second, extra)) :
    extra = 0 ∨ extra = 1000000000 ∧ second % 60 = 59 := by
  unfold timeOfDay? at time
  split at time
  · contradiction
  · split at time <;> obtain ⟨seconds, rfl⟩ := Prod.mk.inj (Option.some.inj time)
    · exact .inr ⟨rfl, by omega⟩
    · exact .inl rfl

/-- An instant that some text stands for: a clock can show it, and its year is in the range. -/
structure Representable (t : Instant) : Prop where
  proper : t.Proper
  range : isYear t.year = true

instance (t : Instant) : Decidable t.Representable :=
  decidable_of_iff (t.Proper ∧ isYear t.year = true) ⟨fun h => ⟨h.1, h.2⟩, fun h => ⟨h.proper, h.range⟩⟩

/-- The end of the reading: whole minutes leave the second where the clock has it. -/
theorem proper_ofLocal {date : Calendar.Date} {h m s second extra fraction : Nat}
    (time : timeOfDay? h m s = some (second, extra)) (small : fraction < 1000000000)
    (minutes : offset % 60 = 0) : (ofLocal date second (extra + fraction) offset).Proper := by
  rcases timeOfDay?_cases time with rfl | ⟨rfl, last⟩
  · exact .inl (by simpa [ofLocal] using small)
  · refine .inr ⟨?_, ?_⟩ <;> simp only [ofLocal] <;> omega

end

end AuditTrail.Instant
