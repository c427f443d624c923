import AuditTrail.Proofs.Time.Calendar
import AuditTrail.Proofs.Time.Fields

/-! Instants as the store writes them. Within the years 0 to 9999 the form of fixed width loses
nothing, and its text order is the order of the instants, leap seconds included. The short form loses
nothing there either. -/
namespace AuditTrail.Instant

open Positional

/-- Whether an instant is one that clocks can show: a leap second comes at the end of a minute. -/
def Proper (t : Instant) : Prop :=
  t.nanos < 1000000000 ∨ t.nanos < 2000000000 ∧ t.seconds % 60 = 59

instance (t : Instant) : Decidable t.Proper := inferInstanceAs (Decidable (_ ∨ _))

/-- An instant in the years 0 to 9999. -/
structure Ordinary (t : Instant) : Prop where
  proper : t.Proper
  first : 0 ≤ t.year
  last : t.year ≤ 9999

instance (t : Instant) : Decidable t.Ordinary :=
  decidable_of_iff (t.Proper ∧ 0 ≤ t.year ∧ t.year ≤ 9999)
    ⟨fun h => ⟨h.1, h.2.1, h.2.2⟩, fun h => ⟨h.proper, h.first, h.last⟩⟩

variable {t u : Instant}

/-! The parts that are written -/

/-- The fields of a date and of a clock have two digits each. -/
structure Fits (t : Instant) : Prop where
  month : t.date.month < Nat.pow 10 2
  day : t.date.day < Nat.pow 10 2
  hour : t.clock.1 < Nat.pow 10 2
  minute : t.clock.2.1 < Nat.pow 10 2
  second : t.clock.2.2 < Nat.pow 10 2
  fraction : t.fraction < Nat.pow 10 9

theorem nanos_lt (proper : t.Proper) : t.nanos < 2000000000 := by
  unfold Proper at proper
  omega

theorem Proper.fits (proper : t.Proper) : t.Fits := by
  have small := nanos_lt proper
  obtain ⟨-, month, -, day⟩ := Calendar.Date.month_of_isValid (Calendar.Date.isValid_ofDays
    (t.seconds / 86400))
  have short : ∀ leap : Bool, ∀ m, m < 13 → (Calendar.monthLengths leap).getD (m - 1) 0 < 32 := by
    decide
  have days := short (Calendar.isLeap t.date.year) t.date.month month
  refine ⟨?_, ?_, ?_, ?_, ?_, Nat.mod_lt _ (by decide)⟩
  · exact Nat.lt_of_lt_of_le month (by decide)
  · exact Nat.lt_of_le_of_lt day (Nat.lt_of_lt_of_le days (by decide))
  all_goals
    simp only [clock, Nat.pow_eq]
    omega

theorem writeYear_eq {year : Int} (first : 0 ≤ year) (last : year ≤ 9999) :
    writeYear year = padded 4 year.toNat := by
  rw [writeYear, if_pos ⟨first, last⟩]

theorem toList_sortable (t : Instant) : t.sortable.toList =
    writeYear t.date.year ++ '-' :: (padded 2 t.date.month ++ '-' :: (padded 2 t.date.day
      ++ 'T' :: (padded 2 t.clock.1 ++ ':' :: (padded 2 t.clock.2.1 ++ ':' :: (padded 2 t.clock.2.2
        ++ '.' :: (padded 9 t.fraction ++ ['Z'])))))) := by
  simp only [sortable, writeSeconds, String.toList_ofList, List.append_assoc, List.cons_append]

/-! Order -/

theorem clock_lt_iff {a b n m : Nat} (left : n < 1000000000 ∨ n < 2000000000 ∧ a % 60 = 59)
    (right : m < 1000000000 ∨ m < 2000000000 ∧ b % 60 = 59) :
    (a / 3600 < b / 3600 ∨ a / 3600 = b / 3600 ∧ (a % 3600 / 60 < b % 3600 / 60 ∨
      a % 3600 / 60 = b % 3600 / 60 ∧ (a % 60 + n / 1000000000 < b % 60 + m / 1000000000 ∨
        a % 60 + n / 1000000000 = b % 60 + m / 1000000000 ∧ n % 1000000000 < m % 1000000000)))
      ↔ a < b ∨ a = b ∧ n < m := by
  omega

theorem lt_iff : t < u ↔ t.seconds < u.seconds ∨ t.seconds = u.seconds ∧ t.nanos < u.nanos := by
  change t.before u = true ↔ _
  simp [before]

theorem lt_irrefl (t : Instant) : ¬ t < t := by
  rw [lt_iff]
  omega

theorem lt_trans {v : Instant} (tu : t < u) (uv : u < v) : t < v := by
  rw [lt_iff] at *
  omega

/-- The day of an instant, and its second within the day. -/
theorem seconds_eq (t : Instant) :
    t.seconds = t.seconds / 86400 * 86400 + (t.seconds % 86400).toNat := by
  omega

/-- The clock of a day orders the instants of the day. -/
theorem clock_lt_clock (ht : t.Proper) (hu : u.Proper) :
    (t.clock.1 < u.clock.1 ∨ t.clock.1 = u.clock.1 ∧ (t.clock.2.1 < u.clock.2.1 ∨
      t.clock.2.1 = u.clock.2.1 ∧ (t.clock.2.2 < u.clock.2.2 ∨
        t.clock.2.2 = u.clock.2.2 ∧ t.fraction < u.fraction)))
      ↔ (t.seconds % 86400).toNat < (u.seconds % 86400).toNat ∨
        (t.seconds % 86400).toNat = (u.seconds % 86400).toNat ∧ t.nanos < u.nanos := by
  have minute {v : Instant} (proper : v.Proper) : v.nanos < 1000000000 ∨
      v.nanos < 2000000000 ∧ (v.seconds % 86400).toNat % 60 = 59 := by
    unfold Proper at proper
    omega
  exact clock_lt_iff (minute ht) (minute hu)

theorem date_lt_date : t.date.Before u.date ↔ t.seconds / 86400 < u.seconds / 86400 :=
  Calendar.Date.before_ofDays_iff

theorem date_inj : t.date = u.date ↔ t.seconds / 86400 = u.seconds / 86400 := by
  refine ⟨fun same => ?_, congrArg Calendar.Date.ofDays⟩
  simpa [date] using congrArg Calendar.Date.toDays same

theorem Ordinary.year_lt (ht : t.Ordinary) : t.date.year.toNat < Nat.pow 10 4 := by
  have last := ht.last
  rw [year] at last
  rw [Nat.pow_eq]
  omega

theorem Ordinary.writeYear (ht : t.Ordinary) :
    writeYear t.date.year = padded 4 t.date.year.toNat :=
  writeYear_eq ht.first ht.last

/-- Texts of fixed width compare by date, then by the clock. -/
theorem sortable_lt_iff (ht : t.Ordinary) (hu : u.Ordinary) : t.sortable < u.sortable ↔
    t.date.Before u.date ∨ t.date = u.date ∧
      (t.clock.1 < u.clock.1 ∨ t.clock.1 = u.clock.1 ∧ (t.clock.2.1 < u.clock.2.1 ∨
        t.clock.2.1 = u.clock.2.1 ∧ (t.clock.2.2 < u.clock.2.2 ∨
          t.clock.2.2 = u.clock.2.2 ∧ t.fraction < u.fraction))) := by
  have left := ht.proper.fits
  have right := hu.proper.fits
  have first := ht.first
  have first' := hu.first
  rw [year] at first first'
  have years : t.date.year.toNat < u.date.year.toNat ↔ t.date.year < u.date.year := by omega
  have sameYear : t.date.year.toNat = u.date.year.toNat ↔ t.date.year = u.date.year := by omega
  have same : t.date = u.date ↔ t.date.year = u.date.year ∧ t.date.month = u.date.month ∧
      t.date.day = u.date.day := by
    rw [← Calendar.Date.mk.injEq]
  rw [String.lt_iff, toList_sortable, toList_sortable, writeYear_eq first ht.last,
    writeYear_eq first' hu.last, same, Calendar.Date.Before]
  simp only [padded_append_lt ht.year_lt hu.year_lt, padded_append_lt left.month right.month,
    padded_append_lt left.day right.day, padded_append_lt left.hour right.hour,
    padded_append_lt left.minute right.minute, padded_append_lt left.second right.second,
    padded_append_lt left.fraction right.fraction, List.cons_lt_cons_iff, Char.lt_irrefl, true_and,
    false_or, List.lt_irrefl, and_false, or_false, years, sameYear,
    and_or_left, or_assoc, and_assoc]

theorem sortable_lt_sortable (ht : t.Ordinary) (hu : u.Ordinary) :
    t.sortable < u.sortable ↔ t < u := by
  rw [sortable_lt_iff ht hu, clock_lt_clock ht.proper hu.proper, date_lt_date, date_inj, lt_iff]
  omega

/-! Reading -/

theorem timeOfDay?_clock (proper : t.Proper) : ∃ second extra,
    timeOfDay? t.clock.1 t.clock.2.1 t.clock.2.2 = some (second, extra) ∧
      second = (t.seconds % 86400).toNat ∧ extra + t.fraction = t.nanos := by
  have small := nanos_lt proper
  unfold Proper at proper
  unfold timeOfDay?
  have within : ¬ (24 ≤ t.clock.1 ∨ 60 ≤ t.clock.2.1 ∨ 61 ≤ t.clock.2.2) := by
    simp only [clock]
    omega
  rw [if_neg within]
  split
  · next leap =>
    refine ⟨_, _, rfl, ?_, ?_⟩ <;> simp only [clock, fraction] at leap ⊢ <;> omega
  · next usual =>
    refine ⟨_, _, rfl, ?_, ?_⟩ <;> simp only [clock, fraction] at usual ⊢ <;> omega

/-- The date and the place in it are those of the instant. -/
theorem ofLocal_date (t : Instant) :
    ofLocal t.date (t.seconds % 86400).toNat t.nanos 0 = t := by
  have days : t.date.toDays = t.seconds / 86400 := Calendar.Date.toDays_ofDays _
  have total := seconds_eq t
  rw [ofLocal, days, Int.sub_zero, ← total]

/-- What is read after the second: a fraction if there is one, and a zone. -/
def readTail (date : Calendar.Date) (h m sec : Nat) (cs : List Char) : Except ReadFault Instant := do
  let (fraction, cs) ← match cs with
    | '.' :: r => readFraction r
    | _ => .ok (0, cs)
  match timeOfDay? h m sec with
  | none => .error .outOfRange
  | some (second, extra) =>
    let (offset, cs) ← readZone (readMark (· = ':')) cs
    require (offset.natAbs < 86400) .outOfRange
    require cs.isEmpty .tooLong
    .ok (ofLocal date second (extra + fraction) offset)

theorem fixedPlaces_le (first : 0 ≤ t.year) (last : t.year ≤ 9999) (rest : List Char) :
    fixedPlaces ≤ (String.ofList (t.writeSeconds ++ rest)).utf8ByteSize := by
  rw [year] at first last
  have length : t.writeSeconds.length = 19 := by
    simp [writeSeconds, writeYear_eq first last]
  refine Nat.le_trans ?_ (length_le_utf8ByteSize (t.writeSeconds ++ rest))
  rw [List.length_append, length]
  exact Nat.le_add_right _ _

/-- Date and time of day are read back, whatever follows them. Of the seconds only two digits are
written. -/
theorem read_writeSeconds (first : 0 ≤ t.year) (last : t.year ≤ 9999) (rest : List Char) :
    read (String.ofList (t.writeSeconds ++ rest))
      = readTail t.date t.clock.1 t.clock.2.1 (t.clock.2.2 % 10 ^ 2) rest := by
  -- The fields fit, whatever the nanoseconds are.
  have whole : (⟨t.seconds, 0⟩ : Instant).Proper := .inl (Nat.zero_lt_succ _)
  have fits := whole.fits
  have long := fixedPlaces_le first last rest
  rw [year] at first last
  have back : ((t.date.year.toNat : Nat) : Int) = t.date.year := Int.toNat_of_nonneg first
  have short : t.date.year.toNat < Nat.pow 10 4 := by
    rw [Nat.pow_eq]
    omega
  have second : t.clock.2.2 % 10 ^ 2 < Nat.pow 10 2 := Nat.mod_lt _ (by decide)
  have valid : (⟨t.date.year, t.date.month, t.date.day⟩ : Calendar.Date).isValid = true :=
    Calendar.Date.isValid_ofDays _
  have month : t.date.month < Nat.pow 10 2 := fits.month
  have day : t.date.day < Nat.pow 10 2 := fits.day
  have hour : t.clock.1 < Nat.pow 10 2 := fits.hour
  have minute : t.clock.2.1 < Nat.pow 10 2 := fits.minute
  have text : t.writeSeconds ++ rest = padded 4 t.date.year.toNat ++ '-' :: (padded 2 t.date.month
      ++ '-' :: (padded 2 t.date.day ++ 'T' :: (padded 2 t.clock.1 ++ ':' :: (padded 2 t.clock.2.1
        ++ ':' :: (padded 2 (t.clock.2.2 % 10 ^ 2) ++ rest))))) := by
    rw [padded_mod, writeSeconds, writeYear_eq first last]
    simp only [List.append_assoc, List.cons_append]
  rw [text] at long
  simp only [read, String.toList_ofList, text, long, readDigits_padded short, readDigits_padded month,
    readDigits_padded day, readDigits_padded hour, readDigits_padded minute, readDigits_padded second,
    back, valid, readMark, require, bind, Except.bind, decide_true, if_true, Bool.true_or]
  rfl

/-- What is read from the text of an instant is what its clock shows, as far as that is a time of day. -/
theorem read_sortable_eq (first : 0 ≤ t.year) (last : t.year ≤ 9999) : read t.sortable
    = match timeOfDay? t.clock.1 t.clock.2.1 (t.clock.2.2 % 10 ^ 2) with
      | none => .error .outOfRange
      | some (second, extra) => .ok (ofLocal t.date second (extra + t.fraction) 0) := by
  have fraction : t.fraction < Nat.pow 10 9 := Nat.mod_lt _ (by decide)
  have places : readFraction (padded 9 t.fraction ++ ['Z']) = .ok (t.fraction, ['Z']) := by
    have read := readFraction_padded ['Z'] (by decide) (Nat.le_refl 9) fraction (stops_cons rfl [])
    simpa using read
  have text : t.sortable = String.ofList (t.writeSeconds ++ '.' :: (padded 9 t.fraction ++ ['Z'])) := by
    rw [sortable, List.append_assoc, List.cons_append]
  rw [text, read_writeSeconds first last]
  simp only [readTail, places, readZone, require, bind, Except.bind]
  cases timeOfDay? t.clock.1 t.clock.2.1 (t.clock.2.2 % 10 ^ 2) <;> rfl

theorem read_sortable (ht : t.Ordinary) : read t.sortable = .ok t := by
  obtain ⟨second, extra, time, rfl, nanos⟩ := timeOfDay?_clock ht.proper
  have small : t.clock.2.2 % 10 ^ 2 = t.clock.2.2 := Nat.mod_eq_of_lt ht.proper.fits.second
  rw [read_sortable_eq ht.first ht.last, small]
  simp only [time, nanos]
  exact congrArg Except.ok (ofLocal_date t)

end AuditTrail.Instant
