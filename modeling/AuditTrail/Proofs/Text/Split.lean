import AuditTrail.Text.Split
import Mathlib.Data.List.DropRight

/-! What the cuts of a text say about it. A cut is given exactly by an equation between texts, and the
pieces between separators are those of the list. A text that is put in between two others stays inside
of one piece if it has no separator. -/
namespace AuditTrail.Split

variable {sep : Char} {s a b core w : List Char} {drop : Char → Bool}

theorem pieces_eq_splitOn (sep : Char) (s : List Char) : pieces sep s = s.splitOn sep := by
  induction s with
  | nil => rfl
  | cons c r ih =>
    rw [pieces, List.splitOn_cons_eq_if_modifyHead, ih]
    by_cases same : c = sep
    · simp [same]
    · obtain ⟨first, more, split⟩ := List.exists_cons_of_ne_nil (List.splitOn_ne_nil sep r)
      simp [same, split]

/-! Single cuts -/

theorem first?_eq_some_iff : first? sep s = some (a, b) ↔ s = a ++ sep :: b ∧ sep ∉ a := by
  constructor
  · exact first?_eq_some
  · rintro ⟨rfl, absent⟩
    exact first?_append b absent

theorem first?_eq_none_iff : first? sep s = none ↔ sep ∉ s := by
  induction s with
  | nil => simp [first?]
  | cons c r ih =>
    rw [first?]
    by_cases same : c = sep
    · simp [same]
    · simp [same, Ne.symm same, ih]

theorem exists_last?_of_mem (present : sep ∈ s) : ∃ a b, last? sep s = some (a, b) := by
  obtain ⟨b, a, reversed, absent⟩ := List.eq_append_cons_of_mem (List.mem_reverse.mpr present)
  have same : s = a.reverse ++ sep :: b.reverse := by
    rw [← List.reverse_reverse s, reversed]
    simp
  exact ⟨a.reverse, b.reverse, same ▸ last?_append a.reverse (by simpa using absent)⟩

theorem last?_eq_none_iff : last? sep s = none ↔ sep ∉ s := by
  constructor
  · intro none present
    obtain ⟨a, b, cut⟩ := exists_last?_of_mem present
    rw [none] at cut
    contradiction
  · exact last?_eq_none

theorem last?_eq_some_iff : last? sep s = some (a, b) ↔ s = a ++ sep :: b ∧ sep ∉ b := by
  constructor
  · intro cut
    induction s generalizing a b with
    | nil => contradiction
    | cons c r ih =>
      rw [last?] at cut
      split at cut
      · next before after later =>
        cases cut
        obtain ⟨rfl, absent⟩ := ih later
        exact ⟨rfl, absent⟩
      · next later =>
        split at cut
        · next same =>
          cases cut
          exact ⟨by rw [same]; rfl, last?_eq_none_iff.mp later⟩
        · contradiction
  · rintro ⟨rfl, absent⟩
    exact last?_append a absent

theorem after?_eq_some_iff : after? a s = some b ↔ s = a ++ b := by
  induction a generalizing s with
  | nil => simp [after?]
  | cons p ps ih =>
    cases s with
    | nil => simp [after?]
    | cons c cs =>
      rw [after?]
      by_cases same : p = c
      · simp [same, ih]
      · simp [same, Ne.symm same]

/-! The texts at a cut -/

theorem differ_of_not_mem (absent : sep ∉ s) : ∀ c ∈ s, decide (c ≠ sep) = true :=
  fun _ mem => decide_eq_true fun same => absent (same ▸ mem)

theorem takeWhile_of_not_mem (absent : sep ∉ s) : s.takeWhile (· ≠ sep) = s :=
  List.takeWhile_eq_self_iff.mpr (differ_of_not_mem absent)

theorem takeWhile_append_cons (absent : sep ∉ a) : (a ++ sep :: b).takeWhile (· ≠ sep) = a := by
  rw [List.takeWhile_append_of_pos (differ_of_not_mem absent), List.takeWhile_cons_of_neg (by simp),
    List.append_nil]

theorem dropWhile_of_not_mem (absent : sep ∉ s) : s.dropWhile (· ≠ sep) = [] :=
  List.dropWhile_eq_nil_iff.mpr (differ_of_not_mem absent)

theorem dropWhile_append_cons (absent : sep ∉ a) :
    (a ++ sep :: b).dropWhile (· ≠ sep) = sep :: b := by
  rw [List.dropWhile_append_of_pos (differ_of_not_mem absent), List.dropWhile_cons_of_neg (by simp)]

theorem rtakeWhile_of_not_mem (absent : sep ∉ s) : s.rtakeWhile (· ≠ sep) = s :=
  List.rtakeWhile_eq_self_iff.mpr (differ_of_not_mem absent)

theorem rtakeWhile_append_cons (absent : sep ∉ b) : (a ++ sep :: b).rtakeWhile (· ≠ sep) = b := by
  rw [List.rtakeWhile, List.reverse_append, List.reverse_cons, List.append_assoc, List.singleton_append,
    takeWhile_append_cons (by simpa using absent), List.reverse_reverse]

/-! Putting a text in between -/

/-- The first of two texts that are joined gives pieces of its own up to its last separator. -/
theorem exists_splitOn_append (sep : Char) (a : List Char) : ∃ before p,
    (a = [] ∨ a.getLast? = some sep → p = []) ∧ sep ∉ p ∧
      ∀ rest, (a ++ rest).splitOn sep = before ++ (p ++ rest).splitOn sep := by
  by_cases present : sep ∈ a
  · obtain ⟨front, p, cut⟩ := exists_last?_of_mem present
    obtain ⟨rfl, absent⟩ := last?_eq_some_iff.mp cut
    refine ⟨front.splitOn sep, p, ?_, absent, fun rest => ?_⟩
    · intro ends
      -- Otherwise the last character of `p` is that of `a`, but `p` has no separator.
      by_contra filled
      have last : (front ++ sep :: p).getLast? = p.getLast? := by
        rw [List.getLast?_append_cons, List.getLast?_cons_of_ne_nil filled]
      exact absent (List.mem_of_getLast? (last ▸ ends.resolve_left (by simp)))
    · rw [List.append_assoc, List.cons_append, List.splitOn_append_cons_self]
  · refine ⟨[], a, fun ends => ?_, present, fun rest => rfl⟩
    rcases ends with empty | last
    · exact empty
    · exact absurd (List.mem_of_getLast? last) present

/-- The second of two texts that are joined adds to the last piece up to its first separator. -/
theorem exists_append_splitOn (sep : Char) (b : List Char) : ∃ q after,
    (b = [] ∨ b.head? = some sep → q = []) ∧
      ∀ front, sep ∉ front → (front ++ b).splitOn sep = (front ++ q) :: after := by
  cases cut : first? sep b with
  | none =>
    have absent := first?_eq_none_iff.mp cut
    refine ⟨b, [], fun starts => ?_, fun front none => List.splitOn_eq_singleton ?_⟩
    · rcases starts with empty | first
      · exact empty
      · exact absurd (List.mem_of_head? first) absent
    · simp [none, absent]
  | some parts =>
    obtain ⟨q, rest⟩ := parts
    obtain ⟨rfl, absent⟩ := first?_eq_some_iff.mp cut
    refine ⟨q, rest.splitOn sep, fun starts => ?_, fun front none => ?_⟩
    · cases q with
      | nil => rfl
      | cons c q =>
        have first : c = sep := by simpa using starts
        exact absurd (first ▸ List.mem_cons_self) absent
    · rw [← List.append_assoc, List.splitOn_append_cons_self_of_not_mem (by simp [none, absent])]

/-- A text without separator that is put in between two others lands in the piece that goes from the
last separator before it to the first one after it. -/
theorem splitOn_insert (sep : Char) (a b : List Char) : ∃ before p q after,
    (a = [] ∨ a.getLast? = some sep → p = []) ∧ (b = [] ∨ b.head? = some sep → q = []) ∧
      ∀ w, sep ∉ w → (a ++ w ++ b).splitOn sep = before ++ (p ++ w ++ q) :: after := by
  obtain ⟨before, p, ends, absent, front⟩ := exists_splitOn_append sep a
  obtain ⟨q, after, starts, back⟩ := exists_append_splitOn sep b
  refine ⟨before, p, q, after, ends, starts, fun w none => ?_⟩
  rw [List.append_assoc, front, ← List.append_assoc, back _ (by simp [none, absent])]

/-! Trimming -/

/-- What is left of a text without the characters of a class at both of its ends. -/
def Trims (drop : Char → Bool) (s core : List Char) : Prop :=
  ∃ left right, s = left ++ core ++ right ∧ (∀ c ∈ left ++ right, drop c = true) ∧
    (∀ c, core.head? = some c → drop c = false) ∧ ∀ c, core.getLast? = some c → drop c = false

theorem dropWhile_append (dropped : ∀ c ∈ w, drop c = true)
    (first : ∀ c, s.head? = some c → drop c = false) : (w ++ s).dropWhile drop = s := by
  rw [List.dropWhile_append_of_pos dropped]
  cases s with
  | nil => rfl
  | cons c r => exact List.dropWhile_cons_of_neg (by simp [first c rfl])

theorem trims_trimBoth (drop : Char → Bool) (s : List Char) : Trims drop s (trimBoth drop s) := by
  have stops (s : List Char) : ∀ c, (s.dropWhile drop).head? = some c → drop c = false := by
    intro c first
    have stop := List.head?_dropWhile_not drop s
    rwa [first] at stop
  let right := ((s.dropWhile drop).reverse.takeWhile drop).reverse
  have whole : s.dropWhile drop = trimBoth drop s ++ right := by
    rw [trimBoth, ← List.reverse_append, List.takeWhile_append_dropWhile, List.reverse_reverse]
  refine ⟨s.takeWhile drop, right, ?_, ?_, ?_, ?_⟩
  · rw [List.append_assoc, ← whole, List.takeWhile_append_dropWhile]
  · intro c mem
    rcases List.mem_append.mp mem with left | right
    · exact List.all_eq_true.mp List.all_takeWhile c left
    · exact List.all_eq_true.mp List.all_takeWhile c (List.mem_reverse.mp right)
  · intro c first
    exact stops s c (by rw [whole, List.head?_append, first]; rfl)
  · intro c last
    rw [trimBoth, List.getLast?_reverse] at last
    exact stops _ c last

theorem trimBoth_eq_iff : trimBoth drop s = core ↔ Trims drop s core := by
  constructor
  · rintro rfl
    exact trims_trimBoth drop s
  · rintro ⟨left, right, rfl, dropped, first, last⟩
    obtain ⟨leftDropped, rightDropped⟩ := List.forall_mem_append.mp dropped
    cases core with
    | nil =>
      -- The first pass takes both sides at once.
      have nothing : (left ++ right ++ []).dropWhile drop = [] := dropWhile_append dropped (by simp)
      rw [List.append_nil] at nothing
      simp [trimBoth, nothing]
    | cons c core =>
      have front : (left ++ (c :: core ++ right)).dropWhile drop = c :: core ++ right :=
        dropWhile_append leftDropped fun d head => first d head
      have back : (right.reverse ++ (c :: core).reverse).dropWhile drop = (c :: core).reverse :=
        dropWhile_append (by simpa using rightDropped) fun d head =>
          last d (List.head?_reverse.symm.trans head)
      rw [trimBoth, List.append_assoc, front, List.reverse_append, back, List.reverse_reverse]

theorem trimBoth_eq_nil_iff : trimBoth drop s = [] ↔ ∀ c ∈ s, drop c = true := by
  rw [trimBoth_eq_iff]
  constructor
  · rintro ⟨left, right, rfl, dropped, -⟩
    simpa using dropped
  · intro dropped
    exact ⟨s, [], by simp, by simpa using dropped, by simp, by simp⟩

/-- Characters of the class at an end of a text are not seen after trimming. -/
theorem trimBoth_append_left (dropped : ∀ c ∈ w, drop c = true) :
    trimBoth drop (w ++ s) = trimBoth drop s := by
  obtain ⟨left, right, same, ends, first, last⟩ := trims_trimBoth drop s
  refine trimBoth_eq_iff.mpr ⟨w ++ left, right, ?_, ?_, first, last⟩
  · rw [List.append_assoc, List.append_assoc, ← List.append_assoc left, ← same]
  · rw [List.append_assoc]
    exact List.forall_mem_append.mpr ⟨dropped, ends⟩

theorem trimBoth_append_right (dropped : ∀ c ∈ w, drop c = true) :
    trimBoth drop (s ++ w) = trimBoth drop s := by
  obtain ⟨left, right, same, ends, first, last⟩ := trims_trimBoth drop s
  refine trimBoth_eq_iff.mpr ⟨left, right ++ w, ?_, ?_, first, last⟩
  · rw [← List.append_assoc, ← same]
  · rw [← List.append_assoc]
    exact List.forall_mem_append.mpr ⟨ends, dropped⟩

end AuditTrail.Split
