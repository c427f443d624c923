/-!
Cutting texts at separators: at the first or the last occurrence, and everywhere. Each cut loses
nothing but the separator.
-/
namespace AuditTrail.Split

/-- The text before and after the first `sep`, if there is one. -/
def first? (sep : Char) : List Char → Option (List Char × List Char)
  | [] => none
  | c :: r =>
    if c = sep then some ([], r)
    else (first? sep r).map fun (a, b) => (c :: a, b)

/-- The text before and after the last `sep`, if there is one. -/
def last? (sep : Char) : List Char → Option (List Char × List Char)
  | [] => none
  | c :: r =>
    match last? sep r with
    | some (a, b) => some (c :: a, b)
    | none => if c = sep then some ([], r) else none

/-- The pieces between separators; there is always at least one. -/
def pieces (sep : Char) : List Char → List (List Char)
  | [] => [[]]
  | c :: r =>
    if c = sep then [] :: pieces sep r
    else match pieces sep r with
      | [] => [[c]]
      | p :: ps => (c :: p) :: ps

/-- What follows `start`, if the text begins with it. -/
def after? : List Char → List Char → Option (List Char)
  | [], cs => some cs
  | _ :: _, [] => none
  | p :: ps, c :: cs => if p = c then after? ps cs else none

def trimBoth (drop : Char → Bool) (cs : List Char) : List Char :=
  ((cs.dropWhile drop).reverse.dropWhile drop).reverse

theorem first?_eq_some {sep : Char} {s a b : List Char} (h : first? sep s = some (a, b)) :
    s = a ++ sep :: b ∧ sep ∉ a := by
  induction s generalizing a b with
  | nil => simp [first?] at h
  | cons c r ih =>
    by_cases hc : c = sep
    · simp only [first?, hc, if_true, Option.some.injEq, Prod.mk.injEq] at h
      obtain ⟨rfl, rfl⟩ := h
      simp [hc]
    · simp only [first?, hc, if_false, Option.map_eq_some_iff, Prod.exists, Prod.mk.injEq] at h
      obtain ⟨a', b', h, rfl, rfl⟩ := h
      obtain ⟨rfl, hn⟩ := ih h
      exact ⟨rfl, by simp [hn, Ne.symm hc]⟩

theorem first?_append {sep : Char} {a : List Char} (b : List Char) (h : sep ∉ a) :
    first? sep (a ++ sep :: b) = some (a, b) := by
  induction a with
  | nil => simp [first?]
  | cons c r ih =>
    simp only [List.mem_cons, not_or] at h
    simp [first?, Ne.symm h.1, ih h.2]

theorem last?_eq_none {sep : Char} {s : List Char} (h : sep ∉ s) : last? sep s = none := by
  induction s with
  | nil => rfl
  | cons c r ih =>
    simp only [List.mem_cons, not_or] at h
    simp [last?, ih h.2, Ne.symm h.1]

theorem last?_append {sep : Char} (a : List Char) {b : List Char} (h : sep ∉ b) :
    last? sep (a ++ sep :: b) = some (a, b) := by
  induction a with
  | nil => simp [last?, last?_eq_none h]
  | cons c r ih => simp [last?, ih]

end AuditTrail.Split
