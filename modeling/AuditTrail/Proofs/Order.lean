import AuditTrail.Proofs.Keyset
import Mathlib.Data.List.Pairwise

/-! Entries by their keys and in the order of a listing. Keys of their own leave at most one entry to be
found, and an order that tells all entries apart leaves one way to put them in order, so it does not
matter how the entries were kept. -/
namespace AuditTrail

theorem Instant.eq_iff {t u : Instant} : t = u ↔ t.seconds = u.seconds ∧ t.nanos = u.nanos := by
  cases t; cases u; simp

theorem Instant.le_iff {t u : Instant} : t ≤ u ↔ t < u ∨ t = u := by
  have total : t ≤ u ↔ ¬ u < t := (Bool.not_eq_true (u.before t)).to_iff.symm
  rw [total, lt_iff, lt_iff, eq_iff]
  omega

theorem Id.lt_irrefl (i : Id) : ¬ i < i := Nat.lt_irrefl i.number

section
variable {α β : Type} [DecidableEq β] {l m : List α} {key : α → β}

/-- Among entries with keys of their own, at most one has some key. -/
theorem filter_eq_find? (distinct : (l.map key).Nodup) (k : β) :
    l.filter (key · = k) = (l.find? (key · = k)).toList := by
  induction l with
  | nil => rfl
  | cons a rest ih =>
    obtain ⟨fresh, distinct⟩ := List.nodup_cons.mp distinct
    by_cases own : key a = k
    · have none : rest.filter (key · = k) = [] := by
        refine List.filter_eq_nil_iff.mpr fun b mem same => fresh ?_
        rw [own, ← of_decide_eq_true same]
        exact List.mem_map_of_mem mem
      rw [List.filter_cons_of_pos (by simpa using own), List.find?_cons_of_pos (by simpa using own), none]
      rfl
    · rw [List.filter_cons_of_neg (by simpa using own), List.find?_cons_of_neg (by simpa using own),
        ih distinct]

/-- What is found by a key does not depend on how the entries are kept. -/
theorem find?_perm (perm : l.Perm m) (distinct : (l.map key).Nodup) (k : β) :
    l.find? (key · = k) = m.find? (key · = k) := by
  have either := perm.filter (key · = k)
  rw [filter_eq_find? distinct, filter_eq_find? ((perm.map key).nodup_iff.mp distinct)] at either
  cases left : l.find? (key · = k) with
  | none =>
    rw [left] at either
    cases right : m.find? (key · = k) with
    | none => rfl
    | some b =>
      rw [right] at either
      exact absurd either.length_eq (by simp)
  | some a =>
    rw [left] at either
    exact (Option.mem_toList.mp (either.subset (List.mem_singleton_self a))).symm
end

/-- Entries in an order. Those that the order does not tell apart stay as they are. -/
def inOrder {α : Type} (before : α → α → Prop) [DecidableRel before] (l : List α) : List α :=
  l.mergeSort fun a b => !decide (before b a)

/-- An order in which entries that it does not tell apart share a place. -/
structure Places {α : Type} (before : α → α → Prop) : Prop where
  asymm : ∀ {a b}, before a b → ¬ before b a
  split : ∀ {a c} b, before a c → before a b ∨ before b c

theorem Record.precedes_iff {a b : Record} : a.Precedes b ↔
    b.operation.time.seconds < a.operation.time.seconds ∨
      b.operation.time.seconds = a.operation.time.seconds ∧
        (b.operation.time.nanos < a.operation.time.nanos ∨
          b.operation.time.nanos = a.operation.time.nanos ∧ b.id.number < a.id.number) := by
  have ids : b.id < a.id ↔ b.id.number < a.id.number := .rfl
  simp only [Record.Precedes, Instant.lt_iff, Instant.eq_iff, ids]
  omega

theorem Record.places : Places Record.Precedes where
  asymm := fun first second => Record.Precedes.irrefl _ (first.trans second)
  split := by
    intro a c b
    simp only [Record.precedes_iff]
    omega

theorem Project.places : Places Project.Precedes where
  asymm := fun first second => Nat.lt_asymm first second
  split := by
    intro a c b (less : c.id.number < a.id.number)
    change b.id.number < a.id.number ∨ c.id.number < b.id.number
    omega

section
variable {α : Type} {before : α → α → Prop} [DecidableRel before] {l sorted : List α}

theorem inOrder_perm (l : List α) : (inOrder before l).Perm l := List.mergeSort_perm _ _

theorem Places.pairwise_inOrder (places : Places before) (l : List α) :
    (inOrder before l).Pairwise fun a b => ¬ before b a := by
  have whole := @List.pairwise_mergeSort α (fun a b => !decide (before b a)) (fun a b c ab bc => ?_)
    (fun a b => ?_) l
  · exact whole.imp fun later => by simpa using later
  · simp only [Bool.not_eq_true', decide_eq_false_iff_not] at ab bc ⊢
    intro ca
    rcases places.split b ca with cb | ba
    · exact bc cb
    · exact ab ba
  · by_cases ba : before b a
    · simp [places.asymm ba]
    · simp [ba]

omit [DecidableRel before] in
/-- There is only one way to put entries in an order that tells them apart. -/
theorem Places.eq_of_perm (places : Places before) {whole : List α}
    (unordered : whole.Pairwise fun a b => ¬ before b a) (arranged : sorted.Pairwise before)
    (perm : whole.Perm sorted) : whole = sorted := by
  have either := arranged.imp (S := fun a b => before a b ∨ before b a) .inl
  have symm : Std.Symm fun a b => before a b ∨ before b a := ⟨fun _ _ => Or.symm⟩
  have apart := either.forall
  refine List.Perm.eq_of_pairwise ?_ unordered (arranged.imp places.asymm) perm
  intro a b aMem bMem ba ab
  by_contra other
  rcases apart (perm.subset aMem) bMem other with first | second
  · exact ab first
  · exact ba second

theorem Places.inOrder_eq (places : Places before) (arranged : sorted.Pairwise before)
    (perm : sorted.Perm l) : inOrder before l = sorted :=
  places.eq_of_perm (places.pairwise_inOrder l) arranged ((inOrder_perm l).trans perm.symm)

/-- Entries that the order tells apart are put in order in one way, however they are kept. -/
theorem Places.inOrder_congr (places : Places before) {m : List α} (perm : l.Perm m) (distinct : l.Nodup)
    (apart : ∀ a ∈ l, ∀ b ∈ l, a ≠ b → before a b ∨ before b a) :
    inOrder before l = inOrder before m := by
  have whole : (inOrder before m).Perm l := (inOrder_perm m).trans perm.symm
  refine places.inOrder_eq ?_ whole
  refine ((places.pairwise_inOrder m).and (whole.nodup_iff.mpr distinct)).imp_of_mem ?_
  rintro a b first second ⟨unordered, other⟩
  exact (apart a (whole.subset first) b (whole.subset second) other).resolve_right unordered

/-- Some of the entries in order are those entries in order. -/
theorem Places.filter_inOrder_eq (places : Places before) {p : α → Bool}
    (arranged : sorted.Pairwise before) (perm : (l.filter p).Perm sorted) :
    (inOrder before l).filter p = sorted :=
  places.eq_of_perm ((places.pairwise_inOrder l).filter p) arranged
    (((inOrder_perm l).filter p).trans perm)

theorem inOrder_eq_self (arranged : l.Pairwise fun a b => ¬ before b a) : inOrder before l = l :=
  List.mergeSort_of_pairwise (arranged.imp fun later => by simpa using later)

/-- Entries are put in order by what shows of them, if that shows the order. -/
theorem map_inOrder {β : Type} {f : α → β} {after : β → β → Prop} [DecidableRel after]
    (same : ∀ a ∈ l, ∀ b ∈ l, after (f a) (f b) ↔ before a b) :
    (inOrder before l).map f = inOrder after (l.map f) :=
  List.map_mergeSort fun a first b second => by simp only [same b second a first]
end

end AuditTrail
