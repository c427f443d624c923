import AuditTrail.Proofs.Query
import AuditTrail.Proofs.Time.Sortable

/-! Pages that are cut off a sorted listing, each after the last entry of the page before. The
listing may change from page to page. Whatever it does, the pages together are sorted and they come
to an end; as long as it stays the same, an entry is lost only where a cursor turns away more than
what came before it. -/
namespace AuditTrail

namespace Page

variable {α : Type} {entries : List α} {limit : Nat} {b : α}

theorem last?_eq_some : last? entries limit = some b ↔
    limit ≤ entries.length ∧ entries.getLast? = some b := by
  unfold last?
  split
  · next short => exact ⟨fun none => by contradiction, fun full => absurd full.1 (by omega)⟩
  · next full => exact ⟨fun some => ⟨by omega, some⟩, fun some => some.2⟩

theorem length_lt_of_last? (positive : 0 < limit) (none : last? entries limit = none) :
    entries.length < limit := by
  unfold last? at none
  split at none
  · assumption
  · next full =>
    rw [List.getLast?_eq_none_iff.mp none, List.length_nil] at full
    contradiction

end Page

/-- An order of entries, and which of them each cursor admits. A cursor that stands at an entry
admits only entries that come later and have a smaller number, and it admits no more than the cursor
that admitted the entry. -/
structure Keyset (α C : Type) where
  start : C
  past : α → C
  admits : C → α → Bool
  Precedes : α → α → Prop
  number : α → Nat
  admits_start : ∀ a, admits start a = true
  precedes_of_admits : ∀ {a b}, admits (past a) b = true → Precedes a b
  number_lt : ∀ {a b}, admits (past a) b = true → number b < number a
  admits_of_admits : ∀ {c a b}, admits c a = true → admits (past a) b = true → admits c b = true
  irrefl : ∀ a, ¬ Precedes a a
  trans : ∀ {a b c}, Precedes a b → Precedes b c → Precedes a c

namespace Keyset

variable {α C : Type} {k : Keyset α C} {limit : Nat} {listing : Nat → List α} {cursor : C}
  {a b : α}

/-- The page that a cursor gets of a listing. -/
def page (k : Keyset α C) (limit : Nat) (entries : List α) (cursor : C) : List α :=
  (entries.filter (k.admits cursor)).take limit

/-- The pages that are got one after the other, the n-th of them from the n-th state of a listing. A
page after which none may follow is the last. -/
inductive Pages (k : Keyset α C) (limit : Nat) : (Nat → List α) → C → List (List α) → Prop
  | last {listing : Nat → List α} {cursor : C}
      (done : Page.last? (k.page limit (listing 0) cursor) limit = none) :
      Pages k limit listing cursor [k.page limit (listing 0) cursor]
  | more {listing : Nat → List α} {cursor : C} {b : α} {rest : List (List α)}
      (left : Page.last? (k.page limit (listing 0) cursor) limit = some b)
      (others : Pages k limit (fun n => listing (n + 1)) (k.past b) rest) :
      Pages k limit listing cursor (k.page limit (listing 0) cursor :: rest)

theorem mem_page {entries : List α} (mem : a ∈ k.page limit entries cursor) :
    a ∈ entries ∧ k.admits cursor a = true :=
  List.mem_filter.mp (List.mem_of_mem_take mem)

/-- A page after which another may follow ends in its last entry. -/
theorem page_eq_append {entries : List α}
    (left : Page.last? (k.page limit entries cursor) limit = some b) :
    ∃ before, k.page limit entries cursor = before ++ [b] :=
  List.getLast?_eq_some_iff.mp (Page.last?_eq_some.mp left).2

theorem mem_page_of_last? {entries : List α}
    (left : Page.last? (k.page limit entries cursor) limit = some b) :
    b ∈ k.page limit entries cursor := by
  obtain ⟨before, ends⟩ := page_eq_append left
  rw [ends]
  exact List.mem_append_right _ (List.mem_singleton_self b)

/-- No page follows the first one if the whole listing is shorter than a page. -/
theorem last?_first_page {entries : List α} (positive : 0 < limit) :
    Page.last? (k.page limit entries k.start) limit = none ↔ entries.length < limit := by
  have all : k.page limit entries k.start = entries.take limit := by
    rw [page, List.filter_eq_self.mpr fun a _ => k.admits_start a]
  rw [all]
  refine ⟨fun none => ?_, fun short => ?_⟩
  · have less := Page.length_lt_of_last? positive none
    rw [List.length_take] at less
    omega
  · rw [List.take_of_length_le (Nat.le_of_lt short), Page.last?, if_pos short]

theorem mem_flatten_of_followed {pages : List (List α)} {page : List α}
    (followed : page ∈ pages.dropLast) (ends : page.getLast? = some b) : b ∈ pages.flatten :=
  List.mem_flatten.mpr ⟨page, List.dropLast_subset _ followed, List.mem_of_getLast? ends⟩

/-- The number of the last entry falls from page to page, so there is a last page. -/
theorem exists_pages (k : Keyset α C) (limit : Nat) (listing : Nat → List α) (cursor : C) :
    ∃ pages, k.Pages limit listing cursor pages := by
  have below : ∀ n listing cursor, (∀ b ∈ Page.last? (k.page limit (listing 0) cursor) limit,
      k.number b < n) → ∃ pages, k.Pages limit listing cursor pages := by
    intro n
    induction n with
    | zero =>
      intro listing cursor bound
      cases left : Page.last? (k.page limit (listing 0) cursor) limit with
      | none => exact ⟨_, .last left⟩
      | some b => exact absurd (bound b left) (Nat.not_lt_zero _)
    | succ n ih =>
      intro listing cursor bound
      cases left : Page.last? (k.page limit (listing 0) cursor) limit with
      | none => exact ⟨_, .last left⟩
      | some b =>
        obtain ⟨rest, others⟩ := ih (fun n => listing (n + 1)) (k.past b) fun x next =>
          Nat.lt_of_lt_of_le (k.number_lt (mem_page (mem_page_of_last? next)).2)
            (Nat.le_of_lt_succ (bound b left))
        exact ⟨_, .more left others⟩
  exact below (((Page.last? (k.page limit (listing 0) cursor) limit).map k.number).getD 0 + 1)
    listing cursor fun b left => by simp [Option.mem_def.mp left]

namespace Pages

variable {pages : List (List α)}

theorem ne_nil (cut : k.Pages limit listing cursor pages) : pages ≠ [] := by
  cases cut <;> exact List.cons_ne_nil _ _

theorem exists_last (cut : k.Pages limit listing cursor pages) (several : 1 < pages.length) :
    ∃ b, Page.last? (k.page limit (listing 0) cursor) limit = some b := by
  cases cut with
  | last => exact absurd several (Nat.lt_irrefl 1)
  | more left => exact ⟨_, left⟩

theorem admits (cut : k.Pages limit listing cursor pages) (mem : a ∈ pages.flatten) :
    k.admits cursor a = true := by
  induction cut with
  | last done =>
    rw [List.flatten_singleton] at mem
    exact (mem_page mem).2
  | more left others ih =>
    rw [List.flatten_cons] at mem
    rcases List.mem_append.mp mem with here | later
    · exact (mem_page here).2
    · exact k.admits_of_admits (mem_page (mem_page_of_last? left)).2 (ih later)

theorem listed (cut : k.Pages limit listing cursor pages) (mem : a ∈ pages.flatten) :
    ∃ n, a ∈ listing n := by
  induction cut with
  | last done =>
    rw [List.flatten_singleton] at mem
    exact ⟨0, (mem_page mem).1⟩
  | more left others ih =>
    rw [List.flatten_cons] at mem
    rcases List.mem_append.mp mem with here | later
    · exact ⟨0, (mem_page here).1⟩
    · obtain ⟨n, mem⟩ := ih later
      exact ⟨n + 1, mem⟩

end Pages

/-! Order -/

section
variable {entries : List α} (sorted : entries.Pairwise k.Precedes)
include sorted

theorem pairwise_page (limit : Nat) (cursor : C) :
    (k.page limit entries cursor).Pairwise k.Precedes :=
  (sorted.filter _).sublist (List.take_sublist _ _)

theorem eq_or_precedes_last (left : Page.last? (k.page limit entries cursor) limit = some b)
    (mem : a ∈ k.page limit entries cursor) : a = b ∨ k.Precedes a b := by
  have order := pairwise_page sorted limit cursor
  obtain ⟨before, ends⟩ := page_eq_append left
  rw [ends] at order mem
  rcases List.mem_append.mp mem with early | last
  · exact .inr ((List.pairwise_append.mp order).2.2 a early b (List.mem_singleton_self b))
  · exact .inl (List.mem_singleton.mp last)

/-- Nothing on a page comes after its last entry. -/
theorem not_precedes_of_mem_page
    (left : Page.last? (k.page limit entries cursor) limit = some b)
    (mem : a ∈ k.page limit entries cursor) : ¬ k.Precedes b a := by
  intro after
  rcases eq_or_precedes_last sorted left mem with rfl | before
  · exact k.irrefl _ after
  · exact k.irrefl _ (k.trans after before)

/-- An admitted entry is on the page, or the page is full and all of it comes before. -/
theorem mem_page_or_precedes (positive : 0 < limit) (stored : a ∈ entries)
    (admitted : k.admits cursor a = true) : a ∈ k.page limit entries cursor ∨
      ∃ b, Page.last? (k.page limit entries cursor) limit = some b ∧ k.Precedes b a := by
  have mem := List.mem_filter.mpr ⟨stored, admitted⟩
  rw [← List.take_append_drop limit (entries.filter (k.admits cursor))] at mem
  rcases List.mem_append.mp mem with here | later
  · exact .inl here
  · cases left : Page.last? (k.page limit entries cursor) limit with
    | none =>
      have short := Page.length_lt_of_last? positive left
      have length := List.length_pos_of_mem later
      rw [List.length_drop] at length
      rw [page, List.length_take] at short
      omega
    | some b =>
      have order := sorted.filter (k.admits cursor)
      rw [← List.take_append_drop limit (entries.filter (k.admits cursor))] at order
      exact .inr ⟨b, rfl, (List.pairwise_append.mp order).2.2 b (mem_page_of_last? left) a later⟩

/-- If cursors turn nothing away then what comes after a page is what is left of the listing. -/
theorem filter_past (whole : ∀ {a b : α}, k.Precedes a b → k.admits (k.past a) b = true)
    (left : Page.last? (k.page limit entries cursor) limit = some b) :
    entries.filter (k.admits (k.past b)) = (entries.filter (k.admits cursor)).drop limit := by
  have last := mem_page_of_last? left
  have narrower : entries.filter (k.admits (k.past b))
      = (entries.filter (k.admits cursor)).filter (k.admits (k.past b)) := by
    rw [List.filter_filter]
    refine List.filter_congr fun x _ => ?_
    cases kept : k.admits (k.past b) x with
    | false => rfl
    | true => rw [k.admits_of_admits (mem_page last).2 kept, Bool.and_self]
  have here : (k.page limit entries cursor).filter (k.admits (k.past b)) = [] :=
    List.filter_eq_nil_iff.mpr fun x mem kept =>
      not_precedes_of_mem_page sorted left mem (k.precedes_of_admits kept)
  have order := sorted.filter (k.admits cursor)
  rw [← List.take_append_drop limit (entries.filter (k.admits cursor))] at order
  have later : ((entries.filter (k.admits cursor)).drop limit).filter (k.admits (k.past b))
      = (entries.filter (k.admits cursor)).drop limit :=
    List.filter_eq_self.mpr fun x mem => whole ((List.pairwise_append.mp order).2.2 b last x mem)
  calc entries.filter (k.admits (k.past b))
      = (k.page limit entries cursor ++ (entries.filter (k.admits cursor)).drop limit).filter
          (k.admits (k.past b)) := by rw [narrower, page, List.take_append_drop]
    _ = (entries.filter (k.admits cursor)).drop limit := by
        rw [List.filter_append, here, later, List.nil_append]
end

namespace Pages

variable {pages : List (List α)}

/-- No entry comes twice or too late. -/
theorem pairwise (cut : k.Pages limit listing cursor pages)
    (sorted : ∀ n, (listing n).Pairwise k.Precedes) : pages.flatten.Pairwise k.Precedes := by
  induction cut with
  | last done =>
    rw [List.flatten_singleton]
    exact pairwise_page (sorted 0) _ _
  | more left others ih =>
    rw [List.flatten_cons]
    refine List.pairwise_append.mpr ⟨pairwise_page (sorted 0) _ _, ih fun n => sorted (n + 1), ?_⟩
    intro x here y later
    have next := k.precedes_of_admits (others.admits later)
    rcases eq_or_precedes_last (sorted 0) left here with rfl | before
    · exact next
    · exact k.trans before next

section
variable {entries : List α} (sorted : entries.Pairwise k.Precedes) (positive : 0 < limit)
include sorted positive

/-- An entry is missing just when the cursor at the end of some page, but the last one, turns it
away although it comes later. -/
theorem not_mem_iff (cut : k.Pages limit listing cursor pages) (same : ∀ n, listing n = entries)
    (stored : a ∈ entries) (admitted : k.admits cursor a = true) : a ∉ pages.flatten ↔
      ∃ page ∈ pages.dropLast, ∃ b, page.getLast? = some b ∧ k.Precedes b a ∧
        k.admits (k.past b) a = false := by
  induction cut with
  | last done =>
    rw [same 0] at done ⊢
    rcases mem_page_or_precedes sorted positive stored admitted with here | ⟨b, left, -⟩
    · simp [here]
    · rw [left] at done
      contradiction
  | @more listing cursor b rest left others ih =>
    have ends := (Page.last?_eq_some.mp left).2
    rw [same 0] at left ends ⊢
    have later {x : α} (mem : x ∈ rest.flatten) : k.Precedes b x :=
      k.precedes_of_admits (others.admits mem)
    rw [List.dropLast_cons_of_ne_nil others.ne_nil, List.flatten_cons, List.mem_append, not_or]
    simp only [List.mem_cons, exists_eq_or_imp, ends, Option.some.injEq, exists_eq_left']
    rcases mem_page_or_precedes sorted positive stored admitted with here | ⟨b', left', next⟩
    · -- What is on this page does not come after an entry of it, or of a later one.
      have first := not_precedes_of_mem_page sorted left here
      refine ⟨fun missing => absurd here missing.1, ?_⟩
      rintro (⟨after, -⟩ | ⟨page, earlier, x, last, after, -⟩)
      · exact absurd after first
      · exact absurd (k.trans (later (mem_flatten_of_followed earlier last)) after) first
    · rw [left] at left'
      cases left'
      have absent : a ∉ k.page limit entries cursor := fun here =>
        not_precedes_of_mem_page sorted left here next
      cases kept : k.admits (k.past b) a with
      | true => simpa [absent] using ih (fun n => same (n + 1)) kept
      | false =>
        have gone : a ∉ rest.flatten := fun mem => by
          rw [others.admits mem] at kept
          contradiction
        simp [absent, gone, next]
end

section
variable (positive : 0 < limit)
  (whole : ∀ {a b : α}, k.Precedes a b → k.admits (k.past a) b = true)
include positive whole

/-- If cursors turn nothing away then an entry that is listed each time comes on some page, though
it may look different each time. -/
theorem exists_mem_of_stays (cut : k.Pages limit listing cursor pages)
    (sorted : ∀ n, (listing n).Pairwise k.Precedes) {P : α → Prop}
    (alike : ∀ cursor a b, P a → P b → k.admits cursor a = k.admits cursor b)
    (stays : ∀ n < pages.length, ∃ a ∈ listing n, P a)
    (admitted : ∀ a, P a → k.admits cursor a = true) : ∃ a ∈ pages.flatten, P a := by
  induction cut with
  | last done =>
    obtain ⟨a, stored, own⟩ := stays 0 (by simp)
    rcases mem_page_or_precedes (sorted 0) positive stored (admitted a own) with here | ⟨b, left, -⟩
    · exact ⟨a, by simpa using here, own⟩
    · rw [left] at done
      contradiction
  | more left others ih =>
    obtain ⟨a, stored, own⟩ := stays 0 (by simp)
    rcases mem_page_or_precedes (sorted 0) positive stored (admitted a own) with
      here | ⟨b, left', next⟩
    · exact ⟨a, by simp [here], own⟩
    · rw [left] at left'
      cases left'
      obtain ⟨x, mem, own⟩ := ih (fun n => sorted (n + 1))
        (fun n less => stays (n + 1) (Nat.succ_lt_succ less))
        (fun x mine => (alike _ x a mine own).trans (whole next))
      exact ⟨x, by simp [mem], own⟩

/-- If cursors turn nothing away then the pages of a listing that stays the same are the listing,
cut into full pages and a last one that is not full. -/
theorem flatten_eq (cut : k.Pages limit listing cursor pages) {entries : List α}
    (same : ∀ n, listing n = entries) (sorted : entries.Pairwise k.Precedes) :
    pages.flatten = entries.filter (k.admits cursor) ∧
      pages.length = (entries.filter (k.admits cursor)).length / limit + 1 := by
  induction cut with
  | @last listing cursor done =>
    rw [same 0] at done ⊢
    have short := Page.length_lt_of_last? positive done
    rw [page, List.length_take] at short
    have less : (entries.filter (k.admits cursor)).length < limit := by omega
    refine ⟨?_, ?_⟩
    · rw [List.flatten_singleton, page, List.take_of_length_le (Nat.le_of_lt less)]
    · rw [Nat.div_eq_of_lt less, List.length_singleton]
  | @more listing cursor b rest left others ih =>
    rw [same 0] at left ⊢
    obtain ⟨flat, count⟩ := ih fun n => same (n + 1)
    have full := (Page.last?_eq_some.mp left).1
    rw [page, List.length_take] at full
    rw [filter_past sorted whole left] at flat count
    refine ⟨?_, ?_⟩
    · rw [List.flatten_cons, flat]
      exact List.take_append_drop limit _
    · rw [List.length_cons, count, List.length_drop, ← Nat.div_eq_sub_div positive (by omega)]
end

end Pages

end Keyset

/-! The listings of a store -/

namespace Record

variable {a b c : Record}

theorem Precedes.irrefl (a : Record) : ¬ a.Precedes a := by
  rintro (less | ⟨-, less⟩)
  · exact Instant.lt_irrefl _ less
  · exact Nat.lt_irrefl _ less

theorem Precedes.trans (first : a.Precedes b) (second : b.Precedes c) : a.Precedes c := by
  rcases first with ab | ⟨same, ab⟩ <;> rcases second with bc | ⟨same', bc⟩
  · exact .inl (Instant.lt_trans bc ab)
  · exact .inl (same' ▸ ab)
  · exact .inl (same ▸ bc)
  · exact .inr ⟨same.trans same', Nat.lt_trans bc ab⟩

end Record

theorem RecordCursor.admits_iff {t : Instant} {i : Id} {r : Record} :
    RecordCursor.admits ⟨some t, some i⟩ r = true ↔ r.operation.time < t ∧ r.id < i := by
  simp [RecordCursor.admits]

theorem ProjectCursor.admits_iff {i : Id} {p : Project} :
    ProjectCursor.admits ⟨some i⟩ p = true ↔ p.id < i := by
  simp [ProjectCursor.admits]

/-- Records by descending operation time and identifier. A cursor admits fewer than come after it.
-/
def Keyset.records : Keyset Record RecordCursor where
  start := .start
  past := fun r => ⟨some r.operation.time, some r.id⟩
  admits := RecordCursor.admits
  Precedes := Record.Precedes
  number := fun r => r.id.number
  admits_start := fun _ => rfl
  precedes_of_admits := fun admitted => .inl (RecordCursor.admits_iff.mp admitted).1
  number_lt := fun admitted => (RecordCursor.admits_iff.mp admitted).2
  admits_of_admits := by
    rintro ⟨t, i⟩ a b first second
    obtain ⟨time, id⟩ := RecordCursor.admits_iff.mp second
    have earlier : ∀ u, a.operation.time < u → b.operation.time < u := fun _ => Instant.lt_trans time
    have smaller : ∀ j, a.id < j → b.id < j := fun _ => Nat.lt_trans id
    cases t <;> cases i <;> simp_all [RecordCursor.admits]
  irrefl := Record.Precedes.irrefl
  trans := Record.Precedes.trans

/-- Projects by descending identifier. A cursor admits all that come after it. -/
def Keyset.projects : Keyset Project ProjectCursor where
  start := .start
  past := fun p => ⟨some p.id⟩
  admits := ProjectCursor.admits
  Precedes := Project.Precedes
  number := fun p => p.id.number
  admits_start := fun _ => rfl
  precedes_of_admits := ProjectCursor.admits_iff.mp
  number_lt := ProjectCursor.admits_iff.mp
  admits_of_admits := by
    rintro ⟨_ | i⟩ a b first second
    · rfl
    · rw [ProjectCursor.admits_iff] at *
      exact Nat.lt_trans second first
  irrefl := fun p => Nat.lt_irrefl p.id.number
  trans := fun first second => Nat.lt_trans second first

end AuditTrail
