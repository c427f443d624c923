import AuditTrail.Proofs.Embedded.Atomicity
import AuditTrail.Proofs.Keyset
import AuditTrail.Proofs.Page

/-! Walks through the listings of a store, page by page and token by token. A walk gets the pages
that are cut off the listing by its order, and no token but the last is empty; so a walk exists as
soon as there are such pages and none of them is refused. -/
namespace AuditTrail.Embedded

/-- How a listing is walked through: what is asked at a cursor and what comes back, how a token is
read, and the token that follows a page. -/
structure Paging (α C : Type) where
  ask : C → Request
  answer : List α → Answer
  decode : String → Except Error C
  token : List α → String

/-- Pages of a project's records. -/
def recordPaging (p : Id) (f : RecordFilter) (limit : Nat) : Paging Record RecordCursor where
  ask := .listRecords p f limit
  answer := .records
  decode := RecordCursor.decode
  token := fun page => (RecordCursor.nextPage page limit).encode

/-- Pages of projects. -/
def projectPaging (limit : Nat) : Paging Project ProjectCursor where
  ask := .listProjects limit
  answer := .projects
  decode := ProjectCursor.decode
  token := fun page => (ProjectCursor.nextPage page limit).encode

namespace Paging

variable {α C : Type}

/-- A walk from a token on, with the sessions at which it asks and the pages that it gets there.
After its n-th request come the requests `gaps n` of others. The walk ends with the page after which
the token is empty. -/
inductive Walk (w : Paging α C) :
    (Nat → List Request) → Session → String → List (Session × List α) → Prop
  | last {gaps : Nat → List Request} {s : Session} {token : String} {cursor : C} {page : List α}
      (read : w.decode token = .ok cursor) (answered : s.reply (w.ask cursor) = .ok (w.answer page))
      (done : w.token page = "") : Walk w gaps s token [(s, page)]
  | more {gaps : Nat → List Request} {s : Session} {token : String} {cursor : C} {page : List α}
      {visits : List (Session × List α)}
      (read : w.decode token = .ok cursor) (answered : s.reply (w.ask cursor) = .ok (w.answer page))
      (left : w.token page ≠ "")
      (others : Walk w (fun n => gaps (n + 1)) ((s.after (w.ask cursor)).afterAll (gaps 0))
        (w.token page) visits) : Walk w gaps s token ((s, page) :: visits)

/-- Asking for pages changes nothing, and a token leads to the cursor at the end of its page. -/
structure Follows (w : Paging α C) (k : Keyset α C) (limit : Nat) (sound : C → Prop) : Prop where
  reads : ∀ (c : Content) cursor, c.after (w.ask cursor) = c
  injective : ∀ {page page'}, w.answer page = w.answer page' → page = page'
  done : ∀ {page}, Page.last? page limit = none → w.token page = ""
  left : ∀ {page b}, Page.last? page limit = some b → sound (k.past b) →
    w.token page ≠ "" ∧ w.decode (w.token page) = .ok (k.past b)

/-- Rows that are listed as some entries, at those cursors at which a page is granted. -/
structure Lists (w : Paging α C) (k : Keyset α C) (limit : Nat) (sound granted : C → Prop) (c : Content)
    (entries : List α) : Prop where
  reply : ∀ cursor, sound cursor → granted cursor →
    c.reply (w.ask cursor) = .ok (w.answer (k.page limit entries cursor))
  refused : ∀ cursor, sound cursor → ¬ granted cursor → ∃ e, c.reply (w.ask cursor) = .error e
  sound : ∀ b ∈ entries, sound (k.past b)

variable {w : Paging α C} {k : Keyset α C} {limit : Nat} {sound granted : C → Prop}
  {gaps : Nat → List Request} {contents : Nat → Content} {listing : Nat → List α}
  {s : Session} {token : String} {cursor : C}

/-- The rows at the next request of a walk. -/
theorem Follows.serves_next (follows : w.Follows k limit sound) (serves : s.Serves (contents 0))
    (gap : ∀ n, contents (n + 1) = (gaps n).foldl Content.after (contents n)) (cursor : C) :
    ((s.after (w.ask cursor)).afterAll (gaps 0)).Serves (contents 1) := by
  have next := (serves.after (w.ask cursor)).afterAll (gaps 0)
  rwa [follows.reads, ← gap 0] at next

/-- A page is the last one, or its token leads to a cursor that can be held as well. -/
theorem Follows.token_cases (follows : w.Follows k limit sound) {entries : List α}
    (listed : ∀ b ∈ entries, sound (k.past b)) (cursor : C) :
    (Page.last? (k.page limit entries cursor) limit = none ∧
      w.token (k.page limit entries cursor) = "") ∨
    ∃ b, Page.last? (k.page limit entries cursor) limit = some b ∧ sound (k.past b) ∧
      w.token (k.page limit entries cursor) ≠ "" ∧
      w.decode (w.token (k.page limit entries cursor)) = .ok (k.past b) := by
  cases last : Page.last? (k.page limit entries cursor) limit with
  | none => exact .inl ⟨rfl, follows.done last⟩
  | some b =>
    have held := listed b (Keyset.mem_page (Keyset.mem_page_of_last? last)).1
    exact .inr ⟨b, rfl, held, follows.left last held⟩

/-- What is answered with a page has been granted, and the page is cut off the listing. -/
theorem Lists.answered {c : Content} {entries page : List α}
    (lists : w.Lists k limit sound granted c entries) (follows : w.Follows k limit sound)
    (held : sound cursor) (answered : c.reply (w.ask cursor) = .ok (w.answer page)) :
    granted cursor ∧ page = k.page limit entries cursor := by
  by_cases grant : granted cursor
  · rw [lists.reply cursor held grant] at answered
    exact ⟨grant, (follows.injective (Except.ok.inj answered)).symm⟩
  · obtain ⟨e, refused⟩ := lists.refused cursor held grant
    rw [refused] at answered
    contradiction

section
variable (follows : w.Follows k limit sound)
  (lists : ∀ n, w.Lists k limit sound granted (contents n) (listing n))
  (gap : ∀ n, contents (n + 1) = (gaps n).foldl Content.after (contents n))
  (serves : s.Serves (contents 0)) (read : w.decode token = .ok cursor) (held : sound cursor)
include follows lists gap serves read held

/-- A walk gets the pages of the listings that it meets. -/
theorem Walk.pages {visits : List (Session × List α)} (walk : w.Walk gaps s token visits) :
    k.Pages limit listing cursor (visits.map (·.2)) ∧
      ∀ n v, visits[n]? = some v → v.1.content = contents n := by
  induction walk generalizing contents listing cursor with
  | @last gaps s token cursor' page read' answered done =>
    obtain rfl := Except.ok.inj (read.symm.trans read')
    rw [serves.reply] at answered
    obtain ⟨-, rfl⟩ := (lists 0).answered follows held answered
    rcases follows.token_cases (lists 0).sound cursor with ⟨last, -⟩ | ⟨b, -, -, left, -⟩
    · refine ⟨.last last, fun n v mem => ?_⟩
      cases n with
      | zero =>
        obtain rfl := Option.some.inj mem
        exact serves.content
      | succ n => contradiction
    · exact absurd done left
  | @more gaps s token cursor' page visits read' answered left others ih =>
    obtain rfl := Except.ok.inj (read.symm.trans read')
    rw [serves.reply] at answered
    obtain ⟨-, rfl⟩ := (lists 0).answered follows held answered
    rcases follows.token_cases (lists 0).sound cursor with ⟨-, done⟩ | ⟨b, last, next, -, read⟩
    · exact absurd done left
    · obtain ⟨cut, met⟩ := ih (fun n => lists (n + 1)) (fun n => gap (n + 1))
        (follows.serves_next serves gap cursor) read next
      refine ⟨.more last cut, fun n v mem => ?_⟩
      cases n with
      | zero =>
        obtain rfl := Option.some.inj mem
        exact serves.content
      | succ n => exact met n v mem

/-- There is a walk that gets the pages of the listings that it meets, if all of them are granted. -/
theorem exists_walk {pages : List (List α)} (cut : k.Pages limit listing cursor pages)
    (first : granted cursor) (next : 1 < pages.length → ∀ n, ∀ b ∈ listing n, granted (k.past b)) :
    ∃ visits, w.Walk gaps s token visits := by
  induction cut generalizing contents gaps s token with
  | @last listing cursor done =>
    have answered := (serves.reply (w.ask cursor)).trans ((lists 0).reply cursor held first)
    exact ⟨_, .last read answered (follows.done done)⟩
  | @more listing cursor b rest last others ih =>
    have answered := (serves.reply (w.ask cursor)).trans ((lists 0).reply cursor held first)
    have more : 1 < (k.page limit (listing 0) cursor :: rest).length :=
      Nat.succ_lt_succ (List.length_pos_of_ne_nil others.ne_nil)
    have mem := (Keyset.mem_page (Keyset.mem_page_of_last? last)).1
    obtain ⟨left, read'⟩ := follows.left last ((lists 0).sound b mem)
    obtain ⟨visits, walk⟩ := ih (fun n => lists (n + 1)) (fun n => gap (n + 1))
      (follows.serves_next serves gap cursor) read' ((lists 0).sound b mem) (next more 0 b mem)
      fun _ n => next more (n + 1)
    exact ⟨_, .more read answered left walk⟩

/-- The first page of a walk has been granted, and if it is not the last one, so has the second. -/
theorem Walk.granted_pages {visits : List (Session × List α)} (walk : w.Walk gaps s token visits) :
    granted cursor ∧ ∀ b, Page.last? (k.page limit (listing 0) cursor) limit = some b →
      granted (k.past b) := by
  cases walk with
  | last read' answered done =>
    obtain rfl := Except.ok.inj (read.symm.trans read')
    rw [serves.reply] at answered
    obtain ⟨first, rfl⟩ := (lists 0).answered follows held answered
    refine ⟨first, fun b last => ?_⟩
    have mem := (Keyset.mem_page (Keyset.mem_page_of_last? last)).1
    exact absurd done (follows.left last ((lists 0).sound b mem)).1
  | more read' answered left others =>
    obtain rfl := Except.ok.inj (read.symm.trans read')
    rw [serves.reply] at answered
    obtain ⟨first, rfl⟩ := (lists 0).answered follows held answered
    refine ⟨first, fun b last => ?_⟩
    have mem := (Keyset.mem_page (Keyset.mem_page_of_last? last)).1
    have next := (lists 0).sound b mem
    have serves := follows.serves_next serves gap cursor
    obtain ⟨-, read⟩ := follows.left last next
    cases others with
    | last read' answered | more read' answered =>
      obtain rfl := Except.ok.inj (read.symm.trans read')
      rw [serves.reply] at answered
      exact ((lists 1).answered follows next answered).1
end

end Paging

/-! The listings of a store -/

theorem Content.after_of_reads (c : Content) {r : Request} (reads : r.reads = true) :
    c.after r = c := by
  rcases c.after_cases r with same | ⟨-, step⟩
  · exact same
  · generalize c.after r = d at step
    cases step <;> contradiction

/-- A cursor that can be used and whose token can be read back. -/
structure Legible (cursor : RecordCursor) : Prop where
  complete : cursor.isComplete = true
  dated : ∀ t ∈ cursor.lastTime, t.Ordinary

theorem recordPaging_follows (p : Id) (f : RecordFilter) (limit : Nat) :
    (recordPaging p f limit).Follows .records limit Legible where
  reads := fun c _ => c.after_of_reads rfl
  injective := Answer.records.inj
  done := fun {page} last => by
    simp only [recordPaging, RecordCursor.nextPage, last]
    rfl
  left := fun {page b} last legible => by
    have time := legible.dated b.operation.time rfl
    simp only [recordPaging, RecordCursor.nextPage, last]
    exact ⟨RecordCursor.encode_ne_empty _ b.id,
      RecordCursor.decode_encode time.proper time.isYear b.id⟩

theorem projectPaging_follows (limit : Nat) :
    (projectPaging limit).Follows .projects limit fun _ => True where
  reads := fun c _ => c.after_of_reads rfl
  injective := Answer.projects.inj
  done := fun {page} last => by
    simp only [projectPaging, ProjectCursor.nextPage, last]
    rfl
  left := fun {page b} last _ => by
    simp only [projectPaging, ProjectCursor.nextPage, last, Option.map_some]
    have filled := (ProjectCursor.encode_eq_empty_iff ⟨some b.id⟩).not.mpr (Option.some_ne_none _)
    exact ⟨filled, ProjectCursor.decode_encode ⟨some b.id⟩⟩

end AuditTrail.Embedded
