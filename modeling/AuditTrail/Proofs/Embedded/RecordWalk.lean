import AuditTrail.Proofs.Embedded.Listing
import AuditTrail.Proofs.Embedded.Walk

/-! Walks through the records of a project. The cursor at the end of a page asks for a smaller time
and for a smaller identifier, although records are listed by time first. A walk therefore repeats
nothing, and it loses those records that come later but have the same time or a greater identifier.
-/
namespace AuditTrail

/-- Whether the cursor at the end of a page that was followed by another one skips a record: it
comes after the last record of the page, but not with a smaller time and a smaller identifier. -/
def Record.SkippedBy (r : Record) (pages : List (List Record)) : Prop :=
  ∃ page ∈ pages.dropLast, ∃ b, page.getLast? = some b ∧ b.Precedes r ∧
    (r.operation.time = b.operation.time ∨ b.id < r.id)

theorem Record.not_admits_iff {b r : Record} (after : b.Precedes r) (distinct : b.id ≠ r.id) :
    Keyset.records.admits (Keyset.records.past b) r = false ↔
      r.operation.time = b.operation.time ∨ b.id < r.id := by
  have numbers : b.id.number ≠ r.id.number := fun same => distinct (Id.ext_number same)
  have ids : ¬ r.id < b.id ↔ b.id < r.id :=
    ⟨fun not => Nat.lt_of_le_of_ne (Nat.not_lt.mp not) numbers, fun less => Nat.lt_asymm less⟩
  rw [← Bool.not_eq_true]
  refine (not_congr RecordCursor.admits_iff).trans ?_
  rcases after with earlier | ⟨same, -⟩
  · have other : r.operation.time ≠ b.operation.time := fun same =>
      Instant.lt_irrefl _ (same ▸ earlier)
    simp [earlier, other, ids]
  · simp [same, Instant.lt_irrefl]

namespace Embedded

variable {s : Session} {p : Id} {view : Row → Record} {all : List Record} {f : RecordFilter}

theorem Session.HoldsRecords.eq_of_id (holds : s.HoldsRecords p all) {r x : Record} (rMem : r ∈ all)
    (xMem : x ∈ all) (same : r.id = x.id) : r = x := by
  have read := holds.read r rMem
  rw [same, holds.read x xMem] at read
  exact (Answer.record.inj (Except.ok.inj read)).symm

theorem Session.HoldsRecords.id_ne (holds : s.HoldsRecords p all) {r x : Record} (rMem : r ∈ all)
    (xMem : x ∈ all) (later : r.Precedes x) : r.id ≠ x.id := fun same =>
  Record.Precedes.irrefl r (by rwa [← holds.eq_of_id rMem xMem same] at later)

theorem Reachable.lists_records (reached : Reachable s) (views : s.content.Views p view)
    (present : s.content.hasProject p = true) (first : ∀ t ∈ f.timeFrom, t.Ordinary)
    (last : ∀ t ∈ f.timeTo, t.Ordinary) (limit : Nat) :
    (recordPaging p f limit).Lists .records limit Legible (fun cursor => f.terms + cursor.terms ≤ termLimit)
      s.content (((s.content.listed p).map view).filter f.admits) where
  reply := fun cursor legible fits => by
    have page := reached.reply_listRecords views present first last legible.dated legible.complete
      fits limit
    have swap : ∀ r, (f.admits r && cursor.admits r) = (cursor.admits r && f.admits r) :=
      fun r => Bool.and_comm _ _
    simp only [reached.serves.reply, swap] at page
    rw [Keyset.page, List.filter_filter]
    exact page
  refused := fun cursor legible many => by
    obtain ⟨key, keyset⟩ := RecordCursor.keyset_of_complete legible.complete
    exact ⟨_, Content.reply_listRecords_refused present keyset (Nat.not_le.mp many) limit⟩
  sound := fun b mem => by
    obtain ⟨row, listed, rfl⟩ := List.mem_map.mp (List.mem_filter.mp mem).1
    have operated := (views row listed).2.operated
    exact ⟨rfl, fun t same => Option.some.inj same ▸ operated⟩

/-! Pages of the records that match a filter -/

section
variable {limit : Nat} {pages : List (List Record)} (holds : s.HoldsRecords p all)
  (cut : Keyset.records.Pages limit (fun _ => all.filter f.admits) .start pages)

include cut in
theorem matching_of_mem_pages {r : Record} (mem : r ∈ pages.flatten) :
    r ∈ all ∧ f.admits r = true := by
  obtain ⟨_, listed⟩ := cut.listed mem
  exact List.mem_filter.mp listed

include holds cut

theorem pairwise_pages : pages.flatten.Pairwise Record.Precedes :=
  cut.pairwise fun _ => holds.sorted.filter f.admits

theorem nodup_ids_of_pages : (pages.flatten.map (·.id)).Nodup := by
  have sorted := pairwise_pages holds cut
  refine List.pairwise_map.mpr (sorted.imp_of_mem fun {a b} aMem bMem later => ?_)
  exact holds.id_ne (matching_of_mem_pages cut aMem).1 (matching_of_mem_pages cut bMem).1 later

theorem not_mem_pages_iff (positive : 0 < limit) {r : Record} (stored : r ∈ all)
    (matching : f.admits r = true) : r ∉ pages.flatten ↔ r.SkippedBy pages := by
  refine (cut.not_mem_iff (holds.sorted.filter f.admits) positive (fun _ => rfl)
    (List.mem_filter.mpr ⟨stored, matching⟩) rfl).trans ?_
  refine exists_congr fun page => and_congr_right fun followed => exists_congr fun b =>
    and_congr_right fun ends => and_congr_right fun after => ?_
  have mem := Keyset.mem_flatten_of_followed followed ends
  exact Record.not_admits_iff after (holds.id_ne (matching_of_mem_pages cut mem).1 stored after)

/-- A record that is skipped has an identifier out of line with its time. -/
theorem mem_pages_of_ordered (positive : 0 < limit)
    (ordered : ∀ a ∈ all, ∀ b ∈ all, f.admits a = true → f.admits b = true → a.id < b.id →
      a.operation.time < b.operation.time) {r : Record} (stored : r ∈ all)
    (matching : f.admits r = true) : r ∈ pages.flatten := by
  by_contra missing
  obtain ⟨page, followed, b, ends, after, skipped⟩ :=
    (not_mem_pages_iff holds cut positive stored matching).mp missing
  have mem := Keyset.mem_flatten_of_followed followed ends
  obtain ⟨bStored, bMatching⟩ := matching_of_mem_pages cut mem
  have ids : ¬ b.id < r.id := fun less =>
    have later := ordered b bStored r stored bMatching matching less
    Record.Precedes.irrefl b (after.trans (.inl later))
  have same := skipped.resolve_right ids
  rcases after with less | ⟨-, less⟩
  · exact Instant.lt_irrefl _ (same ▸ less)
  · have before := ordered r stored b bStored matching bMatching less
    exact Instant.lt_irrefl _ (same ▸ before)
end

/-- A walk through the records of a project that match a filter ends, unless the engine refuses one of its
pages: the first, or one that follows and has a cursor besides the filter. The pages put together are in
listing order. What is missing has been skipped by a cursor, so nothing is missing where smaller
identifiers come with smaller times. -/
theorem record_walk_loses_what_cursors_skip (reached : Reachable s)
    (present : s.content.hasProject p = true)
    (dated : ∀ row ∈ s.content.records, row.isOf p = true →
      row.Dated [.createTime, .operationTime])
    (first : ∀ t ∈ f.timeFrom, t.Ordinary) (last : ∀ t ∈ f.timeTo, t.Ordinary) {limit : Nat}
    (positive : 0 < limit) :
    ∃ all, s.HoldsRecords p all ∧
      ((∃ visits, (recordPaging p f limit).Walk (fun _ => []) s "" visits) ↔
        f.terms ≤ termLimit ∧ (f.terms + 2 ≤ termLimit ∨ (all.filter f.admits).length < limit)) ∧
      (∀ cursor : RecordCursor, cursor.isComplete = true → termLimit < f.terms + cursor.terms →
        s.reply (.listRecords p f limit cursor)
          = .error (Fault.tooDeep.error "Failed to prepare query")) ∧
      ∀ visits, (recordPaging p f limit).Walk (fun _ => []) s "" visits →
        let pages := visits.map (·.2)
        pages.flatten.Pairwise Record.Precedes ∧ (pages.flatten.map (·.id)).Nodup ∧
        (∀ r ∈ pages.flatten, r ∈ all ∧ f.admits r = true) ∧
        (∀ r ∈ all, f.admits r = true → (r ∉ pages.flatten ↔ r.SkippedBy pages)) ∧
        ((∀ a ∈ all, ∀ b ∈ all, f.admits a = true → f.admits b = true → a.id < b.id →
            a.operation.time < b.operation.time) →
          ∀ r ∈ all, f.admits r = true → r ∈ pages.flatten) := by
  obtain ⟨view, views⟩ := reached.valued.exists_view dated
  have holds := reached.holdsRecords views
  have lists := reached.lists_records views present first last limit
  have follows := recordPaging_follows p f limit
  have start : Legible .start := ⟨rfl, fun _ none => by contradiction⟩
  refine ⟨_, holds, ⟨?_, ?_⟩, fun cursor complete many => ?_, fun visits walk => ?_⟩
  · rintro ⟨visits, walk⟩
    obtain ⟨granted, next⟩ :=
      walk.granted_pages follows (fun _ => lists) (fun _ => rfl) reached.serves rfl start
    refine ⟨granted, ?_⟩
    cases ends : Page.last? (Keyset.records.page limit _ .start) limit with
    | some b => exact .inl (next b ends)
    | none => exact .inr ((Keyset.last?_first_page positive).mp ends)
  · rintro ⟨granted, more⟩
    obtain ⟨pages, cut⟩ := Keyset.records.exists_pages limit (fun _ => _) .start
    refine Paging.exists_walk follows (fun _ => lists) (fun _ => rfl) reached.serves rfl start cut granted
      fun several _ b _ => more.resolve_right fun short => ?_
    obtain ⟨b, left⟩ := cut.exists_last several
    exact Option.some_ne_none b (left.symm.trans ((Keyset.last?_first_page positive).mpr short))
  · obtain ⟨key, keyset⟩ := RecordCursor.keyset_of_complete complete
    rw [reached.serves.reply]
    exact Content.reply_listRecords_refused present keyset many limit
  · obtain ⟨cut, -⟩ := walk.pages follows (fun _ => lists) (fun _ => rfl) reached.serves rfl start
    exact ⟨pairwise_pages holds cut, nodup_ids_of_pages holds cut,
      fun r mem => matching_of_mem_pages cut mem,
      fun r stored matching => not_mem_pages_iff holds cut positive stored matching,
      fun ordered r stored matching =>
        mem_pages_of_ordered holds cut positive ordered stored matching⟩

/-- The second of two records of one time and a record with a greater identifier are skipped. -/
theorem record_walk_loses_what_cursors_skip_ties :
    let r : Record := default
    let late : Record := { r with
      id := .ofNat 2
      operation := { r.operation with time := ⟨9, 0⟩ } }
    let s := ((Session.opened .default).after (.createProject default)).after
      (.createRecords [r, late, { late with id := .ofNat 1 }, { r with id := .ofNat 3 }])
    (s.content.hasProject default = true ∧ (∀ row ∈ s.content.records, row.isOf default = true →
      row.Dated [.createTime, .operationTime]) ∧ 0 < 1) ∧
    ∃ all, s.HoldsRecords default all ∧
      ∃ visits, (recordPaging default default 1).Walk (fun _ => []) s "" visits ∧
        (visits.map (·.2)).flatten.Pairwise Record.Precedes ∧
        ∀ x ∈ all, RecordFilter.admits default x = true →
          (x ∉ (visits.map (·.2)).flatten ↔ x.SkippedBy (visits.map (·.2))) := by
  intro r late s
  have reached : Reachable s :=
    .answered _ (.answered _ (.opened true (openStore_empty .default)))
  have present : s.content.hasProject default = true := by decide +kernel
  have dated : ∀ row ∈ s.content.records, row.isOf default = true →
      row.Dated [.createTime, .operationTime] :=
    Content.dated_of_batch default r.createTime
      [r, late, { late with id := .ofNat 1 }, { r with id := .ofNat 3 }]
      (by decide +kernel) (by decide +kernel) (by decide +kernel)
  obtain ⟨all, holds, ends, -, whole⟩ := record_walk_loses_what_cursors_skip reached present
    dated (f := default) (by decide) (by decide) Nat.one_pos
  obtain ⟨visits, walk⟩ := ends.mpr ⟨by decide, .inl (by decide)⟩
  obtain ⟨sorted, -, -, missing, -⟩ := whole visits walk
  exact ⟨⟨present, dated, Nat.one_pos⟩, all, holds, visits, walk, sorted, missing⟩

/-- A walk for records with 994 labels does not get its first page, though there is nothing to find. -/
theorem record_walk_stops_at_many_labels :
    let f : RecordFilter := { (default : RecordFilter) with labels := numberedLabels 994 (by decide) }
    let s := (Session.opened .default).after (.createProject default)
    (Reachable s ∧ s.content.hasProject default = true ∧ s.content.records = []) ∧
    (f.timeFrom = none ∧ f.timeTo = none) ∧
    s.reply (.listRecords default f 1 .start) = .error (.internal "sqlite"
      "Failed to prepare query: Expression tree is too large (maximum depth 1000)") ∧
    ¬ ∃ visits, (recordPaging default f 1).Walk (fun _ => []) s "" visits := by
  intro f s
  have reached : Reachable s := .answered _ (.opened true (openStore_empty .default))
  have present : s.content.hasProject default = true := by decide +kernel
  have many : termLimit < f.terms + RecordCursor.start.terms := by decide +kernel
  have first : RecordCursor.start.keyset = .ok none := rfl
  have refused := Content.reply_listRecords_refused present first many 1
  rw [← reached.serves.reply] at refused
  refine ⟨⟨reached, present, by decide +kernel⟩, ⟨rfl, rfl⟩, refused, ?_⟩
  rintro ⟨visits, walk⟩
  cases walk with
  | last read answered | more read answered =>
    obtain rfl := Except.ok.inj read
    exact absurd (refused.symm.trans answered) nofun

end Embedded

end AuditTrail
