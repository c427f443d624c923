import AuditTrail.Proofs.Embedded.Conditions
import AuditTrail.Proofs.Embedded.Fidelity

/-! Listings are queries: a page of records is the front of the project's records in listing order,
once those that the filter or the cursor turns away have been left out, and each of them is the
record that is read alone. -/
namespace AuditTrail.Embedded

/-- The records of a project in listing order, each as it is read alone. -/
structure Session.HoldsRecords (s : Session) (p : Id) (all : List Record) : Prop where
  sorted : all.Pairwise Record.Precedes
  complete : ∀ i, s.content.hasRecord p i = true ↔ ∃ r ∈ all, r.id = i
  read : ∀ r ∈ all, s.reply (.getRecord p r.id) = .ok (.record r)

theorem mapM_readRow {α : Type} {read : Reader α} {view : Row → α} {page : List Row}
    (each : ∀ row ∈ page, read row = .ok (view row)) :
    (page.map (Except.ok (ε := Fault))).mapM (Work.readRow read) = .ok (page.map view) := by
  rw [List.mapM_map]
  exact mapM_eq_ok_map each

namespace Content

variable {c : Content} {p : Id}

/-- The rows of a project's records in listing order. -/
def listed (c : Content) (p : Id) : List Row :=
  (arrange [⟨.operationTime, true⟩, ⟨.id, true⟩] c.records).filter (Row.isOf p)

theorem mem_listed {row : Row} : row ∈ c.listed p ↔ row ∈ c.records ∧ row.isOf p = true := by
  rw [listed, List.mem_filter, (arrange_perm _ c.records).mem_iff]

/-- What the rows of a project hold. -/
def Views (c : Content) (p : Id) (view : Row → Record) : Prop :=
  ∀ row ∈ c.listed p, (view row).project = p ∧ c.Shows row (view row)

theorem Valued.exists_view (valued : c.Valued) (dated : ∀ row ∈ c.records, row.isOf p = true →
    row.Dated [.createTime, .operationTime]) : ∃ view, c.Views p view := by
  have each : ∀ row ∈ c.listed p, ∃ r : Record, r.project = p ∧ c.Shows row r := by
    intro row mem
    obtain ⟨stored, own⟩ := mem_listed.mp mem
    obtain ⟨r, stores⟩ := valued.records row stored
    obtain ⟨r', project, shows⟩ := stores.shows (dated row stored own)
    refine ⟨r', ?_, shows⟩
    exact Row.isOf_unique (Row.isOf_of_isRecord shows.stores.isRecord) own
  choose! view project shows using each
  exact ⟨view, fun row mem => ⟨project row mem, shows row mem⟩⟩

variable {view : Row → Record}

theorem Keyed.pairwise_arrange (keyed : c.Keyed) (t : Table) (order : List SortKey) :
    (arrange order (c.rows t)).Pairwise fun a b => Row.agree (keyOf t) a b = false := by
  refine ((arrange_perm order (c.rows t)).pairwise_iff fun {a b} apart => ?_).mpr (keyed t)
  rwa [Row.agree_comm]

theorem Views.distinct (views : c.Views p view) (keyed : c.Keyed) :
    (c.listed p).Pairwise fun a b => (view a).id ≠ (view b).id := by
  have apart : (c.listed p).Pairwise fun a b => Row.agree (keyOf .records) a b = false :=
    (keyed.pairwise_arrange .records _).filter (Row.isOf p)
  refine apart.imp_of_mem fun {a b} aMem bMem apart same => ?_
  obtain ⟨aProject, aShows⟩ := views a aMem
  obtain ⟨bProject, bShows⟩ := views b bMem
  have own := aShows.stores.isRecord
  have own' := bShows.stores.isRecord
  simp only [Row.isRecord, Row.isOf, Bool.and_eq_true, decide_eq_true_eq] at own own'
  rw [← Bool.not_eq_true, Row.agree_iff] at apart
  refine apart fun column mem => ?_
  simp only [keyOf, List.mem_cons, List.not_mem_nil, or_false] at mem
  rcases mem with rfl | rfl
  · rw [own.1, own'.1, aProject, bProject]
  · rw [own.2, own'.2, same]

/-- Texts of identifiers come in the order of the identifiers. -/
theorem id_lt_of_not_precedes {a b : Row} {i j : Id} (ha : a.get .id = .text i.text)
    (hb : b.get .id = .text j.text) (later : precedes [⟨.id, true⟩] b a = false) (distinct : i ≠ j) :
    j < i := by
  have ids : i.text ≠ j.text := fun same => distinct (Id.text_injective same)
  have numbers : i.number ≠ j.number := fun same => distinct (Id.ext_number same)
  simp only [precedes, ha, hb, Cell.text.injEq, if_neg ids.symm, if_true, Cell.before,
    decide_eq_false_iff_not, Id.text_lt_text] at later
  exact Nat.lt_of_le_of_ne (Nat.not_lt.mp later) numbers.symm

/-- Rows that come in listing order hold records that do. -/
theorem precedes_of_not_precedes {a b : Row} {r x : Record} (ha : c.Shows a r) (hb : c.Shows b x)
    (later : precedes [⟨.operationTime, true⟩, ⟨.id, true⟩] b a = false) (distinct : r.id ≠ x.id) :
    r.Precedes x := by
  rw [precedes] at later
  simp only [ha.operationTime, hb.operationTime, Cell.text.injEq, if_true, Cell.before] at later
  split at later
  · next same =>
    rw [Instant.sortable_inj hb.operated ha.operated] at same
    exact .inr ⟨same.symm, id_lt_of_not_precedes ha.stores.id hb.stores.id later distinct⟩
  · next other =>
    rw [decide_eq_false_iff_not, Instant.sortable_lt_sortable ha.operated hb.operated] at later
    rw [Instant.sortable_inj hb.operated ha.operated] at other
    refine .inl ?_
    by_contra notLess
    exact other (Instant.eq_of_not_lt notLess later)

theorem Views.sorted (views : c.Views p view) (keyed : c.Keyed) :
    ((c.listed p).map view).Pairwise Record.Precedes := by
  have arranged := (arrange_pairwise [⟨.operationTime, true⟩, ⟨.id, true⟩] c.records).filter
    (Row.isOf p)
  refine List.pairwise_map.mpr ?_
  refine (arranged.and (views.distinct keyed)).imp_of_mem fun {a b} aMem bMem ⟨later, distinct⟩ => ?_
  exact precedes_of_not_precedes (views a aMem).2 (views b bMem).2 later distinct

theorem Shows.entry {row : Row} {r : Record} (shows : c.Shows row r) (keyed : c.Keyed)
    (stored : row ∈ c.records) : c.entry r.project r.id
      = (some row, changeRows r.project r.id 0 r.resource.changes) := by
  have own := shows.stores.isRecord
  obtain ⟨row', found⟩ := Option.isSome_iff_exists.mp (List.find?_isSome.mpr ⟨row, stored, own⟩)
  have same := keyed.eq_of_isRecord (List.mem_of_find?_eq_some found) stored
    (List.find?_some found) own
  exact Prod.ext (same ▸ found) shows.stores.changes

/-- A row that shows a record is read as the record without its changes. -/
theorem Shows.read {row : Row} {r : Record} (shows : c.Shows row r) :
    Reader.record row = .ok (r.withChanges []) :=
  Reader.record_of_keeps shows.stores.kept shows.created shows.operated

/-- The records of a page get the changes that are stored with them. -/
theorem Views.attach (views : c.Views p view) (keyed : c.Keyed) {page : List Row}
    (part : page.Sublist (c.listed p)) : ∃ found,
    c.readChanges p (page.map fun row => (view row).id) = .ok found ∧
      Record.attach found (page.map fun row => (view row).withChanges []) = page.map view := by
  have entry : ∀ row ∈ page, (c.entry p (view row).id).2
      = changeRows p (view row).id 0 (view row).resource.changes := by
    intro row mem
    obtain ⟨project, shows⟩ := views row (part.subset mem)
    rw [← project]
    exact shows.stores.changes
  obtain ⟨found, fetched, told⟩ := readChanges_entry keyed p
    (page.map fun row => (view row).id) (by
      intro i mem
      obtain ⟨row, listed, rfl⟩ := List.mem_map.mp mem
      exact ⟨_, entry row listed⟩)
  have distinct : ((page.map fun row => (view row).withChanges []).map (·.id)).Nodup := by
    rw [List.map_map]
    exact List.pairwise_map.mpr ((views.distinct keyed).sublist part)
  refine ⟨found, fetched, ?_⟩
  rw [Record.attach_eq_map distinct, List.map_map]
  refine List.map_congr_left fun row mem => ?_
  have own := told _ (List.mem_map_of_mem mem) _ (entry row mem)
  exact congrArg (view row).withChanges own

section
variable {f : RecordFilter} {key : Option (Instant × Id)} {cursor : RecordCursor}

/-- Rows of other projects are passed over, so that only a project's own rows have to be judged. -/
theorem chosen_records_of {pick : Row → Bool} (judged : ∀ row ∈ c.listed p,
    choose (.ofProject p :: Selection.filtering f ++ Selection.after key) row
      = if pick row then some (.ok row) else none) (limit : Nat) :
    chosen (.records p f limit key) c.records
      = (((c.listed p).filter pick).take limit).map .ok := by
  have others : ∀ row : Row, row.isOf p = false →
      choose (.ofProject p :: Selection.filtering f ++ Selection.after key) row = none :=
    fun _ => choose_other
  have own := filterMap_filter_of_owned others
    (arrange [⟨.operationTime, true⟩, ⟨.id, true⟩] c.records)
  have picked := filterMap_choose_of judged
  rw [List.map_take, ← picked]
  exact congrArg (List.take limit) own.symm

/-- The engine refuses to look for too many labels and conditions, whatever is stored. -/
theorem listRecords_refused (present : c.hasProject p = true) (complete : cursor.keyset = .ok key)
    (many : termLimit < f.terms + cursor.terms) (limit : Nat) :
    c.listRecords p f limit cursor = .error (Fault.tooDeep.error "Failed to prepare query") := by
  have refused := (fits_records_iff p f limit key complete).not.mpr (Nat.not_le.mpr many)
  simp only [Content.listRecords, complete, requireProject, present, if_true, preparing, refused, if_false,
    bind, Except.bind]

theorem reply_listRecords_refused (present : c.hasProject p = true) (complete : cursor.keyset = .ok key)
    (many : termLimit < f.terms + cursor.terms) (limit : Nat) :
    c.reply (.listRecords p f limit cursor) = .error (Fault.tooDeep.error "Failed to prepare query") := by
  simp only [Content.reply, Content.handle, listRecords_refused present complete many limit]
  rfl

/-- A page of records is the front of those that are picked, if rows are judged by their records. -/
theorem Views.listRecords_of (views : c.Views p view) (keyed : c.Keyed)
    (present : c.hasProject p = true) (complete : cursor.keyset = .ok key)
    (fits : f.terms + cursor.terms ≤ termLimit) {pick : Record → Bool}
    (judged : ∀ row ∈ c.listed p,
      choose (.ofProject p :: Selection.filtering f ++ Selection.after key) row
        = if pick (view row) then some (.ok row) else none) (limit : Nat) :
    c.listRecords p f limit cursor = .ok ((((c.listed p).map view).filter pick).take limit) := by
  have rows := chosen_records_of judged limit
  have query : (((c.listed p).map view).filter pick).take limit
      = (((c.listed p).filter fun row => pick (view row)).take limit).map view := by
    rw [List.filter_map, ← List.map_take]
    rfl
  generalize shown : ((c.listed p).filter fun row => pick (view row)).take limit = page at rows query
  have part : page.Sublist (c.listed p) :=
    shown ▸ (List.take_sublist _ _).trans List.filter_sublist
  have read := mapM_readRow fun row mem => (views row (part.subset mem)).2.read
  have ids : (page.map fun row => (view row).withChanges []).map (·.id)
      = page.map fun row => (view row).id := List.map_map
  obtain ⟨found, fetched, attached⟩ := views.attach keyed part
  have taken := (fits_records_iff p f limit key complete).mpr fits
  rw [query]
  simp only [Content.listRecords, complete, requireProject, present, preparing, taken, if_true, rows, read,
    reading, Except.mapError, ids, fetched, attached, bind, Except.bind]
  rfl

/-- A page of records is the front of those that the filter and the cursor admit. -/
theorem Views.listRecords (first : ∀ t ∈ f.timeFrom, t.Ordinary) (last : ∀ t ∈ f.timeTo, t.Ordinary)
    (dated : ∀ t ∈ cursor.lastTime, t.Ordinary) (views : c.Views p view) (keyed : c.Keyed)
    (present : c.hasProject p = true) (limit : Nat) (complete : cursor.isComplete = true)
    (fits : f.terms + cursor.terms ≤ termLimit) :
    c.listRecords p f limit cursor = .ok ((((c.listed p).map view).filter fun r =>
      f.admits r && cursor.admits r).take limit) := by
  obtain ⟨key, keyset⟩ := RecordCursor.keyset_of_complete complete
  refine views.listRecords_of keyed present keyset fits (fun row mem => ?_) limit
  obtain ⟨project, shows⟩ := views row mem
  rw [← shows.choose first last keyset dated, project]
end

end Content

section
variable {s : Session} {p : Id} {view : Row → Record}

/-- What the rows of a project hold are its records, in listing order. -/
theorem Reachable.holdsRecords (reached : Reachable s) (views : s.content.Views p view) :
    s.HoldsRecords p ((s.content.listed p).map view) := by
  have sound := reached.sound
  refine ⟨views.sorted sound.keyed, fun i => ⟨fun stored => ?_, ?_⟩, fun r mem => ?_⟩
  · obtain ⟨row, mem, own⟩ := List.any_eq_true.mp stored
    have listed := Content.mem_listed.mpr ⟨mem, Row.isOf_of_isRecord own⟩
    refine ⟨view row, List.mem_map_of_mem listed, ?_⟩
    exact (Row.isRecord_unique (views row listed).2.stores.isRecord own).2
  · rintro ⟨r, mem, rfl⟩
    obtain ⟨row, listed, rfl⟩ := List.mem_map.mp mem
    obtain ⟨project, shows⟩ := views row listed
    have own := shows.stores.isRecord
    rw [project] at own
    exact List.any_eq_true.mpr ⟨row, (Content.mem_listed.mp listed).1, own⟩
  · obtain ⟨row, listed, rfl⟩ := List.mem_map.mp mem
    obtain ⟨project, shows⟩ := views row listed
    have entry := shows.entry sound.keyed (Content.mem_listed.mp listed).1
    rw [project] at entry
    have read := Content.reply_getRecord sound entry shows.read
    rw [reached.serves.reply]
    exact read

theorem Reachable.reply_listRecords (reached : Reachable s) (views : s.content.Views p view)
    (present : s.content.hasProject p = true) {f : RecordFilter} {cursor : RecordCursor}
    (first : ∀ t ∈ f.timeFrom, t.Ordinary) (last : ∀ t ∈ f.timeTo, t.Ordinary)
    (dated : ∀ t ∈ cursor.lastTime, t.Ordinary) (complete : cursor.isComplete = true)
    (fits : f.terms + cursor.terms ≤ termLimit) (limit : Nat) :
    s.reply (.listRecords p f limit cursor) = .ok (.records ((((s.content.listed p).map view).filter
      fun r => f.admits r && cursor.admits r).take limit)) := by
  have page := views.listRecords first last dated reached.sound.keyed present limit complete fits
  rw [reached.serves.reply]
  simp only [Content.reply, Content.handle, page]
  rfl
end

/-- The records of a project can be listed and read one by one once their times can be read, and
every page that does not ask for too much is a part of that one list. -/
theorem list_records_is_query {s : Session} (reached : Reachable s) {p : Id}
    (present : s.content.hasProject p = true)
    (dated : ∀ row ∈ s.content.records, row.isOf p = true →
      row.Dated [.createTime, .operationTime]) :
    ∃ all, s.HoldsRecords p all ∧ ∀ (f : RecordFilter) (limit : Nat) (cursor : RecordCursor),
      (∀ t ∈ f.timeFrom, t.Ordinary) → (∀ t ∈ f.timeTo, t.Ordinary) →
      (∀ t ∈ cursor.lastTime, t.Ordinary) → cursor.isComplete = true →
      f.terms + cursor.terms ≤ termLimit →
        s.reply (.listRecords p f limit cursor) = .ok (.records
          ((all.filter fun r => f.admits r && cursor.admits r).take limit)) := by
  obtain ⟨view, views⟩ := reached.valued.exists_view dated
  refine ⟨_, reached.holdsRecords views, ?_⟩
  intro f limit cursor first last after complete fits
  exact reached.reply_listRecords views present first last after complete fits limit

/-- A label with an empty value is asked for, and so is a kind of resource that is left empty. -/
theorem list_records_is_query_labelled :
    let r : Record := { (default : Record) with labels := .ofList [("key", "")] }
    let late : Record := { r with
      id := .ofNat 1
      operation := { r.operation with time := ⟨59, 1000000000⟩ } }
    let s := ((Session.opened .default).after (.createProject default)).after
      (.createRecords [r, { r with id := .ofNat 2, labels := .empty }, late])
    let filter : RecordFilter := { (default : RecordFilter) with
      labels := .ofList [("key", "")]
      resourceKind := some ""
      timeTo := some ⟨60, 0⟩ }
    (s.content.hasProject default = true ∧ ∀ row ∈ s.content.records, row.isOf default = true →
      row.Dated [.createTime, .operationTime]) ∧
    ∃ all, s.HoldsRecords default all ∧
      s.reply (.listRecords default filter 1 .start) = .ok (.records
        ((all.filter fun r => filter.admits r && RecordCursor.start.admits r).take 1)) := by
  intro r late s filter
  have reached : Reachable s :=
    .answered _ (.answered _ (.opened true (openStore_empty .default)))
  have present : s.content.hasProject default = true := by decide +kernel
  have dated : ∀ row ∈ s.content.records, row.isOf default = true →
      row.Dated [.createTime, .operationTime] :=
    Content.dated_of_batch default r.createTime
      [r, { r with id := .ofNat 2, labels := .empty }, late]
      (by decide +kernel) (by decide +kernel) (by decide +kernel)
  obtain ⟨all, holds, query⟩ := list_records_is_query reached present dated
  exact ⟨⟨present, dated⟩, all, holds,
    query filter 1 .start (by decide) (by decide +kernel) (by decide) rfl (by decide +kernel)⟩

end AuditTrail.Embedded
