import AuditTrail.Proofs.Embedded.Immutability
import AuditTrail.Proofs.Embedded.Kept
import AuditTrail.Proofs.Embedded.Order
import AuditTrail.Proofs.Grouping

/-! What is read for a key. A record is put together from its row and from the rows of its changes,
which are fetched for a whole page at once and told apart by the record that they name. -/
namespace AuditTrail.Embedded

namespace Content

variable {c : Content} {p i : Id} {cs : List Change}

/-! The rows of changes -/

theorem exists_of_mem_changeRows {row : Row} : ∀ {n : Nat}, row ∈ changeRows p i n cs →
    ∃ k, n ≤ k ∧ ∃ change ∈ cs, row = changeRow p i k change := by
  induction cs with
  | nil =>
    intro n mem
    contradiction
  | cons change rest ih =>
    intro n mem
    rcases List.mem_cons.mp mem with rfl | mem
    · exact ⟨n, Nat.le_refl n, change, List.mem_cons_self, rfl⟩
    · obtain ⟨k, later, change', known, same⟩ := ih mem
      exact ⟨k, Nat.le_of_succ_le later, change', List.mem_cons_of_mem _ known, same⟩

theorem pairwise_changeRows (p i : Id) (cs : List Change) : ∀ n, (changeRows p i n cs).Pairwise
    fun a b => precedes [⟨.position, false⟩] b a = false := by
  induction cs with
  | nil => exact fun _ => .nil
  | cons change rest ih =>
    intro n
    refine List.pairwise_cons.mpr ⟨fun row mem => ?_, ih (n + 1)⟩
    obtain ⟨k, later, change', -, rfl⟩ := exists_of_mem_changeRows mem
    have less : (n : Int) < k := by omega
    have position (m : Nat) (ch : Change) :
        (changeRow p i m ch).get .position = .integer m := rfl
    simp only [precedes, position, Cell.integer.injEq, Int.ofNat_inj]
    rw [if_neg (by omega)]
    have order : ¬ (k : Int) < n := by omega
    simpa [Cell.before] using order

/-- Rows of changes are read as the changes. -/
theorem map_changeRows {view : Row → Id × Change} : ∀ {n : Nat},
    (∀ row ∈ changeRows p i n cs, Reader.change row = .ok (view row)) →
      ((changeRows p i n cs).map view).map (·.2) = cs := by
  induction cs with
  | nil => exact fun _ => rfl
  | cons change rest ih =>
    intro n read
    obtain ⟨first, others⟩ := List.forall_mem_cons.mp read
    rw [Reader.change_changeRow] at first
    rw [changeRows, List.map_cons, List.map_cons, ih others, ← Except.ok.inj first]

/-- Changes that are added in their order stay in it. -/
theorem arrange_changeRows (p i : Id) (n : Nat) (cs : List Change) :
    arrange [⟨.position, false⟩] (changeRows p i n cs) = changeRows p i n cs := by
  refine List.mergeSort_of_pairwise ((pairwise_changeRows p i cs n).imp fun later => ?_)
  rw [later]
  rfl

/-- The changes of a page are in the order of their records, and those of one record in their own. -/
theorem filter_arrange_changes (keyed : c.Keyed) (p i : Id) :
    (arrange [⟨.recordId, false⟩, ⟨.position, false⟩] c.changes).filter (Row.isChange p i)
      = (c.entry p i).2 := by
  have perm := (arrange_perm [⟨.recordId, false⟩, ⟨.position, false⟩] c.changes).filter
    (Row.isChange p i)
  have perm' := arrange_perm [⟨.position, false⟩] (c.changes.filter (Row.isChange p i))
  have record {row : Row} (own : row.isChange p i = true) : row.get .recordId = .text i.text := by
    simpa [Row.isChange] using And.right (Bool.and_eq_true_iff.mp own)
  have sorted := arrange_pairwise [⟨.position, false⟩] (c.changes.filter (Row.isChange p i))
  refine List.Perm.eq_of_pairwise ?_ ?_ sorted (perm.trans perm'.symm)
  · intro a b aMem bMem ba ab
    have position := get_eq_of_not_precedes ab ba _ List.mem_cons_self
    obtain ⟨aMem, aOwn⟩ := List.mem_filter.mp (perm.subset aMem)
    obtain ⟨bMem, bOwn⟩ := List.mem_filter.mp (perm'.subset bMem)
    refine eq_of_agree (keyed .changes) aMem bMem (Row.agree_iff.mpr fun column mem => ?_)
    simp only [keyOf, List.mem_cons, List.not_mem_nil, or_false] at mem
    rcases mem with rfl | rfl | rfl
    · have project := Row.isOf_of_isChange aOwn
      have project' := Row.isOf_of_isChange bOwn
      simp only [Row.isOf, decide_eq_true_eq] at project project'
      rw [project, project']
    · rw [record aOwn, record bOwn]
    · exact position
  · refine ((arrange_pairwise _ c.changes).filter _).imp_of_mem fun {a b} aMem bMem later => ?_
    have same : b.get .recordId = a.get .recordId := by
      rw [record (List.mem_filter.mp aMem).2, record (List.mem_filter.mp bMem).2]
    simpa [precedes, same] using later

theorem meets_among {ids : List Id} {row : Row} :
    meets [.ofProject p, .among .recordId ids] row = ids.any (Row.isChange p · row) := by
  rw [meets_cons, holds_ofProject]
  cases own : row.isOf p <;> simp [meets, own, Row.isChange, holds, Cell.equals_text]

/-- The rows that are read for a page of records. -/
def changesAmong (c : Content) (p : Id) (ids : List Id) : List Row :=
  (arrange [⟨.recordId, false⟩, ⟨.position, false⟩] c.changes).filter
    fun row => ids.any (Row.isChange p · row)

theorem readChanges_eq (c : Content) (p : Id) (ids : List Id) : c.readChanges p ids =
    reading "Failed to read change row" ((c.changesAmong p ids).mapM Reader.change) := by
  have rows : chosen (.changes p ids) c.changes = (c.changesAmong p ids).map .ok := by
    have plain : [Condition.ofProject p, .among .recordId ids].any isLabelled = false := rfl
    have picked := filterMap_choose plain
      (arrange [⟨.recordId, false⟩, ⟨.position, false⟩] c.changes)
    rwa [List.filter_congr fun row _ => meets_among] at picked
  cases ids with
  | nil =>
    have none : c.changesAmong p [] = [] := List.filter_eq_nil_iff.mpr fun _ _ => Bool.false_ne_true
    rw [none]
    rfl
  | cons first rest =>
    rw [readChanges, rows, List.mapM_map]
    rfl

theorem filter_changesAmong (keyed : c.Keyed) {ids : List Id} (mem : i ∈ ids) :
    (c.changesAmong p ids).filter (Row.isChange p i) = (c.entry p i).2 := by
  rw [← filter_arrange_changes keyed]
  exact filter_filter_of_imp _ fun row own => List.any_eq_true.mpr ⟨i, mem, own⟩

/-- The changes that are read for a page of records, told apart by their records. -/
theorem readChanges_entry (keyed : c.Keyed) (p : Id) (ids : List Id)
    (entries : ∀ i ∈ ids, ∃ cs, (c.entry p i).2 = changeRows p i 0 cs) :
    ∃ found, c.readChanges p ids = .ok found ∧ ∀ i ∈ ids, ∀ cs,
      (c.entry p i).2 = changeRows p i 0 cs → Record.changesOf found i = cs := by
  have readable : ∀ row ∈ c.changesAmong p ids, ∃ x : Id × Change,
      Reader.change row = .ok x ∧ row.isChange p x.1 = true := by
    intro row mem
    obtain ⟨i, listed, own⟩ := List.any_eq_true.mp (List.mem_filter.mp mem).2
    have among : row ∈ (c.changesAmong p ids).filter (Row.isChange p i) :=
      List.mem_filter.mpr ⟨mem, own⟩
    obtain ⟨cs, stored⟩ := entries i listed
    rw [filter_changesAmong keyed listed, stored] at among
    obtain ⟨k, -, change, -, rfl⟩ := exists_of_mem_changeRows among
    exact ⟨(i, change), Reader.change_changeRow p i k change, own⟩
  choose! view read own using readable
  refine ⟨(c.changesAmong p ids).map view, ?_, fun i mem cs stored => ?_⟩
  · rw [readChanges_eq, mapM_eq_ok_map read]
    rfl
  · have same : ∀ row ∈ c.changesAmong p ids, decide ((view row).1 = i) = row.isChange p i := by
      intro row among
      refine Bool.eq_iff_iff.mpr ⟨fun named => ?_, fun mine => ?_⟩
      · rw [← of_decide_eq_true named]
        exact own row among
      · exact decide_eq_true (Row.isChange_unique (own row among) mine).2
    have picked : ((c.changesAmong p ids).map view).filter (·.1 = i)
        = (changeRows p i 0 cs).map view := by
      rw [List.filter_map, ← stored, ← filter_changesAmong keyed mem]
      exact congrArg _ (List.filter_congr same)
    have all : ∀ row ∈ changeRows p i 0 cs, Reader.change row = .ok (view row) := by
      intro row among
      rw [← stored, ← filter_changesAmong keyed mem] at among
      exact read row (List.mem_filter.mp among).1
    rw [Record.changesOf_eq, picked, map_changeRows all]

/-! Records -/

theorem readRecord_of_entry (keyed : c.Keyed) {row : Row} {r : Record}
    (entry : c.entry p i = (some row, changeRows p i 0 cs)) (read : Reader.record row = .ok r) :
    c.readRecord p i = .ok (r.withChanges cs) := by
  have found : c.records.find? (Row.isRecord p i) = some row := congrArg Prod.fst entry
  obtain ⟨changes, fetched, told⟩ := readChanges_entry keyed p [i]
    (by simp [entry])
  have own := told i List.mem_cons_self cs (congrArg Prod.snd entry)
  simp only [readRecord, found, read, reading, Except.mapError, fetched, bind, Except.bind, own]
  rfl

theorem readRecord_error {row : Row} {f : Fault} (found : (c.entry p i).1 = some row)
    (failed : Reader.record row = .error f) :
    c.readRecord p i = .error (f.error "Failed to read record") := by
  have found : c.records.find? (Row.isRecord p i) = some row := found
  simp only [readRecord, found, failed, reading, Except.mapError, bind, Except.bind]

/-- What a batch leaves under the key of each of its records. -/
theorem entry_addBatch (sound : c.Sound) {createTime : Instant} {batch : List Record} {b : Record}
    {d e : Content} (records : c.addRecords (batch.map (recordRow p createTime)) = .ok d)
    (changes : d.addChanges (batchChanges p batch) = .ok e) (mem : b ∈ batch) :
    e.entry p b.id = (some (recordRow p createTime b), changeRows p b.id 0 b.resource.changes) := by
  have keyed := (sound.keyed.addRecords records).addChanges changes
  obtain ⟨_, rfl⟩ := addRecords_eq_ok records
  obtain ⟨_, rfl⟩ := addChanges_eq_ok changes
  obtain ⟨distinct, fresh⟩ := fresh_of_keyed (keyed .records)
  have own := isRecord_recordRow_self p createTime b
  have concerned (l : List Row) :
      l.filter (Row.isChange p b.id) = l.filter (recordRow p createTime b).concerns :=
    List.filter_congr fun _ _ => (Row.concerns_eq own).symm
  refine Prod.ext ?_ ?_
  · have stored : recordRow p createTime b ∈ c.records ++ batch.map (recordRow p createTime) :=
      List.mem_append_right _ (List.mem_map_of_mem mem)
    obtain ⟨row, found⟩ := Option.isSome_iff_exists.mp (List.find?_isSome.mpr ⟨_, stored, own⟩)
    have same := keyed.eq_of_isRecord (List.mem_of_find?_eq_some found) stored
      (List.find?_some found) own
    rw [← same]
    exact found
  · have old := sound.filter_changes_new createTime fun row stored => fresh row stored b mem
    simp only [entry, List.filter_append, concerned, old, filter_batchChanges distinct mem,
      List.nil_append, arrange_changeRows]

/-- The project of a record that is there is there as well. -/
theorem requireProject_of_record (sound : c.Sound) {row : Row}
    (found : (c.entry p i).1 = some row) : c.requireProject p = .ok () := by
  have stored := List.mem_of_find?_eq_some found
  have own := Row.isOf_of_isRecord (List.find?_some found)
  obtain ⟨owner, present, same⟩ := sound.records_owned row stored
  have project : c.hasProject p = true := by
    refine List.any_eq_true.mpr ⟨owner, present, ?_⟩
    rwa [Row.isProject, ← same]
  rw [requireProject, if_pos project]

end Content

end AuditTrail.Embedded
