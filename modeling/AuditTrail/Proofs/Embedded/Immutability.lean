import AuditTrail.Proofs.Embedded.Frame
import AuditTrail.Proofs.Embedded.Soundness

/-! An audit record changes only at the request of somebody who may do so: what is stored under a key
stays the same in every step but those that create it, update it while its project allows updates,
delete it while its project allows that, or drop its project. -/
namespace AuditTrail.Embedded

/-- Whether a request names the key of a record, alone or among others. -/
def names (p i : Id) : Request → Prop
  | .createRecords records => ∃ r ∈ records, r.project = p ∧ r.id = i
  | .updateRecord project id _ | .deleteRecord project id => project = p ∧ id = i
  | .dropProject id => id = p
  | _ => False

/-- What is stored under the key of a record: its row, and its changes in their order. -/
def Content.entry (c : Content) (project id : Id) : Option Row × List Row :=
  (c.records.find? (Row.isRecord project id),
    arrange [⟨.position, false⟩] (c.changes.filter (Row.isChange project id)))

/-- An entry before and after an update: only columns of the selected groups differ, and changes only
if the resource is selected. -/
def OnlySelected (u : RecordUpdate) (before after : Option Row × List Row) : Prop :=
  ∃ row row', before.1 = some row ∧ after.1 = some row' ∧
    (∀ column, u.writes column = false → row'.get column = row.get column) ∧
    (u.resource = none → after.2 = before.2)

/-- A record before and after that is told by the same identifiers and creation time. -/
def SameIdentity (p i : Id) (c d : Content) : Prop :=
  ∃ row row', c.records.find? (Row.isRecord p i) = some row ∧
    d.records.find? (Row.isRecord p i) = some row' ∧
    ∀ column ∈ [Column.id, .projectId, .createTime], row'.get column = row.get column

/-- The requests that may change the entry of a key, and what has to be the case before and after. -/
inductive Session.Grants (s : Session) (p i : Id) : Request → Prop
  | created {records : List Record} (named : ∃ r ∈ records, r.project = p ∧ r.id = i)
      (absent : s.content.hasRecord p i = false) : Grants s p i (.createRecords records)
  | updated {u : RecordUpdate} {q : Project} (gate : s.reply (.getProject p) = .ok (.project q))
      (allowed : q.updateRecords ≠ .off)
      (kept : OnlySelected u (s.content.entry p i)
        ((s.after (.updateRecord p i u)).content.entry p i)) : Grants s p i (.updateRecord p i u)
  | deleted {q : Project} (gate : s.reply (.getProject p) = .ok (.project q))
      (allowed : q.deleteRecords = .on)
      (gone : (s.after (.deleteRecord p i)).content.hasRecord p i = false) :
      Grants s p i (.deleteRecord p i)
  | dropped (gone : (s.after (.dropProject p)).content.hasRecord p i = false) :
      Grants s p i (.dropProject p)

namespace Content

variable {c d : Content} {r : Request} {p i : Id}

theorem names_of_isRecord {row : Row} (key : row.isRecord p i = true)
    (touched : touches r .records row = true) : names p i r := by
  cases r with
  | createRecords records =>
    obtain ⟨x, batched, own⟩ := List.any_eq_true.mp touched
    exact ⟨x, batched, Row.isRecord_unique own key⟩
  | updateRecord | deleteRecord => exact Row.isRecord_unique touched key
  | dropProject id => exact Row.isOf_unique touched (Row.isOf_of_isRecord key)
  | _ => contradiction

theorem names_of_isChange {row : Row} (key : row.isChange p i = true)
    (touched : touches r .changes row = true) : names p i r := by
  cases r with
  | createRecords records =>
    obtain ⟨x, batched, own⟩ := List.any_eq_true.mp touched
    exact ⟨x, batched, Row.isChange_unique own key⟩
  | updateRecord | deleteRecord => exact Row.isChange_unique touched key
  | dropProject id => exact Row.isOf_unique touched (Row.isOf_of_isChange key)
  | _ => contradiction

theorem entry_of_not_names (step : Step c r d) (other : ¬ names p i r) :
    d.entry p i = c.entry p i := by
  have records := filter_of_frame (step.frame .records) fun _ key =>
    Bool.eq_false_iff.mpr fun touched => other (names_of_isRecord key touched)
  have changes := filter_of_frame (step.frame .changes) fun _ key =>
    Bool.eq_false_iff.mpr fun touched => other (names_of_isChange key touched)
  simp only [rows] at records changes
  rw [entry, entry, ← List.head?_filter, ← List.head?_filter, records, changes]

theorem hasRecord_removeRecord (c : Content) (project id : Id) :
    (c.removeRecord project id).hasRecord project id = false :=
  any_filter_other (fun _ own => own) c.records

theorem hasRecord_removeProject (c : Content) (project id : Id) :
    (c.removeProject project).hasRecord project id = false :=
  any_filter_other (fun _ => Row.isOf_of_isRecord) c.records

theorem find?_assign {u : RecordUpdate} {row : Row}
    (found : c.records.find? (Row.isRecord p i) = some row) :
    (c.assign p i u).records.find? (Row.isRecord p i) = some (row.setAll u.entries) := by
  rw [records_assign]
  exact find?_map_own (fun row => Row.isRecord_setAll row u p i) found

theorem onlySelected_assign {u : RecordUpdate} (present : c.hasRecord p i = true) :
    OnlySelected u (c.entry p i) ((c.assign p i u).entry p i) := by
  obtain ⟨row, found⟩ := hasRecord_iff.mp present
  refine ⟨row, row.setAll u.entries, found, find?_assign found, ?_, ?_⟩
  · intro column kept
    exact Row.get_setAll_of_not_writes row kept
  · intro unselected
    simp only [entry, assign, unselected]
    rfl

end Content

variable {s : Session} {c d : Content} {r : Request}

/-- A request that has been granted and names a key had a right to. -/
theorem Session.Serves.grants {p i : Id} (serves : s.Serves c) (keyed : c.Keyed)
    (step : Content.Step c r d) (led : (s.after r).content = d) (named : names p i r) :
    s.Grants p i r := by
  have gate {q : Project} (read : c.readProject p = .ok q) :
      s.reply (.getProject p) = .ok (.project q) := by
    rw [serves.reply]
    simp only [Content.reply, Content.handle, read]
    rfl
  cases step with
  | createProject | updateProject => contradiction
  | dropProject present =>
    obtain rfl := named
    refine .dropped ?_
    rw [led]
    exact c.hasRecord_removeProject _ i
  | createRecords together present records changes =>
    obtain ⟨x, batched, rfl, rfl⟩ := named
    refine .created ⟨x, batched, rfl, rfl⟩ ?_
    have distinct := (keyed.addRecords records) .records
    rw [(Content.addRecords_eq_ok records).2] at distinct
    rw [serves.content, together x batched]
    refine List.any_eq_false.mpr fun row old => ?_
    rw [(Content.fresh_of_keyed distinct).2 row old x batched]
    exact Bool.false_ne_true
  | updateRecord read allowed present =>
    obtain ⟨rfl, rfl⟩ := named
    refine .updated (gate read) ?_ ?_
    · intro off
      simp [Project.allowsUpdate, Flag.isOff, off] at allowed
    · rw [led, serves.content]
      exact Content.onlySelected_assign present
  | deleteRecord read allowed =>
    obtain ⟨rfl, rfl⟩ := named
    refine .deleted (gate read) ?_ ?_
    · simpa [Project.allowsDelete, Flag.isOn] using allowed
    · rw [led]
      exact c.hasRecord_removeRecord _ _

section
variable {p i : Id}

theorem SameIdentity.refl (present : c.hasRecord p i = true) : SameIdentity p i c c := by
  obtain ⟨row, found⟩ := Content.hasRecord_iff.mp present
  exact ⟨row, row, found, found, fun _ _ => rfl⟩

theorem SameIdentity.trans {e : Content} (first : SameIdentity p i c d)
    (second : SameIdentity p i d e) : SameIdentity p i c e := by
  obtain ⟨row, middle, found, reached, same⟩ := first
  obtain ⟨middle', row', again, found', same'⟩ := second
  obtain rfl := Option.some.inj (reached.symm.trans again)
  exact ⟨row, row', found, found', fun column mem => (same' column mem).trans (same column mem)⟩

theorem Reachable.grants_of_entry_ne (reached : Reachable s)
    (changed : (s.after r).content.entry p i ≠ s.content.entry p i) :
    (∃ a, s.reply r = .ok a) ∧ s.Grants p i r := by
  have serves := reached.serves
  have led := (serves.after r).content
  rw [led] at changed
  rcases Content.after_cases s.content r with same | ⟨replied, step⟩
  · rw [same] at changed
    contradiction
  · by_cases named : names p i r
    · rw [serves.reply]
      exact ⟨replied, serves.grants reached.sound.keyed step led named⟩
    · exact absurd (Content.entry_of_not_names step named) changed

/-- A record that is there before and after a request is still the same record. -/
theorem Reachable.sameIdentity (reached : Reachable s) (r : Request)
    (before : s.content.hasRecord p i = true) (after : (s.after r).content.hasRecord p i = true) :
    SameIdentity p i s.content (s.after r).content := by
  by_cases same : (s.after r).content.entry p i = s.content.entry p i
  · obtain ⟨row, found⟩ := Content.hasRecord_iff.mp before
    exact ⟨row, row, found, (congrArg Prod.fst same).trans found, fun _ _ => rfl⟩
  · cases (reached.grants_of_entry_ne same).2 with
    | created named absent => rw [absent] at before; contradiction
    | updated gate allowed kept =>
      obtain ⟨row, row', found, found', unselected, -⟩ := kept
      refine ⟨row, row', found, found', fun column mem => unselected column ?_⟩
      simp only [List.mem_cons, List.not_mem_nil, or_false] at mem
      rcases mem with rfl | rfl | rfl <;> rfl
    | deleted gate allowed gone => rw [gone] at after; contradiction
    | dropped gone => rw [gone] at after; contradiction

/-- As long as a record lives it is the same record, whatever is asked in between. -/
theorem Reachable.sameIdentity_run (reached : Reachable s) {rs : List Request}
    (alive : ∀ n, n ≤ rs.length → (s.afterAll (rs.take n)).content.hasRecord p i = true) :
    SameIdentity p i s.content (s.afterAll rs).content := by
  induction rs generalizing s with
  | nil => exact .refl (alive 0 (Nat.le_refl 0))
  | cons r rs ih =>
    have now := alive 0 (Nat.zero_le _)
    have next := alive 1 (Nat.succ_le_succ (Nat.zero_le _))
    rw [List.take_succ_cons] at next
    refine (reached.sameIdentity r now next).trans (ih (.answered r reached) fun n bound => ?_)
    exact alive (n + 1) (Nat.succ_le_succ bound)
end

/-- An entry changes only at a request that is answered and may change it, and a record keeps its
identity for as long as it lives. -/
theorem records_are_immutable {s : Session} (reached : Reachable s) (p i : Id) :
    (∀ r, (s.after r).content.entry p i ≠ s.content.entry p i →
      (∃ a, s.reply r = .ok a) ∧ s.Grants p i r) ∧
    ∀ rs : List Request,
      (∀ n, n ≤ rs.length → (s.afterAll (rs.take n)).content.hasRecord p i = true) →
      SameIdentity p i s.content (s.afterAll rs).content :=
  ⟨fun _ => reached.grants_of_entry_ne, fun _ => reached.sameIdentity_run⟩

theorem records_are_immutable_default :
    let s := ((Session.opened .default).after (.createProject default)).after
      (.createRecords [default])
    let update := Request.updateRecord default default ⟨none, none, none, some ⟨"user", "1", .empty⟩⟩
    ((∃ a, s.reply update = .ok a) ∧ s.Grants default default update) ∧
      SameIdentity default default s.content (s.afterAll [update, update]).content := by
  intro s update
  have reached : Reachable s :=
    .answered _ (.answered _ (.opened true (openStore_empty .default)))
  obtain ⟨granted, identity⟩ := records_are_immutable reached default default
  refine ⟨granted update (by decide +kernel), identity [update, update] ?_⟩
  decide +kernel

end AuditTrail.Embedded
