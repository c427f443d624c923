import AuditTrail.Proofs.Embedded.Stored

/-! What a store has accepted comes back as it was given, text for text and byte for byte, as long as
nobody changes it. A time that cannot be read back makes reading fail. -/
namespace AuditTrail.Embedded

/-- Whether a session refuses all requests of a kind, as they come among others. -/
def Session.Refuses (about : Request → Prop) : Session → List Request → Prop
  | _, [] => True
  | s, r :: rs => (about r → ∃ e, s.reply r = .error e) ∧ (s.after r).Refuses about rs

namespace Content

variable {c d : Content} {r : Request} {p i : Id}

theorem after_of_error {e : Error} (refused : c.reply r = .error e) : c.after r = c := by
  rcases after_cases c r with same | ⟨⟨a, replied⟩, -⟩
  · exact same
  · rw [refused] at replied
    contradiction

theorem find?_addProject {q : Project} (absent : c.hasProject q.id = false) :
    (c.addProject q).projects.find? (Row.isProject q.id) = some (projectRow q (c.lastNumber + 1)) := by
  have old : c.projects.find? (Row.isProject q.id) = none :=
    List.find?_eq_none.mpr (List.any_eq_false.mp absent)
  have new : (projectRow q (c.lastNumber + 1)).isProject q.id = true := by
    simp [Row.isProject, id_projectRow]
  rw [addProject, List.find?_append, old, Option.none_or, List.find?_cons_of_pos new]

theorem createRecords_of_reply {batch : List Record} {a : Answer}
    (done : c.reply (.createRecords batch) = .ok a) :
    Step c (.createRecords batch) (c.after (.createRecords batch)) := by
  unfold reply at done
  unfold after
  simp only [handle] at done ⊢
  cases created : c.createRecords batch with
  | error e =>
    rw [created] at done
    contradiction
  | ok d => exact step_of_createRecords created

theorem reply_getProject {row : Row} {q : Project}
    (found : c.projects.find? (Row.isProject i) = some row) (read : Reader.project row = .ok q) :
    c.reply (.getProject i) = .ok (.project q) := by
  simp only [reply, handle, readProject, found, read]
  rfl

theorem reply_getRecord (sound : c.Sound) {row : Row} {x : Record} {cs : List Change}
    (entry : c.entry p i = (some row, changeRows p i 0 cs)) (read : Reader.record row = .ok x) :
    c.reply (.getRecord p i) = .ok (.record (x.withChanges cs)) := by
  have found : (c.entry p i).1 = some row := congrArg Prod.fst entry
  simp only [reply, handle, getRecord, requireProject_of_record sound found,
    readRecord_of_entry sound.keyed entry read]
  rfl

end Content

section
variable {s : Session} {about : Request → Prop}

/-- What only requests of one kind can change stays while all of them are refused. -/
theorem Reachable.stays {α : Type} (reached : Reachable s) (view : Content → α)
    (step : ∀ {c d : Content} {r : Request}, Content.Step c r d → ¬ about r → view d = view c)
    {rs : List Request} (refused : s.Refuses about rs) :
    view (s.afterAll rs).content = view s.content := by
  induction rs generalizing s with
  | nil => rfl
  | cons r rs ih =>
    obtain ⟨now, later⟩ := refused
    have serves := reached.serves
    refine (ih (.answered r reached) later).trans ?_
    rw [(serves.after r).content]
    by_cases named : about r
    · obtain ⟨e, failed⟩ := now named
      rw [serves.reply] at failed
      rw [Content.after_of_error failed]
    · rcases Content.after_cases s.content r with same | ⟨-, made⟩
      · rw [same]
      · exact step made named

/-- The row and the changes of a record that has been created with others. -/
theorem Reachable.record_stays (reached : Reachable s) {first : Record} {rest : List Record}
    {a : Answer} (created : s.reply (.createRecords (first :: rest)) = .ok a) {r : Record}
    (mem : r ∈ first :: rest) {rs : List Request}
    (refused : (s.after (.createRecords (first :: rest))).Refuses (names r.project r.id) rs) :
    ((s.after (.createRecords (first :: rest))).afterAll rs).content.entry r.project r.id
      = (some (Content.recordRow r.project first.createTime r),
        Content.changeRows r.project r.id 0 r.resource.changes) := by
  have next : Reachable (s.after (.createRecords (first :: rest))) := .answered _ reached
  refine (next.stays (fun c => c.entry r.project r.id) Content.entry_of_not_names
    refused).trans ?_
  rw [reached.serves.reply] at created
  rw [(reached.serves.after _).content]
  cases Content.createRecords_of_reply created with
  | createRecords together present records changes =>
    rw [together r mem]
    exact Content.entry_addBatch reached.sound records changes mem
end

end AuditTrail.Embedded
