import AuditTrail.CommandLine.Invocation
import AuditTrail.Proofs.Embedded.Listing
import AuditTrail.Proofs.Time.Bounds

/-! Listings of a range of operation times. A bound is compared with the times of the records by its
text, and is right as long as it does not lie after the year 9999: a bound there admits all records from
it on and none before it. -/
namespace AuditTrail

/-- The filter of a command line that bounds the operation time and asks for nothing else. -/
def RecordFilter.during (lower upper : Option Instant) : RecordFilter :=
  { CommandLine.Draft.start.filter with
    timeFrom := lower
    timeTo := upper }

/-- Whether a time lies in a range by the texts of its bounds. A bound after the year 9999 comes before
all times. -/
def Instant.within (t : Instant) (lower upper : Option Instant) : Bool :=
  lower.all (fun a => a.year ≤ 9999 → a ≤ t) && upper.all fun b => b.year ≤ 9999 ∧ t < b

theorem proper_of_readTime {s : String} {t : Instant} (read : CommandLine.readTime s = .ok t) :
    t.Proper := by
  cases came : Instant.read s with
  | error f =>
    rw [CommandLine.readTime, came] at read
    contradiction
  | ok u =>
    rw [CommandLine.readTime, came] at read
    exact Except.ok.inj read ▸ Instant.proper_of_read came

namespace Embedded

section
variable {row : Row} {column : Column} {t u : Instant}

theorem below_bound (held : row.get column = .text t.sortable) (ht : t.Ordinary) (hu : u.Proper) :
    holds row (.below column (.instant u)) = decide (u.year ≤ 9999 ∧ t < u) := by
  simp only [holds, held, Value.cell, Cell.below, Cell.before, Instant.sortable_lt_bound ht hu]
  rfl

theorem atLeast_bound (held : row.get column = .text t.sortable) (ht : t.Ordinary) (hu : u.Proper) :
    holds row (.atLeast column (.instant u)) = decide (u.year ≤ 9999 → u ≤ t) := by
  have order : u ≤ t ↔ ¬ t < u := by
    change t.before u = false ↔ ¬ t.before u = true
    rw [Bool.not_eq_true]
  have present : (row.get column ≠ .null) = True ∧ (Cell.text u.sortable ≠ .null) = True := by
    simp [held]
  simp only [holds, Value.cell, present, decide_true, Bool.true_and]
  simp only [held, Cell.before, Instant.sortable_lt_bound ht hu, order, ← decide_not, not_and]

end

/-- A row is judged by the operation time of its record alone. -/
theorem Content.Shows.choose_during {c : Content} {row : Row} {r : Record} (shows : c.Shows row r)
    {lower upper : Option Instant} (first : ∀ t ∈ lower, t.Proper) (last : ∀ t ∈ upper, t.Proper) :
    Embedded.choose (.ofProject r.project :: Selection.filtering (.during lower upper)
      ++ Selection.after none) row = if r.operation.time.within lower upper then some (.ok row) else none := by
  have held := shows.operationTime
  have own : holds row (.ofProject r.project) = true :=
    (holds_ofProject r.project).trans (Row.isOf_of_isRecord shows.stores.isRecord)
  have conditions : Selection.filtering (.during lower upper)
      = Selection.optional (fun t => .atLeast .operationTime (.instant t)) lower
        ++ Selection.optional (fun t => .below .operationTime (.instant t)) upper := rfl
  have plain : (Condition.ofProject r.project :: Selection.filtering (.during lower upper)
      ++ Selection.after none).any isLabelled = false := by
    rw [conditions]
    cases lower <;> cases upper <;> rfl
  have met : meets (.ofProject r.project :: Selection.filtering (.during lower upper)
      ++ Selection.after none) row = r.operation.time.within lower upper := by
    rw [List.cons_append, meets_cons, own, Bool.true_and, conditions, meets, List.all_append,
      List.all_append, all_optional, all_optional]
    have left : lower.all (fun a => holds row (.atLeast .operationTime (.instant a)))
        = lower.all fun a => a.year ≤ 9999 → a ≤ r.operation.time := by
      cases bound : lower with
      | none => rfl
      | some a => exact atLeast_bound held shows.operated (first a bound)
    have right : upper.all (fun b => holds row (.below .operationTime (.instant b)))
        = upper.all fun b => b.year ≤ 9999 ∧ r.operation.time < b := by
      cases bound : upper with
      | none => rfl
      | some b => exact below_bound held shows.operated (last b bound)
    rw [left, right]
    exact Bool.and_true _
  rw [choose_of_plain plain, met]

section
variable {s : Session} {p : Id} (reached : Reachable s) (present : s.content.hasProject p = true)
  (dated : ∀ row ∈ s.content.records, row.isOf p = true → row.Dated [.createTime, .operationTime])
include reached present dated

/-- Bounds of the operation time pick records of a project by the texts of the bounds. -/
theorem Reachable.lists_during : ∃ all, s.HoldsRecords p all ∧
    (∀ r ∈ all, r.operation.time.Ordinary) ∧ ∀ lower upper limit, (∀ t ∈ lower, t.Proper) →
      (∀ t ∈ upper, t.Proper) → all.length ≤ limit →
        s.reply (.listRecords p (.during lower upper) limit .start)
          = .ok (.records (all.filter fun r => r.operation.time.within lower upper)) := by
  obtain ⟨view, views⟩ := reached.valued.exists_view dated
  refine ⟨_, reached.holdsRecords views, ?_, fun lower upper limit first last whole => ?_⟩
  · intro r mem
    obtain ⟨row, listed, rfl⟩ := List.mem_map.mp mem
    exact (views row listed).2.operated
  · let pick (r : Record) : Bool := r.operation.time.within lower upper
    have judged : ∀ row ∈ s.content.listed p,
        Embedded.choose (.ofProject p :: Selection.filtering (.during lower upper)
          ++ Selection.after none) row = if pick (view row) then some (.ok row) else none := by
      intro row mem
      obtain ⟨project, shows⟩ := views row mem
      rw [← shows.choose_during first last, project]
    have start : RecordCursor.start.keyset = .ok none := rfl
    have fits : (RecordFilter.during lower upper).terms + RecordCursor.start.terms ≤ termLimit :=
      RecordFilter.terms_le_of_unlabelled rfl .start
    have page := views.listRecords_of reached.sound.keyed present start fits judged limit
    rw [List.take_of_length_le (Nat.le_trans (List.length_filter_le _ _) whole)] at page
    rw [reached.serves.reply]
    simp only [Content.reply, Content.handle, page]
    rfl

/-- A range of times whose bounds lie in the year 9999 or before is listed as it is meant, in whichever
zones the bounds are given and also if they lie before the year 0. An upper bound after that year lets
no record through, and a lower one restricts nothing. -/
theorem time_range_is_right_up_to_last_year : ∃ all, s.HoldsRecords p all ∧
    ∀ a b lower upper, CommandLine.readTime a = .ok lower → CommandLine.readTime b = .ok upper →
      ∀ limit, all.length ≤ limit →
        let reply := s.reply (.listRecords p (.during (some lower) (some upper)) limit .start)
        (lower.year ≤ 9999 → upper.year ≤ 9999 → reply = .ok (.records (all.filter fun r =>
          lower ≤ r.operation.time ∧ r.operation.time < upper))) ∧
        (9999 < upper.year → reply = .ok (.records [])) ∧
        (9999 < lower.year → upper.year ≤ 9999 → reply = .ok (.records (all.filter fun r =>
          r.operation.time < upper))) := by
  obtain ⟨all, holds, -, lists⟩ := reached.lists_during present dated
  refine ⟨all, holds, fun a b lower upper first last limit whole => ?_⟩
  have listed := lists (some lower) (some upper) limit
    (fun _ same => Option.some.inj same ▸ proper_of_readTime first)
    (fun _ same => Option.some.inj same ▸ proper_of_readTime last) whole
  simp only [Instant.within, Option.all_some] at listed
  refine ⟨fun inside inside' => ?_, fun outside => ?_, fun outside inside => ?_⟩
  · simpa [inside, inside'] using listed
  · simpa [Int.not_le.mpr outside] using listed
  · simpa [Int.not_le.mpr outside, inside] using listed
end

/-- Bounds an hour off at both ends of the years: the first hour of the year 0 lies before it in UTC. -/
theorem time_range_is_right_up_to_last_year_zoned :
    let r : Record := { (default : Record) with
      operation := { (default : Operation) with time := ⟨1672531200, 0⟩ } }
    let s := ((Session.opened .default).after (.createProject default)).after (.createRecords [r])
    let lower : Instant := ⟨-62167222800, 0⟩
    let upper : Instant := ⟨253402297199, 0⟩
    lower.year < 0 ∧ ∃ all, s.HoldsRecords default all ∧
      s.reply (.listRecords default (.during (some lower) (some upper)) all.length .start)
        = .ok (.records (all.filter fun r => lower ≤ r.operation.time ∧ r.operation.time < upper)) := by
  intro r s lower upper
  have reached : Reachable s := .answered _ (.answered _ (.opened true (openStore_empty .default)))
  have dated := Content.dated_of_batch (c := s.content) default r.createTime [r] (by decide +kernel)
    (by decide +kernel) (by decide +kernel)
  obtain ⟨all, holds, listed⟩ :=
    time_range_is_right_up_to_last_year reached (by decide +kernel) dated
  refine ⟨by decide, all, holds, ?_⟩
  exact (listed "0000-01-01T00:00:00+01:00" "9999-12-31T23:59:59+01:00" lower upper (by decide +kernel)
    (by decide +kernel) all.length (Nat.le_refl _)).1 (by decide) (by decide)

/-- A record that lies between two bounds is not listed, as the later bound lies after the last year by
an hour. -/
theorem time_range_misses_bound_after_last_year :
    let r : Record := { (default : Record) with
      operation := { (default : Operation) with time := ⟨1672531200, 0⟩ } }
    let s := ((Session.opened .default).after (.createProject default)).after (.createRecords [r])
    let lower : Instant := ⟨1672531200, 0⟩
    let upper : Instant := ⟨253402304399, 0⟩
    (Reachable s ∧ s.content.hasProject default = true ∧
      ∀ row ∈ s.content.records, row.isOf default = true → row.Dated [.createTime, .operationTime]) ∧
    (CommandLine.readTime "2023-01-01T00:00:00Z" = .ok lower ∧
      CommandLine.readTime "9999-12-31T23:59:59-01:00" = .ok upper) ∧
    (s.reply (.getRecord default default) = .ok (.record r) ∧
      lower ≤ r.operation.time ∧ r.operation.time < upper) ∧
    s.reply (.listRecords default (.during (some lower) (some upper)) 1 .start) = .ok (.records []) := by
  intro r s lower upper
  have reached : Reachable s := .answered _ (.answered _ (.opened true (openStore_empty .default)))
  have dated := Content.dated_of_batch (c := s.content) default r.createTime [r] (by decide +kernel)
    (by decide +kernel) (by decide +kernel)
  exact ⟨⟨reached, by decide +kernel, dated⟩, ⟨by decide +kernel, by decide +kernel⟩,
    ⟨by decide +kernel, by decide, by decide⟩, by decide +kernel⟩

end Embedded

end AuditTrail
