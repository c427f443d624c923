import AuditTrail.Proofs.Limits.Rules

/-! Records within limits. What it means for a record to be within its limits is said part by part; the
check of a record goes through the rules for all of its fields in their order, so that it passes just
those records and otherwise names the field and the rule that come first. -/
namespace AuditTrail

/-- A text that is there and within a limit. -/
def Filled (s : String) (max : Nat) : Prop := s ≠ "" ∧ s.utf8ByteSize ≤ max

/-- A character of keys. -/
def KeyChar (c : Char) : Prop := c.isAlphanum = true ∨ c = '-' ∨ c = '_'

structure TextMap.Fits (m : TextMap) (limits : MapLimits) : Prop where
  keys : ∀ e ∈ m.entries, Filled e.1 limits.key ∧ ∀ c ∈ e.1.toList, KeyChar c
  values : ∀ e ∈ m.entries, e.2.utf8ByteSize ≤ limits.value
  total : m.size ≤ limits.total

/-- Headers are good ones if they are there, and the state comes with a parent. -/
structure TraceContext.Fits (t : TraceContext) : Prop where
  parent : t.parent.getD "" ≠ "" → TraceParent.isValid (t.parent.getD "") = true
  state : t.state.getD "" ≠ "" → t.parent.getD "" ≠ "" ∧
    (t.state.getD "").utf8ByteSize ≤ 512 ∧ TraceState.isValid (t.state.getD "") = true

structure Change.Fits (c : Change) (limits : ChangeLimits) : Prop where
  name : Filled c.name limits.name
  description : ∀ s ∈ c.description, s.utf8ByteSize ≤ limits.description
  oldValue : ∀ b ∈ c.oldValue, b.length ≤ limits.oldValue
  newValue : ∀ b ∈ c.newValue, b.length ≤ limits.newValue

structure Resource.Fits (r : Resource) (limits : ResourceLimits) : Prop where
  kind : Filled r.kind limits.kind
  id : Filled r.id limits.id
  metadata : r.metadata.Fits limits.metadata
  count : r.changes.length ≤ limits.changes.count
  changes : ∀ c ∈ r.changes, c.Fits limits.changes

structure Operation.Fits (o : Operation) (limits : PartLimits) : Prop where
  kind : Filled o.kind limits.kind
  id : Filled o.id limits.id
  time : o.time ≠ .epoch ∧ 1 ≤ o.time.year ∧ o.time.year ≤ 9999
  metadata : o.metadata.Fits limits.metadata
  trace : o.trace.Fits

structure Actor.Fits (a : Actor) (limits : PartLimits) : Prop where
  kind : Filled a.kind limits.kind
  id : Filled a.id limits.id
  metadata : a.metadata.Fits limits.metadata

structure Record.Fits (r : Record) (limits : RecordLimits) : Prop where
  labels : r.labels.Fits limits.labels
  resource : r.resource.Fits limits.resource
  operation : r.operation.Fits limits.operation
  actor : r.actor.Fits limits.actor

/-! The rules for all fields, in their order -/

/-- The rules for the change at a place. -/
def Change.rules (limits : ChangeLimits) (c : Change) (i : Nat) : List Rule :=
  let path (name : String) := "resource.changes[" ++ toString i ++ "]." ++ name
  textRules (path "name") c.name limits.name ++
  sizeRules (path "description") (c.description.getD "").utf8ByteSize limits.description ++
  sizeRules (path "old_value") (c.oldValue.getD []).length limits.oldValue ++
  sizeRules (path "new_value") (c.newValue.getD []).length limits.newValue

def Resource.rules (r : Resource) (limits : ResourceLimits) : List Rule :=
  textRules "resource.type" r.kind limits.kind ++
  textRules "resource.id" r.id limits.id ++
  mapRules "resource.metadata" r.metadata limits.metadata ++
  [⟨"resource.changes", .tooManyChanges limits.changes.count,
    r.changes.length ≤ limits.changes.count⟩] ++
  r.changes.zipIdx.flatMap fun (c, i) => c.rules limits.changes i

def Operation.rules (o : Operation) (limits : PartLimits) : List Rule :=
  textRules "operation.type" o.kind limits.kind ++
  textRules "operation.id" o.id limits.id ++
  timeRules "operation.time" o.time ++
  mapRules "operation.metadata" o.metadata limits.metadata ++
  traceRules "operation.trace_context" o.trace

def Actor.rules (a : Actor) (limits : PartLimits) : List Rule :=
  textRules "actor.type" a.kind limits.kind ++
  textRules "actor.id" a.id limits.id ++
  mapRules "actor.metadata" a.metadata limits.metadata

def Record.rules (r : Record) (limits : RecordLimits) : List Rule :=
  mapRules "labels" r.labels limits.labels ++
  r.resource.rules limits.resource ++
  r.operation.rules limits.operation ++
  r.actor.rules limits.actor

/-! The checks go through these rules -/

namespace Check

theorem change_eq (limits : ChangeLimits) (c : Change) (i : Nat) :
    change limits c i = Rule.check (c.rules limits i) := by
  simp only [change, Change.rules, Rule.check_append, field_text, optionalText_eq, bytes,
    field_maxBytes, bind_assoc]

theorem resource_eq (r : Resource) (limits : ResourceLimits) :
    resource r limits = Rule.check (r.rules limits) := by
  have changes : (r.changes.zipIdx.forM fun (c, i) => change limits.changes c i)
      = Rule.check (r.changes.zipIdx.flatMap fun (c, i) => c.rules limits.changes i) :=
    Rule.check_flatMap fun (c, i) => change_eq limits.changes c i
  simp only [resource, Resource.rules, Rule.check_append, field_text, field_textMap, changeCount,
    field_demand, changes, bind_assoc]

theorem operation_eq (o : Operation) (limits : PartLimits) :
    operation o limits = Rule.check (o.rules limits) := by
  simp only [operation, Operation.rules, Rule.check_append, field_text, field_operationTime,
    field_textMap, field_traceContext, bind_assoc]

theorem actor_eq (a : Actor) (limits : PartLimits) :
    actor a limits = Rule.check (a.rules limits) := by
  simp only [actor, Actor.rules, Rule.check_append, field_text, field_textMap, bind_assoc]

theorem record_eq (r : Record) (limits : RecordLimits) :
    record r limits = Rule.check (r.rules limits) := by
  simp only [record, Record.rules, Rule.check_append, field_textMap, resource_eq, operation_eq,
    actor_eq, bind_assoc]

end Check

/-! What is within its limits keeps the rules -/

section
variable {name : String}

theorem kept_textRules {s : String} {max : Nat} :
    Rule.Kept (textRules name s max) ↔ Filled s max := by
  simp [Rule.Kept, textRules, Filled]

theorem kept_sizeRules {size max : Nat} : Rule.Kept (sizeRules name size max) ↔ size ≤ max := by
  simp [Rule.Kept, sizeRules]

theorem keyChar_iff {c : Char} : KeyChar c ↔ Check.isKeyChar c = true := by
  have lower : c.isLower = true ↔ 'a' ≤ c ∧ c ≤ 'z' :=
    Bool.and_eq_true_iff.trans (and_congr decide_eq_true_iff decide_eq_true_iff)
  have upper : c.isUpper = true ↔ 'A' ≤ c ∧ c ≤ 'Z' := decide_eq_true_iff
  have digit : c.isDigit = true ↔ '0' ≤ c ∧ c ≤ '9' :=
    Bool.and_eq_true_iff.trans (and_congr decide_eq_true_iff decide_eq_true_iff)
  have letters : c.isAlphanum = (c.isUpper || c.isLower || c.isDigit) := rfl
  simp only [KeyChar, Check.isKeyChar, letters, Bool.or_eq_true, Bool.and_eq_true,
    decide_eq_true_eq, lower, upper, digit, or_assoc]
  exact or_left_comm

theorem kept_entryRules {limits : MapLimits} {e : String × String} :
    Rule.Kept (entryRules name limits e) ↔
      (Filled e.1 limits.key ∧ ∀ c ∈ e.1.toList, KeyChar c) ∧ e.2.utf8ByteSize ≤ limits.value := by
  simp only [Rule.Kept, entryRules, List.forall_mem_cons, List.not_mem_nil, false_implies,
    implies_true, and_true, decide_eq_true_eq, List.all_eq_true, Filled, keyChar_iff]
  constructor
  · rintro ⟨there, letters, size, value⟩
    exact ⟨⟨⟨there, size⟩, letters⟩, value⟩
  · rintro ⟨⟨⟨there, size⟩, letters⟩, value⟩
    exact ⟨there, letters, size, value⟩

theorem kept_mapRules {m : TextMap} {limits : MapLimits} :
    Rule.Kept (mapRules name m limits) ↔ m.Fits limits := by
  simp only [mapRules, Rule.kept_append, Rule.kept_flatMap, kept_entryRules, Rule.kept_singleton,
    decide_eq_true_eq]
  constructor
  · rintro ⟨entries, total⟩
    exact ⟨fun e mem => (entries e mem).1, fun e mem => (entries e mem).2, total⟩
  · rintro ⟨keys, values, total⟩
    exact ⟨fun e mem => ⟨keys e mem, values e mem⟩, total⟩

theorem kept_timeRules {t : Instant} :
    Rule.Kept (timeRules name t) ↔ t ≠ .epoch ∧ 1 ≤ t.year ∧ t.year ≤ 9999 := by
  simp [Rule.Kept, timeRules]

theorem kept_traceRules {t : TraceContext} : Rule.Kept (traceRules name t) ↔ t.Fits := by
  simp only [Rule.Kept, traceRules, List.forall_mem_cons, List.not_mem_nil, false_implies,
    implies_true, and_true, decide_eq_true_eq]
  constructor
  · rintro ⟨lone, parent, long, state⟩
    exact ⟨parent, fun there => ⟨fun missing => there (lone missing), long, state there⟩⟩
  · rintro ⟨parent, state⟩
    refine ⟨fun missing => ?_, parent, ?_, fun there => (state there).2.2⟩
    · exact Decidable.byContradiction fun there => (state there).1 missing
    · by_cases there : t.state.getD "" = ""
      · rw [there]
        decide
      · exact (state there).2.1

/-- What is missing has no size. -/
theorem size_getD_le {α : Type} (size : α → Nat) (a : α) (none : size a = 0) (o : Option α)
    (max : Nat) : size (o.getD a) ≤ max ↔ ∀ x ∈ o, size x ≤ max := by
  cases o <;> simp [none]

theorem kept_changeRules {limits : ChangeLimits} {c : Change} {i : Nat} :
    Rule.Kept (c.rules limits i) ↔ c.Fits limits := by
  have description := size_getD_le String.utf8ByteSize "" rfl
  have value := size_getD_le (@List.length UInt8) [] rfl
  simp only [Change.rules, Rule.kept_append, kept_textRules, kept_sizeRules, description, value]
  constructor
  · rintro ⟨⟨⟨name, text⟩, old⟩, new⟩
    exact ⟨name, text, old, new⟩
  · rintro ⟨name, text, old, new⟩
    exact ⟨⟨⟨name, text⟩, old⟩, new⟩

theorem kept_resourceRules {r : Resource} {limits : ResourceLimits} :
    Rule.Kept (r.rules limits) ↔ r.Fits limits := by
  have changes : Rule.Kept (r.changes.zipIdx.flatMap fun (c, i) => c.rules limits.changes i) ↔
      ∀ c ∈ r.changes, c.Fits limits.changes := by
    have each := List.forall_mem_map (f := Prod.fst) (l := r.changes.zipIdx)
      (P := (Change.Fits · limits.changes))
    rw [List.zipIdx_map_fst] at each
    simp only [Rule.kept_flatMap, kept_changeRules, each]
  simp only [Resource.rules, Rule.kept_append, kept_textRules, kept_mapRules, Rule.kept_singleton,
    decide_eq_true_eq, changes]
  constructor
  · rintro ⟨⟨⟨⟨kind, id⟩, metadata⟩, count⟩, each⟩
    exact ⟨kind, id, metadata, count, each⟩
  · rintro ⟨kind, id, metadata, count, each⟩
    exact ⟨⟨⟨⟨kind, id⟩, metadata⟩, count⟩, each⟩

theorem kept_operationRules {o : Operation} {limits : PartLimits} :
    Rule.Kept (o.rules limits) ↔ o.Fits limits := by
  simp only [Operation.rules, Rule.kept_append, kept_textRules, kept_timeRules, kept_mapRules,
    kept_traceRules]
  constructor
  · rintro ⟨⟨⟨⟨kind, id⟩, time⟩, metadata⟩, trace⟩
    exact ⟨kind, id, time, metadata, trace⟩
  · rintro ⟨kind, id, time, metadata, trace⟩
    exact ⟨⟨⟨⟨kind, id⟩, time⟩, metadata⟩, trace⟩

theorem kept_actorRules {a : Actor} {limits : PartLimits} :
    Rule.Kept (a.rules limits) ↔ a.Fits limits := by
  simp only [Actor.rules, Rule.kept_append, kept_textRules, kept_mapRules]
  constructor
  · rintro ⟨⟨kind, id⟩, metadata⟩
    exact ⟨kind, id, metadata⟩
  · rintro ⟨kind, id, metadata⟩
    exact ⟨⟨kind, id⟩, metadata⟩

theorem kept_recordRules {r : Record} {limits : RecordLimits} :
    Rule.Kept (r.rules limits) ↔ r.Fits limits := by
  simp only [Record.rules, Rule.kept_append, kept_mapRules, kept_resourceRules,
    kept_operationRules, kept_actorRules]
  constructor
  · rintro ⟨⟨⟨labels, resource⟩, operation⟩, actor⟩
    exact ⟨labels, resource, operation, actor⟩
  · rintro ⟨labels, resource, operation, actor⟩
    exact ⟨⟨⟨labels, resource⟩, operation⟩, actor⟩

end

/-- The check of a record passes just the records within the limits. Any other record fails with the
field and the message of the rule that is broken first, in the order of the fields. -/
theorem check_record_names_first_offender (r : Record) (limits : RecordLimits) :
    (Check.record r limits = .ok () ↔ r.Fits limits) ∧
    ∀ e, Check.record r limits = .error e ↔
      ∃ x : Rule, x.FirstBroken (r.rules limits) ∧ e = .invalidField x.field x.violation.message := by
  rw [Check.record_eq]
  exact ⟨Rule.check_eq_ok_iff.trans kept_recordRules, fun e => Rule.check_eq_error_iff⟩

/-- One letter of two bytes, against a limit of one, comes before the changes that are too many. -/
example :
    let r : Record := { (default : Record) with
      resource := ⟨"é", "", .empty, [default]⟩
      operation := { (default : Operation) with kind := "kind", id := "id" } }
    let limits : RecordLimits := { RecordLimits.default with
      labels := ⟨0, 0, 0⟩
      resource := ⟨1, 1, ⟨0, 0, 0⟩, ⟨0, 0, 0, 0, 0⟩⟩ }
    Check.record r limits = .error (.invalidField "resource.type" "must be at most 1 bytes") := by
  rfl

end AuditTrail
