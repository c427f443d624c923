import AuditTrail.Limits.Check
import AuditTrail.Proofs.Result
import Mathlib.Algebra.Ring.Nat

/-! The rules for the parts of a record as a list in the order in which they are looked at. A check goes
through such a list and stops at the first rule that is broken; every check of a part is of that form,
and two checks one after the other go through both lists. -/
namespace AuditTrail

/-- A rule about a field, with what is said when it is broken. -/
structure Rule where
  field : String
  violation : Violation
  holds : Bool

namespace Rule

def error (x : Rule) : Error := .invalidField x.field x.violation.message

/-- Looks at rules up to the first that is broken. -/
def check : List Rule → Except Error Unit
  | [] => .ok ()
  | x :: rest => if x.holds then check rest else .error x.error

/-- All of the rules hold. -/
def Kept (rules : List Rule) : Prop := ∀ x ∈ rules, x.holds = true

/-- A rule comes first among those that are broken. -/
def FirstBroken (x : Rule) (rules : List Rule) : Prop :=
  ∃ before after, rules = before ++ x :: after ∧ Kept before ∧ x.holds = false

variable {rules : List Rule} {e : Error}

theorem kept_nil : Kept [] := by
  simp [Kept]

theorem kept_cons {x : Rule} : Kept (x :: rules) ↔ x.holds = true ∧ Kept rules :=
  List.forall_mem_cons

theorem kept_singleton {x : Rule} : Kept [x] ↔ x.holds = true :=
  List.forall_mem_singleton

theorem kept_append {xs ys : List Rule} : Kept (xs ++ ys) ↔ Kept xs ∧ Kept ys :=
  List.forall_mem_append

theorem kept_flatMap {α : Type} {l : List α} {rules : α → List Rule} :
    Kept (l.flatMap rules) ↔ ∀ a ∈ l, Kept (rules a) := by
  simp only [Kept, List.forall_mem_flatMap]

theorem check_eq_ok_iff : check rules = .ok () ↔ Kept rules := by
  induction rules with
  | nil => simp [check, kept_nil]
  | cons x rest ih =>
    rw [check, kept_cons]
    cases x.holds with
    | true => simpa using ih
    | false => simp

theorem firstBroken_cons {x y : Rule} : x.FirstBroken (y :: rules) ↔
    (y.holds = true ∧ x.FirstBroken rules) ∨ (y.holds = false ∧ x = y) := by
  constructor
  · rintro ⟨_ | ⟨first, before⟩, after, same, passed, broken⟩
    · obtain ⟨rfl, -⟩ := List.cons.inj same
      exact .inr ⟨broken, rfl⟩
    · obtain ⟨rfl, rfl⟩ := List.cons.inj same
      obtain ⟨first, passed⟩ := kept_cons.mp passed
      exact .inl ⟨first, before, after, rfl, passed, broken⟩
  · rintro (⟨first, before, after, rfl, passed, broken⟩ | ⟨broken, rfl⟩)
    · exact ⟨y :: before, after, rfl, kept_cons.mpr ⟨first, passed⟩, broken⟩
    · exact ⟨[], rules, rfl, kept_nil, broken⟩

/-- A check fails with the first broken rule. -/
theorem check_eq_error_iff : check rules = .error e ↔ ∃ x : Rule, x.FirstBroken rules ∧ e = x.error := by
  induction rules with
  | nil => simp [check, FirstBroken]
  | cons y rest ih =>
    rw [check]
    simp only [firstBroken_cons]
    cases y.holds with
    | true => simpa using ih
    | false => simp [eq_comm]

/-! Checks one after the other -/

theorem check_append (xs ys : List Rule) : check (xs ++ ys) = check xs >>= fun _ => check ys := by
  induction xs with
  | nil => rfl
  | cons x xs ih =>
    rw [List.cons_append, check, check]
    split
    · exact ih
    · rfl

theorem check_flatMap {α : Type} {l : List α} {c : α → Except Error Unit} {rules : α → List Rule}
    (each : ∀ a, c a = check (rules a)) : l.forM c = check (l.flatMap rules) := by
  induction l with
  | nil => rfl
  | cons a rest ih =>
    rw [List.flatMap_cons, check_append, ← each, ← ih]
    rfl

end Rule

namespace Check

variable {name : String}

theorem field_demand (name : String) (holds : Bool) (v : Violation) :
    field name (demand holds v) = Rule.check [⟨name, v, holds⟩] := by
  cases holds <;> rfl

theorem field_bind (name : String) (c d : Check) :
    field name (c >>= fun _ => d) = field name c >>= fun _ => field name d := by
  cases c <;> rfl

theorem mapError_demand (holds : Bool) (v : Violation) (g : Violation → Violation) :
    (demand holds v).mapError g = demand holds (g v) := by
  cases holds <;> rfl

theorem mapError_bind (c d : Check) (g : Violation → Violation) :
    (c >>= fun _ => d).mapError g = c.mapError g >>= fun _ => d.mapError g := by
  cases c <;> rfl

theorem field_forM {α : Type} (name : String) (l : List α) (c : α → Check) :
    field name (l.forM c) = l.forM fun a => field name (c a) := by
  induction l with
  | nil => rfl
  | cons a rest ih => exact (field_bind name (c a) (rest.forM c)).trans (by rw [ih]; rfl)

end Check

/-! The rules for values of one field -/

/-- A text that has to be there. -/
def textRules (name s : String) (max : Nat) : List Rule :=
  [⟨name, .empty, s ≠ ""⟩, ⟨name, .tooManyBytes max, s.utf8ByteSize ≤ max⟩]

def sizeRules (name : String) (size max : Nat) : List Rule :=
  [⟨name, .tooManyBytes max, size ≤ max⟩]

/-- The key of an entry, then its value. -/
def entryRules (name : String) (limits : MapLimits) (e : String × String) : List Rule :=
  [⟨name, .badKey e.1 .empty, e.1 ≠ ""⟩,
    ⟨name, .badKey e.1 .keyAlphabet, e.1.toList.all Check.isKeyChar⟩,
    ⟨name, .badKey e.1 (.tooManyBytes limits.key), e.1.utf8ByteSize ≤ limits.key⟩,
    ⟨name, .badValue e.1 (.tooManyBytes limits.value), e.2.utf8ByteSize ≤ limits.value⟩]

/-- The bytes of all keys and values. -/
def TextMap.size (m : TextMap) : Nat :=
  (m.entries.map fun e => e.1.utf8ByteSize + e.2.utf8ByteSize).sum

/-- The entries in the order of their keys, then their size. -/
def mapRules (name : String) (m : TextMap) (limits : MapLimits) : List Rule :=
  m.entries.flatMap (entryRules name limits) ++
    [⟨name, .tooManyBytesInTotal limits.total, m.size ≤ limits.total⟩]

def timeRules (name : String) (t : Instant) : List Rule :=
  [⟨name, .empty, t ≠ .epoch⟩, ⟨name, .noTime, 1 ≤ t.year ∧ t.year ≤ 9999⟩]

/-- The parent goes before the state. A header that is missing is an empty one. -/
def traceRules (name : String) (t : TraceContext) : List Rule :=
  let parent := t.parent.getD ""
  let state := t.state.getD ""
  [⟨name, .stateWithoutParent, parent = "" → state = ""⟩,
    ⟨name, .badParent, parent ≠ "" → TraceParent.isValid parent⟩,
    ⟨name, .stateTooLong Check.maxStateBytes, state.utf8ByteSize ≤ Check.maxStateBytes⟩,
    ⟨name, .badState, state ≠ "" → TraceState.isValid state⟩]

namespace Check

theorem field_maxBytes (name : String) (size max : Nat) :
    field name (maxBytes size max) = Rule.check (sizeRules name size max) :=
  field_demand name _ _

theorem isEmpty_eq (s : String) : (!s.isEmpty) = decide (s ≠ "") := by
  rw [Bool.eq_iff_iff]
  simp

theorem field_text (name s : String) (max : Nat) :
    field name (text s max) = Rule.check (textRules name s max) := by
  rw [text, field_bind, field_demand, field_maxBytes, ← Rule.check_append, isEmpty_eq]
  rfl

/-- The empty text is within any limit, so that it need not be looked at first. -/
theorem optionalText_eq (s : String) (max : Nat) :
    optionalText s max = maxBytes s.utf8ByteSize max := by
  unfold optionalText
  split
  · next empty =>
    obtain rfl := String.isEmpty_iff.mp empty
    rfl
  · rfl

theorem field_entry (name : String) (limits : MapLimits) (e : String × String) :
    field name (entry limits e) = Rule.check (entryRules name limits e) := by
  simp only [entry, key, optionalText_eq, maxBytes, mapError_bind, mapError_demand, field_bind,
    field_demand, ← Rule.check_append, isEmpty_eq]
  rfl

theorem entriesSize_eq (l : List (String × String)) :
    entriesSize l = (l.map fun e => e.1.utf8ByteSize + e.2.utf8ByteSize).sum := by
  induction l with
  | nil => rfl
  | cons e rest ih => rw [entriesSize, ih, List.map_cons, List.sum_cons]

theorem field_textMap (name : String) (m : TextMap) (limits : MapLimits) :
    field name (textMap m limits) = Rule.check (mapRules name m limits) := by
  rw [textMap, field_bind, field_forM, Rule.check_flatMap (field_entry name limits), field_demand,
    ← Rule.check_append, entriesSize_eq]
  rfl

theorem field_operationTime (name : String) (t : Instant) :
    field name (operationTime t) = Rule.check (timeRules name t) := by
  rw [operationTime, field_bind, field_demand, field_demand, ← Rule.check_append, timeRules,
    Bool.decide_and]
  rfl

theorem field_traceContext (name : String) (t : TraceContext) :
    field name (traceContext t) = Rule.check (traceRules name t) := by
  have lone (a b : String) : (!(a.isEmpty && !b.isEmpty)) = decide (a = "" → b = "") := by
    rw [Bool.eq_iff_iff]
    simp
  have valid (a : String) (b : Bool) : (a.isEmpty || b) = decide (a ≠ "" → b = true) := by
    rw [Bool.eq_iff_iff]
    simp [Decidable.or_iff_not_imp_left]
  simp only [traceContext, field_bind, field_demand, ← Rule.check_append, lone, valid]
  rfl

end Check

end AuditTrail
