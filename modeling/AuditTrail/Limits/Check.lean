import AuditTrail.Error
import AuditTrail.Limits
import AuditTrail.Record
import AuditTrail.Trace.Parent
import AuditTrail.Trace.State
/-!
Checks of values against limits. Each check gives the first violation; the check of a record goes
through its fields in a fixed order and names the field of the first violation.
-/
namespace AuditTrail

/-- A violated rule. -/
inductive Violation where
  | empty
  | tooManyBytes (max : Nat)
  | keyAlphabet
  | badKey (key : String) (violation : Violation)
  | badValue (key : String) (violation : Violation)
  | tooManyBytesInTotal (max : Nat)
  | tooManyChanges (max : Nat)
  | noTime
  | stateWithoutParent
  | badParent
  | stateTooLong (max : Nat)
  | badState
  | tooFewCharacters (min : Nat)
  | tooManyCharacters (max : Nat)

namespace Violation

def message : Violation → String
  | empty => "must not be empty"
  | tooManyBytes n => "must be at most " ++ toString n ++ " bytes"
  | keyAlphabet => "must match regexp [a-zA-Z0-9-_]+"
  | badKey key v => "key " ++ Quoted.quote key ++ " is invalid: " ++ v.message
  | badValue key v => "value for key " ++ Quoted.quote key ++ " is invalid: " ++ v.message
  | tooManyBytesInTotal n =>
    "total size of all keys and values must be at most " ++ toString n ++ " bytes"
  | tooManyChanges n => "must not exceed the limit of " ++ toString n ++ " changes"
  | noTime => "must be valid time"
  | stateWithoutParent => "\"tracestate\" can be provided only if \"traceparent\" is provided"
  | badParent => "invalid \"traceparent\": must be valid W3C traceparent"
  | stateTooLong n =>
    "invalid \"tracestate\": must not exceed maximum length of " ++ toString n ++ " bytes"
  | badState => "invalid \"tracestate\": must be valid W3C tracestate"
  | tooFewCharacters n => "must not be shorter than " ++ toString n ++ " characters"
  | tooManyCharacters n => "must not be longer than " ++ toString n ++ " characters"

end Violation

abbrev Check := Except Violation Unit

namespace Check

def demand (holds : Bool) (v : Violation) : Check :=
  if holds then .ok () else .error v

/-- At most `max` bytes. -/
def maxBytes (size max : Nat) : Check :=
  demand (size ≤ max) (.tooManyBytes max)

def text (s : String) (max : Nat) : Check := do
  demand (!s.isEmpty) .empty
  maxBytes s.utf8ByteSize max

/-- A text that may be empty, whatever the limit. -/
def optionalText (s : String) (max : Nat) : Check :=
  if s.isEmpty then .ok () else maxBytes s.utf8ByteSize max

def bytes (b : List UInt8) (max : Nat) : Check :=
  maxBytes b.length max

def isKeyChar (c : Char) : Bool :=
  ('a' ≤ c && c ≤ 'z') || ('A' ≤ c && c ≤ 'Z') || ('0' ≤ c && c ≤ '9') || c = '-' || c = '_'

def key (s : String) (limits : MapLimits) : Check := do
  demand (!s.isEmpty) .empty
  demand (s.toList.all isKeyChar) .keyAlphabet
  maxBytes s.utf8ByteSize limits.key

def entry (limits : MapLimits) (e : String × String) : Check := do
  (key e.1 limits).mapError (.badKey e.1)
  (optionalText e.2 limits.value).mapError (.badValue e.1)

def entriesSize : List (String × String) → Nat
  | [] => 0
  | e :: rest => e.1.utf8ByteSize + e.2.utf8ByteSize + entriesSize rest

/-- A map of texts: its entries in order, then its size. -/
def textMap (m : TextMap) (limits : MapLimits) : Check := do
  m.entries.forM (entry limits)
  demand (entriesSize m.entries ≤ limits.total) (.tooManyBytesInTotal limits.total)

def changeCount (changes : List Change) (limits : ChangeLimits) : Check :=
  demand (changes.length ≤ limits.count) (.tooManyChanges limits.count)

/-- The time of an operation. The epoch counts as missing, and the year has to have four digits. -/
def operationTime (t : Instant) : Check := do
  demand (t ≠ Instant.epoch) .empty
  demand (1 ≤ t.year && t.year ≤ 9999) .noTime

def maxStateBytes : Nat := 512

/-- Trace headers. A missing one is like an empty one, and the state needs the parent. -/
def traceContext (t : TraceContext) : Check := do
  let parent := t.parent.getD ""
  let state := t.state.getD ""
  demand (!(parent.isEmpty && !state.isEmpty)) .stateWithoutParent
  demand (parent.isEmpty || TraceParent.isValid parent) .badParent
  demand (state.utf8ByteSize ≤ maxStateBytes) (.stateTooLong maxStateBytes)
  demand (state.isEmpty || TraceState.isValid state) .badState

def minNameChars : Nat := 3

def maxNameChars : Nat := 64

def displayName (s : String) : Check := do
  demand (!s.isEmpty) .empty
  demand (minNameChars ≤ s.length) (.tooFewCharacters minNameChars)
  demand (s.length ≤ maxNameChars) (.tooManyCharacters maxNameChars)

def field (name : String) (c : Check) : Except Error Unit :=
  c.mapError fun v => .invalidField name v.message

def change (limits : ChangeLimits) (c : Change) (i : Nat) : Except Error Unit := do
  let path (name : String) := "resource.changes[" ++ toString i ++ "]." ++ name
  field (path "name") (text c.name limits.name)
  field (path "description") (optionalText (c.description.getD "") limits.description)
  field (path "old_value") (bytes (c.oldValue.getD []) limits.oldValue)
  field (path "new_value") (bytes (c.newValue.getD []) limits.newValue)

def resource (r : Resource) (limits : ResourceLimits) : Except Error Unit := do
  field "resource.type" (text r.kind limits.kind)
  field "resource.id" (text r.id limits.id)
  field "resource.metadata" (textMap r.metadata limits.metadata)
  field "resource.changes" (changeCount r.changes limits.changes)
  r.changes.zipIdx.forM fun (c, i) => change limits.changes c i

def operation (o : Operation) (limits : PartLimits) : Except Error Unit := do
  field "operation.type" (text o.kind limits.kind)
  field "operation.id" (text o.id limits.id)
  field "operation.time" (operationTime o.time)
  field "operation.metadata" (textMap o.metadata limits.metadata)
  field "operation.trace_context" (traceContext o.trace)

def actor (a : Actor) (limits : PartLimits) : Except Error Unit := do
  field "actor.type" (text a.kind limits.kind)
  field "actor.id" (text a.id limits.id)
  field "actor.metadata" (textMap a.metadata limits.metadata)

def record (r : Record) (limits : RecordLimits) : Except Error Unit := do
  field "labels" (textMap r.labels limits.labels)
  resource r.resource limits.resource
  operation r.operation limits.operation
  actor r.actor limits.actor

end Check

def checkDisplayName (s : String) : Except Error Unit :=
  Check.field "display_name" (Check.displayName s)

end AuditTrail
