import AuditTrail.Json.TextMap
import AuditTrail.Project
import AuditTrail.Record
import AuditTrail.Text.Utf8
import AuditTrail.Time.Written
/-!
Projects and records as the documents that clients see. Members are in the order of their names.
-/
namespace AuditTrail

namespace Document

def instant (t : Instant) : Json := .string t.short

/-- A flag; an open one is null. -/
def flag (f : Flag) : Json :=
  match f.toOption with
  | some b => .boolean b
  | none => .null

/-- Bytes as text, since most values are JSON texts. Whatever is no text shows as replacement
characters. -/
def shownBytes : Option (List UInt8) → Json
  | some bs => .string (Utf8.decodeReplacing bs)
  | none => .null

/-- A change, with a choice of how its values show. -/
def change (bytes : Option (List UInt8) → Json) (c : Change) : Json :=
  .object [
    ("description", .ofOption c.description),
    ("name", .string c.name),
    ("new_value", bytes c.newValue),
    ("old_value", bytes c.oldValue)]

def project (p : Project) : Json :=
  .object [
    ("create_time", instant p.createTime),
    ("delete_record_enabled", flag p.deleteRecords),
    ("display_name", .string p.displayName),
    ("id", .string p.id.text),
    ("update_record_enabled", flag p.updateRecords)]

/-- A record, with a choice of how the values of its changes show. -/
def record (bytes : Option (List UInt8) → Json) (r : Record) : Json :=
  .object [
    ("actor", .object [
      ("id", .string r.actor.id),
      ("metadata", Json.textMap.write r.actor.metadata),
      ("type", .string r.actor.kind)]),
    ("create_time", instant r.createTime),
    ("id", .string r.id.text),
    ("labels", Json.textMap.write r.labels),
    ("operation", .object [
      ("id", .string r.operation.id),
      ("metadata", Json.textMap.write r.operation.metadata),
      ("status", .string r.operation.status.name),
      ("time", instant r.operation.time),
      ("trace_context", .object [
        ("traceparent", .ofOption r.operation.trace.parent),
        ("tracestate", .ofOption r.operation.trace.state)]),
      ("type", .string r.operation.kind)]),
    ("project_id", .string r.project.text),
    ("resource", .object [
      ("changes", .array (r.resource.changes.map (change bytes))),
      ("id", .string r.resource.id),
      ("metadata", Json.textMap.write r.resource.metadata),
      ("type", .string r.resource.kind)])]

/-- A page of items and the token of the next one, which is empty if there is none. -/
def page (key : String) (items : List Json) (token : String) : Json :=
  .object [("next_page_token", .string token), (key, .array items)]

end Document

end AuditTrail
