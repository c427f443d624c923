import AuditTrail.Error
import AuditTrail.Id.Codec
import AuditTrail.Project
import AuditTrail.Record
import AuditTrail.Text.Base64
import AuditTrail.Text.Utf8
import AuditTrail.Time.Relaxed
/-!
Pages of listings. A cursor holds the sort key of the last entry that a client has seen; it travels
as a token, the URL-safe base64 text of a small JSON document. The empty token stands for the empty
cursor: as an answer it says that there are no further pages, as a question it asks for the first.
-/
namespace AuditTrail

open Json

/-- Instants inside tokens: written in the short form and read generously. -/
def Instant.codec : Codec Instant where
  write := fun t => .string t.short
  read? := fun source => (textual.read? source).bind readRelaxed?

namespace Page

/-- The number of entries that a page may have when nobody asks for a number. -/
def defaultLimit : Nat := 10

def maxLimit : Nat := 100

/-- The number of entries on a page for which `n` are asked; zero asks for no particular number. -/
def limit (n : Nat) : Nat :=
  if n = 0 then defaultLimit else min n maxLimit

/-- A kind of cursor: its document, and whether a cursor may be handed out. -/
structure Format (α : Type) where
  layout : Layout α
  isEmpty : α → Bool
  isComplete : α → Bool

namespace Format

/-- The document of a cursor. Fields that are not set are left out. -/
def document {α : Type} (f : Format α) (c : α) : Json :=
  .object ((f.layout.fields.map fun field => (field.name, field.write c)).filter fun
    | (_, .null) => false
    | _ => true)

def encode {α : Type} (f : Format α) (c : α) : String :=
  if f.isEmpty c then ""
  else String.ofList (Base64.encode (Utf8.encode (f.document c).text))

def read? {α : Type} (f : Format α) (token : String) : Option α := do
  let bytes ← Base64.decode? token.toList
  let source ← Source.read? (Utf8.units bytes)
  let c ← f.layout.codec.read? source
  if f.isComplete c then some c else none

def decode {α : Type} (f : Format α) (token : String) : Except Error α :=
  if token = "" then .ok f.layout.start
  else match f.read? token with
    | some c => .ok c
    | none => .error (.invalidCursor token)

end Format

/-- The last entry of a page after which another page may follow. A page shorter than the limit is
the last one. -/
def last? {α : Type} (entries : List α) (limit : Nat) : Option α :=
  if entries.length < limit then none else entries.getLast?

end Page

/-- A place in a listing of projects, which descends by identifier. -/
structure ProjectCursor where
  lastId : Option Id
deriving DecidableEq, Inhabited

namespace ProjectCursor

def start : ProjectCursor := ⟨none⟩

def idField : String := "lid"

def format : Page.Format ProjectCursor where
  layout := {
    start := start
    fields := [.of idField Id.codec.optional lastId (fun id c => { c with lastId := id })] }
  isEmpty := fun c => c.lastId.isNone
  isComplete := fun _ => true

def encode (c : ProjectCursor) : String := format.encode c

def decode (token : String) : Except Error ProjectCursor := format.decode token

def nextPage (projects : List Project) (limit : Nat) : ProjectCursor :=
  ⟨(Page.last? projects limit).map (·.id)⟩

end ProjectCursor

/-- A place in a listing of records, which descends by operation time and then by identifier. Either
both parts are set or none, but a client may send one alone. -/
structure RecordCursor where
  lastTime : Option Instant
  lastId : Option Id
deriving DecidableEq, Inhabited

namespace RecordCursor

def start : RecordCursor := ⟨none, none⟩

def isEmpty (c : RecordCursor) : Bool :=
  c.lastTime.isNone && c.lastId.isNone

def isComplete (c : RecordCursor) : Bool :=
  c.lastTime.isSome = c.lastId.isSome

def format : Page.Format RecordCursor where
  layout := {
    start := start
    fields := [
      .of "lot" Instant.codec.optional lastTime (fun t c => { c with lastTime := t }),
      .of ProjectCursor.idField Id.codec.optional lastId (fun id c => { c with lastId := id })] }
  isEmpty := isEmpty
  isComplete := isComplete

def encode (c : RecordCursor) : String := format.encode c

def decode (token : String) : Except Error RecordCursor := format.decode token

def nextPage (records : List Record) (limit : Nat) : RecordCursor :=
  match Page.last? records limit with
  | some r => ⟨some r.operation.time, some r.id⟩
  | none => start

/-- The sort key after which a page begins, if the cursor has one. -/
def keyset (c : RecordCursor) : Except Error (Option (Instant × Id)) :=
  match c.lastTime, c.lastId with
  | some t, some id => .ok (some (t, id))
  | none, none => .ok none
  | _, _ => .error (.invalidCursor c.encode)

end RecordCursor

end AuditTrail
