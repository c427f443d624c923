import AuditTrail.Json.Source
import AuditTrail.Json.Value
/-!
Writers and readers of typed values side by side. A structure is laid out as named fields over a
start value: reading replaces in it what the document has, so a member that is left out keeps its
default, and unknown members are not looked at.
-/
namespace AuditTrail.Json

/-- A writer of values and a reader of what it writes. -/
structure Codec (α : Type) where
  write : α → Json
  read? : Source → Option α

/-- A member of a structure. A required one may not be left out. -/
structure Field (σ : Type) where
  name : String
  required : Bool
  write : σ → Json
  read? : Source → σ → Option σ

def Field.of {σ α : Type} (name : String) (codec : Codec α) (get : σ → α) (set : α → σ → σ) :
    Field σ where
  name := name
  required := false
  write := fun s => codec.write (get s)
  read? := fun source s => (codec.read? source).map (set · s)

/-- The fields of a structure and the value that has every default. -/
structure Layout (σ : Type) where
  start : σ
  fields : List (Field σ)

/-- The values of the members with a name. A name that stands twice is refused. -/
def memberOf? (members : List (String × Source)) (name : String) : Option (Option Source) :=
  match members.filter (·.1 = name) with
  | [] => some none
  | [(_, s)] => some (some s)
  | _ => none

/-- The members of a structure in the order of their names. An array stands for the fields in that
order and may be shorter. -/
def Source.members? (names : List String) : Source → Option (List (Option Source))
  | .object members => do
    let members ← members.mapM fun (k, s) => (textOf? k).map fun k => (k, s)
    names.mapM (memberOf? members)
  | .array items =>
    if items.length ≤ names.length then
      some (items.map some ++ List.replicate (names.length - items.length) none)
    else none
  | _ => none

def Field.apply {σ : Type} (f : Field σ) (member : Option Source) (s : σ) : Option σ :=
  match member with
  | some source => f.read? source s
  | none => if f.required then none else some s

/-- Reads fields one after the other. -/
def readFields {σ : Type} : List (Field σ × Option Source) → σ → Option σ
  | [], s => some s
  | (f, member) :: rest, s => (f.apply member s).bind (readFields rest)

def Layout.codec {σ : Type} (layout : Layout σ) : Codec σ where
  write := fun s => .object (layout.fields.map fun f => (f.name, f.write s))
  read? := fun source =>
    (source.members? (layout.fields.map (·.name))).bind fun members =>
      readFields (layout.fields.zip members) layout.start

/-- Unsigned whole numbers up to a bound, without sign, fraction or exponent. -/
def unsigned (max : Nat) : Codec Nat where
  write := fun n => .number n
  read?
    | .number written => (Positional.natural? written).filter (· ≤ max)
    | _ => none

def truth : Codec Bool where
  write := .boolean
  read?
    | .boolean b => some b
    | _ => none

def textual : Codec String where
  write := .string
  read?
    | .string written => textOf? written
    | _ => none

/-- Values that may be absent, written as null. -/
def Codec.optional {α : Type} (codec : Codec α) : Codec (Option α) where
  write
    | some a => codec.write a
    | none => .null
  read?
    | .null => some none
    | source => (codec.read? source).map some

/-- Values with names. A name may also stand as the only member of an object, with null. -/
def named {α : Type} (name : α → String) (all : List α) : Codec α where
  write := fun a => .string (name a)
  read?
    | .string written => (textOf? written).bind fun s => all.find? (name · = s)
    | .object [(key, .null)] => (textOf? key).bind fun s => all.find? (name · = s)
    | _ => none

def Codec.ofText? {α : Type} (codec : Codec α) (s : String) : Option α :=
  (Source.read? (unitsOf s)).bind codec.read?

def max16 : Nat := 65535

def max32 : Nat := 4294967295

def max64 : Nat := 18446744073709551615

end AuditTrail.Json
