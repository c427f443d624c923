import AuditTrail.Text.Positional
/-!
The `traceparent` header of a trace context: version, trace, span and flags as lower-case
hexadecimal fields. Later versions may append fields; version `00` has exactly these four.
-/
namespace AuditTrail.TraceParent

def isDigit (c : Char) : Bool :=
  ('0' ≤ c && c ≤ '9') || ('a' ≤ c && c ≤ 'f')

/-- The fields of a header and what follows them. -/
structure Fields where
  version : List Char
  trace : List Char
  span : List Char
  flags : List Char
  rest : List Char

/-- Takes exactly `n` digits. -/
def digits? (n : Nat) (cs : List Char) : Option (List Char × List Char) :=
  let ds := cs.take n
  if ds.length = n && ds.all isDigit then some (ds, cs.drop n) else none

def hyphen? : List Char → Option (List Char)
  | '-' :: r => some r
  | _ => none

/-- Divides a header into its fields. What follows the flags is empty, or begins with a hyphen and
stays on the line. -/
def fields? (cs : List Char) : Option Fields := do
  let (version, cs) ← digits? 2 cs
  let cs ← hyphen? cs
  let (trace, cs) ← digits? 32 cs
  let cs ← hyphen? cs
  let (span, cs) ← digits? 16 cs
  let cs ← hyphen? cs
  let (flags, rest) ← digits? 2 cs
  if rest.isEmpty || (rest.head? = some '-' && !rest.contains '\n') then
    some ⟨version, trace, span, flags, rest⟩
  else none

def isZero (ds : List Char) : Bool :=
  ds.all (· = '0')

/-- Whether the fields go together: version `ff` is reserved, trace and span are not zero, and
version `00` has no further fields and no flags above 2. -/
def Fields.isValid (f : Fields) : Bool :=
  f.version ≠ ['f', 'f']
    && !isZero f.trace && !isZero f.span
    && (!isZero f.version
      || (f.rest.isEmpty && (f.flags = ['0', '0'] || f.flags = ['0', '1'] || f.flags = ['0', '2'])))

def isValid (s : String) : Bool :=
  match fields? s.toList with
  | some f => f.isValid
  | none => false

end AuditTrail.TraceParent
