import AuditTrail.Json.Codec
import AuditTrail.Text.TextMap
/-!
Text maps as JSON objects whose members are all strings. Of members with the same key the last one
counts.
-/
namespace AuditTrail.Json

def entry? : Units × Source → Option (String × String)
  | (key, .string value) => do
    let k ← textOf? key
    let v ← textOf? value
    some (k, v)
  | _ => none

def textMap : Codec TextMap where
  write := fun m => .object (m.entries.map fun (k, v) => (k, .string v))
  read?
    | .object members => (members.mapM entry?).map TextMap.ofList
    | _ => none

def textMapText (m : TextMap) : String :=
  (textMap.write m).text

def textMapOf? (s : String) : Option TextMap :=
  textMap.ofText? s

end AuditTrail.Json
