import AuditTrail.Statement.Syntax
/-!
Values as a database server keeps and sends them. An instant is a whole number of microseconds
counted from the beginning of the year 2000, and a map is a document.
-/
namespace AuditTrail.Server

/-- How many bytes a whole number takes. -/
inductive Width where
  | four
  | eight
deriving DecidableEq

/-- Whether a number has room in a width. Numbers of eight bytes tell projects apart; they are not
bounded here, as if they did not run out. -/
def Width.Holds : Width → Int → Prop
  | four, n => Short n
  | eight, _ => True

instance (w : Width) (n : Int) : Decidable (w.Holds n) :=
  match w with
  | .four => inferInstanceAs (Decidable (Short n))
  | .eight => .isTrue trivial

/-- A value of a server. A document counts as far as it is an object of texts. -/
inductive Datum where
  | null
  | id (id : Id)
  | ids (ids : List Id)
  | moment (micros : Int)
  | text (s : String)
  | flag (b : Bool)
  | integer (width : Width) (n : Int)
  | document (m : Option TextMap)
  | bytes (bs : List UInt8)
deriving DecidableEq

def millennium : Int := 946684800

/-- The microseconds of an instant. What does not count is cut off toward the beginning of the
count, so earlier instants move up. A leap second counts as the second after it. -/
def microsOf (t : Instant) : Int :=
  ((t.seconds - millennium) * 1000000000 + t.nanos).tdiv 1000

/-- The instant of a number of microseconds, without regard to what instants exist. -/
def instantOf (micros : Int) : Instant :=
  ⟨millennium + micros / 1000000, (micros % 1000000).toNat * 1000⟩

/-- The first and the last year in which there are instants. -/
def yearRange : Int × Int := (-262143, 262142)

/-- The instant of a number of microseconds, if there is one. -/
def instantOf? (micros : Int) : Option Instant :=
  let t := instantOf micros
  if yearRange.1 ≤ t.year ∧ t.year ≤ yearRange.2 then some t else none

end AuditTrail.Server

namespace AuditTrail

def Flag.datum : Flag → Server.Datum
  | unset => .null
  | on => .flag true
  | off => .flag false

def Value.datum : Value → Server.Datum
  | null => .null
  | id i => .id i
  | ids is => .ids is
  | instant t => .moment (Server.microsOf t)
  | text s => .text s
  | flag f => f.datum
  | map m => .document (some m)
  | integer n => .integer .four n
  | count n => .integer .eight n
  | bytes bs => .bytes bs

end AuditTrail
