import AuditTrail.Text.Positional
/-!
Identifiers of projects and records: numbers of 128 bits, ordered as numbers. An identifier shows
as 32 lower-case hexadecimal digits in five hyphenated groups, or as its sixteen bytes.
-/
namespace AuditTrail

/-- The number of identifiers: the 128th power of two. -/
def Id.count : Nat := 0x100000000000000000000000000000000

/-- A number of 128 bits that names a project or a record. -/
structure Id where
  number : Nat
  number_lt : number < Id.count
deriving DecidableEq

namespace Id

def ofNat (n : Nat) : Id :=
  ⟨n % count, Nat.mod_lt _ (by decide)⟩

instance : Inhabited Id := ⟨ofNat 0⟩

instance : LT Id := ⟨fun a b => a.number < b.number⟩

instance : LE Id := ⟨fun a b => a.number ≤ b.number⟩

instance (a b : Id) : Decidable (a < b) := inferInstanceAs (Decidable (a.number < b.number))

instance (a b : Id) : Decidable (a ≤ b) := inferInstanceAs (Decidable (a.number ≤ b.number))

def nil : Id := ofNat 0

theorem ext_number {a b : Id} (h : a.number = b.number) : a = b := by
  cases a; cases b; simp_all

def hexDigits (id : Id) : List Char :=
  (Positional.digits 16 32 id.number).map Positional.digitChar

/-- The sixteen bytes, highest first. -/
def bytes (id : Id) : List Nat :=
  Positional.digits 256 16 id.number

/-- Puts hyphens after the digits 8, 12, 16 and 20. -/
def hyphenate (ds : List Char) : List Char :=
  ds.take 8 ++ '-' :: (ds.drop 8).take 4 ++ '-' :: (ds.drop 12).take 4
    ++ '-' :: (ds.drop 16).take 4 ++ '-' :: ds.drop 20

def text (id : Id) : String :=
  String.ofList (hyphenate id.hexDigits)

/-- The identifier with the given bytes, if there are sixteen and each is below 256. -/
def ofBytes? (bs : List Nat) : Option Id :=
  if bs.length = 16 ∧ bs.all (· < 256) then some (ofNat (Positional.value 256 bs)) else none

/-- Ascending order; equal identifiers stay. -/
def sort (ids : List Id) : List Id :=
  ids.mergeSort (fun a b => decide (a ≤ b))

end Id

end AuditTrail
