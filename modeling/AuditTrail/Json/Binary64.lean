import AuditTrail.Text.Positional
/-!
Non-negative binary floating point numbers with 53 digits, as a reader of decimal numbers keeps
them: exact rounding of ratios, products and quotients, and the shortest decimal that is rounded
back to a number. All in exact natural arithmetic.
-/
namespace AuditTrail.Json

/-- The number `mantissa · 2 ^ exponent`. -/
structure Binary64 where
  mantissa : Nat
  exponent : Int
deriving DecidableEq, Repr

namespace Binary64

/-- The least exponent, which numbers close to zero share. -/
def leastExponent : Int := -1074

def greatestExponent : Int := 971

/-- The least mantissa of a number with an exponent above the least: the 52nd power of two. -/
def leastMantissa : Nat := 4503599627370496

def zero : Binary64 := ⟨0, leastExponent⟩

def isFinite (x : Binary64) : Bool :=
  x.exponent ≤ greatestExponent

def scaled (num den : Nat) (e : Int) : Nat × Nat :=
  (num <<< e.toNat, den <<< (-e).toNat)

/-- The whole number nearest to a ratio, of two the even one. -/
def nearestWhole (num den : Nat) : Nat :=
  let (q, r) := (num / den, num % den)
  if den < 2 * r ∨ (den = 2 * r ∧ q % 2 = 1) then q + 1 else q

/-- The number nearest to a ratio. Its range is not limited above. -/
def nearest (num den : Nat) : Binary64 :=
  if num = 0 then zero
  else
    let guess : Int := (num.log2 : Int) - den.log2 - 52
    let (n, d) := scaled num den (-guess)
    let e := max (if n / d < leastMantissa then guess - 1 else guess) leastExponent
    let (n, d) := scaled num den (-e)
    let m := nearestWhole n d
    if m = 2 * leastMantissa then ⟨leastMantissa, e + 1⟩ else ⟨m, e⟩

def times (x y : Binary64) : Binary64 :=
  let (n, d) := scaled (x.mantissa * y.mantissa) 1 (x.exponent + y.exponent)
  nearest n d

def dividedBy (x y : Binary64) : Binary64 :=
  let (n, d) := scaled x.mantissa y.mantissa (x.exponent - y.exponent)
  nearest n d

def maxTens : Nat := 308

def tens (n : Nat) : Binary64 :=
  nearest (Nat.pow 10 n) 1

/-- Divides by a power of ten, by the greatest one within range at a time. -/
def overTens (x : Binary64) (n : Nat) : Binary64 :=
  if n ≤ maxTens then x.dividedBy (tens n)
  else if x.mantissa = 0 then x
  else (x.dividedBy (tens maxTens)).overTens (n - maxTens)
termination_by n
decreasing_by rename_i h _; simp only [maxTens] at *; omega

/-- Reads `significand · 10 ^ power` in two rounded steps: the significand, then its product or
quotient with the power of ten. None if that is out of range. -/
def ofDecimal? (significand : Nat) (power : Int) : Option Binary64 :=
  let x := nearest significand 1
  if x.mantissa = 0 then some x
  else if 0 ≤ power then
    if power ≤ maxTens then some (x.times (tens power.toNat)) |>.filter isFinite else none
  else some (x.overTens power.natAbs)

/-- The point of the grid of whole multiples of `10 ^ g` that is nearest to a number above zero
among those that are rounded to it, as a multiple. Of two equally near the even one. -/
def onGrid? (x : Binary64) (g : Int) : Option Nat :=
  let (a, b) := scaled 1 1 (x.exponent - 2)
  let unit := b * Nat.pow 10 g.toNat
  let quarter := a * Nat.pow 10 (-g).toNat
  let below := if x.mantissa = leastMantissa ∧ leastExponent < x.exponent then 1 else 2
  let isClose (k : Nat) : Bool :=
    let (low, high) := ((4 * x.mantissa - below) * quarter, (4 * x.mantissa + 2) * quarter)
    if x.mantissa % 2 = 0 then low ≤ k * unit && k * unit ≤ high
    else low < k * unit && k * unit < high
  let k := 4 * x.mantissa * quarter / unit
  let best := nearestWhole (4 * x.mantissa * quarter) unit
  if isClose best then some best
  else [k, k + 1].find? isClose

/-- The first grid from `10 ^ g` downwards that has a point that is rounded to a number. -/
def coarsest (x : Binary64) : Nat → Int → Nat × Int
  | 0, g => (((x.onGrid? g).getD 0), g)
  | fuel + 1, g =>
    match x.onGrid? g with
    | some k => (k, g)
    | none => x.coarsest fuel (g - 1)

/-- The shortest decimal that is rounded to the number, as a whole number times a power of ten.
The search starts above the number, at the power of ten that its binary digits give, and no number
needs more than 17 digits. -/
def shortest (x : Binary64) : Nat × Int :=
  if x.mantissa = 0 then (0, 0)
  else x.coarsest 22 ((x.exponent + x.mantissa.log2 + 1) * 30103 / 100000 + 1)

/-- The shortest decimal as a text: positional for moderate sizes, else with an exponent, and
always with a point or an exponent. -/
def text (x : Binary64) : String :=
  let (k, g) := x.shortest
  let all := Positional.decimal k
  let ds := (all.reverse.dropWhile (· = '0')).reverse
  let point : Int := all.length + g
  let chars : List Char :=
    if ds.isEmpty then ['0', '.', '0']
    else if ds.length ≤ point ∧ point ≤ 16 then
      ds ++ List.replicate (point.toNat - ds.length) '0' ++ ['.', '0']
    else if 0 < point ∧ point ≤ 16 then ds.take point.toNat ++ '.' :: ds.drop point.toNat
    else if -5 < point ∧ point ≤ 0 then '0' :: '.' :: List.replicate point.natAbs '0' ++ ds
    else
      let mantissa := match ds with
        | d :: e :: r => d :: '.' :: e :: r
        | ds => ds
      let power := point - 1
      mantissa ++ 'e' :: (if power < 0 then '-' else '+') :: Positional.decimal power.natAbs
  String.ofList chars

end Binary64

end AuditTrail.Json
