import BraceTemplate.Decimal

namespace BraceTemplate

/-- A binary floating-point number above zero, `significand · 2 ^ exponent`. At the start of a
binade the number below it is half as far away as the number above. -/
structure Binary where
  significand : Nat
  exponent : Int
  startsBinade : Bool
deriving DecidableEq, Repr

namespace Binary

def ofBits (bits : UInt64) : Binary :=
  let fraction : Nat := bits.toNat % 0x10000000000000
  let field : Nat := bits.toNat / 0x10000000000000 % 0x800
  if field = 0 then ⟨fraction, -1074, false⟩
  else ⟨0x10000000000000 + fraction, (field : Int) - 1075, fraction = 0 && 1 < field⟩

/-- A number of quarter units of the last binary place, in units of `10 ^ power`, as a fraction. -/
def inUnits (b : Binary) (power : Int) (quarters : Nat) : Nat × Nat :=
  (quarters * Nat.pow 2 (b.exponent - 2).toNat * Nat.pow 10 (-power).toNat,
    Nat.pow 2 (2 - b.exponent).toNat * Nat.pow 10 power.toNat)

/-- Whether `coefficient · 10 ^ power` rounds to the number. The ends of the interval round to the
even significand. -/
def contains (b : Binary) (power : Int) (coefficient : Nat) : Bool :=
  let least := b.inUnits power (4 * b.significand - if b.startsBinade then 1 else 2)
  let greatest := b.inUnits power (4 * b.significand + 2)
  if b.significand % 2 = 0 then
    least.1 ≤ coefficient * least.2 && coefficient * greatest.2 ≤ greatest.1
  else least.1 < coefficient * least.2 && coefficient * greatest.2 < greatest.1

/-- The multiple of `10 ^ power` next to the number that rounds to it. Of two the nearer counts,
and of two equally near the even one. -/
def nearest? (b : Binary) (power : Int) : Option Nat :=
  let (value, unit) := b.inUnits power (4 * b.significand)
  let below := value / unit
  match b.contains power below, b.contains power (below + 1) with
  | true, true =>
    let twice := 2 * (value % unit)
    some (if twice < unit || (twice == unit && below % 2 == 0) then below else below + 1)
  | true, false => some below
  | false, true => some (below + 1)
  | false, false => none

def magnitude (b : Binary) : Int :=
  let (value, unit) := b.inUnits 0 (4 * b.significand)
  let guess : Int := (Nat.toDigits 10 value).length - (Nat.toDigits 10 unit).length
  let (value, unit) := b.inUnits guess (4 * b.significand)
  if unit ≤ value then guess else guess - 1

/-- The fewest digits that round to the number, at most seventeen. -/
def shortest? (b : Binary) : Option Decimal :=
  (List.range 17).findSome? (fun n =>
    let power := b.magnitude - (n : Nat)
    (b.nearest? power).map (Decimal.ofScaled · power))

end Binary

def Decimal.floatText (x : Float) : List Char :=
  let bits := x.toBits
  let sign := if 0x8000000000000000 ≤ bits.toNat then ['-'] else []
  let binary := Binary.ofBits bits
  if binary.significand = 0 then sign ++ ['0', '.', '0']
  else sign ++ ((binary.shortest?.map Decimal.text).getD [])

end BraceTemplate
