namespace BraceTemplate

/-- A number above zero in decimal: the digits `d₁ d₂ … dₙ` stand for
`d₁.d₂…dₙ · 10 ^ exponent`. -/
structure Decimal where
  digits : List Char
  exponent : Int
deriving DecidableEq, Repr

namespace Decimal

def ofScaled (coefficient : Nat) (power : Int) : Decimal :=
  let digits := Nat.toDigits 10 coefficient
  ⟨(digits.reverse.dropWhile (· == '0')).reverse, power + digits.length - 1⟩

def positionalText (d : Decimal) : List Char :=
  if d.exponent < 0 then
    '0' :: '.' :: (List.replicate (-d.exponent - 1).toNat '0' ++ d.digits)
  else
    let whole := d.exponent.toNat + 1
    if whole < d.digits.length then d.digits.take whole ++ '.' :: d.digits.drop whole
    else d.digits ++ List.replicate (whole - d.digits.length) '0' ++ ['.', '0']

def exponentText (e : Int) : List Char :=
  'e' :: (if e < 0 then '-' else '+') :: Nat.toDigits 10 e.natAbs

def scientificText (d : Decimal) : List Char :=
  (match d.digits with
    | c :: cs@(_ :: _) => c :: '.' :: cs
    | cs => cs) ++ exponentText d.exponent

/-- Positional from 0.00001 up to sixteen digits before the point, with an exponent mark beyond. -/
def text (d : Decimal) : List Char :=
  if -5 ≤ d.exponent && d.exponent ≤ 15 then d.positionalText else d.scientificText

end Decimal
end BraceTemplate
