namespace BraceTemplate.Decimal

/-- The float nearest to `coefficient · 10 ^ power`, infinite where none is near. Far beyond the
range of floats the power itself is not computed. -/
def toFloat (coefficient : Nat) (power : Int) : Float :=
  let magnitude := power + (Nat.toDigits 10 coefficient).length
  if coefficient = 0 || magnitude < -400 then 0.0
  else if 400 < magnitude then 1.0 / 0.0
  else if power < 0 then Float.ofScientific coefficient true power.natAbs
  else Float.ofScientific coefficient false power.natAbs

def ofDigits (cs : List Char) : Nat := Nat.ofDigitChars 10 cs 0

theorem ofDigits_toDigits (n : Nat) : ofDigits (Nat.toDigits 10 n) = n :=
  Nat.ofDigitChars_toDigits (by decide) (by decide)

def takeSign : List Char → Bool × List Char
  | '-' :: cs => (true, cs)
  | '+' :: cs => (false, cs)
  | cs => (false, cs)

def readInt? (cs : List Char) : Option Int :=
  let (negative, digits) := takeSign cs
  if digits.isEmpty || !digits.all Char.isDigit then none
  else some (if negative then -(ofDigits digits : Int) else ofDigits digits)

def readUnsigned? (cs : List Char) : Option Float :=
  let (mantissa, rest) := cs.span (fun c => c != 'e' && c != 'E')
  let (whole, fraction) := mantissa.span (· != '.')
  let decimals := fraction.drop 1
  if (whole ++ decimals).isEmpty || !(whole ++ decimals).all Char.isDigit then none
  else
    let scaled (e : Int) := toFloat (ofDigits (whole ++ decimals)) (e - decimals.length)
    match rest with
    | [] => some (scaled 0)
    | _ :: ds => (readInt? ds).map scaled

/-- A float in decimal, or a word for an infinity or for no number, in any case. -/
def readFloat? (cs : List Char) : Option Float :=
  let (negative, cs) := takeSign cs
  let magnitude :=
    match String.ofList (cs.map Char.toLower) with
    | "inf" | "infinity" => some (1.0 / 0.0)
    | "nan" => some (0.0 / 0.0)
    | _ => readUnsigned? cs
  magnitude.map (fun x => if negative then -x else x)

end BraceTemplate.Decimal
