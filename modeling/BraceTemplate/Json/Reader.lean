import BraceTemplate.Json.ReadError
import BraceTemplate.Json.Value

namespace BraceTemplate.Json

structure Failure where
  cause : Cause
  rest : List UInt8

/-- A value that is kept must have a value in the data model; of one that is skipped only the
grammar is checked. -/
inductive Mode
  | keep
  | skip
deriving DecidableEq

def Mode.endInNumber : Mode → Cause
  | keep => .endInValue
  | skip => .invalidNumber

/-- A reader of an `α`: what it read and the bytes that follow, or a failure. -/
abbrev Reader (α : Type) := List UInt8 → Except Failure (α × List UInt8)

def fail {α : Type} (cause : Cause) (rest : List UInt8) : Except Failure α := .error ⟨cause, rest⟩

def ascii (c : Char) : UInt8 := c.toNat.toUInt8

def isBlankByte (b : UInt8) : Bool :=
  b = ascii ' ' || b = ascii '\n' || b = ascii '\t' || b = ascii '\r'

def isDigitByte (b : UInt8) : Bool := ascii '0' ≤ b && b ≤ ascii '9'

def skipBlanks (rest : List UInt8) : List UInt8 := rest.dropWhile isBlankByte

def digitChars (bytes : List UInt8) : List Char := bytes.map (fun b => Char.ofNat b.toNat)

def readWord : List Char → List UInt8 → Except Failure (List UInt8)
  | [], rest => .ok rest
  | _ :: _, [] => fail .endInValue []
  | c :: cs, b :: rest => if b = ascii c then readWord cs rest else fail .expectedWord rest

/-- No leading zero before another digit. -/
def readWhole (mode : Mode) : Reader (List UInt8)
  | [] => fail mode.endInNumber []
  | b :: after =>
    if !isDigitByte b then fail .invalidNumber after
    else
      let (more, rest) := after.span isDigitByte
      if b = ascii '0' && !more.isEmpty then fail .invalidNumber (after.drop 1)
      else .ok (b :: more, rest)

def readFraction (mode : Mode) : Reader (Option (List UInt8))
  | [] => .ok (none, [])
  | b :: after =>
    if b ≠ ascii '.' then .ok (none, b :: after)
    else
      match after.span isDigitByte with
      | ([], []) => fail mode.endInNumber []
      | ([], _ :: rest) => fail .invalidNumber rest
      | (digits, rest) => .ok (some digits, rest)

/-- The digits behind the one that takes an exponent above `2 ^ 31 - 1`. -/
def excess? (digits : List UInt8) : Option (List UInt8) :=
  ((List.range (digits.length + 1)).find? (fun n =>
    0x7FFFFFFF < Decimal.ofDigits (digitChars (digits.take n)))).map (digits.drop ·)

/-- The exponent behind its mark, if there is one. It can be too large for a coefficient other
than zero. -/
def readExponent (mode : Mode) (coefficient : Nat) : Reader (Option Int)
  | [] => .ok (none, [])
  | b :: after =>
    if b ≠ ascii 'e' && b ≠ ascii 'E' then .ok (none, b :: after)
    else
      let (negative, after) :=
        match after with
        | s :: tail =>
          if s = ascii '-' then (true, tail)
          else if s = ascii '+' then (false, tail)
          else (false, after)
        | [] => (false, [])
      match after.span isDigitByte with
      | ([], []) => fail mode.endInNumber []
      | ([], _ :: rest) => fail .invalidNumber rest
      | (digits, rest) =>
        let e : Int := Decimal.ofDigits (digitChars digits)
        if mode = .skip || coefficient = 0 || negative then
          .ok (some (if negative then -e else e), rest)
        else
          match excess? digits with
          | some left => fail .numberOutOfRange (left ++ rest)
          | none => .ok (some e, rest)

/-- A number behind its sign. Without point and exponent it is an integer if it fits; negative
zero is a float. -/
def readNumber (mode : Mode) (negative : Bool) : Reader Number := fun rest => do
  let (whole, rest) ← readWhole mode rest
  let (fraction, rest) ← readFraction mode rest
  let decimals := fraction.getD []
  let coefficient := Decimal.ofDigits (digitChars (whole ++ decimals))
  let (exponent, rest) ← readExponent mode coefficient rest
  let integer : Int := if negative then -(coefficient : Int) else coefficient
  if fraction.isNone && exponent.isNone && fitsInt integer && !(negative && coefficient = 0) then
    .ok (.int integer, rest)
  else
    let x := Decimal.toFloat coefficient (exponent.getD 0 - decimals.length)
    if mode = .keep && !x.isFinite then fail .numberOutOfRange rest
    else .ok (.float (if negative then -x else x), rest)

def hexDigit? (b : UInt8) : Option Nat :=
  if isDigitByte b then some (b.toNat - 48)
  else if ascii 'a' ≤ b && b ≤ ascii 'f' then some (b.toNat - 87)
  else if ascii 'A' ≤ b && b ≤ ascii 'F' then some (b.toNat - 55)
  else none

def readHex : Reader Nat
  | a :: b :: c :: d :: rest =>
    match hexDigit? a, hexDigit? b, hexDigit? c, hexDigit? d with
    | some a, some b, some c, some d => .ok (((a * 16 + b) * 16 + c) * 16 + d, rest)
    | _, _, _, _ => fail .invalidEscape rest
  | _ => fail .endInString []

def readByte (expected : Char) : List UInt8 → Except Failure (List UInt8)
  | [] => fail .endInString []
  | b :: rest => if b = ascii expected then .ok rest else fail .unexpectedEndOfEscape rest

def utf8 (n : Nat) : List UInt8 := (String.singleton (Char.ofNat n)).toUTF8.toList

/-- A numbered escape behind its mark. A character beyond U+FFFF is written as two surrogates. -/
def readUnicode (mode : Mode) : Reader (List UInt8) := fun rest => do
  let (high, rest) ← readHex rest
  if mode = .skip then .ok ([], rest)
  else if 0xDC00 ≤ high && high ≤ 0xDFFF then fail .loneSurrogate rest
  else if high < 0xD800 || 0xDBFF < high then .ok (utf8 high, rest)
  else
    let rest ← readByte '\\' rest
    let rest ← readByte 'u' rest
    let (low, rest) ← readHex rest
    if low < 0xDC00 || 0xDFFF < low then fail .loneSurrogate rest
    else .ok (utf8 (0x10000 + (high - 0xD800) * 0x400 + (low - 0xDC00)), rest)

def readEscape (mode : Mode) : Reader (List UInt8)
  | [] => fail .endInString []
  | b :: rest =>
    match Char.ofNat b.toNat with
    | '"' | '\\' | '/' => .ok ([b], rest)
    | 'b' => .ok ([8], rest)
    | 'f' => .ok ([12], rest)
    | 'n' => .ok ([10], rest)
    | 'r' => .ok ([13], rest)
    | 't' => .ok ([9], rest)
    | 'u' => readUnicode mode rest
    | _ => fail .invalidEscape rest

/-- The bytes of a string behind its opening quote. The fuel bounds the number of its parts. -/
def readStringBytes (mode : Mode) : Nat → Reader (List UInt8)
  | 0, rest => fail .endInString rest
  | _ + 1, [] => fail .endInString []
  | fuel + 1, b :: rest =>
    if b = ascii '"' then .ok ([], rest)
    else if b = ascii '\\' then do
      let (bytes, rest) ← readEscape mode rest
      let (more, rest) ← readStringBytes mode fuel rest
      .ok (bytes ++ more, rest)
    else if b < 32 then
      fail .controlCharacter (if mode = .keep then rest else b :: rest)
    else do
      let (more, rest) ← readStringBytes mode fuel rest
      .ok (b :: more, rest)

def readString (mode : Mode) : Reader String := fun rest => do
  let (bytes, rest) ← readStringBytes mode (rest.length + 1) rest
  .ok ((String.fromUTF8? ⟨bytes.toArray⟩).getD "", rest)

def readColon (rest : List UInt8) : Except Failure (List UInt8) :=
  match skipBlanks rest with
  | [] => fail .endInObject []
  | b :: rest => if b = ascii ':' then .ok rest else fail .expectedColon rest

mutual

/-- The next value. The fuel bounds the depth and the number of the values inside it. -/
def readValue (mode : Mode) : Nat → Reader Value
  | 0, rest => fail .endInValue rest
  | fuel + 1, rest =>
    match skipBlanks rest with
    | [] => fail .endInValue []
    | b :: rest =>
      match Char.ofNat b.toNat with
      | 'n' => do .ok (.null, ← readWord ['u', 'l', 'l'] rest)
      | 't' => do .ok (.bool true, ← readWord ['r', 'u', 'e'] rest)
      | 'f' => do .ok (.bool false, ← readWord ['a', 'l', 's', 'e'] rest)
      | '"' => do
        let (s, rest) ← readString mode rest
        .ok (.string s, rest)
      | '[' => do
        let (items, rest) ← readItems mode fuel true rest
        .ok (.array items, rest)
      | '{' => do
        let (members, rest) ← readMembers mode fuel true rest
        .ok (Value.ofMembers members, rest)
      | '-' => do
        let (n, rest) ← readNumber mode true rest
        .ok (.number n, rest)
      | _ =>
        if isDigitByte b then do
          let (n, rest) ← readNumber mode false (b :: rest)
          .ok (.number n, rest)
        else fail .expectedValue rest

def readItems (mode : Mode) : Nat → Bool → Reader (List Value)
  | 0, _, rest => fail .endInList rest
  | fuel + 1, first, rest =>
    match skipBlanks rest with
    | [] => fail .endInList []
    | b :: after =>
      if b = ascii ']' then .ok ([], after)
      else if !first && b ≠ ascii ',' then fail .expectedListCommaOrEnd after
      else do
        let (item, rest) ← readValue mode fuel (if first then b :: after else after)
        let (items, rest) ← readItems mode fuel false rest
        .ok (item :: items, rest)

def readMembers (mode : Mode) : Nat → Bool → Reader (List (String × Value))
  | 0, _, rest => fail .endInObject rest
  | fuel + 1, first, rest =>
    match skipBlanks rest with
    | [] => fail .endInObject []
    | b :: after =>
      if b = ascii '}' then .ok ([], after)
      else if !first && b ≠ ascii ',' then fail .expectedObjectCommaOrEnd after
      else
        match skipBlanks (if first then b :: after else after) with
        | [] => fail .endInObject []
        | b :: rest =>
          if b ≠ ascii '"' then fail .keyNotString rest
          else do
            let (key, rest) ← readString mode rest
            let rest ← readColon rest
            let (v, rest) ← readValue mode fuel rest
            let (members, rest) ← readMembers mode fuel false rest
            .ok ((key, v) :: members, rest)

end

def readEnd (rest : List UInt8) : Except Failure Unit :=
  match skipBlanks rest with
  | [] => .ok ()
  | _ :: rest => fail .trailingCharacters rest

def readText {α : Type} (s : String) (read : List UInt8 → Except Failure α) :
    Except ReadError α :=
  let bytes := s.toUTF8.toList
  match read bytes with
  | .ok a => .ok a
  | .error f =>
    .error ⟨f.cause, Position.after (bytes.take (bytes.length - f.rest.length))⟩

def Value.ofText (s : String) : Except ReadError Value :=
  readText s (fun bytes => do
    let (v, rest) ← readValue .keep (2 * bytes.length + 2) bytes
    readEnd rest
    .ok v)

end BraceTemplate.Json
