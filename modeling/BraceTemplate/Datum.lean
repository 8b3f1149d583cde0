import BraceTemplate.Error
import BraceTemplate.Json.Printer

namespace BraceTemplate

/-- Data of a host program. Some of it has no place in the data model. -/
inductive Datum
  | value (v : Json.Value)
  | float (x : Float)
  | integer (n : Int)
  | char (c : Char)
  | bytes (bs : List UInt8)
  | absent
  | present (d : Datum)
  | variant (name : String)
  | variantOf (name : String) (d : Datum)
  | seq (items : List Datum)
  | map (entries : List (Datum × Datum))
  | failing (message : String)

instance : Inhabited Datum := ⟨.absent⟩

namespace Datum

def cutAtLast (mark : List Char) : List Char → Option (List Char × List Char)
  | [] => none
  | c :: cs =>
    match cutAtLast mark cs with
    | some (before, after) => some (c :: before, after)
    | none => if mark.isPrefixOf (c :: cs) then some ([], (c :: cs).drop mark.length) else none

def readPlace? (digits : List Char) : Option Nat :=
  if digits.isEmpty || 0x10000000000000000 ≤ Decimal.ofDigits digits then none
  else some (Decimal.ofDigits digits)

/-- The line and column that a message ends with, and the message before them. -/
def takePlace? (message : List Char) : Option (List Char × Nat × Nat) := do
  let (before, after) ← cutAtLast " at line ".toList message
  let (line, after) := after.span Char.isDigit
  let mark := " column ".toList
  if mark.isPrefixOf after then
    let (column, after) := (after.drop mark.length).span Char.isDigit
    if after.isEmpty then some (before, ← readPlace? line, ← readPlace? column) else none
  else none

/-- A message that ends with a place in a text. Lines count from one, and a place on line zero is
left out. -/
def placed (message : String) : String :=
  match takePlace? message.toList with
  | none => message
  | some (before, line, column) =>
    if line = 0 then String.ofList before
    else String.ofList before ++ " at line " ++ line.repr ++ " column " ++ column.repr

/-- Only data with a text of one line can be the key of a member. -/
def key : Datum → Except ConversionError String
  | value (.string s) => .ok s
  | value (.number n) => .ok n.text
  | value (.bool b) => .ok (if b then "true" else "false")
  | float x => if x.isFinite then .ok (Json.Number.float x).text else .error .keyNotFinite
  | integer n => .ok (Json.Number.int n).text
  | char c => .ok (String.singleton c)
  | variant name => .ok name
  | failing message => .error (.custom (placed message))
  | _ => .error .keyNotString

mutual

/-- The data as a value, or the first thing in its order that cannot be one. -/
def toValue : Datum → Except ConversionError Json.Value
  | value v => .ok v
  | float x => .ok (.ofFloat x)
  | integer n => if Json.fitsInt n then .ok (.number (.int n)) else .error .numberOutOfRange
  | char c => .ok (.string (String.singleton c))
  | bytes bs => .ok (.array (bs.map (fun b => .number (.int b.toNat))))
  | absent => .ok .null
  | present d => d.toValue
  | variant name => .ok (.string name)
  | variantOf name d => d.toValue.map (fun v => .object [(name, v)])
  | seq items => (toValues items).map .array
  | map entries => (toMembers entries).map Json.Value.ofMembers
  | failing message => .error (.custom (placed message))

def toValues : List Datum → Except ConversionError (List Json.Value)
  | [] => .ok []
  | d :: ds => do
    let v ← d.toValue
    let vs ← toValues ds
    .ok (v :: vs)

def toMembers : List (Datum × Datum) → Except ConversionError (List (String × Json.Value))
  | [] => .ok []
  | (k, d) :: entries => do
    let name ← k.key
    let v ← d.toValue
    let ms ← toMembers entries
    .ok ((name, v) :: ms)

end

end Datum
end BraceTemplate
