import BraceTemplate.Decimal.Reading

namespace BraceTemplate.Json

/-- Integers and floats are different values, even where they stand for the same number. -/
inductive Number
  | int (n : Int)
  | float (x : Float)

/-- Integers of at most 64 bits, signed below zero and unsigned from zero. -/
def fitsInt (n : Int) : Bool := -0x8000000000000000 ≤ n && n < 0x10000000000000000

inductive Value
  | null
  | bool (b : Bool)
  | number (n : Number)
  | string (s : String)
  | array (items : List Value)
  | object (members : List (String × Value))

instance : Inhabited Value := ⟨.null⟩

namespace Value

/-- Members stand in the order of their keys, and each key once. -/
def insertMember (key : String) (v : Value) : List (String × Value) → List (String × Value)
  | [] => [(key, v)]
  | (k, w) :: ms =>
    if key < k then (key, v) :: (k, w) :: ms
    else if key = k then (key, v) :: ms
    else (k, w) :: insertMember key v ms

/-- The object of a list of members. The last member with a key counts. -/
def ofMembers (ms : List (String × Value)) : Value :=
  .object (ms.foldl (fun sorted m => insertMember m.1 m.2 sorted) [])

/-- Only finite floats are numbers. -/
def ofFloat (x : Float) : Value := if x.isFinite then .number (.float x) else .null

/-- The index that a segment names: digits behind an optional plus sign. The number has no bound. An
array is never so long that it has an item at an index which a machine word cannot hold, and so
nothing changes if such a number is refused. -/
def index? (segment : String) : Option Nat :=
  let digits :=
    match segment.toList with
    | '+' :: cs => cs
    | cs => cs
  if digits.isEmpty || !digits.all Char.isDigit then none else some (Decimal.ofDigits digits)

def member? (v : Value) (segment : String) : Option Value :=
  match v with
  | object members => members.lookup segment
  | array items => (index? segment).bind (fun i => items[i]?)
  | null | bool _ | number _ | string _ => none

def lookup? (v : Value) : List String → Option Value
  | [] => some v
  | segment :: segments => (v.member? segment).bind (fun w => w.lookup? segments)

/-- A path is followed in two parts as in one. -/
theorem lookup?_append (v : Value) (ss ts : List String) :
    v.lookup? (ss ++ ts) = (v.lookup? ss).bind (fun w => w.lookup? ts) := by
  induction ss generalizing v with
  | nil => rfl
  | cons s ss ih =>
    simp only [List.cons_append, lookup?]
    cases v.member? s with
    | none => rfl
    | some w => exact ih w

def isTruthy : Option Value → Bool
  | none | some null | some (bool false) => false
  | some (string s) => s != ""
  | some (bool true) | some (number _) | some (array _) | some (object _) => true

/-- Absent values, `null`, `false` and the empty string are false, and nothing else is: zero and the
empty array are true. -/
theorem isTruthy_eq_false_iff {found : Option Value} :
    isTruthy found = false ↔
      found = none ∨ found = some null ∨ found = some (bool false) ∨ found = some (string "") := by
  cases found with
  | none => simp [isTruthy]
  | some v =>
    cases v with
    | bool b => cases b <;> simp [isTruthy]
    | null | number | string | array | object => simp [isTruthy]

end Value
end BraceTemplate.Json
