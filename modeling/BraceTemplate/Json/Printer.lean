import BraceTemplate.Decimal.Shortest
import BraceTemplate.Json.Value

namespace BraceTemplate.Json

def Number.text : Number → String
  | int n => String.ofList ((if n < 0 then ['-'] else []) ++ Nat.toDigits 10 n.natAbs)
  | float x => String.ofList (Decimal.floatText x)

/-- A character inside quotes. Only the quote, the backslash and the characters below the blank
are escaped. -/
def quotedChar (c : Char) : List Char :=
  match c with
  | '"' => ['\\', '"']
  | '\\' => ['\\', '\\']
  | '\x08' => ['\\', 'b']
  | '\x0c' => ['\\', 'f']
  | '\n' => ['\\', 'n']
  | '\r' => ['\\', 'r']
  | '\t' => ['\\', 't']
  | c =>
    if c.toNat < 32 then
      ['\\', 'u', '0', '0', Nat.digitChar (c.toNat / 16), Nat.digitChar (c.toNat % 16)]
    else [c]

def quoted (s : String) : String :=
  String.ofList ('"' :: (s.toList.flatMap quotedChar ++ ['"']))

namespace Value

mutual

def json : Value → String
  | null => "null"
  | bool b => if b then "true" else "false"
  | number n => n.text
  | string s => quoted s
  | array items => "[" ++ ",".intercalate (jsonItems items) ++ "]"
  | object members => "\x7b" ++ ",".intercalate (jsonMembers members) ++ "\x7d"

def jsonItems : List Value → List String
  | [] => []
  | v :: vs => v.json :: jsonItems vs

def jsonMembers : List (String × Value) → List String
  | [] => []
  | (key, v) :: ms => (quoted key ++ ":" ++ v.json) :: jsonMembers ms

end

/-- The text that a template writes: strings as they are, nothing for `null`, and JSON for the
rest. -/
def text? : Value → Option String
  | null => none
  | string s => some s
  | v => some v.json

end Value
end BraceTemplate.Json
