import BraceTemplate.Text.Unprintable

namespace BraceTemplate.Text

def literalChar (c : Char) : List Char :=
  match c with
  | '"' => ['\\', '"']
  | '\\' => ['\\', '\\']
  | '\n' => ['\\', 'n']
  | '\r' => ['\\', 'r']
  | '\t' => ['\\', 't']
  | '\x00' => ['\\', '0']
  | c =>
    if isUnprintable c then
      '\\' :: 'u' :: '{' :: (Nat.toDigits 16 c.toNat ++ ['}'])
    else [c]

def literal (s : String) : String := String.ofList ('"' :: (s.toList.flatMap literalChar ++ ['"']))

end BraceTemplate.Text
