import BraceTemplate.Span
import BraceTemplate.Text.Size

namespace BraceTemplate

/-- The braces around a tag: two for escaped output, three for output as it is. -/
inductive Fence
  | double
  | triple
deriving DecidableEq, Repr

namespace Fence

def width : Fence → Nat
  | double => 2
  | triple => 3

def opening (f : Fence) : List Char := List.replicate f.width '{'

def closing (f : Fence) : List Char := List.replicate f.width '}'

end Fence

def doubleTag (body : String) : String :=
  String.ofList Fence.double.opening ++ body ++ String.ofList Fence.double.closing

inductive TokenKind
  | text
  | tag (fence : Fence)
deriving DecidableEq, Repr

/-- Literal text, or what stands between the braces of a tag, blanks included. The span of a tag
includes its braces. -/
structure Token where
  kind : TokenKind
  value : String
  span : Span
deriving DecidableEq, Repr

def Token.source (t : Token) : List Char :=
  match t.kind with
  | .text => t.value.toList
  | .tag f => f.opening ++ t.value.toList ++ f.closing

end BraceTemplate
