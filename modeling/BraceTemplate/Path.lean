import BraceTemplate.Text.Blank

namespace BraceTemplate

/-- Where a value is found from the innermost scope. No segments means the value of the scope
itself. -/
structure Path where
  raw : String
  segments : List String
deriving DecidableEq, Repr

namespace Path

def dropThis (cs : List Char) : List Char :=
  if "this.".toList.isPrefixOf cs then cs.drop 5 else cs

/-- The segments of a trimmed path. The scope itself is written `this`, `.` or not at all. -/
def split (cs : List Char) : List (List Char) :=
  if cs = "this".toList ∨ cs = ['.'] ∨ dropThis cs = [] then []
  else (dropThis cs).splitOn '.'

def parse (expr : String) : Path :=
  ⟨Text.trim expr, (split (Text.trim expr).toList).map String.ofList⟩

def isThis (p : Path) : Bool := p.segments.isEmpty

end Path
end BraceTemplate
