namespace BraceTemplate

/-- A stretch of a template, in bytes of its UTF-8 form. -/
structure Span where
  offset : Nat
  length : Nat
deriving DecidableEq, Repr

end BraceTemplate
