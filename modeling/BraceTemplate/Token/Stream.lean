import BraceTemplate.Token.Scanner

namespace BraceTemplate

/-- A scanner that can be read in two ways: `next` ends for good at the first fault it meets,
`resume` goes on behind it. -/
structure TokenStream where
  scanner : Scanner
  ended : Bool
deriving DecidableEq, Repr

namespace TokenStream

def start (template : String) : TokenStream := ⟨Scanner.start template, false⟩

def resume (s : TokenStream) : Except CompileError (Option Token) × TokenStream :=
  let (answer, scanner) := s.scanner.next
  (answer, { s with scanner := scanner })

def next (s : TokenStream) : Except CompileError (Option Token) × TokenStream :=
  if s.ended then (.ok none, s)
  else
    match s.scanner.next with
    | (.ok token, scanner) => (.ok token, { s with scanner := scanner })
    | (.error error, scanner) => (.error error, ⟨scanner, true⟩)

end TokenStream
end BraceTemplate
