import BraceTemplate.Text.Blank

namespace BraceTemplate

inductive Tag
  | opening (keyword expr : String)
  | closing (name : String)
  | otherwise
  | value (expr : String)
deriving DecidableEq, Repr

/-- The marks `#` and `/` and the word `else` count only right behind the braces. -/
def Tag.ofBody (body : String) : Tag :=
  match body.toList with
  | '#' :: cs =>
    .opening (String.ofList (cs.takeWhile (fun c => !Text.isBlank c)))
      (String.ofList (cs.dropWhile (fun c => !Text.isBlank c)))
  | '/' :: cs => .closing (String.ofList (Text.trimChars cs))
  | _ => if body = "else" then .otherwise else .value body

end BraceTemplate
