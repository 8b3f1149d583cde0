import BraceTemplate.Options

namespace BraceTemplate.Options

open Json

/-- Names the value at hand where another was expected. Of an array or object only the bracket is
looked at. -/
def failMismatch {α : Type} (expected : String) (rest : List UInt8) : Except Failure α :=
  match rest with
  | [] => fail .endInValue []
  | b :: _ =>
    if b = ascii '[' then fail (mismatch (.array []) expected) rest
    else if b = ascii '{' then fail (mismatch (.object []) expected) rest
    else
      match readValue .keep 1 rest with
      | .error failure => .error failure
      | .ok (v, after) => fail (mismatch v expected) after

def readFlag : Reader Bool := fun rest =>
  match skipBlanks rest with
  | [] => fail .endInValue []
  | b :: after =>
    if b = ascii 't' then do .ok (true, ← readWord ['r', 'u', 'e'] after)
    else if b = ascii 'f' then do .ok (false, ← readWord ['a', 'l', 's', 'e'] after)
    else failMismatch "a boolean" (b :: after)

def readArray : Reader Options := fun rest => do
  let (options, rest) ←
    match skipBlanks rest with
    | [] => fail .endInList []
    | b :: after =>
      if b = ascii ']' then .ok (default, b :: after)
      else do
        let (flag, rest) ← readFlag (b :: after)
        .ok (⟨flag⟩, rest)
  match skipBlanks rest with
  | [] => fail .endInList []
  | b :: after =>
    if b = ascii ']' then .ok (options, after)
    else if b = ascii ',' then
      match skipBlanks after with
      | c :: later => fail (if c = ascii ']' then .trailingComma else .trailingCharacters) later
      | [] => fail .trailingCharacters []
    else fail .trailingCharacters after

def readKeyStart (first : Bool) (rest : List UInt8) :
    Except Failure (Option (List UInt8)) :=
  match skipBlanks rest with
  | [] => fail .endInObject []
  | b :: after =>
    if b = ascii '}' then .ok none
    else if first then
      if b = ascii '"' then .ok (some after) else fail .keyNotString after
    else if b ≠ ascii ',' then fail .expectedObjectCommaOrEnd after
    else
      match skipBlanks after with
      | [] => fail .endInValue []
      | c :: later =>
        if c = ascii '"' then .ok (some later)
        else fail (if c = ascii '}' then .trailingComma else .keyNotString) later

/-- The place where a key that stands twice is reported: behind the blanks that follow it, and
behind the end of the object if that comes next. -/
def behindKey (rest : List UInt8) : List UInt8 :=
  match skipBlanks rest with
  | b :: after => if b = ascii '}' then after else b :: after
  | [] => []

/-- The members of an object, behind its bracket. The fuel bounds their number. -/
def readFields : Nat → Bool → Option Bool → Reader (Option Bool)
  | 0, _, _, rest => fail .endInObject rest
  | fuel + 1, first, found, rest => do
    match ← readKeyStart first rest with
    | none => .ok (found, (skipBlanks rest).drop 1)
    | some rest =>
      let (name, rest) ← readString .keep rest
      if name = key then
        if found.isSome then fail (.unfit ("duplicate field `" ++ key ++ "`")) (behindKey rest)
        else
          let rest ← readColon rest
          let (flag, rest) ← readFlag rest
          readFields fuel false (some flag) rest
      else
        let rest ← readColon rest
        let (_, rest) ← readValue .skip (2 * rest.length + 2) rest
        readFields fuel false found rest

def readOptions (bytes : List UInt8) : Except Failure Options := do
  let (options, rest) ←
    match skipBlanks bytes with
    | [] => fail .endInValue []
    | b :: after =>
      if b = ascii '[' then readArray after
      else if b = ascii '{' then do
        let (found, rest) ← readFields (after.length + 1) true none after
        .ok (⟨found.getD default.iterationMetadata⟩, rest)
      else failMismatch "struct Options" (b :: after)
  readEnd rest
  .ok options

def ofText (s : String) : Except ReadError Options := readText s readOptions

end BraceTemplate.Options
