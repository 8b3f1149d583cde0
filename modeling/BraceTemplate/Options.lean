import BraceTemplate.Json.Printer
import BraceTemplate.Json.Reader
import BraceTemplate.Text.Literal

namespace BraceTemplate

/-- Whether loops tell their turns to the paths inside them. -/
structure Options where
  iterationMetadata : Bool
deriving DecidableEq, Repr

namespace Options

def default : Options := ⟨true⟩

def key : String := "iteration-metadata"

def toValue (o : Options) : Json.Value := .object [(key, .bool o.iterationMetadata)]

def summary (o : Options) : String :=
  if o.iterationMetadata then "Options { iteration_metadata: true }"
  else "Options { iteration_metadata: false }"

def describe : Json.Value → String
  | .null => "null"
  | .bool b => "boolean `" ++ (if b then "true" else "false") ++ "`"
  | .number (.int n) => "integer `" ++ (Json.Number.int n).text ++ "`"
  | .number (.float x) => "floating point `" ++ (Json.Number.float x).text ++ "`"
  | .string s => "string " ++ Text.literal s
  | .array _ => "sequence"
  | .object _ => "map"

def mismatch (v : Json.Value) (expected : String) : Json.Cause :=
  .unfit ("invalid type: " ++ describe v ++ ", expected " ++ expected)

def flagOf : Json.Value → Except Json.Cause Options
  | .bool b => .ok ⟨b⟩
  | v => .error (mismatch v "a boolean")

/-- Options from an object, where other members are passed over, or from an array of at most one
field. What is missing keeps its default. -/
def ofValue : Json.Value → Except Json.Cause Options
  | .object members =>
    match members.lookup key with
    | none => .ok default
    | some v => flagOf v
  | .array [] => .ok default
  | .array (v :: vs) =>
    match flagOf v with
    | .error cause => .error cause
    | .ok o =>
      if vs.isEmpty then .ok o
      else
        .error (.unfit ("invalid length " ++ (vs.length + 1).repr ++
          ", expected fewer elements in array"))
  | v => .error (mismatch v "struct Options")

end Options
end BraceTemplate
