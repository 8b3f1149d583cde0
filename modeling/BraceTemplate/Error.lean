import BraceTemplate.CompileError

namespace BraceTemplate

/-- The kinds of input and output errors that change what happens, and all others. -/
inductive IoErrorKind
  | interrupted
  | writeZero
  | invalidData
  | other (name : String)
deriving DecidableEq, Repr

namespace IoErrorKind

def name : IoErrorKind → String
  | interrupted => "Interrupted"
  | writeZero => "WriteZero"
  | invalidData => "InvalidData"
  | other name => name

def ofName : String → IoErrorKind
  | "Interrupted" => interrupted
  | "WriteZero" => writeZero
  | "InvalidData" => invalidData
  | name => other name

end IoErrorKind

structure IoError where
  kind : IoErrorKind
  message : String
deriving DecidableEq, Repr

inductive ConversionError
  | keyNotString
  | keyNotFinite
  | numberOutOfRange
  | custom (message : String)
deriving DecidableEq, Repr

def ConversionError.message : ConversionError → String
  | keyNotString => "key must be a string"
  | keyNotFinite => "float key must be finite (got NaN or +/-inf)"
  | numberOutOfRange => "number out of range"
  | custom message => message

inductive RenderError
  | write
  | io (error : IoError)
  | data (error : ConversionError)
deriving DecidableEq, Repr

def RenderError.message : RenderError → String
  | write => "failed to write template output"
  | io error => "failed to write template output: " ++ error.message
  | data error => "failed to convert render data: " ++ error.message

inductive Error
  | read (error : IoError)
  | compile (error : CompileError)
  | render (error : RenderError)
deriving DecidableEq, Repr

def Error.message : Error → String
  | read error => "failed to read template: " ++ error.message
  | compile error => error.fault.message
  | render error => error.message

end BraceTemplate
