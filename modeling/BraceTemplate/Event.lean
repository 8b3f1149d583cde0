import BraceTemplate.Node.Builder
import BraceTemplate.Options

namespace BraceTemplate

inductive Level
  | debug
  | trace
deriving DecidableEq, Repr

inductive Event
  | compiling (options : Options)
  | block (event : BlockEvent)
  | failed (error : CompileError)
  | rendering
deriving DecidableEq, Repr

namespace Event

def level : Event → Level
  | compiling _ | failed _ => .debug
  | block _ | rendering => .trace

/-- The part of the engine that speaks. -/
def source : Event → String
  | block _ => "parser"
  | compiling _ | failed _ | rendering => "template"

def fields : Event → List (String × String)
  | compiling options => [("message", "compiling template"), ("options", options.summary)]
  | block (.opening kind path) =>
    [("message", "opening block"), ("block", kind.keyword), ("path", path)]
  | block (.closing kind) => [("message", "closing block"), ("block", kind.keyword)]
  | failed error => [("message", "template failed to compile"), ("error", error.fault.message)]
  | rendering => [("message", "rendering template")]

end Event
end BraceTemplate
