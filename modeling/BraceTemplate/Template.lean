import BraceTemplate.ByteStream
import BraceTemplate.Datum
import BraceTemplate.Event
import BraceTemplate.Node.Write

namespace BraceTemplate

structure Template where
  root : Node
  options : Options
deriving DecidableEq

namespace Template

/-- Compiles a template and tells what is logged meanwhile. -/
def compileLogged (source : String) (options : Options) :
    List Event × Except CompileError Template :=
  let (blocks, result) := Node.ofScanner (Scanner.start source)
  let events := .compiling options :: blocks.map .block
  match result with
  | .error error => (events ++ [.failed error], .error error)
  | .ok root => (events, .ok ⟨root, options⟩)

def compile (source : String) (options : Options) : Except CompileError Template :=
  (compileLogged source options).2

def context (t : Template) (data : Json.Value) : Context :=
  .start data t.options.iterationMetadata

/-- Writes the output for some data into a sink and tells what is logged meanwhile. -/
def renderToLogged {σ ε : Type} (t : Template) (sink : Sink σ ε) (data : Json.Value) (out : σ) :
    List Event × Except ε Unit × σ :=
  let w := t.root.write sink (t.context data) out
  ([.rendering], w.result, w.out)

def renderTo {σ ε : Type} (t : Template) (sink : Sink σ ε) (data : Json.Value) (out : σ) :
    Except ε Unit × σ :=
  (t.renderToLogged sink data out).2

def render (t : Template) (data : Json.Value) : Except RenderError String :=
  match t.renderTo Sink.text data "" with
  | (.ok (), text) => .ok text
  | (.error error, _) => .error error

/-- Writes the output into a byte writer. The reason of a refusal stands in for the refusal, where
there is one. -/
def writeTo (t : Template) (data : Json.Value) (w : ByteWriter) :
    Except RenderError Unit × ByteWriter :=
  match t.renderTo ByteOutlet.sink data ⟨w, none⟩ with
  | (.error .write, after) => (.error (after.refusal.elim .write .io), after.writer)
  | (result, after) => (result, after.writer)

def renderConverted {α : Type} (t : Template) (convert : α → Except ConversionError Json.Value)
    (d : α) : Except RenderError String :=
  match convert d with
  | .error error => .error (.data error)
  | .ok data => t.render data

def renderDatum (t : Template) (d : Datum) : Except RenderError String :=
  t.renderConverted Datum.toValue d

def read (answers : List ReadAnswer) (options : Options) : Except Error Template :=
  match ReadAnswer.readText answers with
  | .error error => .error (.read error)
  | .ok source =>
    match compile source options with
    | .error error => .error (.compile error)
    | .ok t => .ok t

end Template

def compile (source : String) : Except CompileError Template := Template.compile source .default

section

variable {α σ : Type} (convert : α → Except ConversionError Json.Value)

def renderOnce (source : String) (d : α) : Except Error String :=
  match compile source with
  | .error error => .error (.compile error)
  | .ok t =>
    match t.renderConverted convert d with
    | .error error => .error (.render error)
    | .ok text => .ok text

/-- Compiles a template and writes its output once. The sink is touched only when the template is
compiled and the data converted. -/
def writeOnce (sink : Sink σ RenderError) (source : String) (d : α) (out : σ) :
    Except Error Unit × σ :=
  match compile source with
  | .error error => (.error (.compile error), out)
  | .ok t =>
    match convert d with
    | .error error => (.error (.render (.data error)), out)
    | .ok data =>
      match t.renderTo sink data out with
      | (.error error, after) => (.error (.render error), after)
      | (.ok (), after) => (.ok (), after)

end

def render (source : String) (d : Datum) : Except Error String :=
  renderOnce Datum.toValue source d

def renderTo {σ : Type} (sink : Sink σ RenderError) (source : String) (d : Datum) (out : σ) :
    Except Error Unit × σ :=
  writeOnce Datum.toValue sink source d out

end BraceTemplate
