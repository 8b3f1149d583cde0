import BraceTemplate.Context
import BraceTemplate.Json.Printer
import BraceTemplate.Node
import BraceTemplate.Sink
import BraceTemplate.Text.Html

namespace BraceTemplate

structure Written (σ ε : Type) where
  result : Except ε Unit
  context : Context
  out : σ

namespace Written

variable {σ ε : Type}

def done (c : Context) (out : σ) : Written σ ε := ⟨.ok (), c, out⟩

def andThen (w : Written σ ε) (next : Context → σ → Written σ ε) : Written σ ε :=
  match w.result with
  | .ok () => next w.context w.out
  | .error _ => w

end Written

variable {σ ε : Type}

def Sink.put (sink : Sink σ ε) (chunk : String) (c : Context) (out : σ) : Written σ ε :=
  let (result, after) := sink.offer out chunk
  ⟨result, c, after⟩

def Sink.putValue (sink : Sink σ ε) (form : String → String) (v : Option Json.Value)
    (c : Context) (out : σ) : Written σ ε :=
  match v.bind Json.Value.text? with
  | none => .done c out
  | some s => sink.put (form s) c out

namespace Context

/-- Opens a scope, and closes one scope however the writing ends. -/
def within (c : Context) (s : Scope) (body : Context → σ → Written σ ε) (out : σ) :
    Written σ ε :=
  let w := body (c.push s) out
  { w with context := w.context.pop }

def withinEach (body : Context → σ → Written σ ε) : List Scope → Context → σ → Written σ ε
  | [], c, out => .done c out
  | s :: ss, c, out => (c.within s body out).andThen (withinEach body ss)

end Context

namespace Node

mutual

def write (sink : Sink σ ε) : Node → Context → σ → Written σ ε
  | text s, c, out => sink.put s c out
  | escaped p, c, out => sink.putValue Text.escapeHtml (c.get? p) c out
  | unescaped p, c, out => sink.putValue id (c.get? p) c out
  | container ns, c, out => writeAll sink ns c out
  | ifBlock p body otherwise, c, out =>
    if c.isTruthy p then body.write sink c out else otherwise.write sink c out
  | unlessBlock p body otherwise, c, out =>
    if c.isTruthy p then otherwise.write sink c out else body.write sink c out
  | eachBlock p body, c, out =>
    Context.withinEach (fun c out => body.write sink c out) (c.turns p) c out
  | withBlock p body, c, out =>
    match c.inner? p with
    | none => .done c out
    | some s => c.within s (fun c out => body.write sink c out) out

def writeAll (sink : Sink σ ε) : List Node → Context → σ → Written σ ε
  | [], c, out => .done c out
  | n :: ns, c, out =>
    (n.write sink c out).andThen (fun c out => writeAll sink ns c out)

end

mutual

/-- The output of a tree as the list of its chunks. -/
def chunks : Node → Context → List String
  | text s, _ => [s]
  | escaped p, c => (((c.get? p).bind Json.Value.text?).map Text.escapeHtml).toList
  | unescaped p, c => ((c.get? p).bind Json.Value.text?).toList
  | container ns, c => chunksAll ns c
  | ifBlock p body otherwise, c => if c.isTruthy p then body.chunks c else otherwise.chunks c
  | unlessBlock p body otherwise, c =>
    if c.isTruthy p then otherwise.chunks c else body.chunks c
  | eachBlock p body, c => (c.turns p).flatMap (fun s => body.chunks (c.push s))
  | withBlock p body, c =>
    match c.inner? p with
    | none => []
    | some s => body.chunks (c.push s)

def chunksAll : List Node → Context → List String
  | [], _ => []
  | n :: ns, c => n.chunks c ++ chunksAll ns c

end

end Node
end BraceTemplate
