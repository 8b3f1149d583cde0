import BraceTemplate.Node.Builder
import BraceTemplate.Node.Write

namespace BraceTemplate

inductive ScopeValue
  | named (path : Path)
  | given (value : Json.Value)

/-- What can be done with a context. Output goes to a sink of its own for each step. -/
inductive Step (σ : Type)
  | push (value : ScopeValue) (iteration : Option Iteration)
  | scoped (value : ScopeValue) (iteration : Option Iteration) (steps : List (Step σ))
  | pop
  | getValue (path : Path)
  | getItems (path : Path)
  | isTruthy (path : Path)
  | write (node : Node) (out : σ)
  | writeTemplate (template : String) (out : σ)

instance {σ : Type} : Inhabited (Step σ) := ⟨.pop⟩

inductive Answer (σ ε : Type)
  | done
  | absent
  | steps (answers : List (Answer σ ε × Nat))
  | value (v : Option Json.Value)
  | items (vs : List Json.Value)
  | truth (b : Bool)
  | written (result : Except ε Unit) (out : σ)
  | broken (error : CompileError)

namespace Context

variable {σ ε : Type}

def resolve? (c : Context) : ScopeValue → Option Json.Value
  | .named p => c.get? p
  | .given v => some v

mutual

def step (sink : Sink σ ε) : Step σ → Context → Answer σ ε × Context
  | .push value iteration, c =>
    match c.resolve? value with
    | none => (.absent, c)
    | some v => (.done, c.push ⟨v, iteration⟩)
  | .scoped value iteration steps, c =>
    match c.resolve? value with
    | none => (.absent, c)
    | some v =>
      let (answers, after) := run sink steps (c.push ⟨v, iteration⟩)
      (.steps answers, after.pop)
  | .pop, c => (.done, c.pop)
  | .getValue p, c => (.value (c.get? p), c)
  | .getItems p, c => (.items (c.items p), c)
  | .isTruthy p, c => (.truth (c.isTruthy p), c)
  | .write node out, c =>
    let w := node.write sink c out
    (.written w.result w.out, w.context)
  | .writeTemplate template out, c =>
    match Node.parse template with
    | .error error => (.broken error, c)
    | .ok node =>
      let w := node.write sink c out
      (.written w.result w.out, w.context)

def run (sink : Sink σ ε) : List (Step σ) → Context → List (Answer σ ε × Nat) × Context
  | [], c => ([], c)
  | s :: ss, c =>
    let (answer, next) := step sink s c
    let (answers, last) := run sink ss next
    ((answer, next.depth) :: answers, last)

end

end Context
end BraceTemplate
