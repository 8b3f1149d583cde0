import BraceTemplate.Json.Value
import BraceTemplate.Path

namespace BraceTemplate

/-- What a scope inside a loop knows about its turn. -/
structure Iteration where
  index : Nat
  first : Bool
  last : Bool
deriving DecidableEq, Repr

namespace Iteration

def turn (index count : Nat) : Iteration := ⟨index, index == 0, index + 1 == count⟩

def member? (i : Iteration) : String → Option Json.Value
  | "@index" => some (.number (.int i.index))
  | "@first" => some (.bool i.first)
  | "@last" => some (.bool i.last)
  | _ => none

end Iteration

structure Scope where
  value : Json.Value
  iteration : Option Iteration

/-- A path of one segment may name the turn of the loop before a member of the value. -/
def Scope.get? (s : Scope) (segments : List String) : Option Json.Value :=
  match segments with
  | [name] => (s.iteration.bind (fun i => i.member? name)).or (s.value.lookup? segments)
  | _ => s.value.lookup? segments

/-- The open scopes, innermost first. -/
structure Context where
  scopes : List Scope
  iterationMetadata : Bool

namespace Context

def start (data : Json.Value) (iterationMetadata : Bool) : Context :=
  ⟨[⟨data, none⟩], iterationMetadata⟩

def push (c : Context) (s : Scope) : Context := { c with scopes := s :: c.scopes }

def pop (c : Context) : Context := { c with scopes := c.scopes.tail }

theorem pop_push (c : Context) (s : Scope) : (c.push s).pop = c := rfl

def depth (c : Context) : Nat := c.scopes.length

/-- Looks into the innermost scope and no further. -/
def get? (c : Context) (p : Path) : Option Json.Value :=
  c.scopes.head?.bind (fun s => s.get? p.segments)

def items (c : Context) (p : Path) : List Json.Value :=
  match c.get? p with
  | some (.array vs) => vs
  | _ => []

def isTruthy (c : Context) (p : Path) : Bool := Json.Value.isTruthy (c.get? p)

def inner? (c : Context) (p : Path) : Option Scope :=
  match c.get? p with
  | none | some .null => none
  | some v => some ⟨v, none⟩

def turns (c : Context) (p : Path) : List Scope :=
  let vs := c.items p
  vs.mapIdx (fun i v =>
    ⟨v, if c.iterationMetadata then some (Iteration.turn i vs.length) else none⟩)

end Context
end BraceTemplate
