import BraceTemplate.Node
import BraceTemplate.Tag
import BraceTemplate.Token.Scanner

namespace BraceTemplate

structure OpenBlock where
  kind : BlockKind
  path : Path
  span : Span
  body : List Node
  otherwise : List Node
  inElse : Bool
deriving DecidableEq

namespace OpenBlock

def push (b : OpenBlock) (n : Node) : OpenBlock :=
  if b.inElse then { b with otherwise := b.otherwise ++ [n] } else { b with body := b.body ++ [n] }

def toNode (b : OpenBlock) : Node := Node.ofBlock b.kind b.path b.body b.otherwise

end OpenBlock

inductive BlockEvent
  | opening (kind : BlockKind) (path : String)
  | closing (kind : BlockKind)
deriving DecidableEq, Repr

/-- The block event of a token that is accepted. -/
def Token.blockEvent? (t : Token) : Option BlockEvent :=
  match t.kind with
  | .text => none
  | .tag _ =>
    match Tag.ofBody t.value with
    | .opening keyword expr =>
      (BlockKind.ofKeyword? keyword).map (fun kind => .opening kind (Text.trim expr))
    | .closing name => (BlockKind.ofKeyword? name).map .closing
    | .otherwise | .value _ => none

/-- A template part-way through its tokens: the finished nodes outside all blocks, and the open
blocks, innermost first. -/
structure Builder where
  root : List Node
  blocks : List OpenBlock
deriving DecidableEq

namespace Builder

def start : Builder := ⟨[], []⟩

def push (b : Builder) (n : Node) : Builder :=
  match b.blocks with
  | [] => { b with root := b.root ++ [n] }
  | block :: outer => { b with blocks := block.push n :: outer }

def openBlock (b : Builder) (kind : BlockKind) (path : Path) (span : Span) : Builder :=
  { b with blocks := ⟨kind, path, span, [], [], false⟩ :: b.blocks }

def closeBlock (b : Builder) (name : String) (span : Span) : Except CompileError Builder :=
  match b.blocks with
  | [] => .error ⟨.unbalancedBlocks, span⟩
  | block :: outer =>
    if block.kind.keyword = name then .ok ({ b with blocks := outer }.push block.toNode)
    else .error ⟨.unmatchedCloseTag block.kind name, span⟩

/-- Turns the innermost block to its second branch, where it stays on a further `else`. -/
def switchBranch (b : Builder) (span : Span) : Except CompileError Builder :=
  match b.blocks with
  | [] => .error ⟨.invalidElse, span⟩
  | block :: outer =>
    if block.kind.takesElse then .ok { b with blocks := { block with inElse := true } :: outer }
    else .error ⟨.invalidElse, span⟩

def accept (b : Builder) (t : Token) : Except CompileError Builder :=
  match t.kind with
  | .text => .ok (b.push (.text t.value))
  | .tag fence =>
    match Tag.ofBody t.value with
    | .opening keyword expr =>
      match BlockKind.ofKeyword? keyword with
      | none => .error ⟨.unsupportedBlock keyword, t.span⟩
      | some kind => .ok (b.openBlock kind (Path.parse expr) t.span)
    | .closing name => b.closeBlock name t.span
    | .otherwise => b.switchBranch t.span
    | .value expr => .ok (b.push (Node.ofFence fence (Path.parse expr)))

/-- Accepts tokens up to the first that does not fit, and logs those that open or close a
block. -/
def acceptAll (b : Builder) : List Token → List BlockEvent × Except CompileError Builder
  | [] => ([], .ok b)
  | t :: ts =>
    match b.accept t with
    | .error error => ([], .error error)
    | .ok after =>
      let (events, result) := acceptAll after ts
      (t.blockEvent?.toList ++ events, result)

def finish (b : Builder) : Except CompileError Node :=
  match b.blocks with
  | [] => .ok (.container b.root)
  | block :: _ => .error ⟨.unclosedBlock block.kind, block.span⟩

end Builder

namespace Node

/-- The tree of a list of tokens that may be cut short by a fault. A token that does not fit
comes before the fault, and the fault before an open block. -/
def ofTokens (tokens : List Token) (fault : Option CompileError) :
    List BlockEvent × Except CompileError Node :=
  let (events, result) := Builder.start.acceptAll tokens
  match result, fault with
  | .error error, _ => (events, .error error)
  | .ok _, some error => (events, .error error)
  | .ok b, none => (events, b.finish)

def ofScanner (s : Scanner) : List BlockEvent × Except CompileError Node :=
  let (tokens, fault) := s.drain
  ofTokens tokens fault

def parse (template : String) : Except CompileError Node :=
  (ofScanner (Scanner.start template)).2

end Node
end BraceTemplate
