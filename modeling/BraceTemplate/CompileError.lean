import BraceTemplate.Block
import BraceTemplate.Token

namespace BraceTemplate

inductive Fault
  | unclosedExpression
  | emptyExpression
  | tooManyBraces
  | unbalancedBlocks
  | unmatchedCloseTag (expected : BlockKind) (found : String)
  | invalidElse
  | unclosedBlock (block : BlockKind)
  | unsupportedBlock (keyword : String)
deriving DecidableEq, Repr

structure CompileError where
  fault : Fault
  span : Span
deriving DecidableEq, Repr

namespace Fault

/-- Well-formed text that asks for a block the engine does not know, and not broken text. -/
def isUnsupported : Fault → Bool
  | unsupportedBlock _ => true
  | _ => false

def message : Fault → String
  | unclosedExpression => "expression is not closed"
  | emptyExpression => "empty expression"
  | tooManyBraces => "too many opening braces"
  | unbalancedBlocks => "unbalanced blocks"
  | unmatchedCloseTag expected found =>
    "unmatched close tag: expected `" ++ doubleTag ("/" ++ expected.keyword) ++
      "`, found `" ++ doubleTag ("/" ++ found) ++ "`"
  | invalidElse => "invalid else usage"
  | unclosedBlock block => "there is an unclosed `" ++ block.keyword ++ "` block"
  | unsupportedBlock keyword => "unsupported block '" ++ keyword ++ "'"

/-- The path of the diagnostic code, outermost part first. -/
def code : Fault → List String
  | unclosedExpression => ["format", "unclosed_expression"]
  | emptyExpression => ["format", "empty_expression"]
  | tooManyBraces => ["format", "too_many_braces"]
  | unbalancedBlocks => ["format", "unbalanced_blocks"]
  | unmatchedCloseTag _ _ => ["format", "unmatched_close_tag"]
  | invalidElse => ["format", "invalid_else"]
  | unclosedBlock _ => ["format", "unclosed_block"]
  | unsupportedBlock _ => ["not_supported"]

def help? : Fault → Option String
  | unclosedExpression =>
    some ("close the expression with as many `" ++ String.singleton '}' ++
      "` as it was opened with")
  | tooManyBraces =>
    some ("use `" ++ String.ofList Fence.double.opening ++ "` for escaped or `" ++
      String.ofList Fence.triple.opening ++ "` for unescaped output")
  | invalidElse =>
    some "`{{else}}` is only allowed directly inside `if` or `unless`"
  | unsupportedBlock _ => some "supported blocks: if, unless, each, with"
  | emptyExpression | unbalancedBlocks | unmatchedCloseTag _ _ | unclosedBlock _ => none

def label : Fault → String
  | unclosedExpression => "opened here"
  | emptyExpression => "nothing between the braces"
  | tooManyBraces => "a fourth `" ++ String.singleton '{' ++ "` starts here"
  | unbalancedBlocks => "no open block to close"
  | unmatchedCloseTag _ _ => "closes the wrong block"
  | invalidElse => "here"
  | unclosedBlock _ => "opened here"
  | unsupportedBlock _ => "unknown block"

end Fault
end BraceTemplate
