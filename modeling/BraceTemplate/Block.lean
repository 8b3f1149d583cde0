namespace BraceTemplate

inductive BlockKind
  | ifBlock
  | unlessBlock
  | eachBlock
  | withBlock
deriving DecidableEq, Repr

namespace BlockKind

def keyword : BlockKind → String
  | ifBlock => "if"
  | unlessBlock => "unless"
  | eachBlock => "each"
  | withBlock => "with"

def ofKeyword? : String → Option BlockKind
  | "if" => some ifBlock
  | "unless" => some unlessBlock
  | "each" => some eachBlock
  | "with" => some withBlock
  | _ => none

theorem ofKeyword?_keyword (k : BlockKind) : ofKeyword? k.keyword = some k := by
  cases k <;> rfl

theorem ofKeyword?_eq_some {s : String} {k : BlockKind} (h : ofKeyword? s = some k) :
    s = k.keyword := by
  unfold ofKeyword? at h
  split at h <;> cases h <;> rfl

theorem keyword_injective {a b : BlockKind} (h : a.keyword = b.keyword) : a = b := by
  have ha := ofKeyword?_keyword a
  rw [h, ofKeyword?_keyword] at ha
  exact (Option.some.inj ha).symm

/-- Only the conditional blocks have a second branch. -/
def takesElse : BlockKind → Bool
  | ifBlock | unlessBlock => true
  | eachBlock | withBlock => false

theorem takesElse_iff {k : BlockKind} : k.takesElse = true ↔ k = ifBlock ∨ k = unlessBlock := by
  cases k <;> decide

end BlockKind
end BraceTemplate
