import BraceTemplate.Block
import BraceTemplate.Path
import BraceTemplate.Token

namespace BraceTemplate

inductive Node
  | text (value : String)
  | escaped (path : Path)
  | unescaped (path : Path)
  | container (children : List Node)
  | ifBlock (path : Path) (body otherwise : Node)
  | unlessBlock (path : Path) (body otherwise : Node)
  | eachBlock (path : Path) (body : Node)
  | withBlock (path : Path) (body : Node)

namespace Node

instance : Inhabited Node := ⟨container []⟩

def empty : Node := container []

def ofFence : Fence → Path → Node
  | .double => escaped
  | .triple => unescaped

/-- The node of a closed block. Only the conditional blocks keep a second branch. -/
def ofBlock (kind : BlockKind) (path : Path) (body otherwise : List Node) : Node :=
  match kind with
  | .ifBlock => ifBlock path (container body) (container otherwise)
  | .unlessBlock => unlessBlock path (container body) (container otherwise)
  | .eachBlock => eachBlock path (container body)
  | .withBlock => withBlock path (container body)

mutual

def same : Node → Node → Bool
  | text s, text t => s == t
  | escaped p, escaped q => p == q
  | unescaped p, unescaped q => p == q
  | container ns, container ms => sameAll ns ms
  | ifBlock p a b, ifBlock q c d => p == q && same a c && same b d
  | unlessBlock p a b, unlessBlock q c d => p == q && same a c && same b d
  | eachBlock p a, eachBlock q b => p == q && same a b
  | withBlock p a, withBlock q b => p == q && same a b
  | _, _ => false

def sameAll : List Node → List Node → Bool
  | [], [] => true
  | n :: ns, m :: ms => same n m && sameAll ns ms
  | _, _ => false

end

mutual

theorem same_iff (n m : Node) : same n m = true ↔ n = m := by
  cases n <;> cases m <;> simp [same, same_iff, sameAll_iff, and_assoc]

theorem sameAll_iff (ns ms : List Node) : sameAll ns ms = true ↔ ns = ms := by
  cases ns <;> cases ms <;> simp [sameAll, same_iff, sameAll_iff]

end

instance : DecidableEq Node := fun n m => decidable_of_iff _ (same_iff n m)

end Node
end BraceTemplate
