import BraceTemplate.Proofs.TagClasses
import Mathlib.Logic.Function.Basic

namespace BraceTemplate

structure BlockTags (k : BlockKind) where
  opening : Token
  closing : Token
  expr : String
  opens : opening.Opens k expr
  closes : closing.Closes k

mutual

/-- A derivation from `items ::= (text | value | block)*`, where
`block ::= opening(k) items (else items)* closing(k)`. -/
inductive Items
  | nil
  | text (t : Token) (ht : t.kind = .text) (rest : Items)
  | value (t : Token) (f : Fence) (ht : t.IsValue f) (rest : Items)
  | block (k : BlockKind) (tags : BlockTags k) (body : Items) (elses : Elses k) (rest : Items)

/-- A derivation from `(else items)*`. Only the conditional blocks have any. -/
inductive Elses : BlockKind → Type
  | nil {k : BlockKind} : Elses k
  | cons {k : BlockKind} (hk : k = .ifBlock ∨ k = .unlessBlock) (mark : Token)
      (hm : mark.IsElse) (items : Items) (rest : Elses k) : Elses k

end

mutual

def Items.tokens : Items → List Token
  | .nil => []
  | .text t _ rest => t :: rest.tokens
  | .value t _ _ rest => t :: rest.tokens
  | .block _ tags body elses rest =>
    tags.opening :: (body.tokens ++ (elses.tokens ++ tags.closing :: rest.tokens))

def Elses.tokens {k : BlockKind} : Elses k → List Token
  | .nil => []
  | .cons _ mark _ items rest => mark :: (items.tokens ++ rest.tokens)

end

mutual

/-- The tree of a derivation. All that stands behind the first `else` of a block is one branch. -/
def Items.nodes : Items → List Node
  | .nil => []
  | .text t _ rest => .text t.value :: rest.nodes
  | .value t .double _ rest => .escaped (Path.parse t.value) :: rest.nodes
  | .value t .triple _ rest => .unescaped (Path.parse t.value) :: rest.nodes
  | .block .ifBlock tags body elses rest =>
    .ifBlock (Path.parse tags.expr) (.container body.nodes) (.container elses.nodes) :: rest.nodes
  | .block .unlessBlock tags body elses rest =>
    .unlessBlock (Path.parse tags.expr) (.container body.nodes) (.container elses.nodes)
      :: rest.nodes
  | .block .eachBlock tags body _ rest =>
    .eachBlock (Path.parse tags.expr) (.container body.nodes) :: rest.nodes
  | .block .withBlock tags body _ rest =>
    .withBlock (Path.parse tags.expr) (.container body.nodes) :: rest.nodes

def Elses.nodes {k : BlockKind} : Elses k → List Node
  | .nil => []
  | .cons _ _ _ items rest => items.nodes ++ rest.nodes

end

namespace Items

/-- The leaf that the grammar gives a value tag is the parser's. -/
theorem nodes_value (t : Token) (f : Fence) (ht : t.IsValue f) (rest : Items) :
    (value t f ht rest).nodes = Node.ofFence f (Path.parse t.value) :: rest.nodes := by
  cases f <;> rfl

/-- The node that the grammar gives a block is the parser's. -/
theorem nodes_block (k : BlockKind) (tags : BlockTags k) (body : Items) (elses : Elses k)
    (rest : Items) :
    (block k tags body elses rest).nodes =
      Node.ofBlock k (Path.parse tags.expr) body.nodes elses.nodes :: rest.nodes := by
  cases k <;> rfl

def append : Items → Items → Items
  | nil, e => e
  | text t ht rest, e => text t ht (rest.append e)
  | value t f ht rest, e => value t f ht (rest.append e)
  | block k tags body elses rest, e => block k tags body elses (rest.append e)

theorem tokens_append : ∀ d e : Items, (d.append e).tokens = d.tokens ++ e.tokens
  | nil, e => rfl
  | text t ht rest, e | value t f ht rest, e => by simp [append, tokens, tokens_append rest e]
  | block k tags body elses rest, e => by simp [append, tokens, tokens_append rest e]

theorem nodes_append : ∀ d e : Items, (d.append e).nodes = d.nodes ++ e.nodes
  | nil, e => rfl
  | text t ht rest, e => by simp [append, nodes, nodes_append rest e]
  | value t f ht rest, e => by simp [append, nodes_value, nodes_append rest e]
  | block k tags body elses rest, e => by simp [append, nodes_block, nodes_append rest e]

end Items

namespace Elses

variable {k : BlockKind}

def append : Elses k → Elses k → Elses k
  | nil, e => e
  | cons hk mark hm items rest, e => cons hk mark hm items (rest.append e)

theorem tokens_append : ∀ d e : Elses k, (d.append e).tokens = d.tokens ++ e.tokens
  | nil, e => rfl
  | cons hk mark hm items rest, e => by simp [append, tokens, tokens_append rest e]

theorem nodes_append : ∀ d e : Elses k, (d.append e).nodes = d.nodes ++ e.nodes
  | nil, e => rfl
  | cons hk mark hm items rest, e => by simp [append, nodes, nodes_append rest e]

end Elses

def Token.Ends (t : Token) : Prop := (∃ k, t.Closes k) ∨ t.IsElse

theorem Token.Ends.tag? {t : Token} (h : t.Ends) :
    (∃ name, t.tag? = some (.closing name)) ∨ t.tag? = some .otherwise := by
  rcases h with ⟨k, hc⟩ | he
  · exact Or.inl ⟨k.keyword, closesWith_iff.mp hc⟩
  · exact Or.inr (isElse_iff.mp he)

/-- Items and what follows them: nothing, or a token that ends them. -/
def Stops (ts : List Token) : Prop := ∀ t ∈ ts.head?, t.Ends

theorem stops_nil : Stops [] := by simp [Stops]

theorem stops_cons {t : Token} {ts : List Token} (h : t.Ends) : Stops (t :: ts) := by
  intro u hu
  obtain rfl : t = u := by simpa using hu
  exact h

theorem Elses.stops {k k' : BlockKind} (e : Elses k) {t : Token} {ts : List Token}
    (ht : t.Closes k') : Stops (e.tokens ++ t :: ts) := by
  cases e with
  | nil => exact stops_cons (Or.inl ⟨k', ht⟩)
  | cons hk mark hm items rest => exact stops_cons (Or.inr hm)

/-- Where items end at once, none are derived. -/
theorem Items.eq_nil_of_stops {d : Items} {ts : List Token} (h : Stops (d.tokens ++ ts)) :
    d = .nil := by
  cases d with
  | nil => rfl
  | text t ht rest =>
    have hend := (h t rfl).tag?
    rw [Token.tag?_eq_none.mpr ht] at hend
    simp at hend
  | value t f ht rest =>
    have hend := (h t rfl).tag?
    rw [(Token.isValue_iff.mp ht).2] at hend
    simp at hend
  | block k tags body elses rest =>
    have hend := (h tags.opening rfl).tag?
    rw [Token.opensWith_iff.mp tags.opens] at hend
    simp at hend

/-- An opening tag has one keyword and one expression. -/
theorem Token.Opens.unique {t : Token} {k k' : BlockKind} {expr expr' : String}
    (h : t.Opens k expr) (h' : t.Opens k' expr') : k = k' ∧ expr = expr' := by
  have he := (opensWith_iff.mp h).symm.trans (opensWith_iff.mp h')
  simp only [Option.some.injEq, Tag.opening.injEq] at he
  exact ⟨BlockKind.keyword_injective he.1, he.2⟩

theorem Token.IsElse.not_closes {t : Token} (h : t.IsElse) (k : BlockKind) : ¬ t.Closes k := by
  intro hc
  have he := (isElse_iff.mp h).symm.trans (closesWith_iff.mp hc)
  simp at he

mutual

/-- No two derivations read the same tokens in two ways: the first token tells the rule. -/
theorem Items.eq_of_tokens_append (d d' : Items) {ts ts' : List Token} (hs : Stops ts)
    (hs' : Stops ts') (h : d.tokens ++ ts = d'.tokens ++ ts') : d = d' ∧ ts = ts' := by
  match d, d' with
  | .nil, d' =>
    obtain rfl : ts = d'.tokens ++ ts' := h
    obtain rfl := d'.eq_nil_of_stops hs
    exact ⟨rfl, rfl⟩
  | d, .nil =>
    obtain rfl : d.tokens ++ ts = ts' := h
    obtain rfl := d.eq_nil_of_stops hs'
    exact ⟨rfl, rfl⟩
  | .text t ht rest, .text t' ht' rest' =>
    obtain ⟨rfl, hrest⟩ := List.cons.inj h
    obtain ⟨rfl, rfl⟩ := rest.eq_of_tokens_append rest' hs hs' hrest
    exact ⟨rfl, rfl⟩
  | .value t f ht rest, .value t' f' ht' rest' =>
    obtain ⟨rfl, hrest⟩ := List.cons.inj h
    obtain ⟨rfl, rfl⟩ := rest.eq_of_tokens_append rest' hs hs' hrest
    obtain rfl := TokenKind.tag.inj (ht.1.symm.trans ht'.1)
    exact ⟨rfl, rfl⟩
  | .block k ⟨o, c, expr, ho, hc⟩ body elses rest,
    .block k' ⟨o', c', expr', ho', hc'⟩ body' elses' rest' =>
    simp only [Items.tokens, List.cons_append, List.append_assoc, List.cons.injEq] at h
    obtain ⟨rfl, hbody⟩ := h
    obtain ⟨rfl, rfl⟩ := ho.unique ho'
    obtain ⟨rfl, helses⟩ :=
      body.eq_of_tokens_append body' (elses.stops hc) (elses'.stops hc') hbody
    obtain ⟨rfl, hclosing⟩ := elses.eq_of_tokens_append elses' hc hc' helses
    obtain ⟨rfl, hrest⟩ := List.cons.inj hclosing
    obtain ⟨rfl, rfl⟩ := rest.eq_of_tokens_append rest' hs hs' hrest
    exact ⟨rfl, rfl⟩
  | .text t ht rest, .value t' f ht' rest' =>
    obtain ⟨rfl, -⟩ := List.cons.inj h
    cases ht.symm.trans ht'.1
  | .value t f ht rest, .text t' ht' rest' =>
    obtain ⟨rfl, -⟩ := List.cons.inj h
    cases ht.1.symm.trans ht'
  | .text t ht rest, .block k tags body elses rest' =>
    obtain ⟨rfl, -⟩ := List.cons.inj h
    cases (Token.tag?_eq_none.mpr ht).symm.trans (Token.opensWith_iff.mp tags.opens)
  | .block k tags body elses rest, .text t ht rest' =>
    obtain ⟨rfl, -⟩ := List.cons.inj h
    cases (Token.tag?_eq_none.mpr ht).symm.trans (Token.opensWith_iff.mp tags.opens)
  | .value t f ht rest, .block k tags body elses rest' =>
    obtain ⟨rfl, -⟩ := List.cons.inj h
    cases (Token.isValue_iff.mp ht).2.symm.trans (Token.opensWith_iff.mp tags.opens)
  | .block k tags body elses rest, .value t f ht rest' =>
    obtain ⟨rfl, -⟩ := List.cons.inj h
    cases (Token.isValue_iff.mp ht).2.symm.trans (Token.opensWith_iff.mp tags.opens)

theorem Elses.eq_of_tokens_append {k : BlockKind} (e e' : Elses k) {k₁ k₂ : BlockKind}
    {t t' : Token} {ts ts' : List Token} (ht : t.Closes k₁) (ht' : t'.Closes k₂)
    (h : e.tokens ++ t :: ts = e'.tokens ++ t' :: ts') : e = e' ∧ t :: ts = t' :: ts' := by
  match e, e' with
  | .nil, .nil => exact ⟨rfl, h⟩
  | .nil, .cons hk mark hm items rest =>
    obtain ⟨rfl, -⟩ := List.cons.inj h
    exact absurd ht (hm.not_closes k₁)
  | .cons hk mark hm items rest, .nil =>
    obtain ⟨rfl, -⟩ := List.cons.inj h
    exact absurd ht' (hm.not_closes k₂)
  | .cons hk mark hm items rest, .cons hk' mark' hm' items' rest' =>
    simp only [Elses.tokens, List.cons_append, List.append_assoc, List.cons.injEq] at h
    obtain ⟨rfl, hitems⟩ := h
    obtain ⟨rfl, hrest⟩ :=
      items.eq_of_tokens_append items' (rest.stops ht) (rest'.stops ht') hitems
    obtain ⟨rfl, hend⟩ := rest.eq_of_tokens_append rest' ht ht' hrest
    exact ⟨rfl, hend⟩

end

/-- The grammar is unambiguous. -/
theorem Items.tokens_injective : Function.Injective Items.tokens := by
  intro d d' h
  exact (d.eq_of_tokens_append d' stops_nil stops_nil (by rw [h])).1

end BraceTemplate
