import BraceTemplate.Proofs.Building
import BraceTemplate.Proofs.Spelling
import BraceTemplate.Proofs.Trimming

namespace BraceTemplate

/-- A path that a tag can name. It is what its own text names, and the tag does not end in it. -/
structure Path.Fits (p : Path) (f : Fence) : Prop where
  parsed : p = Path.parse p.raw
  trimmed : Text.trim p.raw = p.raw
  noClosing : ¬ f.closing <:+: p.raw.toList

def Node.IsText (n : Node) : Prop := ∃ s, n = text s

def TextsApart (ns : List Node) : Prop := ns.IsChain (fun n m => n.IsText → ¬ m.IsText)

/-- The nodes that compiled templates are made of. The second branch of a block may hold texts
side by side, for a further `else` may stand between them. -/
inductive Node.Compiled : Node → Prop
  | text {s : String} (hs : s ≠ "") (hp : Plain s.toList) : Compiled (text s)
  | escaped {p : Path} (hp : p.Fits .double) : Compiled (escaped p)
  | unescaped {p : Path} (hp : p.Fits .triple) : Compiled (unescaped p)
  | ifBlock {p : Path} {body otherwise : List Node} (hp : p.Fits .triple)
      (hb : ∀ n ∈ body, Compiled n) (ha : TextsApart body) (ho : ∀ n ∈ otherwise, Compiled n) :
      Compiled (ifBlock p (container body) (container otherwise))
  | unlessBlock {p : Path} {body otherwise : List Node} (hp : p.Fits .triple)
      (hb : ∀ n ∈ body, Compiled n) (ha : TextsApart body) (ho : ∀ n ∈ otherwise, Compiled n) :
      Compiled (unlessBlock p (container body) (container otherwise))
  | eachBlock {p : Path} {body : List Node} (hp : p.Fits .triple) (hb : ∀ n ∈ body, Compiled n)
      (ha : TextsApart body) : Compiled (eachBlock p (container body))
  | withBlock {p : Path} {body : List Node} (hp : p.Fits .triple) (hb : ∀ n ∈ body, Compiled n)
      (ha : TextsApart body) : Compiled (withBlock p (container body))

/-- The last node of a template can also be text that ends in braces. -/
def Node.CompiledLast (n : Node) : Prop :=
  n.Compiled ∨ ∃ s, n = text s ∧ s ≠ "" ∧ PlainToEnd s.toList

structure RootNodes (ns : List Node) : Prop where
  apart : TextsApart ns
  inside : ∀ n ∈ ns.dropLast, n.Compiled
  last : ∀ n ∈ ns.getLast?, n.CompiledLast

def Node.CompiledRoot (r : Node) : Prop := ∃ ns, r = container ns ∧ RootNodes ns

namespace Node.Compiled

variable {p : Path}

theorem value {f : Fence} (hp : p.Fits f) : (ofFence f p).Compiled := by
  cases f with
  | double => exact .escaped hp
  | triple => exact .unescaped hp

theorem block {k : BlockKind} {body otherwise : List Node} (hp : p.Fits .triple)
    (hb : ∀ n ∈ body, n.Compiled) (ha : TextsApart body) (ho : ∀ n ∈ otherwise, n.Compiled) :
    (ofBlock k p body otherwise).Compiled := by
  cases k with
  | ifBlock => exact .ifBlock hp hb ha ho
  | unlessBlock => exact .unlessBlock hp hb ha ho
  | eachBlock => exact .eachBlock hp hb ha
  | withBlock => exact .withBlock hp hb ha

/-- What holds of text, of each value tag's node and of each block's holds of all nodes of
compiled templates. A block is met with the branch that it lacks empty. -/
@[elab_as_elim]
theorem byTags {motive : (n : Node) → n.Compiled → Prop}
    (text : ∀ {s : String} (hs : s ≠ "") (hp : Plain s.toList), motive (.text s) (.text hs hp))
    (value : ∀ {f : Fence} {p : Path} (hp : p.Fits f), motive (ofFence f p) (.value hp))
    (block : ∀ {k : BlockKind} {p : Path} {body otherwise : List Node} (hp : p.Fits .triple)
      (hb : ∀ n ∈ body, n.Compiled) (ha : TextsApart body) (ho : ∀ n ∈ otherwise, n.Compiled),
      (otherwise ≠ [] → k.takesElse = true) → (∀ n (hn : n ∈ body), motive n (hb n hn)) →
      (∀ n (hn : n ∈ otherwise), motive n (ho n hn)) →
      motive (ofBlock k p body otherwise) (.block hp hb ha ho))
    {n : Node} (h : n.Compiled) : motive n h := by
  induction h with
  | text hs hp => exact text hs hp
  | escaped hp => exact value (f := .double) hp
  | unescaped hp => exact value (f := .triple) hp
  | ifBlock hp hb ha ho ihb iho =>
    exact block (k := .ifBlock) hp hb ha ho (fun _ => rfl) ihb iho
  | unlessBlock hp hb ha ho ihb iho =>
    exact block (k := .unlessBlock) hp hb ha ho (fun _ => rfl) ihb iho
  | eachBlock hp hb ha ihb =>
    exact @block .eachBlock _ _ [] hp hb ha nofun nofun ihb nofun
  | withBlock hp hb ha ihb =>
    exact @block .withBlock _ _ [] hp hb ha nofun nofun ihb nofun

end Node.Compiled

namespace Path

/-- What fits between two braces fits between three. -/
theorem Fits.widen {p : Path} {f : Fence} (h : p.Fits f) : p.Fits .triple := by
  refine ⟨h.parsed, h.trimmed, fun hi => h.noClosing (List.IsInfix.trans ?_ hi)⟩
  cases f with
  | double => exact ⟨[], ['}'], rfl⟩
  | triple => exact List.infix_rfl

/-- The path that a tag names can be named by it. -/
theorem fits_parse {f : Fence} {body : List Char} (h : FitsFence f body) {expr : String}
    (he : expr.toList <:+: body) : (parse expr).Fits f := by
  refine ⟨(parse_raw expr).symm, Text.trim_trim expr, fun hi => ?_⟩
  apply h.closed.no_closing f.width_pos
  exact hi.trans ((Text.trim_infix expr).trans he)

end Path

theorem Token.Opens.fits {t : Token} {k : BlockKind} {expr : String} (h : t.Opens k expr)
    (ht : Inside [t]) : (Path.parse expr).Fits .triple := by
  obtain ⟨⟨f, hf⟩, hv, -⟩ := h
  refine (Path.fits_parse ((inside_singleton.mp ht).2 f hf) ?_).widen
  rw [hv]
  exact List.infix_cons List.infix_append_right

theorem Token.IsValue.compiled {t : Token} {f : Fence} (h : t.IsValue f) (ht : Inside [t]) :
    (Node.ofFence f (Path.parse t.value)).Compiled :=
  .value (Path.fits_parse ((inside_singleton.mp ht).2 f h.1) List.infix_rfl)

theorem Node.not_isText_ofFence (f : Fence) (p : Path) : ¬ (ofFence f p).IsText := by
  cases f <;> simp [ofFence, IsText]

theorem Node.not_isText_ofBlock (k : BlockKind) (p : Path) (body otherwise : List Node) :
    ¬ (ofBlock k p body otherwise).IsText := by
  cases k <;> simp [ofBlock, IsText]

/-- A tree begins with text only where the template does. -/
theorem Items.head_text {d : Items} {n : Node} (hn : n ∈ d.nodes.head?) (ht : n.IsText) :
    ∃ t ∈ d.tokens.head?, t.kind = .text := by
  cases d with
  | nil => simp [Items.nodes] at hn
  | text t hk rest => exact ⟨t, rfl, hk⟩
  | value t f hk rest =>
    rw [Items.nodes_value] at hn
    obtain rfl := Option.some.inj hn
    exact absurd ht (Node.not_isText_ofFence f _)
  | block k tags body elses rest =>
    rw [Items.nodes_block] at hn
    obtain rfl := Option.some.inj hn
    exact absurd ht (Node.not_isText_ofBlock k _ _ _)

/-- Only a conditional block derives anything in its second branch. -/
theorem Elses.takesElse {k : BlockKind} {e : Elses k} (h : e.nodes ≠ []) :
    k.takesElse = true := by
  cases e with
  | nil => simp [Elses.nodes] at h
  | cons hk mark hm items rest => exact BlockKind.takesElse_iff.mpr hk

theorem textsApart_cons {n : Node} {d : Items} (h : TextsApart d.nodes)
    (hn : n.IsText → ∀ t ∈ d.tokens.head?, t.kind ≠ .text) : TextsApart (n :: d.nodes) := by
  refine List.isChain_cons.mpr ⟨fun m hm ht hmt => ?_, h⟩
  obtain ⟨t, hmem, hk⟩ := d.head_text hm hmt
  exact hn ht t hmem hk

mutual

/-- What is derived from the inside of a template is made of compiled nodes. -/
theorem Items.compiled (d : Items) (h : Inside d.tokens) :
    (∀ n ∈ d.nodes, n.Compiled) ∧ TextsApart d.nodes := by
  match d with
  | .nil => exact ⟨by simp [Items.nodes], .nil⟩
  | .text t ht rest =>
    obtain ⟨hin, hrest, hmeet⟩ := inside_cons.mp h
    obtain ⟨hall, hapart⟩ := rest.compiled hrest
    obtain ⟨hne, hp⟩ := (inside_singleton.mp hin).1 ht
    refine ⟨?_, textsApart_cons hapart fun _ u hu => hmeet t rfl u hu ht⟩
    exact List.forall_mem_cons.mpr ⟨.text hne hp, hall⟩
  | .value t f ht rest =>
    obtain ⟨hin, hrest, -⟩ := inside_cons.mp h
    obtain ⟨hall, hapart⟩ := rest.compiled hrest
    rw [Items.nodes_value]
    refine ⟨?_, textsApart_cons hapart fun hx => absurd hx (Node.not_isText_ofFence f _)⟩
    exact List.forall_mem_cons.mpr ⟨ht.compiled hin, hall⟩
  | .block k tags body elses rest =>
    obtain ⟨hin, hlater, -⟩ := inside_cons.mp h
    obtain ⟨hbody, hlater, -⟩ := inside_append.mp hlater
    obtain ⟨helses, hlater, -⟩ := inside_append.mp hlater
    obtain ⟨hall, hapart⟩ := rest.compiled (inside_cons.mp hlater).2.1
    obtain ⟨hcompiled, hbapart⟩ := body.compiled hbody
    rw [Items.nodes_block]
    refine ⟨?_, textsApart_cons hapart fun hx => absurd hx (Node.not_isText_ofBlock k _ _ _)⟩
    exact List.forall_mem_cons.mpr ⟨.block (tags.opens.fits hin) hcompiled hbapart
      (elses.compiled helses), hall⟩

theorem Elses.compiled {k : BlockKind} (e : Elses k) (h : Inside e.tokens) :
    ∀ n ∈ e.nodes, n.Compiled := by
  match e with
  | .nil => simp [Elses.nodes]
  | .cons hk mark hm items rest =>
    obtain ⟨-, hlater, -⟩ := inside_cons.mp h
    obtain ⟨hitems, hrest, -⟩ := inside_append.mp hlater
    intro n hn
    exact (List.mem_append.mp hn).elim ((items.compiled hitems).1 n) (rest.compiled hrest n)

end

theorem RootNodes.nil : RootNodes [] := ⟨.nil, by simp, by simp⟩

theorem rootNodes_cons {n : Node} {ns : List Node} :
    RootNodes (n :: ns) ↔ RootNodes ns ∧ TextsApart (n :: ns) ∧ (ns ≠ [] → n.Compiled) ∧
      (ns = [] → n.CompiledLast) := by
  constructor
  · intro h
    cases ns with
    | nil => exact ⟨.nil, h.apart, by simp, fun _ => h.last n rfl⟩
    | cons m ms =>
      obtain ⟨hn, hin⟩ := List.forall_mem_cons.mp h.inside
      have hlast := h.last
      rw [List.getLast?_cons_cons] at hlast
      exact ⟨⟨h.apart.of_cons, hin, hlast⟩, h.apart, fun _ => hn, by simp⟩
  · intro ⟨h, ha, hin, hlast⟩
    cases ns with
    | nil => exact ⟨ha, by simp, by simpa using hlast rfl⟩
    | cons m ms =>
      refine ⟨ha, ?_, ?_⟩
      · rw [List.dropLast_cons_cons]
        exact List.forall_mem_cons.mpr ⟨hin (by simp), h.inside⟩
      · rw [List.getLast?_cons_cons]
        exact h.last

theorem RootNodes.head {n : Node} {ns : List Node} (h : RootNodes (n :: ns)) : n.CompiledLast := by
  obtain ⟨-, -, hin, hlast⟩ := rootNodes_cons.mp h
  by_cases hns : ns = []
  · exact hlast hns
  · exact Or.inl (hin hns)

theorem RootNodes.compiledLast {ns : List Node} (h : RootNodes ns) :
    ∀ n ∈ ns, n.CompiledLast := by
  induction ns with
  | nil => simp
  | cons n ns ih => exact List.forall_mem_cons.mpr ⟨h.head, ih (rootNodes_cons.mp h).1⟩

theorem Items.tokens_eq_nil {d : Items} : d.tokens = [] ↔ d.nodes = [] := by
  cases d <;> simp [Items.tokens, Items.nodes, Items.nodes_value, Items.nodes_block]

/-- What is derived from a whole template is a root of compiled nodes. -/
theorem Items.rootNodes : ∀ d : Items, Lexical d.tokens → RootNodes d.nodes
  | .nil, _ => .nil
  | .text t ht rest, h => by
    obtain ⟨htext, -, hrest⟩ := lexical_cons.mp h
    obtain ⟨hne, hend, hnext⟩ := htext ht
    have hroot := rest.rootNodes hrest
    refine rootNodes_cons.mpr
      ⟨hroot, textsApart_cons hroot.apart fun _ u hu => (hnext u hu).1, ?_, ?_⟩
    · intro hns
      obtain ⟨u, us, hu⟩ := List.exists_cons_of_ne_nil (mt Items.tokens_eq_nil.mp hns)
      exact .text hne (hnext u (by simp [hu])).2
    · intro hns
      exact Or.inr ⟨t.value, rfl, hne, hend (Items.tokens_eq_nil.mpr hns)⟩
  | .value t f ht rest, h => by
    obtain ⟨-, htag, hrest⟩ := lexical_cons.mp h
    have hroot := rest.rootNodes hrest
    have hin : Inside [t] := inside_singleton.mpr ⟨fun hk => by simp [ht.1] at hk, htag⟩
    rw [Items.nodes_value]
    refine rootNodes_cons.mpr ⟨hroot, textsApart_cons hroot.apart fun hx => ?_,
      fun _ => ht.compiled hin, fun _ => Or.inl (ht.compiled hin)⟩
    exact absurd hx (Node.not_isText_ofFence f _)
  | .block k tags body elses rest, h => by
    have hsplit : (Items.block k tags body elses rest).tokens =
        (tags.opening :: (body.tokens ++ elses.tokens)) ++ tags.closing :: rest.tokens := by
      simp [Items.tokens]
    rw [hsplit] at h
    obtain ⟨hin, hrest, -⟩ := (lexical_append (by simp)).mp h
    obtain ⟨hopening, hin, -⟩ := inside_cons.mp hin
    obtain ⟨hbody, helses, -⟩ := inside_append.mp hin
    obtain ⟨hall, hbapart⟩ := body.compiled hbody
    have hblock : (Node.ofBlock k (Path.parse tags.expr) body.nodes elses.nodes).Compiled :=
      .block (tags.opens.fits hopening) hall hbapart (elses.compiled helses)
    have hroot := rest.rootNodes (lexical_cons.mp hrest).2.2
    rw [Items.nodes_block]
    refine rootNodes_cons.mpr ⟨hroot, textsApart_cons hroot.apart fun hx => ?_,
      fun _ => hblock, fun _ => Or.inl hblock⟩
    exact absurd hx (Node.not_isText_ofBlock k _ _ _)

/-- Every template that compiles has the tree of a compiled template. -/
theorem Node.compiledRoot_of_parse {s : String} {root : Node} (h : Node.parse s = .ok root) :
    root.CompiledRoot := by
  obtain ⟨hfault, ns, rfl, hbuilt⟩ := Node.parse_eq_ok.mp h
  obtain ⟨d, htokens, rfl⟩ := acceptAll_start_iff.mp hbuilt
  have hspells : Spells 0 s.toList (tokenize s).1 := spells_of_tokensFrom (Prod.ext rfl hfault)
  rw [← htokens] at hspells
  exact ⟨d.nodes, rfl, d.rootNodes hspells.toLexical⟩

end BraceTemplate
