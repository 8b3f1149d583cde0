import BraceTemplate.Proofs.BlockGrammar

namespace BraceTemplate

/-- What an open block has read: its opening tag and items, and from the first `else` on also the
branches that are complete and the items of the last. -/
inductive OpenBlock.Reads : OpenBlock → List Token → Prop
  | body {k : BlockKind} {expr : String} {opening : Token} (ho : opening.Opens k expr)
      (body : Items) :
      Reads ⟨k, Path.parse expr, opening.span, body.nodes, [], false⟩ (opening :: body.tokens)
  | branch {k : BlockKind} {expr : String} {opening mark : Token} (ho : opening.Opens k expr)
      (hk : k.takesElse = true) (hm : mark.IsElse) (body : Items) (elses : Elses k)
      (items : Items) :
      Reads ⟨k, Path.parse expr, opening.span, body.nodes, elses.nodes ++ items.nodes, true⟩
        (opening :: (body.tokens ++ (elses.tokens ++ mark :: items.tokens)))

namespace OpenBlock.Reads

variable {block : OpenBlock} {ts : List Token}

theorem push (h : block.Reads ts) {d : Items} {n : Node} (hd : d.nodes = [n]) :
    (block.push n).Reads (ts ++ d.tokens) := by
  cases h with
  | body ho body =>
    have hb := Reads.body ho (body.append d)
    simpa [OpenBlock.push, Items.nodes_append, Items.tokens_append, hd] using hb
  | branch ho hk hm body elses items =>
    have hb := Reads.branch ho hk hm body elses (items.append d)
    simpa [OpenBlock.push, Items.nodes_append, Items.tokens_append, hd] using hb

theorem switch (h : block.Reads ts) (hk : block.kind.takesElse = true) {mark : Token}
    (hm : mark.IsElse) : { block with inElse := true }.Reads (ts ++ [mark]) := by
  cases h with
  | body ho body =>
    have hb := Reads.branch ho hk hm body .nil .nil
    simpa [Elses.nodes, Items.nodes, Elses.tokens, Items.tokens] using hb
  | branch ho hk hm' body elses items =>
    have hb := Reads.branch ho hk hm body
      (elses.append (.cons (BlockKind.takesElse_iff.mp hk) _ hm' items .nil)) .nil
    simpa [Elses.nodes_append, Elses.tokens_append, Elses.nodes, Items.nodes, Elses.tokens,
      Items.tokens] using hb

/-- With its closing tag, what an open block has read is one item. -/
theorem close (h : block.Reads ts) {closing : Token} (hc : closing.Closes block.kind) :
    ∃ d : Items, d.nodes = [block.toNode] ∧ d.tokens = ts ++ [closing] := by
  cases h with
  | body ho body =>
    refine ⟨.block _ ⟨_, closing, _, ho, hc⟩ body .nil .nil, ?_, ?_⟩
    · simp [Items.nodes_block, Items.nodes, Elses.nodes, OpenBlock.toNode]
    · simp [Items.tokens, Elses.tokens]
  | branch ho hk hm body elses items =>
    refine ⟨.block _ ⟨_, closing, _, ho, hc⟩ body
      (elses.append (.cons (BlockKind.takesElse_iff.mp hk) _ hm items .nil)) .nil, ?_, ?_⟩
    · simp [Items.nodes_block, Items.nodes, Elses.nodes_append, Elses.nodes, OpenBlock.toNode]
    · simp [Items.tokens, Elses.tokens_append, Elses.tokens]

end OpenBlock.Reads

/-- What a builder has read: complete items outside all blocks, and behind them what each open
block has read, outermost first. -/
inductive Builder.Reads : Builder → List Token → Prop
  | root (d : Items) : Reads ⟨d.nodes, []⟩ d.tokens
  | block {root : List Node} {block : OpenBlock} {outer : List OpenBlock} {ts us : List Token}
      (h : Reads ⟨root, outer⟩ ts) (hb : block.Reads us) :
      Reads ⟨root, block :: outer⟩ (ts ++ us)

namespace Builder.Reads

variable {b after : Builder} {ts us : List Token} {t : Token}

theorem push (h : b.Reads ts) {d : Items} {n : Node} (hd : d.nodes = [n]) :
    (b.push n).Reads (ts ++ d.tokens) := by
  cases h with
  | root e =>
    have hr := Reads.root (e.append d)
    rwa [Items.nodes_append, Items.tokens_append, hd] at hr
  | block h hb =>
    rw [List.append_assoc]
    exact .block h (hb.push hd)

/-- What one accepted token adds. -/
theorem accept (h : b.Reads ts) (ha : b.accept t = .ok after) : after.Reads (ts ++ [t]) := by
  rcases accept_cases ha with ⟨ht, rfl⟩ | ⟨f, hv, rfl⟩ | ⟨k, expr, ho, rfl⟩ |
    ⟨block, outer, hblocks, hc, rfl⟩ | ⟨block, outer, hblocks, he, hk, rfl⟩
  · exact h.push (d := .text t ht .nil) rfl
  · exact h.push (d := .value t f hv .nil) (Items.nodes_value t f hv .nil)
  · exact .block h (.body ho .nil)
  · obtain ⟨root, blocks⟩ := b
    obtain rfl : blocks = block :: outer := hblocks
    cases h with
    | block h hb =>
      obtain ⟨d, hd, htokens⟩ := hb.close hc
      rw [List.append_assoc, ← htokens]
      exact h.push hd
  · obtain ⟨root, blocks⟩ := b
    obtain rfl : blocks = block :: outer := hblocks
    cases h with
    | block h hb =>
      rw [List.append_assoc]
      exact .block h (hb.switch hk he)

/-- What a run of accepted tokens adds. -/
theorem acceptAll (h : b.Reads ts) (ha : (b.acceptAll us).2 = .ok after) :
    after.Reads (ts ++ us) := by
  induction us generalizing b ts with
  | nil =>
    obtain rfl := Except.ok.inj ha
    simpa using h
  | cons u us ih =>
    obtain ⟨next, hu, ha⟩ := acceptAll_cons_eq_ok ha
    rw [List.append_cons]
    exact ih (h.accept hu) ha

end Builder.Reads

theorem Builder.start_reads : start.Reads [] := .root .nil

def Builder.pushAll (b : Builder) (ns : List Node) : Builder := ns.foldl Builder.push b

/-- The tokens are accepted anywhere, and add the nodes. -/
def Builds (ts : List Token) (ns : List Node) : Prop :=
  ∀ b : Builder, (b.acceptAll ts).2 = .ok (b.pushAll ns)

/-- The tokens are accepted inside a block, and add the nodes to its second branch. -/
def BuildsElse (k : BlockKind) (ts : List Token) (ns : List Node) : Prop :=
  ∀ (root : List Node) (block : OpenBlock) (outer : List OpenBlock), block.kind = k →
    ∃ inElse : Bool, (Builder.acceptAll ⟨root, block :: outer⟩ ts).2 =
      .ok ⟨root, { block with otherwise := block.otherwise ++ ns, inElse := inElse } :: outer⟩

theorem Builder.pushAll_root (ns ms : List Node) : pushAll ⟨ns, []⟩ ms = ⟨ns ++ ms, []⟩ := by
  induction ms generalizing ns with
  | nil => simp [pushAll]
  | cons m ms ih =>
    have hs := ih (ns ++ [m])
    simpa [pushAll, push] using hs

theorem Builder.pushAll_body (root ns : List Node) (block : OpenBlock) (outer : List OpenBlock)
    (h : block.inElse = false) :
    pushAll ⟨root, block :: outer⟩ ns =
      ⟨root, { block with body := block.body ++ ns } :: outer⟩ := by
  induction ns generalizing block with
  | nil => simp [pushAll]
  | cons n ns ih =>
    have hs := ih { block with body := block.body ++ [n] } h
    simpa [pushAll, push, OpenBlock.push, h] using hs

theorem Builder.pushAll_otherwise (root ns : List Node) (block : OpenBlock)
    (outer : List OpenBlock) (h : block.inElse = true) :
    pushAll ⟨root, block :: outer⟩ ns =
      ⟨root, { block with otherwise := block.otherwise ++ ns } :: outer⟩ := by
  induction ns generalizing block with
  | nil => simp [pushAll]
  | cons n ns ih =>
    have hs := ih { block with otherwise := block.otherwise ++ [n] } h
    simpa [pushAll, push, OpenBlock.push, h] using hs

namespace Builds

variable {ts us : List Token} {ns ms : List Node} {t : Token}

theorem nil : Builds [] [] := fun _ => rfl

theorem append (h : Builds ts ns) (h' : Builds us ms) : Builds (ts ++ us) (ns ++ ms) := by
  intro b
  rw [Builder.acceptAll_append_ok (h b), h']
  simp [Builder.pushAll]

theorem text (ht : t.kind = .text) : Builds [t] [.text t.value] := by
  intro b
  rw [Builder.acceptAll_cons_ok (Builder.accept_text ht)]
  rfl

theorem value {f : Fence} (ht : t.IsValue f) :
    Builds [t] [Node.ofFence f (Path.parse t.value)] := by
  intro b
  rw [Builder.acceptAll_cons_ok (Builder.accept_value ht)]
  rfl

/-- What stands in a block fills its branches and leaves all around it alone. -/
theorem within {k : BlockKind} (h : Builds ts ns) (h' : BuildsElse k us ms) (b : Builder)
    (p : Path) (span : Span) :
    ∃ inElse : Bool, ((b.openBlock k p span).acceptAll (ts ++ us)).2 =
      .ok ⟨b.root, ⟨k, p, span, ns, ms, inElse⟩ :: b.blocks⟩ := by
  have hbody := h (b.openBlock k p span)
  rw [Builder.openBlock, Builder.pushAll_body _ _ _ _ rfl] at hbody
  obtain ⟨inElse, helse⟩ := h' b.root ⟨k, p, span, [] ++ ns, [], false⟩ b.blocks rfl
  exact ⟨inElse, (Builder.acceptAll_append_ok hbody us).trans helse⟩

/-- A block adds one node. -/
theorem block {k : BlockKind} (tags : BlockTags k) (h : Builds ts ns) (h' : BuildsElse k us ms) :
    Builds (tags.opening :: (ts ++ (us ++ [tags.closing])))
      [Node.ofBlock k (Path.parse tags.expr) ns ms] := by
  intro b
  obtain ⟨inElse, hwithin⟩ := h.within h' b (Path.parse tags.expr) tags.opening.span
  rw [Builder.acceptAll_cons_ok (Builder.accept_opening tags.opens), ← List.append_assoc,
    Builder.acceptAll_append_ok hwithin,
    Builder.acceptAll_cons_ok (Builder.accept_closes tags.closes)]
  rfl

end Builds

namespace BuildsElse

variable {k : BlockKind} {ts us : List Token} {ns ms : List Node}

theorem nil : BuildsElse k [] [] := fun root block outer _ => ⟨block.inElse, by simp⟩

theorem cons (hk : k.takesElse = true) {mark : Token} (hm : mark.IsElse) (h : Builds ts ns)
    (h' : BuildsElse k us ms) : BuildsElse k (mark :: (ts ++ us)) (ns ++ ms) := by
  intro root block outer hkind
  have hswitch : Builder.accept ⟨root, block :: outer⟩ mark =
      .ok ⟨root, { block with inElse := true } :: outer⟩ := by
    rw [Builder.accept_else hm, Builder.switchBranch_eq_ok]
    exact ⟨block, outer, rfl, hkind ▸ hk, rfl⟩
  have hitems := h ⟨root, { block with inElse := true } :: outer⟩
  rw [Builder.pushAll_otherwise _ _ _ _ rfl] at hitems
  obtain ⟨inElse, hlater⟩ :=
    h' root { block with otherwise := block.otherwise ++ ns, inElse := true } outer hkind
  refine ⟨inElse, ?_⟩
  rw [Builder.acceptAll_cons_ok hswitch, Builder.acceptAll_append_ok hitems, hlater,
    List.append_assoc]

end BuildsElse

mutual

/-- What is derived is accepted, and builds the tree of the derivation. -/
theorem Items.builds : ∀ d : Items, Builds d.tokens d.nodes
  | .nil => .nil
  | .text _ ht rest => (Builds.text ht).append rest.builds
  | .value t f ht rest => by
    rw [Items.nodes_value]
    exact (Builds.value ht).append rest.builds
  | .block k tags body elses rest => by
    have h := (Builds.block tags body.builds elses.builds).append rest.builds
    simpa [Items.tokens, Items.nodes_block] using h

theorem Elses.builds {k : BlockKind} : ∀ e : Elses k, BuildsElse k e.tokens e.nodes
  | .nil => .nil
  | .cons hk _ hm items rest =>
    .cons (BlockKind.takesElse_iff.mpr hk) hm items.builds rest.builds

end

/-- A template compiles if it is cut into tokens without a fault, and all of them are accepted
and leave no block open. -/
theorem Node.parse_eq_ok {s : String} {root : Node} :
    Node.parse s = .ok root ↔
      (tokenize s).2 = none ∧ ∃ ns, root = .container ns ∧
        (Builder.start.acceptAll (tokenize s).1).2 = .ok ⟨ns, []⟩ := by
  unfold Node.parse Node.ofScanner Node.ofTokens tokenize
  generalize (Scanner.start s).drain = drained
  obtain ⟨tokens, fault⟩ := drained
  cases hb : (Builder.start.acceptAll tokens).2 with
  | error e => simp [hb]
  | ok b =>
    obtain ⟨ns, blocks⟩ := b
    cases fault with
    | some e => simp [hb]
    | none => cases blocks <;> simp [hb, Builder.finish, eq_comm]

/-- The builder accepts just what the grammar of blocks derives. -/
theorem acceptAll_start_iff {ts : List Token} {ns : List Node} :
    (Builder.start.acceptAll ts).2 = .ok ⟨ns, []⟩ ↔ ∃ d : Items, d.tokens = ts ∧ d.nodes = ns := by
  constructor
  · intro h
    have hr := Builder.start_reads.acceptAll h
    rw [List.nil_append] at hr
    cases hr with
    | root d => exact ⟨d, rfl, rfl⟩
  · intro h
    obtain ⟨d, rfl, rfl⟩ := h
    rw [d.builds, Builder.start, Builder.pushAll_root, List.nil_append]

/-- A template that is cut into tokens without a fault compiles exactly if the grammar of blocks
derives its tokens, to the tree of the only derivation. -/
theorem parse_eq_ok_iff_derives (s : String) :
    (∀ root : Node, Node.parse s = .ok root ↔
      (tokenize s).2 = none ∧
        ∃ d : Items, d.tokens = (tokenize s).1 ∧ root = .container d.nodes) ∧
      Function.Injective Items.tokens := by
  refine ⟨fun root => ?_, Items.tokens_injective⟩
  rw [Node.parse_eq_ok]
  refine and_congr_right fun _ => ?_
  constructor
  · intro h
    obtain ⟨ns, rfl, h⟩ := h
    obtain ⟨d, ht, rfl⟩ := acceptAll_start_iff.mp h
    exact ⟨d, ht, rfl⟩
  · intro h
    obtain ⟨d, ht, rfl⟩ := h
    exact ⟨d.nodes, rfl, acceptAll_start_iff.mpr ⟨d, ht, rfl⟩⟩

end BraceTemplate
