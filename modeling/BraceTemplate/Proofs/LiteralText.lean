import BraceTemplate.Proofs.Concatenation
import BraceTemplate.Proofs.ScopePaths
import Mathlib.Data.List.Flatten
import Mathlib.Tactic.TFAE

namespace BraceTemplate

namespace Context

/-- No path finds a value other than `null`. -/
def FindsNothing (c : Context) : Prop := ∀ p, c.get? p = none ∨ c.get? p = some .null

/-- There is nothing to find in `null`. -/
theorem findsNothing_null (flag : Bool) : (start .null flag).FindsNothing := by
  intro p
  rw [get?_start]
  cases p.segments with
  | nil => exact .inr rfl
  | cons segment segments => exact .inl rfl

namespace FindsNothing

variable {c : Context}

theorem text?_eq_none (h : c.FindsNothing) (p : Path) :
    (c.get? p).bind Json.Value.text? = none := by
  rcases h p with hp | hp <;> rw [hp] <;> rfl

theorem isTruthy_eq_false (h : c.FindsNothing) (p : Path) : c.isTruthy p = false := by
  unfold isTruthy
  rcases h p with hp | hp <;> rw [hp] <;> rfl

theorem turns_eq_nil (h : c.FindsNothing) (p : Path) : c.turns p = [] := by
  unfold turns items
  rcases h p with hp | hp <;> rw [hp] <;> rfl

theorem inner?_eq_none (h : c.FindsNothing) (p : Path) : c.inner? p = none := by
  unfold inner?
  rcases h p with hp | hp <;> rw [hp]

end FindsNothing

end Context

namespace Node

variable {c : Context}

theorem chunks_ofFence_eq_nil (hc : c.FindsNothing) (f : Fence) (p : Path) :
    (ofFence f p).chunks c = [] := by
  cases f <;> simp [ofFence, chunks, hc.text?_eq_none]

/-- Of a block that finds nothing at most one branch is written, and that once. -/
theorem chunks_ofBlock_sublist (hc : c.FindsNothing) (k : BlockKind) (p : Path)
    (body otherwise : List Node) :
    ((ofBlock k p body otherwise).chunks c).Sublist
      (chunksAll body c ++ chunksAll otherwise c) := by
  cases k with
  | ifBlock =>
    simp only [ofBlock, chunks, hc.isTruthy_eq_false p]
    exact List.sublist_append_right _ _
  | unlessBlock =>
    simp only [ofBlock, chunks, hc.isTruthy_eq_false p]
    exact List.sublist_append_left _ _
  | eachBlock =>
    simp only [ofBlock, chunks, hc.turns_eq_nil p]
    exact List.nil_sublist _
  | withBlock =>
    simp only [ofBlock, chunks, hc.inner?_eq_none p]
    exact List.nil_sublist _

end Node

namespace Token

def text? (t : Token) : Option String :=
  match t.kind with
  | .text => some t.value
  | .tag _ => none

theorem text?_of_text {t : Token} (h : t.kind = .text) : t.text? = some t.value := by
  simp [text?, h]

theorem text?_of_tag {t : Token} (h : ∃ f, t.kind = .tag f) : t.text? = none := by
  obtain ⟨f, hf⟩ := h
  simp [text?, hf]

/-- A tag has four braces at least. -/
theorem length_source_of_tag {t : Token} (h : ∃ f, t.kind = .tag f) : 4 ≤ t.source.length := by
  obtain ⟨f, hf⟩ := h
  cases f <;> simp [source, hf, Fence.opening, Fence.closing, Fence.width]

/-- A template is longer than its literal text by the braces of its tags at least. -/
theorem length_texts_add_le (ts : List Token) :
    ((ts.filterMap text?).flatMap String.toList).length + 4 * (ts.countP (·.text?.isNone)) ≤
      (ts.flatMap source).length := by
  induction ts with
  | nil => rfl
  | cons t ts ih =>
    cases hk : t.kind with
    | text =>
      have ht := text?_of_text hk
      have hsource : t.source = t.value.toList := by simp [source, hk]
      simp only [List.filterMap_cons_some ht, List.countP_cons_of_neg, ht, Option.isNone_some,
        Bool.false_eq_true, not_false_eq_true, List.flatMap_cons, List.length_append, hsource]
      omega
    | tag f =>
      have ht := text?_of_tag ⟨f, hk⟩
      have hsource := length_source_of_tag ⟨f, hk⟩
      simp only [List.filterMap_cons_none ht, List.countP_cons_of_pos, ht, Option.isNone_none,
        List.flatMap_cons, List.length_append]
      omega

end Token

section

variable {c : Context}

mutual

/-- Where nothing is found, what is written is literal text of the template: none of it twice, and
in the order in which it stands there. -/
theorem Items.chunks_sublist (d : Items) (hc : c.FindsNothing) :
    (Node.chunksAll d.nodes c).Sublist (d.tokens.filterMap Token.text?) := by
  cases d with
  | nil => exact .slnil
  | text t ht rest =>
    rw [Items.nodes, Items.tokens, List.filterMap_cons_some (Token.text?_of_text ht)]
    exact .cons_cons t.value (rest.chunks_sublist hc)
  | value t f ht rest =>
    rw [Items.nodes_value, Items.tokens, List.filterMap_cons_none (Token.text?_of_tag ⟨f, ht.1⟩),
      Node.chunksAll, Node.chunks_ofFence_eq_nil hc]
    exact rest.chunks_sublist hc
  | block k tags body elses rest =>
    -- all `else` branches together are one branch of the node, so none is counted twice
    have hblock := Node.chunks_ofBlock_sublist hc k (Path.parse tags.expr) body.nodes elses.nodes
    have hbranches := (body.chunks_sublist hc).append (elses.chunks_sublist hc)
    have hwhole := (hblock.trans hbranches).append (rest.chunks_sublist hc)
    rw [Items.nodes_block, Items.tokens, Node.chunksAll,
      List.filterMap_cons_none (Token.text?_of_tag tags.opens.1), List.filterMap_append,
      List.filterMap_append, List.filterMap_cons_none (Token.text?_of_tag tags.closes.1),
      ← List.append_assoc]
    exact hwhole

theorem Elses.chunks_sublist {k : BlockKind} (e : Elses k) (hc : c.FindsNothing) :
    (Node.chunksAll e.nodes c).Sublist (e.tokens.filterMap Token.text?) := by
  match e with
  | .nil => exact .slnil
  | .cons hk mark hm items rest =>
    rw [Elses.nodes, Elses.tokens, Node.chunksAll_append,
      List.filterMap_cons_none (Token.text?_of_tag hm.1), List.filterMap_append]
    exact (items.chunks_sublist hc).append (rest.chunks_sublist hc)

end

end

/-- A tag makes the output over `null` shorter than the template. -/
theorem length_chunks_lt {d : Items} {t : Token} (ht : t ∈ d.tokens) (hk : ∃ f, t.kind = .tag f)
    {c : Context} (hc : c.FindsNothing) :
    (String.join (Node.chunksAll d.nodes c)).toList.length <
      (d.tokens.flatMap Token.source).length := by
  have htags : 0 < d.tokens.countP (·.text?.isNone) :=
    List.countP_pos_iff.mpr ⟨t, ht, by simp [Token.text?_of_tag hk]⟩
  have hwritten := ((d.chunks_sublist hc).flatMap String.toList).length_le
  have hsource := Token.length_texts_add_le d.tokens
  rw [String.toList_join]
  omega

theorem Front.exists_tag {offset : Nat} {ts : List Token} (h : Front offset ts) (hne : ts ≠ []) :
    ∃ t ∈ ts, ∃ f, t.kind = .tag f := by
  have hkind := h.endsInTag _ (List.getLast?_eq_some_getLast hne)
  cases hk : (ts.getLast hne).kind with
  | text => exact absurd hk hkind
  | tag f => exact ⟨_, List.getLast_mem hne, f, hk⟩

/-- Output that is the template itself leaves no room for a tag. -/
theorem toEnd_of_chunks_eq {cs : List Char} {ns : List Node} {c : Context}
    (hns : Builder.start.complete (tokensFrom 0 cs) = .ok ns) (hc : c.FindsNothing)
    (h : (String.join (Node.chunksAll ns c)).toList = cs) : PlainToEnd cs := by
  obtain ⟨ts, tail, hts, hcs, hending⟩ := exists_ending cs
  rw [hns] at hending
  cases hending with
  | complete haccept htail =>
    obtain ⟨d, rfl, rfl⟩ := acceptAll_start_iff.mp haccept
    have hnone : d.tokens = [] := by
      by_contra hne
      obtain ⟨t, ht, htag⟩ := hts.exists_tag hne
      have hlt := length_chunks_lt ht htag hc
      -- the text behind the last tag is on both sides
      rw [Node.chunksAll_append, String.join_append, join_chunksAll_ofText,
        String.toList_append, String.toList_ofList] at h
      have hlength := congrArg List.length (h.trans hcs)
      simp only [List.length_append] at hlength
      omega
    rwa [hcs, hnone]

theorem complete_toEnd {cs : List Char} (h : PlainToEnd cs) :
    Builder.start.complete (tokensFrom 0 cs) = .ok (Node.ofText cs) := by
  have hread := Builder.complete_ofText .start 0 cs ([], none)
  rw [List.append_nil] at hread
  rw [tokensFrom_end h, hread, Builder.start, Builder.pushAll_root]
  rfl

/-- Just the templates without a tag are their own output. Up to three braces may end them, and no
two stand together elsewhere. Over `null` already, any other template writes less than it is
long. -/
theorem literal_tfae (s : String) (o : Options) :
    List.TFAE [
      ∃ t, Template.compile s o = .ok t ∧ ∀ data, t.render data = .ok s,
      ∃ t, Template.compile s o = .ok t ∧ t.render .null = .ok s,
      PlainToEnd s.toList,
      Template.compile s o = .ok ⟨.container (if s = "" then [] else [.text s]), o⟩] := by
  tfae_have 1 → 2 := fun ⟨t, ht, hrender⟩ => ⟨t, ht, hrender .null⟩
  tfae_have 2 → 3 := by
    rintro ⟨t, ht, hrender⟩
    obtain ⟨ns, hns, rfl⟩ := Template.compile_eq_ok_iff.mp ht
    rw [Template.render_eq] at hrender
    have houtput := congrArg String.toList (Except.ok.inj hrender)
    exact toEnd_of_chunks_eq hns (Context.findsNothing_null o.iterationMetadata) houtput
  tfae_have 3 → 4 := by
    intro h
    have hroot : Node.ofText s.toList = if s = "" then [] else [.text s] := by
      simp [Node.ofText]
    rw [← hroot]
    exact Template.compile_eq_ok_iff.mpr ⟨_, complete_toEnd h, rfl⟩
  tfae_have 4 → 1 := by
    intro h
    refine ⟨_, h, fun data => ?_⟩
    rw [Template.render_eq]
    by_cases hs : s = ""
    · simp [hs, Node.chunks, Node.chunksAll]
    · simp [hs, Node.chunks, Node.chunksAll]
  tfae_finish

/-- Braces that do not open a tag, and braces at the end. -/
example : Template.compile "a\x7d\x7d \x7b b\x7b\x7b\x7b" .default =
    .ok ⟨.container [.text "a\x7d\x7d \x7b b\x7b\x7b\x7b"], .default⟩ := by decide +kernel

end BraceTemplate
