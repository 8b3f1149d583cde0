import BraceTemplate.Proofs.Building
import BraceTemplate.Proofs.FrontTokens

namespace BraceTemplate

/-- The tokens leave a block open and none inside it: behind its opening tag stand complete items,
and the branches of a conditional block. -/
structure InnermostOpen (ts before : List Token) (opening : Token) (k : BlockKind) : Prop where
  opens : ∃ expr, opening.Opens k expr
  split : ∃ (body : Items) (elses : Elses k),
    ts = before ++ opening :: (body.tokens ++ elses.tokens)

namespace InnermostOpen

variable {ts before : List Token} {opening : Token} {k : BlockKind}

/-- The opening tag stands behind the text of all tokens before it. -/
theorem span_eq (h : InnermostOpen ts before opening k) {offset : Nat} (hp : Placed offset ts) :
    opening.span =
      ⟨offset + Text.size (before.flatMap Token.source), Text.size opening.source⟩ := by
  obtain ⟨body, elses, rfl⟩ := h.split
  exact hp.span_of_append_cons

theorem size_opening_pos (h : InnermostOpen ts before opening k) :
    0 < Text.size opening.source := by
  obtain ⟨expr, ⟨f, hk⟩, -⟩ := h.opens
  have hsource : opening.source = (Piece.tag f opening.value.toList).source := by
    rw [Token.source, hk]
    rfl
  rw [hsource]
  exact Text.size_pos (Piece.source_tag_ne_nil f _)

theorem size_lt (h : InnermostOpen ts before opening k) :
    Text.size (before.flatMap Token.source) < Text.size (ts.flatMap Token.source) := by
  have hpos := h.size_opening_pos
  obtain ⟨body, elses, rfl⟩ := h.split
  rw [List.flatMap_append, List.flatMap_cons, Text.size_append, Text.size_append]
  omega

end InnermostOpen

theorem OpenBlock.Reads.innermost {block : OpenBlock} {ts : List Token} (h : block.Reads ts)
    (before : List Token) :
    ∃ opening, InnermostOpen (before ++ ts) before opening block.kind ∧
      block.span = opening.span := by
  cases h with
  | @body _ expr opening ho body =>
    exact ⟨opening, ⟨⟨expr, ho⟩, body, .nil, by simp [Elses.tokens]⟩, rfl⟩
  | @branch _ expr opening mark ho hk hm body elses items =>
    have hk := BlockKind.takesElse_iff.mp hk
    refine ⟨opening, ⟨⟨expr, ho⟩, body, elses.append (.cons hk mark hm items .nil), ?_⟩, rfl⟩
    simp [Elses.tokens_append, Elses.tokens]

namespace Builder.Reads

variable {root : List Node} {block : OpenBlock} {outer : List OpenBlock} {ts : List Token}

theorem none_open (h : Builder.Reads ⟨root, []⟩ ts) : ∃ d : Items, ts = d.tokens := by
  cases h with
  | root d => exact ⟨d, rfl⟩

/-- The first block of a builder is the innermost that its tokens leave open, and the others are
those that the tokens before it leave open. -/
theorem innermost (h : Builder.Reads ⟨root, block :: outer⟩ ts) :
    ∃ before opening, InnermostOpen ts before opening block.kind ∧ block.span = opening.span ∧
      Builder.Reads ⟨root, outer⟩ before := by
  cases h with
  | @block _ _ _ before us h hb =>
    obtain ⟨opening, hopen, hspan⟩ := hb.innermost before
    exact ⟨before, opening, hopen, hspan, h⟩

/-- Blocks stand before those that they hold. -/
theorem outer_before {offset : Nat} {inner : OpenBlock}
    (h : Builder.Reads ⟨root, inner :: block :: outer⟩ ts) (hp : Placed offset ts) :
    block.span.offset < inner.span.offset := by
  obtain ⟨before, opening, hopen, hspan, hbefore⟩ := h.innermost
  obtain ⟨before', opening', hopen', hspan', -⟩ := hbefore.innermost
  have hplaced : Placed offset before := by
    obtain ⟨body, elses, rfl⟩ := hopen.split
    exact (placed_append.mp hp).1
  rw [hspan, hspan', hopen.span_eq hp, hopen'.span_eq hplaced]
  exact Nat.add_lt_add_left hopen'.size_lt offset

end Builder.Reads

/-- An accepted run is an accepted run of its first tokens, and one of the others from there. -/
theorem Builder.acceptAll_append_eq_ok {b after : Builder} {ts us : List Token}
    (h : (b.acceptAll (ts ++ us)).2 = .ok after) :
    ∃ mid, (b.acceptAll ts).2 = .ok mid ∧ (mid.acceptAll us).2 = .ok after := by
  rw [acceptAll_append] at h
  cases hts : (b.acceptAll ts).2 with
  | error e =>
    rw [hts] at h
    cases h
  | ok mid =>
    rw [hts] at h
    exact ⟨mid, rfl, h⟩

namespace InnermostOpen

variable {ts before before' : List Token} {opening opening' : Token} {k k' : BlockKind}

/-- Whatever is open before, the innermost open block of the tokens is the first that their builder
holds. -/
theorem span_head (h : InnermostOpen ts before opening k) {b after : Builder}
    (ha : (b.acceptAll ts).2 = .ok after) :
    ∃ block outer, after.blocks = block :: outer ∧ block.span = opening.span := by
  obtain ⟨expr, hopens⟩ := h.opens
  obtain ⟨body, elses, rfl⟩ := h.split
  obtain ⟨mid, -, hmid⟩ := Builder.acceptAll_append_eq_ok ha
  obtain ⟨inElse, hwithin⟩ := body.builds.within elses.builds mid (Path.parse expr) opening.span
  rw [Builder.acceptAll_cons_ok (Builder.accept_opening hopens)] at hmid
  obtain rfl := Except.ok.inj (hwithin.symm.trans hmid)
  exact ⟨_, _, rfl, rfl⟩

/-- What stands in a block leaves no other block open. -/
theorem not_within (body : Items) (elses : Elses k) :
    ¬ InnermostOpen (body.tokens ++ elses.tokens) before opening' k' := by
  intro h
  -- the block around them stays the first that the builder holds, and its span can be any
  let span : Span := ⟨opening'.span.offset + 1, 0⟩
  obtain ⟨inElse, hrun⟩ := body.builds.within elses.builds .start (Path.parse "") span
  obtain ⟨block, outer, hblocks, hspan⟩ := h.span_head hrun
  obtain ⟨rfl, -⟩ := List.cons.inj hblocks
  have hoffset := congrArg Span.offset hspan
  dsimp only [span] at hoffset
  omega

theorem eq_of_prefix (h : InnermostOpen ts before opening k)
    (h' : InnermostOpen ts before' opening' k') (hb : before <+: before') : before = before' := by
  obtain ⟨mid, rfl⟩ := hb
  cases mid with
  | nil => rw [List.append_nil]
  | cons t mid =>
    obtain ⟨body, elses, hs⟩ := h.split
    obtain ⟨body', elses', hs'⟩ := h'.split
    rw [hs, List.append_assoc] at hs'
    obtain ⟨-, hwithin⟩ := List.cons.inj (List.append_cancel_left hs')
    exact absurd ⟨h'.opens, body', elses', hwithin⟩ (not_within body elses)

/-- The tokens leave one block innermost at most, so there is one keyword that a closing tag behind
them can have. -/
theorem unique (h : InnermostOpen ts before opening k)
    (h' : InnermostOpen ts before' opening' k') :
    before = before' ∧ opening = opening' ∧ k = k' := by
  obtain ⟨body, elses, hs⟩ := h.split
  obtain ⟨body', elses', hs'⟩ := h'.split
  obtain rfl : before = before' :=
    (List.prefix_or_prefix_of_prefix ⟨_, hs.symm⟩ ⟨_, hs'.symm⟩).elim (h.eq_of_prefix h')
      fun hb => (h'.eq_of_prefix h hb).symm
  obtain ⟨rfl, -⟩ := List.cons.inj (List.append_cancel_left (hs.symm.trans hs'))
  obtain ⟨expr, ho⟩ := h.opens
  obtain ⟨expr', ho'⟩ := h'.opens
  exact ⟨rfl, rfl, (ho.unique ho').1⟩

end InnermostOpen

namespace Builder

variable {b : Builder} {t : Token} {error : CompileError}

/-- Why a builder refuses a token: what the token asks for does not fit the innermost open
block. -/
inductive Refuses (b : Builder) (t : Token) : Fault → Prop
  | unsupported {keyword expr : String} (ho : t.OpensWith keyword expr)
      (hk : ∀ k : BlockKind, k.keyword ≠ keyword) : Refuses b t (.unsupportedBlock keyword)
  | unbalanced {name : String} (hc : t.ClosesWith name) (hb : b.blocks = []) :
      Refuses b t .unbalancedBlocks
  | unmatched {name : String} {block : OpenBlock} {outer : List OpenBlock}
      (hc : t.ClosesWith name) (hb : b.blocks = block :: outer) (hn : block.kind.keyword ≠ name) :
      Refuses b t (.unmatchedCloseTag block.kind name)
  | invalidElse (he : t.IsElse) (hb : ∀ block ∈ b.blocks.head?, block.kind.takesElse = false) :
      Refuses b t .invalidElse

/-- There are no other refusals, and each is found at the token itself. -/
theorem refuses_of_accept (h : b.accept t = .error error) :
    error.span = t.span ∧ b.Refuses t error.fault := by
  obtain ⟨root, blocks⟩ := b
  cases hk : t.kind with
  | text => simp [accept, hk] at h
  | tag f =>
    have ht := Token.tag?_eq_some.mpr ⟨⟨f, hk⟩, rfl⟩
    generalize Tag.ofBody t.value = tag at ht
    have hbody := (Token.tag?_eq_some.mp ht).2
    cases tag with
    | value expr => simp [accept, hk, hbody] at h
    | opening keyword expr =>
      cases hw : BlockKind.ofKeyword? keyword with
      | some k => simp [accept, hk, hbody, hw] at h
      | none =>
        simp only [accept, hk, hbody, hw] at h
        obtain rfl := Except.error.inj h
        refine ⟨rfl, .unsupported (Token.opensWith_iff.mpr ht) fun k hkeyword => ?_⟩
        rw [← hkeyword, BlockKind.ofKeyword?_keyword] at hw
        cases hw
    | closing name =>
      have hc := Token.closesWith_iff.mpr ht
      rw [accept_closing hc] at h
      cases blocks with
      | nil =>
        obtain rfl := Except.error.inj h
        exact ⟨rfl, .unbalanced hc rfl⟩
      | cons block outer =>
        by_cases hn : block.kind.keyword = name
        · simp [closeBlock, hn] at h
        · simp only [closeBlock, if_neg hn] at h
          obtain rfl := Except.error.inj h
          exact ⟨rfl, .unmatched hc rfl hn⟩
    | otherwise =>
      have he := Token.isElse_iff.mpr ht
      rw [accept_else he] at h
      cases blocks with
      | nil =>
        obtain rfl := Except.error.inj h
        exact ⟨rfl, .invalidElse he (by simp)⟩
      | cons block outer =>
        cases hk : block.kind.takesElse with
        | true => simp [switchBranch, hk] at h
        | false =>
          simp only [switchBranch, hk] at h
          obtain rfl := Except.error.inj h
          exact ⟨rfl, .invalidElse he (by simpa using hk)⟩

/-- A run of tokens that fails does so at one token, and those before it are accepted. -/
theorem exists_refused {ts : List Token} (h : (b.acceptAll ts).2 = .error error) :
    ∃ before t later after, ts = before ++ t :: later ∧ (b.acceptAll before).2 = .ok after ∧
      after.accept t = .error error := by
  induction ts generalizing b with
  | nil => cases h
  | cons t ts ih =>
    rw [acceptAll_cons] at h
    cases ht : b.accept t with
    | error e =>
      rw [ht] at h
      obtain rfl := Except.error.inj h
      exact ⟨[], t, ts, b, rfl, rfl, ht⟩
    | ok next =>
      rw [ht] at h
      obtain ⟨before, u, later, after, rfl, hbefore, hu⟩ := ih h
      exact ⟨t :: before, u, later, after, rfl, by rwa [acceptAll_cons_ok ht], hu⟩

end Builder
end BraceTemplate
