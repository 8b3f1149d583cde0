import BraceTemplate.Proofs.ErrorFinality

namespace BraceTemplate

structure StandsAt (tokens : List Token) (before shown : List Char) (earlier : List Token)
    (t : Token) : Prop where
  read : ∃ later, tokens = earlier ++ t :: later
  before : before = earlier.flatMap Token.source
  shown : shown = t.source

/-- What a fault looks like in a template that is cut into tokens: the text that shows it and what
stands before and after that. -/
inductive Shows (cut : List Token × Option CompileError) (before shown after : List Char) :
    Fault → Prop
  | emptyExpression (f : Fence) (hs : shown = f.opening ++ f.closing) :
      Shows cut before shown after .emptyExpression
  | tooManyBraces {u : List Char} (hb : before = u ++ List.replicate 3 '{')
      (hu : u.getLast? ≠ some '{') (hs : shown = ['{']) :
      Shows cut before shown after .tooManyBraces
  | unclosedExpression {body : List Char} (f : Fence) (hs : shown = f.opening ++ body)
      (hne : body ≠ []) (hfirst : body.head? ≠ some '{') (hc : ¬ f.closing <:+: body)
      (ha : after = []) : Shows cut before shown after .unclosedExpression
  | invalidElse {ts : List Token} {t : Token} (f : Fence)
      (ht : StandsAt cut.1 before shown ts t)
      (hs : shown = f.opening ++ "else".toList ++ f.closing)
      (ho : (∃ d : Items, ts = d.tokens) ∨
        ∃ tb opening k, InnermostOpen ts tb opening k ∧ k.takesElse = false) :
      Shows cut before shown after .invalidElse
  | unsupportedBlock {ts : List Token} {t : Token} {keyword expr : String}
      (ht : StandsAt cut.1 before shown ts t) (ho : t.OpensWith keyword expr)
      (hk : ∀ k : BlockKind, k.keyword ≠ keyword) :
      Shows cut before shown after (.unsupportedBlock keyword)
  | unbalancedBlocks {ts : List Token} {t : Token} {name : String}
      (ht : StandsAt cut.1 before shown ts t) (hc : t.ClosesWith name)
      (ho : ∃ d : Items, ts = d.tokens) : Shows cut before shown after .unbalancedBlocks
  | unmatchedCloseTag {ts tb : List Token} {t opening : Token} {k : BlockKind} {name : String}
      (ht : StandsAt cut.1 before shown ts t) (hc : t.ClosesWith name)
      (ho : InnermostOpen ts tb opening k) (hn : k.keyword ≠ name) :
      Shows cut before shown after (.unmatchedCloseTag k name)
  | unclosedBlock {tb : List Token} {opening : Token} {k : BlockKind}
      (ht : StandsAt cut.1 before shown tb opening) (hend : cut.2 = none)
      (ho : InnermostOpen cut.1 tb opening k) : Shows cut before shown after (.unclosedBlock k)

/-- Where the fault of a template is found. What stands before it is wrong in nothing but blocks
that are still open, and with the text that shows the fault the template fails as a whole. -/
structure Located (cs before shown after : List Char) (error : CompileError) : Prop where
  source : cs = before ++ (shown ++ after)
  span : error.span = ⟨Text.size before, Text.size shown⟩
  clean : ∀ e, Builder.start.complete (tokensFrom 0 before) = .error e →
    ∃ k, e.fault = .unclosedBlock k
  found : Builder.start.complete (tokensFrom 0 (before ++ shown)) = .error error

theorem Builder.fault_of_close {b : Builder} {error : CompileError}
    (h : b.close none = .error error) : ∃ k, error.fault = .unclosedBlock k := by
  obtain ⟨root, blocks⟩ := b
  cases blocks with
  | nil => cases h
  | cons block outer =>
    obtain rfl := Except.error.inj h
    exact ⟨block.kind, rfl⟩

/-- The tokens before a tag, without and with it. -/
theorem Front.of_lexical {offset : Nat} {ts later : List Token} {t : Token}
    (h : Lexical (ts ++ t :: later)) (hp : Placed offset (ts ++ t :: later))
    (ht : t.kind ≠ .text) :
    Spells offset (ts.flatMap Token.source) ts ∧ Front offset (ts ++ [t]) := by
  obtain ⟨hinside, hlater, -⟩ := (lexical_append (by simp)).mp h
  obtain ⟨hts, hspan, -⟩ := placed_append.mp hp
  have htag := (lexical_cons.mp hlater).2.1
  refine ⟨⟨hinside.lexical, rfl, hts⟩, ?_, placed_append.mpr ⟨hts, hspan, trivial⟩, ?_⟩
  · refine inside_append.mpr ⟨hinside, ?_, .of_head (by simpa using ht) ts⟩
    exact inside_singleton.mpr ⟨fun hk => absurd hk ht, htag⟩
  · simpa using ht

theorem Front.getLast_append_plain {offset : Nat} {ts : List Token} {u : List Char}
    (h : Front offset ts) (hu : Plain u) :
    (ts.flatMap Token.source ++ u).getLast? ≠ some '{' := by
  by_cases hne : u = []
  · subst hne
    rcases List.eq_nil_or_concat ts with rfl | ⟨ts, t, rfl⟩
    · simp
    · cases hk : t.kind with
      | text => exact absurd hk (h.endsInTag t (by simp))
      | tag f =>
        have hclosing : t.source.getLast? = some '}' := by
          rw [Token.source, hk]
          cases f <;> simp [Fence.closing, Fence.width, List.replicate_succ]
        rw [List.append_nil, List.concat_eq_append, List.flatMap_append, List.flatMap_singleton,
          List.mem_getLast?_append_of_mem_getLast? hclosing]
        decide
  · rw [List.getLast?_append_of_ne_nil _ hne]
    exact hu.noBraceLast

/-- A template that has been read without a fault is wrong in nothing but its open blocks. -/
theorem clean_of_accepted {ts : List Token} {b : Builder} {tail : List Char}
    (haccept : (Builder.start.acceptAll ts).2 = .ok b) (hts : Front 0 ts) (htail : PlainToEnd tail)
    {e : CompileError}
    (h : Builder.start.complete (tokensFrom 0 (ts.flatMap Token.source ++ tail)) = .error e) :
    ∃ k, e.fault = .unclosedBlock k := by
  rw [(Ending.of_toEnd haccept htail).complete_eq hts] at h
  exact Builder.fault_of_close h

/-- Complete tokens that are accepted are wrong in nothing but their open blocks. -/
theorem clean_of_spells {ts : List Token} {b : Builder}
    (haccept : (Builder.start.acceptAll ts).2 = .ok b)
    (hts : Spells 0 (ts.flatMap Token.source) ts) {e : CompileError}
    (h : Builder.start.complete (tokensFrom 0 (ts.flatMap Token.source)) = .error e) :
    ∃ k, e.fault = .unclosedBlock k := by
  have hclose := Builder.complete_append_ok haccept ([], none)
  rw [List.append_nil] at hclose
  rw [tokensFrom_of_spells hts, hclose] at h
  exact Builder.fault_of_close h

/-- A token that is refused shows its fault. -/
theorem located_refused {ts later : List Token} {t : Token} {b : Builder} {error : CompileError}
    {tail : List Char} (hts : Front 0 (ts ++ t :: later))
    (haccept : (Builder.start.acceptAll ts).2 = .ok b) (ht : b.accept t = .error error) :
    Located ((ts ++ t :: later).flatMap Token.source ++ tail) (ts.flatMap Token.source) t.source
      (later.flatMap Token.source ++ tail) error := by
  have hkind : t.kind ≠ .text := by
    intro hk
    rw [Builder.accept_text hk] at ht
    cases ht
  have hspan := hts.placed.span_of_append_cons
  obtain ⟨hbefore, hfront⟩ := Front.of_lexical hts.inside.lexical hts.placed hkind
  refine ⟨by simp, ?_, fun e => clean_of_spells haccept hbefore, ?_⟩
  · rw [(Builder.refuses_of_accept ht).1, hspan, Nat.zero_add]
  · have hrefused : (Builder.start.acceptAll (ts ++ [t])).2 = .error error := by
      rw [Builder.acceptAll_append_ok haccept, Builder.acceptAll_cons, ht]
      rfl
    have hending : Ending (ts ++ [t]) [] (.error error) := .refused hrefused
    have hfound := hending.complete_eq hfront
    rwa [List.append_nil, List.flatMap_append, List.flatMap_singleton] at hfound

/-- A token that is refused looks as its fault says. -/
theorem shows_refused {cut : List Token × Option CompileError} {ts later : List Token} {t : Token}
    {b : Builder} {fault : Fault} {after : List Char} (hread : cut.1 = ts ++ t :: later)
    (haccept : (Builder.start.acceptAll ts).2 = .ok b) (ht : b.Refuses t fault) :
    Shows cut (ts.flatMap Token.source) t.source after fault := by
  have hstands : StandsAt cut.1 (ts.flatMap Token.source) t.source ts t :=
    ⟨⟨later, hread⟩, rfl, rfl⟩
  have hreads := Builder.start_reads.acceptAll haccept
  rw [List.nil_append] at hreads
  obtain ⟨root, blocks⟩ := b
  cases ht with
  | unsupported ho hk => exact .unsupportedBlock hstands ho hk
  | unbalanced hc hb =>
    obtain rfl : blocks = [] := hb
    exact .unbalancedBlocks hstands hc hreads.none_open
  | unmatched hc hb hn =>
    obtain rfl := hb
    obtain ⟨before, opening, hopen, -, -⟩ := hreads.innermost
    exact .unmatchedCloseTag hstands hc hopen hn
  | invalidElse he hb =>
    obtain ⟨⟨f, hk⟩, hv⟩ := he
    refine .invalidElse f hstands (by rw [Token.source, hk, hv]) ?_
    cases blocks with
    | nil => exact Or.inl hreads.none_open
    | cons block outer =>
      obtain ⟨before, opening, hopen, -, -⟩ := hreads.innermost
      exact Or.inr ⟨before, opening, block.kind, hopen, hb block rfl⟩

/-- A piece that shows a fault, behind tokens that are accepted. -/
theorem exists_located_faulty {ts : List Token} {b : Builder} {u rest : List Char} {p : Piece}
    {error : CompileError} {cut : List Token × Option CompileError} (hts : Front 0 ts)
    (haccept : (Builder.start.acceptAll ts).2 = .ok b) (hu : Plain u) (hl : p.Leads rest)
    (he : p.fault? (Text.size (ts.flatMap Token.source) + Text.size u) = some error) :
    ∃ before shown after,
      Located (ts.flatMap Token.source ++ (u ++ (p.source ++ rest))) before shown after error ∧
        Shows cut before shown after error.fault := by
  have hfound : ∀ cs, p.Leads cs → Builder.start.complete
      (tokensFrom 0 (ts.flatMap Token.source ++ (u ++ (p.source ++ cs)))) = .error error :=
    fun _ hcs => (Ending.faulty haccept hu hcs he).complete_eq hts
  have hclean : ∀ {k : Nat}, k ≤ 3 → ∀ e, Builder.start.complete
      (tokensFrom 0 (ts.flatMap Token.source ++ (u ++ List.replicate k '{'))) = .error e →
      ∃ k, e.fault = .unclosedBlock k :=
    fun hk _ h => clean_of_accepted haccept hts ⟨u, _, hk, hu, rfl⟩ h
  have hbefore := hclean (Nat.zero_le 3)
  rw [List.replicate_zero, List.append_nil] at hbefore
  cases p with
  | literal | tag => cases he
  | emptyTag f =>
    obtain rfl := Option.some.inj he
    refine ⟨ts.flatMap Token.source ++ u, (Piece.emptyTag f).source, rest,
      ⟨by simp, by rw [Text.size_append], hbefore, ?_⟩, .emptyExpression f rfl⟩
    have h := hfound [] trivial
    rwa [List.append_nil, ← List.append_assoc] at h
  | unclosedTag f body =>
    obtain rfl := Option.some.inj he
    obtain ⟨rfl, hne, hfirst, hc⟩ := hl
    refine ⟨ts.flatMap Token.source ++ u, (Piece.unclosedTag f body).source, [],
      ⟨by simp, by rw [Text.size_append], hbefore, ?_⟩,
      .unclosedExpression f rfl hne hfirst hc rfl⟩
    have h := hfound [] ⟨rfl, hne, hfirst, hc⟩
    rwa [List.append_nil, ← List.append_assoc] at h
  | braces =>
    obtain rfl := Option.some.inj he
    obtain ⟨after, rfl⟩ := List.head?_eq_some_iff.mp hl
    -- the span is the fourth brace alone, and the three before it are literal text without it
    refine ⟨ts.flatMap Token.source ++ (u ++ List.replicate 3 '{'), ['{'], after,
      ⟨by simp [Piece.source, Fence.opening, Fence.width], ?_, hclean (Nat.le_refl 3), ?_⟩,
      .tooManyBraces (List.append_assoc _ _ _).symm (hts.getLast_append_plain hu) rfl⟩
    · have hbraces : Text.size (List.replicate 3 '{') = 3 := by decide
      have hbrace : Text.size ['{'] = 1 := by decide
      rw [Text.size_append, Text.size_append, hbraces, hbrace, Nat.add_assoc]
    · have h := hfound ['{'] rfl
      simpa [Piece.source, Fence.opening, Fence.width] using h

/-- The innermost block that the tokens of a template leave open shows that it is not closed. -/
theorem exists_located_unclosed {ts : List Token} {root : List Node} {block : OpenBlock}
    {outer : List OpenBlock} (hts : Spells 0 (ts.flatMap Token.source) ts)
    (haccept : (Builder.start.acceptAll ts).2 = .ok ⟨root, block :: outer⟩) :
    ∃ before shown after,
      Located (ts.flatMap Token.source) before shown after ⟨.unclosedBlock block.kind, block.span⟩ ∧
        Shows (ts, none) before shown after (.unclosedBlock block.kind) := by
  have hreads := Builder.start_reads.acceptAll haccept
  rw [List.nil_append] at hreads
  obtain ⟨earlier, opening, hopen, hspan, -⟩ := hreads.innermost
  have hplace := hopen.span_eq hts.placed
  obtain ⟨expr, hopens⟩ := hopen.opens
  obtain ⟨body, elses, hsplit⟩ := hopen.split
  have hkind : opening.kind ≠ .text := by
    obtain ⟨⟨f, hf⟩, -⟩ := hopens
    simp [hf]
  have hlexical := hts.toLexical
  have hplaced := hts.placed
  rw [hsplit] at haccept hlexical hplaced
  obtain ⟨mid, hmid, -⟩ := Builder.acceptAll_append_eq_ok haccept
  obtain ⟨hbefore, hfront⟩ := Front.of_lexical hlexical hplaced hkind
  refine ⟨earlier.flatMap Token.source, opening.source,
    (body.tokens ++ elses.tokens).flatMap Token.source,
    ⟨by rw [hsplit]; simp, ?_, fun e => clean_of_spells hmid hbefore, ?_⟩,
    .unclosedBlock ⟨⟨_, hsplit⟩, rfl, rfl⟩ rfl hopen⟩
  · rw [hspan, hplace, Nat.zero_add]
  · have hlast : (Builder.start.acceptAll (earlier ++ [opening])).2 =
        .ok (mid.openBlock block.kind (Path.parse expr) opening.span) := by
      rw [Builder.acceptAll_append_ok hmid,
        Builder.acceptAll_cons_ok (Builder.accept_opening hopens)]
      rfl
    have hending : Ending (earlier ++ [opening]) []
        (.error ⟨.unclosedBlock block.kind, opening.span⟩) := .unclosed hlast plain_nil.toEnd rfl
    have hfound := hending.complete_eq hfront
    rwa [List.append_nil, List.flatMap_append, List.flatMap_singleton, ← hspan] at hfound

/-- Every fault shows somewhere in the template. -/
theorem exists_located {cs : List Char} {error : CompileError}
    (h : Builder.start.complete (tokensFrom 0 cs) = .error error) :
    ∃ before shown after, Located cs before shown after error ∧
      Shows (tokensFrom 0 cs) before shown after error.fault := by
  obtain ⟨ts, tail, hts, rfl, hending⟩ := exists_ending cs
  rw [h] at hending
  cases hending with
  | refused hrefused =>
    obtain ⟨earlier, t, later, b, rfl, haccept, ht⟩ := Builder.exists_refused hrefused
    have hread := congrArg Prod.fst (hts.tokensFrom_append tail)
    rw [List.append_assoc, List.cons_append] at hread
    exact ⟨_, _, _, located_refused hts haccept ht,
      shows_refused hread haccept (Builder.refuses_of_accept ht).2⟩
  | faulty haccept hu hl he => exact exists_located_faulty hts haccept hu hl he
  | @unclosed b _ root block outer haccept htail hb =>
    have hread := hts.tokensFrom_append tail
    dsimp only at hread
    rw [Nat.zero_add, tokensFrom_end htail] at hread
    have hspells := spells_of_tokensFrom hread
    have hsource := hspells.source
    rw [hsource] at hspells
    have hall : (Builder.start.acceptAll
        (ts ++ Token.ofText (Text.size (ts.flatMap Token.source)) tail)).2 =
        .ok ⟨root, block :: outer⟩ := by
      rw [Builder.acceptAll_append_ok haccept, builds_ofText, hb]
    rw [hread, hsource]
    exact exists_located_unclosed hspells hall

/-- A template that ends before the text that shows a fault does is not yet wrong for good. -/
theorem Located.not_final_before {cs before shown after x y : List Char} {error e : CompileError}
    (h : Located cs before shown after error) (hxy : before ++ shown = x ++ y) (hy : y ≠ [])
    (he : Builder.start.complete (tokensFrom 0 x) = .error e) : e.fault.isFinal = false := by
  cases hf : e.fault.isFinal with
  | false => rfl
  | true =>
    -- the shorter template would have the same fault, and no room for its text
    have hsame := complete_append_of_isFinal he hf y
    rw [← hxy, h.found] at hsame
    obtain rfl := Except.error.inj hsame
    obtain ⟨before', shown', after', hshort, -⟩ := exists_located he
    obtain ⟨hbefore, hshown⟩ := Span.mk.inj (h.span.symm.trans hshort.span)
    have hlength := congrArg Text.size hxy
    have hx := congrArg Text.size hshort.source
    have hpos := Text.size_pos hy
    simp only [Text.size_append] at hlength hx
    omega

/-- The same fault is found in every longer part of the template, unless a block is open that later
text may close. -/
theorem Located.stays {cs before shown after x y : List Char} {error : CompileError}
    {cut : List Token × Option CompileError} (h : Located cs before shown after error)
    (hs : Shows cut before shown after error.fault) (hk : ∀ k, error.fault ≠ .unclosedBlock k)
    (hxy : after = x ++ y) :
    Builder.start.complete (tokensFrom 0 (before ++ shown ++ x)) = .error error := by
  cases hf : error.fault.isFinal with
  | true => exact complete_append_of_isFinal h.found hf x
  | false =>
    -- a tag that is not closed reaches to the end
    have hx : x = [] := by
      generalize error.fault = fault at hs hk hf
      cases hs with
      | unclosedExpression f hs hne hfirst hc ha => exact (List.append_eq_nil_iff.mp (hxy ▸ ha)).1
      | unclosedBlock => exact absurd rfl (hk _)
      | _ => cases hf
    rw [hx, List.append_nil]
    exact h.found

/-- A fault that no other stands before. What comes before its text is wrong in nothing but open
blocks, a template that ends before the text does may still be mended, and any that goes on from
there has the same fault, except that an open block may be closed. -/
structure Leftmost (o : Options) (before shown after : String) (error : CompileError) : Prop where
  clean : ∀ e, Template.compile before o = .error e → ∃ k, e.fault = .unclosedBlock k
  notBefore : ∀ x y, before ++ shown = x ++ y → y ≠ "" →
    ∀ e, Template.compile x o = .error e → e.fault.isFinal = false
  found : Template.compile (before ++ shown) o = .error error
  stays : (∀ k, error.fault ≠ .unclosedBlock k) →
    ∀ x y, after = x ++ y → Template.compile (before ++ shown ++ x) o = .error error

/-- A template that does not compile is reported with its leftmost fault, at the bytes of the text
that shows it. -/
theorem compile_error_shows {s : String} {o : Options} {error : CompileError}
    (h : Template.compile s o = .error error) :
    ∃ before shown after : String, s = before ++ shown ++ after ∧
      error.span = ⟨before.utf8ByteSize, shown.utf8ByteSize⟩ ∧
      Shows (tokenize s) before.toList shown.toList after.toList error.fault ∧
      Leftmost o before shown after error := by
  obtain ⟨cs, shown, ds, hl, hs⟩ := exists_located (Template.compile_eq_error_iff.mp h)
  obtain ⟨before, rfl⟩ : ∃ before : String, before.toList = cs :=
    ⟨String.ofList cs, String.toList_ofList⟩
  obtain ⟨shown, rfl⟩ : ∃ t : String, t.toList = shown :=
    ⟨String.ofList shown, String.toList_ofList⟩
  obtain ⟨after, rfl⟩ : ∃ after : String, after.toList = ds :=
    ⟨String.ofList ds, String.toList_ofList⟩
  refine ⟨before, shown, after, ?_, ?_, hs, ?_, ?_, ?_, ?_⟩
  · rw [← String.toList_inj, hl.source, String.toList_append, String.toList_append,
      List.append_assoc]
  · rw [hl.span, Text.size_toList, Text.size_toList]
  · intro e he
    exact hl.clean e (Template.compile_eq_error_iff.mp he)
  · intro x y hxy hy e he
    have hchars := congrArg String.toList hxy
    rw [String.toList_append, String.toList_append] at hchars
    exact hl.not_final_before hchars (by simpa using hy) (Template.compile_eq_error_iff.mp he)
  · rw [Template.compile_eq_error_iff, String.toList_append]
    exact hl.found
  · intro hk x y hxy
    rw [Template.compile_eq_error_iff, String.toList_append, String.toList_append]
    exact hl.stays hs hk (by rw [hxy, String.toList_append])

/-- The closing tag of another block than the innermost. -/
theorem compile_error_shows_unmatched :
    let s := "é" ++ doubleTag "#if x" ++ "{{/each}}!"
    Template.compile s .default =
      .error ⟨.unmatchedCloseTag .ifBlock "each", ⟨11, 9⟩⟩ ∧
    ∃ before shown after : String, s = before ++ shown ++ after ∧
      (⟨11, 9⟩ : Span) = ⟨before.utf8ByteSize, shown.utf8ByteSize⟩ ∧
      Shows (tokenize s) before.toList shown.toList after.toList
        (.unmatchedCloseTag .ifBlock "each") ∧
      Leftmost .default before shown after ⟨.unmatchedCloseTag .ifBlock "each", ⟨11, 9⟩⟩ := by
  intro s
  have h : Template.compile s .default =
      .error ⟨.unmatchedCloseTag .ifBlock "each", ⟨11, 9⟩⟩ := by decide +kernel
  exact ⟨h, compile_error_shows h⟩

end BraceTemplate
