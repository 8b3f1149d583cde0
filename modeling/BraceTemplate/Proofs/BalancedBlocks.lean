import BraceTemplate.Proofs.Concatenation
import BraceTemplate.Proofs.ScopePaths

namespace BraceTemplate

/-- Tokens that build nodes outside all blocks build them anywhere. -/
theorem builds_iff_start {ts : List Token} {ns : List Node} :
    Builds ts ns ↔ (Builder.start.acceptAll ts).2 = .ok ⟨ns, []⟩ := by
  constructor
  · intro h
    rw [h, Builder.start, Builder.pushAll_root, List.nil_append]
  · intro h
    obtain ⟨d, rfl, rfl⟩ := acceptAll_start_iff.mp h
    exact d.builds

/-- Tokens build the same nodes further back in a template. -/
theorem Builds.shift {ts : List Token} {ns : List Node} (h : Builds ts ns) (k : Nat) :
    Builds (ts.map (Token.shift k)) ns := by
  rw [builds_iff_start] at h ⊢
  have hplace := Builder.acceptAll_place [] k Builder.start ts
  rwa [h, Builder.start_place] at hplace

theorem Token.shift_ofTag (offset k : Nat) (f : Fence) (body : List Char) :
    (ofTag offset f body).shift k = ofTag (k + offset) f body := by
  rw [Nat.add_comm]
  rfl

/-- A tag that a template begins with is its first token. -/
theorem tokensFrom_first_tag {f : Fence} {body : List Char} (hb : FitsFence f body) (offset : Nat)
    (rest : List Char) :
    let later := tokensFrom (offset + Text.size (Piece.tag f body).source) rest
    tokensFrom offset ((Piece.tag f body).source ++ rest) =
      (Token.ofTag offset f body :: later.1, later.2) :=
  tokensFrom_tag plain_nil hb offset rest

/-- A template that compiles to nodes and that any other can follow. -/
structure StandsAlone (cs : List Char) (ns : List Node) : Prop where
  compiles : Builder.start.complete (tokensFrom 0 cs) = .ok ns
  noBraceLast : cs.getLast? ≠ some '{'

/-- Such a template is read in front of a tag as tokens that build its nodes, wherever the two
stand. -/
theorem StandsAlone.exists_builds {cs : List Char} {ns : List Node} (h : StandsAlone cs ns)
    {f : Fence} {body : List Char} (hb : FitsFence f body) (offset : Nat) (rest : List Char) :
    let later := tokensFrom (offset + Text.size cs + Text.size (Piece.tag f body).source) rest
    ∃ ts, Builds ts ns ∧
      tokensFrom offset (cs ++ ((Piece.tag f body).source ++ rest)) =
        (ts ++ Token.ofTag (offset + Text.size cs) f body :: later.1, later.2) := by
  intro later
  obtain ⟨ts, u, ms, hts, hcs, hu, haccept, rfl⟩ :=
    exists_front_of_complete h.compiles h.noBraceLast
  have hbuilds : Builds (ts ++ Token.ofText (Text.size (ts.flatMap Token.source)) u)
      (ms ++ Node.ofText u) :=
    (builds_iff_start.mpr haccept).append (builds_ofText _ u)
  refine ⟨_, hbuilds.shift offset, ?_⟩
  have hsize : Text.size (ts.flatMap Token.source) + Text.size u = Text.size cs := by
    rw [hcs, Text.size_append]
  -- what is read at the start of the template is read further back with the same shift
  have hread := hts.tokensFrom_append (u ++ ((Piece.tag f body).source ++ rest))
  rw [Nat.zero_add, tokensFrom_tag hu hb, hsize, ← List.append_assoc, ← hcs] at hread
  have hmoved := tokensFrom_shift 0 offset (cs ++ ((Piece.tag f body).source ++ rest))
  have hlater := tokensFrom_shift (Text.size cs + Text.size (Piece.tag f body).source) offset rest
  rw [Nat.add_comm _ offset, ← Nat.add_assoc] at hlater
  rw [Nat.zero_add, hread] at hmoved
  rw [hmoved]
  simp only [later, hlater, List.map_append, List.map_cons, Token.shift_ofTag, List.append_assoc]
  rfl

/-- What may stand behind the keyword of an opening tag: nothing, or a blank and an expression. -/
structure BlockExpr (expr : String) : Prop where
  noClosing : '}' ∉ expr.toList
  blankFirst : ∀ c ∈ expr.toList.head?, Text.isBlank c = true

def BlockKind.openTag (k : BlockKind) (expr : String) : String :=
  doubleTag ("#" ++ k.keyword ++ expr)

def closeTag (name : String) : String := doubleTag ("/" ++ name)

def elseMark : String := doubleTag "else"

/-- An opening tag is the first token, and what stands behind it is read on its own. -/
theorem BlockExpr.exists_opening {expr : String} (h : BlockExpr expr) (k : BlockKind)
    (rest : List Char) :
    let later := tokensFrom (Text.size (k.openTag expr).toList) rest
    ∃ opening, opening.Opens k expr ∧
      tokensFrom 0 ((k.openTag expr).toList ++ rest) = (opening :: later.1, later.2) := by
  intro later
  let body := '#' :: (k.keyword.toList ++ expr.toList)
  have hsource : (k.openTag expr).toList = (Piece.tag .double body).source := by
    simp [BlockKind.openTag, Piece.toList_doubleTag, body]
  have hfits : FitsFence .double body := by
    exact .of_not_mem (by simp [body]) (by simp [body])
      (by simp [body, k.closing_not_mem_keyword, h.noClosing])
  have hread := tokensFrom_first_tag hfits 0 rest
  rw [Nat.zero_add, ← hsource] at hread
  exact ⟨_, Token.opens_of_keyword rfl (by simp [Token.ofTag, body]) h.blankFirst, hread⟩

namespace StandsAlone

variable {cs : List Char} {ns : List Node}

/-- In front of a closing tag that ends the whole. -/
theorem exists_closing (h : StandsAlone cs ns) {name : String} (hname : '}' ∉ name.toList)
    (offset : Nat) :
    let closer := (closeTag name).toList
    ∃ ts closing, Builds ts ns ∧ closing.ClosesWith (Text.trim name) ∧
      closing.span = ⟨offset + Text.size cs, Text.size closer⟩ ∧
      tokensFrom offset (cs ++ closer) = (ts ++ [closing], none) := by
  intro closer
  have hsource : closer = (Piece.tag .double ('/' :: name.toList)).source := by
    simp [closer, closeTag, Piece.toList_doubleTag]
  have hfits : FitsFence .double ('/' :: name.toList) :=
    .of_not_mem (by simp) (by simp) (by simp [hname])
  obtain ⟨ts, hts, hread⟩ := h.exists_builds hfits offset []
  rw [List.append_nil, tokensFrom_end plain_nil.toEnd] at hread
  rw [hsource]
  exact ⟨ts, _, hts, ⟨⟨.double, rfl⟩, name.toList, by simp [Token.ofTag], by simp⟩, rfl, hread⟩

/-- In front of an `else`. -/
theorem exists_else (h : StandsAlone cs ns) (offset : Nat) (rest : List Char) :
    let mark := elseMark.toList
    let later := tokensFrom (offset + Text.size cs + Text.size mark) rest
    ∃ ts els, Builds ts ns ∧ els.IsElse ∧ els.span = ⟨offset + Text.size cs, Text.size mark⟩ ∧
      tokensFrom offset (cs ++ (mark ++ rest)) = (ts ++ els :: later.1, later.2) := by
  have hsource : elseMark.toList = (Piece.tag .double "else".toList).source :=
    Piece.toList_doubleTag _
  have hfits : FitsFence .double "else".toList :=
    .of_not_mem (by simp) (by decide) (by decide)
  obtain ⟨ts, hts, hread⟩ := h.exists_builds hfits offset rest
  rw [hsource]
  exact ⟨ts, _, hts, ⟨⟨.double, rfl⟩, rfl⟩, rfl, hread⟩

end StandsAlone

namespace Builder

variable {k : BlockKind} {expr : String} {opening mark closing : Token} {ts us : List Token}
  {ns ms : List Node}

/-- The body of a block is read above its opening tag as it is read outside all blocks. -/
theorem acceptAll_opened (ho : opening.Opens k expr) (h : Builds ts ns) :
    (start.acceptAll (opening :: ts)).2 =
      .ok ⟨[], [⟨k, Path.parse expr, opening.span, ns, [], false⟩]⟩ := by
  rw [acceptAll_cons_ok (accept_opening ho), h, openBlock, pushAll_body _ _ _ _ rfl]
  rfl

/-- The second branch is read like the first. -/
theorem acceptAll_switched (ho : opening.Opens k expr) (h : Builds ts ns) (hm : mark.IsElse)
    (hk : k.takesElse = true) (h' : Builds us ms) :
    ∃ inElse, (start.acceptAll (opening :: (ts ++ mark :: us))).2 =
      .ok ⟨[], [⟨k, Path.parse expr, opening.span, ns, ms, inElse⟩]⟩ := by
  obtain ⟨inElse, helse⟩ := BuildsElse.cons hk hm h' .nil []
    ⟨k, Path.parse expr, opening.span, ns, [], false⟩ [] rfl
  rw [List.append_nil, List.append_nil] at helse
  refine ⟨inElse, ?_⟩
  rw [← List.cons_append, acceptAll_append_ok (acceptAll_opened ho h), helse]
  rfl

/-- A branch that a block does not take is refused. -/
theorem accept_else_refused {root : List Node} {block : OpenBlock} {outer : List OpenBlock}
    (hm : mark.IsElse) (hk : block.kind.takesElse = false) :
    accept ⟨root, block :: outer⟩ mark = .error ⟨.invalidElse, mark.span⟩ := by
  simp [accept_else hm, switchBranch, hk]

/-- A closing tag that ends the template ends its only open block, if it has the right name. -/
theorem complete_closing {block : OpenBlock} {name : String} (hc : closing.ClosesWith name) :
    complete ⟨[], [block]⟩ ([closing], none) =
      if name = block.kind.keyword then
        .ok [Node.ofBlock block.kind block.path block.body block.otherwise]
      else .error ⟨.unmatchedCloseTag block.kind name, closing.span⟩ := by
  rw [complete, acceptAll_cons, accept_closing hc]
  by_cases hname : name = block.kind.keyword
  · rw [if_pos hname, closeBlock_eq_ok.mpr ⟨block, [], rfl, hname.symm, rfl⟩]
    rfl
  · have hclose : closeBlock ⟨[], [block]⟩ name closing.span =
        .error ⟨.unmatchedCloseTag block.kind name, closing.span⟩ := by
      simp [closeBlock, Ne.symm hname]
    rw [if_neg hname, hclose]
    rfl

end Builder

section

variable {k : BlockKind} {expr name : String} {cs ds : List Char} {ns ms : List Node}

/-- A block with one branch compiles if its closing tag has its name. -/
theorem complete_block (hexpr : BlockExpr expr) (h : StandsAlone cs ns)
    (hname : '}' ∉ name.toList) :
    let front := (k.openTag expr).toList ++ cs
    let closer := (closeTag name).toList
    Builder.start.complete (tokensFrom 0 (front ++ closer)) =
      if Text.trim name = k.keyword then .ok [Node.ofBlock k (Path.parse expr) ns []]
      else .error ⟨.unmatchedCloseTag k (Text.trim name), ⟨Text.size front, Text.size closer⟩⟩ := by
  intro front closer
  obtain ⟨ts, closing, hts, hcloses, hspan, hbody⟩ :=
    h.exists_closing hname (Text.size (k.openTag expr).toList)
  obtain ⟨opening, hopens, hread⟩ := hexpr.exists_opening k (cs ++ closer)
  have hopened := Builder.acceptAll_opened hopens hts
  rw [hbody, ← List.append_assoc] at hread
  rw [hread, ← List.cons_append]
  refine (Builder.complete_append_ok hopened ([closing], none)).trans ?_
  rw [Builder.complete_closing hcloses, hspan, ← Text.size_append]

/-- A block with two branches. -/
theorem complete_block_else (hexpr : BlockExpr expr) (h : StandsAlone cs ns)
    (h' : StandsAlone ds ms) (hname : '}' ∉ name.toList) (hk : k.takesElse = true) :
    let front := (k.openTag expr).toList ++ (cs ++ (elseMark.toList ++ ds))
    let closer := (closeTag name).toList
    Builder.start.complete (tokensFrom 0 (front ++ closer)) =
      if Text.trim name = k.keyword then .ok [Node.ofBlock k (Path.parse expr) ns ms]
      else .error ⟨.unmatchedCloseTag k (Text.trim name), ⟨Text.size front, Text.size closer⟩⟩ := by
  intro front closer
  let first := Text.size (k.openTag expr).toList
  obtain ⟨ts, els, hts, hels, -, hbody⟩ := h.exists_else first (ds ++ closer)
  obtain ⟨us, closing, hus, hcloses, hspan, hsecond⟩ :=
    h'.exists_closing hname (first + Text.size cs + Text.size elseMark.toList)
  obtain ⟨opening, hopens, hread⟩ :=
    hexpr.exists_opening k (cs ++ (elseMark.toList ++ (ds ++ closer)))
  obtain ⟨inElse, hswitched⟩ := Builder.acceptAll_switched hopens hts hels hk hus
  have hfront : front ++ closer =
      (k.openTag expr).toList ++ (cs ++ (elseMark.toList ++ (ds ++ closer))) := by
    simp only [front, List.append_assoc]
  have htokens : opening :: (ts ++ els :: (us ++ [closing])) =
      opening :: (ts ++ els :: us) ++ [closing] := by simp
  have hsize : Text.size front =
      first + Text.size cs + Text.size elseMark.toList + Text.size ds := by
    simp only [front, first, Text.size_append, Nat.add_assoc]
  rw [hbody, hsecond, htokens] at hread
  rw [hfront, hread]
  refine (Builder.complete_append_ok hswitched ([closing], none)).trans ?_
  rw [Builder.complete_closing hcloses, hspan, hsize]

/-- Behind the body of a block without a second branch, `else` is refused whatever follows. -/
theorem complete_else_refused (hexpr : BlockExpr expr) (h : StandsAlone cs ns)
    (hk : k.takesElse = false) (rest : List Char) :
    let front := (k.openTag expr).toList ++ cs
    Builder.start.complete (tokensFrom 0 (front ++ (elseMark.toList ++ rest))) =
      .error ⟨.invalidElse, ⟨Text.size front, Text.size elseMark.toList⟩⟩ := by
  intro front
  obtain ⟨ts, els, hts, hels, hspan, hbody⟩ :=
    h.exists_else (Text.size (k.openTag expr).toList) rest
  obtain ⟨opening, hopens, hread⟩ := hexpr.exists_opening k (cs ++ (elseMark.toList ++ rest))
  have hopened := Builder.acceptAll_opened hopens hts
  rw [hbody] at hread
  rw [List.append_assoc, hread, ← List.cons_append]
  refine (Builder.complete_append_ok hopened (els :: _, _)).trans ?_
  rw [Builder.complete, Builder.acceptAll_cons, Builder.accept_else_refused hels hk, hspan,
    ← Text.size_append]
  rfl

end

namespace Template

variable {o : Options} {k : BlockKind} {expr name a b : String} {ns ms : List Node}

theorem standsAlone_of_compile {t : Template} (h : compile a o = .ok t)
    (hlast : a.toList.getLast? ≠ some '{') :
    ∃ ns, t = ⟨.container ns, o⟩ ∧ StandsAlone a.toList ns := by
  obtain ⟨ns, hns, rfl⟩ := compile_eq_ok_iff.mp h
  exact ⟨ns, rfl, hns, hlast⟩

/-- Around a template that stands alone, the name of the closing tag decides. -/
theorem compile_block (hexpr : BlockExpr expr) (h : StandsAlone a.toList ns)
    (hname : '}' ∉ name.toList) :
    let front := k.openTag expr ++ a
    compile (front ++ closeTag name) o =
      if Text.trim name = k.keyword then
        .ok ⟨.container [Node.ofBlock k (Path.parse expr) ns []], o⟩
      else .error ⟨.unmatchedCloseTag k (Text.trim name),
        ⟨front.utf8ByteSize, (closeTag name).utf8ByteSize⟩⟩ := by
  intro front
  have hcomplete := complete_block (k := k) hexpr h hname
  dsimp only at hcomplete
  rw [compile_eq_complete, String.toList_append, String.toList_append, hcomplete,
    ← String.toList_append, Text.size_toList, Text.size_toList]
  split <;> rfl

theorem compile_block_else (hexpr : BlockExpr expr) (h : StandsAlone a.toList ns)
    (h' : StandsAlone b.toList ms) (hname : '}' ∉ name.toList) (hk : k.takesElse = true) :
    let front := k.openTag expr ++ a ++ elseMark ++ b
    compile (front ++ closeTag name) o =
      if Text.trim name = k.keyword then
        .ok ⟨.container [Node.ofBlock k (Path.parse expr) ns ms], o⟩
      else .error ⟨.unmatchedCloseTag k (Text.trim name),
        ⟨front.utf8ByteSize, (closeTag name).utf8ByteSize⟩⟩ := by
  intro front
  have hcomplete := complete_block_else (k := k) hexpr h h' hname hk
  have hfront : front.toList =
      (k.openTag expr).toList ++ (a.toList ++ (elseMark.toList ++ b.toList)) := by
    simp only [front, String.toList_append, List.append_assoc]
  dsimp only at hcomplete
  rw [← hfront, Text.size_toList, Text.size_toList] at hcomplete
  rw [compile_eq_complete, String.toList_append, hcomplete]
  split <;> rfl

theorem compile_else_refused (hexpr : BlockExpr expr) (h : StandsAlone a.toList ns)
    (hk : k.takesElse = false) (rest : String) :
    let front := k.openTag expr ++ a
    compile (front ++ elseMark ++ rest) o =
      .error ⟨.invalidElse, ⟨front.utf8ByteSize, elseMark.utf8ByteSize⟩⟩ := by
  intro front
  have hcomplete := complete_else_refused hexpr h hk rest.toList
  dsimp only at hcomplete
  rw [← String.toList_append, Text.size_toList, Text.size_toList] at hcomplete
  rw [compile_eq_error_iff, String.toList_append, String.toList_append, List.append_assoc]
  exact hcomplete

/-- What a conditional block renders is what the branch renders that its path chooses. -/
theorem render_conditional (p : Path) (data : Json.Value) :
    render ⟨.container [.ifBlock p (.container ns) (.container ms)], o⟩ data =
      if Json.Value.isTruthy (data.lookup? p.segments) then render ⟨.container ns, o⟩ data
      else render ⟨.container ms, o⟩ data := by
  have hcontext (root : Node) : context ⟨root, o⟩ data = .start data o.iterationMetadata := rfl
  rw [render_eq, render_eq, render_eq]
  simp only [hcontext, Node.chunks, Node.chunksAll, List.append_nil, Context.isTruthy,
    Context.get?_start]
  split <;> rfl

/-- The two kinds of conditional blocks differ in the order of their branches alone. -/
theorem render_swapped (p : Path) (data : Json.Value) :
    render ⟨.container [.unlessBlock p (.container ms) (.container ns)], o⟩ data =
      render ⟨.container [.ifBlock p (.container ns) (.container ms)], o⟩ data := by
  rw [render_eq, render_eq]
  rfl

end Template

/-- Around any templates that end without a brace, the tags of a block are balanced if the closing
tag has the name of the opening one. The block holds what the templates compile to on their own,
whatever blocks, texts and `else` tags they have, and a conditional block renders what the one or
the other renders. -/
theorem compile_balanced {o : Options} {a b expr name : String} {ta tb : Template}
    (ha : Template.compile a o = .ok ta) (hb : Template.compile b o = .ok tb)
    (hlasta : a.toList.getLast? ≠ some '{') (hlastb : b.toList.getLast? ≠ some '{')
    (hexpr : BlockExpr expr) (hname : '}' ∉ name.toList) :
    ∃ ns ms, ta.root = .container ns ∧ tb.root = .container ms ∧
      (∀ k : BlockKind,
        let front := k.openTag expr ++ a
        let both := front ++ elseMark ++ b
        let compiled (source : String) (node : Node) : Prop :=
          Template.compile (source ++ closeTag name) o =
            if Text.trim name = k.keyword then .ok ⟨.container [node], o⟩
            else .error ⟨.unmatchedCloseTag k (Text.trim name),
              ⟨source.utf8ByteSize, (closeTag name).utf8ByteSize⟩⟩
        compiled front (.ofBlock k (Path.parse expr) ns []) ∧
        (k.takesElse = true → compiled both (.ofBlock k (Path.parse expr) ns ms)) ∧
        (k.takesElse = false → Template.compile (both ++ closeTag name) o =
          .error ⟨.invalidElse, ⟨front.utf8ByteSize, elseMark.utf8ByteSize⟩⟩)) ∧
      ∃ t u,
        Template.compile (BlockKind.ifBlock.openTag expr ++ a ++ elseMark ++ b ++ closeTag "if") o =
          .ok t ∧
        Template.compile
          (BlockKind.unlessBlock.openTag expr ++ b ++ elseMark ++ a ++ closeTag "unless") o =
          .ok u ∧
        ∀ data : Json.Value,
          let found := data.lookup? (Path.parse expr).segments
          t.render data = u.render data ∧
            (t.render data =
              if Json.Value.isTruthy found then ta.render data else tb.render data) ∧
            (Json.Value.isTruthy found = false ↔ found = none ∨ found = some .null ∨
              found = some (.bool false) ∨ found = some (.string "")) := by
  obtain ⟨ns, rfl, hns⟩ := Template.standsAlone_of_compile ha hlasta
  obtain ⟨ms, rfl, hms⟩ := Template.standsAlone_of_compile hb hlastb
  refine ⟨ns, ms, rfl, rfl, ?_, ?_⟩
  · intro k front both compiled
    refine ⟨Template.compile_block hexpr hns hname,
      fun hk => Template.compile_block_else hexpr hns hms hname hk, fun hk => ?_⟩
    simp only [both, String.append_assoc]
    simpa only [front, String.append_assoc] using
      Template.compile_else_refused (o := o) hexpr hns hk (b ++ closeTag name)
  · have hif := Template.compile_block_else (o := o) (k := .ifBlock) hexpr hns hms
      BlockKind.ifBlock.closing_not_mem_keyword rfl
    have hunless := Template.compile_block_else (o := o) (k := .unlessBlock) hexpr hms hns
      BlockKind.unlessBlock.closing_not_mem_keyword rfl
    refine ⟨_, _, hif.trans (if_pos BlockKind.ifBlock.trim_keyword),
      hunless.trans (if_pos BlockKind.unlessBlock.trim_keyword), fun data => ?_⟩
    exact ⟨(Template.render_swapped (Path.parse expr) data).symm,
      Template.render_conditional (Path.parse expr) data, Json.Value.isTruthy_eq_false_iff⟩

/-- A body with a conditional block of its own, a branch with a value tag, and a name with blanks
around it. -/
theorem compile_balanced_nested :
    let a := "é" ++ doubleTag "#if x" ++ "1{{else}}2{{/if}}"
    let b := "{{{y}}}"
    let expr := " ok"
    let name := "\u00a0unless "
    let na : List Node := [.text "é",
      .ifBlock ⟨"x", ["x"]⟩ (.container [.text "1"]) (.container [.text "2"])]
    let nb : List Node := [.unescaped ⟨"y", ["y"]⟩]
    let each := BlockKind.eachBlock.openTag expr ++ a
    (Template.compile a .default = .ok ⟨.container na, .default⟩ ∧
      Template.compile b .default = .ok ⟨.container nb, .default⟩ ∧
      a.toList.getLast? ≠ some '{' ∧ b.toList.getLast? ≠ some '{' ∧
      BlockExpr expr ∧ '}' ∉ name.toList) ∧
    Template.compile (BlockKind.unlessBlock.openTag expr ++ a ++ elseMark ++ b ++ closeTag name)
      .default = .ok ⟨.container [.unlessBlock ⟨"ok", ["ok"]⟩ (.container na) (.container nb)],
        .default⟩ ∧
    Template.compile (each ++ closeTag name) .default =
      .error ⟨.unmatchedCloseTag .eachBlock "unless", ⟨40, 14⟩⟩ ∧
    Template.compile (each ++ elseMark ++ b ++ closeTag name) .default =
      .error ⟨.invalidElse, ⟨40, 8⟩⟩ := by
  intro a b expr name na nb each
  have ha : Template.compile a .default = .ok ⟨.container na, .default⟩ := by decide +kernel
  have hb : Template.compile b .default = .ok ⟨.container nb, .default⟩ := by decide +kernel
  have hlasta : a.toList.getLast? ≠ some '{' := by decide
  have hlastb : b.toList.getLast? ≠ some '{' := by decide
  have hexpr : BlockExpr expr := by
    refine ⟨by decide, fun c hc => ?_⟩
    obtain rfl : ' ' = c := by simpa [expr] using hc
    rfl
  have hname : '}' ∉ name.toList := by decide
  obtain ⟨ns, ms, hns, hms, hblocks, -⟩ := compile_balanced ha hb hlasta hlastb hexpr hname
  cases hns
  cases hms
  have hpath : Path.parse expr = ⟨"ok", ["ok"]⟩ := by decide +kernel
  have htrim : Text.trim name = "unless" := by decide +kernel
  have hfront : each.utf8ByteSize = 40 := by decide +kernel
  have hunless := (hblocks .unlessBlock).2.1 rfl
  have heach := (hblocks .eachBlock).1
  have hrefused := (hblocks .eachBlock).2.2 rfl
  dsimp only at hunless heach hrefused
  rw [htrim, hpath] at hunless
  rw [htrim, hfront] at heach
  rw [hfront] at hrefused
  exact ⟨⟨ha, hb, hlasta, hlastb, hexpr, hname⟩, hunless, heach, hrefused⟩

end BraceTemplate
