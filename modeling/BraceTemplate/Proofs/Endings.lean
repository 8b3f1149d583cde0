import BraceTemplate.Proofs.Building
import BraceTemplate.Proofs.FrontTokens
import BraceTemplate.Template

namespace BraceTemplate

namespace Builder

def close (b : Builder) (fault : Option CompileError) : Except CompileError (List Node) :=
  match fault, b.blocks with
  | some error, _ => .error error
  | none, [] => .ok b.root
  | none, block :: _ => .error ⟨.unclosedBlock block.kind, block.span⟩

/-- The nodes of a template whose last tokens are still to come. -/
def complete (b : Builder) (later : List Token × Option CompileError) :
    Except CompileError (List Node) :=
  (b.acceptAll later.1).2.bind (fun after => after.close later.2)

variable {b after : Builder} {ts : List Token}

/-- Nodes outside all blocks are added there. -/
theorem pushAll_eq_root {ns ms : List Node} (h : b.pushAll ns = ⟨ms, []⟩) :
    ∃ ls, b = ⟨ls, []⟩ ∧ ms = ls ++ ns := by
  obtain ⟨root, blocks⟩ := b
  cases blocks with
  | nil =>
    rw [pushAll_root] at h
    exact ⟨root, rfl, (congrArg Builder.root h).symm⟩
  | cons block outer =>
    exfalso
    cases hb : block.inElse with
    | true => simp [pushAll_otherwise _ _ _ _ hb] at h
    | false => simp [pushAll_body _ _ _ _ hb] at h

theorem complete_append_ok (h : (b.acceptAll ts).2 = .ok after)
    (later : List Token × Option CompileError) :
    b.complete (ts ++ later.1, later.2) = after.complete later := by
  rw [complete, acceptAll_append_ok h]
  rfl

theorem complete_append_error {error : CompileError} (h : (b.acceptAll ts).2 = .error error)
    (later : List Token × Option CompileError) :
    b.complete (ts ++ later.1, later.2) = .error error := by
  rw [complete, acceptAll_append, h]
  rfl

end Builder

theorem Node.parse_eq_complete (s : String) :
    Node.parse s = (Builder.start.complete (tokensFrom 0 s.toList)).map container := by
  rw [← tokenize_eq_tokensFrom]
  unfold parse ofScanner ofTokens tokenize Builder.complete
  generalize (Scanner.start s).drain = drained
  obtain ⟨tokens, fault⟩ := drained
  cases h : (Builder.start.acceptAll tokens).2 with
  | error e =>
    simp only [h]
    rfl
  | ok b =>
    obtain ⟨ns, blocks⟩ := b
    cases fault with
    | some e =>
      simp only [h]
      rfl
    | none =>
      simp only [h]
      cases blocks <;> rfl

namespace Template

/-- Compiling completes a builder that has read nothing. -/
theorem compile_eq_complete (s : String) (o : Options) :
    compile s o =
      (Builder.start.complete (tokensFrom 0 s.toList)).map (fun ns => ⟨.container ns, o⟩) := by
  have hparse := Node.parse_eq_complete s
  unfold Node.parse at hparse
  unfold compile compileLogged
  generalize Node.ofScanner (Scanner.start s) = compiled at hparse
  obtain ⟨events, result⟩ := compiled
  simp only at hparse
  subst hparse
  cases Builder.start.complete (tokensFrom 0 s.toList) <;> rfl

theorem compile_eq_ok_iff {s : String} {o : Options} {t : Template} :
    compile s o = .ok t ↔
      ∃ ns, Builder.start.complete (tokensFrom 0 s.toList) = .ok ns ∧ t = ⟨.container ns, o⟩ := by
  rw [compile_eq_complete]
  cases Builder.start.complete (tokensFrom 0 s.toList) with
  | error e => simp [Except.map]
  | ok ns => simp [Except.map, eq_comm]

theorem compile_eq_error_iff {s : String} {o : Options} {error : CompileError} :
    compile s o = .error error ↔
      Builder.start.complete (tokensFrom 0 s.toList) = .error error := by
  rw [compile_eq_complete]
  cases Builder.start.complete (tokensFrom 0 s.toList) <;> simp [Except.map]

end Template

def Node.ofText (u : List Char) : List Node := if u = [] then [] else [text (String.ofList u)]

theorem builds_ofText (offset : Nat) (u : List Char) :
    Builds (Token.ofText offset u) (Node.ofText u) := by
  by_cases hu : u = []
  · rw [Token.ofText, Node.ofText, if_pos hu, if_pos hu]
    exact .nil
  · rw [Token.ofText, Node.ofText, if_neg hu, if_neg hu]
    exact .text rfl

theorem Builder.complete_ofText (b : Builder) (offset : Nat) (u : List Char)
    (later : List Token × Option CompileError) :
    b.complete (Token.ofText offset u ++ later.1, later.2) =
      (b.pushAll (Node.ofText u)).complete later :=
  complete_append_ok (builds_ofText offset u b) later

/-- How the tokens of a front and the tail behind them end: a token is refused, the tail shows a
fault, a block is left open, or the template compiles. -/
inductive Ending (ts : List Token) : List Char → Except CompileError (List Node) → Prop
  | refused {tail : List Char} {error : CompileError}
      (h : (Builder.start.acceptAll ts).2 = .error error) : Ending ts tail (.error error)
  | faulty {b : Builder} {u rest : List Char} {p : Piece} {error : CompileError}
      (h : (Builder.start.acceptAll ts).2 = .ok b) (hu : Plain u) (hl : p.Leads rest)
      (he : p.fault? (Text.size (ts.flatMap Token.source) + Text.size u) = some error) :
      Ending ts (u ++ (p.source ++ rest)) (.error error)
  | unclosed {b : Builder} {tail : List Char} {root : List Node} {block : OpenBlock}
      {outer : List OpenBlock} (h : (Builder.start.acceptAll ts).2 = .ok b)
      (htail : PlainToEnd tail) (hb : b.pushAll (Node.ofText tail) = ⟨root, block :: outer⟩) :
      Ending ts tail (.error ⟨.unclosedBlock block.kind, block.span⟩)
  | complete {tail : List Char} {ns : List Node}
      (h : (Builder.start.acceptAll ts).2 = .ok ⟨ns, []⟩) (htail : PlainToEnd tail) :
      Ending ts tail (.ok (ns ++ Node.ofText tail))

theorem Ending.of_toEnd {ts : List Token} {tail : List Char} {b : Builder}
    (h : (Builder.start.acceptAll ts).2 = .ok b) (htail : PlainToEnd tail) :
    Ending ts tail ((b.pushAll (Node.ofText tail)).close none) := by
  cases hb : b.pushAll (Node.ofText tail) with
  | mk root blocks =>
    cases blocks with
    | nil =>
      obtain ⟨ns, rfl, rfl⟩ := Builder.pushAll_eq_root hb
      exact .complete h htail
    | cons block outer => exact .unclosed h htail hb

/-- A front and its tail end as they are compiled together. -/
theorem Ending.complete_eq {ts : List Token} {tail : List Char}
    {result : Except CompileError (List Node)} (h : Ending ts tail result) (hts : Front 0 ts) :
    Builder.start.complete (tokensFrom 0 (ts.flatMap Token.source ++ tail)) = result := by
  have hend : ∀ {b : Builder}, (Builder.start.acceptAll ts).2 = .ok b → PlainToEnd tail →
      Builder.start.complete (tokensFrom 0 (ts.flatMap Token.source ++ tail)) =
        (b.pushAll (Node.ofText tail)).close none := by
    intro b hb htail
    have htext := b.complete_ofText (Text.size (ts.flatMap Token.source)) tail ([], none)
    rw [List.append_nil] at htext
    rw [hts.tokensFrom_append, Nat.zero_add, Builder.complete_append_ok hb, tokensFrom_end htail]
    exact htext
  cases h with
  | refused h =>
    rw [hts.tokensFrom_append, Nat.zero_add]
    exact Builder.complete_append_error h _
  | faulty h hu hl he =>
    rw [hts.tokensFrom_append, Nat.zero_add, Builder.complete_append_ok h,
      tokensFrom_fault hu hl he]
    rfl
  | unclosed h htail hb =>
    rw [hend h htail, hb]
    rfl
  | complete h htail =>
    rw [hend h htail, Builder.pushAll_root]
    rfl

/-- Every template has an ending. -/
theorem exists_ending (cs : List Char) :
    ∃ ts tail, Front 0 ts ∧ cs = ts.flatMap Token.source ++ tail ∧
      Ending ts tail (Builder.start.complete (tokensFrom 0 cs)) := by
  obtain ⟨ts, tail, hts, rfl, htail⟩ := exists_front 0 cs
  refine ⟨ts, tail, hts, rfl, ?_⟩
  rw [Nat.zero_add] at htail
  have hending : ∃ result, Ending ts tail result := by
    cases h : (Builder.start.acceptAll ts).2 with
    | error e => exact ⟨_, .refused h⟩
    | ok b =>
      cases htail with
      | literal hp => exact ⟨_, .of_toEnd h hp⟩
      | fault hu hl he => exact ⟨_, .faulty h hu hl he⟩
  obtain ⟨result, hending⟩ := hending
  rwa [hending.complete_eq hts]

end BraceTemplate
