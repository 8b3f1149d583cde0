import BraceTemplate.Proofs.Endings
import BraceTemplate.Proofs.OpenBlocks
import Mathlib.Logic.Function.Iterate

namespace BraceTemplate

/-- A fault that no text behind the template can mend. -/
def Fault.isFinal : Fault → Bool
  | unclosedExpression | unclosedBlock _ => false
  | emptyExpression | tooManyBraces | unbalancedBlocks | unmatchedCloseTag _ _ | invalidElse
  | unsupportedBlock _ => true

theorem Builder.Refuses.isFinal {b : Builder} {t : Token} {fault : Fault}
    (h : b.Refuses t fault) : fault.isFinal = true := by
  cases h <;> rfl

/-- What a builder refuses no later token can mend. -/
theorem Builder.isFinal_of_acceptAll {b : Builder} {ts : List Token} {error : CompileError}
    (h : (b.acceptAll ts).2 = .error error) : error.fault.isFinal = true := by
  obtain ⟨before, t, later, after, -, -, ht⟩ := exists_refused h
  exact (refuses_of_accept ht).2.isFinal

/-- What is wrong with a piece stays wrong, unless only its end is missing. -/
theorem Piece.leads_append {p : Piece} {rest : List Char} {offset : Nat} {error : CompileError}
    (hl : p.Leads rest) (he : p.fault? offset = some error) (hf : error.fault.isFinal = true)
    (cs : List Char) : p.Leads (rest ++ cs) := by
  cases p with
  | literal | tag => cases he
  | emptyTag f => trivial
  | unclosedTag f body =>
    obtain rfl := Option.some.inj he
    cases hf
  | braces =>
    obtain ⟨ds, rfl⟩ := List.head?_eq_some_iff.mp hl
    rfl

/-- A final fault is the fault of every longer template. -/
theorem complete_append_of_isFinal {cs : List Char} {error : CompileError}
    (h : Builder.start.complete (tokensFrom 0 cs) = .error error)
    (hf : error.fault.isFinal = true) (ds : List Char) :
    Builder.start.complete (tokensFrom 0 (cs ++ ds)) = .error error := by
  obtain ⟨ts, tail, hts, rfl, hending⟩ := exists_ending cs
  rw [h] at hending
  rw [List.append_assoc]
  cases hending with
  | refused hrefused => exact (Ending.refused hrefused).complete_eq hts
  | faulty haccept hu hl he =>
    rw [List.append_assoc, List.append_assoc]
    exact (Ending.faulty haccept hu (Piece.leads_append hl he hf ds) he).complete_eq hts
  | unclosed => cases hf

def BlockKind.closer (k : BlockKind) : String := doubleTag ("/" ++ k.keyword)

theorem BlockKind.toList_closer (k : BlockKind) :
    k.closer.toList = (Piece.tag .double ('/' :: k.keyword.toList)).source := by
  simp [closer, Piece.toList_doubleTag]

theorem BlockKind.getLast_append_closer (k : BlockKind) (cs : List Char) :
    (cs ++ k.closer.toList).getLast? ≠ some '{' := by
  have hlast : k.closer.toList.getLast? = some '}' := by
    rw [toList_closer, Piece.source, List.getLast?_append_of_ne_nil _ Fence.double.closing_ne_nil]
    rfl
  rw [List.mem_getLast?_append_of_mem_getLast? hlast]
  decide

theorem BlockKind.fitsFence_closer (k : BlockKind) :
    FitsFence .double ('/' :: k.keyword.toList) :=
  .of_not_mem (by simp) (by simp) (by simp [k.closing_not_mem_keyword])

theorem BlockKind.closes_closer (k : BlockKind) (offset : Nat) :
    (Token.ofTag offset .double ('/' :: k.keyword.toList)).Closes k :=
  Token.closes_of_keyword rfl (by simp [Token.ofTag])

/-- A template that leaves a block open, and what its builder holds at its end. -/
theorem exists_open_of_unclosed {cs : List Char} {k : BlockKind} {span : Span}
    (h : Builder.start.complete (tokensFrom 0 cs) = .error ⟨.unclosedBlock k, span⟩)
    (hlast : cs.getLast? ≠ some '{') :
    ∃ ts u root block outer, Front 0 ts ∧ cs = ts.flatMap Token.source ++ u ∧ Plain u ∧
      (Builder.start.acceptAll (ts ++ Token.ofText (Text.size (ts.flatMap Token.source)) u)).2 =
        .ok ⟨root, block :: outer⟩ ∧ block.kind = k ∧ block.span = span := by
  obtain ⟨ts, u, hts, hcs, hending⟩ := exists_ending cs
  rw [h] at hending
  generalize hresult : (⟨.unclosedBlock k, span⟩ : CompileError) = error at hending
  cases hending with
  | refused hrefused =>
    subst hresult
    cases Builder.isFinal_of_acceptAll hrefused
  | @faulty _ _ _ p _ _ _ _ he =>
    subst hresult
    cases p with
    | literal | tag => cases he
    | emptyTag | unclosedTag | braces => cases Option.some.inj he
  | @unclosed b _ root block outer haccept hend hb =>
    obtain ⟨hk, hspan⟩ := CompileError.mk.inj hresult
    refine ⟨ts, u, root, block, outer, hts, hcs, hend.plain fun hu => hlast ?_, ?_,
      (Fault.unclosedBlock.inj hk).symm, hspan.symm⟩
    · rw [hcs]
      exact List.mem_getLast?_append_of_mem_getLast? hu
    · rw [Builder.acceptAll_append_ok haccept, builds_ofText, hb]

/-- What the open blocks lead to when the innermost of them is closed. -/
theorem Builder.close_outer {root : List Node} {block : OpenBlock} {outer : List OpenBlock}
    {ts : List Token} {offset : Nat} (h : Builder.Reads ⟨root, block :: outer⟩ ts)
    (hp : Placed offset ts) (n : Node) :
    (∃ ns, (push ⟨root, outer⟩ n).close none = .ok ns) ∨
      ∃ k span, (push ⟨root, outer⟩ n).close none = .error ⟨.unclosedBlock k, span⟩ ∧
        span.offset < block.span.offset := by
  cases outer with
  | nil => exact Or.inl ⟨_, rfl⟩
  | cons next outer =>
    right
    refine ⟨next.kind, next.span, ?_, h.outer_before hp⟩
    cases hb : next.inElse <;> simp [push, OpenBlock.push, close, hb]

/-- The closing tag of the block that is reported closes it. Then the template compiles or an
outer block is reported. -/
theorem complete_append_closer {cs : List Char} {k : BlockKind} {span : Span}
    (h : Builder.start.complete (tokensFrom 0 cs) = .error ⟨.unclosedBlock k, span⟩)
    (hlast : cs.getLast? ≠ some '{') :
    (∃ ns, Builder.start.complete (tokensFrom 0 (cs ++ k.closer.toList)) = .ok ns) ∨
      ∃ k' span', Builder.start.complete (tokensFrom 0 (cs ++ k.closer.toList)) =
        .error ⟨.unclosedBlock k', span'⟩ ∧ span'.offset < span.offset := by
  obtain ⟨ts, u, root, block, outer, hts, rfl, hu, haccept, rfl, rfl⟩ :=
    exists_open_of_unclosed h hlast
  have hread := hts.tokensFrom_last_tag hu block.kind.fitsFence_closer
  have hplaced := hts.placed_append_text u
  rw [Nat.zero_add] at hplaced
  have hclose : Builder.start.complete
      (tokensFrom 0 (ts.flatMap Token.source ++ u ++ block.kind.closer.toList)) =
        (Builder.push ⟨root, outer⟩ block.toNode).close none := by
    rw [List.append_assoc, BlockKind.toList_closer, hread, Nat.zero_add,
      Builder.complete_append_ok haccept ([_], none), Builder.complete,
      Builder.acceptAll_cons_ok (Builder.accept_closes (block.kind.closes_closer _))]
    rfl
  rw [hclose]
  exact Builder.close_outer (Builder.start_reads.acceptAll haccept) hplaced block.toNode

namespace Template

/-- Closes the block that compiling reports as open, if it reports one. -/
def mend (o : Options) (source : String) : String :=
  match compile source o with
  | .error ⟨.unclosedBlock k, _⟩ => source ++ k.closer
  | _ => source

theorem mend_of_unclosed {o : Options} {a : String} {k : BlockKind} {span : Span}
    (h : compile a o = .error ⟨.unclosedBlock k, span⟩) : mend o a = a ++ k.closer := by
  rw [mend, h]

theorem compile_append_closer {o : Options} {a : String} {k : BlockKind} {span : Span}
    (h : compile a o = .error ⟨.unclosedBlock k, span⟩) (hlast : a.toList.getLast? ≠ some '{') :
    (∃ t, compile (a ++ k.closer) o = .ok t) ∨
      ∃ k' span', compile (a ++ k.closer) o = .error ⟨.unclosedBlock k', span'⟩ ∧
        span'.offset < span.offset := by
  have hclose := complete_append_closer (compile_eq_error_iff.mp h) hlast
  rw [← String.toList_append] at hclose
  rcases hclose with ⟨ns, hns⟩ | ⟨k', span', herror, hlt⟩
  · exact Or.inl ⟨_, compile_eq_ok_iff.mpr ⟨ns, hns, rfl⟩⟩
  · exact Or.inr ⟨k', span', compile_eq_error_iff.mpr herror, hlt⟩

/-- Each round of mending reports a block further to the front. -/
theorem exists_mend_compiles {o : Options} {a : String} {k : BlockKind} {span : Span}
    (h : compile a o = .error ⟨.unclosedBlock k, span⟩) (hlast : a.toList.getLast? ≠ some '{') :
    ∃ n ≤ span.offset + 1, ∃ t, compile ((mend o)^[n] a) o = .ok t := by
  induction hn : span.offset using Nat.strong_induction_on generalizing a k span with
  | _ offset ih =>
    rcases compile_append_closer h hlast with ⟨t, ht⟩ | ⟨k', span', h', hlt⟩
    · refine ⟨1, by omega, t, ?_⟩
      rwa [Function.iterate_one, mend_of_unclosed h]
    · have hlast' : (a ++ k.closer).toList.getLast? ≠ some '{' := by
        rw [String.toList_append]
        exact k.getLast_append_closer a.toList
      obtain ⟨n, hle, t, ht⟩ := ih span'.offset (by omega) h' hlast' rfl
      refine ⟨n + 1, by omega, t, ?_⟩
      rwa [Function.iterate_succ_apply, mend_of_unclosed h]

end Template

/-- A fault other than a missing end is final: it is the fault of every longer template. An open
block can be closed by its tag, which leaves an outer block to report or none, so that a finite
number of closing tags makes the template compile. -/
theorem compile_error_final_or_mendable (o : Options) (a : String) :
    (∀ e, Template.compile a o = .error e → (∀ k, e.fault ≠ .unclosedBlock k) →
      e.fault ≠ .unclosedExpression → ∀ b, Template.compile (a ++ b) o = .error e) ∧
    ∀ k span, Template.compile a o = .error ⟨.unclosedBlock k, span⟩ →
      a.toList.getLast? ≠ some '{' →
      ((∃ t, Template.compile (a ++ k.closer) o = .ok t) ∨
        ∃ k' span', Template.compile (a ++ k.closer) o = .error ⟨.unclosedBlock k', span'⟩ ∧
          span'.offset < span.offset) ∧
      ∃ n ≤ span.offset + 1, ∃ t, Template.compile ((Template.mend o)^[n] a) o = .ok t := by
  refine ⟨?_, ?_⟩
  · intro e h hblock hexpr b
    have hf : e.fault.isFinal = true := by
      cases hfault : e.fault with
      | unclosedExpression => exact absurd hfault hexpr
      | unclosedBlock k => exact absurd hfault (hblock k)
      | emptyExpression | tooManyBraces | unbalancedBlocks | unmatchedCloseTag | invalidElse
      | unsupportedBlock => rfl
    rw [Template.compile_eq_error_iff, String.toList_append]
    exact complete_append_of_isFinal (Template.compile_eq_error_iff.mp h) hf b.toList
  · intro k span h hlast
    exact ⟨Template.compile_append_closer h hlast, Template.exists_mend_compiles h hlast⟩

/-- A branch without a block stays an error whatever follows it, and two open blocks are closed from
the inner to the outer. -/
theorem compile_error_final_or_mendable_nested :
    let stray := "{{else}}"
    let nested := doubleTag "#if x" ++ doubleTag "#each y"
    Template.compile stray .default = .error ⟨.invalidElse, ⟨0, 8⟩⟩ ∧
    Template.compile (stray ++ nested) .default = .error ⟨.invalidElse, ⟨0, 8⟩⟩ ∧
    Template.compile nested .default = .error ⟨.unclosedBlock .eachBlock, ⟨9, 11⟩⟩ ∧
    nested.toList.getLast? ≠ some '{' ∧
    ∃ n ≤ 10, ∃ t, Template.compile ((Template.mend .default)^[n] nested) .default = .ok t := by
  intro stray nested
  have hstray : Template.compile stray .default = .error ⟨.invalidElse, ⟨0, 8⟩⟩ := by
    decide +kernel
  have hnested : Template.compile nested .default =
      .error ⟨.unclosedBlock .eachBlock, ⟨9, 11⟩⟩ := by decide +kernel
  have hlast : nested.toList.getLast? ≠ some '{' := by decide
  have hfinal := (compile_error_final_or_mendable .default stray).1 _ hstray (by simp) (by simp)
  have hmend := (compile_error_final_or_mendable .default nested).2 _ _ hnested hlast
  exact ⟨hstray, hfinal nested, hnested, hlast, hmend.2⟩

end BraceTemplate
