import BraceTemplate.Proofs.Endings

namespace BraceTemplate

def Span.shift (k : Nat) (s : Span) : Span := { s with offset := s.offset + k }

def Token.shift (k : Nat) (t : Token) : Token := { t with span := t.span.shift k }

def CompileError.shift (k : Nat) (e : CompileError) : CompileError :=
  { e with span := e.span.shift k }

def OpenBlock.shift (k : Nat) (b : OpenBlock) : OpenBlock := { b with span := b.span.shift k }

theorem Token.map_shift_ofText (offset k : Nat) (cs : List Char) :
    (ofText offset cs).map (shift k) = ofText (offset + k) cs := by
  by_cases h : cs = []
  · simp [ofText, h]
  · simp [ofText, h, shift, Span.shift]

theorem Piece.fault?_shift (p : Piece) (offset k : Nat) :
    p.fault? (offset + k) = (p.fault? offset).map (CompileError.shift k) := by
  cases p with
  | literal | tag | emptyTag | unclosedTag => rfl
  | braces => simp [fault?, CompileError.shift, Span.shift, Nat.add_right_comm]

/-- Tokens and faults stand where the template stands. -/
theorem tokensFrom_shift (offset k : Nat) (cs : List Char) :
    tokensFrom (offset + k) cs =
      ((tokensFrom offset cs).1.map (Token.shift k),
        (tokensFrom offset cs).2.map (CompileError.shift k)) := by
  induction hn : cs.length using Nat.strong_induction_on generalizing offset cs with
  | _ n ih =>
    rcases tokensFrom_cases offset cs with ⟨hp, h⟩ | ⟨u, f, body, rest, hu, hb, rfl⟩ |
      ⟨u, p, rest, error, hu, hl, rfl, he, h⟩
    · rw [h, tokensFrom_end hp, Token.map_shift_ofText]
      rfl
    · have hlt : rest.length < n := by
        have hs := List.length_pos_iff.mpr (Piece.source_tag_ne_nil f body)
        simp only [List.length_append] at hn
        omega
      have hread := tokensFrom_tag hu hb offset rest
      have hmoved := tokensFrom_tag hu hb (offset + k) rest
      have hrest := ih rest.length hlt
        (offset + Text.size u + Text.size (Piece.tag f body).source) rest rfl
      simp only [Token.ofTag] at hread hmoved
      rw [Nat.add_right_comm offset k, Nat.add_right_comm _ k, hrest] at hmoved
      rw [hread, hmoved, List.map_append, List.map_cons, Token.map_shift_ofText]
      rfl
    · have hshift : p.fault? (offset + k + Text.size u) = some (error.shift k) := by
        rw [Nat.add_right_comm, Piece.fault?_shift, he]
        rfl
      rw [h, tokensFrom_fault hu hl hshift]
      rfl

namespace Builder

/-- The builder with more nodes before its own, further back in a template. -/
def place (b : Builder) (ns : List Node) (k : Nat) : Builder :=
  ⟨ns ++ b.root, b.blocks.map (OpenBlock.shift k)⟩

variable (ns : List Node) (k : Nat) (b : Builder)

theorem push_place (n : Node) : (b.place ns k).push n = (b.push n).place ns k := by
  obtain ⟨root, blocks⟩ := b
  cases blocks with
  | nil => simp [push, place]
  | cons block outer =>
    cases h : block.inElse <;> simp [push, place, OpenBlock.push, OpenBlock.shift, h]

theorem closeBlock_place (name : String) (span : Span) :
    (b.place ns k).closeBlock name (span.shift k) =
      ((b.closeBlock name span).map (fun after => after.place ns k)).mapError
        (CompileError.shift k) := by
  obtain ⟨root, blocks⟩ := b
  cases blocks with
  | nil => rfl
  | cons block outer =>
    by_cases h : block.kind.keyword = name
    · have hpush := push_place ns k ⟨root, outer⟩ block.toNode
      simp only [place, List.map_cons, closeBlock, OpenBlock.shift, if_pos h] at hpush ⊢
      exact congrArg Except.ok hpush
    · simp only [place, List.map_cons, closeBlock, OpenBlock.shift, if_neg h]
      rfl

theorem switchBranch_place (span : Span) :
    (b.place ns k).switchBranch (span.shift k) =
      ((b.switchBranch span).map (fun after => after.place ns k)).mapError
        (CompileError.shift k) := by
  obtain ⟨root, blocks⟩ := b
  cases blocks with
  | nil => rfl
  | cons block outer =>
    cases h : block.kind.takesElse <;>
      simp only [place, List.map_cons, switchBranch, OpenBlock.shift, h] <;> rfl

/-- A token is accepted further back as it is at its own place. -/
theorem accept_place (t : Token) :
    (b.place ns k).accept (t.shift k) =
      ((b.accept t).map (fun after => after.place ns k)).mapError (CompileError.shift k) := by
  have hkind : (t.shift k).kind = t.kind := rfl
  have hvalue : (t.shift k).value = t.value := rfl
  unfold accept
  rw [hkind, hvalue]
  cases t.kind with
  | text => exact congrArg Except.ok (push_place ns k b (.text t.value))
  | tag f =>
    cases Tag.ofBody t.value with
    | opening keyword expr =>
      dsimp only
      cases BlockKind.ofKeyword? keyword <;> rfl
    | closing name => exact closeBlock_place ns k b name t.span
    | otherwise => exact switchBranch_place ns k b t.span
    | value expr => exact congrArg Except.ok (push_place ns k b _)

/-- Further back, and behind other nodes, a run of tokens is accepted or refused alike. -/
theorem acceptAll_place (ts : List Token) :
    ((b.place ns k).acceptAll (ts.map (Token.shift k))).2 =
      ((b.acceptAll ts).2.map (fun after => after.place ns k)).mapError (CompileError.shift k) := by
  induction ts generalizing b with
  | nil => rfl
  | cons t ts ih =>
    rw [List.map_cons, acceptAll_cons, acceptAll_cons, accept_place]
    cases b.accept t with
    | error e => rfl
    | ok after => exact ih after

theorem close_place (fault : Option CompileError) :
    (b.place ns k).close (fault.map (CompileError.shift k)) =
      ((b.close fault).map (fun ms => ns ++ ms)).mapError (CompileError.shift k) := by
  obtain ⟨root, blocks⟩ := b
  cases fault with
  | some e => rfl
  | none => cases blocks <;> rfl

/-- What stands before a template changes nothing but the place of its fault. -/
theorem complete_place (later : List Token × Option CompileError) :
    (b.place ns k).complete (later.1.map (Token.shift k), later.2.map (CompileError.shift k)) =
      ((b.complete later).map (fun ms => ns ++ ms)).mapError (CompileError.shift k) := by
  unfold complete
  rw [acceptAll_place]
  cases (b.acceptAll later.1).2 with
  | error e => rfl
  | ok after => exact close_place ns k after later.2

theorem start_place : start.place ns k = ⟨ns, []⟩ := by simp [place, start]

/-- Outside all blocks the nodes that are finished do not matter to what follows. -/
theorem complete_behind (later : List Token × Option CompileError) :
    complete ⟨ns, []⟩ later = (start.complete later).map (fun ms => ns ++ ms) := by
  have hplace := complete_place ns 0 start later
  have htokens : later.1.map (Token.shift 0) = later.1 := List.map_id later.1
  have hfault : later.2.map (CompileError.shift 0) = later.2 := Option.map_id_apply
  rw [start_place, htokens, hfault] at hplace
  rw [hplace]
  cases start.complete later <;> rfl

end Builder
end BraceTemplate
