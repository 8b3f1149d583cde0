import BraceTemplate.Proofs.ChunkOutput
import BraceTemplate.Proofs.CompiledTree
import BraceTemplate.Proofs.Displacement

namespace BraceTemplate

/-- Where plain text meets a template, the text of both is one. All else is as in the template
alone, but further back. -/
theorem complete_plain_append (ns : List Node) {u : List Char} (hu : Plain u) (offset : Nat)
    (cs : List Char) :
    ∃ (v : List Char) (rest : Except CompileError (List Node)),
      Builder.start.complete (tokensFrom 0 cs) = rest.map (fun ms => Node.ofText v ++ ms) ∧
      Builder.complete ⟨ns, []⟩ (tokensFrom offset (u ++ cs)) =
        (rest.map (fun ms => ns ++ Node.ofText (u ++ v) ++ ms)).mapError
          (CompileError.shift (offset + Text.size u)) := by
  -- the tokens behind the first text of the template
  suffices h : ∃ (v : List Char) (later : List Token × Option CompileError),
      tokensFrom 0 cs = (Token.ofText 0 v ++ later.1, later.2) ∧
      Builder.complete ⟨ns, []⟩ (tokensFrom offset (u ++ cs)) =
        Builder.complete ⟨ns ++ Node.ofText (u ++ v), []⟩
          (later.1.map (Token.shift (offset + Text.size u)),
            later.2.map (CompileError.shift (offset + Text.size u))) by
    obtain ⟨v, later, hfirst, hboth⟩ := h
    refine ⟨v, Builder.start.complete later, ?_, ?_⟩
    · rw [hfirst, Builder.complete_ofText, Builder.start, Builder.pushAll_root, List.nil_append,
        Builder.complete_behind]
      rfl
    · rw [hboth, ← Builder.start_place _ (offset + Text.size u), Builder.complete_place]
  rcases tokensFrom_cases 0 cs with ⟨hp, h⟩ | ⟨v, f, body, rest, hv, hb, rfl⟩ |
    ⟨v, p, rest, error, hv, hl, rfl, he, h⟩
  · refine ⟨cs, ([], none), by simpa using h, ?_⟩
    have htext := Builder.complete_ofText ⟨ns, []⟩ offset (u ++ cs) ([], none)
    rw [List.append_nil, Builder.pushAll_root] at htext
    rw [tokensFrom_end (hu.append_toEnd hp), htext]
    rfl
  · have hread := tokensFrom_plain_tag (plain_append hu hv) hb offset rest
    have hplace : offset + Text.size (u ++ v) = 0 + Text.size v + (offset + Text.size u) := by
      rw [Text.size_append]
      omega
    rw [hplace, tokensFrom_shift] at hread
    refine ⟨v, _, tokensFrom_plain_tag hv hb 0 rest, ?_⟩
    rw [← List.append_assoc, hread]
    exact (Builder.complete_ofText ⟨ns, []⟩ offset (u ++ v) (_, _)).trans
      (by rw [Builder.pushAll_root])
  · refine ⟨[], ([], some error), by simpa [Token.ofText] using h, ?_⟩
    have hfault : p.fault? (offset + Text.size (u ++ v)) =
        some (error.shift (offset + Text.size u)) := by
      have hplace : offset + Text.size (u ++ v) = 0 + Text.size v + (offset + Text.size u) := by
        rw [Text.size_append]
        omega
      rw [hplace, Piece.fault?_shift, he]
      rfl
    rw [← List.append_assoc, tokensFrom_fault (plain_append hu hv) hl hfault]
    rfl

/-- A template that compiles and does not end in a brace is a front of tokens that close all their
blocks, and plain text behind them. -/
theorem exists_front_of_complete {cs : List Char} {ns : List Node}
    (h : Builder.start.complete (tokensFrom 0 cs) = .ok ns) (hlast : cs.getLast? ≠ some '{') :
    ∃ ts u ms, Front 0 ts ∧ cs = ts.flatMap Token.source ++ u ∧ Plain u ∧
      (Builder.start.acceptAll ts).2 = .ok ⟨ms, []⟩ ∧ ns = ms ++ Node.ofText u := by
  obtain ⟨ts, u, hts, hcs, hending⟩ := exists_ending cs
  rw [h] at hending
  cases hending with
  | @complete _ ms haccept hend =>
    refine ⟨ts, u, ms, hts, hcs, hend.plain fun hu => hlast ?_, haccept, rfl⟩
    rw [hcs]
    exact List.mem_getLast?_append_of_mem_getLast? hu

/-- Two runs of nodes, one behind the other. Text that meets text is one node. -/
def Node.meld (ns ms : List Node) : List Node :=
  match ns.getLast?, ms with
  | some (text s), text t :: rest => ns.dropLast ++ text (s ++ t) :: rest
  | _, _ => ns ++ ms

theorem Node.meld_text (ns : List Node) (s t : String) (ms : List Node) :
    meld (ns ++ [text s]) (text t :: ms) = ns ++ text (s ++ t) :: ms := by
  simp [meld]

/-- Where no texts meet, two runs of nodes are put together as they are. -/
theorem Node.meld_of_textsApart {ns ms : List Node} (h : TextsApart (ns ++ ms)) :
    meld ns ms = ns ++ ms := by
  unfold meld
  split
  · rename_i s t rest hlast
    have hmeet := (List.isChain_append.mp h).2.2
    exact absurd ⟨t, rfl⟩ (hmeet (text s) hlast (text t) rfl ⟨s, rfl⟩)
  · rfl

/-- The text in front of a template and the first text in it become one node, if both are there. -/
theorem meld_ofText {ns ms : List Node} {u v : List Char}
    (h : TextsApart (ns ++ Node.ofText (u ++ v) ++ ms)) :
    Node.meld (ns ++ Node.ofText u) (Node.ofText v ++ ms) = ns ++ Node.ofText (u ++ v) ++ ms := by
  by_cases hu : u = []
  · subst hu
    simp only [Node.ofText, List.nil_append, if_true, List.append_nil] at h ⊢
    rw [List.append_assoc] at h ⊢
    exact Node.meld_of_textsApart h
  · by_cases hv : v = []
    · subst hv
      simp only [Node.ofText, List.nil_append, if_true, List.append_nil] at h ⊢
      exact Node.meld_of_textsApart h
    · have huv : u ++ v ≠ [] := List.append_ne_nil_of_left_ne_nil hu v
      simp only [Node.ofText, if_neg hu, if_neg hv, if_neg huv, String.ofList_append]
      rw [List.singleton_append, Node.meld_text, List.append_assoc, List.singleton_append]

theorem join_chunksAll_ofText (u : List Char) (c : Context) :
    String.join (Node.chunksAll (Node.ofText u) c) = String.ofList u := by
  by_cases hu : u = []
  · simp [Node.ofText, hu, Node.chunksAll]
  · simp [Node.ofText, hu, Node.chunksAll, Node.chunks]

/-- A template in front of another, where the first compiles and does not end in a brace. The two
compile together if the second does. Their trees and outputs are then joined, and otherwise the
fault of the second is the fault of both. -/
theorem compile_append {a b : String} {o : Options} {ta : Template}
    (ha : Template.compile a o = .ok ta) (hlast : a.toList.getLast? ≠ some '{') :
    ((∃ t, Template.compile (a ++ b) o = .ok t) ↔ ∃ tb, Template.compile b o = .ok tb) ∧
    (∀ tb, Template.compile b o = .ok tb → ∃ t, Template.compile (a ++ b) o = .ok t ∧
      (∃ ns ms, ta.root = .container ns ∧ tb.root = .container ms ∧
        t.root = .container (Node.meld ns ms)) ∧
      ∀ data, ∃ x y, ta.render data = .ok x ∧ tb.render data = .ok y ∧
        t.render data = .ok (x ++ y)) ∧
    ∀ e, Template.compile b o = .error e → Template.compile (a ++ b) o =
      .error ⟨e.fault, ⟨e.span.offset + a.utf8ByteSize, e.span.length⟩⟩ := by
  obtain ⟨ns, hns, rfl⟩ := Template.compile_eq_ok_iff.mp ha
  obtain ⟨ts, u, ls, hts, hchars, hu, haccept, rfl⟩ := exists_front_of_complete hns hlast
  obtain ⟨v, rest, hb, hboth⟩ := complete_plain_append ls hu
    (Text.size (ts.flatMap Token.source)) b.toList
  have hsize : Text.size (ts.flatMap Token.source) + Text.size u = a.utf8ByteSize := by
    rw [← Text.size_append, ← hchars, Text.size_toList]
  have hab : Builder.start.complete (tokensFrom 0 (a ++ b).toList) =
      (rest.map (fun ms => ls ++ Node.ofText (u ++ v) ++ ms)).mapError
        (CompileError.shift a.utf8ByteSize) := by
    rw [String.toList_append, hchars, List.append_assoc, hts.tokensFrom_append, Nat.zero_add,
      Builder.complete_append_ok haccept, hboth, hsize]
  cases rest with
  | error e =>
    have herror : Template.compile b o = .error e := Template.compile_eq_error_iff.mpr hb
    have hfault : Template.compile (a ++ b) o = .error (e.shift a.utf8ByteSize) :=
      Template.compile_eq_error_iff.mpr hab
    refine ⟨by simp [herror, hfault], by simp [herror], ?_⟩
    intro e' he'
    obtain rfl := Except.error.inj (herror.symm.trans he')
    exact hfault
  | ok ms =>
    have hok : Template.compile b o = .ok ⟨.container (Node.ofText v ++ ms), o⟩ :=
      Template.compile_eq_ok_iff.mpr ⟨_, hb, rfl⟩
    have hjoined : Template.compile (a ++ b) o =
        .ok ⟨.container (ls ++ Node.ofText (u ++ v) ++ ms), o⟩ :=
      Template.compile_eq_ok_iff.mpr ⟨_, hab, rfl⟩
    refine ⟨by simp [hok, hjoined], ?_, by simp [hok]⟩
    intro tb htb
    obtain rfl := Except.ok.inj (hok.symm.trans htb)
    refine ⟨_, hjoined, ⟨_, _, rfl, rfl, ?_⟩, ?_⟩
    · have hparse : Node.parse (a ++ b) =
          .ok (.container (ls ++ Node.ofText (u ++ v) ++ ms)) := by
        rw [Node.parse_eq_complete, hab]
        rfl
      obtain ⟨_, hroot, hapart⟩ := Node.compiledRoot_of_parse hparse
      obtain rfl := Node.container.inj hroot
      rw [meld_ofText hapart.apart]
    · intro data
      refine ⟨_, _, Template.render_eq _ data, Template.render_eq _ data, ?_⟩
      rw [Template.render_eq]
      have hcontext : ∀ root, Template.context ⟨root, o⟩ data =
        Context.start data o.iterationMetadata := fun _ => rfl
      simp only [hcontext, Node.chunks, Node.chunksAll_append, String.join_append,
        join_chunksAll_ofText, String.ofList_append, String.append_assoc]

/-- The text behind the block meets the text of the second template, and a fault in the second is
found behind the bytes of the first. -/
theorem compile_append_after_block :
    let a := "é" ++ doubleTag "#if x" ++ "y{{/if}} "
    (∃ ta, Template.compile a .default = .ok ta) ∧ a.toList.getLast? ≠ some '{' ∧
    (∃ t, Template.compile (a ++ "z") .default = .ok t) ∧
    Template.compile (a ++ "z{{}}") .default =
      .error ⟨.emptyExpression, ⟨21, 4⟩⟩ := by
  intro a
  have ha : Template.compile a .default = .ok ⟨.container [.text "é", .ifBlock ⟨"x", ["x"]⟩
    (.container [.text "y"]) .empty, .text " "], .default⟩ := by decide +kernel
  have hlast : a.toList.getLast? ≠ some '{' := by decide
  have htext : Template.compile "z" .default = .ok ⟨.container [.text "z"], .default⟩ := by
    decide +kernel
  have hempty : Template.compile "z{{}}" .default =
      .error ⟨.emptyExpression, ⟨1, 4⟩⟩ := by decide +kernel
  have hjoined := compile_append ha hlast (b := "z")
  have hmoved := compile_append ha hlast (b := "z{{}}")
  exact ⟨⟨_, ha⟩, hlast, hjoined.1.mpr ⟨_, htext⟩, hmoved.2.2 _ hempty⟩

end BraceTemplate
