import BraceTemplate.Proofs.Endings
import BraceTemplate.Proofs.Trimming
import Mathlib.Data.List.Forall2

namespace BraceTemplate

/-- Tokens that ask for the same. The blanks around a path or a name do not count, and the number
of braces only around a path that is written out. -/
inductive Token.Alike : Token → Token → Prop
  | text {t u : Token} (ht : t.kind = .text) (hu : u.kind = .text) (hv : t.value = u.value) :
      Alike t u
  | value {t u : Token} {f : Fence} (ht : t.IsValue f) (hu : u.IsValue f)
      (hv : Text.trim t.value = Text.trim u.value) : Alike t u
  | opening {t u : Token} {keyword expr expr' : String} (ht : t.OpensWith keyword expr)
      (hu : u.OpensWith keyword expr') (he : Text.trim expr = Text.trim expr') : Alike t u
  | closing {t u : Token} {name : String} (ht : t.ClosesWith name) (hu : u.ClosesWith name) :
      Alike t u
  | otherwise {t u : Token} (ht : t.IsElse) (hu : u.IsElse) : Alike t u

variable {R : Span → Span → Prop}

/-- Two results that differ in their spans alone, where `R` tells which spans belong together. -/
inductive SameOutcome (R : Span → Span → Prop) {α β : Type} (S : α → β → Prop) :
    Except CompileError α → Except CompileError β → Prop
  | ok {a : α} {b : β} (h : S a b) : SameOutcome R S (.ok a) (.ok b)
  | error {fault : Fault} {span span' : Span} (h : R span span') :
      SameOutcome R S (.error ⟨fault, span⟩) (.error ⟨fault, span'⟩)

def OpenBlock.Alike (R : Span → Span → Prop) (x y : OpenBlock) : Prop :=
  ∃ span, R x.span span ∧ y = { x with span := span }

structure Builder.Alike (R : Span → Span → Prop) (b c : Builder) : Prop where
  root : b.root = c.root
  blocks : List.Forall₂ (OpenBlock.Alike R) b.blocks c.blocks

/-- Steps that go alike from states that are alike end alike. -/
theorem SameOutcome.bind {α β γ δ : Type} {S : α → β → Prop} {T : γ → δ → Prop}
    {x : Except CompileError α} {y : Except CompileError β} {f : α → Except CompileError γ}
    {g : β → Except CompileError δ} (h : SameOutcome R S x y)
    (hnext : ∀ a b, S a b → SameOutcome R T (f a) (g b)) :
    SameOutcome R T (x.bind f) (y.bind g) := by
  cases h with
  | ok h => exact hnext _ _ h
  | error h => exact .error h

theorem OpenBlock.Alike.push {x y : OpenBlock} (h : x.Alike R y) (n : Node) :
    (x.push n).Alike R (y.push n) := by
  obtain ⟨span, hspan, rfl⟩ := h
  cases hbranch : x.inElse with
  | true =>
    simp only [OpenBlock.push, hbranch, if_true]
    exact ⟨span, hspan, rfl⟩
  | false =>
    simp only [OpenBlock.push, hbranch, Bool.false_eq_true, if_false]
    exact ⟨span, hspan, rfl⟩

namespace Builder.Alike

variable {b c : Builder} {t u : Token} {span span' : Span}

theorem start : Builder.start.Alike R Builder.start := ⟨rfl, .nil⟩

theorem push (h : b.Alike R c) (n : Node) : (b.push n).Alike R (c.push n) := by
  obtain ⟨root, blocks⟩ := b
  obtain ⟨root', blocks'⟩ := c
  obtain ⟨hroot, hblocks⟩ := h
  obtain rfl : root = root' := hroot
  cases hblocks with
  | nil => exact ⟨rfl, .nil⟩
  | cons hblock houter => exact ⟨rfl, .cons (hblock.push n) houter⟩

theorem openBlock (h : b.Alike R c) (hspan : R span span') (k : BlockKind) (p : Path) :
    (b.openBlock k p span).Alike R (c.openBlock k p span') :=
  ⟨h.root, .cons ⟨span', hspan, rfl⟩ h.blocks⟩

theorem closeBlock (h : b.Alike R c) (hspan : R span span') (name : String) :
    SameOutcome R (Builder.Alike R) (b.closeBlock name span) (c.closeBlock name span') := by
  obtain ⟨root, blocks⟩ := b
  obtain ⟨root', blocks'⟩ := c
  obtain ⟨hroot, hblocks⟩ := h
  obtain rfl : root = root' := hroot
  cases hblocks with
  | nil => exact .error hspan
  | @cons x _ outer outer' hblock houter =>
    obtain ⟨place, hplace, rfl⟩ := hblock
    by_cases hname : x.kind.keyword = name
    · have hclosed : Builder.Alike R ⟨root, outer⟩ ⟨root, outer'⟩ := ⟨rfl, houter⟩
      simp only [Builder.closeBlock, if_pos hname]
      exact .ok (hclosed.push x.toNode)
    · simp only [Builder.closeBlock, if_neg hname]
      exact .error hspan

theorem switchBranch (h : b.Alike R c) (hspan : R span span') :
    SameOutcome R (Builder.Alike R) (b.switchBranch span) (c.switchBranch span') := by
  obtain ⟨root, blocks⟩ := b
  obtain ⟨root', blocks'⟩ := c
  obtain ⟨hroot, hblocks⟩ := h
  obtain rfl : root = root' := hroot
  cases hblocks with
  | nil => exact .error hspan
  | @cons x _ _ _ hblock houter =>
    obtain ⟨place, hplace, rfl⟩ := hblock
    cases hk : x.kind.takesElse with
    | true =>
      simp only [Builder.switchBranch, hk, if_true]
      exact .ok ⟨rfl, .cons ⟨place, hplace, rfl⟩ houter⟩
    | false =>
      simp only [Builder.switchBranch, hk, Bool.false_eq_true, if_false]
      exact .error hspan

/-- Alike tokens do the same to alike builders, or are refused for the same fault. -/
theorem accept (h : b.Alike R c) (ht : t.Alike u) (hspan : R t.span u.span) :
    SameOutcome R (Builder.Alike R) (b.accept t) (c.accept u) := by
  cases ht with
  | text ht hu hv =>
    rw [accept_text ht, accept_text hu, hv]
    exact .ok (h.push _)
  | value ht hu hv =>
    rw [accept_value ht, accept_value hu, Path.parse_congr hv]
    exact .ok (h.push _)
  | @opening keyword expr expr' ht hu he =>
    rw [accept_opensWith ht, accept_opensWith hu, Path.parse_congr he]
    cases BlockKind.ofKeyword? keyword with
    | none => exact .error hspan
    | some k => exact .ok (h.openBlock hspan k _)
  | closing ht hu =>
    rw [accept_closing ht, accept_closing hu]
    exact h.closeBlock hspan _
  | otherwise ht hu =>
    rw [accept_else ht, accept_else hu]
    exact h.switchBranch hspan

theorem acceptAll {ts us : List Token} (h : b.Alike R c)
    (hts : List.Forall₂ (fun t u => t.Alike u ∧ R t.span u.span) ts us) :
    SameOutcome R (Builder.Alike R) (b.acceptAll ts).2 (c.acceptAll us).2 := by
  induction hts generalizing b c with
  | nil => exact .ok h
  | cons ht _ ih =>
    rw [acceptAll_cons, acceptAll_cons]
    exact (h.accept ht.1 ht.2).bind fun _ _ hnext => ih hnext

theorem close (h : b.Alike R c) : SameOutcome R Eq (b.close none) (c.close none) := by
  obtain ⟨root, blocks⟩ := b
  obtain ⟨root', blocks'⟩ := c
  obtain ⟨hroot, hblocks⟩ := h
  obtain rfl : root = root' := hroot
  cases hblocks with
  | nil => exact .ok rfl
  | cons hblock houter =>
    obtain ⟨place, hplace, rfl⟩ := hblock
    exact .error hplace

end Builder.Alike

/-- Templates of alike tokens compile to the same tree, or have the same fault at tokens that
correspond. -/
theorem compile_alike {s s' : String} {ts us : List Token} (hs : tokenize s = (ts, none))
    (hs' : tokenize s' = (us, none)) (h : List.Forall₂ Token.Alike ts us) (o : Options) :
    (∃ root, Template.compile s o = .ok ⟨root, o⟩ ∧ Template.compile s' o = .ok ⟨root, o⟩) ∨
    ∃ e e', Template.compile s o = .error e ∧ Template.compile s' o = .error e' ∧
      e.fault = e'.fault ∧ ∃ (i : Nat) (t u : Token), ts[i]? = some t ∧ us[i]? = some u ∧
        e.span = t.span ∧ e'.span = u.span := by
  let R : Span → Span → Prop := fun span span' => ∃ (i : Nat) (t u : Token),
    ts[i]? = some t ∧ us[i]? = some u ∧ span = t.span ∧ span' = u.span
  have hpairs : List.Forall₂ (fun t u => t.Alike u ∧ R t.span u.span) ts us := by
    rw [List.forall₂_iff_get] at h ⊢
    refine ⟨h.1, fun i hi hi' => ⟨h.2 i hi hi', i, _, _, ?_, ?_, rfl, rfl⟩⟩
    · exact List.getElem?_eq_getElem hi
    · exact List.getElem?_eq_getElem hi'
  have hrun : SameOutcome R Eq (Builder.start.complete (ts, none))
      (Builder.start.complete (us, none)) :=
    (Builder.Alike.start.acceptAll hpairs).bind fun _ _ hb => hb.close
  rw [tokenize_eq_tokensFrom] at hs hs'
  rw [Template.compile_eq_complete, Template.compile_eq_complete, hs, hs']
  generalize Builder.start.complete (ts, none) = x at hrun
  generalize Builder.start.complete (us, none) = y at hrun
  cases hrun with
  | @ok ns ms hnodes =>
    obtain rfl : ns = ms := hnodes
    exact .inl ⟨.container ns, rfl, rfl⟩
  | error hspan => exact .inr ⟨_, _, rfl, rfl, rfl, hspan⟩

/-- A closing tag that does not fit its block, behind tags with other blanks and other braces. -/
theorem compile_alike_padded :
    let s := doubleTag "#if  a" ++ "x{{ b}}{{/ each}}"
    let s' := "\x7b\x7b\x7b#if\ta \x7d\x7d\x7d" ++ "x{{b }}{{{/each}}}"
    let ts := (tokenize s).1
    let us := (tokenize s').1
    tokenize s = (ts, none) ∧ tokenize s' = (us, none) ∧ List.Forall₂ Token.Alike ts us ∧
    Template.compile s .default = .error ⟨.unmatchedCloseTag .ifBlock "each", ⟨17, 10⟩⟩ ∧
    Template.compile s' .default = .error ⟨.unmatchedCloseTag .ifBlock "each", ⟨19, 11⟩⟩ ∧
    ∃ (i : Nat) (t u : Token), ts[i]? = some t ∧ us[i]? = some u ∧ ⟨17, 10⟩ = t.span ∧
      ⟨19, 11⟩ = u.span := by
  intro s s' ts us
  have hs : tokenize s = (ts, none) := Prod.ext rfl (by decide +kernel)
  have hs' : tokenize s' = (us, none) := Prod.ext rfl (by decide +kernel)
  have hts : ts = [⟨.tag .double, "#if  a", ⟨0, 10⟩⟩, ⟨.text, "x", ⟨10, 1⟩⟩,
      ⟨.tag .double, " b", ⟨11, 6⟩⟩, ⟨.tag .double, "/ each", ⟨17, 10⟩⟩] := by decide +kernel
  have hus : us = [⟨.tag .triple, "#if\ta ", ⟨0, 12⟩⟩, ⟨.text, "x", ⟨12, 1⟩⟩,
      ⟨.tag .double, "b ", ⟨13, 6⟩⟩, ⟨.tag .triple, "/each", ⟨19, 11⟩⟩] := by decide +kernel
  have halike : List.Forall₂ Token.Alike ts us := by
    rw [hts, hus]
    refine .cons (@Token.Alike.opening _ _ "if" "  a" "\ta " ?_ ?_ ?_)
      (.cons (.text rfl rfl rfl) (.cons (.value (f := .double) ?_ ?_ ?_)
        (.cons (@Token.Alike.closing _ _ "each" ?_ ?_) .nil)))
    · exact Token.opensWith_iff.mpr (by decide +kernel)
    · exact Token.opensWith_iff.mpr (by decide +kernel)
    · decide +kernel
    · exact Token.isValue_iff.mpr ⟨rfl, by decide +kernel⟩
    · exact Token.isValue_iff.mpr ⟨rfl, by decide +kernel⟩
    · decide +kernel
    · exact Token.closesWith_iff.mpr (by decide +kernel)
    · exact Token.closesWith_iff.mpr (by decide +kernel)
  have herror : Template.compile s .default =
      .error ⟨.unmatchedCloseTag .ifBlock "each", ⟨17, 10⟩⟩ := by decide +kernel
  have herror' : Template.compile s' .default =
      .error ⟨.unmatchedCloseTag .ifBlock "each", ⟨19, 11⟩⟩ := by decide +kernel
  refine ⟨hs, hs', halike, herror, herror', ?_⟩
  rcases compile_alike hs hs' halike .default with ⟨root, hok, -⟩ | ⟨e, e', he, he', -, hspans⟩
  · rw [herror] at hok
    cases hok
  · obtain rfl := Except.error.inj (herror.symm.trans he)
    obtain rfl := Except.error.inj (herror'.symm.trans he')
    exact hspans

end BraceTemplate
