import BraceTemplate.Proofs.CompiledTree
import BraceTemplate.Template

namespace BraceTemplate

/-- A path as a tag spells it. The blanks keep it apart from the marks of block tags and from the
braces. -/
def Path.padded (p : Path) : List Char := ' ' :: (p.raw.toList ++ [' '])

namespace Token

/-- The tags of a block. Three braces leave room for two in the path. -/
def openingTag (k : BlockKind) (p : Path) : Token :=
  ofTag 0 .triple ('#' :: (k.keyword.toList ++ p.padded))

def closingTag (k : BlockKind) : Token := ofTag 0 .triple ('/' :: k.keyword.toList)

def elseTag : Token := ofTag 0 .double "else".toList

def blockTags (k : BlockKind) (p : Path) (body otherwise : List Token) : List Token :=
  openingTag k p :: (body ++ (otherwise ++ [closingTag k]))

end Token

namespace Node

mutual

/-- Tokens that build the node, wherever they are placed. -/
def spell : Node → List Token
  | text s => [⟨.text, s, ⟨0, Text.size s.toList⟩⟩]
  | escaped p => [Token.ofTag 0 .double p.padded]
  | unescaped p => [Token.ofTag 0 .triple p.padded]
  | container ns => spellAll ns
  | ifBlock p body otherwise => Token.blockTags .ifBlock p body.spell otherwise.spellElse
  | unlessBlock p body otherwise => Token.blockTags .unlessBlock p body.spell otherwise.spellElse
  | eachBlock p body => Token.blockTags .eachBlock p body.spell []
  | withBlock p body => Token.blockTags .withBlock p body.spell []

/-- In a second branch each node stands behind an `else` of its own. -/
def spellElse : Node → List Token
  | container ns => spellEach ns
  | _ => []

def spellAll : List Node → List Token
  | [] => []
  | n :: ns => n.spell ++ spellAll ns

def spellEach : List Node → List Token
  | [] => []
  | n :: ns => Token.elseTag :: (n.spell ++ spellEach ns)

end

def print (n : Node) : String := String.ofList (n.spell.flatMap Token.source)

theorem spell_ofFence (f : Fence) (p : Path) :
    (ofFence f p).spell = [Token.ofTag 0 f p.padded] := by
  cases f <;> rfl

theorem spell_ofBlock {k : BlockKind} {p : Path} {body otherwise : List Node}
    (hk : otherwise ≠ [] → k.takesElse = true) :
    (ofBlock k p body otherwise).spell =
      Token.blockTags k p (spellAll body) (spellEach otherwise) := by
  have hdrop : k.takesElse = false → spellEach otherwise = [] := by
    intro hf
    cases otherwise with
    | nil => rfl
    | cons n ns => simp [hk] at hf
  cases k with
  | ifBlock | unlessBlock => rfl
  | eachBlock | withBlock =>
    rw [hdrop rfl]
    rfl

end Node

namespace Path.Fits

variable {p : Path} {f : Fence}

theorem fitsFence_append (h : p.Fits f) {u : List Char} (hu : '}' ∉ u)
    (hfirst : (u ++ p.padded).head? ≠ some '{') : FitsFence f (u ++ p.padded) := by
  have hsplit : u ++ p.padded = (u ++ [' ']) ++ p.raw.toList ++ [' '] := by simp [padded]
  refine .of_no_closing (by simp [padded]) hfirst ?_ ?_
  · rw [hsplit, List.getLast?_concat]
    decide
  · rw [hsplit, Fence.closing, closing_infix_concat f.width_pos (by decide),
      closing_infix_append f.width_pos (by simp [hu])]
    exact h.noClosing

/-- The blanks around a path do not change it. -/
theorem parse_padded (h : p.Fits f) : Path.parse (String.ofList p.padded) = p := by
  have hblank : Text.Blank [' '] := by
    intro c hc
    obtain rfl := List.mem_singleton.mp hc
    decide
  have htrim : Text.trim (String.ofList p.padded) = p.raw :=
    Text.trim_append hblank hblank h.trimmed
  exact (parse_congr (htrim.trans h.trimmed.symm)).trans h.parsed.symm

end Path.Fits

namespace Token

variable {f : Fence} {p : Path}

/-- A padded path is no mark of a block. -/
theorem isValue_padded (f : Fence) (p : Path) (span : Span) :
    IsValue { ofTag 0 f p.padded with span := span } f := by
  refine ⟨rfl, by simp [ofTag, Path.padded], by simp [ofTag, Path.padded], ?_⟩
  intro he
  have hchars := congrArg String.toList he
  simp [ofTag, Path.padded] at hchars

theorem opens_openingTag (k : BlockKind) (p : Path) (span : Span) :
    Opens { openingTag k p with span := span } k (String.ofList p.padded) := by
  apply opens_of_keyword rfl (by simp [openingTag, ofTag])
  rw [String.toList_ofList]
  intro c hc
  obtain rfl := Option.some.inj hc
  decide

theorem closes_closingTag (k : BlockKind) (span : Span) :
    Closes { closingTag k with span := span } k :=
  closes_of_keyword rfl (by simp [closingTag, ofTag])

theorem isElse_elseTag (span : Span) : IsElse { elseTag with span := span } :=
  ⟨⟨.double, rfl⟩, rfl⟩

theorem inside_openingTag (h : p.Fits .triple) (k : BlockKind) :
    Inside [openingTag k p] := by
  apply inside_ofTag
  rw [← List.cons_append]
  refine h.fitsFence_append ?_ (by simp)
  cases k <;> decide

theorem inside_closingTag (k : BlockKind) : Inside [closingTag k] :=
  inside_ofTag (.of_not_mem (by simp) (by simp) (by simp [k.closing_not_mem_keyword]))

theorem inside_elseTag : Inside [elseTag] :=
  inside_ofTag (.of_not_mem (by simp) (by decide) (by decide))

end Token

namespace Node

/-- Text is spelled as text alone, and all other nodes begin and end with a tag. -/
theorem CompiledLast.spell_ends {n : Node} (h : n.CompiledLast) :
    n.spell ≠ [] ∧ (n.IsText ∨
      (∀ t ∈ n.spell.head?, t.kind ≠ .text) ∧ ∀ t ∈ n.spell.getLast?, t.kind ≠ .text) := by
  rcases h with h | ⟨s, rfl, -, -⟩
  · induction h using Compiled.byTags with
    | text hs hp => exact ⟨by simp [spell], Or.inl ⟨_, rfl⟩⟩
    | value hp =>
      rw [spell_ofFence]
      exact ⟨by simp, Or.inr ⟨by simp [Token.ofTag], by simp [Token.ofTag]⟩⟩
    | block hp hb ha ho hk ihb iho =>
      rw [spell_ofBlock hk, Token.blockTags]
      refine ⟨by simp, Or.inr ⟨by simp [Token.openingTag, Token.ofTag], ?_⟩⟩
      rw [← List.append_assoc, ← List.cons_append, List.getLast?_concat]
      simp [Token.closingTag, Token.ofTag]
  · exact ⟨by simp [spell], Or.inl ⟨s, rfl⟩⟩

/-- Where nodes meet, texts do not. -/
theorem spell_meet {n m : Node} {ns : List Node} (hn : n.CompiledLast) (hm : m.CompiledLast)
    (h : n.IsText → ¬ m.IsText) : Apart n.spell (spellAll (m :: ns)) := by
  intro t ht u hu hk
  obtain ⟨hne, hfirst⟩ := hm.spell_ends
  rw [spellAll, List.head?_append_of_ne_nil _ hne] at hu
  rcases hn.spell_ends.2 with hx | ⟨-, hlast⟩
  · rcases hfirst with hy | ⟨hfirst, -⟩
    · exact absurd hy (h hx)
    · exact hfirst u hu
  · exact absurd hk (hlast t ht)

theorem inside_spellAll {ns : List Node} (hc : ∀ n ∈ ns, n.Compiled)
    (hin : ∀ n ∈ ns, Inside n.spell) (ha : TextsApart ns) : Inside (spellAll ns) := by
  induction ns with
  | nil => exact inside_nil
  | cons n ns ih =>
    obtain ⟨hcn, hc⟩ := List.forall_mem_cons.mp hc
    obtain ⟨hinn, hin⟩ := List.forall_mem_cons.mp hin
    obtain ⟨hhead, ha⟩ := List.isChain_cons.mp ha
    refine inside_append.mpr ⟨hinn, ih hc hin ha, ?_⟩
    cases ns with
    | nil => simp [spellAll, Apart]
    | cons m ms => exact spell_meet (Or.inl hcn) (Or.inl (hc m (by simp))) (hhead m rfl)

theorem head_spellEach_append (ns : List Node) (k : BlockKind) :
    ∀ t ∈ (spellEach ns ++ [Token.closingTag k]).head?, t.kind ≠ .text := by
  intro t ht
  cases ns with
  | nil | cons =>
    obtain rfl := Option.some.inj ht
    simp [Token.closingTag, Token.elseTag, Token.ofTag]

theorem inside_spellEach {ns : List Node} (hin : ∀ n ∈ ns, Inside n.spell) (k : BlockKind) :
    Inside (spellEach ns ++ [Token.closingTag k]) := by
  induction ns with
  | nil => exact Token.inside_closingTag k
  | cons n ns ih =>
    obtain ⟨hinn, hin⟩ := List.forall_mem_cons.mp hin
    rw [spellEach, List.cons_append, List.append_assoc]
    exact inside_cons.mpr ⟨Token.inside_elseTag,
      inside_append.mpr ⟨hinn, ih hin, .of_head (head_spellEach_append ns k) _⟩, .of_tag rfl _⟩

/-- The tokens of a compiled node can stand inside a template. -/
theorem Compiled.inside_spell {n : Node} (h : n.Compiled) : Inside n.spell := by
  induction h using Compiled.byTags with
  | text hs hp => exact inside_singleton.mpr ⟨fun _ => ⟨hs, hp⟩, fun f hf => by cases hf⟩
  | value hp =>
    rw [spell_ofFence]
    exact Token.inside_ofTag (hp.fitsFence_append List.not_mem_nil (by simp [Path.padded]))
  | @block k p body otherwise hp hb ha ho hk ihb iho =>
    rw [spell_ofBlock hk]
    have hbody : Inside (spellAll body) := inside_spellAll hb ihb ha
    exact inside_cons.mpr ⟨Token.inside_openingTag hp k,
      inside_append.mpr ⟨hbody, inside_spellEach iho k,
        .of_head (head_spellEach_append otherwise k) _⟩, .of_tag rfl _⟩

/-- The last node may end in braces, for no token follows it. -/
theorem lexical_spellAll {ns : List Node} (h : RootNodes ns) : Lexical (spellAll ns) := by
  induction ns with
  | nil => exact lexical_nil
  | cons n ns ih =>
    cases ns with
    | nil =>
      rw [spellAll, spellAll, List.append_nil]
      rcases h.last n rfl with hn | ⟨s, rfl, hs, hp⟩
      · exact hn.inside_spell.lexical
      · exact lexical_cons.mpr ⟨fun _ => ⟨hs, fun _ => hp, by simp⟩,
          by simp, lexical_nil⟩
    | cons m ms =>
      obtain ⟨hrest, ha, hn, -⟩ := rootNodes_cons.mp h
      have hn := hn (by simp)
      have hne : spellAll (m :: ms) ≠ [] := by
        rw [spellAll]
        exact List.append_ne_nil_of_left_ne_nil hrest.head.spell_ends.1 _
      refine (lexical_append hne).mpr ⟨hn.inside_spell, ih hrest, ?_⟩
      exact spell_meet (Or.inl hn) hrest.head ((List.isChain_cons.mp ha).1 m rfl)

theorem builds_spellAll {ns : List Node}
    (h : ∀ n ∈ ns, ∀ offset, Builds (placeAll offset n.spell) [n]) (offset : Nat) :
    Builds (placeAll offset (spellAll ns)) ns := by
  induction ns generalizing offset with
  | nil => exact .nil
  | cons n ns ih =>
    obtain ⟨hn, h⟩ := List.forall_mem_cons.mp h
    rw [spellAll, placeAll_append]
    exact (hn offset).append (ih h _)

theorem buildsElse_spellEach {k : BlockKind} {ns : List Node} (hk : ns ≠ [] → k.takesElse = true)
    (h : ∀ n ∈ ns, ∀ offset, Builds (placeAll offset n.spell) [n]) (offset : Nat) :
    BuildsElse k (placeAll offset (spellEach ns)) ns := by
  induction ns generalizing offset with
  | nil => exact .nil
  | cons n ns ih =>
    obtain ⟨hn, h⟩ := List.forall_mem_cons.mp h
    rw [spellEach, placeAll, placeAll_append]
    exact .cons (hk (by simp)) (Token.isElse_elseTag _) (hn _) (ih (fun _ => hk (by simp)) h _)

/-- Wherever the tokens of a compiled node are placed, they build it. -/
theorem Compiled.builds_spell {n : Node} (h : n.Compiled) :
    ∀ offset, Builds (placeAll offset n.spell) [n] := by
  induction h using Compiled.byTags with
  | text hs hp => exact fun offset => Builds.text rfl
  | @value f p hp =>
    intro offset
    have hb : Builds (placeAll offset [Token.ofTag 0 f p.padded])
        [ofFence f (Path.parse (String.ofList p.padded))] :=
      .value (Token.isValue_padded f p _)
    rw [hp.parse_padded] at hb
    rw [spell_ofFence]
    exact hb
  | @block k p body otherwise hp hb ha ho hk ihb iho =>
    intro offset
    have hbuild : Builds
        (placeAll offset (Token.blockTags k p (spellAll body) (spellEach otherwise)))
        [ofBlock k (Path.parse (String.ofList p.padded)) body otherwise] := by
      rw [Token.blockTags, placeAll, placeAll_append, placeAll_append, placeAll, placeAll]
      exact .block ⟨_, _, _, Token.opens_openingTag k p _, Token.closes_closingTag k _⟩
        (builds_spellAll ihb _) (buildsElse_spellEach hk iho _)
    rw [hp.parse_padded] at hbuild
    rw [spell_ofBlock hk]
    exact hbuild

theorem CompiledLast.builds_spell {n : Node} (h : n.CompiledLast) :
    ∀ offset, Builds (placeAll offset n.spell) [n] := by
  rcases h with h | ⟨s, rfl, -, -⟩
  · exact h.builds_spell
  · exact fun offset => Builds.text rfl

/-- The printed template of a tree is compiled to the tree. -/
theorem parse_print {r : Node} (h : r.CompiledRoot) : Node.parse r.print = .ok r := by
  obtain ⟨ns, rfl, hroot⟩ := h
  have hcut : tokenize (container ns).print = (placeAll 0 (spellAll ns), none) := by
    rw [tokenize_eq_tokensFrom, print, String.toList_ofList]
    exact tokensFrom_of_spells ((lexical_spellAll hroot).spells 0)
  refine Node.parse_eq_ok.mpr ⟨by rw [hcut], ns, rfl, ?_⟩
  rw [hcut, builds_spellAll (fun n hn => (hroot.compiledLast n hn).builds_spell) 0, Builder.start,
    Builder.pushAll_root, List.nil_append]

end Node

/-- A template compiles if its tree can be built, and it keeps the default options. -/
theorem compile_eq_ok {s : String} {t : Template} :
    compile s = .ok t ↔ ∃ root, Node.parse s = .ok root ∧ t = ⟨root, .default⟩ := by
  unfold compile Template.compile Template.compileLogged Node.parse
  generalize Node.ofScanner (Scanner.start s) = compiled
  obtain ⟨events, result⟩ := compiled
  cases result with
  | error e => simp
  | ok root => simp [eq_comm]

/-- The trees of templates are exactly the trees of compiled nodes. -/
theorem exists_compile_iff_compiledRoot (r : Node) :
    (∃ s t, compile s = .ok t ∧ t.root = r) ↔ r.CompiledRoot := by
  constructor
  · intro ⟨s, t, hs, ht⟩
    obtain ⟨root, hroot, rfl⟩ := compile_eq_ok.mp hs
    obtain rfl : root = r := ht
    exact Node.compiledRoot_of_parse hroot
  · intro h
    exact ⟨r.print, ⟨r, .default⟩, compile_eq_ok.mpr ⟨r, Node.parse_print h, rfl⟩, rfl⟩

end BraceTemplate
