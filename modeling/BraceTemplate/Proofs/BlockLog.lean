import BraceTemplate.Proofs.CompiledTree
import BraceTemplate.Proofs.FaultSpans

namespace BraceTemplate

namespace BlockEvent

def isOpening : BlockEvent → Bool
  | opening _ _ => true
  | closing _ => false

def isClosing : BlockEvent → Bool
  | opening _ _ => false
  | closing _ => true

theorem not_isClosing_opening {k : BlockKind} {path : String} :
    ¬ (opening k path).isClosing = true :=
  Bool.false_ne_true

theorem not_isOpening_closing {k : BlockKind} : ¬ (closing k).isOpening = true :=
  Bool.false_ne_true

/-- Each block that is opened is closed behind all that is opened in it. -/
inductive Nested : List BlockEvent → Prop
  | nil : Nested []
  | block {k : BlockKind} {path : String} {inner later : List BlockEvent} (hi : Nested inner)
      (hl : Nested later) : Nested (opening k path :: (inner ++ closing k :: later))

theorem Nested.append {events later : List BlockEvent} (h : Nested events) (h' : Nested later) :
    Nested (events ++ later) := by
  induction h with
  | nil => exact h'
  | block hi hl _ ih =>
    rw [List.cons_append, List.append_assoc, List.cons_append]
    exact .block hi ih

end BlockEvent

namespace Node

mutual

/-- The blocks of a tree in its order, each opened with the text of its path and closed behind its
branches. -/
def blockEvents : Node → List BlockEvent
  | text _ | escaped _ | unescaped _ => []
  | container ns => blockEventsAll ns
  | ifBlock p body otherwise =>
    .opening .ifBlock p.raw :: (body.blockEvents ++ (otherwise.blockEvents ++ [.closing .ifBlock]))
  | unlessBlock p body otherwise =>
    .opening .unlessBlock p.raw ::
      (body.blockEvents ++ (otherwise.blockEvents ++ [.closing .unlessBlock]))
  | eachBlock p body => .opening .eachBlock p.raw :: (body.blockEvents ++ [.closing .eachBlock])
  | withBlock p body => .opening .withBlock p.raw :: (body.blockEvents ++ [.closing .withBlock])

def blockEventsAll : List Node → List BlockEvent
  | [] => []
  | n :: ns => n.blockEvents ++ blockEventsAll ns

end

mutual

/-- The blocks of every tree are well nested. -/
theorem nested_blockEvents : ∀ n : Node, BlockEvent.Nested n.blockEvents
  | text _ | escaped _ | unescaped _ => .nil
  | container ns => nested_blockEventsAll ns
  | ifBlock _ body otherwise | unlessBlock _ body otherwise => by
    rw [blockEvents, ← List.append_assoc]
    exact .block ((nested_blockEvents body).append (nested_blockEvents otherwise)) .nil
  | eachBlock _ body | withBlock _ body => .block (nested_blockEvents body) .nil

theorem nested_blockEventsAll : ∀ ns : List Node, BlockEvent.Nested (blockEventsAll ns)
  | [] => .nil
  | n :: ns => (nested_blockEvents n).append (nested_blockEventsAll ns)

end

theorem blockEventsAll_append (ns ms : List Node) :
    blockEventsAll (ns ++ ms) = blockEventsAll ns ++ blockEventsAll ms := by
  induction ns with
  | nil => rfl
  | cons n ns ih => rw [List.cons_append, blockEventsAll, blockEventsAll, ih, List.append_assoc]

theorem blockEvents_ofFence (f : Fence) (p : Path) : (ofFence f p).blockEvents = [] := by
  cases f <;> rfl

/-- A block that has no second branch drops none. -/
theorem blockEvents_ofBlock {k : BlockKind} (p : Path) (body : List Node) {otherwise : List Node}
    (h : otherwise ≠ [] → k.takesElse = true) :
    (ofBlock k p body otherwise).blockEvents =
      .opening k p.raw ::
        (blockEventsAll body ++ (blockEventsAll otherwise ++ [.closing k])) := by
  by_cases ho : otherwise = []
  · subst ho
    cases k <;> rfl
  · have hk := h ho
    cases k with
    | ifBlock | unlessBlock => rfl
    | eachBlock | withBlock => cases hk

end Node

namespace Token

structure NoBlockTag (t : Token) : Prop where
  notOpening : ∀ keyword expr, ¬ t.OpensWith keyword expr
  notClosing : ∀ name, ¬ t.ClosesWith name

/-- The events of all opening and closing tags among the tokens, in their order, where each of
them opens or closes a block that is known. -/
inductive Logged : List Token → List BlockEvent → Prop
  | nil : Logged [] []
  | opening {t : Token} {k : BlockKind} {expr : String} {ts : List Token}
      {events : List BlockEvent} (ht : t.Opens k expr) (h : Logged ts events) :
      Logged (t :: ts) (.opening k (Text.trim expr) :: events)
  | closing {t : Token} {k : BlockKind} {ts : List Token} {events : List BlockEvent}
      (ht : t.Closes k) (h : Logged ts events) : Logged (t :: ts) (.closing k :: events)
  | other {t : Token} {ts : List Token} {events : List BlockEvent} (ht : t.NoBlockTag)
      (h : Logged ts events) : Logged (t :: ts) events

variable {t : Token}

theorem noBlockTag_of_tag? {tag : Option Tag} (h : t.tag? = tag)
    (ho : ∀ keyword expr, tag ≠ some (.opening keyword expr))
    (hc : ∀ name, tag ≠ some (.closing name)) : t.NoBlockTag := by
  refine ⟨fun keyword expr hopen => ho keyword expr ?_, fun name hclose => hc name ?_⟩
  · exact h.symm.trans (opensWith_iff.mp hopen)
  · exact h.symm.trans (closesWith_iff.mp hclose)

theorem noBlockTag_of_text (h : t.kind = .text) : t.NoBlockTag :=
  noBlockTag_of_tag? (tag?_eq_none.mpr h) nofun nofun

theorem IsValue.noBlockTag {f : Fence} (h : t.IsValue f) : t.NoBlockTag :=
  noBlockTag_of_tag? (isValue_iff.mp h).2 nofun nofun

theorem IsElse.noBlockTag (h : t.IsElse) : t.NoBlockTag :=
  noBlockTag_of_tag? (isElse_iff.mp h) nofun nofun

theorem Opens.blockEvent? {k : BlockKind} {expr : String} (h : t.Opens k expr) :
    t.blockEvent? = some (.opening k (Text.trim expr)) := by
  obtain ⟨⟨f, hk⟩, ht⟩ := tag?_eq_some.mp (opensWith_iff.mp h)
  simp [Token.blockEvent?, hk, ht, BlockKind.ofKeyword?_keyword]

theorem Closes.blockEvent? {k : BlockKind} (h : t.Closes k) :
    t.blockEvent? = some (.closing k) := by
  obtain ⟨⟨f, hk⟩, ht⟩ := tag?_eq_some.mp (closesWith_iff.mp h)
  simp [Token.blockEvent?, hk, ht, BlockKind.ofKeyword?_keyword]

theorem NoBlockTag.blockEvent? (h : t.NoBlockTag) : t.blockEvent? = none := by
  cases hk : t.kind with
  | text => simp [Token.blockEvent?, hk]
  | tag f =>
    have ht := tag?_eq_some.mpr ⟨⟨f, hk⟩, rfl⟩
    cases hbody : Tag.ofBody t.value with
    | opening keyword expr => exact absurd (opensWith_iff.mpr (hbody ▸ ht)) (h.notOpening _ _)
    | closing name => exact absurd (closesWith_iff.mpr (hbody ▸ ht)) (h.notClosing _)
    | otherwise | value => simp [Token.blockEvent?, hk, hbody]

namespace Logged

variable {ts us : List Token} {events later : List BlockEvent}

/-- The events of tokens are those that each of them has. -/
theorem eq_filterMap (h : Logged ts events) : events = ts.filterMap Token.blockEvent? := by
  induction h with
  | nil => rfl
  | opening ht h ih => rw [List.filterMap_cons_some ht.blockEvent?, ih]
  | closing ht h ih => rw [List.filterMap_cons_some ht.blockEvent?, ih]
  | other ht h ih => rw [List.filterMap_cons_none ht.blockEvent?, ih]

theorem append (h : Logged ts events) (h' : Logged us later) :
    Logged (ts ++ us) (events ++ later) := by
  induction h with
  | nil => exact h'
  | opening ht h ih => exact .opening ht ih
  | closing ht h ih => exact .closing ht ih
  | other ht h ih => exact .other ht ih

end Logged
end Token

mutual

/-- The tokens of a derivation leave the blocks of its tree in the log. -/
theorem Items.logged : ∀ d : Items, Token.Logged d.tokens (Node.blockEventsAll d.nodes)
  | .nil => .nil
  | .text _ ht rest => .other (Token.noBlockTag_of_text ht) rest.logged
  | .value t f ht rest => by
    rw [Items.nodes_value, Node.blockEventsAll, Node.blockEvents_ofFence, List.nil_append]
    exact .other ht.noBlockTag rest.logged
  | .block k tags body elses rest => by
    rw [Items.nodes_block, Node.blockEventsAll, Node.blockEvents_ofBlock _ _ Elses.takesElse]
    simp only [List.cons_append, List.append_assoc, List.nil_append]
    exact .opening tags.opens
      (body.logged.append (elses.logged.append (.closing tags.closes rest.logged)))

theorem Elses.logged {k : BlockKind} :
    ∀ e : Elses k, Token.Logged e.tokens (Node.blockEventsAll e.nodes)
  | .nil => .nil
  | .cons _ _ hm items rest => by
    rw [Elses.nodes, Node.blockEventsAll_append]
    exact .other hm.noBlockTag (items.logged.append rest.logged)

end

namespace Builder

variable {b after : Builder} {t : Token} {ts : List Token}

theorem length_blocks_push (b : Builder) (n : Node) :
    (b.push n).blocks.length = b.blocks.length := by
  obtain ⟨root, blocks⟩ := b
  cases blocks <;> rfl

/-- Opening tags open one block and closing tags close one. -/
theorem accept_blocks (h : b.accept t = .ok after) :
    (∃ k expr, t.Opens k expr ∧ after.blocks.length = b.blocks.length + 1) ∨
    (∃ k, t.Closes k ∧ b.blocks.length = after.blocks.length + 1) ∨
    (t.NoBlockTag ∧ after.blocks.length = b.blocks.length) := by
  rcases accept_cases h with ⟨ht, rfl⟩ | ⟨f, hv, rfl⟩ | ⟨k, expr, ho, rfl⟩ |
    ⟨block, outer, hblocks, hc, rfl⟩ | ⟨block, outer, hblocks, he, hk, rfl⟩
  · exact Or.inr (Or.inr ⟨Token.noBlockTag_of_text ht, length_blocks_push b _⟩)
  · exact Or.inr (Or.inr ⟨hv.noBlockTag, length_blocks_push b _⟩)
  · exact Or.inl ⟨k, expr, ho, rfl⟩
  · refine Or.inr (Or.inl ⟨block.kind, hc, ?_⟩)
    rw [length_blocks_push, hblocks]
    rfl
  · refine Or.inr (Or.inr ⟨he.noBlockTag, ?_⟩)
    rw [hblocks]
    rfl

theorem log_cons (h : b.accept t = .ok after) (ts : List Token) :
    (b.acceptAll (t :: ts)).1 = t.blockEvent?.toList ++ (after.acceptAll ts).1 := by
  rw [acceptAll, h]

theorem log_append (h : (b.acceptAll ts).2 = .ok after) (us : List Token) :
    (b.acceptAll (ts ++ us)).1 = (b.acceptAll ts).1 ++ (after.acceptAll us).1 := by
  induction ts generalizing b with
  | nil =>
    obtain rfl := Except.ok.inj h
    rfl
  | cons t ts ih =>
    obtain ⟨next, ht, h⟩ := acceptAll_cons_eq_ok h
    rw [List.cons_append, log_cons ht, log_cons ht, ih h, List.append_assoc]

/-- The token that is refused and those behind it leave nothing in the log. -/
theorem log_refused {error : CompileError} (h : (b.acceptAll ts).2 = .ok after)
    (ht : after.accept t = .error error) (later : List Token) :
    (b.acceptAll (ts ++ t :: later)).1 = (b.acceptAll ts).1 := by
  rw [log_append h, acceptAll, ht, List.append_nil]

theorem acceptAll_logged (h : (b.acceptAll ts).2 = .ok after) :
    Token.Logged ts (b.acceptAll ts).1 := by
  induction ts generalizing b with
  | nil => exact .nil
  | cons t ts ih =>
    obtain ⟨next, ht, h⟩ := acceptAll_cons_eq_ok h
    rw [log_cons ht]
    rcases accept_blocks ht with ⟨k, expr, ho, -⟩ | ⟨k, hc, -⟩ | ⟨hn, -⟩
    · rw [ho.blockEvent?]
      exact .opening ho (ih h)
    · rw [hc.blockEvent?]
      exact .closing hc (ih h)
    · rw [hn.blockEvent?]
      exact .other hn (ih h)

/-- Only blocks that are open are closed, be they opened in the run or before it. -/
theorem closings_le_openings {p : List BlockEvent} (hp : p <+: (b.acceptAll ts).1) :
    p.countP BlockEvent.isClosing ≤ p.countP BlockEvent.isOpening + b.blocks.length := by
  -- the blocks that are open before the run are what its first closings may be ahead
  induction ts generalizing b p with
  | nil =>
    obtain rfl := List.prefix_nil.mp hp
    exact Nat.zero_le _
  | cons t ts ih =>
    cases ht : b.accept t with
    | error e =>
      rw [acceptAll, ht] at hp
      obtain rfl := List.prefix_nil.mp hp
      exact Nat.zero_le _
    | ok next =>
      rw [log_cons ht] at hp
      rcases accept_blocks ht with ⟨k, expr, ho, hlength⟩ | ⟨k, hc, hlength⟩ | ⟨hn, hlength⟩
      · rw [ho.blockEvent?] at hp
        rcases List.prefix_cons_iff.mp hp with rfl | ⟨q, rfl, hq⟩
        · exact Nat.zero_le _
        · have hle := ih hq
          rw [List.countP_cons_of_neg BlockEvent.not_isClosing_opening,
            List.countP_cons_of_pos rfl]
          omega
      · rw [hc.blockEvent?] at hp
        rcases List.prefix_cons_iff.mp hp with rfl | ⟨q, rfl, hq⟩
        · exact Nat.zero_le _
        · have hle := ih hq
          rw [List.countP_cons_of_pos rfl, List.countP_cons_of_neg BlockEvent.not_isOpening_closing]
          omega
      · rw [hn.blockEvent?] at hp
        have hle := ih hp
        omega

variable {later : List Token × Option CompileError} {error : CompileError} {ns : List Node}

theorem complete_eq_ok (h : b.complete later = .ok ns) :
    (b.acceptAll later.1).2 = .ok ⟨ns, []⟩ := by
  unfold complete at h
  cases hb : (b.acceptAll later.1).2 with
  | error e =>
    rw [hb] at h
    cases h
  | ok after =>
    rw [hb] at h
    obtain ⟨root, blocks⟩ := after
    obtain ⟨tokens, fault⟩ := later
    cases fault with
    | some e => cases h
    | none =>
      cases blocks with
      | cons block outer => cases h
      | nil =>
        obtain rfl := Except.ok.inj h
        rfl

/-- A template fails at a token that is refused, at a fault behind its tokens, or at its end. -/
theorem complete_eq_error (h : b.complete later = .error error) :
    (b.acceptAll later.1).2 = .error error ∨
      (∃ after, (b.acceptAll later.1).2 = .ok after) ∧
        (later.2 = some error ∨ later.2 = none ∧ ∃ k, error.fault = .unclosedBlock k) := by
  unfold complete at h
  cases hb : (b.acceptAll later.1).2 with
  | error e =>
    rw [hb] at h
    obtain rfl := Except.error.inj h
    exact Or.inl rfl
  | ok after =>
    rw [hb] at h
    refine Or.inr ⟨⟨after, rfl⟩, ?_⟩
    obtain ⟨tokens, fault⟩ := later
    cases fault with
    | some e => exact Or.inl (congrArg some (Except.error.inj h))
    | none => exact Or.inr ⟨rfl, fault_of_close h⟩

end Builder
structure Event.ShownAs (e : Event) (level : Level) (fields : List (String × String)) : Prop where
  level : e.level = level
  fields : e.fields = fields

/-- The tokens that are accepted before a template fails: all of them where a block is left open,
and else those that stand before what is wrong. -/
inductive AcceptedBefore (s : String) (error : CompileError) : List Token → Prop
  | all {k : BlockKind} (hk : error.fault = .unclosedBlock k) (hread : (tokenize s).2 = none) :
      AcceptedBefore s error (tokenize s).1
  | before (hk : ∀ k, error.fault ≠ .unclosedBlock k) :
      AcceptedBefore s error
        ((tokenize s).1.filter fun t => t.span.offset < error.span.offset)

/-- Where a template fails, and that nothing is logged from there on. -/
theorem exists_acceptedBefore {s : String} {error : CompileError}
    (h : Builder.start.complete (tokenize s) = .error error) :
    ∃ ts b, AcceptedBefore s error ts ∧ (Builder.start.acceptAll ts).2 = .ok b ∧
      (Builder.start.acceptAll (tokenize s).1).1 = (Builder.start.acceptAll ts).1 := by
  have hread : ReadsFrom 0 (tokenize s) := readsFrom_tokensFrom 0 s.toList
  rcases Builder.complete_eq_error h with hrefused | ⟨⟨b, hb⟩, hfault | ⟨hnone, k, hk⟩⟩
  · -- the refused token has the span of the error, and the others behind it begin later
    obtain ⟨before, t, later, b, hsplit, hb, ht⟩ := Builder.exists_refused hrefused
    obtain ⟨hspan, hrefuses⟩ := Builder.refuses_of_accept ht
    have hkind : ∀ k, error.fault ≠ .unclosedBlock k := by
      intro k hk
      rw [hk] at hrefuses
      cases hrefuses
    have hplaced := hread.placed
    have hlexical := hread.lexical
    rw [hsplit] at hplaced hlexical
    have hbefore : (tokenize s).1.filter (fun t => t.span.offset < error.span.offset) =
        before := by
      rw [hsplit, hspan, hplaced.span_of_append_cons]
      refine hplaced.filter_before
        (fun u hu => hlexical.source_ne_nil u (List.mem_append_left _ hu)) (Nat.le_refl _) ?_
      exact fun u hu => (placed_append.mp hplaced).2.offset_le hu
    refine ⟨before, b, ?_, hb, ?_⟩
    · rw [← hbefore]
      exact .before hkind
    · rw [hsplit, Builder.log_refused hb ht]
  · -- all tokens stand before a fault that cuts them short
    obtain ⟨hle, hkind⟩ := hread.fault error hfault
    have hplaced := hread.placed
    rw [← List.append_nil (tokenize s).1] at hplaced
    have hbefore := hplaced.filter_before hread.lexical.source_ne_nil hle (by simp)
    rw [List.append_nil] at hbefore
    refine ⟨(tokenize s).1, b, ?_, hb, rfl⟩
    have haccepted := AcceptedBefore.before (s := s) hkind
    rwa [hbefore] at haccepted
  · exact ⟨(tokenize s).1, b, .all hk hnone, hb, rfl⟩

namespace Template

variable {s : String} {o : Options} {t : Template} {error : CompileError}

theorem ofScanner_log (s : String) :
    (Node.ofScanner (Scanner.start s)).1 = (Builder.start.acceptAll (tokenize s).1).1 := by
  unfold Node.ofScanner Node.ofTokens tokenize
  generalize (Scanner.start s).drain = drained
  obtain ⟨tokens, fault⟩ := drained
  cases hb : (Builder.start.acceptAll tokens).2 with
  | error e => simp [hb]
  | ok b => cases fault <;> simp [hb]

/-- A template that compiles logs its start and its block tags, and nothing at its end. -/
theorem log_of_compile_ok (h : compile s o = .ok t) :
    (compileLogged s o).1 =
      .compiling o :: (Builder.start.acceptAll (tokenize s).1).1.map .block := by
  rw [← ofScanner_log]
  unfold compile compileLogged at h
  unfold compileLogged
  cases hr : (Node.ofScanner (Scanner.start s)).2 with
  | error e => simp [hr] at h
  | ok root => simp [hr]

/-- A template that fails logs its start, the block tags before the fault, and the fault. -/
theorem log_of_compile_error (h : compile s o = .error error) :
    (compileLogged s o).1 =
      .compiling o ::
        ((Builder.start.acceptAll (tokenize s).1).1.map .block ++ [.failed error]) := by
  rw [← ofScanner_log]
  unfold compile compileLogged at h
  unfold compileLogged
  cases hr : (Node.ofScanner (Scanner.start s)).2 with
  | error e =>
    obtain rfl : e = error := by simpa [hr] using h
    simp [hr]
  | ok root => simp [hr] at h

end Template

/-- A template that compiles leaves the blocks of its tree in the log, and one that fails leaves
the block tags before that and then its fault. -/
theorem compile_log (s : String) (o : Options) :
    (∀ t, Template.compile s o = .ok t →
      BlockEvent.Nested t.root.blockEvents ∧
      (Template.compileLogged s o).1 = .compiling o :: t.root.blockEvents.map .block) ∧
    (∀ error, Template.compile s o = .error error → ∃ ts b events,
      AcceptedBefore s error ts ∧ (Builder.start.acceptAll ts).2 = .ok b ∧
      Token.Logged ts events ∧
      (∀ p, p <+: events →
        p.countP BlockEvent.isClosing ≤ p.countP BlockEvent.isOpening) ∧
      (Template.compileLogged s o).1 =
        .compiling o :: (events.map .block ++ [.failed error])) ∧
    (Event.compiling o).ShownAs .debug
      [("message", "compiling template"), ("options", o.summary)] ∧
    (∀ k path, (Event.block (.opening k path)).ShownAs .trace
      [("message", "opening block"), ("block", k.keyword), ("path", path)]) ∧
    (∀ k, (Event.block (.closing k)).ShownAs .trace
      [("message", "closing block"), ("block", k.keyword)]) ∧
    ∀ error, (Event.failed error).ShownAs .debug
      [("message", "template failed to compile"), ("error", error.fault.message)] := by
  refine ⟨fun t h => ⟨t.root.nested_blockEvents, ?_⟩, fun error h => ?_, ⟨rfl, rfl⟩,
    fun _ _ => ⟨rfl, rfl⟩, fun _ => ⟨rfl, rfl⟩, fun _ => ⟨rfl, rfl⟩⟩
  · rw [Template.log_of_compile_ok h]
    obtain ⟨ns, hns, rfl⟩ := Template.compile_eq_ok_iff.mp h
    have hbuilt := Builder.complete_eq_ok hns
    obtain ⟨d, htokens, rfl⟩ := acceptAll_start_iff.mp hbuilt
    -- what the tokens log is determined by them, and they are those of the derivation
    have hlogged := Builder.acceptAll_logged hbuilt
    have htree := d.logged
    rw [htokens] at htree
    rw [tokenize_eq_tokensFrom, hlogged.eq_filterMap, ← htree.eq_filterMap]
    rfl
  · have hfails := Template.compile_eq_error_iff.mp h
    obtain ⟨ts, b, haccepted, hb, hlog⟩ := exists_acceptedBefore hfails
    refine ⟨ts, b, _, haccepted, hb, Builder.acceptAll_logged hb, ?_, ?_⟩
    · exact fun p hp => Builder.closings_le_openings hp
    · rw [Template.log_of_compile_error h, hlog]

/-- Blocks inside blocks, and a closing tag of another block than the innermost. -/
theorem compile_log_nested :
    let good := doubleTag "#if  a " ++ doubleTag "#each b" ++ "{{/each}}{{/if}}"
    let root : Node := .container [.ifBlock (Path.parse "a")
      (.container [.eachBlock (Path.parse "b") (.container [])]) (.container [])]
    let bad := doubleTag "#if a" ++ "{{/each}}{{/if}}"
    let error : CompileError := ⟨.unmatchedCloseTag .ifBlock "each", ⟨9, 9⟩⟩
    (Template.compile good .default = .ok ⟨root, .default⟩ ∧
      BlockEvent.Nested root.blockEvents ∧
      (Template.compileLogged good .default).1 =
        .compiling .default :: root.blockEvents.map .block) ∧
    Template.compile bad .default = .error error ∧ ∃ ts b events,
      AcceptedBefore bad error ts ∧ (Builder.start.acceptAll ts).2 = .ok b ∧
      Token.Logged ts events ∧
      (∀ p, p <+: events →
        p.countP BlockEvent.isClosing ≤ p.countP BlockEvent.isOpening) ∧
      (Template.compileLogged bad .default).1 =
        .compiling .default :: (events.map .block ++ [.failed error]) := by
  intro good root bad error
  have hgood : Template.compile good .default = .ok ⟨root, .default⟩ := by decide +kernel
  have hbad : Template.compile bad .default = .error error := by decide +kernel
  exact ⟨⟨hgood, (compile_log good .default).1 _ hgood⟩, hbad,
    (compile_log bad .default).2.1 _ hbad⟩

end BraceTemplate
