import BraceTemplate.Proofs.Spelling

namespace BraceTemplate

theorem PlainToEnd.plain {cs : List Char} (h : PlainToEnd cs) (hlast : cs.getLast? ≠ some '{') :
    Plain cs := by
  obtain ⟨u, k, -, hu, rfl⟩ := h
  cases k with
  | zero => simpa using hu
  | succ k =>
    exfalso
    apply hlast
    rw [List.replicate_succ', ← List.append_assoc, List.getLast?_concat]

theorem plain_append {u v : List Char} (hu : Plain u) (hv : Plain v) : Plain (u ++ v) := by
  induction u with
  | nil => exact hv
  | cons c u ih =>
    obtain ⟨hu, hc⟩ := plain_cons.mp hu
    refine plain_cons.mpr ⟨ih hu, fun hb => ?_⟩
    obtain ⟨hne, hhead⟩ := hc hb
    have hfirst : (u ++ v).head? = u.head? := List.head?_append_of_ne_nil u hne
    rw [← hfirst] at hhead
    exact ⟨List.append_ne_nil_of_left_ne_nil hne v, hhead⟩

theorem Plain.append_toEnd {u v : List Char} (hu : Plain u) (hv : PlainToEnd v) :
    PlainToEnd (u ++ v) := by
  obtain ⟨w, k, hk, hw, rfl⟩ := hv
  exact ⟨u ++ w, k, hk, plain_append hu hw, by rw [List.append_assoc]⟩

theorem Text.size_pos {cs : List Char} (h : cs ≠ []) : 0 < Text.size cs := by
  obtain ⟨c, cs, rfl⟩ := List.exists_cons_of_ne_nil h
  have hc := Char.utf8Size_pos c
  rw [Text.size]
  omega

theorem placed_append {offset : Nat} {ts us : List Token} :
    Placed offset (ts ++ us) ↔
      Placed offset ts ∧ Placed (offset + Text.size (ts.flatMap Token.source)) us := by
  induction ts generalizing offset with
  | nil => simp [Placed, Text.size]
  | cons t ts ih =>
    rw [List.cons_append, Placed, Placed, ih, List.flatMap_cons, Text.size_append, and_assoc,
      Nat.add_assoc]

theorem Token.flatMap_source_ofText (offset : Nat) (u : List Char) :
    (ofText offset u).flatMap source = u := by
  by_cases hu : u = []
  · simp [ofText, hu]
  · simp [ofText, hu, source]

theorem Token.kind_of_mem_ofText {offset : Nat} {u : List Char} {t : Token}
    (h : t ∈ ofText offset u) : t.kind = .text := by
  unfold ofText at h
  split at h
  · simp at h
  · obtain rfl := List.mem_singleton.mp h
    rfl

theorem Token.inside_ofText {offset : Nat} {u : List Char} (hu : Plain u) :
    Inside (ofText offset u) := by
  by_cases he : u = []
  · simpa [ofText, he] using inside_nil
  · rw [ofText, if_neg he]
    exact inside_singleton.mpr ⟨fun _ => ⟨by simpa using he, by simpa using hu⟩, by simp⟩

theorem Token.placed_ofText (offset : Nat) (u : List Char) : Placed offset (ofText offset u) := by
  by_cases hu : u = []
  · simp [ofText, hu, Placed]
  · simp [ofText, hu, Placed, source]

/-- Literal text before a tag is a token of its own. -/
theorem tokensFrom_plain_tag {u body : List Char} {f : Fence} (hu : Plain u)
    (hb : FitsFence f body) (offset : Nat) (rest : List Char) :
    let later := tokensFrom (offset + Text.size u) ((Piece.tag f body).source ++ rest)
    tokensFrom offset (u ++ ((Piece.tag f body).source ++ rest)) =
      (Token.ofText offset u ++ later.1, later.2) := by
  have htag := tokensFrom_tag plain_nil hb (offset + Text.size u) rest
  rw [List.nil_append] at htag
  rw [htag]
  exact tokensFrom_tag hu hb offset rest

/-- Tokens in front of a template. The last of them is a tag, and so what stands behind them is
read as if it stood alone. -/
structure Front (offset : Nat) (ts : List Token) : Prop where
  inside : Inside ts
  placed : Placed offset ts
  endsInTag : ∀ t ∈ ts.getLast?, t.kind ≠ .text

namespace Front

variable {offset : Nat} {ts us : List Token}

theorem nil (offset : Nat) : Front offset [] := ⟨inside_nil, trivial, by simp⟩

/-- Text and the tag behind it, in front of all others. -/
theorem tag_cons {u body : List Char} {f : Fence} (hu : Plain u) (hb : FitsFence f body)
    (h : Front (offset + Text.size u + Text.size (Piece.tag f body).source) ts) :
    Front offset (Token.ofText offset u ++ Token.ofTag (offset + Text.size u) f body :: ts) := by
  refine ⟨inside_append.mpr ⟨Token.inside_ofText hu, ?_, .of_head ?_ _⟩, ?_, ?_⟩
  · exact inside_cons.mpr ⟨Token.inside_ofTag hb, h.inside, .of_tag rfl _⟩
  · simp [Token.ofTag]
  · refine placed_append.mpr ⟨Token.placed_ofText offset u, ?_⟩
    rw [Token.flatMap_source_ofText, Placed, source_ofTag]
    exact ⟨rfl, h.placed⟩
  · rw [List.getLast?_append_of_ne_nil _ (by simp)]
    cases ts with
    | nil => simp [Token.ofTag]
    | cons t ts =>
      rw [List.getLast?_cons_cons]
      exact h.endsInTag

theorem of_append (h : Front offset (ts ++ us)) :
    Front (offset + Text.size (ts.flatMap Token.source)) us := by
  refine ⟨(inside_append.mp h.inside).2.1, (placed_append.mp h.placed).2, ?_⟩
  intro t ht
  exact h.endsInTag t (List.mem_getLast?_append_of_mem_getLast? ht)

theorem spells (h : Front offset ts) : Spells offset (ts.flatMap Token.source) ts :=
  ⟨h.inside.lexical, rfl, h.placed⟩

/-- Behind a tag a template is read as from its start. -/
theorem tokensFrom_append (h : Front offset ts) (cs : List Char) :
    let later := tokensFrom (offset + Text.size (ts.flatMap Token.source)) cs
    tokensFrom offset (ts.flatMap Token.source ++ cs) = (ts ++ later.1, later.2) := by
  induction hn : ts.length using Nat.strong_induction_on generalizing offset ts with
  | _ n ih =>
    rcases h.spells.first with ⟨-, hts⟩ | ⟨u, f, body, rest, later, hu, hb, hcs, rfl, hlater⟩
    · -- text alone is no front
      have hnil : ts = [] := by
        cases hlast : ts.getLast? with
        | none => exact List.getLast?_eq_none_iff.mp hlast
        | some t =>
          have hmem := List.mem_of_getLast? hlast
          rw [hts] at hmem
          exact absurd (Token.kind_of_mem_ofText hmem) (h.endsInTag t hlast)
      subst hnil
      simp [Text.size]
    · have hback := h
      rw [← List.singleton_append, ← List.append_assoc] at hback
      have hfront := hback.of_append
      rw [List.flatMap_append, Token.flatMap_source_ofText, List.flatMap_singleton, source_ofTag,
        Text.size_append, ← Nat.add_assoc] at hfront
      have hlt : later.length < n := by
        rw [← hn, List.length_append, List.length_cons]
        omega
      have hrest := ih later.length hlt hfront rfl
      rw [← hlater.source] at hrest
      have hread := tokensFrom_tag hu hb offset (rest ++ cs)
      simp only [Token.ofTag] at hread
      rw [hrest] at hread
      rw [hcs, List.append_assoc, List.append_assoc, hread]
      simp [Text.size_append, Token.ofTag, Nat.add_assoc]

theorem placed_append_text (h : Front offset ts) (u : List Char) :
    Placed offset (ts ++ Token.ofText (offset + Text.size (ts.flatMap Token.source)) u) :=
  placed_append.mpr ⟨h.placed, Token.placed_ofText _ u⟩

/-- A tag that ends a template is its last token. -/
theorem tokensFrom_last_tag (h : Front offset ts) {u body : List Char} {f : Fence} (hu : Plain u)
    (hb : FitsFence f body) :
    let place := offset + Text.size (ts.flatMap Token.source)
    tokensFrom offset (ts.flatMap Token.source ++ (u ++ (Piece.tag f body).source)) =
      (ts ++ Token.ofText place u ++ [Token.ofTag (place + Text.size u) f body], none) := by
  intro place
  have htag := tokensFrom_tag hu hb place []
  dsimp only at htag
  rw [List.append_nil, tokensFrom_end plain_nil.toEnd] at htag
  rw [h.tokensFrom_append, htag]
  simp [Token.ofText]

end Front

/-- What stands behind the last tag that can be read: literal text to the end of the template, or
text and a fault. -/
inductive Tail : Nat → List Char → Prop
  | literal {offset : Nat} {cs : List Char} (h : PlainToEnd cs) : Tail offset cs
  | fault {offset : Nat} {u rest : List Char} {p : Piece} {error : CompileError} (hu : Plain u)
      (hl : p.Leads rest) (he : p.fault? (offset + Text.size u) = some error) :
      Tail offset (u ++ (p.source ++ rest))

/-- Every template is a front of tokens and a tail. -/
theorem exists_front (offset : Nat) (cs : List Char) :
    ∃ ts tail, Front offset ts ∧ cs = ts.flatMap Token.source ++ tail ∧
      Tail (offset + Text.size (ts.flatMap Token.source)) tail := by
  induction hn : cs.length using Nat.strong_induction_on generalizing offset cs with
  | _ n ih =>
    rcases tokensFrom_cases offset cs with ⟨hp, -⟩ | ⟨u, f, body, rest, hu, hb, rfl⟩ |
      ⟨u, p, rest, error, hu, hl, rfl, he, -⟩
    · exact ⟨[], cs, .nil offset, rfl, .literal hp⟩
    · have hlt : rest.length < n := by
        have hs := List.length_pos_iff.mpr (Piece.source_tag_ne_nil f body)
        simp only [List.length_append] at hn
        omega
      obtain ⟨ts, tail, hfront, rfl, htail⟩ := ih rest.length hlt
        (offset + Text.size u + Text.size (Piece.tag f body).source) rest rfl
      refine ⟨_, tail, .tag_cons hu hb hfront, ?_, ?_⟩
      · rw [List.flatMap_append, Token.flatMap_source_ofText, List.flatMap_cons, source_ofTag]
        simp only [List.append_assoc]
      · rw [List.flatMap_append, Token.flatMap_source_ofText, List.flatMap_cons, source_ofTag]
        simpa only [Text.size_append, Nat.add_assoc] using htail
    · exact ⟨[], _, .nil offset, rfl, .fault hu hl he⟩

theorem Lexical.source_ne_nil {ts : List Token} (h : Lexical ts) : ∀ t ∈ ts, t.source ≠ [] := by
  intro t ht
  cases hk : t.kind with
  | text => simpa [Token.source, hk] using h.textNotEmpty t ht hk
  | tag f => simp [Token.source, hk, f.opening_ne_nil]

namespace Placed

variable {offset n : Nat} {ts us : List Token} {t : Token}

/-- The text before a token tells its span. -/
theorem span_of_append_cons (h : Placed offset (ts ++ t :: us)) :
    t.span = ⟨offset + Text.size (ts.flatMap Token.source), Text.size t.source⟩ :=
  (placed_append.mp h).2.1

theorem offset_le (h : Placed offset ts) (ht : t ∈ ts) : offset ≤ t.span.offset := by
  obtain ⟨before, later, rfl⟩ := List.append_of_mem ht
  rw [h.span_of_append_cons]
  exact Nat.le_add_right _ _

theorem offset_lt (h : Placed offset ts) (ht : t ∈ ts) (hne : t.source ≠ []) :
    t.span.offset < offset + Text.size (ts.flatMap Token.source) := by
  obtain ⟨before, later, rfl⟩ := List.append_of_mem ht
  have hpos := Text.size_pos hne
  rw [h.span_of_append_cons, List.flatMap_append, List.flatMap_cons, Text.size_append,
    Text.size_append]
  dsimp only
  omega

/-- The tokens before a place are those that begin before it. -/
theorem filter_before (h : Placed offset (ts ++ us)) (hne : ∀ t ∈ ts, t.source ≠ [])
    (hts : offset + Text.size (ts.flatMap Token.source) ≤ n) (hus : ∀ t ∈ us, n ≤ t.span.offset) :
    (ts ++ us).filter (fun t => t.span.offset < n) = ts := by
  have hkeep : ts.filter (fun t => t.span.offset < n) = ts := by
    refine List.filter_eq_self.mpr fun t ht => decide_eq_true ?_
    exact Nat.lt_of_lt_of_le ((placed_append.mp h).1.offset_lt ht (hne t ht)) hts
  have hdrop : us.filter (fun t => t.span.offset < n) = [] := by
    refine List.filter_eq_nil_iff.mpr fun t ht hlt => ?_
    exact Nat.not_lt_of_le (hus t ht) (of_decide_eq_true hlt)
  rw [List.filter_append, hkeep, hdrop, List.append_nil]

end Placed

/-- What a piece shows stands in it, and is no block that is left open. -/
theorem Piece.fault?_eq_some {p : Piece} {offset : Nat} {error : CompileError}
    (h : p.fault? offset = some error) :
    offset ≤ error.span.offset ∧ ∀ k, error.fault ≠ .unclosedBlock k := by
  cases p with
  | literal | tag => cases h
  | emptyTag | unclosedTag =>
    obtain rfl := Option.some.inj h
    exact ⟨Nat.le_refl _, nofun⟩
  | braces =>
    obtain rfl := Option.some.inj h
    exact ⟨Nat.le_add_right _ _, nofun⟩

/-- What is read of a stretch of template: tokens one behind the other, and behind all of them
what is wrong. -/
structure ReadsFrom (offset : Nat) (cut : List Token × Option CompileError) : Prop where
  lexical : Lexical cut.1
  placed : Placed offset cut.1
  fault : ∀ error, cut.2 = some error →
    offset + Text.size (cut.1.flatMap Token.source) ≤ error.span.offset ∧
      ∀ k, error.fault ≠ .unclosedBlock k

/-- Any stretch of template is read as tokens one behind the other, and a fault behind them. -/
theorem readsFrom_tokensFrom (offset : Nat) (cs : List Char) :
    ReadsFrom offset (tokensFrom offset cs) := by
  obtain ⟨ts, tail, hfront, rfl, htail⟩ := exists_front offset cs
  have hread := hfront.tokensFrom_append tail
  cases htail with
  | literal hp =>
    dsimp only at hread
    rw [tokensFrom_end hp] at hread
    have hspells := spells_of_tokensFrom hread
    rw [hread]
    exact ⟨hspells.toLexical, hspells.placed, nofun⟩
  | fault hu hl he =>
    dsimp only at hread
    rw [tokensFrom_fault hu hl he, List.append_nil] at hread
    rw [hread]
    refine ⟨hfront.inside.lexical, hfront.placed, fun error herror => ?_⟩
    obtain rfl := Option.some.inj herror
    obtain ⟨hle, hk⟩ := Piece.fault?_eq_some he
    exact ⟨Nat.le_trans (Nat.le_add_right _ _) hle, hk⟩

end BraceTemplate
