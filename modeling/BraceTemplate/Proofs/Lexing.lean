import BraceTemplate.Proofs.Pieces
import BraceTemplate.Token.Scanner

namespace BraceTemplate

namespace Piece

def isLiteral : Piece → Bool
  | literal _ => true
  | tag _ _ | emptyTag _ | unclosedTag _ _ | braces => false

theorem literal_leads_plain {cs rest : List Char} (h : (literal cs).Leads rest)
    (hr : PlainToEnd rest) : PlainToEnd (cs ++ rest) := by
  rcases h with ⟨c, rfl, hc⟩ | ⟨f, rfl, rfl⟩
  · obtain ⟨u, k, hk, hu, rfl⟩ := hr
    by_cases hs : c = '{' ∧ u = []
    · obtain ⟨rfl, rfl⟩ := hs
      have hk : k = 0 := by
        cases k with
        | zero => rfl
        | succ k => exact absurd rfl (hc rfl)
      subst hk
      exact ⟨[], 1, by omega, plain_nil, rfl⟩
    · refine ⟨c :: u, k, hk, plain_cons.mpr ⟨hu, ?_⟩, rfl⟩
      intro hb
      have hu : u ≠ [] := fun he => hs ⟨hb, he⟩
      rw [List.head?_append_of_ne_nil _ hu] at hc
      exact ⟨hu, hc hb⟩
  · cases f
    · exact ⟨[], 2, by omega, plain_nil, rfl⟩
    · exact ⟨[], 3, by omega, plain_nil, rfl⟩

theorem head_source {p : Piece} (hp : p.isLiteral = false) (rest : List Char) :
    (p.source ++ rest).head? = some '{' := by
  cases p with
  | literal cs => cases hp
  | tag f _ | emptyTag f | unclosedTag f _ => cases f <;> rfl
  | braces => rfl

/-- How a template begins: it is literal text to its end, or literal text stands before a tag or
a fault. -/
theorem exists_first (cs : List Char) :
    PlainToEnd cs ∨ ∃ (u : List Char) (p : Piece) (rest : List Char), Plain u ∧
      p.isLiteral = false ∧ p.Leads rest ∧
      cs = u ++ (p.source ++ rest) := by
  fun_induction ofChars cs with
  | case1 cs h =>
    rw [read_eq_none h]
    exact Or.inl plain_nil.toEnd
  | case2 cs p rest h ih =>
    obtain ⟨rfl, hl⟩ := read_eq_some_iff.mp h
    cases hp : p.isLiteral with
    | false => exact Or.inr ⟨[], p, rest, plain_nil, hp, hl, rfl⟩
    | true =>
      cases p with
      | literal cs =>
        rcases ih with ih | ⟨u, q, rest, hu, hq, hql, rfl⟩
        · exact Or.inl (literal_leads_plain hl ih)
        · right
          rcases hl with ⟨c, rfl, hc⟩ | ⟨f, rfl, he⟩
          · refine ⟨c :: u, q, rest, plain_cons.mpr ⟨hu, ?_⟩, hq, hql, rfl⟩
            intro hb
            have hne : u ≠ [] := by
              intro he
              subst he
              exact hc hb (head_source hq rest)
            rw [List.head?_append_of_ne_nil _ hne] at hc
            exact ⟨hne, hc hb⟩
          · have hh := head_source hq rest
            simp only [List.append_eq_nil_iff] at he
            simp [he] at hh
      | tag | emptyTag | unclosedTag | braces => cases hp

theorem ofChars_source_append {p : Piece} {rest : List Char} (h : p.Leads rest) :
    ofChars (p.source ++ rest) = p :: ofChars rest :=
  ofChars_of_read (read_eq_some_iff.mpr ⟨rfl, h⟩)

/-- Plain text is taken character by character. -/
theorem ofChars_plain_append {u : List Char} (hu : Plain u) (cs : List Char) :
    ofChars (u ++ cs) = u.map (fun c => literal [c]) ++ ofChars cs := by
  induction u with
  | nil => rfl
  | cons c u ih =>
    obtain ⟨hu, hc⟩ := plain_cons.mp hu
    have hl : (literal [c]).Leads (u ++ cs) := by
      refine Or.inl ⟨c, rfl, fun hb => ?_⟩
      rw [List.head?_append_of_ne_nil _ (hc hb).1]
      exact (hc hb).2
    have ho := ofChars_source_append hl
    simp only [source, List.cons_append, List.nil_append] at ho
    simp [ho, ih hu]

/-- The braces that end a template are one piece. -/
theorem ofChars_braces {k : Nat} (h0 : k ≠ 0) (hk : k ≤ 3) :
    ofChars (List.replicate k '{') = [literal (List.replicate k '{')] := by
  have hl : (literal (List.replicate k '{')).Leads [] := by
    obtain rfl | rfl | rfl : k = 1 ∨ k = 2 ∨ k = 3 := by omega
    · exact Or.inl ⟨'{', rfl, by simp⟩
    · exact Or.inr ⟨.double, rfl, rfl⟩
    · exact Or.inr ⟨.triple, rfl, rfl⟩
  have ho := ofChars_source_append hl
  rwa [source, List.append_nil, ofChars_nil] at ho

def fault? (offset : Nat) : Piece → Option CompileError
  | literal _ | tag _ _ => none
  | emptyTag f => some ⟨.emptyExpression, ⟨offset, Text.size (emptyTag f).source⟩⟩
  | unclosedTag f body =>
    some ⟨.unclosedExpression, ⟨offset, Text.size (unclosedTag f body).source⟩⟩
  | braces => some ⟨.tooManyBraces, ⟨offset + 3, 1⟩⟩

end Piece

def Token.ofText (offset : Nat) (cs : List Char) : List Token :=
  if cs = [] then [] else [⟨.text, String.ofList cs, ⟨offset, Text.size cs⟩⟩]

def Token.ofTag (offset : Nat) (f : Fence) (body : List Char) : Token :=
  ⟨.tag f, String.ofList body, ⟨offset, Text.size (Piece.tag f body).source⟩⟩

namespace Scanner

/-- A scanner that has read literal text since `offset`. -/
def behind (offset : Nat) (cs : List Char) (pieces : List Piece) : Scanner :=
  ⟨pieces, offset + Text.size cs,
    if cs = [] then none else some ⟨offset, String.ofList cs⟩, none⟩

theorem drain_behind_literal {offset : Nat} {cs ds : List Char} (hd : ds ≠ [])
    (ps : List Piece) :
    (behind offset cs (.literal ds :: ps)).drain = (behind offset (cs ++ ds) ps).drain := by
  have hs : (behind offset cs (.literal ds :: ps)).next = (behind offset (cs ++ ds) ps).next := by
    by_cases hc : cs = []
    · subst hc
      simp [behind, next, scan, Held.add, hd, Text.size]
    · simp [behind, next, scan, Held.add, hd, hc, Nat.add_assoc]
  rw [drain, drain, hs]

theorem drain_behind_plain (offset : Nat) (cs us : List Char) (ps : List Piece) :
    (behind offset cs (us.map (fun c => .literal [c]) ++ ps)).drain =
      (behind offset (cs ++ us) ps).drain := by
  induction us generalizing cs with
  | nil => simp
  | cons u us ih =>
    rw [List.map_cons, List.cons_append, drain_behind_literal (by simp), ih]
    simp

theorem drain_behind_end (offset : Nat) (cs : List Char) :
    (behind offset cs []).drain = (Token.ofText offset cs, none) := by
  by_cases hc : cs = []
  · subst hc
    exact drain_of_end rfl
  · have hnext : (behind offset cs []).next =
        (.ok (some ⟨.text, String.ofList cs, ⟨offset, Text.size cs⟩⟩),
          ⟨[], offset + Text.size cs, none, none⟩) := by
      simp [behind, next, scan, Held.token, Text.size_ofList, hc]
    rw [drain_of_token hnext, drain_of_end rfl]
    simp [Token.ofText, hc]

theorem drain_behind_tag (offset : Nat) (cs : List Char) (f : Fence) (body : List Char)
    (ps : List Piece) :
    let tag := Token.ofTag (offset + Text.size cs) f body
    let later := (behind (offset + Text.size cs + tag.span.length) [] ps).drain
    (behind offset cs (.tag f body :: ps)).drain =
      (Token.ofText offset cs ++ tag :: later.1, later.2) := by
  intro tag later
  by_cases hc : cs = []
  · subst hc
    have hnext : (behind offset [] (.tag f body :: ps)).next =
        (.ok (some tag), behind (offset + Text.size [] + tag.span.length) [] ps) := by
      simp [behind, next, scan, emit, tag, Token.ofTag, Text.size]
    rw [drain_of_token hnext]
    simp [Token.ofText, later]
  · -- the tag waits behind the text, so two answers are read
    have hnext : (behind offset cs (.tag f body :: ps)).next =
        (.ok (some ⟨.text, String.ofList cs, ⟨offset, Text.size cs⟩⟩),
          ⟨ps, offset + Text.size cs + tag.span.length, none, some tag⟩) := by
      simp [behind, next, scan, emit, tag, Token.ofTag, Held.token, Text.size_ofList, hc]
    have hwaiting : (next ⟨ps, offset + Text.size cs + tag.span.length, none, some tag⟩) =
        (.ok (some tag), behind (offset + Text.size cs + tag.span.length) [] ps) := by
      simp [behind, next, Text.size]
    rw [drain_of_token hnext, drain_of_token hwaiting]
    simp [Token.ofText, hc, later]

/-- The text held before a fault is not handed out. -/
theorem drain_behind_fault {offset : Nat} {cs : List Char} {p : Piece} {error : CompileError}
    (h : p.fault? (offset + Text.size cs) = some error) (ps : List Piece) :
    (behind offset cs (p :: ps)).drain = ([], some error) := by
  cases p with
  | literal | tag => cases h
  | emptyTag | unclosedTag | braces =>
    obtain rfl := Option.some.inj h
    exact drain_of_fault rfl

end Scanner

/-- The tokens of a stretch of template that begins at an offset. -/
def tokensFrom (offset : Nat) (cs : List Char) : List Token × Option CompileError :=
  (Scanner.behind offset [] (Piece.ofChars cs)).drain

theorem tokenize_eq_tokensFrom (s : String) : tokenize s = tokensFrom 0 s.toList := rfl

theorem tokensFrom_end {cs : List Char} (h : PlainToEnd cs) (offset : Nat) :
    tokensFrom offset cs = (Token.ofText offset cs, none) := by
  obtain ⟨u, k, hk, hu, rfl⟩ := h
  rw [tokensFrom, Piece.ofChars_plain_append hu, Scanner.drain_behind_plain, List.nil_append]
  by_cases h0 : k = 0
  · subst h0
    rw [List.replicate_zero, Piece.ofChars_nil, Scanner.drain_behind_end, List.append_nil]
  · rw [Piece.ofChars_braces h0 hk, Scanner.drain_behind_literal (by simpa using h0),
      Scanner.drain_behind_end]

theorem tokensFrom_tag {u body : List Char} {f : Fence} (hu : Plain u) (hb : FitsFence f body)
    (offset : Nat) (rest : List Char) :
    let tag := Token.ofTag (offset + Text.size u) f body
    let later := tokensFrom (offset + Text.size u + tag.span.length) rest
    tokensFrom offset (u ++ ((Piece.tag f body).source ++ rest)) =
      (Token.ofText offset u ++ tag :: later.1, later.2) := by
  have hl : (Piece.tag f body).Leads rest := hb
  intro tag later
  rw [tokensFrom, Piece.ofChars_plain_append hu, Scanner.drain_behind_plain, List.nil_append,
    Piece.ofChars_source_append hl, Scanner.drain_behind_tag]
  rfl

/-- Literal text before a fault is lost. -/
theorem tokensFrom_fault {u rest : List Char} {p : Piece} {error : CompileError} (hu : Plain u)
    (hl : p.Leads rest) {offset : Nat} (h : p.fault? (offset + Text.size u) = some error) :
    tokensFrom offset (u ++ (p.source ++ rest)) = ([], some error) := by
  rw [tokensFrom, Piece.ofChars_plain_append hu, Scanner.drain_behind_plain, List.nil_append,
    Piece.ofChars_source_append hl, Scanner.drain_behind_fault h]

/-- The ways in which the tokens of a template can go on: literal text to the end, a tag, or a
fault. -/
theorem tokensFrom_cases (offset : Nat) (cs : List Char) :
    (PlainToEnd cs ∧ tokensFrom offset cs = (Token.ofText offset cs, none)) ∨
    (∃ u f body rest, Plain u ∧ FitsFence f body ∧ cs = u ++ ((Piece.tag f body).source ++ rest)) ∨
    (∃ (u : List Char) (p : Piece) (rest : List Char) (error : CompileError), Plain u ∧
      p.Leads rest ∧ cs = u ++ (p.source ++ rest) ∧
      p.fault? (offset + Text.size u) = some error ∧ tokensFrom offset cs = ([], some error)) := by
  rcases Piece.exists_first cs with h | ⟨u, p, rest, hu, hp, hl, rfl⟩
  · exact Or.inl ⟨h, tokensFrom_end h offset⟩
  · cases p with
    | literal => cases hp
    | tag f body => exact Or.inr (Or.inl ⟨u, f, body, rest, hu, hl, rfl⟩)
    | emptyTag | unclosedTag | braces =>
      exact Or.inr (Or.inr ⟨u, _, rest, _, hu, hl, rfl, rfl, tokensFrom_fault hu hl rfl⟩)

end BraceTemplate
