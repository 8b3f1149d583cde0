import BraceTemplate.Proofs.Lexing
import BraceTemplate.Proofs.TokenSequences
import Mathlib.Data.Set.Subsingleton

namespace BraceTemplate

/-- Each span is the stretch of its own token, where the first begins at an offset and each other
right behind the one before it. -/
def Placed : Nat → List Token → Prop
  | _, [] => True
  | offset, t :: ts =>
    t.span = ⟨offset, Text.size t.source⟩ ∧ Placed (offset + Text.size t.source) ts

/-- The tokens make up a template that begins at an offset. -/
structure Spells (offset : Nat) (cs : List Char) (ts : List Token) : Prop extends Lexical ts where
  source : cs = ts.flatMap Token.source
  placed : Placed offset ts

theorem Spells.nil (offset : Nat) : Spells offset [] [] := ⟨lexical_nil, rfl, trivial⟩

theorem source_ofTag (offset : Nat) (f : Fence) (body : List Char) :
    (Token.ofTag offset f body).source = (Piece.tag f body).source := by
  simp [Token.ofTag, Token.source, Piece.source]

theorem Token.inside_ofTag {offset : Nat} {f : Fence} {body : List Char} (h : FitsFence f body) :
    Inside [ofTag offset f body] := by
  refine inside_singleton.mpr ⟨by simp [ofTag], ?_⟩
  intro g hg
  obtain rfl := TokenKind.tag.inj hg
  simpa [ofTag] using h

theorem Spells.tag_cons {f : Fence} {body cs : List Char} {ts : List Token} {offset : Nat}
    (hb : FitsFence f body)
    (h : Spells (offset + Text.size (Piece.tag f body).source) cs ts) :
    Spells offset ((Piece.tag f body).source ++ cs) (Token.ofTag offset f body :: ts) := by
  have hs := source_ofTag offset f body
  refine ⟨lexical_cons.mpr ⟨?_, ?_, h.toLexical⟩, ?_, ?_, ?_⟩
  · intro ht
    cases ht
  · intro g hg
    obtain rfl := TokenKind.tag.inj hg
    simpa [Token.ofTag] using hb
  · rw [List.flatMap_cons, hs, ← h.source]
  · rw [hs]
    rfl
  · rw [hs]
    exact h.placed

theorem Spells.text_append {u cs : List Char} {ts : List Token} {offset : Nat}
    (hend : ts = [] → PlainToEnd u) (hhead : ∀ t ∈ ts.head?, t.kind ≠ .text ∧ Plain u)
    (h : Spells (offset + Text.size u) cs ts) :
    Spells offset (u ++ cs) (Token.ofText offset u ++ ts) := by
  by_cases hu : u = []
  · subst hu
    simpa [Token.ofText, Text.size] using h
  · rw [Token.ofText, if_neg hu, List.singleton_append]
    refine ⟨lexical_cons.mpr ⟨fun _ => ⟨?_, ?_, ?_⟩, ?_, h.toLexical⟩, ?_, ?_, ?_⟩
    · simpa using hu
    · simpa using hend
    · simpa using hhead
    · intro f hf
      cases hf
    · simp [Token.source, ← h.source]
    · simp [Token.source]
    · simpa [Token.source] using h.placed

theorem Spells.tail {offset : Nat} {cs : List Char} {t : Token} {ts : List Token}
    (h : Spells offset cs (t :: ts)) :
    Spells (offset + Text.size t.source) (ts.flatMap Token.source) ts :=
  ⟨(lexical_cons.mp h.toLexical).2.2, rfl, h.placed.2⟩

theorem eq_ofTag {t : Token} {f : Fence} {offset : Nat} (hk : t.kind = .tag f)
    (hs : t.span = ⟨offset, Text.size t.source⟩) :
    t = Token.ofTag offset f t.value.toList := by
  obtain ⟨kind, value, span⟩ := t
  obtain rfl : kind = .tag f := hk
  change span = ⟨offset, Text.size (f.opening ++ value.toList ++ f.closing)⟩ at hs
  subst hs
  simp [Token.ofTag, Piece.source]

theorem eq_ofText {t : Token} {offset : Nat} (hk : t.kind = .text) (hv : t.value ≠ "")
    (hs : t.span = ⟨offset, Text.size t.source⟩) :
    [t] = Token.ofText offset t.source := by
  obtain ⟨kind, value, span⟩ := t
  obtain rfl : kind = .text := hk
  change span = ⟨offset, Text.size value.toList⟩ at hs
  subst hs
  simpa [Token.ofText, Token.source] using hv

/-- The first tag with its fence. -/
theorem Spells.first_tag {offset : Nat} {cs : List Char} {t : Token} {ts : List Token} {f : Fence}
    (h : Spells offset cs (t :: ts)) (hk : t.kind = .tag f) :
    ∃ body rest, FitsFence f body ∧ cs = (Piece.tag f body).source ++ rest ∧
      t = Token.ofTag offset f body ∧ Spells (offset + t.span.length) rest ts := by
  have ht := eq_ofTag hk h.placed.1
  have hb := h.tagBody t (by simp) f hk
  have hlater := h.tail
  have hsource := h.source
  rw [List.flatMap_cons] at hsource
  generalize t.value.toList = body at ht hb
  subst ht
  rw [source_ofTag] at hsource hlater
  exact ⟨body, _, hb, hsource, rfl, hlater⟩

/-- Tokens that spell a template begin as the template begins: with literal text to its end or
with literal text before a tag. -/
theorem Spells.first {offset : Nat} {cs : List Char} {ts : List Token} (h : Spells offset cs ts) :
    (PlainToEnd cs ∧ ts = Token.ofText offset cs) ∨
    ∃ u f body rest later, Plain u ∧ FitsFence f body ∧
      cs = u ++ ((Piece.tag f body).source ++ rest) ∧
      ts = Token.ofText offset u ++ Token.ofTag (offset + Text.size u) f body :: later ∧
      Spells (offset + Text.size u + (Token.ofTag (offset + Text.size u) f body).span.length)
        rest later := by
  cases ts with
  | nil =>
    obtain rfl := h.source
    exact Or.inl ⟨plain_nil.toEnd, rfl⟩
  | cons t ts =>
    obtain ⟨htext, -, -⟩ := lexical_cons.mp h.toLexical
    cases hk : t.kind with
    | tag f =>
      obtain ⟨body, rest, hb, hcs, rfl, hlater⟩ := h.first_tag hk
      exact Or.inr ⟨[], f, body, rest, ts, plain_nil, hb, hcs, rfl, hlater⟩
    | text =>
      obtain ⟨hv, hend, hnext⟩ := htext hk
      have hsource : t.source = t.value.toList := by simp [Token.source, hk]
      have ht := eq_ofText hk hv h.placed.1
      rw [← hsource] at hend hnext
      cases ts with
      | nil =>
        have hcs := h.source
        rw [List.flatMap_singleton] at hcs
        subst hcs
        exact Or.inl ⟨hend rfl, ht⟩
      | cons u ts =>
        obtain ⟨hku, hplain⟩ := hnext u rfl
        cases hf : u.kind with
        | text => exact absurd hf hku
        | tag f =>
          obtain ⟨body, rest, hb, hcs, hu, hlater⟩ := h.tail.first_tag hf
          have hsource := h.source
          rw [List.flatMap_cons, hcs] at hsource
          subst hu
          exact Or.inr ⟨t.source, f, body, rest, ts, hplain, hb, hsource,
            by rw [← ht]; rfl, hlater⟩

def placeAll : Nat → List Token → List Token
  | _, [] => []
  | offset, t :: ts =>
    { t with span := ⟨offset, Text.size t.source⟩ } :: placeAll (offset + Text.size t.source) ts

theorem placeAll_append (offset : Nat) (ts us : List Token) :
    placeAll offset (ts ++ us) =
      placeAll offset ts ++ placeAll (offset + Text.size (ts.flatMap Token.source)) us := by
  induction ts generalizing offset with
  | nil => simp [placeAll, Text.size]
  | cons t ts ih => simp [placeAll, ih, Text.size_append, Nat.add_assoc]

theorem placed_placeAll (offset : Nat) (ts : List Token) : Placed offset (placeAll offset ts) := by
  induction ts generalizing offset with
  | nil => trivial
  | cons t ts ih => exact ⟨rfl, ih _⟩

theorem source_placeAll (offset : Nat) (ts : List Token) :
    (placeAll offset ts).flatMap Token.source = ts.flatMap Token.source := by
  induction ts generalizing offset with
  | nil => rfl
  | cons t ts ih =>
    rw [placeAll, List.flatMap_cons, List.flatMap_cons, ih]
    rfl

/-- Whether tokens can follow each other does not depend on their places. -/
theorem Lexical.placeAll {ts : List Token} (h : Lexical ts) (offset : Nat) :
    Lexical (placeAll offset ts) := by
  induction ts generalizing offset with
  | nil => exact lexical_nil
  | cons t ts ih =>
    obtain ⟨htext, htag, hts⟩ := lexical_cons.mp h
    refine lexical_cons.mpr ⟨fun hk => ?_, htag, ih hts _⟩
    obtain ⟨hne, hend, hnext⟩ := htext hk
    cases ts with
    | nil => exact ⟨hne, fun _ => hend rfl, by simp [BraceTemplate.placeAll]⟩
    | cons u us =>
      refine ⟨hne, by simp [BraceTemplate.placeAll], ?_⟩
      intro v hv
      obtain rfl := Option.some.inj hv
      exact hnext u rfl

/-- Tokens that can follow each other spell the template that they make up. -/
theorem Lexical.spells {ts : List Token} (h : Lexical ts) (offset : Nat) :
    Spells offset (ts.flatMap Token.source) (BraceTemplate.placeAll offset ts) :=
  ⟨h.placeAll offset, (source_placeAll offset ts).symm, placed_placeAll offset ts⟩

/-- What a template is cut into without a fault spells it. -/
theorem spells_of_tokensFrom {offset : Nat} {cs : List Char} {ts : List Token}
    (h : tokensFrom offset cs = (ts, none)) : Spells offset cs ts := by
  induction hn : cs.length using Nat.strong_induction_on generalizing offset cs ts with
  | _ n ih =>
    rcases tokensFrom_cases offset cs with ⟨hp, ht⟩ | ⟨u, f, body, rest, hu, hb, rfl⟩ |
      ⟨u, p, rest, error, -, -, -, -, ht⟩
    · rw [ht] at h
      obtain ⟨rfl, -⟩ := Prod.mk.inj h
      simpa using Spells.text_append (fun _ => hp) (by simp) (.nil (offset + Text.size cs))
    · rw [tokensFrom_tag hu hb] at h
      obtain ⟨rfl, hlater⟩ := Prod.mk.inj h
      have hlt : rest.length < n := by
        have hs := List.length_pos_iff.mpr (Piece.source_tag_ne_nil f body)
        simp only [List.length_append] at hn
        omega
      refine .text_append (by simp) ?_ (.tag_cons hb (ih _ hlt (Prod.ext rfl hlater) rfl))
      intro t ht
      obtain rfl : Token.ofTag _ f body = t := by simpa using ht
      exact ⟨by simp [Token.ofTag], hu⟩
    · rw [ht] at h
      cases (Prod.mk.inj h).2

/-- A template is cut into the tokens that spell it. -/
theorem tokensFrom_of_spells {offset : Nat} {cs : List Char} {ts : List Token}
    (h : Spells offset cs ts) : tokensFrom offset cs = (ts, none) := by
  induction hn : ts.length using Nat.strong_induction_on generalizing offset cs ts with
  | _ n ih =>
    rcases h.first with ⟨hp, rfl⟩ | ⟨u, f, body, rest, later, hu, hb, rfl, rfl, hlater⟩
    · exact tokensFrom_end hp offset
    · have hlt : later.length < n := by
        simp only [List.length_append, List.length_cons] at hn
        omega
      rw [tokensFrom_tag hu hb, ih _ hlt hlater rfl]

/-- A template is cut into tokens without a fault exactly if they spell it, and so in one way
at most. -/
theorem tokenize_eq_iff_spells (s : String) :
    (∀ ts : List Token, tokenize s = (ts, none) ↔ Spells 0 s.toList ts) ∧
      {ts : List Token | Spells 0 s.toList ts}.Subsingleton := by
  have hiff : ∀ ts : List Token, tokenize s = (ts, none) ↔ Spells 0 s.toList ts :=
    fun ts => ⟨spells_of_tokensFrom, tokensFrom_of_spells⟩
  refine ⟨hiff, fun ts hts us hus => ?_⟩
  have he := ((hiff ts).mpr hts).symm.trans ((hiff us).mpr hus)
  exact (Prod.mk.inj he).1

end BraceTemplate
