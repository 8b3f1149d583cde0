import BraceTemplate.Proofs.Pieces
import Mathlib.Data.List.Chain

namespace BraceTemplate

/-- The tokens that can follow each other in a template. Only text that stands last may end in
braces, and no text stands behind other text. -/
structure Lexical (ts : List Token) : Prop where
  textNotEmpty : ∀ t ∈ ts, t.kind = .text → t.value ≠ ""
  textInside : ts.IsChain (fun t u => t.kind = .text → u.kind ≠ .text ∧ Plain t.value.toList)
  textLast : ∀ t ∈ ts.getLast?, t.kind = .text → PlainToEnd t.value.toList
  tagBody : ∀ t ∈ ts, ∀ f, t.kind = .tag f → FitsFence f t.value.toList

theorem lexical_nil : Lexical [] := ⟨by simp, .nil, by simp, by simp⟩

theorem lexical_cons {t : Token} {ts : List Token} :
    Lexical (t :: ts) ↔
      (t.kind = .text → t.value ≠ "" ∧ (ts = [] → PlainToEnd t.value.toList) ∧
        ∀ u ∈ ts.head?, u.kind ≠ .text ∧ Plain t.value.toList) ∧
      (∀ f, t.kind = .tag f → FitsFence f t.value.toList) ∧ Lexical ts := by
  constructor
  · intro h
    obtain ⟨hhead, hchain⟩ := List.isChain_cons.mp h.textInside
    refine ⟨fun ht => ⟨h.textNotEmpty t (by simp) ht, ?_, fun u hu => hhead u hu ht⟩,
      h.tagBody t (by simp), ⟨fun u hu => h.textNotEmpty u (by simp [hu]), hchain, ?_,
        fun u hu => h.tagBody u (by simp [hu])⟩⟩
    · intro he
      subst he
      exact h.textLast t (by simp) ht
    · intro u hu
      apply h.textLast u
      cases ts with
      | nil => simp at hu
      | cons v vs => simpa using hu
  · intro h
    obtain ⟨htext, htag, h⟩ := h
    refine ⟨?_, List.isChain_cons.mpr ⟨fun u hu ht => (htext ht).2.2 u hu, h.textInside⟩, ?_, ?_⟩
    · intro u hu
      rcases List.mem_cons.mp hu with rfl | hu
      · exact fun ht => (htext ht).1
      · exact h.textNotEmpty u hu
    · intro u hu
      cases ts with
      | nil =>
        obtain rfl : t = u := by simpa using hu
        exact fun ht => (htext ht).2.1 rfl
      | cons v vs => exact h.textLast u (by simpa using hu)
    · intro u hu
      rcases List.mem_cons.mp hu with rfl | hu
      · exact htag
      · exact h.tagBody u hu

/-- Tokens behind which a template goes on. -/
structure Inside (ts : List Token) : Prop where
  textPlain : ∀ t ∈ ts, t.kind = .text → t.value ≠ "" ∧ Plain t.value.toList
  textsApart : ts.IsChain (fun t u => t.kind = .text → u.kind ≠ .text)
  tagBody : ∀ t ∈ ts, ∀ f, t.kind = .tag f → FitsFence f t.value.toList

def Apart (ts us : List Token) : Prop :=
  ∀ t ∈ ts.getLast?, ∀ u ∈ us.head?, t.kind = .text → u.kind ≠ .text

theorem Apart.of_head {us : List Token} (h : ∀ u ∈ us.head?, u.kind ≠ .text) (ts : List Token) :
    Apart ts us :=
  fun _ _ u hu _ => h u hu

theorem Apart.of_tag {t : Token} {f : Fence} (h : t.kind = .tag f) (us : List Token) :
    Apart [t] us := by
  intro u hu v _ hk
  obtain rfl := Option.some.inj hu
  cases h.symm.trans hk

theorem inside_nil : Inside [] := ⟨by simp, .nil, by simp⟩

/-- Runs of tokens can stand side by side where no texts meet. -/
theorem inside_append {ts us : List Token} :
    Inside (ts ++ us) ↔ Inside ts ∧ Inside us ∧ Apart ts us := by
  constructor
  · intro h
    obtain ⟨hts, hus, hmeet⟩ := List.isChain_append.mp h.textsApart
    refine ⟨⟨fun t ht => h.textPlain t ?_, hts, fun t ht => h.tagBody t ?_⟩,
      ⟨fun t ht => h.textPlain t ?_, hus, fun t ht => h.tagBody t ?_⟩, hmeet⟩
    · exact List.mem_append_left us ht
    · exact List.mem_append_left us ht
    · exact List.mem_append_right ts ht
    · exact List.mem_append_right ts ht
  · intro h
    obtain ⟨hts, hus, hmeet⟩ := h
    refine ⟨?_, List.isChain_append.mpr ⟨hts.textsApart, hus.textsApart, hmeet⟩, ?_⟩
    · intro t ht
      exact (List.mem_append.mp ht).elim (hts.textPlain t) (hus.textPlain t)
    · intro t ht
      exact (List.mem_append.mp ht).elim (hts.tagBody t) (hus.tagBody t)

theorem inside_singleton {t : Token} :
    Inside [t] ↔ (t.kind = .text → t.value ≠ "" ∧ Plain t.value.toList) ∧
      ∀ f, t.kind = .tag f → FitsFence f t.value.toList := by
  constructor
  · intro h
    exact ⟨h.textPlain t (by simp), h.tagBody t (by simp)⟩
  · intro ⟨htext, htag⟩
    refine ⟨?_, .singleton t, ?_⟩
    · intro u hu
      obtain rfl := List.mem_singleton.mp hu
      exact htext
    · intro u hu
      obtain rfl := List.mem_singleton.mp hu
      exact htag

theorem inside_cons {t : Token} {ts : List Token} :
    Inside (t :: ts) ↔ Inside [t] ∧ Inside ts ∧ Apart [t] ts :=
  @inside_append [t] ts

theorem lexical_cons_inside {t : Token} {ts : List Token} (hts : ts ≠ []) :
    Lexical (t :: ts) ↔ Inside [t] ∧ Lexical ts ∧ Apart [t] ts := by
  obtain ⟨u, us, rfl⟩ := List.exists_cons_of_ne_nil hts
  rw [lexical_cons, inside_singleton]
  constructor
  · intro ⟨htext, htag, h⟩
    refine ⟨⟨fun ht => ⟨(htext ht).1, ((htext ht).2.2 u rfl).2⟩, htag⟩, h, ?_⟩
    intro w hw v hv ht
    obtain rfl := Option.some.inj hw
    exact ((htext ht).2.2 v hv).1
  · intro ⟨⟨htext, htag⟩, h, hmeet⟩
    refine ⟨fun ht => ⟨(htext ht).1, by simp, ?_⟩, htag, h⟩
    intro v hv
    exact ⟨hmeet t rfl v hv ht, (htext ht).2⟩

/-- Only the last tokens of a template are free to end in braces. -/
theorem lexical_append {ts us : List Token} (hus : us ≠ []) :
    Lexical (ts ++ us) ↔ Inside ts ∧ Lexical us ∧ Apart ts us := by
  induction ts with
  | nil => simp [inside_nil, Apart]
  | cons t ts ih =>
    have hne : ts ++ us ≠ [] := by simp [hus]
    rw [List.cons_append, lexical_cons_inside hne, ih]
    cases ts with
    | nil => simp [inside_nil, Apart]
    | cons v vs =>
      have hlast : Apart (t :: v :: vs) us ↔ Apart (v :: vs) us := by
        rw [Apart, Apart, List.getLast?_cons_cons]
      have hfirst : Apart [t] (v :: vs ++ us) ↔ Apart [t] (v :: vs) := Iff.rfl
      rw [@inside_cons t (v :: vs), hlast, hfirst]
      tauto

theorem Inside.lexical {ts : List Token} (h : Inside ts) : Lexical ts := by
  refine ⟨fun t ht hk => (h.textPlain t ht hk).1, ?_, ?_, h.tagBody⟩
  · refine List.isChain_iff_forall_rel_of_append_cons_cons.mpr ?_
    intro t u us vs hts hk
    have hmem : t ∈ ts := by simp [hts]
    exact ⟨List.isChain_iff_forall_rel_of_append_cons_cons.mp h.textsApart hts hk,
      (h.textPlain t hmem hk).2⟩
  · intro t ht hk
    exact (h.textPlain t (List.mem_of_getLast? ht) hk).2.toEnd

end BraceTemplate
