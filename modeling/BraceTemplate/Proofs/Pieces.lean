import BraceTemplate.Token.Piece
import Mathlib.Data.List.Basic

namespace BraceTemplate

/-- Text that a tag may follow: no two opening braces in a row, and none at the end. -/
structure Plain (cs : List Char) : Prop where
  noFence : ¬ ['{', '{'] <:+: cs
  noBraceLast : cs.getLast? ≠ some '{'

/-- Text that ends a template. Up to three braces may stand last. -/
def PlainToEnd (cs : List Char) : Prop :=
  ∃ u k, k ≤ 3 ∧ Plain u ∧ cs = u ++ List.replicate k '{'

/-- The first `n` closing braces in a row behind the body are those that stand right after it. -/
def ClosedBy (n : Nat) (body : List Char) : Prop :=
  ∀ i < body.length,
    ¬ List.replicate n '}' <+: (body ++ List.replicate n '}').drop i

structure FitsFence (f : Fence) (body : List Char) : Prop where
  notEmpty : body ≠ []
  noBraceFirst : body.head? ≠ some '{'
  closed : ClosedBy f.width body

theorem plain_nil : Plain [] := ⟨by simp, by simp⟩

/-- Plain text is built from its end: a brace needs another character behind it. -/
theorem plain_cons {c : Char} {cs : List Char} :
    Plain (c :: cs) ↔ Plain cs ∧ (c = '{' → cs ≠ [] ∧ cs.head? ≠ some '{') := by
  constructor
  · intro h
    refine ⟨⟨fun hi => h.noFence (List.infix_cons hi), ?_⟩, ?_⟩
    · intro hl
      apply h.noBraceLast
      cases cs with
      | nil => simp at hl
      | cons d ds => simpa using hl
    · intro he
      subst he
      constructor
      · intro he
        subst he
        exact h.noBraceLast rfl
      · intro hd
        obtain ⟨ds, rfl⟩ := List.head?_eq_some_iff.mp hd
        exact h.noFence (List.prefix_append ['{', '{'] ds).isInfix
  · intro h
    obtain ⟨h, hc⟩ := h
    constructor
    · intro hi
      rcases List.infix_cons_iff.mp hi with hp | hi
      · obtain ⟨ds, hd⟩ := hp
        simp only [List.cons_append, List.nil_append, List.cons.injEq] at hd
        obtain ⟨rfl, rfl⟩ := hd
        exact (hc rfl).2 rfl
      · exact h.noFence hi
    · intro hl
      cases cs with
      | nil =>
        simp only [List.getLast?_singleton, Option.some.injEq] at hl
        exact (hc hl).1 rfl
      | cons d ds => exact h.noBraceLast (by simpa using hl)

theorem Plain.toEnd {cs : List Char} (h : Plain cs) : PlainToEnd cs :=
  ⟨cs, 0, by omega, h, by simp⟩

theorem closedBy_nil (n : Nat) : ClosedBy n [] := by
  intro i hi
  simp at hi

theorem closedBy_cons {n : Nat} {c : Char} {body : List Char} :
    ClosedBy n (c :: body) ↔
      ¬ List.replicate n '}' <+: c :: (body ++ List.replicate n '}') ∧ ClosedBy n body := by
  constructor
  · intro h
    exact ⟨h 0 (by simp), fun i hi => h (i + 1) (by simpa using hi)⟩
  · intro h i hi
    obtain ⟨h0, h⟩ := h
    cases i with
    | zero => exact h0
    | succ i => exact h i (by simpa using hi)

/-- A body that is closed in time holds no closing braces itself. -/
theorem ClosedBy.no_closing {n : Nat} (hn : 0 < n) {body : List Char} (h : ClosedBy n body) :
    ¬ List.replicate n '}' <:+: body := by
  intro h
  obtain ⟨u, v, rfl⟩ := h
  refine h u.length ?_ ?_
  · simp only [List.length_append, List.length_replicate]
    omega
  · simp [List.append_assoc]

/-- Characters other than closing braces do not take part in a run of them. -/
theorem closing_infix_append {n : Nat} (hn : 0 < n) {u cs : List Char} (hu : '}' ∉ u) :
    List.replicate n '}' <:+: u ++ cs ↔ List.replicate n '}' <:+: cs := by
  obtain ⟨m, rfl⟩ := Nat.exists_eq_add_of_lt hn
  rw [Nat.zero_add, List.replicate_succ]
  induction u with
  | nil => rfl
  | cons c u ih =>
    obtain ⟨hc, hu⟩ := List.ne_and_not_mem_of_not_mem_cons hu
    rw [List.cons_append, List.infix_cons_iff, ih hu, List.cons_prefix_cons]
    simp [hc]

theorem closing_infix_concat {n : Nat} (hn : 0 < n) {c : Char} {cs : List Char} (hc : c ≠ '}') :
    List.replicate n '}' <:+: cs ++ [c] ↔ List.replicate n '}' <:+: cs := by
  have hu : '}' ∉ [c] := by simp [hc.symm]
  rw [← List.reverse_infix, List.reverse_append, List.reverse_singleton, List.reverse_replicate,
    closing_infix_append hn hu, ← List.reverse_infix, List.reverse_replicate, List.reverse_reverse]

/-- A body that does not end in a closing brace is closed right behind itself. -/
theorem closedBy_of_no_closing {n : Nat} {body : List Char} (hlast : body.getLast? ≠ some '}')
    (h : ¬ List.replicate n '}' <:+: body) : ClosedBy n body := by
  intro i hi hp
  rw [List.drop_append_of_le_length (Nat.le_of_lt hi)] at hp
  have hdrop : body.drop i <:+ body := List.drop_suffix i body
  rcases List.prefix_or_prefix_of_prefix hp (List.prefix_append _ _) with hr | hr
  · exact h (hr.isInfix.trans hdrop.isInfix)
  · -- the rest of the body would consist of closing braces
    apply hlast
    have hne : body.drop i ≠ [] := by simpa using hi
    have hmem := hr.subset (List.getLast_mem hne)
    rw [List.getLast?_eq_some_iff]
    obtain ⟨-, hc⟩ := List.mem_replicate.mp hmem
    obtain ⟨u, hu⟩ := hdrop
    refine ⟨u ++ (body.drop i).dropLast, ?_⟩
    rw [List.append_assoc, ← hc, List.dropLast_append_getLast hne, hu]

theorem FitsFence.of_no_closing {f : Fence} {body : List Char} (hne : body ≠ [])
    (hfirst : body.head? ≠ some '{') (hlast : body.getLast? ≠ some '}')
    (h : ¬ f.closing <:+: body) : FitsFence f body :=
  ⟨hne, hfirst, closedBy_of_no_closing hlast h⟩

namespace Fence

theorem width_pos (f : Fence) : 0 < f.width := by cases f <;> decide

theorem opening_ne_nil (f : Fence) : f.opening ≠ [] := by cases f <;> decide

theorem closing_ne_nil (f : Fence) : f.closing ≠ [] := by cases f <;> decide

theorem head_closing (f : Fence) (cs : List Char) : (f.closing ++ cs).head? = some '}' := by
  cases f <;> rfl

end Fence

theorem FitsFence.of_not_mem {f : Fence} {body : List Char} (hne : body ≠ [])
    (hfirst : body.head? ≠ some '{') (hno : '}' ∉ body) : FitsFence f body := by
  refine .of_no_closing hne hfirst ?_ ?_
  · exact fun hl => hno (List.mem_of_getLast? hl)
  · exact fun hi => hno (hi.subset (List.mem_replicate.mpr ⟨Nat.ne_of_gt f.width_pos, rfl⟩))

namespace Piece

theorem cutAtClosing_of_closedBy {n : Nat} (hn : 0 < n) {body : List Char}
    (h : ClosedBy n body) (rest : List Char) :
    cutAtClosing n (body ++ List.replicate n '}' ++ rest) = some (body, rest) := by
  induction body with
  | nil =>
    obtain ⟨m, rfl⟩ := Nat.exists_eq_add_of_lt hn
    simp only [List.nil_append, Nat.zero_add, List.replicate_succ, List.cons_append, cutAtClosing]
    rw [if_pos]
    · simp
    · rw [List.isPrefixOf_iff_prefix]
      exact ⟨rest, by simp⟩
  | cons c body ih =>
    obtain ⟨h0, h⟩ := closedBy_cons.mp h
    simp only [List.cons_append, cutAtClosing]
    rw [if_neg, ih h]
    · rfl
    · rw [List.isPrefixOf_iff_prefix]
      -- the braces cannot reach into the rest: the closing run is long enough for them
      intro hp
      apply h0
      rw [← List.cons_append, ← List.cons_append] at hp
      refine List.prefix_of_prefix_length_le hp (List.prefix_append _ _) ?_
      simp only [List.length_replicate, List.length_append, List.length_cons]
      omega

theorem closedBy_of_cutAtClosing {n : Nat} {cs body rest : List Char}
    (h : cutAtClosing n cs = some (body, rest)) : ClosedBy n body := by
  induction cs generalizing body with
  | nil => simp [cutAtClosing] at h
  | cons c cs ih =>
    have hcs := cutAtClosing_eq h
    unfold cutAtClosing at h
    split at h
    · obtain ⟨rfl, -⟩ := Prod.mk.inj (Option.some.inj h)
      exact closedBy_nil n
    · rename_i hn
      obtain ⟨⟨b, r⟩, hc, he⟩ := Option.map_eq_some_iff.mp h
      obtain ⟨rfl, rfl⟩ := Prod.mk.inj he
      refine closedBy_cons.mpr ⟨fun hp => hn ?_, ih hc⟩
      rw [List.isPrefixOf_iff_prefix, hcs]
      exact hp.trans (by simp)

/-- A tag is unclosed where its closing braces stand nowhere in a row. -/
theorem cutAtClosing_eq_none {n : Nat} (hn : 0 < n) {cs : List Char} :
    cutAtClosing n cs = none ↔ ¬ List.replicate n '}' <:+: cs := by
  induction cs with
  | nil =>
    simp only [cutAtClosing, List.infix_nil, List.replicate_eq_nil_iff, true_iff]
    omega
  | cons c cs ih =>
    unfold cutAtClosing
    split
    · rename_i hp
      have hi := (List.isPrefixOf_iff_prefix.mp hp).isInfix
      simp [hi]
    · rename_i hp
      rw [List.isPrefixOf_iff_prefix] at hp
      rw [Option.map_eq_none_iff, ih, List.infix_cons_iff]
      simp [hp]

theorem source_tag_ne_nil (f : Fence) (body : List Char) : (tag f body).source ≠ [] := by
  simp [source, f.opening_ne_nil]

/-- The piece is the first of a template that goes on with `rest`. -/
def Leads : Piece → List Char → Prop
  | literal cs, rest =>
    (∃ c, cs = [c] ∧ (c = '{' → rest.head? ≠ some '{')) ∨ (∃ f : Fence, cs = f.opening ∧ rest = [])
  | tag f body, _ => FitsFence f body
  | emptyTag _, _ => True
  | unclosedTag f body, rest =>
    rest = [] ∧ body ≠ [] ∧ body.head? ≠ some '{' ∧ ¬ f.closing <:+: body
  | braces, rest => rest.head? = some '{'

theorem afterOpening_leads (f : Fence) {cs : List Char} (hb : cs.head? ≠ some '{') :
    (afterOpening f cs).1.Leads (afterOpening f cs).2 := by
  unfold afterOpening
  split
  · exact Or.inr ⟨f, rfl, rfl⟩
  · rename_i hne
    have hne : cs ≠ [] := by simpa using hne
    split
    · rename_i hc
      exact ⟨rfl, hne, hb, (cutAtClosing_eq_none f.width_pos).mp hc⟩
    · trivial
    · rename_i body rest hbody hc
      have hbody : body ≠ [] := by simpa using hbody
      refine ⟨hbody, ?_, closedBy_of_cutAtClosing hc⟩
      rwa [cutAtClosing_eq hc, List.append_assoc, List.head?_append_of_ne_nil _ hbody] at hb

theorem read_opening (f : Fence) {cs : List Char} (hb : cs.head? ≠ some '{') :
    read (f.opening ++ cs) = some (afterOpening f cs) := by
  cases f <;> cases cs with
  | nil => rfl
  | cons c cs =>
    simp only [List.head?_cons, ne_eq, Option.some.injEq] at hb
    simp [read, Fence.opening, Fence.width, hb]

theorem read_literal {c : Char} {cs : List Char} (hc : c = '{' → cs.head? ≠ some '{') :
    read (c :: cs) = some (literal [c], cs) := by
  unfold read
  split <;> simp_all

theorem head_ne_brace {cs : List Char} (h : ∀ ds, cs ≠ '{' :: ds) : cs.head? ≠ some '{' := by
  intro hc
  obtain ⟨ds, hds⟩ := List.head?_eq_some_iff.mp hc
  exact h ds hds

theorem leads_of_read {cs rest : List Char} {p : Piece} (h : read cs = some (p, rest)) :
    p.Leads rest := by
  unfold read at h
  split at h
  · cases h
  · obtain ⟨rfl, rfl⟩ := Prod.mk.inj (Option.some.inj h)
    rfl
  · rename_i hn
    have hl := afterOpening_leads .triple (head_ne_brace hn)
    rwa [Option.some.inj h] at hl
  · rename_i hn
    have hl := afterOpening_leads .double (head_ne_brace hn)
    rwa [Option.some.inj h] at hl
  · rename_i c ds _ _ hn
    obtain ⟨rfl, rfl⟩ := Prod.mk.inj (Option.some.inj h)
    exact Or.inl ⟨c, rfl, fun hc => head_ne_brace fun es => hn es hc⟩

theorem read_of_leads {p : Piece} {rest : List Char} (h : p.Leads rest) :
    read (p.source ++ rest) = some (p, rest) := by
  cases p with
  | literal cs =>
    rcases h with ⟨c, rfl, hc⟩ | ⟨f, rfl, rfl⟩
    · exact read_literal hc
    · cases f <;> rfl
  | tag f body =>
    have hh : (body ++ f.closing ++ rest).head? ≠ some '{' := by
      rw [List.append_assoc, List.head?_append_of_ne_nil _ h.notEmpty]
      exact h.noBraceFirst
    have hcut := cutAtClosing_of_closedBy f.width_pos h.closed rest
    simp only [source, List.append_assoc] at hh ⊢
    rw [read_opening f hh, ← List.append_assoc]
    obtain ⟨b, bs, rfl⟩ := List.exists_cons_of_ne_nil h.notEmpty
    simp only [afterOpening, Fence.closing, hcut]
    rfl
  | emptyTag f =>
    have hcut := cutAtClosing_of_closedBy f.width_pos (closedBy_nil f.width) rest
    rw [source, List.append_assoc, read_opening f (by simp [f.head_closing])]
    have hne : (f.closing ++ rest).isEmpty = false := by
      simp [f.closing_ne_nil]
    change cutAtClosing f.width (f.closing ++ rest) = some ([], rest) at hcut
    simp [afterOpening, hne, hcut]
  | unclosedTag f body =>
    obtain ⟨rfl, hne, hb, hc⟩ := h
    have hcut := (cutAtClosing_eq_none f.width_pos).mpr hc
    simp only [source, List.append_nil]
    rw [read_opening f hb]
    simp [afterOpening, hne, hcut]
  | braces =>
    obtain ⟨ds, rfl⟩ := List.head?_eq_some_iff.mp h
    rfl

/-- What the first piece of a template can be. -/
theorem read_eq_some_iff {cs rest : List Char} {p : Piece} :
    read cs = some (p, rest) ↔ cs = p.source ++ rest ∧ p.Leads rest := by
  constructor
  · intro h
    exact ⟨read_source h, leads_of_read h⟩
  · intro h
    obtain ⟨rfl, h⟩ := h
    exact read_of_leads h

end Piece
end BraceTemplate
