import BraceTemplate.Proofs.Lexing

namespace BraceTemplate

def Span.covers (s : Span) (offset : Nat) : Bool :=
  s.offset ≤ offset && offset < s.offset + s.length

namespace Text

/-- A text that begins at an offset, without the characters that stand in the spans. -/
def without (spans : List Span) : Nat → List Char → List Char
  | _, [] => []
  | offset, c :: cs =>
    let rest := without spans (offset + c.utf8Size) cs
    if spans.any (·.covers offset) then rest else c :: rest

variable {spans : List Span}

theorem without_append (offset : Nat) (cs ds : List Char) :
    without spans offset (cs ++ ds) =
      without spans offset cs ++ without spans (offset + size cs) ds := by
  induction cs generalizing offset with
  | nil => rfl
  | cons c cs ih =>
    rw [List.cons_append, without, without, ih, size, Nat.add_assoc]
    split <;> rfl

theorem without_covered {s : Span} (hs : s ∈ spans) {offset : Nat} {cs : List Char}
    (hstart : s.offset ≤ offset) (hend : offset + size cs ≤ s.offset + s.length) :
    without spans offset cs = [] := by
  induction cs generalizing offset with
  | nil => rfl
  | cons c cs ih =>
    have hc := Char.utf8Size_pos c
    rw [size] at hend
    have hcovers : spans.any (·.covers offset) = true := by
      refine List.any_eq_true.mpr ⟨s, hs, ?_⟩
      rw [Span.covers, Bool.and_eq_true, decide_eq_true_iff, decide_eq_true_iff]
      omega
    rw [without, if_pos hcovers]
    exact ih (by omega) (by omega)

/-- Text that no span touches is left as it is. -/
theorem without_apart {offset : Nat} {cs : List Char}
    (h : ∀ s ∈ spans, s.offset + s.length ≤ offset ∨ offset + size cs ≤ s.offset) :
    without spans offset cs = cs := by
  induction cs generalizing offset with
  | nil => rfl
  | cons c cs ih =>
    have hc := Char.utf8Size_pos c
    rw [size] at h
    have hcovers : ¬ spans.any (·.covers offset) = true := by
      intro hany
      obtain ⟨s, hs, hcovers⟩ := List.any_eq_true.mp hany
      rw [Span.covers, Bool.and_eq_true, decide_eq_true_iff, decide_eq_true_iff] at hcovers
      have hs := h s hs
      omega
    rw [without, if_neg hcovers, ih fun s hs => ?_]
    have hs := h s hs
    omega

end Text

/-- The text that is given up with a fault. It is the text that shows the fault, but of four braces
it is the first three, and the fault is shown by the last. -/
def CompileError.skipped (e : CompileError) : Span :=
  match e.fault with
  | .tooManyBraces => ⟨e.span.offset - 3, 3⟩
  | _ => e.span

namespace Piece

def kept : Piece → List Char
  | literal cs => cs
  | tag f body => (tag f body).source
  | emptyTag _ | unclosedTag _ _ | braces => []

theorem kept_of_no_fault {p : Piece} {offset : Nat} (h : p.fault? offset = none) :
    p.kept = p.source := by
  cases p with
  | literal | tag => rfl
  | emptyTag | unclosedTag | braces => cases h

theorem skipped_of_fault {p : Piece} {offset : Nat} {e : CompileError}
    (h : p.fault? offset = some e) : p.kept = [] ∧ e.skipped = ⟨offset, Text.size p.source⟩ := by
  cases p with
  | literal | tag => cases h
  | emptyTag | unclosedTag | braces =>
    obtain rfl := Option.some.inj h
    exact ⟨rfl, rfl⟩

/-- The place behind pieces, counted piece by piece. -/
theorem add_size_cons (offset : Nat) (p : Piece) (ps : List Piece) :
    offset + Text.size ((p :: ps).flatMap source) =
      offset + Text.size p.source + Text.size (ps.flatMap source) := by
  rw [List.flatMap_cons, Text.size_append, ← Nat.add_assoc]

def faults : Nat → List Piece → List CompileError
  | _, [] => []
  | offset, p :: ps => (p.fault? offset).toList ++ faults (offset + Text.size p.source) ps

theorem faults_append (offset : Nat) (ps qs : List Piece) :
    faults offset (ps ++ qs) =
      faults offset ps ++ faults (offset + Text.size (ps.flatMap source)) qs := by
  induction ps generalizing offset with
  | nil => rfl
  | cons p ps ih =>
    rw [List.cons_append, faults, faults, ih, List.append_assoc, add_size_cons]

theorem exists_of_mem_faults {offset : Nat} {ps : List Piece} {e : CompileError}
    (h : e ∈ faults offset ps) :
    ∃ before p after, ps = before ++ p :: after ∧
      p.fault? (offset + Text.size (before.flatMap source)) = some e := by
  induction ps generalizing offset with
  | nil => cases h
  | cons p ps ih =>
    rcases List.mem_append.mp h with h | h
    · exact ⟨[], p, ps, rfl, Option.mem_toList.mp h⟩
    · obtain ⟨before, q, after, rfl, hq⟩ := ih h
      refine ⟨p :: before, q, after, rfl, ?_⟩
      rwa [add_size_cons]

/-- What is given up with a fault stands inside the pieces. -/
theorem skipped_inside {offset : Nat} {ps : List Piece} {e : CompileError}
    (h : e ∈ faults offset ps) :
    offset ≤ e.skipped.offset ∧
      e.skipped.offset + e.skipped.length ≤ offset + Text.size (ps.flatMap source) := by
  obtain ⟨before, p, after, rfl, hp⟩ := exists_of_mem_faults h
  rw [(skipped_of_fault hp).2, List.flatMap_append, List.flatMap_cons, Text.size_append,
    Text.size_append]
  constructor <;> dsimp only <;> omega

/-- Among spans that have nothing else to do with the pieces, those of their faults leave what is
kept of them. -/
theorem without_skipped {spans : List Span} {offset : Nat} {ps : List Piece}
    (hin : ∀ e ∈ faults offset ps, e.skipped ∈ spans)
    (hout : ∀ s ∈ spans, s.offset + s.length ≤ offset ∨
      offset + Text.size (ps.flatMap source) ≤ s.offset ∨ ∃ e ∈ faults offset ps, e.skipped = s) :
    Text.without spans offset (ps.flatMap source) = ps.flatMap kept := by
  induction ps generalizing offset with
  | nil => rfl
  | cons p ps ih =>
    rw [List.flatMap_cons, Text.size_append] at hout
    have htail : Text.without spans (offset + Text.size p.source) (ps.flatMap source) =
        ps.flatMap kept := by
      refine ih (fun e he => hin e (List.mem_append_right _ he)) fun s hs => ?_
      rcases hout s hs with hbefore | hafter | ⟨e, he, rfl⟩
      · exact .inl (by omega)
      · exact .inr (.inl (by omega))
      · rcases List.mem_append.mp he with he | he
        · rw [(skipped_of_fault (Option.mem_toList.mp he)).2]
          exact .inl (Nat.le_refl _)
        · exact .inr (.inr ⟨e, he, rfl⟩)
    have hhead : Text.without spans offset p.source = p.kept := by
      cases hp : p.fault? offset with
      | none =>
        rw [kept_of_no_fault hp]
        refine Text.without_apart fun s hs => ?_
        rcases hout s hs with hbefore | hafter | ⟨e, he, rfl⟩
        · exact .inl hbefore
        · exact .inr (by omega)
        · rw [faults, hp] at he
          exact .inr (skipped_inside he).1
      | some e =>
        obtain ⟨hkept, hskipped⟩ := skipped_of_fault hp
        have hmem : e.skipped ∈ spans := hin e (List.mem_append_left _ (by simp [hp]))
        rw [hskipped] at hmem
        rw [hkept]
        exact Text.without_covered hmem (Nat.le_refl _) (Nat.le_refl _)
    rw [List.flatMap_cons, List.flatMap_cons, Text.without_append, hhead, htail]

end Piece
end BraceTemplate
