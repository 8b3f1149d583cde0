import BraceTemplate.Path
import Mathlib.Data.List.Basic

namespace BraceTemplate

namespace Text

def Blank (cs : List Char) : Prop := ∀ c ∈ cs, isBlank c = true

structure Trimmed (cs : List Char) : Prop where
  front : ∀ c ∈ cs.head?, isBlank c = false
  back : ∀ c ∈ cs.getLast?, isBlank c = false

theorem trimStart_append {u : List Char} (hu : Blank u) (cs : List Char) :
    trimStart (u ++ cs) = trimStart cs :=
  List.dropWhile_append_of_pos hu

theorem trimStart_of_blank {u : List Char} (hu : Blank u) : trimStart u = [] := by
  have h := trimStart_append hu []
  rwa [List.append_nil] at h

theorem trimStart_eq_self {cs : List Char} (h : ∀ c ∈ cs.head?, isBlank c = false) :
    trimStart cs = cs := by
  cases cs with
  | nil => rfl
  | cons c cs =>
    have hc : isBlank c = false := h c rfl
    exact List.dropWhile_cons_of_neg (by simp [hc])

theorem exists_trimStart (cs : List Char) : ∃ u, Blank u ∧ cs = u ++ trimStart cs := by
  refine ⟨cs.takeWhile isBlank, ?_, List.takeWhile_append_dropWhile.symm⟩
  exact List.all_eq_true.mp List.all_takeWhile

theorem trimStart_front (cs : List Char) : ∀ c ∈ (trimStart cs).head?, isBlank c = false := by
  intro c hc
  have hstop := List.head?_dropWhile_not isBlank cs
  rw [← trimStart, Option.mem_def.mp hc] at hstop
  exact hstop

theorem trimEnd_eq (cs : List Char) : trimEnd cs = (trimStart cs.reverse).reverse := rfl

/-- Blanks around trimmed text go, and nothing else. -/
theorem trimChars_append {u v cs : List Char} (hu : Blank u) (hv : Blank v) (h : Trimmed cs) :
    trimChars (u ++ (cs ++ v)) = cs := by
  have hv' : Blank v.reverse := fun c hc => hv c (List.mem_reverse.mp hc)
  rw [trimChars, trimStart_append hu]
  cases cs with
  | nil =>
    rw [List.nil_append, trimStart_of_blank hv]
    rfl
  | cons c cs =>
    have hback : ∀ d ∈ (c :: cs).reverse.head?, isBlank d = false := by
      rw [List.head?_reverse]
      exact h.back
    have hfront : trimStart (c :: cs ++ v) = c :: cs ++ v := trimStart_eq_self h.front
    rw [hfront, trimEnd_eq, List.reverse_append, trimStart_append hv', trimStart_eq_self hback,
      List.reverse_reverse]

theorem exists_trimEnd (cs : List Char) : ∃ v, Blank v ∧ cs = trimEnd cs ++ v := by
  obtain ⟨v, hv, hcs⟩ := exists_trimStart cs.reverse
  refine ⟨v.reverse, fun c hc => hv c (List.mem_reverse.mp hc), ?_⟩
  rw [trimEnd_eq, ← List.reverse_append, ← hcs, List.reverse_reverse]

theorem exists_trimChars (cs : List Char) :
    ∃ u v, Blank u ∧ Blank v ∧ cs = u ++ (trimChars cs ++ v) := by
  obtain ⟨u, hu, hcs⟩ := exists_trimStart cs
  obtain ⟨v, hv, hend⟩ := exists_trimEnd (trimStart cs)
  refine ⟨u, v, hu, hv, ?_⟩
  rw [trimChars, ← hend]
  exact hcs

theorem trimmed_trimChars (cs : List Char) : Trimmed (trimChars cs) := by
  constructor
  · -- what the end loses stands behind the first character that stays
    intro c hc
    obtain ⟨v, hv, hend⟩ := exists_trimEnd (trimStart cs)
    apply trimStart_front cs c
    rw [hend]
    exact List.mem_head?_append_of_mem_head? hc
  · intro c hc
    rw [trimChars, trimEnd_eq, List.getLast?_reverse] at hc
    exact trimStart_front _ c hc

/-- Trimming finds the trimmed text that only blanks surround. -/
theorem trimChars_eq_iff {cs ds : List Char} :
    trimChars cs = ds ↔ Trimmed ds ∧ ∃ u v, Blank u ∧ Blank v ∧ cs = u ++ (ds ++ v) := by
  constructor
  · intro he
    subst he
    exact ⟨trimmed_trimChars cs, exists_trimChars cs⟩
  · intro h
    obtain ⟨h, u, v, hu, hv, rfl⟩ := h
    exact trimChars_append hu hv h

theorem trim_eq_self_iff {s : String} : trim s = s ↔ Trimmed s.toList := by
  rw [trim, ← String.toList_inj, String.toList_ofList]
  constructor
  · intro h
    exact (trimChars_eq_iff.mp h).1
  · intro h
    exact trimChars_eq_iff.mpr ⟨h, [], [], by simp [Blank], by simp [Blank], by simp⟩

theorem trim_trim (s : String) : trim (trim s) = trim s := by
  rw [trim_eq_self_iff, trim, String.toList_ofList]
  exact trimmed_trimChars s.toList

theorem trim_append {u v : List Char} (hu : Blank u) (hv : Blank v) {s : String}
    (h : trim s = s) : trim (String.ofList (u ++ (s.toList ++ v))) = s := by
  rw [trim, String.toList_ofList, trimChars_append hu hv (trim_eq_self_iff.mp h),
    String.ofList_toList]

theorem trim_infix (s : String) : (trim s).toList <:+: s.toList := by
  obtain ⟨u, v, -, -, hs⟩ := exists_trimChars s.toList
  rw [trim, String.toList_ofList]
  exact ⟨u, v, by rw [List.append_assoc]; exact hs.symm⟩

end Text

namespace Path

/-- A path is told by its trimmed text. -/
theorem parse_congr {e e' : String} (h : Text.trim e = Text.trim e') : parse e = parse e' := by
  rw [parse, parse, h]

theorem parse_raw (e : String) : parse (parse e).raw = parse e := parse_congr (Text.trim_trim e)

end Path
end BraceTemplate
