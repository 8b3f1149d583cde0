import BraceTemplate.Text.Html
import BraceTemplate.Text.Size

namespace BraceTemplate.Text

/-- The characters that can open or close a tag or a quoted attribute. -/
def isMark (c : Char) : Bool := c ∈ ['<', '>', '"', '\'']

def marks (cs : List Char) : List Char := cs.filter isMark

theorem of_plain {c : Char} (h : needsEscape c = false) :
    c.toNat ≤ 159 ∧ isMark c = false ∧ c ≠ '&' := by
  simp only [needsEscape, Bool.or_eq_false_iff, decide_eq_false_iff_not, List.mem_cons,
    List.not_mem_nil, or_false, not_or] at h
  obtain ⟨⟨hlt, hgt, hquot, hapos, hamp⟩, hlow⟩ := h
  refine ⟨Nat.not_lt.mp hlow, ?_, hamp⟩
  simp [isMark, hlt, hgt, hquot, hapos]

theorem plain_of_isDigit {c : Char} (h : c.isDigit = true) : needsEscape c = false := by
  obtain ⟨-, hle⟩ := Char.isDigit_iff_toNat.mp h
  have hlow : c.toNat ≤ 159 := Nat.le_trans hle (by decide)
  rw [needsEscape, Bool.or_eq_false_iff, decide_eq_false_iff_not, decide_eq_false_iff_not]
  refine ⟨?_, Nat.not_lt.mpr hlow⟩
  intro hmem
  simp only [List.mem_cons, List.not_mem_nil, or_false] at hmem
  rcases hmem with rfl | rfl | rfl | rfl | rfl <;> cases h

/-- The entities that escaped text is made of: five by name, and code points above U+009F by
number. -/
inductive Entity : List Char → Prop
  | named (name : String) (h : name ∈ ["lt", "gt", "quot", "apos", "amp"]) :
      Entity ('&' :: (name.toList ++ [';']))
  | numbered {c : Char} (h : 159 < c.toNat) :
      Entity ('&' :: '#' :: (Nat.toDigits 10 c.toNat ++ [';']))

/-- Text up to U+009F without any mark, in which every ampersand starts an entity. -/
structure Inert (cs : List Char) : Prop where
  low : ∀ c ∈ cs, c.toNat ≤ 159
  unmarked : ∀ c ∈ cs, isMark c = false
  entity : ∀ before after, cs = before ++ '&' :: after → ∃ e, Entity e ∧ e <+: '&' :: after

namespace Inert

variable {cs ds : List Char}

theorem nil : Inert [] := by
  refine ⟨by simp, by simp, ?_⟩
  intro before after h
  simp at h

theorem append (hc : Inert cs) (hd : Inert ds) : Inert (cs ++ ds) := by
  refine ⟨?_, ?_, ?_⟩
  · exact List.forall_mem_append.mpr ⟨hc.low, hd.low⟩
  · exact List.forall_mem_append.mpr ⟨hc.unmarked, hd.unmarked⟩
  · intro before after h
    rcases List.append_eq_append_iff.mp h with ⟨between, rfl, hds⟩ | ⟨between, rfl, hafter⟩
    · exact hd.entity between after hds
    · cases between with
      | nil => exact hd.entity [] after hafter.symm
      | cons c between =>
        obtain ⟨rfl, rfl⟩ := List.cons.inj hafter
        obtain ⟨e, he, hfront⟩ := hc.entity before between rfl
        exact ⟨e, he, hfront.trans (List.prefix_append _ _)⟩

theorem marks_eq_nil (h : Inert cs) : marks cs = [] := by
  apply List.filter_eq_nil_iff.mpr
  intro c hc
  simp [h.unmarked c hc]

theorem singleton {c : Char} (h : needsEscape c = false) : Inert [c] := by
  obtain ⟨hlow, hmark, hc⟩ := of_plain h
  refine ⟨by simpa using hlow, by simpa using hmark, ?_⟩
  intro before after h
  have hmem : '&' ∈ [c] := by simp [h]
  exact absurd (List.mem_singleton.mp hmem).symm hc

theorem of_entity {body : List Char} (he : Entity ('&' :: body))
    (hbody : ∀ c ∈ body, needsEscape c = false) : Inert ('&' :: body) := by
  refine ⟨?_, ?_, ?_⟩
  · exact List.forall_mem_cons.mpr ⟨by decide, fun c hc => (of_plain (hbody c hc)).1⟩
  · exact List.forall_mem_cons.mpr ⟨by decide, fun c hc => (of_plain (hbody c hc)).2.1⟩
  · intro before after h
    cases before with
    | nil =>
      rw [List.nil_append] at h
      exact ⟨_, he, h ▸ List.prefix_rfl⟩
    | cons c before =>
      obtain ⟨-, rfl⟩ := List.cons.inj h
      exact absurd rfl (of_plain (hbody '&' (by simp))).2.2

end Inert

theorem Entity.inert {e : List Char} (h : Entity e) : Inert e := by
  cases h with
  | named name hname =>
    refine Inert.of_entity (.named name hname) ?_
    simp only [List.mem_cons, List.not_mem_nil, or_false] at hname
    rcases hname with rfl | rfl | rfl | rfl | rfl <;> simp [needsEscape]
  | @numbered c hc =>
    refine Inert.of_entity (.numbered hc) ?_
    intro d hd
    rcases List.mem_cons.mp hd with rfl | hd
    · decide
    rcases List.mem_append.mp hd with hd | hd
    · exact plain_of_isDigit (Nat.isDigit_of_mem_toDigits (by decide) (by decide) hd)
    · obtain rfl := List.mem_singleton.mp hd
      decide

/-- A character that cannot stand for itself becomes one entity. -/
theorem entity_htmlChar {c : Char} (h : needsEscape c = true) : Entity (htmlChar c) := by
  unfold htmlChar
  split
  · exact .named "lt" (by simp)
  · exact .named "gt" (by simp)
  · exact .named "quot" (by simp)
  · exact .named "apos" (by simp)
  · exact .named "amp" (by simp)
  · have hhigh : 159 < c.toNat := by simp_all [needsEscape]
    rw [if_pos hhigh]
    exact .numbered hhigh

/-- A character is written as it is or as an entity. -/
theorem inert_htmlChar (c : Char) : Inert (htmlChar c) := by
  cases h : needsEscape c with
  | true => exact (entity_htmlChar h).inert
  | false =>
    rw [htmlChar_of_plain h]
    exact .singleton h

/-- Escaped text opens and closes nothing. -/
theorem inert_escapeHtml (s : String) : Inert (escapeHtml s).toList := by
  rw [toList_escapeHtml]
  generalize s.toList = cs
  induction cs with
  | nil => exact Inert.nil
  | cons c cs ih =>
    rw [List.flatMap_cons]
    exact (inert_htmlChar c).append ih

theorem marks_append (cs ds : List Char) : marks (cs ++ ds) = marks cs ++ marks ds :=
  List.filter_append ..

end BraceTemplate.Text
