import BraceTemplate.Decimal.Reading
import BraceTemplate.Proofs.EscapedText
import Mathlib.Data.List.TakeWhile

namespace BraceTemplate.Text

/-- The character that stands behind what an entity has between its ampersand and its semicolon. -/
def entityChar (name : List Char) : Char :=
  match name with
  | '#' :: digits => Char.ofNat (Decimal.ofDigits digits)
  | _ =>
    match String.ofList name with
    | "lt" => '<'
    | "gt" => '>'
    | "quot" => '"'
    | "apos" => '\''
    | _ => '&'

/-- Reads escaped text back. An entity goes from an ampersand to the next semicolon. -/
def unescapeChars : List Char → List Char
  | [] => []
  | c :: cs =>
    if c = '&' then
      entityChar (cs.takeWhile (· != ';')) :: unescapeChars ((cs.dropWhile (· != ';')).drop 1)
    else c :: unescapeChars cs
termination_by cs => cs.length
decreasing_by
  · have hdrop := List.length_dropWhile_le (· != ';') cs
    rw [List.length_drop, List.length_cons]
    omega
  · exact Nat.lt_succ_self _

theorem unescapeChars_plain {c : Char} (h : c ≠ '&') (rest : List Char) :
    unescapeChars (c :: rest) = c :: unescapeChars rest := by
  rw [unescapeChars, if_neg h]

/-- An entity is read as one character, whatever stands behind its semicolon. -/
theorem unescapeChars_entity {name : List Char} (h : ';' ∉ name) (rest : List Char) :
    unescapeChars ('&' :: (name ++ ';' :: rest)) = entityChar name :: unescapeChars rest := by
  have hname : ∀ c ∈ name, (c != ';') = true := by
    intro c hc
    rw [bne_iff_ne]
    rintro rfl
    exact h hc
  rw [unescapeChars, if_pos rfl, List.takeWhile_append_of_pos hname,
    List.dropWhile_append_of_pos hname]
  simp

/-- The number of a character ends at the semicolon behind its digits. -/
theorem semicolon_not_mem_toDigits (n : Nat) : ';' ∉ '#' :: Nat.toDigits 10 n := by
  intro h
  rcases List.mem_cons.mp h with h | h
  · cases h
  · cases Nat.isDigit_of_mem_toDigits (by decide) (by decide) h

/-- Whatever follows it, the text of a character is read back as that character. -/
theorem unescapeChars_htmlChar (c : Char) (rest : List Char) :
    unescapeChars (htmlChar c ++ rest) = c :: unescapeChars rest := by
  unfold htmlChar
  split
  · exact unescapeChars_entity (show ';' ∉ "lt".toList by decide) rest
  · exact unescapeChars_entity (show ';' ∉ "gt".toList by decide) rest
  · exact unescapeChars_entity (show ';' ∉ "quot".toList by decide) rest
  · exact unescapeChars_entity (show ';' ∉ "apos".toList by decide) rest
  · exact unescapeChars_entity (show ';' ∉ "amp".toList by decide) rest
  · rename_i hamp
    split
    · have hread := unescapeChars_entity (semicolon_not_mem_toDigits c.toNat) rest
      rw [entityChar, Decimal.ofDigits_toDigits, Char.ofNat_toNat] at hread
      simpa using hread
    · exact unescapeChars_plain hamp rest

/-- Escaped text can be read back. -/
theorem unescapeChars_escapeHtml (s : String) :
    unescapeChars (escapeHtml s).toList = s.toList := by
  rw [toList_escapeHtml]
  induction s.toList with
  | nil => rw [List.flatMap_nil, unescapeChars]
  | cons c cs ih => rw [List.flatMap_cons, unescapeChars_htmlChar, ih]

theorem one_lt_length_htmlChar {c : Char} (h : needsEscape c = true) :
    1 < (htmlChar c).length := by
  have he := entity_htmlChar h
  generalize htmlChar c = e at he
  cases he <;> simp

theorem length_le_length_flatMap_htmlChar (cs : List Char) :
    cs.length ≤ (cs.flatMap htmlChar).length := by
  induction cs with
  | nil => exact Nat.le_refl 0
  | cons c cs ih =>
    have hc : 0 < (htmlChar c).length := by
      cases h : needsEscape c with
      | true => exact Nat.lt_of_succ_lt (one_lt_length_htmlChar h)
      | false => simp [htmlChar_of_plain h]
    rw [List.flatMap_cons, List.length_append, List.length_cons]
    omega

/-- Text that is the same once it is escaped has nothing to escape: no entity is as short as the
character it stands for. -/
theorem flatMap_htmlChar_eq_self_iff {cs : List Char} :
    cs.flatMap htmlChar = cs ↔ ∀ c ∈ cs, needsEscape c = false := by
  refine ⟨fun h => ?_, flatMap_htmlChar_of_plain⟩
  induction cs with
  | nil => simp
  | cons c cs ih =>
    rw [List.flatMap_cons] at h
    have hplain : needsEscape c = false := by
      by_contra hc
      have hlong := one_lt_length_htmlChar (eq_true_of_ne_false hc)
      have hrest := length_le_length_flatMap_htmlChar cs
      have hlength := congrArg List.length h
      rw [List.length_append, List.length_cons] at hlength
      omega
    rw [htmlChar_of_plain hplain, List.singleton_append, List.cons.injEq] at h
    exact List.forall_mem_cons.mpr ⟨hplain, ih h.2⟩

theorem needsEscape_eq_false_iff {c : Char} :
    needsEscape c = false ↔ c ∉ ['<', '>', '"', '\'', '&'] ∧ c.toNat ≤ 0x9F := by
  rw [needsEscape, Bool.or_eq_false_iff, decide_eq_false_iff_not, decide_eq_false_iff_not,
    Nat.not_lt]

/-- A text is handed on as it is where rewriting all of it would not change it. -/
theorem rewriteHtml?_eq_none {s : String} :
    rewriteHtml? s = none ↔ s.toList.flatMap htmlChar = s.toList := by
  refine ⟨flatMap_htmlChar_of_kept, fun h => ?_⟩
  have hplain : ∀ c ∈ s.toList, (!needsEscape c) = true := by
    simpa using flatMap_htmlChar_eq_self_iff.mp h
  rw [rewriteHtml?, List.dropWhile_eq_nil_iff.mpr hplain]

/-- Whatever is written anew is changed by that. -/
theorem rewriteHtml?_eq_some {s t : String} :
    rewriteHtml? s = some t ↔ t.toList = s.toList.flatMap htmlChar ∧ t ≠ s := by
  constructor
  · intro h
    refine ⟨toList_of_rewritten h, ?_⟩
    rintro rfl
    cases h.symm.trans (rewriteHtml?_eq_none.mpr (toList_of_rewritten h).symm)
  · rintro ⟨ht, hne⟩
    cases h : rewriteHtml? s with
    | none =>
      exact absurd (String.toList_inj.mp (ht.trans (rewriteHtml?_eq_none.mp h))) hne
    | some u => rw [String.toList_inj.mp ((toList_of_rewritten h).trans ht.symm)]

/-- Escaping loses nothing: no two texts are the same once they are escaped. Text stays as it is
exactly if it has none of the characters that are escaped. It is handed on without being written
anew exactly where rewriting every character would not change it; what is written anew differs, and
the outcome is always that of rewriting every character. -/
theorem escapeHtml_lossless :
    (∀ s t : String, escapeHtml s = escapeHtml t ↔ s = t) ∧
    (∀ s : String, escapeHtml s = s ↔
      ∀ c ∈ s.toList, c ∉ ['<', '>', '"', '\'', '&'] ∧ c.toNat ≤ 0x9F) ∧
    (∀ s : String, rewriteHtml? s = none ↔ s.toList.flatMap htmlChar = s.toList) ∧
    (∀ s t : String, rewriteHtml? s = some t ↔
      t.toList = s.toList.flatMap htmlChar ∧ t ≠ s) ∧
    ∀ s : String, (escapeHtml s).toList = s.toList.flatMap htmlChar := by
  refine ⟨?_, ?_, fun _ => rewriteHtml?_eq_none, fun _ _ => rewriteHtml?_eq_some,
    toList_escapeHtml⟩
  · intro s t
    refine ⟨fun h => ?_, congrArg escapeHtml⟩
    rw [← String.toList_inj, ← unescapeChars_escapeHtml s, ← unescapeChars_escapeHtml t, h]
  · intro s
    rw [← String.toList_inj, toList_escapeHtml, flatMap_htmlChar_eq_self_iff]
    simp only [needsEscape_eq_false_iff]

end BraceTemplate.Text
