namespace BraceTemplate.Text

/-- A character as HTML text: the five reserved characters by name, and all above U+009F by
number. -/
def htmlChar (c : Char) : List Char :=
  match c with
  | '<' => "&lt;".toList
  | '>' => "&gt;".toList
  | '"' => "&quot;".toList
  | '\'' => "&apos;".toList
  | '&' => "&amp;".toList
  | c => if 159 < c.toNat then '&' :: '#' :: (Nat.toDigits 10 c.toNat ++ [';']) else [c]

def needsEscape (c : Char) : Bool := c ∈ ['<', '>', '"', '\'', '&'] || 159 < c.toNat

/-- The text as HTML text, written anew from the first character on that needs an escape. Where
there is none, nothing is written anew. -/
def rewriteHtml? (s : String) : Option String :=
  match s.toList.dropWhile (fun c => !needsEscape c) with
  | [] => none
  | rest =>
    some (String.ofList (s.toList.takeWhile (fun c => !needsEscape c) ++ rest.flatMap htmlChar))

/-- A text that is not written anew is handed on as it is. -/
def escapeHtml (s : String) : String := (rewriteHtml? s).getD s

theorem htmlChar_of_plain {c : Char} (h : needsEscape c = false) : htmlChar c = [c] := by
  simp only [needsEscape, Bool.or_eq_false_iff, decide_eq_false_iff_not] at h
  obtain ⟨hreserved, hlow⟩ := h
  unfold htmlChar
  split <;> simp_all

theorem flatMap_htmlChar_of_plain {cs : List Char} (h : ∀ c ∈ cs, needsEscape c = false) :
    cs.flatMap htmlChar = cs := by
  induction cs with
  | nil => rfl
  | cons c cs ih =>
    obtain ⟨hc, hcs⟩ := List.forall_mem_cons.mp h
    rw [List.flatMap_cons, htmlChar_of_plain hc, ih hcs]
    rfl

/-- What stands before the first escape stays as it is. -/
theorem flatMap_htmlChar_eq (cs : List Char) :
    cs.flatMap htmlChar = cs.takeWhile (fun c => !needsEscape c) ++
      (cs.dropWhile (fun c => !needsEscape c)).flatMap htmlChar := by
  have hfront : ∀ c ∈ cs.takeWhile (fun c => !needsEscape c), needsEscape c = false := by
    intro c hc
    simpa using List.all_eq_true.mp List.all_takeWhile c hc
  conv => lhs; rw [← List.takeWhile_append_dropWhile (p := fun c => !needsEscape c) (l := cs),
    List.flatMap_append, flatMap_htmlChar_of_plain hfront]

theorem flatMap_htmlChar_of_kept {s : String} (h : rewriteHtml? s = none) :
    s.toList.flatMap htmlChar = s.toList := by
  unfold rewriteHtml? at h
  split at h
  · rename_i hrest
    have hsplit := List.takeWhile_append_dropWhile (p := fun c => !needsEscape c) (l := s.toList)
    rwa [flatMap_htmlChar_eq, hrest, List.flatMap_nil, ← hrest]
  · cases h

theorem toList_of_rewritten {s t : String} (h : rewriteHtml? s = some t) :
    t.toList = s.toList.flatMap htmlChar := by
  unfold rewriteHtml? at h
  split at h
  · cases h
  · obtain rfl := Option.some.inj h
    rw [String.toList_ofList, flatMap_htmlChar_eq s.toList]

/-- Escaping goes character by character. -/
theorem toList_escapeHtml (s : String) : (escapeHtml s).toList = s.toList.flatMap htmlChar := by
  unfold escapeHtml
  cases h : rewriteHtml? s with
  | none => exact (flatMap_htmlChar_of_kept h).symm
  | some t => exact toList_of_rewritten h

/-- It does not matter where an escaped text is cut. -/
theorem escapeHtml_append (s t : String) : escapeHtml (s ++ t) = escapeHtml s ++ escapeHtml t := by
  apply String.toList_inj.mp
  simp only [toList_escapeHtml, String.toList_append, List.flatMap_append]

end BraceTemplate.Text
