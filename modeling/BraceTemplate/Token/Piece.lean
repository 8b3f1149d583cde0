import BraceTemplate.CompileError
import BraceTemplate.Token

namespace BraceTemplate

inductive Piece
  | literal (cs : List Char)
  | tag (fence : Fence) (body : List Char)
  | emptyTag (fence : Fence)
  | unclosedTag (fence : Fence) (body : List Char)
  | braces
deriving DecidableEq, Repr

namespace Piece

/-- The characters that the piece takes. Three braces before a fourth are given up alone: the
fourth may open a tag. -/
def source : Piece → List Char
  | literal cs => cs
  | tag f body => f.opening ++ body ++ f.closing
  | emptyTag f => f.opening ++ f.closing
  | unclosedTag f body => f.opening ++ body
  | braces => Fence.triple.opening

theorem toList_doubleTag (body : String) :
    (doubleTag body).toList = (tag .double body.toList).source := by
  simp [doubleTag, source]

def cutAtClosing (n : Nat) : List Char → Option (List Char × List Char)
  | [] => none
  | c :: cs =>
    if (List.replicate n '}').isPrefixOf (c :: cs) then some ([], (c :: cs).drop n)
    else (cutAtClosing n cs).map (fun (body, rest) => (c :: body, rest))

/-- The piece behind an opening fence. A fence at the end of the template is literal text. -/
def afterOpening (f : Fence) (cs : List Char) : Piece × List Char :=
  if cs.isEmpty then (literal f.opening, [])
  else
    match cutAtClosing f.width cs with
    | none => (unclosedTag f cs, [])
    | some ([], rest) => (emptyTag f, rest)
    | some (body, rest) => (tag f body, rest)

def read : List Char → Option (Piece × List Char)
  | [] => none
  | '{' :: '{' :: '{' :: '{' :: cs => some (braces, '{' :: cs)
  | '{' :: '{' :: '{' :: cs => some (afterOpening .triple cs)
  | '{' :: '{' :: cs => some (afterOpening .double cs)
  | c :: cs => some (literal [c], cs)

theorem cutAtClosing_eq {n : Nat} {cs body rest : List Char}
    (h : cutAtClosing n cs = some (body, rest)) :
    cs = body ++ List.replicate n '}' ++ rest := by
  induction cs generalizing body with
  | nil => simp [cutAtClosing] at h
  | cons c cs ih =>
    unfold cutAtClosing at h
    split at h
    · rename_i hp
      obtain ⟨ds, hd⟩ := List.isPrefixOf_iff_prefix.mp hp
      obtain ⟨rfl, rfl⟩ := Prod.mk.inj (Option.some.inj h)
      simp [← hd]
    · obtain ⟨⟨b, r⟩, hc, he⟩ := Option.map_eq_some_iff.mp h
      obtain ⟨rfl, rfl⟩ := Prod.mk.inj he
      simp [ih hc]

/-- Nothing that stands behind a fence is lost. -/
theorem afterOpening_source (f : Fence) (cs : List Char) :
    (afterOpening f cs).1.source ++ (afterOpening f cs).2 = f.opening ++ cs := by
  unfold afterOpening
  split
  · simp_all [source]
  · split
    · simp [source]
    · rename_i rest hc
      simp [source, cutAtClosing_eq hc, Fence.closing]
    · rename_i body rest _ hc
      simp [source, cutAtClosing_eq hc, Fence.closing]

/-- Reading a piece loses nothing. -/
theorem read_source {cs rest : List Char} {p : Piece} (h : read cs = some (p, rest)) :
    cs = p.source ++ rest := by
  unfold read at h
  split at h
  · cases h
  · obtain ⟨rfl, rfl⟩ := Prod.mk.inj (Option.some.inj h)
    rfl
  · rename_i ds _
    have he := afterOpening_source .triple ds
    rw [Option.some.inj h] at he
    exact he.symm
  · rename_i ds _ _
    have he := afterOpening_source .double ds
    rw [Option.some.inj h] at he
    exact he.symm
  · obtain ⟨rfl, rfl⟩ := Prod.mk.inj (Option.some.inj h)
    rfl

theorem afterOpening_source_ne_nil (f : Fence) (cs : List Char) :
    (afterOpening f cs).1.source ≠ [] := by
  unfold afterOpening
  split
  · cases f <;> simp [source, Fence.opening, Fence.width]
  · split <;> cases f <;> simp [source, Fence.opening, Fence.width]

theorem read_source_ne_nil {cs rest : List Char} {p : Piece} (h : read cs = some (p, rest)) :
    p.source ≠ [] := by
  unfold read at h
  split at h
  · cases h
  · obtain ⟨rfl, rfl⟩ := Prod.mk.inj (Option.some.inj h)
    simp [source, Fence.opening, Fence.width]
  · rename_i ds _
    have hn := afterOpening_source_ne_nil .triple ds
    rwa [Option.some.inj h] at hn
  · rename_i ds _ _
    have hn := afterOpening_source_ne_nil .double ds
    rwa [Option.some.inj h] at hn
  · obtain ⟨rfl, rfl⟩ := Prod.mk.inj (Option.some.inj h)
    simp [source]

theorem read_length_lt {cs rest : List Char} {p : Piece} (h : read cs = some (p, rest)) :
    rest.length < cs.length := by
  have hn := List.length_pos_iff.mpr (read_source_ne_nil h)
  rw [read_source h, List.length_append]
  omega

def ofChars (cs : List Char) : List Piece :=
  match _h : read cs with
  | none => []
  | some (p, rest) => p :: ofChars rest
termination_by cs.length
decreasing_by exact read_length_lt _h

theorem ofChars_nil : ofChars [] = [] := by
  rw [ofChars]
  rfl

theorem ofChars_of_read {cs rest : List Char} {p : Piece} (h : read cs = some (p, rest)) :
    ofChars cs = p :: ofChars rest := by
  rw [ofChars]
  split <;> simp_all

theorem read_eq_none {cs : List Char} (h : read cs = none) : cs = [] := by
  unfold read at h
  split at h <;> simp_all

/-- The pieces make up the template. -/
theorem flatMap_source_ofChars (cs : List Char) : (ofChars cs).flatMap source = cs := by
  fun_induction ofChars cs with
  | case1 cs h => simp [read_eq_none h]
  | case2 cs p rest h ih => simp [ih, read_source h]

end Piece
end BraceTemplate
