namespace BraceTemplate.Text

/-- The number of bytes that the characters take in UTF-8. -/
def size : List Char → Nat
  | [] => 0
  | c :: cs => c.utf8Size + size cs

@[simp] theorem size_append (cs ds : List Char) : size (cs ++ ds) = size cs + size ds := by
  induction cs with
  | nil => simp [size]
  | cons c cs ih => simp [size, ih, Nat.add_assoc]

theorem size_ofList (cs : List Char) : (String.ofList cs).utf8ByteSize = size cs := by
  induction cs with
  | nil => rfl
  | cons c cs ih =>
    rw [show String.ofList (c :: cs) = String.singleton c ++ String.ofList cs from by
      simp, String.utf8ByteSize_append, ih]
    simp [size]

theorem size_toList (s : String) : size s.toList = s.utf8ByteSize := by
  rw [← size_ofList, String.ofList_toList]

end BraceTemplate.Text
