import BraceTemplate.Template

namespace BraceTemplate

/-- Decoding finds the text that has the bytes, and no other. -/
theorem Text.fromUTF8?_eq_some {bytes : List UInt8} {s : String} :
    String.fromUTF8? ⟨bytes.toArray⟩ = some s ↔ utf8 s = bytes := by
  unfold String.fromUTF8? utf8
  split
  · rw [Option.some_inj, ← String.toByteArray_inj, String.toUTF8_eq_toByteArray]
    constructor
    · intro h
      rw [← h]
      rfl
    · rintro rfl
      rfl
  · rename_i hinvalid
    constructor
    · intro h
      cases h
    · rintro rfl
      exact absurd s.isValidUTF8 hinvalid

theorem Text.fromUTF8?_eq_none {bytes : List UInt8} :
    String.fromUTF8? ⟨bytes.toArray⟩ = none ↔ ∀ s, utf8 s ≠ bytes := by
  simp only [Option.eq_none_iff_forall_ne_some, ne_eq, fromUTF8?_eq_some]

namespace ReadAnswer

/-- The error with which an answer ends the reading. An interrupted call is made again. -/
def fatal? : ReadAnswer → Option IoError
  | deliver _ _ => none
  | fail error => if error.kind = .interrupted then none else some error

def bytes : ReadAnswer → List UInt8
  | deliver first rest => first :: rest
  | fail _ => []

/-- A fatal answer ends the reading, and the bytes of any other come before all later ones. -/
theorem readAll_cons (answer : ReadAnswer) (later : List ReadAnswer) :
    readAll (answer :: later) =
      match answer.fatal? with
      | some error => .error error
      | none => (readAll later).map (answer.bytes ++ ·) := by
  cases answer with
  | deliver first rest => rfl
  | fail error =>
    -- an interrupted call brings no bytes, so that it can stand among the others
    by_cases h : error.kind = .interrupted
    · simp only [readAll, fatal?, h, if_true, bytes, List.nil_append]
      cases readAll later <;> rfl
    · simp only [readAll, fatal?, h, if_false]

/-- The first fatal answer is the outcome, and without one the bytes of all answers are. -/
theorem readAll_eq (answers : List ReadAnswer) :
    readAll answers =
      match answers.findSome? fatal? with
      | some error => .error error
      | none => .ok (answers.flatMap bytes) := by
  induction answers with
  | nil => rfl
  | cons answer later ih =>
    rw [readAll_cons, List.findSome?_cons]
    cases answer.fatal? with
    | some error => rfl
    | none =>
      simp only [ih, List.flatMap_cons]
      cases later.findSome? fatal? <;> rfl

variable {answers others : List ReadAnswer}

/-- A text is read if nothing fails, and it is the one that has the bytes of all answers. -/
theorem readText_eq_ok {s : String} :
    readText answers = .ok s ↔
      answers.findSome? fatal? = none ∧ Text.utf8 s = answers.flatMap bytes := by
  rw [readText, readAll_eq, ← Text.fromUTF8?_eq_some]
  cases answers.findSome? fatal? with
  | some error => simp
  | none => cases h : String.fromUTF8? ⟨(answers.flatMap bytes).toArray⟩ <;> simp [h]

/-- A failure comes before the bytes are looked at. -/
theorem readText_eq_error {error : IoError} :
    readText answers = .error error ↔
      answers.findSome? fatal? = some error ∨
        answers.findSome? fatal? = none ∧ (∀ s, Text.utf8 s ≠ answers.flatMap bytes) ∧
          error = notText := by
  rw [readText, readAll_eq, ← Text.fromUTF8?_eq_none]
  cases answers.findSome? fatal? with
  | some error => simp
  | none => cases h : String.fromUTF8? ⟨(answers.flatMap bytes).toArray⟩ <;> simp [h, eq_comm]

/-- Only the first failure matters, and the bytes where nothing fails. -/
theorem readText_congr (hfatal : others.findSome? fatal? = answers.findSome? fatal?)
    (hbytes : answers.findSome? fatal? = none → others.flatMap bytes = answers.flatMap bytes) :
    readText others = readText answers := by
  rw [readText, readText, readAll_eq, readAll_eq, hfatal]
  cases h : answers.findSome? fatal? with
  | some error => rfl
  | none => rw [hbytes h]

end ReadAnswer

namespace Template

theorem read_of_text {answers : List ReadAnswer} {source : String} (options : Options)
    (h : ReadAnswer.readText answers = .ok source) :
    read answers options = (compile source options).mapError .compile := by
  simp only [read, h]
  cases compile source options <;> rfl

theorem read_of_error {answers : List ReadAnswer} {error : IoError} (options : Options)
    (h : ReadAnswer.readText answers = .error error) :
    read answers options = .error (.read error) := by
  rw [read, h]

/-- Reading a template ends with the first failure, whatever came before it. Where nothing fails,
the bytes of all answers together are compiled as one text in UTF-8, or refused if they are none.
So it does not matter where the bytes are cut, or how often a call is interrupted. -/
theorem read_in_pieces (answers : List ReadAnswer) (options : Options) :
    (∀ error, answers.findSome? ReadAnswer.fatal? = some error →
      read answers options = .error (.read error)) ∧
    (answers.findSome? ReadAnswer.fatal? = none →
      (∀ source, Text.utf8 source = answers.flatMap ReadAnswer.bytes →
        read answers options = (compile source options).mapError .compile ∧
        ∀ data, (read answers options).map (·.render data) =
          ((compile source options).map (·.render data)).mapError .compile) ∧
      ((∀ source, Text.utf8 source ≠ answers.flatMap ReadAnswer.bytes) →
        read answers options =
          .error (.read ⟨.invalidData, "stream did not contain valid UTF-8"⟩))) ∧
    ∀ others : List ReadAnswer,
      others.findSome? ReadAnswer.fatal? = answers.findSome? ReadAnswer.fatal? →
      (answers.findSome? ReadAnswer.fatal? = none →
        others.flatMap ReadAnswer.bytes = answers.flatMap ReadAnswer.bytes) →
      read others options = read answers options := by
  refine ⟨?_, ?_, ?_⟩
  · intro error hfatal
    exact read_of_error options (ReadAnswer.readText_eq_error.mpr (.inl hfatal))
  · intro hfatal
    constructor
    · intro source hsource
      have hread := read_of_text options (ReadAnswer.readText_eq_ok.mpr ⟨hfatal, hsource⟩)
      refine ⟨hread, fun data => ?_⟩
      rw [hread]
      cases compile source options <;> rfl
    · intro hnone
      exact read_of_error options (ReadAnswer.readText_eq_error.mpr (.inr ⟨hfatal, hnone, rfl⟩))
  · intro others hfatal hbytes
    rw [read, read, ReadAnswer.readText_congr hfatal hbytes]

/-- A pair of braces and a character are cut. Half a character is no text, and what comes behind
whole ones may still fail. -/
theorem read_in_pieces_cut :
    let answers : List ReadAnswer := [.deliver 0x7B [], .fail ⟨.interrupted, ""⟩,
      .deliver 0x7B [0xC3], .deliver 0xA9 [0x7D, 0x7D]]
    let half : List ReadAnswer := [.deliver 0xC3 []]
    let failure : IoError := ⟨.other "BrokenPipe", "closed"⟩
    answers.findSome? ReadAnswer.fatal? = none ∧
      Text.utf8 "{{é}}" = answers.flatMap ReadAnswer.bytes ∧
      read answers .default = (compile "{{é}}" .default).mapError .compile ∧
      read half .default = .error (.read ReadAnswer.notText) ∧
      read (answers ++ [.fail failure]) .default = .error (.read failure) := by
  intro answers half failure
  have hfatal : answers.findSome? ReadAnswer.fatal? = none := by decide
  have hbytes : Text.utf8 "{{é}}" = answers.flatMap ReadAnswer.bytes := by decide
  have hhalf : ∀ s, Text.utf8 s ≠ half.flatMap ReadAnswer.bytes :=
    Text.fromUTF8?_eq_none.mp (by decide)
  have hfailure : (answers ++ [ReadAnswer.fail failure]).findSome? ReadAnswer.fatal? =
      some failure := by
    decide
  exact ⟨hfatal, hbytes, (((read_in_pieces answers .default).2.1 hfatal).1 _ hbytes).1,
    ((read_in_pieces half .default).2.1 (by decide)).2 hhalf,
    (read_in_pieces _ .default).1 _ hfailure⟩

end Template
end BraceTemplate
