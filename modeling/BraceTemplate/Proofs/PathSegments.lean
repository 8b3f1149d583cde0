import BraceTemplate.Proofs.Trimming
import Mathlib.Data.List.Infix

namespace BraceTemplate

namespace Path

def Undotted (segments : List String) : Prop := ∀ s ∈ segments, '.' ∉ s.toList

theorem not_mem_of_mem_splitOn {mark : Char} {cs part : List Char} (h : part ∈ cs.splitOn mark) :
    mark ∉ part := by
  induction cs generalizing part with
  | nil => simp_all
  | cons c cs ih =>
    obtain ⟨first, others, hparts⟩ := List.exists_cons_of_ne_nil (List.splitOn_ne_nil mark cs)
    rw [List.splitOn_cons_eq_if_modifyHead, hparts] at h
    rw [hparts] at ih
    split at h
    · rcases List.mem_cons.mp h with rfl | h
      · exact List.not_mem_nil
      · exact ih h
    · rename_i hc
      have hne : mark ≠ c := fun he => hc (by simp [he])
      rcases List.mem_cons.mp h with rfl | h
      · exact fun hmem => (List.mem_cons.mp hmem).elim hne (ih (.head _))
      · exact ih (.tail _ h)

theorem dropThis_append (cs : List Char) : dropThis ("this.".toList ++ cs) = cs := by
  rw [dropThis, if_pos (List.isPrefixOf_iff_prefix.mpr (List.prefix_append _ _))]
  rfl

/-- A path has `this.` in front, or it stays as it is. -/
theorem dropThis_cases (cs : List Char) :
    cs = "this.".toList ++ dropThis cs ∨ (¬ "this.".toList <+: cs ∧ dropThis cs = cs) := by
  by_cases h : "this.".toList <+: cs
  · obtain ⟨rest, rfl⟩ := h
    exact .inl (by rw [dropThis_append])
  · exact .inr ⟨h, if_neg (mt List.isPrefixOf_iff_prefix.mp h)⟩

theorem dropThis_eq_nil_iff {cs : List Char} :
    dropThis cs = [] ↔ cs = [] ∨ cs = "this.".toList := by
  constructor
  · intro h
    rcases dropThis_cases cs with hcs | ⟨-, hcs⟩
    · rw [h, List.append_nil] at hcs
      exact .inr hcs
    · exact .inl (hcs.symm.trans h)
  · rintro (rfl | rfl) <;> rfl

theorem length_dropThis_le (cs : List Char) : (dropThis cs).length ≤ cs.length := by
  rcases dropThis_cases cs with h | ⟨-, h⟩
  · rw [congrArg List.length h, List.length_append]
    exact Nat.le_add_left _ _
  · rw [h]

/-- Four spellings name the scope itself. -/
theorem split_eq_nil_iff {cs : List Char} :
    split cs = [] ↔ String.ofList cs ∈ ["", "this", ".", "this."] := by
  have hsplit : split cs = [] ↔ cs = "this".toList ∨ cs = ".".toList ∨ dropThis cs = [] := by
    unfold split
    split
    · rename_i h
      exact iff_of_true rfl h
    · rename_i h
      exact iff_of_false (List.splitOn_ne_nil '.' _) h
  rw [hsplit, dropThis_eq_nil_iff]
  simp only [List.mem_cons, List.not_mem_nil, or_false, ← String.toList_inj, String.toList_ofList]
  grind

/-- The segments are what stands between the dots. -/
theorem split_eq_splitOn {cs : List Char} (h : split cs ≠ []) :
    split cs = (dropThis cs).splitOn '.' := by
  unfold split at h ⊢
  split
  · rename_i hthis
    exact absurd (if_pos hthis) h
  · rfl

theorem segments_parse (e : String) :
    (parse e).segments = (split (Text.trim e).toList).map String.ofList := by
  rw [parse]

theorem segments_eq_nil_iff {e : String} :
    (parse e).segments = [] ↔ Text.trim e ∈ ["", "this", ".", "this."] := by
  rw [segments_parse, List.map_eq_nil_iff, split_eq_nil_iff, String.ofList_toList]

theorem undotted_segments (e : String) : Undotted (parse e).segments := by
  intro s hs
  rw [segments_parse] at hs
  obtain ⟨part, hpart, rfl⟩ := List.mem_map.mp hs
  rw [split_eq_splitOn (List.ne_nil_of_mem hpart)] at hpart
  rw [String.toList_ofList]
  exact not_mem_of_mem_splitOn hpart

theorem toList_dotted (segments : List String) :
    (".".intercalate segments).toList = ['.'].intercalate (segments.map String.toList) :=
  String.toList_intercalate

/-- With the dots between them the segments make up the path again. -/
theorem dotted_segments {e : String} (h : (parse e).segments ≠ []) :
    (".".intercalate (parse e).segments).toList = dropThis (Text.trim e).toList := by
  rw [segments_parse, Ne, List.map_eq_nil_iff] at h
  rw [toList_dotted, segments_parse, split_eq_splitOn h, List.map_map]
  simp [Function.comp_def, List.intercalate_splitOn]

/-- The segments are the trimmed text less one `this.` in front of it. -/
theorem dotted_segments_cases {e : String} (h : (parse e).segments ≠ []) :
    Text.trim e = "this." ++ ".".intercalate (parse e).segments ∨
      ((∀ rest, Text.trim e ≠ "this." ++ rest) ∧
        ".".intercalate (parse e).segments = Text.trim e) := by
  have hdotted := dotted_segments h
  rcases dropThis_cases (Text.trim e).toList with hcs | ⟨hfront, hcs⟩
  · left
    rw [← String.toList_inj, String.toList_append, hdotted]
    exact hcs
  · right
    refine ⟨fun rest hrest => hfront ⟨rest.toList, ?_⟩, ?_⟩
    · rw [hrest, String.toList_append]
    · rw [hcs] at hdotted
      exact String.toList_inj.mp hdotted

/-- Segments without dots are found again between the dots. -/
theorem splitOn_dotted {segments : List String} (h : Undotted segments) (hne : segments ≠ []) :
    (".".intercalate segments).toList.splitOn '.' = segments.map String.toList := by
  rw [toList_dotted]
  refine List.splitOn_intercalate '.' (fun part hpart => ?_) (mt List.map_eq_nil_iff.mp hne)
  obtain ⟨s, hs, rfl⟩ := List.mem_map.mp hpart
  exact h s hs

/-- Segments without dots can be told from their joined text. -/
theorem dotted_injective {segments others : List String} (h : Undotted segments)
    (hne : segments ≠ []) (h' : Undotted others) (hne' : others ≠ [])
    (he : ".".intercalate segments = ".".intercalate others) : segments = others := by
  have hparts := splitOn_dotted h hne
  rw [he, splitOn_dotted h' hne'] at hparts
  exact List.map_injective_iff.mpr (fun _ _ => String.toList_injective) hparts.symm

/-- A text that ends in no blank stays whole behind `this.`. -/
theorem trim_this_append {s : String} (hne : s ≠ "")
    (hend : ∀ c ∈ s.toList.getLast?, Text.isBlank c = false) :
    Text.trim ("this." ++ s) = "this." ++ s := by
  rw [Text.trim_eq_self_iff, String.toList_append]
  constructor
  · simp [Text.isBlank, Text.blankRanges]
  · rwa [List.getLast?_append_of_ne_nil _ (by simpa using hne)]

/-- Behind `this.` segments are found again also where they would be taken for the scope itself, or
where the first of them begins with a blank. -/
theorem segments_parse_this {segments : List String} (h : Undotted segments)
    (hne : ".".intercalate segments ≠ "")
    (hend : ∀ c ∈ (".".intercalate segments).toList.getLast?, Text.isBlank c = false) :
    (parse ("this." ++ ".".intercalate segments)).segments = segments := by
  have hraw := trim_this_append hne hend
  have hsome : (parse ("this." ++ ".".intercalate segments)).segments ≠ [] := by
    rw [Ne, segments_eq_nil_iff, hraw]
    simpa [← String.toList_inj] using hne
  have hdotted := dotted_segments hsome
  rw [hraw, String.toList_append, dropThis_append] at hdotted
  refine dotted_injective (undotted_segments _) hsome h ?_ (String.toList_inj.mp hdotted)
  rintro rfl
  exact hne rfl

/-- Segments are found again in their own text if it has no blanks around it, and is taken neither
for the scope itself nor for a path behind `this.`. -/
theorem segments_parse_dotted_iff {segments : List String} (h : Undotted segments)
    (hne : segments ≠ []) :
    (parse (".".intercalate segments)).segments = segments ↔
      Text.trim (".".intercalate segments) = ".".intercalate segments ∧
        ".".intercalate segments ∉ ["", "this", ".", "this."] ∧
          ¬ "this.".toList <+: (".".intercalate segments).toList := by
  constructor
  · intro hparse
    have hsome : (parse (".".intercalate segments)).segments ≠ [] := hparse.symm ▸ hne
    have hdotted := dotted_segments hsome
    rw [hparse] at hdotted
    -- all of the text comes back, so nothing was taken off
    have htrim := (Text.trim_infix (".".intercalate segments)).eq_of_length_le
      ((congrArg List.length hdotted).trans_le (length_dropThis_le _))
    rw [htrim] at hdotted
    have hraw := String.toList_inj.mp htrim
    refine ⟨hraw, fun hthis => hsome (segments_eq_nil_iff.mpr (hraw.symm ▸ hthis)), ?_⟩
    rintro ⟨rest, hrest⟩
    rw [← hrest, dropThis_append] at hdotted
    exact absurd (List.append_left_eq_self.mp hdotted) (by decide)
  · rintro ⟨hraw, hthis, hfront⟩
    have hsome : (parse (".".intercalate segments)).segments ≠ [] := by
      rw [Ne, segments_eq_nil_iff, hraw]
      exact hthis
    have hdotted := dotted_segments hsome
    rw [hraw] at hdotted
    rcases dropThis_cases (".".intercalate segments).toList with hcs | ⟨-, hcs⟩
    · exact absurd ⟨_, hcs.symm⟩ hfront
    · rw [hcs] at hdotted
      exact dotted_injective (undotted_segments _) hsome h hne (String.toList_inj.mp hdotted)

theorem dotted_mem_iff {segments : List String} (h : Undotted segments) (hne : segments ≠ []) :
    ".".intercalate segments ∈ ["", "this", ".", "this."] ↔
      segments ∈ [[""], ["this"], ["", ""], ["this", ""]] := by
  have hspecial : ["", "this", ".", "this."] =
      [[""], ["this"], ["", ""], ["this", ""]].map (".".intercalate ·) := by simp
  rw [hspecial]
  constructor
  · intro hmem
    obtain ⟨others, hothers, he⟩ := List.mem_map.mp hmem
    have hundotted : others ≠ [] ∧ Undotted others := by
      simp only [List.mem_cons, List.not_mem_nil, or_false] at hothers
      rcases hothers with rfl | rfl | rfl | rfl <;> simp [Undotted]
    rw [dotted_injective h hne hundotted.2 hundotted.1 he.symm]
    exact hothers
  · exact List.mem_map_of_mem

theorem prefix_dotted_iff {segments : List String} (h : Undotted segments) (hne : segments ≠ []) :
    "this.".toList <+: (".".intercalate segments).toList ↔
      ∃ others, others ≠ [] ∧ segments = "this" :: others := by
  constructor
  · rintro ⟨rest, hrest⟩
    have hothers : (rest.splitOn '.').map String.ofList ≠ [] :=
      mt List.map_eq_nil_iff.mp (List.splitOn_ne_nil '.' rest)
    refine ⟨_, hothers, dotted_injective h hne ?_ (by simp) ?_⟩
    · refine List.forall_mem_cons.mpr ⟨by decide, fun s hs => ?_⟩
      obtain ⟨part, hpart, rfl⟩ := List.mem_map.mp hs
      rw [String.toList_ofList]
      exact not_mem_of_mem_splitOn hpart
    · rw [String.intercalate_cons_of_ne_nil hothers, ← String.toList_inj, ← hrest,
        String.toList_append, toList_dotted, List.map_map]
      simp [Function.comp_def, List.intercalate_splitOn]
  · rintro ⟨others, hothers, rfl⟩
    rw [String.intercalate_cons_of_ne_nil hothers, String.toList_append]
    exact List.prefix_append _ _

theorem dotted_ne_empty {e : String} (h : (parse e).segments ≠ []) :
    ".".intercalate (parse e).segments ≠ "" := by
  intro hempty
  apply h
  rw [segments_eq_nil_iff]
  rcases dotted_segments_cases h with htrim | ⟨-, htrim⟩
  · rw [htrim, hempty]
    decide
  · rw [← htrim, hempty]
    decide

/-- The segments end where the trimmed text does. -/
theorem dotted_end {e : String} (h : (parse e).segments ≠ []) :
    ∀ c ∈ (".".intercalate (parse e).segments).toList.getLast?, Text.isBlank c = false := by
  intro c hc
  apply (Text.trim_eq_self_iff.mp (Text.trim_trim e)).back c
  rcases dotted_segments_cases h with htrim | ⟨-, htrim⟩
  · simp only [htrim, String.toList_append]
    exact List.mem_getLast?_append_of_mem_getLast? hc
  · rw [← htrim]
    exact hc

end Path

/-- What a path text is cut into. Its segments hold no dots and make up the trimmed text again, less
one `this.` in front, unless the text names the scope itself; the lists that are cut out of some
text, and those that are cut out of their own. -/
theorem segments_of_paths :
    (∀ e : String, Path.Undotted (Path.parse e).segments ∧
      ((Path.parse e).segments = [] ↔ Text.trim e ∈ ["", "this", ".", "this."]) ∧
      ((Path.parse e).segments ≠ [] →
        Text.trim e = "this." ++ ".".intercalate (Path.parse e).segments ∨
          ((∀ rest, Text.trim e ≠ "this." ++ rest) ∧
            ".".intercalate (Path.parse e).segments = Text.trim e))) ∧
    (∀ segments : List String, (∃ e, (Path.parse e).segments = segments) ↔
      segments = [] ∨ (Path.Undotted segments ∧ ".".intercalate segments ≠ "" ∧
        ∀ c ∈ (".".intercalate segments).toList.getLast?, Text.isBlank c = false)) ∧
    ∀ segments : List String, segments ≠ [] → Path.Undotted segments →
      ((Path.parse (".".intercalate segments)).segments = segments ↔
        Text.Trimmed (".".intercalate segments).toList ∧ segments ∉ [[""], ["", ""]] ∧
          segments.head? ≠ some "this") := by
  refine ⟨fun e => ⟨Path.undotted_segments e, Path.segments_eq_nil_iff,
    Path.dotted_segments_cases⟩, ?_, ?_⟩
  · intro segments
    constructor
    · rintro ⟨e, rfl⟩
      by_cases hne : (Path.parse e).segments = []
      · exact .inl hne
      · exact .inr ⟨Path.undotted_segments e, Path.dotted_ne_empty hne, Path.dotted_end hne⟩
    · rintro (rfl | ⟨h, hne, hend⟩)
      · exact ⟨"", Path.segments_eq_nil_iff.mpr (by decide)⟩
      · exact ⟨_, Path.segments_parse_this h hne hend⟩
  · intro segments hne h
    rw [Path.segments_parse_dotted_iff h hne, Path.dotted_mem_iff h hne,
      Path.prefix_dotted_iff h hne, Text.trim_eq_self_iff]
    refine and_congr_right fun _ => ?_
    -- what is left of the rule on `this` is the list of `this` alone and those that go on behind it
    cases segments with
    | nil => exact absurd rfl hne
    | cons first others => grind

/-- A path with `this` behind `this.`, and segments that blanks or nothing stand between. -/
theorem segments_of_paths_padded :
    let e := " this.this..a "
    let segments := ["", "a ", " b", ""]
    ((Path.parse e).segments = ["this", "", "a"] ∧ (Path.parse e).segments ≠ [] ∧
      (Text.trim e = "this." ++ ".".intercalate (Path.parse e).segments ∨
        ((∀ rest, Text.trim e ≠ "this." ++ rest) ∧
          ".".intercalate (Path.parse e).segments = Text.trim e))) ∧
    segments ≠ [] ∧ Path.Undotted segments ∧
      ((Path.parse (".".intercalate segments)).segments = segments ↔
        Text.Trimmed (".".intercalate segments).toList ∧ segments ∉ [[""], ["", ""]] ∧
          segments.head? ≠ some "this") := by
  intro e segments
  have hparse : (Path.parse e).segments = ["this", "", "a"] := by decide +kernel
  have hsome : (Path.parse e).segments ≠ [] := by simp [hparse]
  have hne : segments ≠ [] := by simp [segments]
  have hundotted : Path.Undotted segments := by simp [Path.Undotted, segments]
  exact ⟨⟨hparse, hsome, (segments_of_paths.1 e).2.2 hsome⟩, hne, hundotted,
    segments_of_paths.2.2 segments hne hundotted⟩

end BraceTemplate
