import BraceTemplate.Proofs.SkippedText
import BraceTemplate.Proofs.Spelling
import Mathlib.Logic.Function.Iterate

namespace BraceTemplate

abbrev ScanResult := Except CompileError Token

abbrev ScanAnswer := Except CompileError (Option Token)

/-- The answer at an index of a list of results, behind which the template ends. -/
def answerAt (results : List ScanResult) (k : Nat) : ScanAnswer :=
  match results[k]? with
  | none => .ok none
  | some result => result.map some

theorem answerAt_succ (results : List ScanResult) (k : Nat) :
    answerAt results (k + 1) = answerAt results.tail k := by
  rw [answerAt, answerAt, List.getElem?_tail]

def tokensAmong (results : List ScanResult) : List Token := results.filterMap Except.toOption

def faultsAmong (results : List ScanResult) : List CompileError :=
  results.filterMap fun
    | .ok _ => none
    | .error e => some e

section

variable (rs qs : List ScanResult) (ts : List Token)

@[simp] theorem tokensAmong_append : tokensAmong (rs ++ qs) = tokensAmong rs ++ tokensAmong qs :=
  List.filterMap_append

@[simp] theorem tokensAmong_ok (t : Token) : tokensAmong (.ok t :: rs) = t :: tokensAmong rs := rfl

@[simp] theorem tokensAmong_map_ok : tokensAmong (ts.map .ok) = ts := by
  simp [tokensAmong, List.filterMap_map, Function.comp_def, Except.toOption]

@[simp] theorem faultsAmong_append : faultsAmong (rs ++ qs) = faultsAmong rs ++ faultsAmong qs :=
  List.filterMap_append

@[simp] theorem faultsAmong_ok (t : Token) : faultsAmong (.ok t :: rs) = faultsAmong rs := rfl

@[simp] theorem faultsAmong_map_ok : faultsAmong (ts.map .ok) = [] := by
  simp [faultsAmong]

end

namespace Held

def tokens (held : Option Held) : List Token := held.toList.map token

theorem kind_of_mem_tokens {held : Option Held} {t : Token} (h : t ∈ tokens held) :
    t.kind = .text := by
  obtain ⟨h, -, rfl⟩ := List.mem_map.mp h
  rfl

theorem source_add (held : Option Held) (offset : Nat) (cs : List Char) :
    (tokens (some (add held offset cs))).flatMap Token.source =
      (tokens held).flatMap Token.source ++ cs := by
  cases held <;> simp [tokens, add, token, Token.source]

end Held

namespace Scanner

/-- The results of pieces that begin at an offset behind held text, where a fault does not end the
reading. -/
def resultsOf : List Piece → Nat → Option Held → List ScanResult
  | [], _, held => (Held.tokens held).map .ok
  | p :: ps, offset, held =>
    match p with
    | .literal cs => resultsOf ps (offset + Text.size cs) (some (Held.add held offset cs))
    | .tag f body =>
      (Held.tokens held).map .ok ++ .ok (Token.ofTag offset f body) ::
        resultsOf ps (offset + Text.size (Piece.tag f body).source) none
    | .emptyTag _ | .unclosedTag _ _ | .braces =>
      (p.fault? offset).toList.map .error ++ resultsOf ps (offset + Text.size p.source) held

def results (s : Scanner) : List ScanResult :=
  s.waiting.toList.map .ok ++ resultsOf s.pieces s.offset s.held

/-- Reading on takes the first of the results that are left. -/
theorem scan_results (ps : List Piece) (offset : Nat) (held : Option Held) :
    (scan ps offset held).1 = answerAt (resultsOf ps offset held) 0 ∧
      (scan ps offset held).2.results = (resultsOf ps offset held).tail := by
  fun_induction scan ps offset held with
  | case1 offset held => cases held <;> exact ⟨rfl, rfl⟩
  | case2 cs ps offset held ih => exact ih
  | case3 fence body ps offset held length => cases held <;> exact ⟨rfl, rfl⟩
  | case4 | case5 | case6 => exact ⟨rfl, rfl⟩

/-- One reading tells the first result and leaves the others. -/
theorem next_results (s : Scanner) :
    s.next.1 = answerAt s.results 0 ∧ s.next.2.results = s.results.tail := by
  obtain ⟨pieces, offset, held, waiting⟩ := s
  cases waiting with
  | none => exact scan_results pieces offset held
  | some token => exact ⟨rfl, rfl⟩

def after (s : Scanner) (n : Nat) : Scanner := (fun s => s.next.2)^[n] s

/-- The answers are those of successive readings, which lead from one scanner to another. -/
structure Reads (s : Scanner) (answers : List ScanAnswer) (last : Scanner) : Prop where
  told : answers = (List.range answers.length).map (answerAt s.results)
  behind : last = s.after answers.length

theorem Reads.nil (s : Scanner) : s.Reads [] s := ⟨rfl, rfl⟩

theorem Reads.cons {s last : Scanner} {answers : List ScanAnswer}
    (h : s.next.2.Reads answers last) : s.Reads (s.next.1 :: answers) last := by
  obtain ⟨hanswer, hresults⟩ := s.next_results
  refine ⟨?_, h.behind⟩
  have hlater : (List.range answers.length).map (answerAt s.next.2.results) =
      (List.range answers.length).map (fun k => answerAt s.results (k + 1)) := by
    simp only [hresults, answerAt_succ]
  rw [List.length_cons, List.range_succ_eq_map, List.map_cons, List.map_map, ← hanswer]
  exact congrArg _ (h.told.trans hlater)

/-- The text of the tokens is what was held and what is kept of the pieces. -/
theorem source_resultsOf (ps : List Piece) (offset : Nat) (held : Option Held) :
    (tokensAmong (resultsOf ps offset held)).flatMap Token.source =
      (Held.tokens held).flatMap Token.source ++ ps.flatMap Piece.kept := by
  induction ps generalizing offset held with
  | nil => simp [resultsOf]
  | cons p ps ih =>
    rw [List.flatMap_cons]
    cases p with
    | literal cs => rw [resultsOf, ih, Held.source_add, Piece.kept, List.append_assoc]
    | tag f body =>
      rw [resultsOf, tokensAmong_append, tokensAmong_map_ok, tokensAmong_ok, List.flatMap_append,
        List.flatMap_cons, ih, source_ofTag]
      rfl
    | emptyTag | unclosedTag | braces => exact ih _ held

theorem faults_resultsOf (ps : List Piece) (offset : Nat) (held : Option Held) :
    faultsAmong (resultsOf ps offset held) = Piece.faults offset ps := by
  induction ps generalizing offset held with
  | nil => simp [resultsOf, Piece.faults]
  | cons p ps ih =>
    cases p with
    | literal cs => exact ih _ _
    | tag f body =>
      rw [resultsOf, faultsAmong_append, faultsAmong_map_ok, faultsAmong_ok, ih]
      rfl
    | emptyTag | unclosedTag | braces => exact congrArg _ (ih _ held)

/-- There are no more results than characters, held text counted. -/
theorem length_resultsOf_le {ps : List Piece} (h : ∀ p ∈ ps, p.source ≠ []) (offset : Nat)
    (held : Option Held) :
    (resultsOf ps offset held).length ≤
      (Held.tokens held).length + (ps.flatMap Piece.source).length := by
  induction ps generalizing offset held with
  | nil => simp [resultsOf]
  | cons p ps ih =>
    obtain ⟨hp, hps⟩ := List.forall_mem_cons.mp h
    have hpos := List.length_pos_iff.mpr hp
    rw [List.flatMap_cons, List.length_append]
    cases p with
    | literal cs =>
      have hrest := ih hps (offset + Text.size cs) (some (Held.add held offset cs))
      have hone : (Held.tokens (some (Held.add held offset cs))).length = 1 := rfl
      rw [resultsOf]
      omega
    | tag f body =>
      have hrest := ih hps (offset + Text.size (Piece.tag f body).source) none
      have hnone : (Held.tokens none).length = 0 := rfl
      rw [resultsOf, List.length_append, List.length_cons, List.length_map]
      omega
    | emptyTag | unclosedTag | braces =>
      rw [resultsOf, List.length_append]
      refine Nat.le_trans (Nat.add_le_add_left (ih hps _ held) 1) ?_
      omega

/-- A tag does not stand among the text that is held. -/
theorem eq_append_of_tag {held : Option Held} {results before later : List ScanResult} {t : Token}
    {f : Fence} (ht : t.kind = .tag f)
    (h : (Held.tokens held).map .ok ++ results = before ++ .ok t :: later) :
    ∃ rest, before = (Held.tokens held).map .ok ++ rest ∧ results = rest ++ .ok t :: later := by
  rcases List.append_eq_append_iff.mp h with ⟨rest, hbefore, hresults⟩ | ⟨rest, htext, hlater⟩
  · exact ⟨rest, hbefore, hresults⟩
  · cases rest with
    | nil => exact ⟨[], by simpa using htext.symm, by simpa using hlater.symm⟩
    | cons result rest =>
      obtain ⟨rfl, -⟩ := List.cons.inj hlater
      have hmem : (.ok t : ScanResult) ∈ (Held.tokens held).map .ok := by simp [htext]
      obtain ⟨u, hu, hut⟩ := List.mem_map.mp hmem
      obtain rfl := Except.ok.inj hut
      cases (Held.kind_of_mem_tokens hu).symm.trans ht

/-- A tag among the results is one of the pieces, at its own place. -/
theorem exists_tag_piece {ps : List Piece} {offset : Nat} {held : Option Held}
    {before later : List ScanResult} {t : Token} {f : Fence} (ht : t.kind = .tag f)
    (h : resultsOf ps offset held = before ++ .ok t :: later) :
    ∃ qs body rs, ps = qs ++ .tag f body :: rs ∧
      t = Token.ofTag (offset + Text.size (qs.flatMap Piece.source)) f body ∧
      (tokensAmong before).flatMap Token.source =
        (Held.tokens held).flatMap Token.source ++ qs.flatMap Piece.kept := by
  induction ps generalizing offset held before with
  | nil =>
    rw [resultsOf, ← List.append_nil ((Held.tokens held).map _)] at h
    obtain ⟨rest, -, hrest⟩ := eq_append_of_tag ht h
    simp at hrest
  | cons p ps ih =>
    cases p with
    | literal cs =>
      obtain ⟨qs, body, rs, rfl, rfl, hbefore⟩ := ih h
      refine ⟨.literal cs :: qs, body, rs, rfl, ?_, ?_⟩
      · rw [Piece.add_size_cons]
        rfl
      · rw [hbefore, Held.source_add, List.append_assoc]
        rfl
    | tag g body =>
      rw [resultsOf] at h
      obtain ⟨rest, rfl, hrest⟩ := eq_append_of_tag ht h
      cases rest with
      | nil =>
        obtain ⟨htag, -⟩ := List.cons.inj hrest
        obtain rfl := Except.ok.inj htag
        obtain rfl := TokenKind.tag.inj ht
        exact ⟨[], body, ps, rfl, rfl, by simp⟩
      | cons result rest =>
        obtain ⟨rfl, hlater⟩ := List.cons.inj hrest
        obtain ⟨qs, inner, rs, rfl, rfl, hbefore⟩ := ih hlater
        refine ⟨.tag g body :: qs, inner, rs, rfl, ?_, ?_⟩
        · rw [Piece.add_size_cons]
        · rw [tokensAmong_append, tokensAmong_map_ok, tokensAmong_ok, List.flatMap_append,
            List.flatMap_cons, hbefore, source_ofTag]
          rfl
    | emptyTag | unclosedTag | braces =>
      cases before with
      | nil => cases (List.cons.inj h).1
      | cons result before =>
        obtain ⟨rfl, hlater⟩ := List.cons.inj h
        obtain ⟨qs, body, rs, rfl, rfl, hbefore⟩ := ih hlater
        refine ⟨_ :: qs, body, rs, rfl, ?_, hbefore⟩
        rw [Piece.add_size_cons]

end Scanner

end BraceTemplate
