import BraceTemplate.Proofs.ScanResults
import BraceTemplate.Token.Stream
import Mathlib.Data.List.Pairwise

namespace BraceTemplate

namespace TokenStream

inductive Call
  | next
  | resume
deriving DecidableEq, Repr

def call (s : TokenStream) : Call → ScanAnswer × TokenStream
  | .next => s.next
  | .resume => s.resume

def trace (s : TokenStream) : List Call → List (Call × ScanAnswer) × TokenStream
  | [] => ([], s)
  | c :: cs =>
    let (answer, after) := s.call c
    let (answers, last) := after.trace cs
    ((c, answer) :: answers, last)

/-- The answers of the calls that reach the scanner. Once `next` has told a fault, only those of
`resume` do. -/
def readings : List (Call × ScanAnswer) → List ScanAnswer
  | [] => []
  | (.next, .error e) :: answers => .error e :: (answers.filter (·.1 = .resume)).map Prod.snd
  | (_, answer) :: answers => answer :: readings answers

/-- Once `next` has told a fault, it finds the template at its end. -/
def EndsAtFault (earlier later : Call × ScanAnswer) : Prop :=
  earlier.1 = .next → (∃ e, earlier.2 = .error e) → later.1 = .next → later.2 = .ok none

theorem trace_resume (s : TokenStream) (k : Nat) :
    ∃ answers : List ScanAnswer, answers.length = k ∧
      (s.trace (List.replicate k .resume)).1 = answers.map (Prod.mk .resume) ∧
      s.scanner.Reads answers (s.trace (List.replicate k .resume)).2.scanner := by
  induction k generalizing s with
  | zero => exact ⟨[], rfl, rfl, .nil _⟩
  | succ k ih =>
    obtain ⟨answers, hlength, htrace, hreads⟩ := ih ⟨s.scanner.next.2, s.ended⟩
    refine ⟨s.scanner.next.1 :: answers, by rw [List.length_cons, hlength], ?_, hreads.cons⟩
    rw [List.map_cons, ← htrace]
    rfl

/-- A stream that has ended answers `next` without reading on. -/
theorem trace_ended {s : TokenStream} (h : s.ended = true) (calls : List Call) :
    (∀ answer, (.next, answer) ∈ (s.trace calls).1 → answer = .ok none) ∧
      s.scanner.Reads (((s.trace calls).1.filter (·.1 = .resume)).map Prod.snd)
        (s.trace calls).2.scanner := by
  induction calls generalizing s with
  | nil => exact ⟨by simp [trace], .nil _⟩
  | cons c cs ih =>
    cases c with
    | next =>
      have hcall : s.call .next = (.ok none, s) := by simp [call, next, h]
      obtain ⟨hnext, hreads⟩ := ih h
      rw [trace, hcall]
      refine ⟨fun answer hmem => ?_, hreads⟩
      rcases List.mem_cons.mp hmem with hmem | hmem
      · exact (Prod.mk.inj hmem).2
      · exact hnext answer hmem
    | resume =>
      obtain ⟨hnext, hreads⟩ := ih (s := ⟨s.scanner.next.2, s.ended⟩) h
      refine ⟨fun answer hmem => ?_, hreads.cons⟩
      rcases List.mem_cons.mp hmem with hmem | hmem
      · cases (Prod.mk.inj hmem).1
      · exact hnext answer hmem

/-- Whatever the calls are, those that reach the scanner read on one after the other. -/
theorem trace_reads {s : TokenStream} (h : s.ended = false) (calls : List Call) :
    s.scanner.Reads (readings (s.trace calls).1) (s.trace calls).2.scanner ∧
      (s.trace calls).1.Pairwise EndsAtFault := by
  induction calls generalizing s with
  | nil => exact ⟨.nil _, .nil⟩
  | cons c cs ih =>
    cases c with
    | resume =>
      obtain ⟨hreads, hpairs⟩ := ih (s := ⟨s.scanner.next.2, s.ended⟩) h
      refine ⟨hreads.cons, List.pairwise_cons.mpr ⟨fun later _ hcall => ?_, hpairs⟩⟩
      cases hcall
    | next =>
      have hcons {answers : List ScanAnswer} {last : Scanner} :=
        @Scanner.Reads.cons s.scanner last answers
      rcases hread : s.scanner.next with ⟨answer, scanner⟩
      rw [hread] at hcons
      cases answer with
      | ok token =>
        have hcall : s.call .next = (.ok token, ⟨scanner, s.ended⟩) := by
          simp [call, next, h, hread]
        obtain ⟨hreads, hpairs⟩ := ih (s := ⟨scanner, s.ended⟩) h
        rw [trace, hcall]
        refine ⟨hcons hreads, List.pairwise_cons.mpr ⟨fun later _ _ hfault => ?_, hpairs⟩⟩
        obtain ⟨e, he⟩ := hfault
        cases he
      | error e =>
        have hcall : s.call .next = (.error e, ⟨scanner, true⟩) := by
          simp [call, next, h, hread]
        obtain ⟨hnext, hreads⟩ := trace_ended (s := ⟨scanner, true⟩) rfl cs
        have hend : ∀ later ∈ (trace ⟨scanner, true⟩ cs).1,
            later.1 = .next → later.2 = .ok none := by
          rintro ⟨c, answer⟩ hmem rfl
          exact hnext answer hmem
        rw [trace, hcall]
        refine ⟨hcons hreads, List.pairwise_cons.mpr ⟨fun later hmem _ _ => hend later hmem, ?_⟩⟩
        exact List.pairwise_of_forall_mem_list fun _ _ later hmem _ _ => hend later hmem

end TokenStream

namespace Piece

theorem source_ne_nil_of_mem {cs : List Char} {p : Piece} (h : p ∈ ofChars cs) :
    p.source ≠ [] := by
  fun_induction ofChars cs with
  | case1 cs hread => cases h
  | case2 cs first rest hread ih =>
    rcases List.mem_cons.mp h with rfl | h
    · exact read_source_ne_nil hread
    · exact ih h

end Piece

/-- The results of a template give it back, but for what is given up with the faults. A tag stands
at its own place, with what has been read before it in front of it. -/
structure Recovers (cs : List Char) (results : List ScanResult) : Prop where
  text : Text.without ((faultsAmong results).map CompileError.skipped) 0 cs =
    (tokensAmong results).flatMap Token.source
  faults : ∀ e ∈ faultsAmong results, ∃ u w v, cs = u ++ (w ++ v) ∧
    e.skipped = ⟨Text.size u, Text.size w⟩ ∧
    (e.fault = .emptyExpression ∨ e.fault = .unclosedExpression ∨
      (e.fault = .tooManyBraces ∧ w = Fence.triple.opening ∧ e.span.offset = Text.size (u ++ w)))
  tags : ∀ before t later f, results = before ++ .ok t :: later → t.kind = .tag f →
    ∃ u v, cs = u ++ (t.source ++ v) ∧ t.span = ⟨Text.size u, Text.size t.source⟩ ∧
      Text.without ((faultsAmong results).map CompileError.skipped) 0 u =
        (tokensAmong before).flatMap Token.source

theorem recovers_resultsOf (ps : List Piece) :
    Recovers (ps.flatMap Piece.source) (Scanner.resultsOf ps 0 none) := by
  have hfaults := Scanner.faults_resultsOf ps 0 none
  refine ⟨?_, ?_, ?_⟩
  · rw [hfaults, Scanner.source_resultsOf]
    refine Piece.without_skipped (fun e he => List.mem_map_of_mem he) fun s hs => ?_
    obtain ⟨e, he, rfl⟩ := List.mem_map.mp hs
    exact .inr (.inr ⟨e, he, rfl⟩)
  · intro e he
    rw [hfaults] at he
    obtain ⟨before, p, after, rfl, hp⟩ := Piece.exists_of_mem_faults he
    rw [Nat.zero_add] at hp
    refine ⟨before.flatMap Piece.source, p.source, after.flatMap Piece.source,
      by rw [List.flatMap_append, List.flatMap_cons], (Piece.skipped_of_fault hp).2, ?_⟩
    cases p with
    | literal | tag => cases hp
    | emptyTag f =>
      obtain rfl := Option.some.inj hp
      exact .inl rfl
    | unclosedTag f body =>
      obtain rfl := Option.some.inj hp
      exact .inr (.inl rfl)
    | braces =>
      obtain rfl := Option.some.inj hp
      exact .inr (.inr ⟨rfl, rfl, by rw [Text.size_append]; rfl⟩)
  · intro before t later f hresults ht
    obtain ⟨qs, body, rs, rfl, rfl, hbefore⟩ := Scanner.exists_tag_piece ht hresults
    rw [hfaults, hbefore]
    refine ⟨qs.flatMap Piece.source, rs.flatMap Piece.source, ?_, ?_, ?_⟩
    · rw [List.flatMap_append, List.flatMap_cons, source_ofTag]
    · rw [source_ofTag, Nat.zero_add]
      rfl
    · -- the faults behind the tag give up nothing that stands before it
      refine Piece.without_skipped (fun e he => ?_) fun s hs => ?_
      · rw [Piece.faults_append]
        exact List.mem_map_of_mem (List.mem_append_left _ he)
      · obtain ⟨e, he, rfl⟩ := List.mem_map.mp hs
        rw [Piece.faults_append] at he
        rcases List.mem_append.mp he with he | he
        · exact .inr (.inr ⟨e, he, rfl⟩)
        · exact .inr (.inl (Piece.skipped_inside he).1)

/-- A template can be read on behind its faults. The answers are one sequence of results, no more
than the template has characters, and nothing but its end behind them; the results give the template
back. Calls of both kinds in any order read on in this sequence, but for those of `next` behind a
fault that `next` has told: they find the end, and read nothing. -/
theorem scanning_resumes (s : String) :
    ∃ results : List ScanResult,
      (∀ k, ((TokenStream.start s).trace (List.replicate k .resume)).1 =
        (List.range k).map fun i => (.resume, answerAt results i)) ∧
      results.length ≤ s.length ∧
      Recovers s.toList results ∧
      ∀ calls : List TokenStream.Call,
        let t := (TokenStream.start s).trace calls
        (∃ n, TokenStream.readings t.1 = (List.range n).map (answerAt results) ∧
          t.2.scanner = (Scanner.start s).after n) ∧
        t.1.Pairwise TokenStream.EndsAtFault := by
  refine ⟨(Scanner.start s).results, ?_, ?_, ?_, ?_⟩
  · intro k
    obtain ⟨answers, rfl, htrace, hreads⟩ := (TokenStream.start s).trace_resume k
    rw [htrace]
    conv => lhs; rw [hreads.told, List.map_map]
    rfl
  · have hsource : ∀ p ∈ Piece.ofChars s.toList, p.source ≠ [] :=
      fun _ hp => Piece.source_ne_nil_of_mem hp
    have hlength := Scanner.length_resultsOf_le hsource 0 none
    rw [Piece.flatMap_source_ofChars, String.length_toList] at hlength
    exact hlength.trans_eq (Nat.zero_add _)
  · have hrecovers := recovers_resultsOf (Piece.ofChars s.toList)
    rwa [Piece.flatMap_source_ofChars] at hrecovers
  · intro calls t
    obtain ⟨hreads, hpairs⟩ := TokenStream.trace_reads (s := .start s) rfl calls
    exact ⟨⟨_, hreads.told, hreads.behind⟩, hpairs⟩

/-- Text in front of a fault is handed out together with the text behind it. -/
example : ((TokenStream.start "a{{}}b").trace [.next, .next, .resume]).1 =
    [(.next, .error ⟨.emptyExpression, ⟨1, 4⟩⟩), (.next, .ok none),
      (.resume, .ok (some ⟨.text, "ab", ⟨0, 2⟩⟩))] := by
  decide +kernel

end BraceTemplate
