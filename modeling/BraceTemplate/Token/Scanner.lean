import BraceTemplate.Token.Piece

namespace BraceTemplate

structure Held where
  start : Nat
  text : String
deriving DecidableEq, Repr

namespace Held

def token (h : Held) : Token := ⟨.text, h.text, ⟨h.start, h.text.utf8ByteSize⟩⟩

def add (held : Option Held) (offset : Nat) (cs : List Char) : Held :=
  match held with
  | none => ⟨offset, String.ofList cs⟩
  | some h => { h with text := h.text ++ String.ofList cs }

end Held

/-- A reader of tokens part-way through a template. Literal text is held until a tag or the end
of the template follows it; the tag then waits behind the text. -/
structure Scanner where
  pieces : List Piece
  offset : Nat
  held : Option Held
  waiting : Option Token
deriving DecidableEq, Repr

namespace Scanner

def start (template : String) : Scanner := ⟨Piece.ofChars template.toList, 0, none, none⟩

/-- Hands out a tag that ends before `pieces`, or the text held before it. -/
def emit (held : Option Held) (tag : Token) (pieces : List Piece) :
    Except CompileError (Option Token) × Scanner :=
  let after := tag.span.offset + tag.span.length
  match held with
  | none => (.ok (some tag), ⟨pieces, after, none, none⟩)
  | some h => (.ok (some h.token), ⟨pieces, after, none, some tag⟩)

/-- Reads pieces up to the next token, fault or end. After a fault the scanner stands behind the
faulty piece and still holds its text. -/
def scan : List Piece → Nat → Option Held → Except CompileError (Option Token) × Scanner
  | [], offset, held => (.ok (held.map Held.token), ⟨[], offset, none, none⟩)
  | .literal cs :: ps, offset, held =>
    scan ps (offset + Text.size cs) (some (Held.add held offset cs))
  | .tag fence body :: ps, offset, held =>
    let length := Text.size (Piece.tag fence body).source
    emit held ⟨.tag fence, String.ofList body, ⟨offset, length⟩⟩ ps
  | .emptyTag fence :: ps, offset, held =>
    let length := Text.size (Piece.emptyTag fence).source
    (.error ⟨.emptyExpression, ⟨offset, length⟩⟩, ⟨ps, offset + length, held, none⟩)
  | .unclosedTag fence body :: ps, offset, held =>
    let length := Text.size (Piece.unclosedTag fence body).source
    (.error ⟨.unclosedExpression, ⟨offset, length⟩⟩, ⟨ps, offset + length, held, none⟩)
  | .braces :: ps, offset, held =>
    let after := offset + Text.size Piece.braces.source
    (.error ⟨.tooManyBraces, ⟨after, 1⟩⟩, ⟨ps, after, held, none⟩)

def next (s : Scanner) : Except CompileError (Option Token) × Scanner :=
  match s.waiting with
  | some token => (.ok (some token), { s with waiting := none })
  | none => scan s.pieces s.offset s.held

/-- Bounds the number of answers still to come before the end. -/
def work (s : Scanner) : Nat :=
  2 * s.pieces.length + s.held.toList.length + s.waiting.toList.length

theorem work_emit (held : Option Held) (tag : Token) (pieces : List Piece) :
    (emit held tag pieces).2.work ≤ 2 * pieces.length + 1 := by
  cases held <;> simp [emit, work]

/-- Each token and each fault brings the end nearer. -/
theorem work_scan (pieces : List Piece) (offset : Nat) (held : Option Held)
    (h : (scan pieces offset held).1 ≠ .ok none) :
    (scan pieces offset held).2.work < 2 * pieces.length + held.toList.length := by
  fun_induction scan pieces offset held with
  | case1 offset held => cases held <;> simp_all [work]
  | case2 cs ps offset held ih =>
    have := ih h
    simp only [Option.toList_some, List.length_cons, List.length_nil] at this ⊢
    omega
  | case3 fence body ps offset held length =>
    have := work_emit held ⟨.tag fence, String.ofList body, ⟨offset, length⟩⟩ ps
    simp only [List.length_cons]
    omega
  | case4 | case5 | case6 =>
    simp only [work, Option.toList_none, List.length_cons, List.length_nil]
    omega

/-- Every answer but the last brings the end nearer. -/
theorem work_next {s : Scanner} (h : s.next.1 ≠ .ok none) : s.next.2.work < s.work := by
  unfold next at h ⊢
  split
  · rename_i hw
    simp [work, hw]
  · rename_i hw
    simp only [hw] at h
    simpa [work, hw] using work_scan s.pieces s.offset s.held h

def drain (s : Scanner) : List Token × Option CompileError :=
  match _h : s.next with
  | (.ok none, _) => ([], none)
  | (.ok (some token), after) =>
    let (tokens, fault) := drain after
    (token :: tokens, fault)
  | (.error fault, _) => ([], some fault)
termination_by s.work
decreasing_by
  have hw := work_next (s := s) (by simp [_h])
  rwa [_h] at hw

theorem drain_of_end {s after : Scanner} (h : s.next = (.ok none, after)) :
    s.drain = ([], none) := by
  rw [drain]
  split <;> simp_all

theorem drain_of_token {s after : Scanner} {token : Token}
    (h : s.next = (.ok (some token), after)) :
    s.drain = (token :: after.drain.1, after.drain.2) := by
  rw [drain]
  split <;> simp_all

theorem drain_of_fault {s after : Scanner} {fault : CompileError}
    (h : s.next = (.error fault, after)) : s.drain = ([], some fault) := by
  rw [drain]
  split <;> simp_all

end Scanner

/-- The tokens of a template, and the fault that cuts them short. -/
def tokenize (template : String) : List Token × Option CompileError :=
  (Scanner.start template).drain

end BraceTemplate
