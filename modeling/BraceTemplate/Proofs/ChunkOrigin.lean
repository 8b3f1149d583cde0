import BraceTemplate.Proofs.EscapedText
import BraceTemplate.Proofs.Observation

namespace BraceTemplate

namespace Node

mutual

/-- All nodes of a tree, whether they are reached or not. -/
def parts : Node → List Node
  | text s => [text s]
  | escaped p => [escaped p]
  | unescaped p => [unescaped p]
  | container ns => container ns :: partsAll ns
  | ifBlock p body otherwise => ifBlock p body otherwise :: (body.parts ++ otherwise.parts)
  | unlessBlock p body otherwise => unlessBlock p body otherwise :: (body.parts ++ otherwise.parts)
  | eachBlock p body => eachBlock p body :: body.parts
  | withBlock p body => withBlock p body :: body.parts

def partsAll : List Node → List Node
  | [] => []
  | n :: ns => n.parts ++ partsAll ns

end

/-- While the first node is written in the first context, the second is written in the second. -/
inductive Reaches : Node → Context → Node → Context → Prop
  | here (n : Node) (c : Context) : Reaches n c n c
  | child {ns : List Node} {n m : Node} {c d : Context} (mem : n ∈ ns) (inside : Reaches n c m d) :
      Reaches (container ns) c m d
  | ifBody {p : Path} {body otherwise m : Node} {c d : Context} (truthy : c.isTruthy p = true)
      (inside : Reaches body c m d) : Reaches (ifBlock p body otherwise) c m d
  | ifOtherwise {p : Path} {body otherwise m : Node} {c d : Context} (falsy : c.isTruthy p = false)
      (inside : Reaches otherwise c m d) : Reaches (ifBlock p body otherwise) c m d
  | unlessBody {p : Path} {body otherwise m : Node} {c d : Context} (falsy : c.isTruthy p = false)
      (inside : Reaches body c m d) : Reaches (unlessBlock p body otherwise) c m d
  | unlessOtherwise {p : Path} {body otherwise m : Node} {c d : Context}
      (truthy : c.isTruthy p = true) (inside : Reaches otherwise c m d) :
      Reaches (unlessBlock p body otherwise) c m d
  | turn {p : Path} {body m : Node} {c d : Context} {s : Scope} (mem : s ∈ c.turns p)
      (inside : Reaches body (c.push s) m d) : Reaches (eachBlock p body) c m d
  | inner {p : Path} {body m : Node} {c d : Context} {s : Scope} (scope : c.inner? p = some s)
      (inside : Reaches body (c.push s) m d) : Reaches (withBlock p body) c m d

theorem mem_parts_self (n : Node) : n ∈ n.parts := by
  cases n <;> simp [parts]

theorem mem_partsAll {ns : List Node} {n m : Node} (hn : n ∈ ns) (hm : m ∈ n.parts) :
    m ∈ partsAll ns := by
  induction ns with
  | nil => simp at hn
  | cons first ns ih =>
    rw [partsAll, List.mem_append]
    rcases List.mem_cons.mp hn with rfl | hn
    · exact .inl hm
    · exact .inr (ih hn)

/-- What is reached is a part of the tree. -/
theorem Reaches.mem_parts {n m : Node} {c d : Context} (h : Reaches n c m d) : m ∈ n.parts := by
  induction h with
  | here n => exact n.mem_parts_self
  | child mem _ ih =>
    rw [parts]
    exact List.mem_cons_of_mem _ (mem_partsAll mem ih)
  | ifBody _ _ ih | unlessBody _ _ ih =>
    rw [parts]
    exact List.mem_cons_of_mem _ (List.mem_append_left _ ih)
  | ifOtherwise _ _ ih | unlessOtherwise _ _ ih =>
    rw [parts]
    exact List.mem_cons_of_mem _ (List.mem_append_right _ ih)
  | turn _ _ ih | inner _ _ ih =>
    rw [parts]
    exact List.mem_cons_of_mem _ ih

def leaf? : Node → Context → Option Leaf
  | text s, _ => some (.text s)
  | escaped p, c => some (.value .double (c.get? p))
  | unescaped p, c => some (.value .triple (c.get? p))
  | container _, _ | ifBlock _ _ _, _ | unlessBlock _ _ _, _ => none
  | eachBlock _ _, _ | withBlock _ _, _ => none

mutual

/-- Each leaf is a node of the tree that is reached. -/
theorem exists_reaches (n : Node) {c : Context} {leaf : Leaf} (h : leaf ∈ n.leaves c) :
    ∃ m d, Reaches n c m d ∧ m.leaf? d = some leaf := by
  cases n with
  | text s | escaped p | unescaped p =>
    rw [leaves, List.mem_singleton] at h
    exact ⟨_, c, .here _ c, congrArg some h.symm⟩
  | container ns =>
    obtain ⟨n, hn, m, d, hreach, hleaf⟩ := exists_reaches_all ns h
    exact ⟨m, d, .child hn hreach, hleaf⟩
  | ifBlock p body otherwise =>
    rw [leaves] at h
    split at h
    · rename_i htruthy
      obtain ⟨m, d, hreach, hleaf⟩ := exists_reaches body h
      exact ⟨m, d, .ifBody htruthy hreach, hleaf⟩
    · rename_i hfalsy
      obtain ⟨m, d, hreach, hleaf⟩ := exists_reaches otherwise h
      exact ⟨m, d, .ifOtherwise (Bool.eq_false_iff.mpr hfalsy) hreach, hleaf⟩
  | unlessBlock p body otherwise =>
    rw [leaves] at h
    split at h
    · rename_i htruthy
      obtain ⟨m, d, hreach, hleaf⟩ := exists_reaches otherwise h
      exact ⟨m, d, .unlessOtherwise htruthy hreach, hleaf⟩
    · rename_i hfalsy
      obtain ⟨m, d, hreach, hleaf⟩ := exists_reaches body h
      exact ⟨m, d, .unlessBody (Bool.eq_false_iff.mpr hfalsy) hreach, hleaf⟩
  | eachBlock p body =>
    rw [leaves] at h
    obtain ⟨s, hs, hmem⟩ := List.mem_flatMap.mp h
    obtain ⟨m, d, hreach, hleaf⟩ := exists_reaches body hmem
    exact ⟨m, d, .turn hs hreach, hleaf⟩
  | withBlock p body =>
    rw [leaves] at h
    split at h
    · simp at h
    · rename_i s hs
      obtain ⟨m, d, hreach, hleaf⟩ := exists_reaches body h
      exact ⟨m, d, .inner hs hreach, hleaf⟩

theorem exists_reaches_all (ns : List Node) {c : Context} {leaf : Leaf}
    (h : leaf ∈ leavesAll ns c) :
    ∃ n ∈ ns, ∃ m d, Reaches n c m d ∧ m.leaf? d = some leaf := by
  cases ns with
  | nil => simp [leavesAll] at h
  | cons n ns =>
    rw [leavesAll, List.mem_append] at h
    rcases h with h | h
    · exact ⟨n, by simp, exists_reaches n h⟩
    · obtain ⟨m, hm, hreach⟩ := exists_reaches_all ns h
      exact ⟨m, List.mem_cons_of_mem _ hm, hreach⟩

end

/-- A chunk is literal text, the text of a value that is asked for as it is, or inert. -/
theorem chunk_cases {n : Node} {c : Context} {chunk : String} (h : chunk ∈ n.chunks c) :
    text chunk ∈ n.parts ∨
    (∃ p d v, unescaped p ∈ n.parts ∧ n.Reaches c (unescaped p) d ∧ d.get? p = some v ∧
      v.text? = some chunk) ∨
    Text.Inert chunk.toList := by
  rw [chunks_eq_filterMap_leaves] at h
  obtain ⟨leaf, hleaf, hchunk⟩ := List.mem_filterMap.mp h
  obtain ⟨m, d, hreach, hm⟩ := exists_reaches n hleaf
  cases m with
  | text s =>
    obtain rfl := Option.some.inj hm
    obtain rfl := Option.some.inj hchunk
    exact .inl hreach.mem_parts
  | escaped p =>
    obtain rfl := Option.some.inj hm
    obtain ⟨s, -, rfl⟩ := Option.map_eq_some_iff.mp hchunk
    exact .inr (.inr (Text.inert_escapeHtml s))
  | unescaped p =>
    obtain rfl := Option.some.inj hm
    obtain ⟨v, hv, htext⟩ := Option.bind_eq_some_iff.mp hchunk
    exact .inr (.inl ⟨p, d, v, hreach.mem_parts, hreach, hv, htext⟩)
  | container | ifBlock | unlessBlock | eachBlock | withBlock => cases hm

end Node

def Leaf.text? : Leaf → Option String
  | text s => some s
  | value _ _ => none

def Leaf.IsRaw (leaf : Leaf) : Prop := ∃ found, leaf = value .triple found

namespace Node

theorem not_isRaw_of_mem_leaves {n : Node} (hn : ∀ p, unescaped p ∉ n.parts) {c : Context}
    {leaf : Leaf} (h : leaf ∈ n.leaves c) : ¬ leaf.IsRaw := by
  rintro ⟨found, rfl⟩
  obtain ⟨m, d, hreach, hm⟩ := exists_reaches n h
  cases m with
  | unescaped p => exact hn p hreach.mem_parts
  | text | escaped | container | ifBlock | unlessBlock | eachBlock | withBlock => cases hm

end Node

/-- Of leaves without raw values only the literal text has marks. -/
theorem marks_chunks {leaves : List Leaf} (h : ∀ leaf ∈ leaves, ¬ leaf.IsRaw) :
    Text.marks (String.join (leaves.filterMap Leaf.chunk?)).toList =
      Text.marks (String.join (leaves.filterMap Leaf.text?)).toList := by
  induction leaves with
  | nil => rfl
  | cons leaf leaves ih =>
    obtain ⟨hleaf, hleaves⟩ := List.forall_mem_cons.mp h
    have hrest := ih hleaves
    cases leaf with
    | text s =>
      have hchunk : (Leaf.text s).chunk? = some s := rfl
      have htext : (Leaf.text s).text? = some s := rfl
      rw [List.filterMap_cons_some hchunk, List.filterMap_cons_some htext, String.join_cons,
        String.join_cons, String.toList_append, String.toList_append, Text.marks_append,
        Text.marks_append, hrest]
    | value f found =>
      have htext : (Leaf.value f found).text? = none := rfl
      rw [List.filterMap_cons_none htext]
      cases f with
      | triple => exact absurd ⟨found, rfl⟩ hleaf
      | double =>
        cases hchunk : (Leaf.value .double found).chunk? with
        | none => rwa [List.filterMap_cons_none hchunk]
        | some chunk =>
          obtain ⟨s, -, rfl⟩ := Option.map_eq_some_iff.mp hchunk
          rw [List.filterMap_cons_some hchunk, String.join_cons, String.toList_append,
            Text.marks_append, (Text.inert_escapeHtml s).marks_eq_nil, hrest]
          rfl

/-- Data brings no markup into the output by way of an escaped value. Each chunk is literal text of
the tree, the text of a value that the tree asks for as it is, or inert; so in a tree that asks for
no value as it is, the marks of the output are those of its literal text. -/
theorem output_marks :
    (∀ (n : Node) (c : Context) {σ ε : Type} (sink : Sink σ ε) (out : σ),
      ∀ chunk ∈ n.offered sink c out,
        .text chunk ∈ n.parts ∨
        (∃ p d v, .unescaped p ∈ n.parts ∧ n.Reaches c (.unescaped p) d ∧ d.get? p = some v ∧
          v.text? = some chunk) ∨
        Text.Inert chunk.toList) ∧
    (∀ n : Node, (∀ p, .unescaped p ∉ n.parts) →
      ∀ (c : Context) {σ ε : Type} (sink : Sink σ ε) (out : σ),
        ∀ taken, taken <+: n.offered sink c out →
          ∃ written, written <+: n.leaves c ∧ taken = written.filterMap Leaf.chunk? ∧
            Text.marks (String.join taken).toList =
              Text.marks (String.join (written.filterMap Leaf.text?)).toList) ∧
    ∀ (t : Template) (data : Json.Value), (∀ p, .unescaped p ∉ t.root.parts) →
      let written := t.root.leaves (t.context data)
      ∃ text, t.render data = .ok text ∧
        Text.marks text.toList =
          Text.marks (String.join (written.filterMap Leaf.text?)).toList := by
  refine ⟨?_, ?_, ?_⟩
  · intro n c σ ε sink out chunk hchunk
    exact n.chunk_cases ((n.offered_prefix sink c out).subset hchunk)
  · intro n hn c σ ε sink out taken htaken
    have hfront := htaken.trans (n.offered_prefix sink c out)
    rw [Node.chunks_eq_filterMap_leaves] at hfront
    obtain ⟨written, hwritten, rfl⟩ := List.prefix_filterMap_iff.mp hfront
    refine ⟨written, hwritten, rfl, ?_⟩
    apply marks_chunks
    intro leaf hleaf
    exact Node.not_isRaw_of_mem_leaves hn (hwritten.subset hleaf)
  · intro t data hn
    refine ⟨_, t.render_eq data, ?_⟩
    rw [Node.chunks_eq_filterMap_leaves]
    apply marks_chunks
    intro leaf hleaf
    exact Node.not_isRaw_of_mem_leaves hn hleaf

/-- A list with a text full of marks, printed as JSON behind a tag of the template. -/
theorem output_marks_quoted :
    let n : Node := .container [.text "<i>", .eachBlock ⟨"xs", ["xs"]⟩ (.escaped ⟨".", []⟩)]
    let data : Json.Value := .object [("xs", .array [.array [.string "<é"]])]
    let c : Context := .start data true
    let chunk := "[&quot;&lt;&#233;&quot;]"
    let t : Template := ⟨n, .default⟩
    (chunk ∈ n.offered Sink.text c "" ∧
      (.text chunk ∈ n.parts ∨
        (∃ p d v, .unescaped p ∈ n.parts ∧ n.Reaches c (.unescaped p) d ∧ d.get? p = some v ∧
          v.text? = some chunk) ∨
        Text.Inert chunk.toList)) ∧
    (∀ p, .unescaped p ∉ n.parts) ∧
    (["<i>", chunk] <+: n.offered Sink.text c "" ∧
      ∃ written, written <+: n.leaves c ∧ ["<i>", chunk] = written.filterMap Leaf.chunk? ∧
        Text.marks (String.join ["<i>", chunk]).toList =
          Text.marks (String.join (written.filterMap Leaf.text?)).toList) ∧
    ∃ text, t.render data = .ok text ∧
      Text.marks text.toList =
        Text.marks (String.join ((n.leaves (t.context data)).filterMap Leaf.text?)).toList := by
  intro n data c chunk t
  have hoffered : n.offered Sink.text c "" = ["<i>", chunk] := by decide +kernel
  have hn : ∀ p, .unescaped p ∉ n.parts := by simp [n, Node.parts, Node.partsAll]
  have hchunk : chunk ∈ n.offered Sink.text c "" := by simp [hoffered]
  have hfront : ["<i>", chunk] <+: n.offered Sink.text c "" := by simp [hoffered]
  exact ⟨⟨hchunk, output_marks.1 n c Sink.text "" chunk hchunk⟩, hn,
    ⟨hfront, output_marks.2.1 n hn c Sink.text "" _ hfront⟩, output_marks.2.2 t data hn⟩

end BraceTemplate
