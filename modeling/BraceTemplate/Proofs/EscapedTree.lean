import BraceTemplate.Proofs.ChunkOrigin
import Mathlib.Data.List.Basic

namespace BraceTemplate

namespace Node

mutual

/-- The tree that writes HTML text: its literal text is escaped, and it asks for no value as it
is. -/
def escape : Node → Node
  | text s => text (Text.escapeHtml s)
  | escaped p | unescaped p => escaped p
  | container ns => container (escapeAll ns)
  | ifBlock p body otherwise => ifBlock p body.escape otherwise.escape
  | unlessBlock p body otherwise => unlessBlock p body.escape otherwise.escape
  | eachBlock p body => eachBlock p body.escape
  | withBlock p body => withBlock p body.escape

def escapeAll : List Node → List Node
  | [] => []
  | n :: ns => n.escape :: escapeAll ns

end

end Node

def Leaf.escape : Leaf → Leaf
  | text s => text (Text.escapeHtml s)
  | value _ found => value .double found

/-- What is escaped already would be escaped twice. -/
theorem Leaf.chunk?_escape {leaf : Leaf} (h : ∀ found, leaf ≠ value .double found) :
    leaf.escape.chunk? = leaf.chunk?.map Text.escapeHtml := by
  cases leaf with
  | text s => rfl
  | value f found =>
    cases f with
    | double => exact absurd rfl (h found)
    | triple => rfl

namespace Node

mutual

/-- The escaped tree branches and loops as the tree does, and reaches the same leaves. -/
theorem leaves_escape (n : Node) (c : Context) :
    n.escape.leaves c = (n.leaves c).map Leaf.escape := by
  cases n with
  | text s | escaped p | unescaped p => rfl
  | container ns => exact leavesAll_escapeAll ns c
  | ifBlock p body otherwise | unlessBlock p body otherwise =>
    rw [escape, leaves, leaves]
    split
    · exact leaves_escape _ c
    · exact leaves_escape _ c
  | eachBlock p body =>
    rw [escape, leaves, leaves, List.map_flatMap]
    congr 1
    funext s
    exact leaves_escape body (c.push s)
  | withBlock p body =>
    rw [escape, leaves, leaves]
    cases c.inner? p with
    | none => rfl
    | some s => exact leaves_escape body (c.push s)

theorem leavesAll_escapeAll (ns : List Node) (c : Context) :
    leavesAll (escapeAll ns) c = (leavesAll ns c).map Leaf.escape := by
  cases ns with
  | nil => rfl
  | cons n ns =>
    rw [escapeAll, leavesAll, leavesAll, List.map_append, leaves_escape n,
      leavesAll_escapeAll ns]

end

theorem ne_double_of_mem_leaves {n : Node} (hn : ∀ p, escaped p ∉ n.parts) {c : Context}
    {leaf : Leaf} (h : leaf ∈ n.leaves c) (found : Option Json.Value) :
    leaf ≠ .value .double found := by
  rintro rfl
  obtain ⟨m, d, hreach, hm⟩ := exists_reaches n h
  cases m with
  | escaped p => exact hn p hreach.mem_parts
  | text | unescaped | container | ifBlock | unlessBlock | eachBlock | withBlock => cases hm

/-- Where no tag asks for escaped output, to escape the tree is to escape its chunks. -/
theorem chunks_escape {n : Node} (hn : ∀ p, escaped p ∉ n.parts) (c : Context) :
    n.escape.chunks c = (n.chunks c).map Text.escapeHtml := by
  rw [chunks_eq_filterMap_leaves, chunks_eq_filterMap_leaves, leaves_escape, List.filterMap_map,
    List.map_filterMap]
  exact List.filterMap_congr fun leaf hleaf =>
    Leaf.chunk?_escape (ne_double_of_mem_leaves hn hleaf)

end Node

theorem Text.escapeHtml_join (chunks : List String) :
    escapeHtml (String.join chunks) = String.join (chunks.map escapeHtml) := by
  induction chunks with
  | nil => rfl
  | cons chunk chunks ih =>
    rw [List.map_cons, String.join_cons, String.join_cons, escapeHtml_append, ih]

variable {σ ε : Type}

namespace Sink

/-- The sink behind a change that is made to each chunk. -/
def behind (sink : Sink σ ε) (form : String → String) : Sink σ ε :=
  ⟨fun out chunk => sink.offer out (form chunk)⟩

theorem offerAll_behind (sink : Sink σ ε) (form : String → String) (chunks : List String)
    (out : σ) : (sink.behind form).offerAll chunks out = sink.offerAll (chunks.map form) out := by
  induction chunks generalizing out with
  | nil => rfl
  | cons chunk chunks ih =>
    have hoffer : (sink.behind form).offer out chunk = sink.offer out (form chunk) := rfl
    simp only [List.map_cons, offerAll, hoffer, ih]

/-- The log of what comes through a change is the changed log. -/
theorem offerAll_logged_behind (sink : Sink σ ε) (form : String → String) (chunks : List String)
    (out : σ) (log : List String) :
    (sink.logged.offerAll (chunks.map form) (out, log.map form)).2.2 =
      ((sink.behind form).logged.offerAll chunks (out, log)).2.2.map form := by
  induction chunks generalizing out log with
  | nil => rfl
  | cons chunk chunks ih =>
    generalize h : sink.offer out (form chunk) = answer
    obtain ⟨result, after⟩ := answer
    have hlogged : sink.logged.offer (out, log.map form) (form chunk) =
        (result, after, (log ++ [chunk]).map form) := by
      simp [logged, h]
    have hbehind : (sink.behind form).logged.offer (out, log) chunk =
        (result, after, log ++ [chunk]) := by
      simp [logged, behind, h]
    rw [List.map_cons, offerAll, offerAll, hlogged, hbehind]
    cases result with
    | error error => rfl
    | ok => exact ih after (log ++ [chunk])

end Sink

/-- Escaping may be done before rendering or after it. The escaped tree offers the chunks of the
tree one by one in escaped form, to any sink and up to the first that is refused, and its output is
the output of the tree in escaped form. -/
theorem escape_before_or_after (n : Node) (hn : ∀ p, .escaped p ∉ n.parts) :
    (∀ c : Context, n.escape.chunks c = (n.chunks c).map Text.escapeHtml) ∧
    (∀ (c : Context) {σ ε : Type} (sink : Sink σ ε) (out : σ),
      n.escape.write sink c out = n.write (sink.behind Text.escapeHtml) c out ∧
        n.escape.offered sink c out =
          (n.offered (sink.behind Text.escapeHtml) c out).map Text.escapeHtml) ∧
    (∀ (c : Context) (out : String),
      (n.escape.write Sink.text c (Text.escapeHtml out)).out =
        Text.escapeHtml (n.write Sink.text c out).out) ∧
    ∀ (o : Options) (data : Json.Value), ∃ text, Template.render ⟨n, o⟩ data = .ok text ∧
      Template.render ⟨n.escape, o⟩ data = .ok (Text.escapeHtml text) := by
  have hchunks : ∀ c : Context, n.escape.chunks c = (n.chunks c).map Text.escapeHtml :=
    Node.chunks_escape hn
  refine ⟨hchunks, ?_, ?_, ?_⟩
  · intro c σ ε sink out
    constructor
    · simp only [Node.write_eq_putAll, Sink.putAll, hchunks, Sink.offerAll_behind]
    · simp only [Node.offered, Node.write_eq_putAll, Sink.putAll, hchunks]
      exact sink.offerAll_logged_behind Text.escapeHtml (n.chunks c) out []
  · intro c out
    simp only [Node.write_eq_putAll, Sink.putAll, hchunks, Sink.offerAll_text,
      Text.escapeHtml_append, Text.escapeHtml_join]
  · intro o data
    refine ⟨_, Template.render_eq _ data, ?_⟩
    rw [Template.render_eq, Text.escapeHtml_join]
    exact congrArg (fun chunks => Except.ok (String.join chunks)) (hchunks _)

/-- Text with a tag, and a value that looks like an entity, in the turns of a loop. -/
theorem escape_before_or_after_loop :
    let n : Node := .container [.text "<ul>",
      .eachBlock ⟨"xs", ["xs"]⟩ (.container [.ifBlock ⟨"@first", ["@first"]⟩ .empty (.text " & "),
        .unescaped ⟨"this", []⟩])]
    let data : Json.Value := .object [("xs", .array [.string "&lt;", .null, .string "é"])]
    (∀ p, .escaped p ∉ n.parts) ∧
    n.escape.chunks (.start data true) =
      ["&lt;ul&gt;", "&amp;lt;", " &amp; ", " &amp; ", "&#233;"] ∧
    (n.escape.write Sink.text (.start data true) (Text.escapeHtml "'")).out =
      Text.escapeHtml (n.write Sink.text (.start data true) "'").out ∧
    ∃ text, Template.render ⟨n, .default⟩ data = .ok text ∧
      Template.render ⟨n.escape, .default⟩ data = .ok (Text.escapeHtml text) := by
  intro n data
  have hn : ∀ p, .escaped p ∉ n.parts := by simp [n, Node.empty, Node.parts, Node.partsAll]
  obtain ⟨hchunks, -, hout, hrender⟩ := escape_before_or_after n hn
  refine ⟨hn, ?_, hout (.start data true) "'", hrender .default data⟩
  rw [hchunks]
  decide +kernel

end BraceTemplate
