import BraceTemplate.Template

namespace BraceTemplate

/-- A part of a tree that writes at most one chunk: literal text, or the value that a tag finds. -/
inductive Leaf
  | text (value : String)
  | value (fence : Fence) (found : Option Json.Value)

def Leaf.chunk? : Leaf → Option String
  | text s => some s
  | value .double found => (found.bind Json.Value.text?).map Text.escapeHtml
  | value .triple found => found.bind Json.Value.text?

theorem Json.Value.text?_eq_none {v : Json.Value} : v.text? = none ↔ v = .null := by
  cases v <;> simp [text?]

/-- Only absent values and `null` are not written. -/
theorem Leaf.chunk?_eq_none {leaf : Leaf} :
    leaf.chunk? = none ↔ ∃ f, leaf = value f none ∨ leaf = value f (some .null) := by
  cases leaf with
  | text s => simp [chunk?]
  | value f found => cases f <;> cases found <;> simp [chunk?, Json.Value.text?_eq_none]

namespace Node

mutual

/-- The leaves that are reached when a tree is written, in their order. -/
def leaves : Node → Context → List Leaf
  | text s, _ => [.text s]
  | escaped p, c => [.value .double (c.get? p)]
  | unescaped p, c => [.value .triple (c.get? p)]
  | container ns, c => leavesAll ns c
  | ifBlock p body otherwise, c => if c.isTruthy p then body.leaves c else otherwise.leaves c
  | unlessBlock p body otherwise, c => if c.isTruthy p then otherwise.leaves c else body.leaves c
  | eachBlock p body, c => (c.turns p).flatMap (fun s => body.leaves (c.push s))
  | withBlock p body, c =>
    match c.inner? p with
    | none => []
    | some s => body.leaves (c.push s)

def leavesAll : List Node → Context → List Leaf
  | [], _ => []
  | n :: ns, c => n.leaves c ++ leavesAll ns c

end

mutual

/-- The chunks of a tree are the texts that its leaves have. -/
theorem chunks_eq_filterMap_leaves (n : Node) (c : Context) :
    n.chunks c = (n.leaves c).filterMap Leaf.chunk? := by
  cases n with
  | text s => rfl
  | escaped p | unescaped p =>
    cases h : (c.get? p).bind Json.Value.text? with
    | none | some s => simp [chunks, leaves, Leaf.chunk?, h]
  | container ns => exact chunksAll_eq_filterMap_leavesAll ns c
  | ifBlock p body otherwise | unlessBlock p body otherwise =>
    rw [chunks, leaves]
    split
    · exact chunks_eq_filterMap_leaves _ c
    · exact chunks_eq_filterMap_leaves _ c
  | eachBlock p body =>
    rw [chunks, leaves, List.filterMap_flatMap]
    have hbody : (fun s => body.chunks (c.push s)) =
        fun s => (body.leaves (c.push s)).filterMap Leaf.chunk? :=
      funext fun s => chunks_eq_filterMap_leaves body (c.push s)
    rw [hbody]
  | withBlock p body =>
    rw [chunks, leaves]
    cases c.inner? p with
    | none => rfl
    | some s => exact chunks_eq_filterMap_leaves body (c.push s)

theorem chunksAll_eq_filterMap_leavesAll (ns : List Node) (c : Context) :
    chunksAll ns c = (leavesAll ns c).filterMap Leaf.chunk? := by
  cases ns with
  | nil => rfl
  | cons n ns =>
    rw [chunksAll, leavesAll, List.filterMap_append, chunks_eq_filterMap_leaves n,
      chunksAll_eq_filterMap_leavesAll ns]

end

theorem chunksAll_append (ns ms : List Node) (c : Context) :
    chunksAll (ns ++ ms) c = chunksAll ns c ++ chunksAll ms c := by
  induction ns with
  | nil => rfl
  | cons n ns ih => rw [List.cons_append, chunksAll, chunksAll, ih, List.append_assoc]

end Node

variable {σ ε : Type}

def Sink.putAll (sink : Sink σ ε) (chunks : List String) (c : Context) (out : σ) : Written σ ε :=
  ⟨(sink.offerAll chunks out).1, c, (sink.offerAll chunks out).2⟩

namespace Sink

variable (sink : Sink σ ε)

theorem putAll_append (xs ys : List String) (c : Context) (out : σ) :
    sink.putAll (xs ++ ys) c out = (sink.putAll xs c out).andThen (sink.putAll ys) := by
  simp only [putAll, offerAll_append, Written.andThen]
  generalize sink.offerAll xs out = offered
  obtain ⟨result, after⟩ := offered
  cases result <;> rfl

theorem put_eq_putAll (chunk : String) (c : Context) (out : σ) :
    sink.put chunk c out = sink.putAll [chunk] c out := by
  cases h : sink.offer out chunk with
  | mk result after => cases result <;> simp [put, putAll, offerAll, h]

theorem putValue_eq_putAll (form : String → String) (v : Option Json.Value) (c : Context)
    (out : σ) : sink.putValue form v c out =
      sink.putAll (((v.bind Json.Value.text?).map form).toList) c out := by
  unfold putValue
  cases v.bind Json.Value.text? with
  | none => rfl
  | some s => exact sink.put_eq_putAll (form s) c out

variable {sink} {body : Context → σ → Written σ ε}

/-- The chunks of a scope are offered to the sink as if there were no scope. -/
theorem within_eq_putAll {c : Context} {s : Scope} {chunks : List String}
    (h : ∀ out, body (c.push s) out = sink.putAll chunks (c.push s) out) (out : σ) :
    c.within s body out = sink.putAll chunks c out := by
  rw [Context.within, h]
  rfl

/-- A loop offers the chunks of its turns one turn behind the other. -/
theorem withinEach_eq_putAll {c : Context} {chunks : Scope → List String}
    (h : ∀ s out, body (c.push s) out = sink.putAll (chunks s) (c.push s) out)
    (ss : List Scope) (out : σ) :
    Context.withinEach body ss c out = sink.putAll (ss.flatMap chunks) c out := by
  induction ss generalizing out with
  | nil => rfl
  | cons s ss ih =>
    rw [Context.withinEach, within_eq_putAll (h s), List.flatMap_cons, putAll_append]
    -- the turns behind the first start from the context that the first leaves, which is `c`
    simp only [Written.andThen, putAll]
    split
    · exact ih _
    · rfl

end Sink

namespace Node

mutual

/-- Writing a tree offers its chunks, and leaves the context as it was. -/
theorem write_eq_putAll (sink : Sink σ ε) (n : Node) (c : Context) (out : σ) :
    n.write sink c out = sink.putAll (n.chunks c) c out := by
  cases n with
  | text s => exact sink.put_eq_putAll s c out
  | escaped p => exact sink.putValue_eq_putAll Text.escapeHtml (c.get? p) c out
  | unescaped p =>
    rw [write, chunks, sink.putValue_eq_putAll, Option.map_id_fun]
    rfl
  | container ns => exact writeAll_eq_putAll sink ns c out
  | ifBlock p body otherwise | unlessBlock p body otherwise =>
    rw [write, chunks]
    split
    · exact write_eq_putAll sink _ c out
    · exact write_eq_putAll sink _ c out
  | eachBlock p body =>
    exact Sink.withinEach_eq_putAll (fun s => write_eq_putAll sink body (c.push s)) (c.turns p) out
  | withBlock p body =>
    rw [write, chunks]
    split
    · rfl
    · exact Sink.within_eq_putAll (write_eq_putAll sink body _) out

theorem writeAll_eq_putAll (sink : Sink σ ε) (ns : List Node) (c : Context) (out : σ) :
    writeAll sink ns c out = sink.putAll (chunksAll ns c) c out := by
  cases ns with
  | nil => rfl
  | cons n ns =>
    rw [writeAll, chunksAll, Sink.putAll_append, write_eq_putAll sink n]
    simp only [Written.andThen, Sink.putAll]
    split
    · exact writeAll_eq_putAll sink ns c _
    · rfl

end

end Node

/-- A sink that answers each chunk with yes or no, and is written to no more after a no. -/
def Sink.ofStep (step : σ → String → Bool × σ) : Sink σ RenderError :=
  ⟨fun out chunk => (if (step out chunk).1 then .ok () else .error .write, (step out chunk).2)⟩

def Sink.stepOn (step : σ → String → Bool × σ) (state : Bool × σ) (chunk : String) : Bool × σ :=
  if state.1 then step state.2 chunk else state

theorem Sink.foldl_refused (step : σ → String → Bool × σ) (chunks : List String) (out : σ) :
    chunks.foldl (stepOn step) (false, out) = (false, out) := by
  induction chunks with
  | nil => rfl
  | cons chunk chunks ih => exact ih

/-- A sink that answers yes or no ends where the fold of its answers does. -/
theorem Sink.offerAll_ofStep (step : σ → String → Bool × σ) (chunks : List String) (out : σ) :
    (ofStep step).offerAll chunks out =
      let last := chunks.foldl (stepOn step) (true, out)
      (if last.1 then .ok () else .error .write, last.2) := by
  induction chunks generalizing out with
  | nil => rfl
  | cons chunk chunks ih =>
    rw [offerAll, List.foldl_cons]
    cases h : step out chunk with
    | mk accepted after =>
      cases accepted with
      | true => simpa [ofStep, stepOn, h] using ih after
      | false => simp [ofStep, stepOn, h, foldl_refused]

theorem Sink.offerAll_text (chunks : List String) (out : String) :
    Sink.text.offerAll chunks out = (.ok (), out ++ String.join chunks) := by
  induction chunks generalizing out with
  | nil => simp [offerAll, String.join]
  | cons chunk chunks ih =>
    rw [String.join_cons, ← String.append_assoc]
    exact ih (out ++ chunk)

/-- Rendering offers the chunks of the tree. -/
theorem Template.renderTo_eq (t : Template) (sink : Sink σ ε) (data : Json.Value)
    (out : σ) : t.renderTo sink data out = sink.offerAll (t.root.chunks (t.context data)) out := by
  rw [renderTo, renderToLogged, Node.write_eq_putAll, Sink.putAll]

/-- Plain text takes all that is rendered. -/
theorem Template.render_eq (t : Template) (data : Json.Value) :
    t.render data = .ok (String.join (t.root.chunks (t.context data))) := by
  rw [render, renderTo_eq, Sink.offerAll_text]
  simp

/-- With each chunk that is taken the text stays within the limit. -/
def StaysWithin (limit : Nat) (text : String) (chunks : List String) : Prop :=
  ∀ cs, cs <+: chunks → cs ≠ [] → (text ++ String.join cs).utf8ByteSize ≤ limit

/-- The most chunks that a limit leaves room for, in their order. -/
structure LongestWithin (limit : Nat) (text : String) (chunks taken : List String) : Prop where
  front : taken <+: chunks
  within : StaysWithin limit text taken
  longest : ∀ cs, cs <+: chunks → StaysWithin limit text cs → cs <+: taken

section

variable {limit : Nat} {text chunk : String} {chunks taken : List String}

theorem staysWithin_nil : StaysWithin limit text [] := by
  intro cs hcs hne
  exact absurd (List.prefix_nil.mp hcs) hne

theorem staysWithin_cons :
    StaysWithin limit text (chunk :: chunks) ↔
      (text ++ chunk).utf8ByteSize ≤ limit ∧ StaysWithin limit (text ++ chunk) chunks := by
  constructor
  · intro h
    constructor
    · have hfirst := h [chunk] (by simp) (by simp)
      rwa [String.join_cons, String.join_nil, String.append_empty] at hfirst
    · intro cs hcs _
      have hlater := h (chunk :: cs) (List.cons_prefix_cons.mpr ⟨rfl, hcs⟩) (by simp)
      rwa [String.join_cons, ← String.append_assoc] at hlater
  · intro ⟨hfirst, hlater⟩ cs hcs hne
    obtain ⟨c, ds, rfl⟩ := List.exists_cons_of_ne_nil hne
    obtain ⟨rfl, hds⟩ := List.cons_prefix_cons.mp hcs
    rw [String.join_cons, ← String.append_assoc]
    by_cases hd : ds = []
    · subst hd
      rwa [String.join_nil, String.append_empty]
    · exact hlater ds hds hd

theorem longestWithin_nil : LongestWithin limit text [] [] :=
  ⟨List.prefix_rfl, staysWithin_nil, fun _ hcs _ => hcs⟩

theorem LongestWithin.take (hfit : (text ++ chunk).utf8ByteSize ≤ limit)
    (h : LongestWithin limit (text ++ chunk) chunks taken) :
    LongestWithin limit text (chunk :: chunks) (chunk :: taken) := by
  refine ⟨List.cons_prefix_cons.mpr ⟨rfl, h.front⟩, staysWithin_cons.mpr ⟨hfit, h.within⟩, ?_⟩
  intro cs hcs hw
  cases cs with
  | nil => exact List.nil_prefix
  | cons c ds =>
    obtain ⟨rfl, hds⟩ := List.cons_prefix_cons.mp hcs
    exact List.cons_prefix_cons.mpr ⟨rfl, h.longest ds hds (staysWithin_cons.mp hw).2⟩

theorem LongestWithin.refuse (hfit : ¬ (text ++ chunk).utf8ByteSize ≤ limit) :
    LongestWithin limit text (chunk :: chunks) [] := by
  refine ⟨List.nil_prefix, staysWithin_nil, ?_⟩
  intro cs hcs hw
  cases cs with
  | nil => exact List.prefix_rfl
  | cons c ds =>
    obtain ⟨rfl, -⟩ := List.cons_prefix_cons.mp hcs
    exact absurd (staysWithin_cons.mp hw).1 hfit

end

/-- Bounded text keeps the most chunks that fit, and refuses the first that does not. -/
theorem BoundedText.offerAll_limited {limit : Nat} (chunks : List String) (t : BoundedText)
    (h : t.limit = some limit) :
    ∃ taken, LongestWithin limit t.text chunks taken ∧
      sink.offerAll chunks t =
        (if taken = chunks then .ok () else .error .write,
          { t with text := t.text ++ String.join taken, chunks := t.chunks ++ taken }) := by
  induction chunks generalizing t with
  | nil => exact ⟨[], longestWithin_nil, by simp [Sink.offerAll]⟩
  | cons chunk chunks ih =>
    have hfits : t.fits chunk = decide ((t.text ++ chunk).utf8ByteSize ≤ limit) := by
      simp [fits, h]
    by_cases hfit : (t.text ++ chunk).utf8ByteSize ≤ limit
    · obtain ⟨taken, hlongest, hoffer⟩ :=
        ih { t with text := t.text ++ chunk, chunks := t.chunks ++ [chunk] } h
      refine ⟨chunk :: taken, hlongest.take hfit, ?_⟩
      have hput : sink.offer t chunk =
          (.ok (), { t with text := t.text ++ chunk, chunks := t.chunks ++ [chunk] }) := by
        rw [decide_eq_true hfit] at hfits
        simp [sink, offer, hfits]
      simp only [Sink.offerAll, hput, hoffer]
      simp [String.append_assoc]
    · refine ⟨[], .refuse hfit, ?_⟩
      have hput : sink.offer t chunk = (.error .write, t) := by
        rw [decide_eq_false hfit] at hfits
        simp [sink, offer, hfits]
      simp [Sink.offerAll, hput]

/-- Writing folds the sink over the chunks of the tree, which the sink has no part in. So
rendering to plain text never fails, and bounded text ends with the most chunks that fit. -/
theorem write_folds_chunks :
    (∀ (n : Node) (c : Context), n.chunks c = (n.leaves c).filterMap Leaf.chunk?) ∧
    (∀ leaf : Leaf, leaf.chunk? = none ↔
      ∃ f, leaf = .value f none ∨ leaf = .value f (some .null)) ∧
    (∀ (n : Node) (c : Context) {σ : Type} (step : σ → String → Bool × σ) (out : σ),
      let last := (n.chunks c).foldl (Sink.stepOn step) (true, out)
      (n.write (.ofStep step) c out).result = (if last.1 then .ok () else .error .write) ∧
        (n.write (.ofStep step) c out).out = last.2) ∧
    (∀ (t : Template) (data : Json.Value),
      t.render data = .ok (String.join (t.root.chunks (t.context data)))) ∧
    ∀ (n : Node) (c : Context) (text : String) (limit : Nat),
      let w := n.write BoundedText.sink c (.start text (some limit))
      ∃ taken, LongestWithin limit text (n.chunks c) taken ∧
        w.out.text = text ++ String.join taken ∧
        w.result = (if taken = n.chunks c then .ok () else .error .write) := by
  refine ⟨Node.chunks_eq_filterMap_leaves, fun _ => Leaf.chunk?_eq_none, ?_, Template.render_eq, ?_⟩
  · intro n c σ step out last
    rw [Node.write_eq_putAll, Sink.putAll, Sink.offerAll_ofStep]
    exact ⟨rfl, rfl⟩
  · intro n c text limit w
    obtain ⟨taken, hlongest, hoffer⟩ :=
      BoundedText.offerAll_limited (n.chunks c) (.start text (some limit)) rfl
    have hw : w = BoundedText.sink.putAll (n.chunks c) c (.start text (some limit)) :=
      Node.write_eq_putAll _ n c _
    rw [hw, Sink.putAll, hoffer]
    exact ⟨taken, hlongest, rfl, rfl⟩

end BraceTemplate
