import BraceTemplate.Proofs.Observation
import Mathlib.Data.List.Forall2

namespace BraceTemplate

def Path.bare (p : Path) : Path := { p with raw := "" }

namespace Node

mutual

/-- The paths that are looked up in the scope in which a tree is written. What stands inside
`each` and `with` looks into scopes of its own. -/
def scopePaths : Node → List Path
  | text _ => []
  | escaped p | unescaped p => [p]
  | container ns => scopePathsAll ns
  | ifBlock p body otherwise | unlessBlock p body otherwise =>
    p :: (body.scopePaths ++ otherwise.scopePaths)
  | eachBlock p _ | withBlock p _ => [p]

def scopePathsAll : List Node → List Path
  | [] => []
  | n :: ns => n.scopePaths ++ scopePathsAll ns

end

mutual

/-- The tree with other paths: `f` replaces those looked up in its own scope, and `g` those looked
up in the scopes that it opens. -/
def mapPaths (f g : Path → Path) : Node → Node
  | text s => text s
  | escaped p => escaped (f p)
  | unescaped p => unescaped (f p)
  | container ns => container (mapPathsAll f g ns)
  | ifBlock p body otherwise => ifBlock (f p) (body.mapPaths f g) (otherwise.mapPaths f g)
  | unlessBlock p body otherwise => unlessBlock (f p) (body.mapPaths f g) (otherwise.mapPaths f g)
  | eachBlock p body => eachBlock (f p) (body.mapPaths g g)
  | withBlock p body => withBlock (f p) (body.mapPaths g g)

def mapPathsAll (f g : Path → Path) : List Node → List Node
  | [] => []
  | n :: ns => n.mapPaths f g :: mapPathsAll f g ns

end

mutual

theorem mapPaths_id (n : Node) : n.mapPaths id id = n := by
  cases n with
  | text s | escaped p | unescaped p => rfl
  | container ns => rw [mapPaths, mapPathsAll_id ns]
  | ifBlock p body otherwise | unlessBlock p body otherwise =>
    rw [mapPaths, mapPaths_id body, mapPaths_id otherwise, id]
  | eachBlock p body | withBlock p body => rw [mapPaths, mapPaths_id body, id]

theorem mapPathsAll_id (ns : List Node) : mapPathsAll id id ns = ns := by
  cases ns with
  | nil => rfl
  | cons n ns => rw [mapPathsAll, mapPaths_id n, mapPathsAll_id ns]

end

end Node

theorem Iteration.member?_eq_none {name : String} (h : name ∉ ["@index", "@first", "@last"])
    (i : Iteration) : i.member? name = none := by
  simp only [List.mem_cons, List.not_mem_nil, or_false, not_or] at h
  simp [member?, h]

/-- A scope answers from its value, unless it is a turn of a loop and the one segment names the
turn. -/
theorem Scope.get?_eq_lookup? {s : Scope} {segments : List String}
    (h : s.iteration = none ∨ segments ∉ [["@index"], ["@first"], ["@last"]]) :
    s.get? segments = s.value.lookup? segments := by
  unfold get?
  split
  · rename_i name
    obtain hi | hn := h
    · rw [hi]
      rfl
    · have hname (i : Iteration) : i.member? name = none :=
        Iteration.member?_eq_none (by simpa using hn) i
      cases s.iteration with
      | none => rfl
      | some i => simp [hname]
  · rfl

namespace Context

variable {c d : Context} {p q : Path}

/-- Outside all blocks a path looks into the data. -/
theorem get?_start (data : Json.Value) (flag : Bool) (p : Path) :
    (start data flag).get? p = data.lookup? p.segments :=
  Scope.get?_eq_lookup? (s := ⟨data, none⟩) (.inl rfl)

theorem isTruthy_congr (h : c.get? p = d.get? q) : c.isTruthy p = d.isTruthy q := by
  rw [isTruthy, isTruthy, h]

theorem inner?_congr (h : c.get? p = d.get? q) : c.inner? p = d.inner? q := by
  rw [inner?, inner?, h]

theorem turns_congr (hflag : c.iterationMetadata = d.iterationMetadata)
    (h : c.get? p = d.get? q) : c.turns p = d.turns q := by
  rw [turns, turns, items, items, hflag, h]

/-- A scope that is opened hides all that is below it. -/
theorem get?_push (s : Scope) (h : p.segments = q.segments) :
    (c.push s).get? p = (d.push s).get? q := by
  change s.get? p.segments = s.get? q.segments
  rw [h]

end Context

namespace Node

mutual

/-- A tree and the tree with other paths have the same output where the paths of their own scopes
find the same values. In the scopes that they open only the segments of paths matter. -/
theorem chunks_mapPaths (n : Node) {f g : Path → Path} {c d : Context}
    (hg : ∀ p, (g p).segments = p.segments)
    (hflag : c.iterationMetadata = d.iterationMetadata)
    (h : ∀ p ∈ n.scopePaths, c.get? p = d.get? (f p)) :
    n.chunks c = (n.mapPaths f g).chunks d := by
  have inside (body : Node) (s : Scope) :
      ∀ p ∈ body.scopePaths, (c.push s).get? p = (d.push s).get? (g p) :=
    fun p _ => Context.get?_push s (hg p).symm
  cases n with
  | text s => rfl
  | escaped p | unescaped p =>
    rw [mapPaths, chunks, chunks, h p (by simp [scopePaths])]
  | container ns => exact chunksAll_mapPathsAll ns hg hflag h
  | ifBlock p body otherwise | unlessBlock p body otherwise =>
    simp only [scopePaths, List.mem_cons, List.mem_append] at h
    have hbody := chunks_mapPaths body hg hflag fun q hq => h q (.inr (.inl hq))
    have hotherwise := chunks_mapPaths otherwise hg hflag fun q hq => h q (.inr (.inr hq))
    rw [mapPaths, chunks, chunks, Context.isTruthy_congr (h p (.inl rfl)), hbody, hotherwise]
  | eachBlock p body =>
    rw [mapPaths, chunks, chunks, Context.turns_congr hflag (h p (by simp [scopePaths]))]
    congr 1
    funext s
    exact chunks_mapPaths body hg hflag (inside body s)
  | withBlock p body =>
    rw [mapPaths, chunks, chunks, Context.inner?_congr (h p (by simp [scopePaths]))]
    cases d.inner? (f p) with
    | none => rfl
    | some s => exact chunks_mapPaths body hg hflag (inside body s)

theorem chunksAll_mapPathsAll (ns : List Node) {f g : Path → Path} {c d : Context}
    (hg : ∀ p, (g p).segments = p.segments)
    (hflag : c.iterationMetadata = d.iterationMetadata)
    (h : ∀ p ∈ scopePathsAll ns, c.get? p = d.get? (f p)) :
    chunksAll ns c = chunksAll (mapPathsAll f g ns) d := by
  cases ns with
  | nil => rfl
  | cons n ns =>
    simp only [scopePathsAll, List.mem_append] at h
    rw [mapPathsAll, chunksAll, chunksAll,
      chunks_mapPaths n hg hflag fun q hq => h q (.inl hq),
      chunksAll_mapPathsAll ns hg hflag fun q hq => h q (.inr hq)]

end

/-- What a tree writes depends on nothing but the values that its paths find. -/
theorem chunks_congr (n : Node) {c d : Context}
    (hflag : c.iterationMetadata = d.iterationMetadata)
    (h : ∀ p ∈ n.scopePaths, c.get? p = d.get? p) : n.chunks c = n.chunks d := by
  have hmap := chunks_mapPaths n (f := id) (g := id) (fun _ => rfl) hflag h
  rwa [mapPaths_id] at hmap

def bare (n : Node) : Node := n.mapPaths Path.bare Path.bare

/-- Only the segments of a path are looked up. -/
theorem chunks_bare (n : Node) (c : Context) : n.bare.chunks c = n.chunks c :=
  (chunks_mapPaths n (f := Path.bare) (g := Path.bare) (fun _ => rfl) rfl fun _ _ => rfl).symm

mutual

/-- Two contexts in which a tree reads the same. Of a value that a block enters, only what the body
reads of it counts. -/
def ReadsAlike : Node → Context → Context → Prop
  | text _, _, _ => True
  | escaped p, c, d | unescaped p, c, d => c.get? p = d.get? p
  | container ns, c, d => ReadsAlikeAll ns c d
  | ifBlock p body otherwise, c, d | unlessBlock p body otherwise, c, d =>
    c.isTruthy p = d.isTruthy p ∧ body.ReadsAlike c d ∧ otherwise.ReadsAlike c d
  | eachBlock p body, c, d =>
    List.Forall₂ (fun s t => body.ReadsAlike (c.push s) (d.push t)) (c.turns p) (d.turns p)
  | withBlock p body, c, d =>
    Option.Rel (fun s t => body.ReadsAlike (c.push s) (d.push t)) (c.inner? p) (d.inner? p)

def ReadsAlikeAll : List Node → Context → Context → Prop
  | [], _, _ => True
  | n :: ns, c, d => n.ReadsAlike c d ∧ ReadsAlikeAll ns c d

end

mutual

/-- Contexts in which a tree reads the same give the same chunks. -/
theorem ReadsAlike.chunks_eq (n : Node) {c d : Context} (h : n.ReadsAlike c d) :
    n.chunks c = n.chunks d := by
  cases n with
  | text s => rfl
  | escaped p | unescaped p =>
    rw [ReadsAlike] at h
    rw [chunks, chunks, h]
  | container ns =>
    rw [ReadsAlike] at h
    exact ReadsAlikeAll.chunksAll_eq ns h
  | ifBlock p body otherwise | unlessBlock p body otherwise =>
    rw [ReadsAlike] at h
    obtain ⟨htruthy, hbody, hotherwise⟩ := h
    rw [chunks, chunks, htruthy, ReadsAlike.chunks_eq body hbody,
      ReadsAlike.chunks_eq otherwise hotherwise]
  | eachBlock p body =>
    rw [ReadsAlike] at h
    rw [chunks, chunks]
    generalize c.turns p = ss, d.turns p = ts at h
    induction h with
    | nil => rfl
    | cons hturn _ ih =>
      rw [List.flatMap_cons, List.flatMap_cons, ReadsAlike.chunks_eq body hturn, ih]
  | withBlock p body =>
    rw [ReadsAlike] at h
    rw [chunks, chunks]
    generalize c.inner? p = s?, d.inner? p = t? at h
    cases h with
    | none => rfl
    | some hinner => exact ReadsAlike.chunks_eq body hinner

theorem ReadsAlikeAll.chunksAll_eq (ns : List Node) {c d : Context} (h : ReadsAlikeAll ns c d) :
    chunksAll ns c = chunksAll ns d := by
  cases ns with
  | nil => rfl
  | cons n ns =>
    rw [ReadsAlikeAll] at h
    rw [chunksAll, chunksAll, ReadsAlike.chunks_eq n h.1, ReadsAlikeAll.chunksAll_eq ns h.2]

end

end Node

/-- The output of a tree depends on the values that its own paths find in the scope at hand, and
on nothing else: on no scope below it, on no part of the data that the paths do not name, at any
depth, and not on how the paths are spelled. -/
theorem output_of_scopePaths :
    (∀ (n : Node) (c d : Context), c.iterationMetadata = d.iterationMetadata →
      (∀ p ∈ n.scopePaths, c.get? p = d.get? p) → SameOutput n c n d) ∧
    (∀ (n : Node) (s : Scope) (lower below : List Scope) (flag : Bool),
      SameOutput n ⟨s :: lower, flag⟩ n ⟨s :: below, flag⟩) ∧
    (∀ (t : Template) (data other : Json.Value),
      (∀ p ∈ t.root.scopePaths, data.lookup? p.segments = other.lookup? p.segments) →
      t.render data = t.render other ∧
        ∀ {σ ε : Type} (sink : Sink σ ε) (out : σ),
          t.renderTo sink data out = t.renderTo sink other out) ∧
    (∀ (n : Node) (c d : Context), n.ReadsAlike c d → SameOutput n c n d) ∧
    ∀ (n m : Node) (c : Context), n.bare = m.bare → SameOutput n c m c := by
  refine ⟨?_, ?_, ?_, ?_, ?_⟩
  · intro n c d hflag h
    exact .of_chunks (n.chunks_congr hflag h)
  · intro n s lower below flag
    exact .of_chunks (n.chunks_congr rfl fun _ _ => rfl)
  · intro t data other h
    have hchunks : t.root.chunks (t.context data) = t.root.chunks (t.context other) := by
      refine t.root.chunks_congr rfl fun p hp => ?_
      rw [Template.context, Template.context, Context.get?_start, Context.get?_start, h p hp]
    constructor
    · rw [Template.render_eq, Template.render_eq, hchunks]
    · intro σ ε sink out
      rw [Template.renderTo_eq, Template.renderTo_eq, hchunks]
  · intro n c d h
    exact .of_chunks (Node.ReadsAlike.chunks_eq n h)
  · intro n m c h
    apply SameOutput.of_chunks
    rw [← n.chunks_bare, h, m.chunks_bare]

/-- A loop on top of another scope, a block over a value with a member that it does not read, and
two spellings of a path. -/
theorem output_of_scopePaths_named :
    let loop : Node :=
      .container [.escaped ⟨"a", ["a"]⟩, .eachBlock ⟨"xs", ["xs"]⟩ (.unescaped ⟨".", []⟩)]
    let xs : Json.Value := .array [.null, .string "<"]
    let c : Context := ⟨[⟨.object [("a", .bool true), ("xs", xs)], none⟩], true⟩
    let d : Context :=
      ⟨[⟨.object [("a", .bool true), ("b", .null), ("xs", xs)], none⟩, ⟨.string "low", none⟩], true⟩
    let block : Node := .withBlock ⟨"a", ["a"]⟩ (.escaped ⟨"b", ["b"]⟩)
    let data : Json.Value := .object [("a", .object [("b", .string "x")])]
    let other : Json.Value := .object [("a", .object [("b", .string "x"), ("c", .null)])]
    ((∀ p ∈ loop.scopePaths, c.get? p = d.get? p) ∧ SameOutput loop c loop d) ∧
    ((∀ p ∈ loop.scopePaths, (Json.Value.object [("xs", xs)]).lookup? p.segments =
        (Json.Value.object [("b", xs), ("xs", xs)]).lookup? p.segments) ∧
      Template.render ⟨loop, .default⟩ (.object [("xs", xs)]) =
        Template.render ⟨loop, .default⟩ (.object [("b", xs), ("xs", xs)])) ∧
    (block.ReadsAlike (.start data true) (.start other true) ∧
      SameOutput block (.start data true) block (.start other true)) ∧
    ((Node.escaped ⟨"this.a", ["a"]⟩).bare = (Node.escaped ⟨"a", ["a"]⟩).bare ∧
      SameOutput (.escaped ⟨"this.a", ["a"]⟩) c (.escaped ⟨"a", ["a"]⟩) c) := by
  intro loop xs c d block data other
  obtain ⟨hpaths, -, hdata, hdeep, hbare⟩ := output_of_scopePaths
  have hloop : ∀ p ∈ loop.scopePaths, p = ⟨"a", ["a"]⟩ ∨ p = ⟨"xs", ["xs"]⟩ := by
    simp [loop, Node.scopePaths, Node.scopePathsAll]
  have hc : ∀ p ∈ loop.scopePaths, c.get? p = d.get? p := by
    intro p hp
    obtain rfl | rfl := hloop p hp <;> rfl
  have hd : ∀ p ∈ loop.scopePaths, (Json.Value.object [("xs", xs)]).lookup? p.segments =
      (Json.Value.object [("b", xs), ("xs", xs)]).lookup? p.segments := by
    intro p hp
    obtain rfl | rfl := hloop p hp <;> rfl
  have hblock : block.ReadsAlike (.start data true) (.start other true) := by
    simp only [block, Node.ReadsAlike]
    exact .some rfl
  exact ⟨⟨hc, hpaths loop c d rfl hc⟩, ⟨hd, (hdata ⟨loop, .default⟩ _ _ hd).1⟩,
    ⟨hblock, hdeep block _ _ hblock⟩, rfl, hbare _ _ c rfl⟩

end BraceTemplate
