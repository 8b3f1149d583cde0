import BraceTemplate.Proofs.TurnPaths

namespace BraceTemplate

namespace Json.Value

/-- Digits name their number, also behind a plus sign. -/
theorem index?_of_digits {s : String} {digits : List Char} (hne : digits ≠ [])
    (hd : ∀ c ∈ digits, c.isDigit = true) (hs : s.toList = digits ∨ s.toList = '+' :: digits) :
    index? s = some (Decimal.ofDigits digits) := by
  have hnumber : (if digits.isEmpty || !digits.all Char.isDigit then none
      else some (Decimal.ofDigits digits)) = some (Decimal.ofDigits digits) := by
    rw [if_neg]
    simp [hne, List.all_eq_true.mpr hd]
  unfold index?
  rcases hs with hs | hs
  · rw [hs]
    split
    · -- a plus sign is no digit
      cases hd '+' (by simp)
    · exact hnumber
  · rw [hs]
    exact hnumber

/-- The decimal text of an index names the index. -/
theorem index?_toString (i : Nat) : index? (toString i) = some i := by
  have hdigits : ∀ c ∈ Nat.toDigits 10 i, c.isDigit = true :=
    fun c hc => Nat.isDigit_of_mem_toDigits (by decide) (by decide) hc
  have hs : (toString i).toList = Nat.toDigits 10 i := by
    rw [Nat.toString_eq_repr, Nat.toList_repr]
  rw [index?_of_digits Nat.toDigits_ne_nil hdigits (.inl hs), Decimal.ofDigits_toDigits]

/-- The digits of an index name the item at that index. -/
theorem lookup?_item (vs : List Value) (i : Nat) : (array vs).lookup? [toString i] = vs[i]? := by
  rw [lookup?, member?, index?_toString, Option.bind_some]
  cases vs[i]? <;> rfl

end Json.Value

/-- No path to an item of a list names a turn. -/
theorem Path.not_namesTurn_item {q : Path} {segments : List String} {i : Nat}
    (h : q.segments = segments ++ [toString i]) : ¬ q.NamesTurn := by
  intro hturn
  -- a name of a turn ends in a segment that is no index
  have hlast := List.mem_map_of_mem (f := fun ss => ss.getLast?.bind Json.Value.index?) hturn
  rw [h, List.getLast?_concat, Option.bind_some, Json.Value.index?_toString] at hlast
  have hnone : [["@index"], ["@first"], ["@last"]].map
      (fun ss => ss.getLast?.bind Json.Value.index?) = [none, none, none] := by decide
  rw [hnone] at hlast
  simp at hlast

/-- A turn knows no list. -/
theorem Iteration.member?_ne_array (t : Iteration) (name : String) (vs : List Json.Value) :
    t.member? name ≠ some (.array vs) := by
  unfold member?
  split <;> simp

namespace Scope

variable {s : Scope} {segments : List String} {vs : List Json.Value}

theorem lookup?_of_get?_array (h : s.get? segments = some (.array vs)) :
    s.value.lookup? segments = some (.array vs) := by
  unfold get? at h
  split at h
  · rename_i name
    rcases Option.or_eq_some_iff.mp h with hturn | ⟨-, hvalue⟩
    · obtain ⟨t, -, ht⟩ := Option.bind_eq_some_iff.mp hturn
      exact absurd ht (t.member?_ne_array name vs)
    · exact hvalue
  · exact h

end Scope

namespace Context

variable {c : Context} {p q : Path} {vs : List Json.Value}

/-- Behind a path that finds a list, the text of an index finds the item. -/
theorem get?_item (hp : c.get? p = some (.array vs)) {i : Nat}
    (hq : q.segments = p.segments ++ [toString i]) : c.get? q = vs[i]? := by
  obtain ⟨scopes, flag⟩ := c
  cases scopes with
  | nil => cases hp
  | cons s lower =>
    change s.get? p.segments = some (.array vs) at hp
    change s.get? q.segments = vs[i]?
    rw [Scope.get?_eq_lookup? (.inr (Path.not_namesTurn_item hq)), hq, Json.Value.lookup?_append,
      Scope.lookup?_of_get?_array hp, Option.bind_some, Json.Value.lookup?_item]

end Context

namespace Node

variable {c : Context} {p : Path} {vs : List Json.Value} {body : Node}

theorem chunksAll_eq_flatMap (ns : List Node) (c : Context) :
    chunksAll ns c = ns.flatMap fun n => n.chunks c := by
  induction ns with
  | nil => rfl
  | cons n ns ih => rw [chunksAll, ih, List.flatMap_cons]

/-- A body that does not read its turn is written as in the scope of a `with` block. -/
theorem chunks_turn (hbody : ∀ q ∈ body.scopePaths, ¬ q.NamesTurn) (v : Json.Value)
    (turn : Option Iteration) :
    body.chunks (c.push ⟨v, turn⟩) = body.chunks (c.push ⟨v, none⟩) := by
  refine body.chunks_congr rfl fun q hq => ?_
  change Scope.get? ⟨v, turn⟩ q.segments = Scope.get? ⟨v, none⟩ q.segments
  rw [Scope.get?_eq_lookup? (.inr (hbody q hq)), Scope.get?_eq_lookup? (.inl rfl)]

/-- A loop that does not read its turn writes its body once for each item, in a scope of that item.
-/
theorem chunks_each (hp : c.get? p = some (.array vs))
    (hbody : ∀ q ∈ body.scopePaths, ¬ q.NamesTurn) :
    (eachBlock p body).chunks c = vs.flatMap fun v => body.chunks (c.push ⟨v, none⟩) := by
  have hitems : c.items p = vs := by rw [Context.items, hp]
  have hturns : (c.turns p).map (fun s => body.chunks (c.push s)) =
      vs.map fun v => body.chunks (c.push ⟨v, none⟩) := by
    apply List.ext_getElem
    · simp [Context.turns, hitems]
    · intro i hi hi'
      simp only [Context.turns, hitems, List.getElem_map, List.getElem_mapIdx]
      exact chunks_turn hbody _ _
  rw [chunks, List.flatMap_def, hturns, List.flatMap_def]

theorem chunks_with_item (hp : c.get? p = some (.array vs)) {q : Path} {i : Nat}
    (hq : q.segments = p.segments ++ [toString i]) {v : Json.Value} (hi : vs[i]? = some v)
    (hv : v ≠ .null) : (withBlock q body).chunks c = body.chunks (c.push ⟨v, none⟩) := by
  rw [chunks, Context.inner?_of_get? ((Context.get?_item hp hq).trans hi) hv]

end Node

/-- A loop over a list without `null` can be written out: it is the `with` blocks over the items of
the list, each found by its index, if the body does not read its turn. -/
theorem each_unrolls (c : Context) (p : Path) (vs : List Json.Value) (body : Node)
    (raw : Nat → String) (hp : c.get? p = some (.array vs)) (hnull : Json.Value.null ∉ vs)
    (hbody : ∀ q ∈ body.scopePaths, ¬ q.NamesTurn) :
    SameOutput (.eachBlock p body) c
      (.container ((List.range vs.length).map fun i =>
        .withBlock ⟨raw i, p.segments ++ [toString i]⟩ body)) c := by
  apply SameOutput.of_chunks
  rw [Node.chunks_each hp hbody, Node.chunks, Node.chunksAll_eq_flatMap, List.flatMap_map,
    List.flatMap_def, List.flatMap_def]
  congr 1
  apply List.ext_getElem
  · simp
  · intro i hi hi'
    have hlt : i < vs.length := by simpa using hi
    have hv : vs[i] ≠ .null := fun h => hnull (h ▸ List.getElem_mem hlt)
    simp only [List.getElem_map, List.getElem_range]
    exact (Node.chunks_with_item hp rfl (List.getElem?_eq_getElem hlt) hv).symm

/-- A loop over the value of a turn, with a loop inside it that reads its own turns. -/
theorem each_unrolls_turn :
    let vs : List Json.Value :=
      [.object [("k", .string "a"), ("xs", .array [.null, .null])], .string "b"]
    let c : Context := ⟨[⟨.array vs, some (.turn 0 2)⟩], true⟩
    let p : Path := ⟨"this", []⟩
    let body : Node := .container [.escaped ⟨"k", ["k"]⟩, .text ";",
      .eachBlock ⟨"xs", ["xs"]⟩ (.escaped ⟨"@index", ["@index"]⟩)]
    let blocks : List Node := (List.range vs.length).map fun i =>
      .withBlock ⟨"this." ++ toString i, p.segments ++ [toString i]⟩ body
    c.get? p = some (.array vs) ∧ Json.Value.null ∉ vs ∧
    (∀ q ∈ body.scopePaths, ¬ q.NamesTurn) ∧
    SameOutput (.eachBlock p body) c (.container blocks) c ∧
    (Node.eachBlock p body).chunks c = ["a", ";", "0", "1", ";"] := by
  intro vs c p body blocks
  have hp : c.get? p = some (.array vs) := rfl
  have hnull : Json.Value.null ∉ vs := by simp [vs]
  have hbody : ∀ q ∈ body.scopePaths, ¬ q.NamesTurn := by
    simp [body, Node.scopePaths, Node.scopePathsAll, Path.NamesTurn]
  exact ⟨hp, hnull, hbody, each_unrolls c p vs body _ hp hnull hbody, by decide +kernel⟩

end BraceTemplate
