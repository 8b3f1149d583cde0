import BraceTemplate.Proofs.ScopePaths

namespace BraceTemplate

def Path.under (segments : List String) (p : Path) : Path :=
  ⟨".".intercalate (segments ++ p.segments), segments ++ p.segments⟩

/-- The tree with its paths behind other segments. What stands inside `each` and `with` stays as it
is. -/
def Node.under (segments : List String) (n : Node) : Node := n.mapPaths (Path.under segments) id

namespace Context

/-- The innermost scope is a turn of a loop, and the segments name the turn. -/
def NamesTurn (c : Context) (segments : List String) : Prop :=
  (∃ s, c.scopes.head? = some s ∧ s.iteration ≠ none) ∧
    segments ∈ [["@index"], ["@first"], ["@last"]]

variable {c : Context} {q : Path} {v : Json.Value}

/-- A path behind the segments of a value finds what it would find in a scope of that value. -/
theorem get?_under (hne : q.segments ≠ []) (hturn : ¬ c.NamesTurn q.segments)
    (hq : c.get? q = some v) (p : Path) :
    (c.push ⟨v, none⟩).get? p = c.get? (p.under q.segments) := by
  obtain ⟨scopes, flag⟩ := c
  cases scopes with
  | nil => cases hq
  | cons s lower =>
    change s.get? q.segments = some v at hq
    change (Scope.mk v none).get? p.segments = s.get? (q.segments ++ p.segments)
    have hdirect : s.iteration = none ∨ q.segments ∉ [["@index"], ["@first"], ["@last"]] := by
      by_contra hnot
      rw [not_or, not_not] at hnot
      exact hturn ⟨⟨s, rfl, hnot.1⟩, hnot.2⟩
    -- one segment in all is a turn's name only if `q` is that segment
    have hlong : s.iteration = none ∨
        q.segments ++ p.segments ∉ [["@index"], ["@first"], ["@last"]] := by
      cases hp : p.segments with
      | nil => rwa [List.append_nil]
      | cons segment segments =>
        refine .inr fun hmem => ?_
        have hlength : (q.segments ++ segment :: segments).length = 1 := by
          simp only [List.mem_cons, List.not_mem_nil, or_false] at hmem
          rcases hmem with hmem | hmem | hmem <;> rw [hmem] <;> rfl
        have hpos := List.length_pos_iff.mpr hne
        rw [List.length_append, List.length_cons] at hlength
        omega
    rw [Scope.get?_eq_lookup? hdirect] at hq
    rw [Scope.get?_eq_lookup? (.inl rfl), Scope.get?_eq_lookup? hlong, Json.Value.lookup?_append,
      hq]
    rfl

theorem inner?_of_get? (hq : c.get? q = some v) (hv : v ≠ .null) :
    c.inner? q = some ⟨v, none⟩ := by
  unfold inner?
  rw [hq]
  cases v with
  | null => exact absurd rfl hv
  | bool | number | string | array | object => rfl

end Context

/-- A `with` block over a value writes what its body writes with all paths behind the path of the
value. A `with` block over nothing writes nothing. -/
theorem with_eq_under :
    (∀ (n : Node) (c : Context) (q : Path) (v : Json.Value), q.segments ≠ [] →
      ¬ c.NamesTurn q.segments → c.get? q = some v → v ≠ .null →
      SameOutput (.withBlock q n) c (n.under q.segments) c) ∧
    ∀ (n : Node) (c : Context) (q : Path), c.get? q = none ∨ c.get? q = some .null →
      ∀ {σ ε : Type} (sink : Sink σ ε) (out : σ),
        (Node.withBlock q n).write sink c out = .done c out ∧
          (Node.withBlock q n).offered sink c out = [] := by
  constructor
  · intro n c q v hne hturn hq hv
    apply SameOutput.of_chunks
    rw [Node.chunks, Context.inner?_of_get? hq hv, Node.under]
    exact n.chunks_mapPaths (fun _ => rfl) rfl fun p _ => Context.get?_under hne hturn hq p
  · intro n c q hq σ ε sink out
    have hinner : c.inner? q = none := by
      unfold Context.inner?
      rcases hq with hq | hq <;> rw [hq]
    constructor
    · rw [Node.write, hinner]
    · rw [Node.offered, Node.write, hinner]
      rfl

/-- A loop, a test and the value itself, in a scope that is a turn of a loop. -/
theorem with_eq_under_turn :
    let body : Node := .container [.escaped ⟨"this", []⟩,
      .ifBlock ⟨"b", ["b"]⟩ (.eachBlock ⟨"b", ["b"]⟩ (.escaped ⟨"c", ["c"]⟩)) .empty]
    let q : Path := ⟨"xs.0", ["xs", "0"]⟩
    let v : Json.Value := .object [("b", .array [.object [("c", .bool true)]])]
    let c : Context := ⟨[⟨.object [("xs", .array [v])], some (.turn 0 1)⟩], true⟩
    let p : Path := ⟨"y", ["y"]⟩
    (q.segments ≠ [] ∧ ¬ c.NamesTurn q.segments ∧ c.get? q = some v ∧ v ≠ .null ∧
      SameOutput (.withBlock q body) c (body.under q.segments) c) ∧
    ((c.get? p = none ∨ c.get? p = some .null) ∧
      (Node.withBlock p body).write Sink.text c "" = .done c "") := by
  intro body q v c p
  have hne : q.segments ≠ [] := by simp [q]
  have hturn : ¬ c.NamesTurn q.segments := by simp [Context.NamesTurn, q]
  have hq : c.get? q = some v := rfl
  have hv : v ≠ .null := by simp [v]
  have hp : c.get? p = none ∨ c.get? p = some .null := .inl rfl
  exact ⟨⟨hne, hturn, hq, hv, with_eq_under.1 body c q v hne hturn hq hv⟩,
    hp, (with_eq_under.2 body c p hp Sink.text "").1⟩

end BraceTemplate
