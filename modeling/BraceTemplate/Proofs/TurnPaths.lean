import BraceTemplate.Proofs.ChunkOrigin
import BraceTemplate.Proofs.PathPrefix

namespace BraceTemplate

/-- The paths that read the turn of a loop, where they stand directly in the loop. -/
def Path.NamesTurn (p : Path) : Prop := p.segments ∈ [["@index"], ["@first"], ["@last"]]

namespace Context

def value? (c : Context) : Option Json.Value := c.scopes.head?.map Scope.value

@[simp]
theorem value?_push (c : Context) (s : Scope) : (c.push s).value? = some s.value := rfl

/-- A path finds a member of the value, unless it names the turn in the scope of a turn. -/
theorem get?_eq_member {c : Context} {p : Path}
    (h : ∀ s, c.scopes.head? = some s → s.iteration = none ∨ ¬ p.NamesTurn) :
    c.get? p = c.value?.bind fun v => v.lookup? p.segments := by
  unfold get? value?
  cases hs : c.scopes.head? with
  | none => rfl
  | some s => exact Scope.get?_eq_lookup? (h s hs)

theorem iteration_of_inner? {c : Context} {p : Path} {s : Scope} (h : c.inner? p = some s) :
    s.iteration = none := by
  unfold inner? at h
  split at h
  · cases h
  · cases h
  · obtain rfl := Option.some.inj h
    rfl

/-- Loops over the same list take the same values in turn, whatever they know about the turns. -/
theorem turns_sameValues {c d : Context} {p : Path} (h : c.get? p = d.get? p) :
    List.Forall₂ (fun s t => s.value = t.value) (c.turns p) (d.turns p) := by
  have hitems : c.items p = d.items p := by rw [items, items, h]
  rw [List.forall₂_iff_get]
  simp [turns, hitems]

end Context

namespace Node

/-- No loop reads its turn. In the scopes of further loops and of `with` blocks inside it, what is
read is not the turn of the loop around them. -/
def TurnFree (n : Node) : Prop :=
  ∀ p body, eachBlock p body ∈ n.parts → ∀ q ∈ body.scopePaths, ¬ q.NamesTurn

theorem TurnFree.of_parts {n m : Node} (h : n.TurnFree) (hparts : m.parts ⊆ n.parts) :
    m.TurnFree :=
  fun p body hmem => h p body (hparts hmem)

theorem scopePaths_subset_all {ns : List Node} {n : Node} (hn : n ∈ ns) :
    n.scopePaths ⊆ scopePathsAll ns := by
  induction ns with
  | nil => cases hn
  | cons first ns ih =>
    rw [scopePathsAll]
    rcases List.mem_cons.mp hn with rfl | hn
    · exact List.subset_append_left _ _
    · exact List.subset_append_of_subset_right _ (ih hn)

/-- The tree has no loop that reads its turn, and in the context at hand it is not part of one. -/
structure ReadsMembers (n : Node) (c : Context) : Prop where
  turnFree : n.TurnFree
  scope : ∀ s, c.scopes.head? = some s → s.iteration = none ∨ ∀ p ∈ n.scopePaths, ¬ p.NamesTurn

theorem TurnFree.readsMembers {n : Node} (h : n.TurnFree) (data : Json.Value) (flag : Bool) :
    n.ReadsMembers (.start data flag) := by
  refine ⟨h, fun s hs => .inl ?_⟩
  obtain rfl := Option.some.inj hs
  rfl

namespace ReadsMembers

variable {n m body otherwise : Node} {ns : List Node} {p : Path} {c d : Context} {s : Scope}

theorem get?_eq (h : n.ReadsMembers c) (hp : p ∈ n.scopePaths) :
    c.get? p = c.value?.bind fun v => v.lookup? p.segments :=
  Context.get?_eq_member fun s hs => (h.scope s hs).imp_right fun hn => hn p hp

theorem of_subset (h : n.ReadsMembers c) (hparts : m.parts ⊆ n.parts)
    (hpaths : m.scopePaths ⊆ n.scopePaths) : m.ReadsMembers c :=
  ⟨h.turnFree.of_parts hparts, fun s hs => (h.scope s hs).imp_right fun hn p hp => hn p (hpaths hp)⟩

theorem child (h : (container ns).ReadsMembers c) (hn : n ∈ ns) : n.ReadsMembers c :=
  h.of_subset (fun _ hm => List.mem_cons_of_mem _ (mem_partsAll hn hm)) (scopePaths_subset_all hn)

theorem branches (h : n.ReadsMembers c) (hparts : body.parts ++ otherwise.parts ⊆ n.parts)
    (hpaths : body.scopePaths ++ otherwise.scopePaths ⊆ n.scopePaths) :
    body.ReadsMembers c ∧ otherwise.ReadsMembers c := by
  constructor
  · exact h.of_subset (fun _ hm => hparts (List.mem_append_left _ hm))
      fun _ hp => hpaths (List.mem_append_left _ hp)
  · exact h.of_subset (fun _ hm => hparts (List.mem_append_right _ hm))
      fun _ hp => hpaths (List.mem_append_right _ hp)

theorem ifBranches (h : (ifBlock p body otherwise).ReadsMembers c) :
    body.ReadsMembers c ∧ otherwise.ReadsMembers c :=
  h.branches (List.subset_cons_self _ _) (List.subset_cons_self _ _)

theorem unlessBranches (h : (unlessBlock p body otherwise).ReadsMembers c) :
    body.ReadsMembers c ∧ otherwise.ReadsMembers c :=
  h.branches (List.subset_cons_self _ _) (List.subset_cons_self _ _)

/-- The body of a loop reads no turn of the loop. -/
theorem turn (h : (eachBlock p body).ReadsMembers c) (s : Scope) :
    body.ReadsMembers (c.push s) :=
  ⟨h.turnFree.of_parts (List.subset_cons_self _ _),
    fun _ _ => .inr (h.turnFree p body (mem_parts_self _))⟩

/-- The body of a `with` block is not in a turn. -/
theorem inner (h : (withBlock p body).ReadsMembers c) (hs : c.inner? p = some s) :
    body.ReadsMembers (c.push s) := by
  refine ⟨h.turnFree.of_parts (List.subset_cons_self _ _), fun t ht => .inl ?_⟩
  obtain rfl := Option.some.inj ht
  exact Context.iteration_of_inner? hs

/-- What is reached in a tree that reads members alone does so too. -/
theorem of_reaches (hreach : n.Reaches c m d) (h : n.ReadsMembers c) : m.ReadsMembers d := by
  induction hreach with
  | here => exact h
  | child mem _ ih => exact ih (h.child mem)
  | ifBody _ _ ih => exact ih h.ifBranches.1
  | ifOtherwise _ _ ih => exact ih h.ifBranches.2
  | unlessBody _ _ ih => exact ih h.unlessBranches.1
  | unlessOtherwise _ _ ih => exact ih h.unlessBranches.2
  | turn _ _ ih => exact ih (h.turn _)
  | inner scope _ ih => exact ih (h.inner scope)

theorem get?_congr (h : n.ReadsMembers c) (h' : n.ReadsMembers d) (hv : c.value? = d.value?)
    (hp : p ∈ n.scopePaths) : c.get? p = d.get? p := by
  rw [h.get?_eq hp, h'.get?_eq hp, hv]

mutual

/-- A tree that reads members alone reads alike in all contexts over one value. -/
theorem readsAlike (n : Node) {c d : Context} (h : n.ReadsMembers c) (h' : n.ReadsMembers d)
    (hv : c.value? = d.value?) : n.ReadsAlike c d := by
  cases n with
  | text => simp only [ReadsAlike]
  | escaped p | unescaped p =>
    rw [ReadsAlike]
    exact h.get?_congr h' hv (by simp [scopePaths])
  | container ns =>
    rw [ReadsAlike]
    exact readsAlikeAll ns (fun n hn => h.child hn) (fun n hn => h'.child hn) hv
  | ifBlock p body otherwise =>
    have hget : c.get? p = d.get? p := h.get?_congr h' hv (by simp [scopePaths])
    rw [ReadsAlike]
    exact ⟨Context.isTruthy_congr hget, readsAlike body h.ifBranches.1 h'.ifBranches.1 hv,
      readsAlike otherwise h.ifBranches.2 h'.ifBranches.2 hv⟩
  | unlessBlock p body otherwise =>
    have hget : c.get? p = d.get? p := h.get?_congr h' hv (by simp [scopePaths])
    rw [ReadsAlike]
    exact ⟨Context.isTruthy_congr hget,
      readsAlike body h.unlessBranches.1 h'.unlessBranches.1 hv,
      readsAlike otherwise h.unlessBranches.2 h'.unlessBranches.2 hv⟩
  | eachBlock p body =>
    have hget : c.get? p = d.get? p := h.get?_congr h' hv (by simp [scopePaths])
    rw [ReadsAlike]
    -- the scopes of a turn differ in what they know about it, and the body does not ask
    refine (Context.turns_sameValues hget).imp fun s t hst => ?_
    exact readsAlike body (h.turn s) (h'.turn t) (congrArg some hst)
  | withBlock p body =>
    have hget : c.get? p = d.get? p := h.get?_congr h' hv (by simp [scopePaths])
    have hinner := Context.inner?_congr hget
    rw [ReadsAlike, hinner]
    cases hs : d.inner? p with
    | none => exact .none
    | some s => exact .some (readsAlike body (h.inner (hinner.trans hs)) (h'.inner hs) rfl)

theorem readsAlikeAll (ns : List Node) {c d : Context} (h : ∀ n ∈ ns, n.ReadsMembers c)
    (h' : ∀ n ∈ ns, n.ReadsMembers d) (hv : c.value? = d.value?) : ReadsAlikeAll ns c d := by
  cases ns with
  | nil => simp only [ReadsAlikeAll]
  | cons n ns =>
    rw [List.forall_mem_cons] at h h'
    rw [ReadsAlikeAll]
    exact ⟨readsAlike n h.1 h'.1 hv, readsAlikeAll ns h.2 h'.2 hv⟩

end

end ReadsMembers

/-- Where no loop reads its turn, it does not matter whether loops tell it. -/
theorem TurnFree.chunks_eq {n : Node} (h : n.TurnFree) (data : Json.Value) (flag other : Bool) :
    n.chunks (.start data flag) = n.chunks (.start data other) :=
  (ReadsMembers.readsAlike n (h.readsMembers data flag) (h.readsMembers data other) rfl).chunks_eq

end Node

/-- Whether loops tell their turns matters only to a tree with a loop that reads its turn. In any
other, the names of the turn are members like all others: of the data outside all blocks, of the
value in the scope of a `with` block, and wherever else they are read. -/
theorem output_of_turnFree :
    (∀ (n : Node) (data : Json.Value) (flag other : Bool), n.TurnFree →
      SameOutput n (.start data flag) n (.start data other)) ∧
    (∀ (n : Node) (o o' : Options) (data : Json.Value), n.TurnFree →
      Template.render ⟨n, o⟩ data = Template.render ⟨n, o'⟩ data ∧
        ∀ {σ ε : Type} (sink : Sink σ ε) (out : σ),
          Template.renderTo ⟨n, o⟩ sink data out = Template.renderTo ⟨n, o'⟩ sink data out) ∧
    (∀ (n m : Node) (data : Json.Value) (flag : Bool) (d : Context), n.TurnFree →
      n.Reaches (.start data flag) m d →
      ∀ p ∈ m.scopePaths, d.get? p = d.value?.bind fun v => v.lookup? p.segments) ∧
    (∀ (data : Json.Value) (flag : Bool) (p : Path),
      (Context.start data flag).get? p = data.lookup? p.segments) ∧
    ∀ (c : Context) (q p : Path) (v : Json.Value), c.get? q = some v → v ≠ .null →
      ∃ s, c.inner? q = some s ∧ (c.push s).get? p = v.lookup? p.segments := by
  refine ⟨?_, ?_, ?_, Context.get?_start, ?_⟩
  · intro n data flag other hn
    exact .of_chunks (hn.chunks_eq data flag other)
  · intro n o o' data hn
    have hchunks := hn.chunks_eq data o.iterationMetadata o'.iterationMetadata
    constructor
    · rw [Template.render_eq, Template.render_eq]
      exact congrArg (fun chunks => Except.ok (String.join chunks)) hchunks
    · intro σ ε sink out
      have hsame := SameOutput.of_chunks hchunks
      exact Prod.ext (hsame.result sink out) (hsame.out sink out)
  · intro n m data flag d hn hreach p hp
    exact ((hn.readsMembers data flag).of_reaches hreach).get?_eq hp
  · intro c q p v hq hv
    exact ⟨_, Context.inner?_of_get? hq hv, Scope.get?_eq_lookup? (.inl rfl)⟩

/-- The names of the turn outside all blocks, in a `with` block inside a loop, and in front of a
further segment, over data that has members with these names. -/
theorem output_of_turnFree_named :
    let first : Path := ⟨"@first", ["@first"]⟩
    let body : Node := .container [.withBlock ⟨"this", []⟩ (.escaped first),
      .escaped ⟨"@last.a", ["@last", "a"]⟩]
    let n : Node := .container [.escaped ⟨"@index", ["@index"]⟩, .eachBlock ⟨"xs", ["xs"]⟩ body]
    let v : Json.Value := .object [("@first", .string "f"), ("@last", .object [("a", .string "l")])]
    let data : Json.Value := .object [("@index", .string "i"), ("xs", .array [v, .null])]
    let turn : Context := (Context.start data true).push ⟨v, some (.turn 0 2)⟩
    n.TurnFree ∧ SameOutput n (.start data true) n (.start data false) ∧
    Template.render ⟨n, ⟨true⟩⟩ data = .ok "ifl" ∧ Template.render ⟨n, ⟨false⟩⟩ data = .ok "ifl" ∧
    (n.Reaches (.start data true) (.escaped first) (turn.push ⟨v, none⟩) ∧
      (turn.push ⟨v, none⟩).get? first = some (.string "f")) ∧
    (turn.get? ⟨"this", []⟩ = some v ∧ v ≠ .null ∧
      ∃ s, turn.inner? ⟨"this", []⟩ = some s ∧
        (turn.push s).get? first = some (.string "f")) := by
  intro first body n v data turn
  obtain ⟨hsame, hrender, hmembers, -, hinner⟩ := output_of_turnFree
  have hfree : n.TurnFree := by
    intro p block hblock
    obtain ⟨-, rfl⟩ : p = ⟨"xs", ["xs"]⟩ ∧ block = body := by
      simpa [n, body, Node.parts, Node.partsAll] using hblock
    simp [body, Node.scopePaths, Node.scopePathsAll, Path.NamesTurn]
  have htrue : Template.render ⟨n, ⟨true⟩⟩ data = .ok "ifl" := by decide +kernel
  have hvalue : turn.get? ⟨"this", []⟩ = some v := rfl
  have hv : v ≠ .null := by simp [v]
  have hreach : n.Reaches (.start data true) (.escaped first) (turn.push ⟨v, none⟩) := by
    apply Node.Reaches.child (n := .eachBlock ⟨"xs", ["xs"]⟩ body) (by simp)
    apply Node.Reaches.turn (s := ⟨v, some (.turn 0 2)⟩) (.head _)
    apply Node.Reaches.child (n := .withBlock ⟨"this", []⟩ (.escaped first)) (by simp)
    exact .inner rfl (.here _ _)
  refine ⟨hfree, hsame n data true false hfree, htrue,
    ((hrender n ⟨true⟩ ⟨false⟩ data hfree).1).symm.trans htrue, ⟨hreach, ?_⟩, hvalue, hv,
    hinner _ _ first v hvalue hv⟩
  exact hmembers n _ data true _ hfree hreach first (by simp [Node.scopePaths])

end BraceTemplate
