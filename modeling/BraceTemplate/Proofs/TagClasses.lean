import BraceTemplate.Node.Builder

namespace BraceTemplate

namespace BlockKind

theorem closing_not_mem_keyword (k : BlockKind) : '}' ∉ k.keyword.toList := by
  cases k <;> decide

theorem isBlank_of_mem_keyword (k : BlockKind) {c : Char} (hc : c ∈ k.keyword.toList) :
    Text.isBlank c = false := by
  have hkeyword : k.keyword.toList.all (fun c => !Text.isBlank c) = true := by cases k <;> rfl
  simpa using List.all_eq_true.mp hkeyword c hc

theorem trim_keyword (k : BlockKind) : Text.trim k.keyword = k.keyword := by
  cases k <;> decide

end BlockKind

namespace Token

/-- An opening tag: its keyword ends at the first blank, and the expression is all behind it. -/
def OpensWith (t : Token) (keyword expr : String) : Prop :=
  (∃ f, t.kind = .tag f) ∧ t.value.toList = '#' :: (keyword.toList ++ expr.toList) ∧
    (∀ c ∈ keyword.toList, Text.isBlank c = false) ∧
    ∀ c ∈ expr.toList.head?, Text.isBlank c = true

/-- A closing tag, where blanks around the name do not count. -/
def ClosesWith (t : Token) (name : String) : Prop :=
  (∃ f, t.kind = .tag f) ∧
    ∃ cs, t.value.toList = '/' :: cs ∧ name = Text.trim (String.ofList cs)

def IsElse (t : Token) : Prop := (∃ f, t.kind = .tag f) ∧ t.value = "else"

/-- A tag that is none of the others names a path. -/
def IsValue (t : Token) (f : Fence) : Prop :=
  t.kind = .tag f ∧ t.value.toList.head? ≠ some '#' ∧ t.value.toList.head? ≠ some '/' ∧
    t.value ≠ "else"

def Opens (t : Token) (k : BlockKind) (expr : String) : Prop := t.OpensWith k.keyword expr

def Closes (t : Token) (k : BlockKind) : Prop := t.ClosesWith k.keyword

def tag? (t : Token) : Option Tag :=
  match t.kind with
  | .text => none
  | .tag _ => some (Tag.ofBody t.value)

theorem tag?_eq_none {t : Token} : t.tag? = none ↔ t.kind = .text := by
  unfold tag?
  split <;> simp_all

theorem tag?_eq_some {t : Token} {tag : Tag} :
    t.tag? = some tag ↔ (∃ f, t.kind = .tag f) ∧ Tag.ofBody t.value = tag := by
  unfold tag?
  split <;> simp_all

end Token

namespace Tag

theorem ofBody_eq_opening {body keyword expr : String} :
    ofBody body = .opening keyword expr ↔
      body.toList = '#' :: (keyword.toList ++ expr.toList) ∧
      (∀ c ∈ keyword.toList, Text.isBlank c = false) ∧
      ∀ c ∈ expr.toList.head?, Text.isBlank c = true := by
  constructor
  · intro h
    unfold ofBody at h
    split at h
    · rename_i cs hcs
      obtain ⟨rfl, rfl⟩ := Tag.opening.inj h
      simp only [String.toList_ofList, List.takeWhile_append_dropWhile]
      refine ⟨hcs, ?_, ?_⟩
      · intro c hc
        have hall := List.all_eq_true.mp
          (List.all_takeWhile (p := fun c => !Text.isBlank c) (l := cs)) c hc
        simpa using hall
      · intro c hc
        have hstop := List.head?_dropWhile_not (fun c => !Text.isBlank c) cs
        rw [Option.mem_def.mp hc] at hstop
        simpa using hstop
    · cases h
    · split at h <;> cases h
  · intro h
    obtain ⟨hb, hk, he⟩ := h
    have hkeep : ∀ c ∈ keyword.toList, (!Text.isBlank c) = true := by
      intro c hc
      simp [hk c hc]
    simp only [ofBody, hb]
    rw [List.takeWhile_append_of_pos hkeep, List.dropWhile_append_of_pos hkeep]
    cases hx : expr.toList with
    | nil =>
      rw [← String.ofList_toList (s := expr), hx]
      simp
    | cons c cs =>
      have hc : Text.isBlank c = true := he c (by simp [hx])
      rw [← String.ofList_toList (s := expr), hx]
      simp [hc]

theorem ofBody_eq_closing {body name : String} :
    ofBody body = .closing name ↔
      ∃ cs, body.toList = '/' :: cs ∧ name = Text.trim (String.ofList cs) := by
  constructor
  · intro h
    unfold ofBody at h
    split at h
    · cases h
    · rename_i cs hcs
      obtain rfl := Tag.closing.inj h
      exact ⟨cs, hcs, by simp [Text.trim]⟩
    · split at h <;> cases h
  · intro h
    obtain ⟨cs, hb, rfl⟩ := h
    simp [ofBody, hb, Text.trim]

theorem ofBody_eq_otherwise {body : String} : ofBody body = .otherwise ↔ body = "else" := by
  constructor
  · intro h
    unfold ofBody at h
    split at h
    · cases h
    · cases h
    · split at h
      · assumption
      · cases h
  · intro he
    subst he
    rfl

theorem ofBody_eq_value {body expr : String} :
    ofBody body = .value expr ↔
      expr = body ∧ body.toList.head? ≠ some '#' ∧ body.toList.head? ≠ some '/' ∧
        body ≠ "else" := by
  constructor
  · intro h
    unfold ofBody at h
    split at h
    · cases h
    · cases h
    · rename_i hopen hclose
      split at h
      · cases h
      · rename_i helse
        obtain rfl := Tag.value.inj h
        refine ⟨rfl, ?_, ?_, helse⟩
        · intro hh
          obtain ⟨cs, hcs⟩ := List.head?_eq_some_iff.mp hh
          exact hopen cs hcs
        · intro hh
          obtain ⟨cs, hcs⟩ := List.head?_eq_some_iff.mp hh
          exact hclose cs hcs
  · intro h
    obtain ⟨rfl, hopen, hclose, helse⟩ := h
    unfold ofBody
    split
    · rename_i hcs
      simp [hcs] at hopen
    · rename_i hcs
      simp [hcs] at hclose
    · rw [if_neg helse]

end Tag

namespace Token

theorem opensWith_iff {t : Token} {keyword expr : String} :
    t.OpensWith keyword expr ↔ t.tag? = some (.opening keyword expr) := by
  rw [tag?_eq_some, Tag.ofBody_eq_opening]
  rfl

theorem closesWith_iff {t : Token} {name : String} :
    t.ClosesWith name ↔ t.tag? = some (.closing name) := by
  rw [tag?_eq_some, Tag.ofBody_eq_closing]
  rfl

/-- A closing tag with the bare keyword of its block. -/
theorem closes_of_keyword {t : Token} {f : Fence} {k : BlockKind} (hk : t.kind = .tag f)
    (hv : t.value.toList = '/' :: k.keyword.toList) : t.Closes k := by
  refine ⟨⟨f, hk⟩, k.keyword.toList, hv, ?_⟩
  rw [String.ofList_toList, k.trim_keyword]

theorem opens_of_keyword {t : Token} {f : Fence} {k : BlockKind} {expr : String}
    (hk : t.kind = .tag f) (hv : t.value.toList = '#' :: (k.keyword.toList ++ expr.toList))
    (hblank : ∀ c ∈ expr.toList.head?, Text.isBlank c = true) : t.Opens k expr :=
  ⟨⟨f, hk⟩, hv, fun _ hc => k.isBlank_of_mem_keyword hc, hblank⟩

theorem isElse_iff {t : Token} : t.IsElse ↔ t.tag? = some .otherwise := by
  rw [tag?_eq_some, Tag.ofBody_eq_otherwise]
  rfl

theorem isValue_iff {t : Token} {f : Fence} :
    t.IsValue f ↔ t.kind = .tag f ∧ t.tag? = some (.value t.value) := by
  rw [tag?_eq_some, Tag.ofBody_eq_value, IsValue]
  constructor
  · intro h
    obtain ⟨hk, h⟩ := h
    exact ⟨hk, ⟨f, hk⟩, rfl, h⟩
  · intro h
    obtain ⟨hk, -, -, h⟩ := h
    exact ⟨hk, h⟩

end Token

namespace Builder

variable {b : Builder} {t : Token}

/-- A closing tag with the right name adds the innermost open block to what stands around it. -/
theorem closeBlock_eq_ok {name : String} {span : Span} {after : Builder} :
    b.closeBlock name span = .ok after ↔ ∃ block outer, b.blocks = block :: outer ∧
      block.kind.keyword = name ∧ { b with blocks := outer }.push block.toNode = after := by
  constructor
  · intro h
    unfold closeBlock at h
    split at h
    · cases h
    · rename_i block outer hb
      split at h
      · rename_i hname
        exact ⟨block, outer, hb, hname, Except.ok.inj h⟩
      · cases h
  · intro h
    obtain ⟨block, outer, hb, rfl, rfl⟩ := h
    simp [closeBlock, hb]

theorem switchBranch_eq_ok {span : Span} {after : Builder} :
    b.switchBranch span = .ok after ↔ ∃ block outer, b.blocks = block :: outer ∧
      block.kind.takesElse = true ∧
      { b with blocks := { block with inElse := true } :: outer } = after := by
  constructor
  · intro h
    unfold switchBranch at h
    split at h
    · cases h
    · rename_i block outer hb
      split at h
      · rename_i hk
        exact ⟨block, outer, hb, hk, Except.ok.inj h⟩
      · cases h
  · intro h
    obtain ⟨block, outer, hb, hk, rfl⟩ := h
    simp [switchBranch, hb, hk]

theorem accept_text (h : t.kind = .text) : b.accept t = .ok (b.push (.text t.value)) := by
  simp [accept, h]

theorem accept_value {f : Fence} (h : t.IsValue f) :
    b.accept t = .ok (b.push (Node.ofFence f (Path.parse t.value))) := by
  obtain ⟨hk, ht⟩ := Token.isValue_iff.mp h
  simp [accept, hk, (Token.tag?_eq_some.mp ht).2]

theorem accept_else (h : t.IsElse) : b.accept t = b.switchBranch t.span := by
  obtain ⟨⟨f, hk⟩, ht⟩ := Token.tag?_eq_some.mp (Token.isElse_iff.mp h)
  simp [accept, hk, ht]

theorem accept_closing {name : String} (h : t.ClosesWith name) :
    b.accept t = b.closeBlock name t.span := by
  obtain ⟨⟨f, hk⟩, ht⟩ := Token.tag?_eq_some.mp (Token.closesWith_iff.mp h)
  simp [accept, hk, ht]

theorem accept_closes {root : List Node} {block : OpenBlock} {outer : List OpenBlock}
    (h : t.Closes block.kind) :
    accept ⟨root, block :: outer⟩ t = .ok (push ⟨root, outer⟩ block.toNode) := by
  rw [accept_closing h, closeBlock_eq_ok]
  exact ⟨block, outer, rfl, rfl, rfl⟩

/-- An opening tag is accepted if its keyword names a block. -/
theorem accept_opensWith {keyword expr : String} (h : t.OpensWith keyword expr) :
    b.accept t = match BlockKind.ofKeyword? keyword with
      | none => .error ⟨.unsupportedBlock keyword, t.span⟩
      | some k => .ok (b.openBlock k (Path.parse expr) t.span) := by
  obtain ⟨⟨f, hk⟩, ht⟩ := Token.tag?_eq_some.mp (Token.opensWith_iff.mp h)
  cases hw : BlockKind.ofKeyword? keyword <;> simp [accept, hk, ht, hw]

theorem accept_opening {k : BlockKind} {expr : String} (h : t.Opens k expr) :
    b.accept t = .ok (b.openBlock k (Path.parse expr) t.span) := by
  rw [accept_opensWith h, BlockKind.ofKeyword?_keyword]

/-- What a token that is accepted can be, and what it does. -/
theorem accept_cases {after : Builder} (h : b.accept t = .ok after) :
    (t.kind = .text ∧ after = b.push (.text t.value)) ∨
    (∃ f, t.IsValue f ∧ after = b.push (Node.ofFence f (Path.parse t.value))) ∨
    (∃ k expr, t.Opens k expr ∧ after = b.openBlock k (Path.parse expr) t.span) ∨
    (∃ block outer, b.blocks = block :: outer ∧ t.Closes block.kind ∧
      after = { b with blocks := outer }.push block.toNode) ∨
    (∃ block outer, b.blocks = block :: outer ∧ t.IsElse ∧ block.kind.takesElse = true ∧
      after = { b with blocks := { block with inElse := true } :: outer }) := by
  cases hk : t.kind with
  | text =>
    rw [accept_text hk] at h
    exact Or.inl ⟨rfl, (Except.ok.inj h).symm⟩
  | tag f =>
    right
    have ht := Token.tag?_eq_some.mpr ⟨⟨f, hk⟩, rfl⟩
    generalize Tag.ofBody t.value = tag at ht
    cases tag with
    | value expr =>
      obtain ⟨rfl, -⟩ := Tag.ofBody_eq_value.mp (Token.tag?_eq_some.mp ht).2
      have hv := Token.isValue_iff.mpr ⟨hk, ht⟩
      rw [accept_value hv] at h
      exact Or.inl ⟨f, hv, (Except.ok.inj h).symm⟩
    | opening keyword expr =>
      right; left
      cases hw : BlockKind.ofKeyword? keyword with
      | none => simp [accept, hk, (Token.tag?_eq_some.mp ht).2, hw] at h
      | some k =>
        obtain rfl := BlockKind.ofKeyword?_eq_some hw
        have ho : t.Opens k expr := Token.opensWith_iff.mpr ht
        rw [accept_opening ho] at h
        exact ⟨k, expr, ho, (Except.ok.inj h).symm⟩
    | closing name =>
      right; right; left
      have hc := Token.closesWith_iff.mpr ht
      rw [accept_closing hc, closeBlock_eq_ok] at h
      obtain ⟨block, outer, hb, rfl, rfl⟩ := h
      exact ⟨block, outer, hb, hc, rfl⟩
    | otherwise =>
      right; right; right
      have he := Token.isElse_iff.mpr ht
      rw [accept_else he, switchBranch_eq_ok] at h
      obtain ⟨block, outer, hb, hk, rfl⟩ := h
      exact ⟨block, outer, hb, he, hk, rfl⟩

@[simp] theorem acceptAll_nil (b : Builder) : b.acceptAll [] = ([], .ok b) := rfl

/-- The result of a run of tokens, one token at a time. -/
theorem acceptAll_cons (b : Builder) (t : Token) (ts : List Token) :
    (b.acceptAll (t :: ts)).2 = (b.accept t).bind (fun after => (after.acceptAll ts).2) := by
  rw [acceptAll]
  cases b.accept t <;> rfl

theorem acceptAll_cons_ok {after : Builder} (h : b.accept t = .ok after) (ts : List Token) :
    (b.acceptAll (t :: ts)).2 = (after.acceptAll ts).2 := by
  rw [acceptAll_cons, h]
  rfl

/-- An accepted run begins with an accepted token. -/
theorem acceptAll_cons_eq_ok {after : Builder} {ts : List Token}
    (h : (b.acceptAll (t :: ts)).2 = .ok after) :
    ∃ next, b.accept t = .ok next ∧ (next.acceptAll ts).2 = .ok after := by
  rw [acceptAll_cons] at h
  cases ht : b.accept t with
  | error e =>
    rw [ht] at h
    cases h
  | ok next =>
    rw [ht] at h
    exact ⟨next, rfl, h⟩

/-- A run is accepted in two parts as in one. -/
theorem acceptAll_append (b : Builder) (ts us : List Token) :
    (b.acceptAll (ts ++ us)).2 =
      (b.acceptAll ts).2.bind (fun after => (after.acceptAll us).2) := by
  induction ts generalizing b with
  | nil => rfl
  | cons t ts ih =>
    rw [List.cons_append, acceptAll_cons, acceptAll_cons]
    cases b.accept t with
    | error => rfl
    | ok after => exact ih after

theorem acceptAll_append_ok {after : Builder} {ts : List Token}
    (h : (b.acceptAll ts).2 = .ok after) (us : List Token) :
    (b.acceptAll (ts ++ us)).2 = (after.acceptAll us).2 := by
  rw [acceptAll_append, h]
  rfl

end Builder
end BraceTemplate
