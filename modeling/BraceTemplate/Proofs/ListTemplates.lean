import BraceTemplate.Proofs.BalancedBlocks
import BraceTemplate.Proofs.EscapedText

namespace BraceTemplate

def Json.Value.shown (v : Json.Value) : String := (v.text?.map Text.escapeHtml).getD ""

/-- A list as it is read out: commas between the items, but `and` before the last. -/
def inWords : List String → String
  | [] => ""
  | [only] => only
  | first :: second :: rest =>
    let others := second :: rest
    first ++ String.join (others.dropLast.map (", " ++ ·)) ++ " and " ++ others.getLast (by simp)

/-- What is read out before the item at an index of a list of `n` items. -/
def wordsBefore (i n : Nat) : String :=
  if i = 0 then "" else if i + 1 = n then " and " else ", "

/-- The item at an index of a list of `n` items, with all that its turn knows. -/
def withTurn (i n : Nat) (item : String) : String :=
  toString i ++ ":" ++ (if i = 0 then "F" else "") ++ (if i + 1 = n then "L" else "") ++ ":" ++
    item ++ ";"

namespace ListTemplate

def words : String :=
  doubleTag "#each County" ++
    doubleTag "#if @first" ++
      doubleTag "this" ++
    doubleTag "else" ++
      doubleTag "#if @last" ++
        " and " ++ doubleTag "this" ++
      doubleTag "else" ++
        ", " ++ doubleTag "this" ++
      doubleTag "/if" ++
    doubleTag "/if" ++
  doubleTag "/each"

def commas : String :=
  doubleTag "#each xs" ++
    doubleTag "#unless @first" ++ ", " ++ doubleTag "/unless" ++ doubleTag "this" ++
  doubleTag "/each"

def turns : String :=
  doubleTag "#each xs" ++
    doubleTag "@index" ++ ":" ++ doubleTag "#if @first" ++ "F" ++ doubleTag "/if" ++
    doubleTag "#if @last" ++ "L" ++ doubleTag "/if" ++ ":" ++ doubleTag "this" ++ ";" ++
  doubleTag "/each"

def this : Path := ⟨"this", []⟩
def index : Path := ⟨"@index", ["@index"]⟩
def first : Path := ⟨"@first", ["@first"]⟩
def last : Path := ⟨"@last", ["@last"]⟩

def wordsBody : Node :=
  .container [.ifBlock first (.container [.escaped this])
    (.container [.ifBlock last (.container [.text " and ", .escaped this])
      (.container [.text ", ", .escaped this])])]

def commasBody : Node :=
  .container [.unlessBlock first (.container [.text ", "]) .empty, .escaped this]

def turnsBody : Node :=
  .container [.escaped index, .text ":", .ifBlock first (.container [.text "F"]) .empty,
    .ifBlock last (.container [.text "L"]) .empty, .text ":", .escaped this, .text ";"]

theorem compile_words :
    compile words =
      .ok ⟨.container [.eachBlock ⟨"County", ["County"]⟩ wordsBody], .default⟩ := by
  decide +kernel

theorem compile_commas :
    compile commas = .ok ⟨.container [.eachBlock ⟨"xs", ["xs"]⟩ commasBody], .default⟩ := by
  decide +kernel

theorem compile_turns :
    compile turns = .ok ⟨.container [.eachBlock ⟨"xs", ["xs"]⟩ turnsBody], .default⟩ := by
  decide +kernel

end ListTemplate

namespace Context

def inTurn (c : Context) (v : Json.Value) (i n : Nat) : Context := c.push ⟨v, some (.turn i n)⟩

section

variable (c : Context) (v : Json.Value) (i n : Nat)

theorem get?_index : (c.inTurn v i n).get? ListTemplate.index = some (.number (.int i)) := rfl

theorem get?_this : (c.inTurn v i n).get? ListTemplate.this = some v := rfl

theorem isTruthy_first : (c.inTurn v i n).isTruthy ListTemplate.first = (i == 0) := by
  have hget : (c.inTurn v i n).get? ListTemplate.first = some (.bool (i == 0)) := rfl
  rw [isTruthy, hget]
  cases i == 0 <;> rfl

theorem isTruthy_last : (c.inTurn v i n).isTruthy ListTemplate.last = (i + 1 == n) := by
  have hget : (c.inTurn v i n).get? ListTemplate.last = some (.bool (i + 1 == n)) := rfl
  rw [isTruthy, hget]
  cases i + 1 == n <;> rfl

end

end Context

theorem join_toList (chunk : Option String) : String.join chunk.toList = chunk.getD "" := by
  cases chunk <;> simp

theorem join_flatMap {α : Type} (xs : List α) (f : α → List String) :
    String.join (xs.flatMap f) = String.join (xs.map fun x => String.join (f x)) := by
  induction xs with
  | nil => rfl
  | cons x xs ih => rw [List.flatMap_cons, String.join_append, ih, List.map_cons, String.join_cons]

/-- No digit is escaped. -/
theorem shown_int (i : Nat) : Json.Value.shown (.number (.int i)) = toString i := by
  have hplain : (Nat.toDigits 10 i).flatMap Text.htmlChar = Nat.toDigits 10 i := by
    refine Text.flatMap_htmlChar_of_plain fun c hc => Text.plain_of_isDigit ?_
    exact Nat.isDigit_of_mem_toDigits (by decide) (by decide) hc
  have htext : (Json.Value.number (.int i)).text? = some (toString i) := by
    simp [Json.Value.text?, Json.Value.json, Json.Number.text, Nat.repr]
  rw [Json.Value.shown, htext]
  apply String.toList_inj.mp
  simpa [Text.toList_escapeHtml, Nat.repr] using hplain

theorem join_chunks_escaped {c : Context} {p : Path} {v : Json.Value} (h : c.get? p = some v) :
    String.join ((Node.escaped p).chunks c) = v.shown := by
  rw [Node.chunks, h, join_toList]
  rfl

namespace Template

/-- A loop over a list writes for each item what its body writes in the turn of the item. -/
theorem render_each {p : Path} {body : Node} {text : Nat → Nat → String → String}
    (hbody : ∀ c v i n, String.join (body.chunks (Context.inTurn c v i n)) = text i n v.shown)
    {data : Json.Value} {xs : List Json.Value} (h : data.lookup? p.segments = some (.array xs)) :
    render ⟨.container [.eachBlock p body], .default⟩ data =
      .ok (String.join ((xs.map Json.Value.shown).mapIdx fun i item => text i xs.length item)) := by
  let c := Context.start data true
  have hget : c.get? p = some (.array xs) := (Context.get?_start data true p).trans h
  have hturns : (c.turns p).map (fun s => String.join (body.chunks (c.push s))) =
      (xs.map Json.Value.shown).mapIdx fun i item => text i xs.length item := by
    apply List.ext_getElem
    · simp [Context.turns, Context.items, hget]
    · intro i hi hi'
      simp only [Context.turns, Context.items, hget, List.getElem_map, List.getElem_mapIdx]
      exact hbody c _ i xs.length
  have hchunks : (Node.container [.eachBlock p body]).chunks c =
      (c.turns p).flatMap fun s => body.chunks (c.push s) := by
    simp only [Node.chunks, Node.chunksAll, List.append_nil]
  rw [render_eq]
  change Except.ok (String.join (Node.chunks _ c)) = _
  rw [hchunks, join_flatMap, hturns]

end Template

section

variable (c : Context) (v : Json.Value) (i n : Nat)

open ListTemplate Context

theorem join_chunks_wordsBody :
    String.join (wordsBody.chunks (c.inTurn v i n)) = wordsBefore i n ++ v.shown := by
  have hthis := join_chunks_escaped (c.get?_this v i n)
  unfold wordsBefore
  simp only [wordsBody, Node.chunks, Node.chunksAll, isTruthy_first, isTruthy_last, beq_iff_eq,
    List.append_nil] at hthis ⊢
  split
  · rw [hthis, String.empty_append]
  · split
    · rw [List.singleton_append, String.join_cons, hthis]
    · rw [List.singleton_append, String.join_cons, hthis]

theorem join_chunks_commasBody :
    String.join (commasBody.chunks (c.inTurn v i n)) = (if i = 0 then "" else ", ") ++ v.shown := by
  have hthis := join_chunks_escaped (c.get?_this v i n)
  simp only [commasBody, Node.empty, Node.chunks, Node.chunksAll, isTruthy_first, beq_iff_eq,
    List.append_nil] at hthis ⊢
  split
  · rw [List.nil_append, hthis, String.empty_append]
  · rw [List.singleton_append, String.join_cons, hthis]

theorem join_chunks_turnsBody :
    String.join (turnsBody.chunks (c.inTurn v i n)) = withTurn i n v.shown := by
  have hthis := join_chunks_escaped (c.get?_this v i n)
  have hindex := join_chunks_escaped (c.get?_index v i n)
  rw [shown_int] at hindex
  simp only [turnsBody, Node.empty, Node.chunks, Node.chunksAll, isTruthy_first, isTruthy_last,
    beq_iff_eq, List.append_nil, String.join_append, String.join_cons] at hthis hindex ⊢
  rw [hthis, hindex, withTurn]
  split <;> split <;>
    simp only [String.join_cons, String.join_nil, String.append_assoc, String.append_empty,
      String.empty_append]

end

/-- Each item but the first has a comma in front of it. -/
theorem join_commas (first : String) (rest : List String) :
    first ++ String.join (rest.map (", " ++ ·)) = ", ".intercalate (first :: rest) := by
  induction rest generalizing first with
  | nil => simp
  | cons second rest ih =>
    rw [List.map_cons, String.join_cons, String.intercalate_cons_cons, ← ih second]
    simp only [String.append_assoc]

theorem inWords_concat (first : String) (middle : List String) (last : String) :
    inWords (first :: (middle ++ [last])) =
      first ++ String.join (middle.map (", " ++ ·)) ++ " and " ++ last := by
  cases middle with
  | nil => simp [inWords]
  | cons second middle =>
    rw [List.cons_append, inWords]
    simp only [← List.cons_append, List.dropLast_concat, List.getLast_append_singleton]

example : inWords ["Kane", "Salt Lake", "Weber"] = "Kane, Salt Lake and Weber" := rfl

/-- Item by item, a list is read out in words. -/
theorem join_wordsBefore (items : List String) :
    String.join (items.mapIdx fun i item => wordsBefore i items.length ++ item) =
      inWords items := by
  cases items with
  | nil => rfl
  | cons first rest =>
    rw [List.mapIdx_cons, String.join_cons, List.length_cons]
    obtain rfl | ⟨middle, last, rfl⟩ := rest.eq_nil_or_concat'
    · simp [inWords, wordsBefore]
    · rw [List.length_append, List.length_singleton]
      -- between the first item and the last no turn is at an end of the list
      have hmiddle : (middle.mapIdx fun i item =>
          wordsBefore (i + 1) (middle.length + 1 + 1) ++ item) = middle.map (", " ++ ·) := by
        apply List.ext_getElem
        · simp
        · intro i hi hi'
          have hlt : i < middle.length := by simpa using hi
          have hne : i + 1 + 1 ≠ middle.length + 1 + 1 := by omega
          simp only [List.getElem_mapIdx, List.getElem_map, wordsBefore,
            if_neg (Nat.succ_ne_zero i), if_neg hne]
      rw [List.mapIdx_concat, String.join_append, hmiddle, inWords_concat]
      simp [wordsBefore, String.append_assoc]

theorem join_commaBefore (items : List String) :
    String.join (items.mapIdx fun i item => (if i = 0 then "" else ", ") ++ item) =
      ", ".intercalate items := by
  cases items with
  | nil => rfl
  | cons first rest =>
    have hrest : (rest.mapIdx fun i item => (if i + 1 = 0 then "" else ", ") ++ item) =
        rest.map (", " ++ ·) := by
      apply List.ext_getElem <;> simp
    rw [List.mapIdx_cons, String.join_cons, if_pos rfl, String.empty_append, hrest, join_commas]

/-- The templates for lists write each list as they are meant to, of any length and with items of
any kind. -/
theorem list_templates_render :
    (∃ t, compile ListTemplate.words = .ok t ∧
      ∀ (xs : List Json.Value) (data : Json.Value), data.member? "County" = some (.array xs) →
        t.render data = .ok (inWords (xs.map Json.Value.shown))) ∧
    (∃ t, compile ListTemplate.commas = .ok t ∧
      ∀ (xs : List Json.Value) (data : Json.Value), data.member? "xs" = some (.array xs) →
        t.render data = .ok (", ".intercalate (xs.map Json.Value.shown))) ∧
    ∃ t, compile ListTemplate.turns = .ok t ∧
      ∀ (xs : List Json.Value) (data : Json.Value), data.member? "xs" = some (.array xs) →
        t.render data = .ok (String.join
          ((xs.map Json.Value.shown).mapIdx fun i item => withTurn i xs.length item)) := by
  have hlookup {data : Json.Value} {name : String} {xs : List Json.Value}
      (h : data.member? name = some (.array xs)) : data.lookup? [name] = some (.array xs) := by
    rw [Json.Value.lookup?, h]
    rfl
  refine ⟨⟨_, ListTemplate.compile_words, fun xs data h => ?_⟩,
    ⟨_, ListTemplate.compile_commas, fun xs data h => ?_⟩,
    ⟨_, ListTemplate.compile_turns, fun xs data h => ?_⟩⟩
  · rw [Template.render_each join_chunks_wordsBody (hlookup h), ← join_wordsBefore,
      List.length_map]
  · rw [Template.render_each join_chunks_commasBody (hlookup h), ← join_commaBefore]
  · exact Template.render_each join_chunks_turnsBody (hlookup h)

/-- A list with markup, `null` and an object that has a member with the name of a turn's. -/
theorem list_templates_render_mixed :
    let xs : List Json.Value := [.string "<", .null, .object [("@index", .bool true)]]
    let data : Json.Value := .object [("County", .array xs), ("xs", .array xs)]
    data.member? "County" = some (.array xs) ∧ data.member? "xs" = some (.array xs) ∧
    (∃ t, compile ListTemplate.words = .ok t ∧
      t.render data = .ok "&lt;,  and {&quot;@index&quot;:true}") ∧
    (∃ t, compile ListTemplate.commas = .ok t ∧
      t.render data = .ok "&lt;, , {&quot;@index&quot;:true}") ∧
    ∃ t, compile ListTemplate.turns = .ok t ∧
      t.render data = .ok "0:F:&lt;;1::;2:L:{&quot;@index&quot;:true};" := by
  intro xs data
  have hcounty : data.member? "County" = some (.array xs) := rfl
  have hxs : data.member? "xs" = some (.array xs) := rfl
  have hshown : xs.map Json.Value.shown = ["&lt;", "", "{&quot;@index&quot;:true}"] := by
    decide +kernel
  obtain ⟨⟨words, hwords, hinWords⟩, ⟨commas, hcommas, hseparated⟩, turns, hturns, hinTurns⟩ :=
    list_templates_render
  refine ⟨hcounty, hxs, ⟨words, hwords, ?_⟩, ⟨commas, hcommas, ?_⟩, turns, hturns, ?_⟩
  · rw [hinWords xs data hcounty, hshown]
    rfl
  · rw [hseparated xs data hxs, hshown]
    rfl
  · rw [hinTurns xs data hxs, hshown]
    exact congrArg Except.ok (by decide +kernel)

end BraceTemplate
