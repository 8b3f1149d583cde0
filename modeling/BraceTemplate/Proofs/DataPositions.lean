import BraceTemplate.Proofs.LoopUnrolling
import BraceTemplate.Proofs.PathSegments

namespace BraceTemplate

namespace Json

inductive Access
  | key (name : String)
  | index (i : Nat)
deriving DecidableEq, Repr

namespace Access

def text : Access → String
  | key name => name
  | index i => toString i

def dotted (steps : List Access) : String := ".".intercalate (steps.map text)

/-- What a segment can name: a key by its own text, and an index by digits, zeros in front of them
and a plus sign included. -/
inductive NamedBy : Access → String → Prop
  | key (name : String) : NamedBy (key name) name
  | index {digits : List Char} {s : String} (hne : digits ≠ [])
      (hd : ∀ c ∈ digits, c.isDigit = true) (hs : s.toList = digits ∨ s.toList = '+' :: digits) :
      NamedBy (index (Decimal.ofDigits digits)) s

end Access

namespace Value

/-- The value that stands at the end of steps into another. There is no step into a scalar. -/
inductive Holds : Value → List Access → Value → Prop
  | here (v : Value) : v.Holds [] v
  | member {members : List (String × Value)} {name : String} {u w : Value} {steps : List Access}
      (h : members.lookup name = some u) (rest : u.Holds steps w) :
      (object members).Holds (.key name :: steps) w
  | item {items : List Value} {i : Nat} {u w : Value} {steps : List Access}
      (h : items[i]? = some u) (rest : u.Holds steps w) :
      (array items).Holds (.index i :: steps) w

/-- An index may be written with zeros in front of its digits, and with a plus sign. -/
theorem index?_eq_some_iff {s : String} {i : Nat} :
    index? s = some i ↔ (Access.index i).NamedBy s := by
  constructor
  · intro h
    have hread : ∀ digits : List Char, s.toList = digits ∨ s.toList = '+' :: digits →
        (if digits.isEmpty || !digits.all Char.isDigit then none
          else some (Decimal.ofDigits digits)) = some i → (Access.index i).NamedBy s := by
      intro digits hs hdigits
      split at hdigits
      · cases hdigits
      · rename_i hgood
        obtain rfl := Option.some.inj hdigits
        simp only [Bool.or_eq_true, List.isEmpty_iff, Bool.not_eq_true', not_or,
          Bool.not_eq_false, List.all_eq_true] at hgood
        exact .index hgood.1 hgood.2 hs
    unfold index? at h
    split at h
    · rename_i hs
      exact hread _ (.inr hs) h
    · exact hread _ (.inl rfl) h
  · intro h
    cases h with
    | index hne hd hs => exact index?_of_digits hne hd hs

/-- A segment reaches the member or the item that it names. -/
theorem member?_eq_some_iff {v u : Value} {segment : String} :
    v.member? segment = some u ↔ ∃ a : Access, a.NamedBy segment ∧ v.Holds [a] u := by
  constructor
  · intro h
    cases v with
    | object members => exact ⟨_, .key segment, .member h (.here u)⟩
    | array items =>
      obtain ⟨i, hi, hu⟩ := Option.bind_eq_some_iff.mp h
      exact ⟨_, index?_eq_some_iff.mp hi, .item hu (.here u)⟩
    | null | bool | number | string => cases h
  · rintro ⟨a, ha, hv⟩
    cases hv with
    | member h rest =>
      cases rest
      cases ha
      exact h
    | item h rest =>
      cases rest
      rw [member?, index?_eq_some_iff.mpr ha]
      exact h

theorem holds_cons {v w : Value} {a : Access} {steps : List Access} :
    v.Holds (a :: steps) w ↔ ∃ u, v.Holds [a] u ∧ u.Holds steps w := by
  constructor
  · intro h
    cases h with
    | member h rest => exact ⟨_, .member h (.here _), rest⟩
    | item h rest => exact ⟨_, .item h (.here _), rest⟩
  · rintro ⟨u, h, hsteps⟩
    cases h with
    | member h rest =>
      cases rest
      exact .member h hsteps
    | item h rest =>
      cases rest
      exact .item h hsteps

/-- Segments find what stands at the end of the steps that they name, and nothing else. -/
theorem lookup?_eq_some_iff {v w : Value} {segments : List String} :
    v.lookup? segments = some w ↔
      ∃ steps, List.Forall₂ Access.NamedBy steps segments ∧ v.Holds steps w := by
  induction segments generalizing v with
  | nil =>
    constructor
    · intro h
      obtain rfl := Option.some.inj h
      exact ⟨[], .nil, .here v⟩
    · rintro ⟨steps, hnamed, hv⟩
      cases hnamed
      cases hv
      rfl
  | cons segment segments ih =>
    rw [lookup?, Option.bind_eq_some_iff]
    constructor
    · rintro ⟨u, hu, hw⟩
      obtain ⟨a, ha, hv⟩ := member?_eq_some_iff.mp hu
      obtain ⟨steps, hnamed, hsteps⟩ := ih.mp hw
      exact ⟨a :: steps, .cons ha hnamed, holds_cons.mpr ⟨u, hv, hsteps⟩⟩
    · rintro ⟨steps, hnamed, hv⟩
      cases hnamed with
      | cons ha hnamed =>
        obtain ⟨u, hu, hsteps⟩ := holds_cons.mp hv
        exact ⟨u, member?_eq_some_iff.mpr ⟨_, ha, hu⟩, ih.mpr ⟨_, hnamed, hsteps⟩⟩

end Value

namespace Access

/-- Every step is named by its text. -/
theorem namedBy_text (a : Access) : a.NamedBy a.text := by
  cases a with
  | key name => exact .key name
  | index i => exact Value.index?_eq_some_iff.mp (Value.index?_toString i)

/-- Every step is named by its own text. -/
theorem forall₂_namedBy_text (steps : List Access) :
    List.Forall₂ NamedBy steps (steps.map text) := by
  rw [List.forall₂_map_right_iff, List.forall₂_same]
  exact fun a _ => a.namedBy_text

/-- Digits are no dots, so that only keys can be torn apart. -/
theorem undotted_text {steps : List Access} (h : ∀ name, .key name ∈ steps → '.' ∉ name.toList) :
    Path.Undotted (steps.map text) := by
  intro s hs
  obtain ⟨a, ha, rfl⟩ := List.mem_map.mp hs
  cases a with
  | key name => exact h name ha
  | index i =>
    intro hdot
    rw [text, Nat.toString_eq_repr, Nat.toList_repr] at hdot
    cases Nat.isDigit_of_mem_toDigits (by decide) (by decide) hdot

/-- A text that is no number is the text of a key alone. -/
theorem eq_key_of_text {a : Access} {name : String} (h : a.text = name)
    (hname : Value.index? name = none) : a = .key name := by
  cases a with
  | key name' => exact congrArg key h
  | index i =>
    rw [← h, text, Value.index?_toString] at hname
    cases hname

/-- Steps whose texts name a turn are the one step to a member of that name. -/
theorem mem_turnKeys {steps : List Access}
    (h : steps.map text ∈ [["@index"], ["@first"], ["@last"]]) :
    steps ∈ [[.key "@index"], [.key "@first"], [.key "@last"]] := by
  have hone : ∀ name, Value.index? name = none → steps.map text = [name] →
      steps = [.key name] := by
    intro name hname hsteps
    obtain ⟨a, rfl, ha⟩ := List.map_eq_singleton_iff.mp hsteps
    rw [eq_key_of_text ha hname]
  simp only [List.mem_cons, List.not_mem_nil, or_false] at h ⊢
  rcases h with h | h | h
  · exact .inl (hone _ (by decide) h)
  · exact .inr (.inl (hone _ (by decide) h))
  · exact .inr (.inr (hone _ (by decide) h))

end Access
end Json

/-- In a scope that is not a turn of a loop, a path finds what stands at the end of the steps that
its segments name. -/
theorem Context.get?_eq_some_iff {c : Context} {s : Scope} {p : Path}
    (hs : c.scopes.head? = some s) (hturn : s.iteration = none) {w : Json.Value} :
    c.get? p = some w ↔
      ∃ steps, List.Forall₂ Json.Access.NamedBy steps p.segments ∧ s.value.Holds steps w := by
  rw [Context.get?, hs, Option.bind_some, Scope.get?_eq_lookup? (.inl hturn),
    Json.Value.lookup?_eq_some_iff]

/-- In a turn of a loop, the one name of a turn finds what the turn knows. -/
theorem Context.get?_eq_turn {c : Context} {s : Scope} {p : Path} {turn : Iteration} {name : String}
    {found : Json.Value} (hs : c.scopes.head? = some s) (hturn : s.iteration = some turn)
    (hp : p.segments = [name]) (hname : turn.member? name = some found) :
    c.get? p = some found := by
  rw [Context.get?, hs, Option.bind_some, hp, Scope.get?, hturn, Option.bind_some, hname,
    Option.some_or]

/-- Each position in the data has a path text, which finds the value there, but for the names of a
turn in its own scope. A path finds nothing but such values. -/
theorem positions_have_paths :
    (∀ (v w : Json.Value) (steps : List Json.Access), v.Holds steps w →
      (∀ name, .key name ∈ steps → '.' ∉ name.toList) → Json.Access.dotted steps ≠ "" →
      (∀ c ∈ (Json.Access.dotted steps).toList.getLast?, Text.isBlank c = false) →
      ∀ (c : Context) (s : Scope), c.scopes.head? = some s → s.value = v →
        (s.iteration = none ∨ steps ∉ [[.key "@index"], [.key "@first"], [.key "@last"]] →
          c.get? (Path.parse ("this." ++ Json.Access.dotted steps)) = some w) ∧
        ∀ turn, s.iteration = some turn → ∀ name found,
          (name, found) ∈ [("@index", Json.Value.number (.int turn.index)),
            ("@first", .bool turn.first), ("@last", .bool turn.last)] → steps = [.key name] →
          c.get? (Path.parse ("this." ++ Json.Access.dotted steps)) = some found) ∧
    ∀ (e : String) (c : Context) (s : Scope), c.scopes.head? = some s → s.iteration = none →
      (∀ w, c.get? (Path.parse e) = some w ↔ ∃ steps,
        List.Forall₂ Json.Access.NamedBy steps (Path.parse e).segments ∧ s.value.Holds steps w) ∧
      (c.get? (Path.parse e) = none ↔ ∀ steps w,
        List.Forall₂ Json.Access.NamedBy steps (Path.parse e).segments →
          ¬ s.value.Holds steps w) := by
  constructor
  · intro v w steps hv hdots hne hend c s hs hvalue
    have hsegments := Path.segments_parse_this (Json.Access.undotted_text hdots) hne hend
    subst hvalue
    constructor
    · intro hplain
      have hlookup := Json.Value.lookup?_eq_some_iff.mpr
        ⟨steps, Json.Access.forall₂_namedBy_text steps, hv⟩
      rw [← hsegments] at hlookup
      rw [Context.get?, hs, Option.bind_some, Scope.get?_eq_lookup?]
      · exact hlookup
      · exact hplain.imp_right fun hkeys hnames =>
          hkeys (Json.Access.mem_turnKeys (hsegments ▸ hnames))
    · intro turn hturn name found hname hsteps
      subst hsteps
      refine Context.get?_eq_turn hs hturn hsegments ?_
      simp only [List.mem_cons, List.not_mem_nil, or_false, Prod.mk.injEq] at hname
      rcases hname with ⟨rfl, rfl⟩ | ⟨rfl, rfl⟩ | ⟨rfl, rfl⟩ <;> rfl
  · intro e c s hs hturn
    refine ⟨fun w => Context.get?_eq_some_iff hs hturn, ?_⟩
    rw [Option.eq_none_iff_forall_ne_some]
    simp only [Ne, Context.get?_eq_some_iff hs hturn, not_exists, not_and]
    exact forall_comm

/-- A position behind an empty key, the name of a turn in a turn and outside of one, and an index
with a sign and a zero in front. -/
theorem positions_have_paths_turn :
    let v : Json.Value := .object [("", .array [.null, .object [(" a", .bool true)]]),
      ("@last", .string "l")]
    let turn : Context := ⟨[⟨v, some (.turn 0 2)⟩], true⟩
    let inner : Context := ⟨[⟨v, none⟩], true⟩
    let steps : List Json.Access := [.key "", .index 1, .key " a"]
    v.Holds steps (.bool true) ∧ v.Holds [.key "@last"] (.string "l") ∧
    Json.Access.dotted steps = ".1. a" ∧
    turn.get? (Path.parse ("this." ++ Json.Access.dotted steps)) = some (.bool true) ∧
    turn.get? (Path.parse ("this." ++ Json.Access.dotted [.key "@last"])) = some (.bool false) ∧
    inner.get? (Path.parse ("this." ++ Json.Access.dotted [.key "@last"])) = some (.string "l") ∧
    inner.get? (Path.parse " .+01. a ") = some (.bool true) := by
  intro v turn inner steps
  have hv : v.Holds steps (.bool true) := .member rfl (.item rfl (.member rfl (.here _)))
  have hlast : v.Holds [.key "@last"] (.string "l") := .member rfl (.here _)
  have hdots : ∀ name, .key name ∈ steps → '.' ∉ name.toList := by simp [steps]
  have htext : Json.Access.dotted steps = ".1. a" := by decide +kernel
  have hend : ∀ c ∈ ".1. a".toList.getLast?, Text.isBlank c = false := by
    simp [Text.isBlank, Text.blankRanges]
  have hdot : ∀ name, .key name ∈ [Json.Access.key "@last"] → '.' ∉ name.toList := by simp
  have hname : Json.Access.dotted [.key "@last"] = "@last" := by decide +kernel
  have hlastEnd : ∀ c ∈ "@last".toList.getLast?, Text.isBlank c = false := by
    simp [Text.isBlank, Text.blankRanges]
  have hone : Json.Access.index 1 = .index (Decimal.ofDigits ['0', '1']) := by decide +kernel
  refine ⟨hv, hlast, htext, ?_, ?_, ?_, ?_⟩
  · exact (positions_have_paths.1 v _ steps hv hdots (by simp [htext]) (htext ▸ hend) turn _ rfl
      rfl).1 (.inr (by decide))
  · exact (positions_have_paths.1 v _ _ hlast hdot (by simp [hname]) (hname ▸ hlastEnd) turn _ rfl
      rfl).2 _ rfl "@last" _ (by simp [Iteration.turn]) rfl
  · exact (positions_have_paths.1 v _ _ hlast hdot (by simp [hname]) (hname ▸ hlastEnd) inner _ rfl
      rfl).1 (.inl rfl)
  · refine ((positions_have_paths.2 " .+01. a " inner _ rfl rfl).1 _).mpr ⟨steps, ?_, hv⟩
    have hsegments : (Path.parse " .+01. a ").segments = ["", "+01", " a"] := by decide +kernel
    rw [hsegments]
    refine .cons (.key "") (.cons ?_ (.cons (.key " a") .nil))
    rw [hone]
    exact .index (by simp) (by simp [Char.isDigit]) (.inr (by simp))

end BraceTemplate
