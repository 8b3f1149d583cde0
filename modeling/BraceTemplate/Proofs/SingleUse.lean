import BraceTemplate.Proofs.ChunkOutput
import Mathlib.Data.List.Basic

namespace BraceTemplate

variable {σ α : Type}

/-- While it is free, a sink takes every chunk, holds it behind what it held and stays free. -/
structure Sink.Unlimited (sink : Sink σ RenderError) (free : σ → Prop) (held : σ → String) :
    Prop where
  takes : ∀ {out}, free out → ∀ chunk, (sink.offer out chunk).1 = .ok ()
  stays : ∀ {out}, free out → ∀ chunk, free (sink.offer out chunk).2
  holds : ∀ {out}, free out → ∀ chunk, held (sink.offer out chunk).2 = held out ++ chunk

theorem Sink.unlimited_text : Sink.text.Unlimited (fun _ => True) id :=
  ⟨fun _ _ => rfl, fun _ _ => trivial, fun _ _ => rfl⟩

theorem BoundedText.offer_of_no_limit {t : BoundedText} (h : t.limit = none) (chunk : String) :
    sink.offer t chunk =
      (.ok (), { t with text := t.text ++ chunk, chunks := t.chunks ++ [chunk] }) := by
  simp [sink, offer, fits, h]

theorem BoundedText.unlimited : sink.Unlimited (fun t => t.limit = none) text := by
  constructor
  · intro t h chunk
    rw [offer_of_no_limit h]
  · intro t h chunk
    rwa [offer_of_no_limit h]
  · intro t h chunk
    rw [offer_of_no_limit h]

/-- What comes before all output: a template that compiles and data that is converted. -/
def prepare (convert : α → Except ConversionError Json.Value) (source : String) (d : α) :
    Except Error (Template × Json.Value) :=
  match compile source with
  | .error error => .error (.compile error)
  | .ok t =>
    match convert d with
    | .error error => .error (.render (.data error))
    | .ok data => .ok (t, data)

section

variable (convert : α → Except ConversionError Json.Value) (source : String) (d : α)

/-- The sink is first offered a chunk when all is prepared. -/
theorem writeOnce_eq_prepare (sink : Sink σ RenderError) (out : σ) :
    writeOnce convert sink source d out =
      match prepare convert source d with
      | .error error => (.error error, out)
      | .ok (t, data) =>
        ((t.renderTo sink data out).1.mapError .render, (t.renderTo sink data out).2) := by
  unfold writeOnce prepare
  cases compile source with
  | error error => rfl
  | ok t =>
    cases convert d with
    | error error => rfl
    | ok data =>
      dsimp only
      generalize t.renderTo sink data out = written
      obtain ⟨result, after⟩ := written
      cases result <;> rfl

theorem renderOnce_eq_prepare :
    renderOnce convert source d =
      match prepare convert source d with
      | .error error => .error error
      | .ok (t, data) => (t.render data).mapError .render := by
  unfold renderOnce prepare Template.renderConverted
  cases compile source with
  | error error => rfl
  | ok t =>
    cases convert d with
    | error error => rfl
    | ok data =>
      dsimp only
      cases t.render data <;> rfl

end

namespace Sink.Unlimited

variable {sink : Sink σ RenderError} {free : σ → Prop} {held : σ → String} {out : σ}

/-- An unlimited sink takes all chunks and holds them behind what it held. -/
theorem offerAll_holds (h : sink.Unlimited free held) (chunks : List String) (hfree : free out) :
    (sink.offerAll chunks out).1 = .ok () ∧
      held (sink.offerAll chunks out).2 = held out ++ String.join chunks := by
  induction chunks generalizing out with
  | nil => simp [offerAll]
  | cons chunk chunks ih =>
    -- the later chunks are for the sink that the first one leaves, which is free again
    obtain ⟨hresult, hheld⟩ := ih (h.stays hfree chunk)
    have hoffer : sink.offer out chunk = (.ok (), (sink.offer out chunk).2) :=
      Prod.ext (h.takes hfree chunk) rfl
    rw [offerAll, hoffer]
    refine ⟨hresult, ?_⟩
    rw [hheld, h.holds hfree, String.join_cons, String.append_assoc]

/-- The rendered text comes behind whatever an unlimited sink holds. -/
theorem renderTo_holds (h : sink.Unlimited free held) (t : Template) (data : Json.Value)
    (hfree : free out) :
    ∃ text after, t.render data = .ok text ∧ t.renderTo sink data out = (.ok (), after) ∧
      held after = held out ++ text := by
  obtain ⟨hresult, hheld⟩ := h.offerAll_holds (t.root.chunks (t.context data)) hfree
  refine ⟨_, _, t.render_eq data, ?_, hheld⟩
  rw [Template.renderTo_eq]
  exact Prod.ext hresult rfl

/-- Writing into an unlimited sink ends as rendering does, and fails before the sink is touched. -/
theorem writeOnce_holds (h : sink.Unlimited free held)
    (convert : α → Except ConversionError Json.Value) (source : String) (d : α)
    (hfree : free out) :
    match renderOnce convert source d with
    | .ok text => ∃ after, writeOnce convert sink source d out = (.ok (), after) ∧
        held after = held out ++ text
    | .error error => writeOnce convert sink source d out = (.error error, out) := by
  rw [renderOnce_eq_prepare, writeOnce_eq_prepare]
  cases prepare convert source d with
  | error error => rfl
  | ok prepared =>
    obtain ⟨t, data⟩ := prepared
    obtain ⟨text, after, hrender, hwrite, hheld⟩ := h.renderTo_holds t data hfree
    simp only [hrender, hwrite, Except.mapError]
    exact ⟨after, rfl, hheld⟩

end Sink.Unlimited

/-- All ways to use a template once agree. One that does not compile, and then data that cannot be
converted, end the use before the sink is touched; else the sink is written to as by the compiled
template. What an unlimited sink holds grows by just the rendered text. -/
theorem single_use_agrees (convert : α → Except ConversionError Json.Value) (source : String)
    (d : α) (sink : Sink σ RenderError) (out : σ) :
    (∀ error, compile source = .error error →
      writeOnce convert sink source d out = (.error (.compile error), out)) ∧
    (∀ t error, compile source = .ok t → convert d = .error error →
      writeOnce convert sink source d out = (.error (.render (.data error)), out)) ∧
    (∀ t data, compile source = .ok t → convert d = .ok data →
      writeOnce convert sink source d out =
        ((t.renderTo sink data out).1.mapError .render, (t.renderTo sink data out).2)) ∧
    (∀ free held, sink.Unlimited free held → free out →
      (∀ text, renderOnce convert source d = .ok text ↔
        (writeOnce convert sink source d out).1 = .ok () ∧
          held (writeOnce convert sink source d out).2 = held out ++ text) ∧
      ∀ error, renderOnce convert source d = .error error ↔
        writeOnce convert sink source d out = (.error error, out)) ∧
    ∀ t : Template,
      (∀ data, convert d = .ok data → t.renderConverted convert d = t.render data) ∧
      ∀ error, convert d = .error error → t.renderConverted convert d = .error (.data error) := by
  refine ⟨?_, ?_, ?_, ?_, ?_⟩
  · intro error hcompile
    simp only [writeOnce_eq_prepare, prepare, hcompile]
  · intro t error hcompile hconvert
    simp only [writeOnce_eq_prepare, prepare, hcompile, hconvert]
  · intro t data hcompile hconvert
    simp only [writeOnce_eq_prepare, prepare, hcompile, hconvert]
  · intro free held h hfree
    have hwrite := h.writeOnce_holds convert source d hfree
    cases hrender : renderOnce convert source d with
    | ok text =>
      rw [hrender] at hwrite
      obtain ⟨after, hafter, hheld⟩ := hwrite
      simp [hafter, hheld, eq_comm]
    | error error =>
      rw [hrender] at hwrite
      simp [hwrite]
  · intro t
    constructor
    · intro data hconvert
      rw [Template.renderConverted, hconvert]
    · intro error hconvert
      rw [Template.renderConverted, hconvert]

/-- Two sinks without a limit that hold a text before. -/
theorem single_use_agrees_behind :
    let source := "{{a}}"
    let d : Datum := .map [(.char 'a', .variant "b")]
    render source d = .ok "b" ∧
      (renderTo BoundedText.sink source d (.start ">" none)).2.text = ">" ++ "b" ∧
      (renderTo Sink.text source d ">").2 = ">" ++ "b" := by
  intro source d
  have hrender : render source d = .ok "b" := by decide +kernel
  have hbounded := (single_use_agrees Datum.toValue source d BoundedText.sink
    (.start ">" none)).2.2.2.1 _ _ BoundedText.unlimited rfl
  have htext := (single_use_agrees Datum.toValue source d Sink.text ">").2.2.2.1 _ _
    Sink.unlimited_text trivial
  exact ⟨hrender, ((hbounded.1 "b").mp hrender).2, ((htext.1 "b").mp hrender).2⟩

end BraceTemplate
