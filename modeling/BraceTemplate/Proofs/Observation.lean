import BraceTemplate.Proofs.ChunkOutput

namespace BraceTemplate

variable {σ ε : Type}

namespace Sink

/-- The sink with a log of the chunks that it is offered, a refused one included. -/
def logged (sink : Sink σ ε) : Sink (σ × List String) ε :=
  ⟨fun (out, log) chunk =>
    let (result, after) := sink.offer out chunk
    (result, after, log ++ [chunk])⟩

/-- A log does not change the answers of a sink, and grows by a front of the chunks. -/
theorem offerAll_logged (sink : Sink σ ε) (chunks : List String) (out : σ) (log : List String) :
    ∃ front, front <+: chunks ∧
      sink.logged.offerAll chunks (out, log) =
        ((sink.offerAll chunks out).1, (sink.offerAll chunks out).2, log ++ front) := by
  induction chunks generalizing out log with
  | nil => exact ⟨[], List.prefix_rfl, by simp [offerAll]⟩
  | cons chunk chunks ih =>
    generalize h : sink.offer out chunk = answer
    obtain ⟨result, after⟩ := answer
    have hlogged : sink.logged.offer (out, log) chunk = (result, after, log ++ [chunk]) := by
      simp [logged, h]
    cases result with
    | error error => exact ⟨[chunk], by simp, by simp [offerAll, h, hlogged]⟩
    | ok =>
      obtain ⟨front, hfront, hoffer⟩ := ih after (log ++ [chunk])
      refine ⟨chunk :: front, List.cons_prefix_cons.mpr ⟨rfl, hfront⟩, ?_⟩
      simp [offerAll, h, hlogged, hoffer]

end Sink

namespace Node

def offered (n : Node) (sink : Sink σ ε) (c : Context) (out : σ) : List String :=
  (n.write sink.logged c (out, [])).out.2

/-- A sink is offered the chunks of the tree in their order, and may refuse before the last. -/
theorem offered_prefix (n : Node) (sink : Sink σ ε) (c : Context) (out : σ) :
    n.offered sink c out <+: n.chunks c := by
  obtain ⟨front, hfront, hoffer⟩ := sink.offerAll_logged (n.chunks c) out []
  unfold offered
  rw [write_eq_putAll, Sink.putAll, hoffer]
  exact hfront

end Node

/-- No sink can tell apart the writing of two trees, each in a context of its own. -/
structure SameOutput (n : Node) (c : Context) (m : Node) (d : Context) : Prop where
  offered : ∀ {σ ε : Type} (sink : Sink σ ε) (out : σ), n.offered sink c out = m.offered sink d out
  result : ∀ {σ ε : Type} (sink : Sink σ ε) (out : σ),
    (n.write sink c out).result = (m.write sink d out).result
  out : ∀ {σ ε : Type} (sink : Sink σ ε) (out : σ),
    (n.write sink c out).out = (m.write sink d out).out

/-- The chunks tell all that a sink can see. -/
theorem SameOutput.of_chunks {n m : Node} {c d : Context} (h : n.chunks c = m.chunks d) :
    SameOutput n c m d := by
  refine ⟨?_, ?_, ?_⟩
  · intro σ ε sink out
    simp only [Node.offered, Node.write_eq_putAll, h, Sink.putAll]
  · intro σ ε sink out
    simp only [Node.write_eq_putAll, h, Sink.putAll]
  · intro σ ε sink out
    simp only [Node.write_eq_putAll, h, Sink.putAll]

end BraceTemplate
