import BraceTemplate.Context.Step

namespace BraceTemplate

variable {σ ε : Type}

/-- Writing that leaves the scopes as they were, however it ends. -/
def KeepsScopes (body : Context → σ → Written σ ε) : Prop :=
  ∀ (c : Context) (out : σ), (body c out).context = c

namespace KeepsScopes

theorem done : KeepsScopes (Written.done (σ := σ) (ε := ε)) := fun _ _ => rfl

theorem put (sink : Sink σ ε) (chunk : String) : KeepsScopes (sink.put chunk) := fun _ _ => rfl

theorem putValue (sink : Sink σ ε) (form : String → String) (v : Option Json.Value) :
    KeepsScopes (sink.putValue form v) := by
  intro c out
  unfold Sink.putValue
  cases v.bind Json.Value.text? with
  | none => rfl
  | some s => exact put sink (form s) c out

/-- What comes next starts from the scopes that were found, or does not start. -/
theorem andThen {w : Written σ ε} {next : Context → σ → Written σ ε} {c : Context}
    (hw : w.context = c) (h : KeepsScopes next) : (w.andThen next).context = c := by
  unfold Written.andThen
  cases w.result with
  | ok => exact (h w.context w.out).trans hw
  | error e => exact hw

/-- The scope that is opened is closed again, and what is written in it keeps it. -/
theorem within {body : Context → σ → Written σ ε} (h : KeepsScopes body) (s : Scope) :
    KeepsScopes (fun c out => c.within s body out) := by
  intro c out
  change (body (c.push s) out).context.pop = c
  rw [h (c.push s) out, Context.pop_push]

/-- A loop may stop at any of its turns. -/
theorem withinEach {body : Context → σ → Written σ ε} (h : KeepsScopes body) :
    ∀ ss : List Scope, KeepsScopes (Context.withinEach body ss)
  | [] => done
  | s :: ss => fun c out => andThen (h.within s c out) (withinEach h ss)

end KeepsScopes

namespace Node

mutual

/-- A tree is written without a trace in the scopes. -/
theorem write_keepsScopes (sink : Sink σ ε) (n : Node) : KeepsScopes (n.write sink) := by
  intro c out
  cases n with
  | text s => exact KeepsScopes.put sink s c out
  | escaped p => exact KeepsScopes.putValue sink Text.escapeHtml (c.get? p) c out
  | unescaped p => exact KeepsScopes.putValue sink id (c.get? p) c out
  | container ns => exact writeAll_keepsScopes sink ns c out
  | ifBlock p body otherwise | unlessBlock p body otherwise =>
    rw [write]
    split
    · exact write_keepsScopes sink _ c out
    · exact write_keepsScopes sink _ c out
  | eachBlock p body =>
    exact (write_keepsScopes sink body).withinEach (c.turns p) c out
  | withBlock p body =>
    rw [write]
    split
    · rfl
    · exact (write_keepsScopes sink body).within _ c out

theorem writeAll_keepsScopes (sink : Sink σ ε) (ns : List Node) :
    KeepsScopes (writeAll sink ns) := by
  intro c out
  cases ns with
  | nil => rfl
  | cons n ns =>
    exact KeepsScopes.andThen (write_keepsScopes sink n c out) (writeAll_keepsScopes sink ns)

end

end Node

namespace Step

def isWrite : Step σ → Bool
  | .write _ _ | .writeTemplate _ _ => true
  | .push _ _ | .scoped _ _ _ | .pop | .getValue _ | .getItems _ | .isTruthy _ => false

mutual

def quiet : Step σ → Step σ
  | .scoped value iteration steps => .scoped value iteration (quietAll steps)
  | s => s

def quietAll : List (Step σ) → List (Step σ)
  | [] => []
  | s :: ss => if s.isWrite then quietAll ss else s.quiet :: quietAll ss

end

end Step

namespace Answer

def isWrite : Answer σ ε → Bool
  | written _ _ | broken _ => true
  | done | absent | steps _ | value _ | items _ | truth _ => false

mutual

def quiet : Answer σ ε → Answer σ ε
  | steps answers => steps (quietAll answers)
  | a => a

def quietAll : List (Answer σ ε × Nat) → List (Answer σ ε × Nat)
  | [] => []
  | (a, depth) :: as => if a.isWrite then quietAll as else (a.quiet, depth) :: quietAll as

end

end Answer

namespace Context

theorem isWrite_step (sink : Sink σ ε) (s : Step σ) (c : Context) :
    (step sink s c).1.isWrite = s.isWrite := by
  match s with
  | .write .. | .pop | .getValue _ | .getItems _ | .isTruthy _ => rfl
  | .writeTemplate template out =>
    rw [step]
    cases Node.parse template <;> rfl
  | .push value iteration | .scoped value iteration steps =>
    rw [step]
    cases c.resolve? value <;> rfl

theorem step_write (sink : Sink σ ε) {s : Step σ} (h : s.isWrite = true) (c : Context) :
    (step sink s c).2 = c := by
  match s with
  | .write node out => exact node.write_keepsScopes sink c out
  | .writeTemplate template out =>
    rw [step]
    cases Node.parse template with
    | error e => rfl
    | ok node => exact node.write_keepsScopes sink c out
  | .push .. | .scoped .. | .pop | .getValue _ | .getItems _ | .isTruthy _ => cases h

mutual

/-- The writes inside a step do not matter to the rest of it. -/
theorem step_quiet (sink : Sink σ ε) (s : Step σ) (c : Context) (h : s.isWrite = false) :
    step sink s.quiet c = ((step sink s c).1.quiet, (step sink s c).2) := by
  match s with
  | .write .. | .writeTemplate .. => cases h
  | .pop | .getValue _ | .getItems _ | .isTruthy _ => rfl
  | .push value iteration =>
    simp only [Step.quiet, step]
    cases c.resolve? value <;> rfl
  | .scoped value iteration steps =>
    simp only [Step.quiet, step]
    cases c.resolve? value with
    | none => rfl
    | some v =>
      simp only [run_quiet sink steps]
      rfl

/-- Without the writes inside it, a run tells the same and leaves the same context. -/
theorem run_quiet (sink : Sink σ ε) (ss : List (Step σ)) (c : Context) :
    run sink (Step.quietAll ss) c = (Answer.quietAll (run sink ss c).1, (run sink ss c).2) := by
  cases ss with
  | nil => rfl
  | cons s ss =>
    have hrest := run_quiet sink ss
    have hanswer := isWrite_step sink s c
    rw [Step.quietAll, run]
    cases hs : s.isWrite with
    | true =>
      rw [hs] at hanswer
      simp [Answer.quietAll, hanswer, step_write sink hs c, hrest]
    | false =>
      rw [hs] at hanswer
      simp [run, step_quiet sink s c hs, Answer.quietAll, hanswer, hrest]

end

end Context

/-- Writing a tree leaves the context as it was, however the sink answers, and so writes can be
put into a run of steps or taken from it without a change to any other answer or depth. -/
theorem writing_keeps_context (sink : Sink σ ε) :
    (∀ (n : Node) (c : Context) (out : σ), (n.write sink c out).context = c) ∧
      ∀ (ss : List (Step σ)) (c : Context),
        Context.run sink (Step.quietAll ss) c =
          (Answer.quietAll (Context.run sink ss c).1, (Context.run sink ss c).2) :=
  ⟨fun n => n.write_keepsScopes sink, Context.run_quiet sink⟩

end BraceTemplate
