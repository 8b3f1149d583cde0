import BraceTemplate.Error

namespace BraceTemplate

/-- What takes the output of a template, chunk by chunk. A sink may change on a chunk that it
refuses. -/
structure Sink (σ ε : Type) where
  offer : σ → String → Except ε Unit × σ

def Sink.offerAll {σ ε : Type} (sink : Sink σ ε) : List String → σ → Except ε Unit × σ
  | [], out => (.ok (), out)
  | chunk :: chunks, out =>
    match sink.offer out chunk with
    | (.ok (), after) => sink.offerAll chunks after
    | (.error error, after) => (.error error, after)

/-- Once a chunk is refused, no later one is offered. -/
theorem Sink.offerAll_append {σ ε : Type} (sink : Sink σ ε) (xs ys : List String) (out : σ) :
    sink.offerAll (xs ++ ys) out =
      match sink.offerAll xs out with
      | (.ok (), after) => sink.offerAll ys after
      | (.error error, after) => (.error error, after) := by
  induction xs generalizing out with
  | nil => rfl
  | cons x xs ih =>
    simp only [List.cons_append, offerAll]
    split
    · exact ih _
    · rfl

def Sink.text : Sink String RenderError := ⟨fun out chunk => (.ok (), out ++ chunk)⟩

structure BoundedText where
  text : String
  limit : Option Nat
  chunks : List String
deriving DecidableEq, Repr

namespace BoundedText

def start (text : String) (limit : Option Nat) : BoundedText := ⟨text, limit, []⟩

/-- The limit counts the bytes of the whole text. -/
def fits (t : BoundedText) (chunk : String) : Bool :=
  t.limit.all (fun limit => t.text.utf8ByteSize + chunk.utf8ByteSize ≤ limit)

def offer (t : BoundedText) (chunk : String) : Except RenderError Unit × BoundedText :=
  if t.fits chunk then
    (.ok (), { t with text := t.text ++ chunk, chunks := t.chunks ++ [chunk] })
  else (.error .write, t)

def sink : Sink BoundedText RenderError := ⟨offer⟩

end BoundedText
end BraceTemplate
