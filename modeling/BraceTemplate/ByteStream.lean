import BraceTemplate.Sink

namespace BraceTemplate

def Text.utf8 (s : String) : List UInt8 := s.toUTF8.data.toList

theorem Text.utf8_append (s t : String) : utf8 (s ++ t) = utf8 s ++ utf8 t := by
  simp [utf8, String.toUTF8_eq_toByteArray]

/-- What a byte writer answers to one call: how many of the offered bytes it takes, or an
error. -/
inductive WriteAnswer
  | accept (count : Nat)
  | fail (error : IoError)
deriving DecidableEq, Repr

/-- A byte writer by the answers it will give, however it comes to them. After the last answer it
takes all it is offered. -/
structure ByteWriter where
  answers : List WriteAnswer
  delivered : List UInt8
deriving DecidableEq, Repr

namespace ByteWriter

def nothingTaken : IoError := ⟨.writeZero, "failed to write whole buffer"⟩

/-- Calls the writer until no bytes are left. An interrupted call is made again, and a call that
takes nothing fails. -/
def writeAll (answers : List WriteAnswer) (delivered bytes : List UInt8) :
    Except IoError Unit × ByteWriter :=
  if bytes.isEmpty then (.ok (), ⟨answers, delivered⟩)
  else
    match answers with
    | [] => (.ok (), ⟨[], delivered ++ bytes⟩)
    | .accept 0 :: later => (.error nothingTaken, ⟨later, delivered⟩)
    | .accept count :: later =>
      writeAll later (delivered ++ bytes.take count) (bytes.drop count)
    | .fail error :: later =>
      if error.kind = .interrupted then writeAll later delivered bytes
      else (.error error, ⟨later, delivered⟩)

end ByteWriter

/-- A byte writer behind a sink. A refusal tells nothing of its reason, which is kept here. -/
structure ByteOutlet where
  writer : ByteWriter
  refusal : Option IoError
deriving DecidableEq, Repr

namespace ByteOutlet

def offer (o : ByteOutlet) (chunk : String) : Except RenderError Unit × ByteOutlet :=
  match ByteWriter.writeAll o.writer.answers o.writer.delivered (Text.utf8 chunk) with
  | (.ok (), after) => (.ok (), { o with writer := after })
  | (.error error, after) => (.error .write, ⟨after, some error⟩)

def sink : Sink ByteOutlet RenderError := ⟨offer⟩

end ByteOutlet

/-- What a byte reader answers to one call before its end: some bytes, one at least, or an error. -/
inductive ReadAnswer
  | deliver (first : UInt8) (rest : List UInt8)
  | fail (error : IoError)
deriving DecidableEq, Repr

namespace ReadAnswer

/-- Reads to the end. An interrupted call is made again, any other error ends the reading. -/
def readAll : List ReadAnswer → Except IoError (List UInt8)
  | [] => .ok []
  | .deliver first rest :: later => (readAll later).map (first :: rest ++ ·)
  | .fail error :: later =>
    if error.kind = .interrupted then readAll later else .error error

def notText : IoError := ⟨.invalidData, "stream did not contain valid UTF-8"⟩

/-- The bytes are looked at when all are there. -/
def readText (answers : List ReadAnswer) : Except IoError String :=
  match readAll answers with
  | .error error => .error error
  | .ok bytes =>
    match String.fromUTF8? ⟨bytes.toArray⟩ with
    | none => .error notText
    | some s => .ok s

end ReadAnswer
end BraceTemplate
