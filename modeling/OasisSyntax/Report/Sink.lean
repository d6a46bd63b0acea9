/-!
# Sinks

A sink takes text as bytes.  It may have room for only so many of them: a text that
does not fit is taken as far as it fits, and then the sink fails.
-/

namespace OasisSyntax

structure Sink where
  /-- The bytes taken so far, the last one first. -/
  reversed : List UInt8
  /-- How many more bytes fit, if there is a limit. -/
  room : Option Nat
deriving DecidableEq, Repr

namespace Sink

def unlimited : Sink := ⟨[], none⟩

def limited (room : Nat) : Sink := ⟨[], some room⟩

def written (sink : Sink) : List UInt8 := sink.reversed.reverse

def bytesOf (text : String) : List UInt8 := text.toList.flatMap String.utf8EncodeChar

/-- Takes what fits; the answer says whether all of it did. -/
def write (text : String) (sink : Sink) : Bool × Sink :=
  let bytes := bytesOf text
  match sink.room with
  | none => (true, { sink with reversed := bytes.reverse ++ sink.reversed })
  | some room =>
    (decide (bytes.length ≤ room),
      ⟨(bytes.take room).reverse ++ sink.reversed, some (room - bytes.length)⟩)

theorem written_write_unlimited (text : String) (bytes : List UInt8) :
    (write text ⟨bytes, none⟩).2.written =
      (⟨bytes, none⟩ : Sink).written ++ bytesOf text := by
  simp [write, written]

theorem written_write_limited (text : String) (bytes : List UInt8) (room : Nat) :
    (write text ⟨bytes, some room⟩).2.written =
      (⟨bytes, some room⟩ : Sink).written ++ (bytesOf text).take room := by
  simp [write, written]

def writeAll (sink : Sink) : List String → Bool × Sink
  | [] => (true, sink)
  | text :: rest =>
    match sink.write text with
    | (true, after) => after.writeAll rest
    | (false, after) => (false, after)

end Sink

end OasisSyntax
