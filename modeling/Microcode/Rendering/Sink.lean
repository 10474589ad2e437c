import Microcode.Rendering.Format

namespace Microcode

/-!
Writing to a place that takes only so many octets.
-/

structure Sink where
  limit : Nat
  taken : Array UInt8 := #[]
  /-- What the sink says when it refuses octets. -/
  refusal : String := "writer full"
  deriving DecidableEq, Repr

/-- The sink took what it could of a piece and refused the remainder. -/
structure SinkFull where
  taken : Array UInt8
  /-- What the sink said. -/
  cause : String
  deriving DecidableEq, Repr

def SinkFull.message (full : SinkFull) : String :=
  full.cause

namespace Sink

def room (sink : Sink) : Nat :=
  sink.limit - sink.taken.size

def write (sink : Sink) (piece : Bytes) : Except SinkFull Sink :=
  if piece.length ≤ sink.room then .ok { sink with taken := sink.taken ++ piece }
  else .error ⟨sink.taken ++ piece.take sink.room, sink.refusal⟩

/-- Write pieces up to the first one that does not fit. -/
def writeAll (sink : Sink) (pieces : List Bytes) : Except SinkFull Sink :=
  pieces.foldlM write sink

end Sink

end Microcode
