namespace ElasticNet.Log

def messageLimit : Nat := 16384

def newline : UInt8 := 10

def dots : List UInt8 := [46, 46, 46]

structure Stream where
  held : Array UInt8
  truncated : Bool

namespace Stream

def empty : Stream := ⟨#[], false⟩

/-- How many bytes there is room for: a difference of words, which wraps around. -/
def room (stream : Stream) : Nat :=
  (UInt64.ofNat messageLimit - UInt64.ofNat stream.held.size).toNat

/-- Adds bytes as far as there is room. The count that is answered is that of the bytes taken, and
    bytes that are dropped are taken as well. -/
def write (stream : Stream) (bytes : List UInt8) : Nat × Stream :=
  let room := stream.room
  (bytes.length,
    { held := stream.held ++ bytes.take room
      truncated := stream.truncated || decide (room < bytes.length) })

/-- Adds a single byte and answers it. The end of input is no byte: nothing is added, and the answer
    is some byte all the same. No answer would be a failure. -/
def put (stream : Stream) : Option UInt8 → Option UInt8 × Stream
  | some byte => (some byte, (stream.write [byte]).2)
  | none => (some 0, stream)

def withoutNewline (message : List UInt8) : List UInt8 :=
  if message.getLast? = some newline then message.dropLast else message

/-- The message, if there is anything to say, and the stream after it. One newline at the end of
    what was written belongs to the end of a line and not to the message. -/
def flush (stream : Stream) : Option (List UInt8) × Stream :=
  let message := withoutNewline stream.held.toList
  if message = [] ∧ !stream.truncated then (none, { stream with held := #[] })
  else (some (message ++ if stream.truncated then dots else []), empty)

def endLine (stream : Stream) : Option (List UInt8) × Stream :=
  (stream.put (some newline)).2.flush

end Stream

end ElasticNet.Log
