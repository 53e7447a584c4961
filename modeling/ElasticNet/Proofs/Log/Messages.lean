import ElasticNet.Log

namespace ElasticNet.Log

/-- One call that writes: a single byte, or the end of input in its place, or a piece of text. -/
inductive Write where
  | put (byte? : Option UInt8)
  | piece (bytes : List UInt8)

inductive Event where
  | write (write : Write)
  | flush

namespace Write

def bytes : Write → List UInt8
  | put byte? => byte?.toList
  | piece bytes => bytes

def perform (stream : Stream) : Write → Stream
  | put byte? => (stream.put byte?).2
  | piece bytes => (stream.write bytes).2

/-- The answer to a write that has taken everything: the byte itself, or all bytes counted. -/
def Succeeds (stream : Stream) : Write → Prop
  | put byte? => ∃ answer, (stream.put byte?).1 = some answer ∧ ∀ byte ∈ byte?, answer = byte
  | piece bytes => (stream.write bytes).1 = bytes.length

theorem succeeds (stream : Stream) (write : Write) : write.Succeeds stream := by
  cases write with
  | put byte? =>
    cases byte? with
    | none => exact ⟨0, rfl, nofun⟩
    | some byte => exact ⟨byte, rfl, fun _ same => Option.some.inj same⟩
  | piece bytes => rfl

end Write

/-- What is written between flushes: one span for every flush, the first one behind what was
    written before. -/
def spans (written : List UInt8) : List Event → List (List UInt8)
  | [] => []
  | .write write :: rest => spans (written ++ write.bytes) rest
  | .flush :: rest => written :: spans [] rest

def unflushed (written : List UInt8) : List Event → List UInt8
  | [] => written
  | .write write :: rest => unflushed (written ++ write.bytes) rest
  | .flush :: rest => unflushed [] rest

/-- The message of a span. A line end alone says nothing, and neither does nothing at all. -/
def messageOf (written : List UInt8) : Option (List UInt8) :=
  if written = [] ∨ written = [newline] then none
  else some (Stream.withoutNewline (written.take messageLimit)
    ++ if messageLimit < written.length then dots else [])

theorem messageOf_eq_none_iff (written : List UInt8) :
    messageOf written = none ↔ written = [] ∨ written = [newline] := by
  unfold messageOf
  split
  · next silent => simp [silent]
  · next loud => simp [loud]

namespace Stream

theorem withoutNewline_concat (message : List UInt8) :
    withoutNewline (message ++ [newline]) = message := by
  simp [withoutNewline]

theorem withoutNewline_of_ne {message : List UInt8} (other : message.getLast? ≠ some newline) :
    withoutNewline message = message :=
  if_neg other

theorem withoutNewline_eq_nil_iff (message : List UInt8) :
    withoutNewline message = [] ↔ message = [] ∨ message = [newline] := by
  by_cases ended : message.getLast? = some newline
  · obtain ⟨front, rfl⟩ := List.getLast?_eq_some_iff.mp ended
    rw [withoutNewline_concat]
    simp
  · rw [withoutNewline_of_ne ended]
    constructor
    · exact .inl
    · rintro (rfl | rfl)
      · rfl
      · exact absurd rfl ended

/-- What a stream holds of the bytes written since the last flush: as many as there is room for,
    and whether there were more. -/
structure Collects (stream : Stream) (written : List UInt8) : Prop where
  held : stream.held.toList = written.take messageLimit
  truncated : stream.truncated = decide (messageLimit < written.length)

theorem collects_empty : Collects empty [] where
  held := rfl
  truncated := rfl

variable {stream : Stream} {written : List UInt8}

theorem Collects.size (collects : Collects stream written) :
    stream.held.size = min messageLimit written.length := by
  rw [← Array.length_toList, collects.held, List.length_take]

theorem room_of_size_le (fits : stream.held.size ≤ messageLimit) :
    stream.room = messageLimit - stream.held.size := by
  have small : messageLimit < 2 ^ 64 := by decide
  have heldWord : (UInt64.ofNat stream.held.size).toNat = stream.held.size :=
    UInt64.toNat_ofNat_of_lt' (Nat.lt_of_le_of_lt fits small)
  have limitWord : (UInt64.ofNat messageLimit).toNat = messageLimit := by decide
  have below : UInt64.ofNat stream.held.size ≤ UInt64.ofNat messageLimit := by
    rw [UInt64.le_iff_toNat_le, heldWord, limitWord]
    exact fits
  rw [room, UInt64.toNat_sub_of_le _ _ below, heldWord, limitWord]

theorem Collects.fits (collects : Collects stream written) : stream.held.size ≤ messageLimit := by
  rw [collects.size]
  exact Nat.min_le_left _ _

/-- The words of the difference never wrap around. -/
theorem Collects.size_add_room (collects : Collects stream written) :
    stream.held.size + stream.room = messageLimit := by
  rw [room_of_size_le collects.fits]
  exact Nat.add_sub_of_le collects.fits

theorem Collects.room_eq (collects : Collects stream written) :
    stream.room = messageLimit - written.length := by
  rw [room_of_size_le collects.fits, collects.size]
  omega

theorem Collects.write (collects : Collects stream written) (bytes : List UInt8) :
    Collects (stream.write bytes).2 (written ++ bytes) where
  held := by
    change (stream.held ++ bytes.take stream.room).toList = _
    rw [Array.toList_appendList, collects.held, collects.room_eq, List.take_append]
  truncated := by
    change (stream.truncated || decide (stream.room < bytes.length)) = _
    rw [collects.truncated, collects.room_eq, ← Bool.decide_or, List.length_append]
    congr 1
    apply propext
    omega

theorem Collects.put (collects : Collects stream written) (byte? : Option UInt8) :
    Collects (stream.put byte?).2 (written ++ byte?.toList) := by
  cases byte? with
  | none =>
    rw [Option.toList_none, List.append_nil]
    exact collects
  | some byte => exact collects.write [byte]

theorem Collects.perform (collects : Collects stream written) (write : Write) :
    Collects (write.perform stream) (written ++ write.bytes) := by
  cases write with
  | put byte? => exact collects.put byte?
  | piece bytes => exact collects.write bytes

theorem snd_flush (stream : Stream) : stream.flush.2 = empty := by
  obtain ⟨held, truncated⟩ := stream
  unfold flush
  dsimp only
  split
  · next silent =>
    obtain rfl : truncated = false := by simpa using silent.2
    rfl
  · rfl

/-- There is nothing to say if and only if nothing was written, or a line end alone. -/
theorem Collects.silent_iff (collects : Collects stream written) :
    withoutNewline stream.held.toList = [] ∧ (!stream.truncated) = true ↔
      written = [] ∨ written = [newline] := by
  rw [collects.held, collects.truncated, withoutNewline_eq_nil_iff]
  by_cases long : messageLimit < written.length
  · have loud : ¬ (written = [] ∨ written = [newline]) := by
      rintro (rfl | rfl)
      · exact absurd long (by decide)
      · exact absurd long (by decide)
    simp [long, loud]
  · have whole : written.take messageLimit = written :=
      List.take_of_length_le (Nat.le_of_not_lt long)
    simp [whole, long]

/-- A flush hands out the message of what was written since the last one. -/
theorem Collects.flush (collects : Collects stream written) :
    stream.flush = (messageOf written, empty) := by
  apply Prod.ext _ (snd_flush stream)
  unfold Stream.flush messageOf
  dsimp only
  by_cases silent : written = [] ∨ written = [newline]
  · rw [if_pos (collects.silent_iff.mpr silent), if_pos silent]
  · rw [if_neg fun said => silent (collects.silent_iff.mp said), if_neg silent, collects.held,
      collects.truncated]
    simp only [decide_eq_true_eq]

def after (stream : Stream) : List Event → Stream
  | [] => stream
  | .write write :: rest => (write.perform stream).after rest
  | .flush :: rest => stream.flush.2.after rest

def handed (stream : Stream) : List Event → List (Option (List UInt8))
  | [] => []
  | .write write :: rest => (write.perform stream).handed rest
  | .flush :: rest => stream.flush.1 :: stream.flush.2.handed rest

theorem Collects.after (collects : Collects stream written) (events : List Event) :
    Collects (stream.after events) (unflushed written events) := by
  induction events generalizing stream written with
  | nil => exact collects
  | cons event rest ih =>
    cases event with
    | write write => exact ih (collects.perform write)
    | flush =>
      rw [Stream.after, snd_flush]
      exact ih collects_empty

theorem Collects.handed (collects : Collects stream written) (events : List Event) :
    stream.handed events = (spans written events).map messageOf := by
  induction events generalizing stream written with
  | nil => rfl
  | cons event rest ih =>
    cases event with
    | write write => exact ih (collects.perform write)
    | flush =>
      rw [Stream.handed, collects.flush, ih collects_empty]
      rfl

theorem after_append (stream : Stream) (events more : List Event) :
    stream.after (events ++ more) = (stream.after events).after more := by
  induction events generalizing stream with
  | nil => rfl
  | cons event rest ih =>
    cases event with
    | write write => exact ih _
    | flush => exact ih _

/-- Whatever is written and flushed, every flush hands out the message of the bytes between it and
    the flush before, however they were cut into writes. What is held never exceeds the limit, so
    that the room is the exact difference; every write answers that it has taken everything; and
    every flush leaves an empty stream. -/
theorem messages_of_spans (events : List Event) :
    empty.handed events = (spans [] events).map messageOf ∧
      (∀ others, spans [] others = spans [] events → empty.handed others = empty.handed events) ∧
      (∀ written, messageOf written = none ↔ written = [] ∨ written = [newline]) ∧
      (empty.after events).held.size ≤ messageLimit ∧
      (empty.after events).held.size + (empty.after events).room = messageLimit ∧
      (∀ write : Write, write.Succeeds (empty.after events)) ∧
      empty.after (events ++ [.flush]) = empty := by
  have collects := collects_empty.after events
  refine ⟨collects_empty.handed events, ?_, messageOf_eq_none_iff, collects.fits,
    collects.size_add_room, Write.succeeds _, ?_⟩
  · intro others same
    rw [collects_empty.handed others, collects_empty.handed events, same]
  · rw [after_append]
    exact snd_flush _

end Stream

end ElasticNet.Log
