import ElasticNet.Proofs.Log.Messages
import Mathlib.Data.List.TakeWhile
import Mathlib.Order.Basic

namespace ElasticNet.Log

/-- A message with the limit applied to its own bytes: all of them if they fit, else as many as fit
    and the mark. -/
def limited (message : List UInt8) : List UInt8 :=
  if message.length ≤ messageLimit then message else message.take messageLimit ++ dots

theorem limited_of_long {message : List UInt8} (long : messageLimit < message.length) :
    limited message = message.take messageLimit ++ dots :=
  if_neg (Nat.not_le_of_lt long)

namespace Stream

theorem withoutNewline_eq_self_iff (message : List UInt8) :
    withoutNewline message = message ↔ message.getLast? ≠ some newline := by
  constructor
  · intro kept ended
    obtain ⟨front, rfl⟩ := List.getLast?_eq_some_iff.mp ended
    rw [withoutNewline_concat] at kept
    simpa using congrArg List.length kept
  · exact withoutNewline_of_ne

theorem mem_of_mem_withoutNewline {byte : UInt8} {message : List UInt8}
    (inside : byte ∈ withoutNewline message) : byte ∈ message := by
  unfold withoutNewline at inside
  split at inside
  · exact List.dropLast_subset message inside
  · exact inside

end Stream

theorem unflushed_writes (written : List UInt8) (writes : List Write) :
    unflushed written (writes.map Event.write) = written ++ writes.flatMap Write.bytes := by
  induction writes generalizing written with
  | nil => exact (List.append_nil written).symm
  | cons write rest ih =>
    rw [List.map_cons, unflushed, ih, List.flatMap_cons, List.append_assoc]

def lineMessage (line : List UInt8) : List UInt8 :=
  if line.length < messageLimit then line
  else Stream.withoutNewline (line.take messageLimit) ++ dots

theorem lineMessage_of_short {line : List UInt8} (short : line.length < messageLimit) :
    lineMessage line = line :=
  if_pos short

theorem lineMessage_of_not_short {line : List UInt8} (full : messageLimit ≤ line.length) :
    lineMessage line = Stream.withoutNewline (line.take messageLimit) ++ dots :=
  if_neg (Nat.not_lt_of_le full)

theorem lineMessage_of_full {line : List UInt8} (full : line.length = messageLimit)
    (last : line.getLast? ≠ some newline) : lineMessage line = line ++ dots := by
  rw [lineMessage_of_not_short full.ge, List.take_of_length_le full.le,
    Stream.withoutNewline_of_ne last]

theorem messageOf_line {line : List UInt8} (some : line ≠ []) :
    messageOf (line ++ [newline]) = .some (lineMessage line) := by
  have loud : ¬ (line ++ [newline] = [] ∨ line ++ [newline] = [newline]) := by simp [some]
  rw [messageOf, if_neg loud, List.length_append, List.length_singleton]
  by_cases short : line.length < messageLimit
  · have whole : (line ++ [newline]).take messageLimit = line ++ [newline] := by
      apply List.take_of_length_le
      rw [List.length_append]
      exact short
    have fits : ¬ messageLimit < line.length + 1 := by omega
    rw [whole, Stream.withoutNewline_concat, if_neg fits, List.append_nil,
      lineMessage_of_short short]
  · have full := Nat.le_of_not_lt short
    have long : messageLimit < line.length + 1 := by omega
    rw [List.take_append_of_le_length full, if_pos long, lineMessage_of_not_short full]

theorem endLine_writes {line : List UInt8} (some : line ≠ []) {writes : List Write}
    (written : writes.flatMap Write.bytes = line) :
    (Stream.empty.after (writes.map .write)).endLine = (.some (lineMessage line), .empty) := by
  have collects := Stream.collects_empty.after (writes.map .write)
  rw [unflushed_writes, written] at collects
  exact (collects.put (.some newline)).flush.trans
    (congrArg (·, Stream.empty) (messageOf_line some))

/-- The mark of a line that fills the limit, and a newline taken off at the limit, are all that
    keeps a message from being the line with the limit applied to it. -/
theorem lineMessage_eq_limited_iff {line : List UInt8} (last : line.getLast? ≠ some newline) :
    lineMessage line = limited line ↔ line.length ≠ messageLimit ∧
      (messageLimit < line.length → (line.take messageLimit).getLast? ≠ some newline) := by
  rcases lt_trichotomy line.length messageLimit with short | full | long
  · rw [lineMessage_of_short short, limited, if_pos short.le]
    exact iff_of_true rfl ⟨short.ne, fun long => absurd long short.not_gt⟩
  · rw [lineMessage_of_full full last, limited, if_pos full.le]
    have marked : line ++ dots ≠ line := fun same => by simp [dots] at same
    exact iff_of_false marked fun given => given.1 full
  · rw [lineMessage_of_not_short long.le, limited_of_long long, List.append_cancel_right_eq,
      Stream.withoutNewline_eq_self_iff]
    simp [long, long.ne']

theorem zero_notMem_lineMessage {line : List UInt8} (zeroFree : 0 ∉ line) :
    0 ∉ lineMessage line := by
  unfold lineMessage
  split
  · exact zeroFree
  · intro inside
    rcases List.mem_append.mp inside with kept | mark
    · exact zeroFree (List.mem_of_mem_take (Stream.mem_of_mem_withoutNewline kept))
    · exact absurd mark (by decide)

theorem shown_setStream (log : Log) (severity : Severity) (stream : Stream) :
    (log.setStream severity stream).shown = log.shown := by
  cases severity <;> rfl

theorem level_setStream (log : Log) (severity : Severity) (stream : Stream) :
    (log.setStream severity stream).level = log.level := by
  cases severity <;> rfl

theorem shown_handOut {log : Log} {severity : Severity} {message : List UInt8}
    (matters : log.level.rank ≤ severity.level.rank) (zeroFree : 0 ∉ message) (stream : Stream) :
    (log.handOut severity (some message, stream)).shown =
      log.shown ++ (severity.label ++ ":  " ++ decode message ++ "\n") := by
  have whole : message.takeWhile (· ≠ 0) = message := by
    rw [List.takeWhile_eq_self_iff]
    intro byte inside
    have other : byte ≠ 0 := fun same => zeroFree (same ▸ inside)
    exact decide_eq_true other
  unfold handOut
  dsimp only
  rw [level_setStream, if_neg (Nat.not_lt_of_le matters), shown_setStream, line, whole]

/-- What becomes of a line without zero bytes and without a newline at its end, written in any
    pieces to an empty stream and ended. Its message is the line itself if it is shorter than the
    limit, and the line with a mark if it has the length of the limit; if it is longer, its message
    is what the limit leaves of it, less a newline at the end of that, and the mark. The log shows
    the message in full. -/
theorem endLine_message {line : List UInt8} (nonempty : line ≠ [])
    (last : line.getLast? ≠ some newline) (zeroFree : 0 ∉ line) {writes : List Write}
    (written : writes.flatMap Write.bytes = line) :
    ∃ message, (Stream.empty.after (writes.map .write)).endLine = (some message, .empty) ∧
      (line.length < messageLimit → message = line) ∧
      (line.length = messageLimit → message = line ++ dots) ∧
      (messageLimit < line.length →
        message = Stream.withoutNewline (line.take messageLimit) ++ dots) ∧
      (message = limited line ↔ line.length ≠ messageLimit ∧
        (messageLimit < line.length → (line.take messageLimit).getLast? ≠ some newline)) ∧
      ∀ (log : Log) (severity : Severity),
        log.stream severity = Stream.empty.after (writes.map .write) →
        log.level.rank ≤ severity.level.rank →
        (log.endLine severity).shown =
          log.shown ++ (severity.label ++ ":  " ++ decode message ++ "\n") := by
  have ended := endLine_writes nonempty written
  refine ⟨lineMessage line, ended, lineMessage_of_short, fun full => lineMessage_of_full full last,
    fun long => lineMessage_of_not_short long.le, lineMessage_eq_limited_iff last, ?_⟩
  intro log severity here matters
  unfold endLine
  rw [here, ended]
  exact shown_handOut matters (zero_notMem_lineMessage zeroFree) _

theorem replicate_limit_ne_nil (byte : UInt8) : List.replicate messageLimit byte ≠ [] :=
  List.ne_nil_of_length_pos (by rw [List.length_replicate]; decide)

theorem getLast?_replicate_limit (byte : UInt8) :
    (List.replicate messageLimit byte).getLast? = some byte := by
  rw [List.getLast?_replicate, if_neg (by decide)]

theorem endLine_message_full :
    List.replicate messageLimit (109 : UInt8) ≠ [] ∧
      (List.replicate messageLimit 109).getLast? ≠ some newline ∧
      0 ∉ List.replicate messageLimit (109 : UInt8) ∧
      [Write.piece (List.replicate 16383 109), .put (some 109)].flatMap Write.bytes =
        List.replicate messageLimit 109 ∧
      (Stream.empty.after ([Write.piece (List.replicate 16383 109), .put (some 109)].map
        .write)).endLine = (some (List.replicate messageLimit 109 ++ dots), .empty) := by
  have length : (List.replicate messageLimit (109 : UInt8)).length = messageLimit :=
    List.length_replicate
  have nonempty := replicate_limit_ne_nil 109
  have last : (List.replicate messageLimit (109 : UInt8)).getLast? ≠ some newline := by
    rw [getLast?_replicate_limit]
    decide
  have zeroFree : 0 ∉ List.replicate messageLimit (109 : UInt8) :=
    fun inside => absurd (List.eq_of_mem_replicate inside) (by decide)
  have written : [Write.piece (List.replicate 16383 109), .put (some 109)].flatMap Write.bytes =
      List.replicate messageLimit 109 :=
    List.replicate_succ'.symm
  obtain ⟨message, ended, _, full, _⟩ := endLine_message nonempty last zeroFree written
  exact ⟨nonempty, last, zeroFree, written, by rw [ended, full length]⟩

/-- A line of exactly as many bytes as a message may have is marked, although none of them was
    dropped. -/
theorem full_line_marked :
    (List.replicate messageLimit (109 : UInt8)).length = messageLimit ∧
      limited (List.replicate messageLimit 109) = List.replicate messageLimit 109 ∧
      (Stream.empty.after [.write (.piece (List.replicate messageLimit 109))]).endLine.1 =
        some (List.replicate messageLimit 109 ++ dots) ∧
      List.replicate messageLimit 109 ++ dots ≠ List.replicate messageLimit 109 := by
  have length : (List.replicate messageLimit (109 : UInt8)).length = messageLimit :=
    List.length_replicate
  have nonempty := replicate_limit_ne_nil 109
  have last : (List.replicate messageLimit (109 : UInt8)).getLast? ≠ some newline := by
    rw [getLast?_replicate_limit]
    decide
  have ended := endLine_writes nonempty
    (List.flatMap_singleton Write.bytes (.piece (List.replicate messageLimit 109)))
  refine ⟨length, if_pos length.le, ?_, fun same => by simp [dots] at same⟩
  rw [← lineMessage_of_full length last]
  exact congrArg Prod.fst ended

end ElasticNet.Log
