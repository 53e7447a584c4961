import ElasticNet.Log.Bytes
import ElasticNet.Log.Stream
import ElasticNet.Note
import ElasticNet.Text

namespace ElasticNet

inductive LogLevel where
  | debug
  | log
  | info
  | notice
  | warning
deriving DecidableEq

namespace LogLevel

def ofName (name : String) : LogLevel :=
  let name := Text.normalized name
  if name = "debug" ∨ name = "debug1" then .debug
  else if name = "log" then .log
  else if name = "info" then .info
  else if name = "notice" then .notice
  else .warning

def rank : LogLevel → Nat
  | debug => 14
  | log => 15
  | info => 17
  | notice => 18
  | warning => 19

end LogLevel

namespace Severity

def level : Severity → LogLevel
  | info => .info
  | warning => .warning

def label : Severity → String
  | info => "INFO"
  | warning => "WARNING"

end Severity

structure Log where
  level : LogLevel
  info : Log.Stream
  warning : Log.Stream
  shown : String

namespace Log

def start (level : LogLevel) : Log :=
  ⟨level, .empty, .empty, ""⟩

def stream (log : Log) : Severity → Stream
  | .info => log.info
  | .warning => log.warning

def setStream (log : Log) (severity : Severity) (stream : Stream) : Log :=
  match severity with
  | .info => { log with info := stream }
  | .warning => { log with warning := stream }

/-- The line of a message; a message ends at its first zero byte. -/
def line (severity : Severity) (message : List UInt8) : String :=
  severity.label ++ ":  " ++ decode (message.takeWhile (· ≠ 0)) ++ "\n"

def write (log : Log) (severity : Severity) (text : String) : Log :=
  log.setStream severity ((log.stream severity).write (encode text)).2

def put (log : Log) (severity : Severity) (text : String) : Log :=
  log.setStream severity ((log.stream severity).put (encode text).head?).2

/-- Shows a message that a stream has handed out, if there is one, and keeps the stream after it. A
    message that matters too little is dropped. -/
def handOut (log : Log) (severity : Severity) (handed : Option (List UInt8) × Stream) : Log :=
  let log := log.setStream severity handed.2
  match handed.1 with
  | none => log
  | some message =>
    if severity.level.rank < log.level.rank then log
    else { log with shown := log.shown ++ line severity message }

def flush (log : Log) (severity : Severity) : Log :=
  log.handOut severity (log.stream severity).flush

def endLine (log : Log) (severity : Severity) : Log :=
  log.handOut severity (log.stream severity).endLine

def note (log : Log) (note : Note) : Log :=
  (log.write note.severity note.text).endLine note.severity

def notes (log : Log) (notes : List Note) : Log :=
  notes.foldl Log.note log

def finish (log : Log) : Log :=
  (log.flush .info).flush .warning

end Log

end ElasticNet
