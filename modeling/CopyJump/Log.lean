import CopyJump.Text.Number

namespace CopyJump

inductive Level
  | info
  | warn
  | error
deriving DecidableEq

namespace Level

def name : Level → String
  | info => "INFO"
  | warn => "WARN"
  | error => "ERROR"

def rank : Level → Nat
  | info => 1
  | warn => 2
  | error => 3

end Level

structure Line where
  level : Level
  message : String
deriving DecidableEq

structure Log where
  least : Level := .info
  muted : Bool := false
  lines : Array Line := #[]

namespace Log

def allows (log : Log) (level : Level) : Bool := !log.muted && log.least.rank ≤ level.rank

def write (log : Log) (level : Level) (message : String) : Log :=
  if log.allows level then { log with lines := log.lines.push ⟨level, message⟩ } else log

def timeOfDay (ms : Nat) : String :=
  let two (n : Nat) := Text.Number.padded 10 2 n
  let secs := ms / 1000
  String.ofList (two (secs / 3600 % 24) ++ ':' :: two (secs / 60 % 60) ++ ':' :: two (secs % 60) ++
    '.' :: Text.Number.padded 10 3 (ms % 1000))

end Log

namespace Line

def plain : String := "\x1b[0m"

def style : Level → String
  | .info => ""
  | .warn => "\x1b[1m\x1b[33m"
  | .error => "\x1b[1m\x1b[31m"

def render (time : String) (line : Line) : String :=
  plain ++ style line.level ++ s!"{time} [{line.level.name}] {line.message}\n" ++ plain

end Line

end CopyJump
