import CopyJump.Arguments
import CopyJump.Device.Quiet
import CopyJump.Headless
import CopyJump.Host
import CopyJump.Keyboard.Typist
import CopyJump.Terminal

namespace CopyJump.Session

def name : String := "bytepusher"
def version : String := "0.1.0"

structure Outcome where
  exit : Nat
  output : String := ""
  lines : Array Line := #[]
  error : Option Error := none

def Outcome.errorOutput (time : String) (o : Outcome) : String :=
  let ending :=
    match o.error with
    | some e => s!"Error: {e.detail}\n"
    | none => ""
  String.join (o.lines.toList.map (Line.render time)) ++ ending

def Outcome.ofError (log : Log) (e : Error) : Outcome :=
  { exit := 1, lines := log.lines, error := some e }

def headless (config : Config) (files : FileTree) : Outcome :=
  match Headless.run config files { least := config.level } with
  | (.error e, log) => .ofError log e
  | (.ok summary, log) =>
    let text := summary.text
    { exit := 0, output := s!"{text}\n", lines := (log.write .info text).lines }

abbrev TerminalDevices (S : Type) := Devices Typist S Terminal

variable {S : Type} [Speaker S]

def devices (config : Config) (cols rows : Nat) (batches : List (List UInt8)) (speaker : S)
    (muted : Bool) : TerminalDevices S where
  keypad := { batches }
  speaker
  screen := ({ cols, rows } : Terminal).enter
  log := { least := config.level, muted }

def finished (devices : TerminalDevices S) : Outcome × Terminal :=
  ({ exit := 0, lines := devices.log.lines }, devices.screen.leave)

/-- The end of a session by an error, which is logged too, muted or not. -/
def failed (devices : TerminalDevices S) (e : Error) : Outcome × Terminal :=
  (.ofError (({ devices.log with muted := false } : Log).write .error e.message) e,
    devices.screen.leave)

/-- A session on a terminal that starts at one moment and ticks at others. -/
def interactive (config : Config) (devices : TerminalDevices S) (first : Moment)
    (moments : List Moment) : Outcome × Terminal :=
  match Host.start config devices first with
  | .error e => failed devices e
  | .ok h =>
    match Host.mainLoop moments h with
    | .error e h => failed h.stage.console e
    | .ok _ h => finished h.stage.console

/-- What is said about arguments that start no session; the words on usage are added outside. -/
def refusal : Arguments.Problem → Outcome
  | .displayHelp => { exit := 0 }
  | .displayVersion => { exit := 0, output := s!"{name} {version}\n" }
  | _ => { exit := 2 }

end CopyJump.Session
