import CopyJump.Picture.Ansi
import CopyJump.Session
import Std.Time.DateTime.Timestamp

namespace CopyJump.Main

def usage : String :=
  "BytePusher virtual machine in a terminal\n\n" ++
  "Usage: bytepusher [OPTIONS] [ROM]\n\n" ++
  "Options:\n" ++
  "  --rom-dir <DIR>       directory to browse for roms [default: roms]\n" ++
  "  --fps <N>             target frames per second, 1 to 60 [default: 60]\n" ++
  "  --headless            run without a terminal and print a summary\n" ++
  "  --frames <N>          frames to run when headless [default: 60]\n" ++
  "  --input <MASK>        keys held when headless, decimal or 0x hex [default: 0]\n" ++
  "  --mute                no sound\n" ++
  "  --help-overlay        start with the help overlay\n" ++
  "  --no-info             start without the info overlay\n" ++
  "  --log-level <LEVEL>   info, warn or error [default: info]\n" ++
  "  -h, --help            print help\n" ++
  "  -V, --version         print version\n"

def timeOfDay : IO String := do
  let now ← Std.Time.Timestamp.now
  return Log.timeOfDay now.toMillisecondsSinceUnixEpoch.toInt.toNat

def writeErrors (o : Session.Outcome) : IO Unit := do
  IO.eprint (o.errorOutput (← timeOfDay))

def withParents (p : Path) : Nat → List Path
  | 0 => [p]
  | n + 1 =>
    match p.parent? with
    | some dir => if dir.bytes.isEmpty then [p] else p :: withParents dir n
    | none => [p]

/-- Reads what a session may ask for: the named ROM, and the ROMs in its directory and the ROM
directory. -/
def readFiles (config : Config) : IO FileTree := do
  let here ← IO.currentDir
  let names := (here.toString.splitOn "/").filter (!·.isEmpty)
  let mut files : FileTree := ⟨(names.map fun s ↦ (Path.ofString s).bytes).reverse, []⟩
  for p in config.romDir :: (config.rom.map fun rom ↦ withParents rom rom.parts.length).getD [] do
    let place := here / p.display
    if ← place.isDir then
      files := files.putDir p
      for entry in ← place.readDir do
        let path := p.child (Path.ofString entry.fileName).bytes
        if path.isRom && !(← entry.path.isDir) then
          files := files.putFile path (← IO.FS.readBinFile entry.path)
    else if ← place.pathExists then
      files := files.putFile p (← IO.FS.readBinFile place)
  return files

partial def listen (input : IO.FS.Stream) (typed : IO.Ref ByteArray) : IO Unit := do
  let bytes ← input.read 1024
  unless bytes.isEmpty do
    typed.modify (· ++ bytes)
    listen input typed

variable {S : Type} [Speaker S]

def flushLog (devices : Session.TerminalDevices S) : IO (Session.TerminalDevices S) := do
  writeErrors { exit := 0, lines := devices.log.lines }
  return { devices with log := { devices.log with lines := #[] } }

def draw (t : Terminal) : IO Unit := do
  let out ← IO.getStdout
  out.putStr ((t.picture.map Picture.ansi).getD "")
  out.flush

partial def play (config : Config) (typed : IO.Ref ByteArray) (sound : S → IO S) (files : FileTree)
    (h : Host (Session.TerminalDevices S)) : IO (Session.Outcome × Terminal) := do
  let start ← IO.monoNanosNow
  let bytes ← typed.modifyGet fun bytes ↦ (bytes, .empty)
  let files ← if bytes.isEmpty then pure files else readFiles config
  let ⟨machine, ⟨devices, soundOk, lastVideo⟩, desk⟩ := h
  let keypad := { devices.keypad with batches := [bytes.data.toList] }
  let stage : Stage (Session.TerminalDevices S) := ⟨{ devices with keypad }, soundOk, lastVideo⟩
  match Host.mainLoop [⟨start, files⟩] ⟨machine, stage, desk⟩ with
  | .error e h => return Session.failed h.stage.console e
  | .ok true h => return Session.finished h.stage.console
  | .ok false ⟨machine, ⟨devices, soundOk, lastVideo⟩, desk⟩ =>
    draw devices.screen
    let devices ← flushLog devices
    let speaker ← sound devices.speaker
    let elapsed := (← IO.monoNanosNow) - start
    let period := FrameRate.period desk.frameRate
    if elapsed < period then IO.sleep ((period - elapsed) / 1000000).toUInt32
    play config typed sound files ⟨machine, ⟨{ devices with speaker }, soundOk, lastVideo⟩, desk⟩

def envNat (name : String) (default : Nat) : IO Nat := do
  return ((← IO.getEnv name).bind String.toNat?).getD default

def interactive (config : Config) (speaker : S) (sound : S → IO S) : IO Session.Outcome := do
  let muted ← (← IO.getStderr).isTty
  let devices :=
    Session.devices config (← envNat "COLUMNS" 80) (← envNat "LINES" 24) [] speaker muted
  let files ← readFiles config
  let typed ← IO.mkRef ByteArray.empty
  let _ ← IO.asTask (listen (← IO.getStdin) typed) .dedicated
  IO.print (String.join (devices.screen.modes.map TerminalMode.ansi))
  let (outcome, terminal) ←
    match Host.start config devices ⟨← IO.monoNanosNow, files⟩ with
    | .error e => pure (Session.failed devices e)
    | .ok h => play config typed sound files h
  let left := terminal.modes.drop devices.screen.modes.length
  IO.print (String.join (left.map TerminalMode.ansi))
  return outcome

def ring (b : Beeper) : IO Beeper := do
  if b.tones.any (· ≠ 0) then IO.print "\x07"
  return { b with tones := #[] }

def run (args : List String) : IO UInt32 := do
  let outcome ←
    match Arguments.parse args with
    | .error problem =>
      match problem with
      | .displayHelp => IO.print usage
      | .displayVersion => pure ()
      | _ => IO.eprint usage
      pure (Session.refusal problem)
    | .ok config =>
      if config.headless then pure (Session.headless config (← readFiles config))
      else if config.mute then interactive config Mute.mk pure
      else interactive config ({} : Beeper) ring
  IO.print outcome.output
  writeErrors outcome
  return outcome.exit.toUInt32

end CopyJump.Main

def main (args : List String) : IO UInt32 := CopyJump.Main.run args
