import CopyJump.Console
import CopyJump.FrontEnd

namespace CopyJump

structure Stage (C : Type) where
  console : C
  /-- Trouble with sound is reported once, and no frame is played after it. -/
  soundOk : Bool := true
  /-- The last frame that was drawn while the machine ran. -/
  lastVideo : Option VideoFrame := none

namespace Stage

variable {C : Type} [Console C]

def takeCommands (s : Stage C) : Except Error (List HostCommand) × Stage C :=
  let (result, console) := Console.takeCommands s.console
  (result.mapError .unavailable, { s with console })

def poll (s : Stage C) : Except Error UInt16 × Stage C :=
  let (result, console) := Console.poll s.console
  (result.mapError .unavailable, { s with console })

def report (s : Stage C) (m : Message) : Stage C :=
  { s with console := Console.report s.console m }

def takeAudio (s : Stage C) (frame : AudioFrame) : Except Error Unit × Stage C :=
  if s.soundOk then
    match Console.play s.console frame with
    | (.ok (), console) => (.ok (), { s with console })
    | (.error reason, console) =>
      let console := Console.report console (.soundDisabled reason)
      (.ok (), { s with console, soundOk := false })
  else (.ok (), s)

def takeVideo (s : Stage C) (frame : VideoFrame) : Except Error Unit × Stage C :=
  match Console.draw s.console frame with
  | (.ok (), console) => (.ok (), { s with console, lastVideo := some frame })
  | (.error fault, console) => (.error (.unavailable fault), { s with console })

instance : FrontEnd (Stage C) := ⟨poll, takeAudio, takeVideo⟩

def redraw (s : Stage C) : Except Error Unit × Stage C :=
  let (result, console) := Console.draw s.console (s.lastVideo.getD .blank)
  (result.mapError .unavailable, { s with console })

def stopSound (s : Stage C) : Except Error Unit × Stage C :=
  let (result, console) := Console.stop s.console
  (result.mapError .sound, { s with console })

def setOverlay (s : Stage C) (lines : List String) : Stage C :=
  { s with console := Console.setOverlay s.console lines }

end Stage

end CopyJump
