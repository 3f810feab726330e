import CopyJump.FrameRate
import CopyJump.Library
import CopyJump.Machine

namespace CopyJump

structure Desk where
  library : Library
  romDir : Path
  /-- The name of the ROM in the machine, which need not be the one at the cursor. -/
  rom : Option String := none
  status : Option String := none
  frameRate : Nat
  paused : Bool := false
  showHelp : Bool
  showInfo : Bool
  quit : Bool := false
  counter : FrameCounter

namespace Desk

def help : List String :=
  ["0-9 A-F      BytePusher keys",
    "Left arrow   previous rom",
    "Right arrow  next rom",
    "P            pause",
    "H            toggle help",
    "I            toggle info",
    "Page Up      faster",
    "Page Down    slower",
    "R            reset speed",
    "Q / Esc      quit",
    "",
    "roms are read from the rom directory (*.BytePusher, *.bp)"]

def romShown (d : Desk) : String := d.rom.getD "(none)"

def info (d : Desk) : List String :=
  let fps := d.counter.rate
  let ips := fps * Machine.instructionsPerFrame
  let pause := if d.paused then " (paused)" else ""
  [s!"rom: {d.romShown}", s!"cpu: {fps} fps / {ips} ips", s!"target: {d.frameRate} fps{pause}"] ++
    d.status.toList

def overlay (d : Desk) : List String :=
  let info := if d.showInfo then d.info else []
  let gap := if d.showInfo then [""] else []
  info ++ if d.showHelp then gap ++ help else []

end Desk

end CopyJump
