import CopyJump.Error
import CopyJump.Log

namespace CopyJump

inductive Message
  | noRoms (dir : Path)
  | loaded (name : String) (rom : ByteArray)
  | skipped (path : Path) (error : Error)
  | notLoaded (error : Error)
  | frameRate (old new : Nat)
  | paused
  | resumed
  | soundDisabled (reason : String)

namespace Message

def level : Message → Level
  | noRoms _ | soundDisabled _ => .warn
  | skipped .. | notLoaded _ => .error
  | _ => .info

def text : Message → String
  | noRoms dir => s!"no roms in {dir.display}; running a blank machine"
  | loaded name rom => s!"loaded {name} ({rom.size} bytes)"
  | skipped path error => s!"skipped {path.display}: {error.message}"
  | notLoaded error => s!"couldn't load rom: {error.message}"
  | frameRate old new => s!"frame rate {old} -> {new}"
  | paused => "paused"
  | resumed => "resumed"
  | soundDisabled reason => s!"sound disabled: {reason}"

end Message

def Log.report (log : Log) (m : Message) : Log := log.write m.level m.text

end CopyJump
