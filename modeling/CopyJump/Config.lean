import CopyJump.FrameRate
import CopyJump.Log
import CopyJump.Path

namespace CopyJump

structure Config where
  /-- The ROM to start with; the first one in `romDir` if none is named. -/
  rom : Option Path := none
  romDir : Path := .ofString "roms"
  frameRate : Nat := FrameRate.standard
  headless : Bool := false
  frames : Nat := 60
  keys : UInt16 := 0
  mute : Bool := false
  showHelp : Bool := false
  showInfo : Bool := true
  level : Level := .info

end CopyJump
