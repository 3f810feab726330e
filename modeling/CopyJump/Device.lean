import CopyJump.Frame
import CopyJump.Key

namespace CopyJump

class Keypad (K : Type) where
  poll : K → Except Fault UInt16 × K
  /-- The commands given since they were last taken. -/
  takeCommands : K → Except Fault (List HostCommand) × K

class Speaker (S : Type) where
  play : S → AudioFrame → Except String Unit × S
  stop : S → Except String Unit × S

class Screen (D : Type) where
  draw : D → VideoFrame → Except Fault Unit × D
  /-- Text over the frames to come; no lines clear it. -/
  setOverlay : D → List String → D

end CopyJump
