import CopyJump.Device
import CopyJump.Pitch

namespace CopyJump

structure FixedKeypad where
  mask : UInt16
  commands : List HostCommand := []

instance : Keypad FixedKeypad where
  poll k := (.ok k.mask, k)
  takeCommands k := (.ok k.commands, { k with commands := [] })

structure Mute where

instance : Speaker Mute where
  play s _ := (.ok (), s)
  stop s := (.ok (), s)

/-- Turns the pitch of each frame into a tone, and lists the tones to make; 0 is silence. A tone
that goes on is not listed again. -/
structure Beeper where
  pitch : Option Nat := none
  tones : Array Nat := #[]

instance : Speaker Beeper where
  play s frame :=
    let pitch := frame.pitch?
    (.ok (), if pitch = s.pitch then s else ⟨pitch, s.tones.push (pitch.getD 0)⟩)
  stop s := (.ok (), ⟨none, s.tones.push 0⟩)

structure CountingScreen where
  draws : Nat := 0
  overlay : List String := []

instance : Screen CountingScreen where
  draw d _ := (.ok (), { d with draws := d.draws + 1 })
  setOverlay d overlay := { d with overlay }

end CopyJump
