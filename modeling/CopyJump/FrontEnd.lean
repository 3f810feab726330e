import CopyJump.Frame

namespace CopyJump

class FrontEnd (F : Type) where
  poll : F → Except Error UInt16 × F
  /-- Takes the sound of a frame, always before its picture. -/
  takeAudio : F → AudioFrame → Except Error Unit × F
  takeVideo : F → VideoFrame → Except Error Unit × F

inductive Exchange
  | poll
  | audio
  | video
deriving DecidableEq

/-- Holds fixed keys down, and keeps the calls made and the last frames. -/
structure Recorder where
  mask : UInt16
  exchanges : Array Exchange := #[]
  frames : Nat := 0
  lastAudio : Option AudioFrame := none
  lastVideo : Option VideoFrame := none

instance : FrontEnd Recorder where
  poll r := (.ok r.mask, { r with exchanges := r.exchanges.push .poll })
  takeAudio r frame :=
    (.ok (), { r with exchanges := r.exchanges.push .audio, lastAudio := some frame })
  takeVideo r frame :=
    (.ok (), { r with
      exchanges := r.exchanges.push .video, frames := r.frames + 1, lastVideo := some frame })

/-- A front end that refuses one kind of call, before the one inside hears of it. -/
structure Refusing (F : Type) where
  inner : F
  refused : Option Exchange

namespace Refusing

variable {F : Type} [FrontEnd F]

def pass {α : Type} (r : Refusing F) (call : Exchange) (error : Error)
    (f : F → Except Error α × F) : Except Error α × Refusing F :=
  if r.refused = some call then (.error error, r)
  else
    let (result, inner) := f r.inner
    (result, { r with inner })

instance : FrontEnd (Refusing F) where
  poll r := r.pass .poll (.unavailable (.refused "poll refused")) FrontEnd.poll
  takeAudio r frame := r.pass .audio (.sound "audio refused") (FrontEnd.takeAudio · frame)
  takeVideo r frame :=
    r.pass .video (.unavailable (.refused "video refused")) (FrontEnd.takeVideo · frame)

end Refusing

end CopyJump
