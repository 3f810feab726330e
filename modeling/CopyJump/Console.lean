import CopyJump.Device
import CopyJump.Message

namespace CopyJump

class Console (C : Type) where
  takeCommands : C → Except Fault (List HostCommand) × C
  poll : C → Except Fault UInt16 × C
  play : C → AudioFrame → Except String Unit × C
  stop : C → Except String Unit × C
  draw : C → VideoFrame → Except Fault Unit × C
  setOverlay : C → List String → C
  report : C → Message → C

structure Devices (K S D : Type) where
  keypad : K
  speaker : S
  screen : D
  log : Log := {}

instance {K S D : Type} [Keypad K] [Speaker S] [Screen D] : Console (Devices K S D) where
  takeCommands c :=
    let (result, keypad) := Keypad.takeCommands c.keypad
    (result, { c with keypad })
  poll c :=
    let (result, keypad) := Keypad.poll c.keypad
    (result, { c with keypad })
  play c frame :=
    let (result, speaker) := Speaker.play c.speaker frame
    (result, { c with speaker })
  stop c :=
    let (result, speaker) := Speaker.stop c.speaker
    (result, { c with speaker })
  draw c frame :=
    let (result, screen) := Screen.draw c.screen frame
    (result, { c with screen })
  setOverlay c lines := { c with screen := Screen.setOverlay c.screen lines }
  report c m := { c with log := c.log.report m }

inductive Call
  | take (result : Except Fault (List HostCommand))
  | poll (result : Except Fault UInt16)
  | play (frame : AudioFrame) (result : Except String Unit)
  | stop (result : Except String Unit)
  | draw (frame : VideoFrame) (result : Except Fault Unit)
  | overlay (lines : List String)
  | report (m : Message)

structure Traced (C : Type) where
  inner : C
  calls : Array Call := #[]

instance {C : Type} [Console C] : Console (Traced C) where
  takeCommands c :=
    let (result, inner) := Console.takeCommands c.inner
    (result, ⟨inner, c.calls.push (.take result)⟩)
  poll c :=
    let (result, inner) := Console.poll c.inner
    (result, ⟨inner, c.calls.push (.poll result)⟩)
  play c frame :=
    let (result, inner) := Console.play c.inner frame
    (result, ⟨inner, c.calls.push (.play frame result)⟩)
  stop c :=
    let (result, inner) := Console.stop c.inner
    (result, ⟨inner, c.calls.push (.stop result)⟩)
  draw c frame :=
    let (result, inner) := Console.draw c.inner frame
    (result, ⟨inner, c.calls.push (.draw frame result)⟩)
  setOverlay c lines := ⟨Console.setOverlay c.inner lines, c.calls.push (.overlay lines)⟩
  report c m := ⟨Console.report c.inner m, c.calls.push (.report m)⟩

end CopyJump
