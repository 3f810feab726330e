import CopyJump.Device
import CopyJump.Key.Latch

namespace CopyJump

inductive Arrival
  | key (stroke : Stroke)
  | other
  /-- An answer of the terminal, behind which reading stops until the next time. -/
  | report
  | fault (fault : Fault)

structure Keyboard where
  latch : KeyLatch := .empty
  commands : List HostCommand := []
  arrivals : List Arrival := []

namespace Keyboard

def handle (k : Keyboard) (stroke : Stroke) : Keyboard :=
  match stroke.action with
  | .machine bit => { k with latch := k.latch.press bit }
  | .host command => { k with commands := k.commands ++ [command] }
  | .none => k

def arrive (k : Keyboard) (arrivals : List Arrival) : Keyboard :=
  { k with arrivals := k.arrivals ++ arrivals }

def readFrom (k : Keyboard) : List Arrival → Except Fault Unit × Keyboard
  | [] => (.ok (), { k with arrivals := [] })
  | .key stroke :: rest => (k.handle stroke).readFrom rest
  | .other :: rest => k.readFrom rest
  | .report :: rest => (.ok (), { k with arrivals := rest })
  | .fault fault :: rest => (.error fault, { k with arrivals := rest })

def read (k : Keyboard) : Except Fault Unit × Keyboard := k.readFrom k.arrivals

def poll (k : Keyboard) : Except Fault UInt16 × Keyboard :=
  match k.read with
  | (.error fault, k) => (.error fault, k)
  | (.ok (), k) =>
    let (mask, latch) := k.latch.poll
    (.ok mask, { k with latch })

def takeCommands (k : Keyboard) : Except Fault (List HostCommand) × Keyboard :=
  match k.read with
  | (.error fault, k) => (.error fault, k)
  | (.ok (), k) => (.ok k.commands, { k with commands := [] })

instance : Keypad Keyboard := ⟨poll, takeCommands⟩

end Keyboard

end CopyJump
