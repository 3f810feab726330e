import CopyJump.Keyboard.Typed

namespace CopyJump

structure Typist where
  keyboard : Keyboard := {}
  left : List UInt8 := []
  batches : List (List UInt8) := []

namespace Typist

def type (t : Typist) (bytes : List UInt8) : Typist :=
  let (arrivals, left) := Typed.arrivals t.left bytes
  { t with keyboard := t.keyboard.arrive arrivals, left }

instance : Keypad Typist where
  poll t :=
    let (result, keyboard) := t.keyboard.poll
    (result, { t with keyboard })
  takeCommands t :=
    let t := { t.type (t.batches.headD []) with batches := t.batches.tail }
    let (result, keyboard) := t.keyboard.takeCommands
    (result, { t with keyboard })

end Typist

end CopyJump
