import CopyJump.Device

namespace CopyJump

/-- Hands out masks and commands one entry a call, and nothing once they are used up. An entry
`none` is a refusal. -/
structure ScriptedKeypad where
  masks : List (Option UInt16) := []
  batches : List (Option (List HostCommand)) := []

instance : Keypad ScriptedKeypad where
  poll k :=
    match k.masks with
    | [] => (.ok 0, k)
    | none :: masks => (.error (.refused "input refused"), { k with masks })
    | some mask :: masks => (.ok mask, { k with masks })
  takeCommands k :=
    match k.batches with
    | [] => (.ok [], k)
    | none :: batches => (.error (.refused "commands refused"), { k with batches })
    | some commands :: batches => (.ok commands, { k with batches })

/-- Fails at the calls with the numbers listed, the first of each kind being number 1. -/
structure ScriptedSpeaker where
  failPlay : List Nat := []
  failStop : List Nat := []
  plays : Nat := 0
  stops : Nat := 0

instance : Speaker ScriptedSpeaker where
  play s _ :=
    let s := { s with plays := s.plays + 1 }
    (if s.failPlay.contains s.plays then .error "speaker refused" else .ok (), s)
  stop s :=
    let s := { s with stops := s.stops + 1 }
    (if s.failStop.contains s.stops then .error "speaker stuck" else .ok (), s)

structure ScriptedScreen where
  failDraw : List Nat := []
  draws : Nat := 0

instance : Screen ScriptedScreen where
  draw d _ :=
    let d := { d with draws := d.draws + 1 }
    (if d.failDraw.contains d.draws then .error (.refused "screen refused") else .ok (), d)
  setOverlay d _ := d

end CopyJump
