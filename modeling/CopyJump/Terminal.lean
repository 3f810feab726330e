import CopyJump.Device
import CopyJump.Picture

namespace CopyJump

inductive TerminalMode
  | cursorHidden
  | cursorShown
  | alternateEntered
  | alternateLeft
  | cleared
deriving DecidableEq

def TerminalMode.subject : TerminalMode → Nat
  | cursorHidden | cursorShown => 0
  | alternateEntered | alternateLeft => 1
  | cleared => 2

structure Terminal where
  cols : Nat
  rows : Nat
  overlay : List String := []
  picture : Option Picture := none
  modes : List TerminalMode := []

namespace Terminal

/-- Switches a mode. A switch to what was set last is no switch. -/
def switch (t : Terminal) (mode : TerminalMode) : Terminal :=
  if (t.modes.filter (·.subject = mode.subject)).getLast? = some mode then t
  else { t with modes := t.modes ++ [mode] }

def enter (t : Terminal) : Terminal :=
  ((t.switch .alternateEntered).switch .cursorHidden).switch .cleared

def leave (t : Terminal) : Terminal := (t.switch .alternateLeft).switch .cursorShown

def draw (t : Terminal) (frame : VideoFrame) : Terminal :=
  { t.switch .cursorHidden with picture := some (.draw t.cols t.rows frame t.overlay) }

def shown (t : Terminal) : Picture := t.picture.getD (.empty t.cols t.rows)

instance : Screen Terminal where
  draw t frame := (.ok (), t.draw frame)
  setOverlay t overlay := { t with overlay }

end Terminal

end CopyJump
