import CopyJump.Terminal

namespace CopyJump

namespace Color

def codes (layer : Nat) : Color → String
  | plain => s!"{layer}9"
  | black => s!"{layer}8;5;0"
  | white => s!"{layer}8;5;15"
  | rgb c =>
    let red := c.red.toNat
    let green := c.green.toNat
    let blue := c.blue.toNat
    s!"{layer}8;2;{red};{green};{blue}"

end Color

def Cell.ansi (c : Cell) : String := s!"\x1b[{c.fg.codes 3};{c.bg.codes 4}m{c.symbol}"

def Picture.row (p : Picture) (y : Nat) : List Cell := (List.range p.cols).map fun x ↦ p.cell x y

def Picture.ansi (p : Picture) : String :=
  String.join ((List.range p.rows).map fun y ↦
    s!"\x1b[{y + 1};1H" ++ String.join ((p.row y).map Cell.ansi)) ++ "\x1b[0m"

def TerminalMode.ansi : TerminalMode → String
  | cursorHidden => "\x1b[?25l"
  | cursorShown => "\x1b[?25h"
  | alternateEntered => "\x1b[?1049h"
  | alternateLeft => "\x1b[?1049l"
  | cleared => "\x1b[2J"

end CopyJump
