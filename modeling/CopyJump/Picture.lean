import CopyJump.Palette

namespace CopyJump

inductive Color
  | plain
  | black
  | white
  | rgb (c : Rgb)
deriving DecidableEq

structure Cell where
  symbol : Char := ' '
  fg : Color := .plain
  bg : Color := .plain
deriving DecidableEq

/-- A screen of cells, row by row. `Picture.DrawingFacts` lists what drawing on it takes from the
terminal library. -/
structure Picture where
  cols : Nat
  rows : Nat
  cells : Array Cell

namespace Picture

def ofCells (cols rows : Nat) (cell : Nat → Nat → Cell) : Picture :=
  ⟨cols, rows, Array.ofFn (n := cols * rows) fun i ↦ cell (i % cols) (i / cols)⟩

def empty (cols rows : Nat) : Picture := ofCells cols rows fun _ _ ↦ {}

def cell (p : Picture) (x y : Nat) : Cell := p.cells.getD (y * p.cols + x) {}

def modify (p : Picture) (x y : Nat) (f : Cell → Cell) : Picture :=
  { p with cells := p.cells.modify (y * p.cols + x) f }

def title : List Char := "BytePusher".toList

def rim (cols rows x y : Nat) : Char :=
  if y = 0 then
    if x = 0 then '┌' else if x + 1 = cols then '┐' else title.getD (x - 1) '─'
  else if y + 1 = rows then
    if x = 0 then '└' else if x + 1 = cols then '┘' else '─'
  else if x = 0 ∨ x + 1 = cols then '│'
  else ' '

def border (cols rows : Nat) : Picture :=
  ofCells cols rows fun x y ↦ ⟨rim cols rows x y, .plain, .black⟩

/-- Brings 0 to 255 onto the cells of a line, the ends onto the ends. -/
def scale (n length : Nat) : Nat := n * (length - 1) / 255

def block : Char := '▄'

def paint (color : Rgb) (p : Picture) (point : Point) : Picture :=
  p.modify (1 + scale point.x.toNat (p.cols - 2)) (1 + scale (-point.y).toNat (p.rows - 2))
    fun _ ↦ ⟨block, .rgb color, .plain⟩

def paintAll (p : Picture) (groups : List (Rgb × List Point)) : Picture :=
  groups.foldl (fun p (color, points) ↦ points.foldl (paint color) p) p

def splitLines : List Char → List (List Char)
  | [] => [[]]
  | c :: cs =>
    if c = '\n' then [] :: splitLines cs
    else match splitLines cs with
      | [] => [[c]]
      | line :: lines => (c :: line) :: lines

/-- The size of the text area: as wide as the longest line has bytes, and as high as there are
lines, both counted in words of 16 bits, within the border. -/
def textArea (p : Picture) (lines : List String) : Nat × Nat :=
  let width := (lines.map String.utf8ByteSize).foldl max 0
  (min (width % 0x10000) (p.cols - 2), min (lines.length % 0x10000) (p.rows - 2))

/-- Puts text into a cell; without any, the cell keeps its symbol. -/
def cover (c : Option Char) (cell : Cell) : Cell := ⟨c.getD cell.symbol, .white, .black⟩

def write (p : Picture) (lines : List String) : Picture :=
  let (width, height) := p.textArea lines
  let text := (lines.flatMap fun s ↦ splitLines s.toList).map List.toArray |>.toArray
  (List.range height).foldl
    (fun p y ↦
      let written := text.getD y #[]
      (List.range width).foldl (fun p x ↦ p.modify (1 + x) (1 + y) (cover written[x]?)) p)
    p

def maxCells : Nat := 65535

/-- The columns and rows that are drawn on: all of them, or as many as `maxCells` has room for in
about the same shape. -/
def drawnSize (cols rows : Nat) : Nat × Nat :=
  if cols * rows ≤ maxCells then (cols, rows)
  else
    let shape := Float.ofNat cols / Float.ofNat rows
    let height := (Float.ofNat maxCells / shape).sqrt
    ((height * shape).toUInt16.toNat, height.toUInt16.toNat)

def onScreen (p : Picture) (cols rows : Nat) : Picture :=
  ofCells cols rows fun x y ↦ if x < p.cols ∧ y < p.rows then p.cell x y else {}

def compose (cols rows : Nat) (frame : VideoFrame) (overlay : List String) : Picture :=
  let p := (border cols rows).paintAll frame.points
  if overlay.isEmpty then p else p.write overlay

def draw (cols rows : Nat) (frame : VideoFrame) (overlay : List String) : Picture :=
  let (width, height) := drawnSize cols rows
  (compose width height frame overlay).onScreen cols rows

end Picture

end CopyJump
