import CopyJump.Frame

namespace CopyJump

structure Rgb where
  red : UInt8
  green : UInt8
  blue : UInt8
deriving DecidableEq

def Rgb.black : Rgb := ⟨0, 0, 0⟩

namespace Palette

def size : Nat := 216

def level : UInt8 := 0x33

def rgb (index : UInt8) : Rgb :=
  if size ≤ index.toNat then .black
  else ⟨index / 36 * level, index / 6 % 6 * level, index % 6 * level⟩

end Palette

/-- A place on a canvas, where the rows of a frame go down from 0. -/
structure Point where
  x : Int
  y : Int
deriving DecidableEq

namespace VideoFrame

structure Pixel where
  column : Nat
  row : Nat
  index : UInt8

def Pixel.point (p : Pixel) : Point := ⟨p.column, -p.row⟩

def pixels (f : VideoFrame) : List Pixel :=
  f.rows.zipIdx.flatMap fun (row, y) ↦
    row.data.toList.zipIdx.map fun (index, x) ↦ ⟨x, y, index⟩

/-- Puts a pixel's place behind the others of its palette index; a black one is left out. -/
def sort (buckets : Array (Array Point)) (p : Pixel) : Array (Array Point) :=
  if Palette.rgb p.index = .black then buckets
  else buckets.modify p.index.toNat (·.push p.point)

def buckets (f : VideoFrame) : Array (Array Point) :=
  f.pixels.foldl sort (Array.replicate Palette.size #[])

/-- The colours of a frame that are not black, by palette index, each with its places row by row. -/
def points (f : VideoFrame) : List (Rgb × List Point) :=
  (f.buckets.toList.zipIdx.filter (!·.1.isEmpty)).map fun (places, index) ↦
    (Palette.rgb index.toUInt8, places.toList)

end VideoFrame

end CopyJump
