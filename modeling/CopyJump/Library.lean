import CopyJump.FileTree

namespace CopyJump

structure Library where
  paths : List Path
  cursor : Nat := 0
deriving DecidableEq

namespace Library

def ofPaths (paths : List Path) : Library := ⟨paths.mergeSort Path.le, 0⟩

/-- The ROM files directly inside a directory. The listing does not fail, and an entry that is not a
file is a directory, as in every `FileTree`. -/
def scan (files : FileTree) (dir : Path) : Library :=
  ofPaths (((files.list dir).map dir.child).filter fun p ↦ files.isFile p && p.isRom)

/-- The ROMs of a directory with the cursor on one of them, which is added if it is missing. -/
def startingAt (files : FileTree) (dir rom : Path) : Library :=
  let found := (scan files dir).paths
  let paths := if found.any (·.same rom) then found else (found ++ [rom]).mergeSort Path.le
  ⟨paths, (paths.findIdx? (·.same rom)).getD 0⟩

def isEmpty (l : Library) : Bool := l.paths.isEmpty

def size (l : Library) : Nat := l.paths.length

def current? (l : Library) : Option Path := l.paths[l.cursor]?

def next (l : Library) : Library :=
  if l.cursor + 1 < l.size then { l with cursor := l.cursor + 1 } else l

def previous (l : Library) : Library := { l with cursor := l.cursor - 1 }

def read (l : Library) (files : FileTree) (dir : Path) : Except Error (Path × ByteArray) :=
  match l.current? with
  | none => .error (.noRom dir)
  | some path =>
    match files.read path with
    | .ok data => .ok (path, data)
    | .error fault => .error (.unavailable fault)

end Library

end CopyJump
