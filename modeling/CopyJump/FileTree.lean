import CopyJump.Error

namespace CopyJump

inductive Entry
  | file (data : ByteArray)
  | dir

/-- Names from a place up to the root. -/
abbrev Location := List (List UInt8)

/-- Files and directories in memory. There is nothing else, such as links or devices, and a directory
that is there can always be listed. Relative paths start at the working directory, which is there
together with those above it. -/
structure FileTree where
  workDir : Location
  entries : List (Location × Entry) := []

namespace FileTree

def entry? (t : FileTree) (l : Location) : Option Entry :=
  if l.isSuffixOf t.workDir then some .dir else (t.entries.find? (·.1 == l)).map (·.2)

def turn (l : Location) (part : List UInt8) : Location :=
  if Path.isIdle part then l
  else if part = [Path.dot, Path.dot] then l.tail
  else part :: l

def follow (t : FileTree) (l : Location) (part : List UInt8) : Except Fault Location :=
  match t.entry? l with
  | none => .error .notFound
  | some (.file _) => .error .notADirectory
  | some .dir => .ok (turn l part)

def base (t : FileTree) (p : Path) : Location := if p.isAbsolute then [] else t.workDir

/-- Where a path ends, if directories let it pass. The empty path leads nowhere. -/
def locate (t : FileTree) (p : Path) : Except Fault Location :=
  if p.bytes.isEmpty then .error .notFound else p.parts.foldlM t.follow (t.base p)

def lookup (t : FileTree) (p : Path) : Except Fault Entry := do
  match t.entry? (← t.locate p) with
  | some entry => return entry
  | none => throw .notFound

def read (t : FileTree) (p : Path) : Except Fault ByteArray := do
  match ← t.lookup p with
  | .file data => return data
  | .dir => throw .isADirectory

def isFile (t : FileTree) (p : Path) : Bool :=
  match t.lookup p with
  | .ok (.file _) => true
  | _ => false

def isDir (t : FileTree) (p : Path) : Bool :=
  match t.lookup p with
  | .ok .dir => true
  | _ => false

def namesAt (t : FileTree) (l : Location) : List (List UInt8) :=
  t.entries.filterMap fun (place, _) ↦
    match place with
    | name :: above => if above = l then some name else none
    | [] => none

def list (t : FileTree) (p : Path) : List (List UInt8) :=
  match t.locate p with
  | .ok l => if t.isDir p then t.namesAt l else []
  | .error _ => []

def set (t : FileTree) (l : Location) (entry : Entry) : FileTree :=
  { t with entries := (l, entry) :: t.entries.filter (·.1 != l) }

def enter (way : FileTree × Location) (part : List UInt8) : Except Fault (FileTree × Location) := do
  let (t, l) := way
  let l ← t.follow l part
  match t.entry? l with
  | some _ => return (t, l)
  | none => return (t.set l .dir, l)

/-- Makes every directory that a path goes through, also one that it leaves again. -/
def makeDirs (t : FileTree) (p : Path) : Except Fault (FileTree × Location) :=
  p.parts.foldlM enter (t, t.base p)

def putDir (t : FileTree) (p : Path) : FileTree :=
  match t.makeDirs p with
  | .ok (t, _) => t
  | .error _ => t

def putFile (t : FileTree) (p : Path) (data : ByteArray) : FileTree :=
  let t := t.putDir (p.parent?.getD p)
  match t.locate p with
  | .ok l => if t.isDir p then t else t.set l (.file data)
  | .error _ => t

def remove (t : FileTree) (p : Path) : FileTree :=
  match t.locate p with
  | .ok l => if t.isFile p then { t with entries := t.entries.filter (·.1 != l) } else t
  | .error _ => t

end FileTree

end CopyJump
