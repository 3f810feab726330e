import CopyJump.Text.Utf8

namespace CopyJump

/-- Paths are compared by component: repeated slashes, a final slash and every `.` but a leading one
do not count. -/
structure Path where
  bytes : List UInt8
deriving DecidableEq, Inhabited

namespace Path

def slash : UInt8 := 0x2F
def dot : UInt8 := 0x2E

def ofString (s : String) : Path := ⟨s.toUTF8.data.toList⟩

def display (p : Path) : String := Text.Utf8.text p.bytes

/-- The stretches between slashes, of which there is one more than slashes. -/
def split : List UInt8 → List (List UInt8)
  | [] => [[]]
  | b :: bs =>
    if b = slash then [] :: split bs
    else match split bs with
      | [] => [[b]]
      | part :: parts => (b :: part) :: parts

def parts (p : Path) : List (List UInt8) := split p.bytes

def isAbsolute (p : Path) : Bool := p.bytes.head? == some slash

inductive Component
  | root
  | current
  | parent
  | name (bytes : List UInt8)
deriving DecidableEq

/-- A part that leads nowhere: an empty one, or a single dot. -/
def isIdle (part : List UInt8) : Bool := part.isEmpty || part == [dot]

def Component.ofPart (part : List UInt8) : Component :=
  if part = [dot, dot] then .parent else .name part

def start (p : Path) : List Component :=
  if p.isAbsolute then [.root]
  else if p.parts.head? = some [dot] then [.current]
  else []

def components (p : Path) : List Component :=
  p.start ++ (p.parts.filter (!isIdle ·)).map Component.ofPart

/-- Paths are the same if their components are, however they are written. -/
def same (p q : Path) : Bool := p.components == q.components

/-- A word of numbers whose order is that of components: root, `.`, `..`, then names bytewise. The
zero ends the word, so that a name comes before those that extend it. -/
def Component.rank : Component → List Nat
  | .root => [0]
  | .current => [1]
  | .parent => [2]
  | .name bs => 3 :: bs.map (·.toNat + 1) ++ [0]

def rank (p : Path) : List Nat := p.components.flatMap Component.rank

def wordLe : List Nat → List Nat → Bool
  | [], _ => true
  | _ :: _, [] => false
  | a :: as, b :: bs => a < b || (a == b && wordLe as bs)

def le (p q : Path) : Bool := wordLe p.rank q.rank

def fileName? (p : Path) : Option (List UInt8) :=
  match p.components.getLast? with
  | some (.name bs) => some bs
  | _ => none

def fileName (p : Path) : String :=
  match p.fileName? with
  | some bs => Text.Utf8.text bs
  | none => p.display

def joinParts : List (List UInt8) → List UInt8
  | [] => []
  | [part] => part
  | part :: parts => part ++ slash :: joinParts parts

/-- What is before the last component, as written; none for the root and the empty path. -/
def parent? (p : Path) : Option Path :=
  match p.components.getLast? with
  | none | some .root => none
  | some _ =>
    match p.parts with
    | [] => some ⟨[]⟩
    | first :: rest =>
      match rest.reverse.dropWhile isIdle with
      | [] => some ⟨[]⟩
      | _ :: before =>
        match first :: (before.dropWhile isIdle).reverse with
        | [[]] => some ⟨[slash]⟩
        | kept => some ⟨joinParts kept⟩

def child (dir : Path) (name : List UInt8) : Path :=
  if dir.bytes.isEmpty || dir.bytes.getLast? == some slash then ⟨dir.bytes ++ name⟩
  else ⟨dir.bytes ++ slash :: name⟩

/-- What follows the last dot of a name, if something comes before that dot. -/
def extension? (name : List UInt8) : Option (List UInt8) :=
  let after := name.reverse.takeWhile (· ≠ dot)
  if after.length + 1 < name.length then some after.reverse else none

def lower (b : UInt8) : UInt8 := if 0x41 ≤ b && b ≤ 0x5A then b + 0x20 else b

def romExtensions : List (List UInt8) :=
  ["bytepusher", "bp"].map fun s ↦ (ofString s).bytes

def isRom (p : Path) : Bool :=
  match p.fileName?.bind extension? with
  | some ext => romExtensions.contains (ext.map lower)
  | none => false

end Path

end CopyJump
