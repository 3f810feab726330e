import CopyJump.AddressSpace

namespace CopyJump

/-- Something to read bytes from. No bytes mean the end. -/
class Source (S : Type) where
  read : (s : S) → (n : Nat) → Except Fault ByteArray × S

/-- Adds the bytes of a source to `acc` until it ends or `limit` is reached. The first fault
counts. -/
@[specialize] def fetch {S : Type} [Source S] (limit : Nat) (s : S) (acc : ByteArray) :
    Except Fault ByteArray :=
  if _ : acc.size < limit then
    match Source.read s (limit - acc.size) with
    | (.error fault, _) => .error fault
    | (.ok piece, s) =>
      let taken := piece.extract 0 (limit - acc.size)
      if _ : 0 < taken.size then fetch limit s (acc ++ taken) else .ok acc
  else .ok acc
termination_by limit - acc.size
decreasing_by
  have : 0 < (piece.extract 0 (limit - acc.size)).size := by assumption
  rw [ByteArray.size_append]
  omega

/-- One byte more than memory holds tells that a program does not fit. -/
def fetchLimit : Nat := addressSpaceSize + 1

def AddressSpace.loadFrom {M S : Type} [AddressSpace M] [Source S] (m : M) (s : S) :
    Except Error Unit × M :=
  match fetch fetchLimit s .empty with
  | .ok program => AddressSpace.load m program
  | .error fault => (.error (.unavailable fault), m)

/-- Bytes handed out in pieces of at most `piece`. With a number in `failAfter`, every read fails
once that many bytes are out. -/
structure Trickle where
  data : ByteArray
  piece : Nat
  failAfter : Option Nat := none
  position : Nat := 0

namespace Trickle

def read (t : Trickle) (n : Nat) : Except Fault ByteArray × Trickle :=
  let most := min n t.piece
  match t.failAfter with
  | some k =>
    if k ≤ t.position then (.error (.refused "read failed"), t)
    else
      let bytes := t.data.extract t.position (t.position + min most (k - t.position))
      (.ok bytes, { t with position := t.position + bytes.size })
  | none =>
    let bytes := t.data.extract t.position (t.position + most)
    (.ok bytes, { t with position := t.position + bytes.size })

instance : Source Trickle := ⟨read⟩

end Trickle

def Trickle.ofFile (data : ByteArray) : Trickle := ⟨data, data.size, none, 0⟩

end CopyJump
