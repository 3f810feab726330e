namespace CopyJump

/-- For each key, the polls that will still see it. A terminal tells when a key goes down but never
when it comes up. -/
structure KeyLatch where
  remaining : Vector UInt8 16

namespace KeyLatch

def hold : Nat := 8

def empty : KeyLatch := ⟨Vector.replicate 16 0⟩

/-- A key number counts modulo 16. -/
def press (l : KeyLatch) (bit : Nat) : KeyLatch :=
  ⟨l.remaining.set (bit % 16) hold.toUInt8 (Nat.mod_lt _ (by decide))⟩

def mask (l : KeyLatch) : UInt16 :=
  (l.remaining.toList.zipIdx.filter (0 < ·.1)).foldl
    (fun mask (_, bit) ↦ mask ||| (1 <<< UInt16.ofNat bit)) 0

def age (remaining : UInt8) : UInt8 := if 0 < remaining then remaining - 1 else remaining

def poll (l : KeyLatch) : UInt16 × KeyLatch := (l.mask, ⟨l.remaining.map age⟩)

end KeyLatch

end CopyJump
