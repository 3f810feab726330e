import CopyJump.Memory

namespace CopyJump

structure Copy where
  src : Address
  dst : Address
  value : UInt8
deriving DecidableEq

/-- Plain memory that counts the bytes written to it and lists the first copies. Loading is not
counted. -/
structure Metered where
  memory : Memory
  limit : Nat
  writes : Nat := 0
  copies : Nat := 0
  trace : Array Copy := #[]

namespace Metered

def writeByte (w : Metered) (a : Address) (value : UInt8) : Metered :=
  match w with
  | ⟨memory, limit, writes, copies, trace⟩ =>
    ⟨memory.write a value, limit, writes + 1, copies, trace⟩

def copyByte (w : Metered) (src dst : Address) : Metered :=
  match w with
  | ⟨memory, limit, writes, copies, trace⟩ =>
    let value := memory.read src
    ⟨memory.write dst value, limit, writes + 1, copies + 1,
      if trace.size < limit then trace.push ⟨src, dst, value⟩ else trace⟩

def load (w : Metered) (rom : ByteArray) : Except Error Unit × Metered :=
  let (result, memory) := w.memory.load rom
  (result, { w with memory })

@[inline] instance : AddressSpace Metered where
  readByte w := w.memory.read
  writeByte := writeByte
  load := load
  copyByte := copyByte

end Metered

/-- Plain memory that drops the end of every range of the size of a frame. -/
structure Clipped where
  memory : Memory
  audioLoss : Nat
  videoLoss : Nat

namespace Clipped

def loss (c : Clipped) (n : Nat) : Nat :=
  if n = 256 then c.audioLoss else if n = 65536 then c.videoLoss else 0

def readRange (c : Clipped) (a : Address) (n : Nat) : ByteArray :=
  let range := c.memory.slice a n
  range.extract 0 (range.size - c.loss n)

@[inline] instance : AddressSpace Clipped where
  readByte c := c.memory.read
  writeByte c a value :=
    match c with
    | ⟨memory, audioLoss, videoLoss⟩ => ⟨memory.write a value, audioLoss, videoLoss⟩
  load c rom :=
    let (result, memory) := c.memory.load rom
    (result, { c with memory })
  readRange := readRange

end Clipped

end CopyJump
