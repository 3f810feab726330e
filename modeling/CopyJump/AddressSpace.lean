import CopyJump.Error

namespace CopyJump

abbrev Address := UInt32

namespace Address

def index (a : Address) : Nat := (a &&& 0xFFFFFF).toNat

theorem index_eq (a : Address) : a.index = a.toNat % addressSpaceSize := by
  show (a &&& 0xFFFFFF).toNat = a.toNat % 0x1000000
  rw [UInt32.toNat_and]
  exact Nat.and_two_pow_sub_one_eq_mod a.toNat 24

theorem index_lt (a : Address) : a.index < addressSpaceSize := by
  rw [index_eq]
  exact Nat.mod_lt _ (by decide)

def wrap (a : Address) : Address := a &&& 0xFFFFFF

def fits (a : Address) (n : Nat) : Bool := a.toNat + n < UInt32.size

end Address

@[specialize] def collect (read : Address → UInt8) (a : Address) : Nat → ByteArray → ByteArray
  | 0, acc => acc
  | n + 1, acc => collect read (a + 1) n (acc.push (read a))

/-- A range of memory, byte by byte. Its length is a word, as addresses are. -/
@[inline] def readEach (read : Address → UInt8) (a : Address) (n : Nat) : ByteArray :=
  collect read a n.toUInt32.toNat .empty

/-- Reads on behind the bytes that make up `acc`, high byte first. -/
@[specialize] def gather (read : Address → UInt8) : Nat → Address → UInt32 → UInt32
  | 0, _, acc => acc
  | n + 1, a, acc => gather read n (a + 1) (acc <<< 8 ||| (read a).toUInt32)

@[specialize] def scatter {M : Type} (write : M → Address → UInt8 → M) (m : M) (a : Address)
    (value : UInt32) : Nat → M
  | 0 => m
  | n + 1 => scatter write (write m a (value.toNat >>> (8 * n)).toUInt8) (a + 1) value n

/-- Memory that the machine can run on: 2^24 bytes, at addresses of 32 bits that wrap at its top.
`copyByte` is the only instruction. Numbers, high byte first, and ranges are read and written byte
by byte unless an instance has a way of its own. -/
class AddressSpace (M : Type) where
  readByte : M → Address → UInt8
  writeByte : M → Address → UInt8 → M
  /-- Zeros with a ROM at address 0; a ROM that does not fit is refused. -/
  load : M → ByteArray → Except Error Unit × M
  copyByte (m : M) (src dst : Address) : M := writeByte m dst (readByte m src)
  readNumber (m : M) (a : Address) (n : Nat) : UInt32 := gather (readByte m) n a 0
  writeNumber (m : M) (a : Address) (value : UInt32) (n : Nat) : M := scatter writeByte m a value n
  readRange (m : M) (a : Address) (n : Nat) : ByteArray := readEach (readByte m) a n

namespace AddressSpace

variable {M : Type} [AddressSpace M]

def maxNumberSize : Nat := 4

def readNumber? (m : M) (a : Address) (n : Nat) : Except Error UInt32 :=
  if n ≤ maxNumberSize then .ok (readNumber m a n) else .error .wideRead

def writeNumber? (m : M) (a : Address) (value : UInt32) (n : Nat) : Except Error Unit × M :=
  if n ≤ maxNumberSize then (.ok (), writeNumber m a value n) else (.error .wideWrite, m)

def writeBytes (m : M) (a : Address) : List UInt8 → M
  | [] => m
  | b :: bs => writeBytes (writeByte m a b) (a + 1) bs

end AddressSpace

end CopyJump
