namespace CopyJump

namespace Digest

def basis : UInt64 := 0xcbf29ce484222325
def prime : UInt64 := 0x100000001b3

def step (hash : UInt64) (b : UInt8) : UInt64 := (hash ^^^ b.toUInt64) * prime

def resume (bytes : ByteArray) (i : Nat) (hash : UInt64) : UInt64 :=
  if h : i < bytes.size then resume bytes (i + 1) (step hash bytes[i]) else hash
termination_by bytes.size - i

theorem resume_eq_foldl (bytes : ByteArray) (i : Nat) (hash : UInt64) :
    resume bytes i hash = (bytes.data.toList.drop i).foldl step hash := by
  fun_induction resume bytes i hash with
  | case1 i hash h ih =>
    have h' : i < bytes.data.toList.length := by simpa using h
    rw [ih, List.drop_eq_getElem_cons h']
    rfl
  | case2 i hash h =>
    have h' : bytes.data.toList.length ≤ i := by simpa using Nat.le_of_not_lt h
    rw [List.drop_eq_nil_of_le h']
    rfl

end Digest

/-- The FNV-1a digest of 64 bits. -/
def digest (bytes : ByteArray) : UInt64 := Digest.resume bytes 0 Digest.basis

theorem digest_eq_foldl (bytes : ByteArray) :
    digest bytes = bytes.data.toList.foldl Digest.step Digest.basis :=
  Digest.resume_eq_foldl bytes 0 Digest.basis

end CopyJump
