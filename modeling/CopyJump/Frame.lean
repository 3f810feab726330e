import CopyJump.Error

namespace CopyJump

def audioSize : Nat := 256
def screenWidth : Nat := 256
def screenHeight : Nat := 256
def videoSize : Nat := screenWidth * screenHeight

/-- Signed samples of eight bits, at 15360 Hz. -/
structure AudioFrame where
  bytes : ByteArray
  size_eq : bytes.size = audioSize

structure VideoFrame where
  bytes : ByteArray
  size_eq : bytes.size = videoSize

def zeros (n : Nat) : ByteArray := ⟨Array.replicate n 0⟩

@[simp] theorem size_zeros (n : Nat) : (zeros n).size = n := by
  show (Array.replicate n (0 : UInt8)).size = n
  simp

namespace AudioFrame

def ofBytes? (bytes : ByteArray) : Except Error AudioFrame :=
  if h : bytes.size = audioSize then .ok ⟨bytes, h⟩
  else .error (.frameSize audioSize bytes.size)

def ofPage (page : ByteArray) : Except Error AudioFrame :=
  if h : page.size = audioSize then .ok ⟨page, h⟩ else .error (.audioPage page.size)

def silent : AudioFrame := ⟨zeros audioSize, size_zeros _⟩

def samples (f : AudioFrame) : List Int := f.bytes.data.toList.map (·.toInt8.toInt)

end AudioFrame

namespace VideoFrame

def ofBytes? (bytes : ByteArray) : Except Error VideoFrame :=
  if h : bytes.size = videoSize then .ok ⟨bytes, h⟩
  else .error (.frameSize videoSize bytes.size)

def ofPage (page : ByteArray) : Except Error VideoFrame :=
  if h : page.size = videoSize then .ok ⟨page, h⟩ else .error (.videoPage page.size)

def blank : VideoFrame := ⟨zeros videoSize, size_zeros _⟩

theorem offset_lt (f : VideoFrame) (x y : UInt8) :
    y.toNat * screenWidth + x.toNat < f.bytes.size := by
  rw [f.size_eq]
  have hx := x.toNat_lt
  have hy := y.toNat_lt
  simp only [videoSize, screenWidth, screenHeight] at *
  omega

def pixel (f : VideoFrame) (x y : UInt8) : UInt8 :=
  have := f.offset_lt x y
  f.bytes[y.toNat * screenWidth + x.toNat]

def row (f : VideoFrame) (y : Nat) : ByteArray :=
  f.bytes.extract (y * screenWidth) (y * screenWidth + screenWidth)

def rows (f : VideoFrame) : List ByteArray := (List.range screenHeight).map f.row

end VideoFrame

end CopyJump
