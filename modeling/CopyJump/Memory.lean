import CopyJump.AddressSpace

namespace CopyJump

structure Memory where
  bytes : ByteArray
  size_eq : bytes.size = addressSpaceSize

namespace Memory

def doubled : Nat → ByteArray
  | 0 => ⟨#[0]⟩
  | k + 1 =>
    let half := doubled k
    half ++ half

theorem size_doubled (k : Nat) : (doubled k).size = 1 <<< k := by
  induction k with
  | zero => rfl
  | succ k ih =>
    simp only [doubled, ByteArray.size_append, ih, Nat.shiftLeft_succ]
    omega

theorem getElem_doubled (k i : Nat) (h : i < (doubled k).size) : (doubled k)[i] = 0 := by
  induction k generalizing i with
  | zero =>
    have : i = 0 := by simpa [size_doubled] using h
    subst this
    rfl
  | succ k ih =>
    simp only [doubled]
    by_cases hi : i < (doubled k).size
    · rw [ByteArray.getElem_append_left hi, ih]
    · rw [ByteArray.getElem_append_right (Nat.le_of_not_lt hi), ih]

def blank : Memory := ⟨doubled 24, size_doubled 24⟩

theorem index_lt_size (m : Memory) (a : Address) : a.index < m.bytes.size := by
  rw [m.size_eq]
  exact a.index_lt

@[inline] def read (m : Memory) (a : Address) : UInt8 :=
  have := m.index_lt_size a
  m.bytes[a.index]

theorem size_set (m : Memory) (a : Address) (value : UInt8) :
    (m.bytes.set a.index value (m.index_lt_size a)).size = addressSpaceSize := by
  show (m.bytes.data.set a.index value _).size = _
  rw [Array.size_set]
  exact m.size_eq

@[inline] def write (m : Memory) (a : Address) (value : UInt8) : Memory :=
  ⟨m.bytes.set a.index value (m.index_lt_size a), m.size_set a value⟩

theorem read_write (m : Memory) (a b : Address) (value : UInt8) :
    (m.write a value).read b = if a.index = b.index then value else m.read b := by
  have ha : a.index < m.bytes.data.size := m.index_lt_size a
  have hb : b.index < m.bytes.data.size := m.index_lt_size b
  exact Array.getElem_set ha (by simpa using hb)

theorem read_blank (a : Address) : blank.read a = 0 := getElem_doubled 24 a.index _

theorem ext_read {m n : Memory} (h : ∀ a, m.read a = n.read a) : m = n := by
  obtain ⟨b, hb⟩ := m
  obtain ⟨c, hc⟩ := n
  have : b = c := by
    apply ByteArray.ext_getElem (hb.trans hc.symm)
    intro i hi hi'
    have hlt : i < 0x1000000 := by
      rw [hb] at hi
      exact hi
    have hx : Address.index (UInt32.ofNat i) = i := by
      rw [Address.index_eq, UInt32.toNat_ofNat_of_lt' (Nat.lt_trans hlt (by decide))]
      exact Nat.mod_eq_of_lt hlt
    have := h (UInt32.ofNat i)
    simpa only [read, hx] using this
  subst this
  rfl

def image (rom : ByteArray) : ByteArray := rom ++ blank.bytes.extract rom.size addressSpaceSize

theorem size_image {rom : ByteArray} (h : rom.size ≤ addressSpaceSize) :
    (image rom).size = addressSpaceSize := by
  simp only [image, ByteArray.size_append, ByteArray.size_extract, blank.size_eq, Nat.min_self]
  omega

def ofRom (rom : ByteArray) : Except Error Memory :=
  if h : rom.size ≤ addressSpaceSize then .ok ⟨image rom, size_image h⟩
  else .error (.romTooLarge rom.size)

theorem read_ofRom {rom : ByteArray} {m : Memory} (h : ofRom rom = .ok m) (a : Address) :
    m.read a = if h : a.index < rom.size then rom[a.index] else 0 := by
  unfold ofRom at h
  split at h
  · cases h
    simp only [read, image]
    split
    · rw [ByteArray.getElem_append_left]
    · rename_i hsize hlt
      rw [ByteArray.getElem_append_right (Nat.le_of_not_lt hlt), ByteArray.getElem_extract]
      exact getElem_doubled 24 _ _
  · cases h

/-- Appends `n` bytes of memory from address 0 on, as many times round as it takes. -/
def cycle (m : Memory) (n : Nat) (acc : ByteArray) : ByteArray :=
  if n ≤ addressSpaceSize then acc ++ m.bytes.extract 0 n
  else m.cycle (n - addressSpaceSize) (acc ++ m.bytes)
termination_by n
decreasing_by
  have : 0 < addressSpaceSize := by decide
  omega

/-- A range in one piece if it ends below the top; else up to the top and on from address 0. -/
def slice (m : Memory) (a : Address) (n : Nat) : ByteArray :=
  let start := a.index
  if start + n ≤ addressSpaceSize then m.bytes.extract start (start + n)
  else m.cycle (n - (addressSpaceSize - start)) (m.bytes.extract start addressSpaceSize)

def load (m : Memory) (rom : ByteArray) : Except Error Unit × Memory :=
  match ofRom rom with
  | .ok image => (.ok (), image)
  | .error e => (.error e, m)

theorem load_of_ofRom {m image : Memory} {rom : ByteArray} (h : ofRom rom = .ok image) :
    m.load rom = (.ok (), image) := by
  rw [load, h]

theorem load_of_refused {m : Memory} {rom : ByteArray} {e : Error} (h : ofRom rom = .error e) :
    m.load rom = (.error e, m) := by
  rw [load, h]

theorem load_eq_ok_iff {m image : Memory} {rom : ByteArray} :
    m.load rom = (.ok (), image) ↔ ofRom rom = .ok image := by
  cases h : ofRom rom with
  | ok image' => simp [load_of_ofRom h]
  | error e => simp [load_of_refused h]

@[inline] instance : AddressSpace Memory where
  readByte := read
  writeByte := write
  load := load
  readRange := slice

end Memory

end CopyJump
