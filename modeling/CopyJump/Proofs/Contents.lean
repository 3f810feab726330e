import CopyJump.Memory
import Mathlib.Data.List.Range
import Mathlib.Logic.Function.Iterate
import Mathlib.Order.Basic

namespace CopyJump

abbrev Place := BitVec 24

/-- What is in a memory: its bytes by their places. -/
abbrev Contents := Place → UInt8

namespace Contents

/-- The address in three bytes from a place on, high byte first. -/
def field (m : Contents) (p : Place) : Place :=
  (m p).toBitVec ++ (m (p + 1)).toBitVec ++ (m (p + 2)).toBitVec

def store (m : Contents) (p : Place) (value : UInt8) : Contents := Function.update m p value

def latch (m : Contents) (keys : UInt16) : Contents :=
  (m.store 0 (keys >>> 8).toUInt8).store 1 keys.toUInt8

structure State where
  contents : Contents
  pc : Place

/-- One instruction. Both operands are read before the copy, and the next place after it. -/
def step (s : State) : State :=
  let src := s.contents.field s.pc
  let dst := s.contents.field (s.pc + 3)
  let contents := s.contents.store dst (s.contents src)
  ⟨contents, contents.field (s.pc + 6)⟩

def frameStart (m : Contents) (keys : UInt16) : State := ⟨m.latch keys, (m.latch keys).field 2⟩

def frame (m : Contents) (keys : UInt16) : Contents := (step^[65536] (m.frameStart keys)).contents

-- Between functions: applied to arguments, the kernel would compare the two by running the frame.
theorem frame_eq_fun : frame = fun m keys ↦ (step^[65536] (m.frameStart keys)).contents :=
  rfl

def page (m : Contents) (p : Place) (n : Nat) : List UInt8 :=
  (List.range n).map fun i ↦ m (p + BitVec.ofNat 24 i)

def audioPlace (m : Contents) : Place := (m 6).toBitVec ++ (m 7).toBitVec ++ 0#8

def videoPlace (m : Contents) : Place := (m 5).toBitVec ++ 0#16

theorem length_page (m : Contents) (p : Place) (n : Nat) : (m.page p n).length = n := by
  simp [page]

theorem page_add (m : Contents) (p : Place) (a b : Nat) :
    m.page p (a + b) = m.page p a ++ m.page (p + BitVec.ofNat 24 a) b := by
  simp only [page, List.range_add, List.map_append, List.map_map, Function.comp_def,
    BitVec.ofNat_add, BitVec.add_assoc]

end Contents

namespace Address

def place (a : Address) : Place := a.toBitVec.setWidth 24

theorem index_eq_toNat_place (a : Address) : a.index = a.place.toNat := by
  rw [index_eq, place, BitVec.toNat_setWidth]
  rfl

@[simp] theorem place_add (a b : Address) : (a + b).place = a.place + b.place := by
  simp only [place, UInt32.toBitVec_add]
  exact BitVec.setWidth_add _ _ (by decide)

@[simp] theorem place_wrap (a : Address) : a.wrap.place = a.place := by
  apply BitVec.eq_of_toNat_eq
  have h : a.wrap.toNat = a.index := rfl
  rw [← index_eq_toNat_place, ← index_eq_toNat_place, index_eq a.wrap, h]
  exact Nat.mod_eq_of_lt a.index_lt

def ofPlace (p : Place) : Address := ⟨p.setWidth 32⟩

@[simp] theorem place_ofPlace (p : Place) : (ofPlace p).place = p := by
  simp [place, ofPlace]

end Address

namespace Memory

theorem toNat_lt_size (m : Memory) (p : Place) : p.toNat < m.bytes.size := by
  rw [m.size_eq]
  exact p.isLt

def contents (m : Memory) : Contents := fun p ↦
  have := m.toNat_lt_size p
  m.bytes[p.toNat]

theorem read_eq_contents (m : Memory) (a : Address) : m.read a = m.contents a.place := by
  simp only [read, contents, Address.index_eq_toNat_place]

theorem size_le_of_ofRom {rom : ByteArray} {m : Memory} (h : ofRom rom = .ok m) :
    rom.size ≤ addressSpaceSize := by
  unfold ofRom at h
  split at h
  · assumption
  · cases h

theorem contents_injective : Function.Injective contents := by
  intro m n h
  apply ext_read
  intro a
  rw [read_eq_contents, read_eq_contents, h]

@[simp] theorem contents_write (m : Memory) (a : Address) (value : UInt8) :
    (m.write a value).contents = m.contents.store a.place value := by
  funext p
  have h := m.read_write a (.ofPlace p) value
  simp only [read_eq_contents, Address.index_eq_toNat_place, Address.place_ofPlace] at h
  rw [h, Contents.store, Function.update_apply]
  simp only [← BitVec.toNat_inj, eq_comm]

theorem page_eq_take (m : Memory) (p : Place) (n : Nat) (h : p.toNat + n ≤ addressSpaceSize) :
    m.contents.page p n = (m.bytes.data.toList.drop p.toNat).take n := by
  have hs : m.bytes.data.toList.length = addressSpaceSize := m.size_eq
  apply List.ext_getElem
  · simp only [Contents.length_page, List.length_take, List.length_drop, hs]
    omega
  · intro i hi hi'
    have hn : i < n := by simpa only [Contents.length_page] using hi
    have hp : (p + BitVec.ofNat 24 i).toNat = p.toNat + i := by
      rw [BitVec.toNat_add, BitVec.toNat_ofNat, Nat.add_mod_mod]
      exact Nat.mod_eq_of_lt (show p.toNat + i < addressSpaceSize by omega)
    simp only [Contents.page, contents, List.getElem_map, List.getElem_range, hp, List.getElem_take,
      List.getElem_drop]
    rfl

theorem toList_extract (m : Memory) (i j : Nat) :
    (m.bytes.extract i j).data.toList = (m.bytes.data.toList.drop i).take (j - i) := by
  simp [ByteArray.data_extract, List.extract_eq_take_drop]

theorem page_zero_size (m : Memory) :
    m.contents.page 0 addressSpaceSize = m.bytes.data.toList := by
  rw [page_eq_take m 0 addressSpaceSize (by simp)]
  exact List.take_of_length_le (Nat.le_of_eq m.size_eq)

theorem toList_cycle (m : Memory) (n : Nat) (acc : ByteArray) :
    (m.cycle n acc).data.toList = acc.data.toList ++ m.contents.page 0 n := by
  fun_induction cycle m n acc with
  | case1 n acc h =>
    rw [ByteArray.toList_data_append, toList_extract, page_eq_take m 0 n (by simpa using h)]
    rfl
  | case2 n acc h ih =>
    have hp := m.contents.page_add 0 addressSpaceSize (n - addressSpaceSize)
    rw [Nat.add_sub_of_le (Nat.le_of_not_le h), page_zero_size] at hp
    rw [ih, ByteArray.toList_data_append, List.append_assoc, hp]
    rfl

theorem toList_slice (m : Memory) (a : Address) (n : Nat) :
    (m.slice a n).data.toList = m.contents.page a.place n := by
  have ha : a.place.toNat < addressSpaceSize := a.place.isLt
  simp only [slice, Address.index_eq_toNat_place]
  by_cases h : a.place.toNat + n ≤ addressSpaceSize
  · rw [if_pos h, toList_extract, page_eq_take m a.place n h, Nat.add_sub_cancel_left]
  · have hn : addressSpaceSize - a.place.toNat ≤ n := by omega
    have hp := m.contents.page_add a.place (addressSpaceSize - a.place.toNat)
      (n - (addressSpaceSize - a.place.toNat))
    have htop : a.place + BitVec.ofNat 24 (addressSpaceSize - a.place.toNat) = 0 := by
      apply BitVec.eq_of_toNat_eq
      rw [BitVec.toNat_add, BitVec.toNat_ofNat, Nat.add_mod_mod,
        Nat.add_sub_of_le (Nat.le_of_lt ha)]
      rfl
    have hfirst := page_eq_take m a.place (addressSpaceSize - a.place.toNat) (by omega)
    rw [Nat.add_sub_of_le hn, htop, hfirst] at hp
    rw [if_neg h, toList_cycle, toList_extract, hp]

end Memory

end CopyJump
