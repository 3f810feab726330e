import CopyJump.Proofs.Contents
import CopyJump.Source

namespace CopyJump

theorem extract_add_size (b : ByteArray) (i n : Nat) :
    b.extract i (i + n) = b.extract i (i + (b.extract i (i + n)).size) := by
  have hsize : (b.extract i (i + n)).size = min (i + n) b.size - i := ByteArray.size_extract
  generalize (b.extract i (i + n)).size = k at hsize ⊢
  have hrest : b.extract (i + k) (i + n) = .empty :=
    ByteArray.extract_eq_empty_iff.mpr (by omega)
  rw [ByteArray.extract_eq_extract_append_extract (i + k) (by omega) (by omega), hrest,
    ByteArray.append_empty]

namespace Trickle

variable {t : Trickle}

def handed (t : Trickle) (n : Nat) : ByteArray :=
  t.data.extract t.position (t.position + min n t.piece)

theorem read_eq (hfail : t.failAfter = none) (n : Nat) :
    Source.read t n =
      (.ok (t.handed n), { t with position := t.position + (t.handed n).size }) := by
  show t.read n = _
  unfold Trickle.read
  rw [hfail]
  rfl

theorem size_handed_le (t : Trickle) (n : Nat) : (t.handed n).size ≤ n := by
  rw [handed, ByteArray.size_extract]
  omega

theorem extract_handed (t : Trickle) (n : Nat) : (t.handed n).extract 0 n = t.handed n := by
  rw [handed, ByteArray.extract_extract, Nat.add_zero, Nat.min_eq_right (by omega)]

theorem handed_eq (t : Trickle) (n : Nat) :
    t.handed n = t.data.extract t.position (t.position + (t.handed n).size) :=
  extract_add_size t.data t.position (min n t.piece)

end Trickle

/-- A source that does not fail gives its bytes up to the limit, in pieces of any size. -/
theorem fetch_trickle {t : Trickle} (hfail : t.failAfter = none)
    (hpiece : 0 < t.piece ∨ t.data.size ≤ t.position) (limit : Nat) (acc : ByteArray) :
    fetch limit t acc =
      .ok (acc ++ t.data.extract t.position (t.position + (limit - acc.size))) := by
  fun_induction fetch limit t acc with
  | case1 t acc hlt fault t' hr =>
    rw [t.read_eq hfail] at hr
    cases hr
  | case2 t acc hlt piece t' hr taken hpos ih =>
    rw [t.read_eq hfail] at hr
    cases hr
    have htaken : taken = t.handed (limit - acc.size) := t.extract_handed _
    have hle := t.size_handed_le (limit - acc.size)
    rw [htaken] at hpos ih ⊢
    have hpiece' : 0 < t.piece ∨
        t.data.size ≤ t.position + (t.handed (limit - acc.size)).size := by
      omega
    rw [ih hfail hpiece', ByteArray.append_assoc, ByteArray.size_append]
    have hhanded := t.handed_eq (limit - acc.size)
    generalize t.handed (limit - acc.size) = taken at hle hhanded ⊢
    have hrest : t.position + taken.size + (limit - (acc.size + taken.size)) =
        t.position + (limit - acc.size) := by
      omega
    have hjoin : t.data.extract t.position (t.position + (limit - acc.size)) =
        taken ++ t.data.extract (t.position + taken.size) (t.position + (limit - acc.size)) := by
      rw [ByteArray.extract_eq_extract_append_extract (t.position + taken.size) (by omega)
        (by omega), ← hhanded]
    rw [hrest, hjoin]
  | case3 t acc hlt piece t' hr taken hpos =>
    rw [t.read_eq hfail] at hr
    cases hr
    have htaken : taken = t.handed (limit - acc.size) := t.extract_handed _
    have hsize : taken.size = min (t.position + min (limit - acc.size) t.piece) t.data.size -
        t.position := by
      rw [htaken]
      exact ByteArray.size_extract
    have hnone : t.data.extract t.position (t.position + (limit - acc.size)) = .empty :=
      ByteArray.extract_eq_empty_iff.mpr (by omega)
    rw [hnone, ByteArray.append_empty]
  | case4 t acc hlt =>
    have hnone : t.data.extract t.position (t.position + (limit - acc.size)) = .empty :=
      ByteArray.extract_eq_empty_iff.mpr (by omega)
    rw [hnone, ByteArray.append_empty]

theorem fetch_ofFile (data : ByteArray) (limit : Nat) :
    fetch limit (Trickle.ofFile data) .empty = .ok (data.extract 0 limit) := by
  have hpiece : 0 < data.size ∨ data.size ≤ 0 := by omega
  rw [fetch_trickle (t := Trickle.ofFile data) rfl hpiece, ByteArray.empty_append,
    ByteArray.size_empty, Nat.sub_zero]
  simp only [Trickle.ofFile, Nat.zero_add]

theorem loadFrom_ofFile (m : Memory) (data : ByteArray) :
    AddressSpace.loadFrom m (Trickle.ofFile data) = m.load (data.extract 0 fetchLimit) := by
  rw [AddressSpace.loadFrom, fetch_ofFile]
  generalize data.extract 0 fetchLimit = program
  rfl

theorem loadFrom_ofFile_eq_ok {m memory : Memory} {data : ByteArray} :
    AddressSpace.loadFrom m (Trickle.ofFile data) = (.ok (), memory) ↔
      Memory.ofRom data = .ok memory := by
  have hwhole (h : data.size ≤ fetchLimit) : data.extract 0 fetchLimit = data := by
    rw [← Nat.max_eq_left h, ByteArray.extract_zero_max_size]
  have hlimit : addressSpaceSize < fetchLimit := by decide
  rw [loadFrom_ofFile, Memory.load_eq_ok_iff]
  constructor
  · intro h
    have hsize := Memory.size_le_of_ofRom h
    rw [ByteArray.size_extract] at hsize
    rwa [hwhole (by omega)] at h
  · intro h
    have hsize := Memory.size_le_of_ofRom h
    rwa [hwhole (by omega)]

end CopyJump
