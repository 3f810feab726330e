import CopyJump.Proofs.Locality
import Mathlib.Data.Nat.Digits.Lemmas

namespace CopyJump

def lowBytes (value : Nat) : Nat → List UInt8
  | 0 => []
  | n + 1 => (value >>> (8 * n)).toUInt8 :: lowBytes value n

theorem length_lowBytes (value n : Nat) : (lowBytes value n).length = n := by
  induction n with
  | zero => rfl
  | succ n ih => rw [lowBytes, List.length_cons, ih]

/-- The number that bytes stand for, high byte first. -/
def numeral (bytes : List UInt8) : Nat := Nat.ofDigits 256 (bytes.reverse.map UInt8.toNat)

theorem numeral_append (bs cs : List UInt8) :
    numeral (bs ++ cs) = numeral bs * 256 ^ cs.length + numeral cs := by
  rw [numeral, List.reverse_append, List.map_append, Nat.ofDigits_append, List.length_map,
    List.length_reverse, Nat.add_comm, Nat.mul_comm]
  rfl

theorem numeral_singleton (b : UInt8) : numeral [b] = b.toNat := by
  simp [numeral]

theorem numeral_cons (b : UInt8) (bs : List UInt8) :
    numeral (b :: bs) = b.toNat * 256 ^ bs.length + numeral bs := by
  rw [← List.singleton_append, numeral_append, numeral_singleton]

theorem digits_lt (bytes : List UInt8) : ∀ d ∈ bytes.reverse.map UInt8.toNat, d < 256 := by
  intro d hd
  obtain ⟨b, -, rfl⟩ := List.mem_map.mp hd
  exact b.toNat_lt

theorem numeral_lt (bytes : List UInt8) : numeral bytes < 256 ^ bytes.length := by
  have h := Nat.ofDigits_lt_base_pow_length (by decide : 1 < 256) (digits_lt bytes)
  rwa [List.length_map, List.length_reverse] at h

theorem numeral_inj {bs cs : List UInt8} (hlen : bs.length = cs.length)
    (h : numeral bs = numeral cs) : bs = cs := by
  have hmap : bs.reverse.map UInt8.toNat = cs.reverse.map UInt8.toNat := by
    apply Nat.ofDigits_inj_of_len_eq (by decide : 1 < 256) _ (digits_lt bs) (digits_lt cs) h
    simpa using hlen
  have hrev := List.map_injective_iff.mpr (fun _ _ ↦ UInt8.toNat_inj.mp) hmap
  exact List.reverse_injective hrev

theorem numeral_lowBytes (value n : Nat) : numeral (lowBytes value n) = value % 256 ^ n := by
  induction n with
  | zero => simp [lowBytes, numeral, Nat.mod_one]
  | succ n ih =>
    have hpow : 2 ^ (8 * n) = 256 ^ n := Nat.pow_mul 2 8 n
    have hbyte : (value >>> (8 * n)).toUInt8.toNat = value / 256 ^ n % 256 := by
      rw [Nat.toUInt8_eq, UInt8.toNat_ofNat', Nat.shiftRight_eq_div_pow, hpow]
    rw [lowBytes, numeral_cons, length_lowBytes, ih, hbyte, Nat.mod_pow_succ]
    ring

theorem lowBytes_numeral (bytes : List UInt8) :
    lowBytes (numeral bytes) bytes.length = bytes := by
  apply numeral_inj (length_lowBytes _ _)
  rw [numeral_lowBytes]
  exact Nat.mod_eq_of_lt (numeral_lt bytes)

namespace Contents

variable (m : Contents) (p : Place)

theorem page_succ (n : Nat) : m.page p (n + 1) = m p :: m.page (p + 1) n := by
  have hone : m.page p 1 = [m p] := by simp [page]
  rw [Nat.add_comm, page_add, hone]
  rfl

def storeAll (m : Contents) (p : Place) : List UInt8 → Contents
  | [] => m
  | b :: bs => (m.store p b).storeAll (p + 1) bs

theorem eqOn_storeAll (bs : List UInt8) : Set.EqOn (m.storeAll p bs) m (span p bs.length)ᶜ := by
  induction bs generalizing m p with
  | nil => exact Set.eqOn_refl _ _
  | cons b bs ih =>
    intro q hq
    have hrest : q ∉ span (p + 1) bs.length := by
      intro hmem
      apply hq
      apply span_subset (i := 1) (k := bs.length) _ p hmem
      rw [List.length_cons]
      omega
    have hfirst : q ≠ p := by
      rintro rfl
      exact hq ⟨0, by simp, by simp⟩
    rw [storeAll, ih _ _ hrest]
    exact eqOn_store_self m p b hfirst

theorem not_mem_span_succ {n : Nat} (h : n < 2 ^ 24) : p ∉ span (p + 1) n := by
  rintro ⟨i, hi, hp⟩
  have hnext : p + 1 + BitVec.ofNat 24 i = p + BitVec.ofNat 24 (1 + i) := by
    rw [BitVec.add_assoc, BitVec.ofNat_add]
    rfl
  have hplace := congrArg BitVec.toNat (hp.trans hnext)
  have hlt := p.isLt
  rw [BitVec.toNat_add, BitVec.toNat_ofNat] at hplace
  omega

theorem page_storeAll {bs : List UInt8} (h : bs.length ≤ 2 ^ 24) :
    (m.storeAll p bs).page p bs.length = bs := by
  induction bs generalizing m p with
  | nil => rfl
  | cons b bs ih =>
    rw [List.length_cons] at h ⊢
    have hfirst : (m.store p b).storeAll (p + 1) bs p = b := by
      rw [eqOn_storeAll _ _ _ (not_mem_span_succ p (by omega)), store, Function.update_self]
    rw [storeAll, page_succ, hfirst, ih _ _ (by omega)]

theorem storeAll_page (n : Nat) : m.storeAll p (m.page p n) = m := by
  induction n generalizing p with
  | zero => rfl
  | succ n ih => rw [page_succ, storeAll, store, Function.update_eq_self, ih]

end Contents

namespace Memory

open AddressSpace Contents

theorem contents_scatter (m : Memory) (a : Address) (value : UInt32) (n : Nat) :
    (scatter write m a value n).contents =
      m.contents.storeAll a.place (lowBytes value.toNat n) := by
  induction n generalizing m a with
  | zero => rfl
  | succ n ih =>
    rw [scatter, ih, contents_write, Address.place_add, lowBytes, storeAll]
    rfl

theorem contents_writeNumber (m : Memory) (a : Address) (value : UInt32) (n : Nat) :
    (writeNumber m a value n).contents = m.contents.storeAll a.place (lowBytes value.toNat n) :=
  contents_scatter m a value n

theorem toNat_shiftLeft_or {acc : UInt32} (h : acc.toNat < 2 ^ 24) (b : UInt8) :
    (acc <<< 8 ||| b.toUInt32).toNat = acc.toNat * 256 + b.toNat := by
  have hshift : acc.toNat <<< 8 < 2 ^ 32 := by
    rw [Nat.shiftLeft_eq]
    omega
  have hacc : (acc <<< 8).toNat = acc.toNat <<< 8 := by
    rw [UInt32.toNat_shiftLeft]
    exact Nat.mod_eq_of_lt hshift
  rw [UInt32.toNat_or, hacc, UInt8.toNat_toUInt32, ← Nat.shiftLeft_add_eq_or_of_lt b.toNat_lt,
    Nat.shiftLeft_eq]

theorem toNat_gather (m : Memory) {k n : Nat} (a : Address) (acc : UInt32)
    (hacc : acc.toNat < 2 ^ k) (hn : k + 8 * n ≤ 32) :
    (gather m.read n a acc).toNat = acc.toNat * 256 ^ n + numeral (m.contents.page a.place n) := by
  induction n generalizing k a acc with
  | zero => simp [gather, numeral, page]
  | succ n ih =>
    have hroom : acc.toNat < 2 ^ 24 :=
      Nat.lt_of_lt_of_le hacc (Nat.pow_le_pow_right (by decide) (by omega))
    have hnext := toNat_shiftLeft_or hroom (m.read a)
    have hbound : (acc <<< 8 ||| (m.read a).toUInt32).toNat < 2 ^ (k + 8) := by
      have hb := (m.read a).toNat_lt
      rw [hnext, Nat.pow_add]
      omega
    have hrest := ih (a + 1) (acc <<< 8 ||| (m.read a).toUInt32) hbound (by omega)
    rw [gather, hrest, hnext, page_succ, numeral_cons, length_page, ← read_eq_contents, Address.place_add]
    change _ + numeral (m.contents.page (a.place + 1) n) = _
    ring

theorem toNat_readNumber (m : Memory) (a : Address) {n : Nat} (hn : n ≤ maxNumberSize) :
    (readNumber m a n).toNat = numeral (m.contents.page a.place n) := by
  have hbits : 0 + 8 * n ≤ 32 := by
    unfold maxNumberSize at hn
    omega
  rw [readNumber_eq, toNat_gather m (k := 0) a 0 (by decide) hbits]
  simp

theorem read_writeNumber (m : Memory) {a b : Address} (value : UInt32) {n : Nat}
    (h : ∀ i < n, b.toNat % addressSpaceSize ≠ (a.toNat + i) % addressSpaceSize) :
    (writeNumber m a value n).read b = m.read b := by
  rw [read_eq_contents, read_eq_contents, contents_writeNumber]
  apply eqOn_storeAll
  rintro ⟨i, hi, hp⟩
  rw [length_lowBytes] at hi
  apply h i hi
  have hplace := congrArg BitVec.toNat hp
  rw [BitVec.toNat_add, ← Address.index_eq_toNat_place, ← Address.index_eq_toNat_place,
    Address.index_eq, Address.index_eq, BitVec.toNat_ofNat, Nat.add_mod_mod] at hplace
  rw [hplace]
  exact Nat.mod_add_mod _ _ _

theorem readNumber_writeNumber (m : Memory) (a : Address) (value : UInt32) {n : Nat}
    (hn : n ≤ maxNumberSize) :
    (readNumber (writeNumber m a value n) a n).toNat = value.toNat % 256 ^ n := by
  have hlen : (lowBytes value.toNat n).length ≤ 2 ^ 24 := by
    rw [length_lowBytes]
    exact hn.trans (by decide)
  have hpage := page_storeAll m.contents a.place hlen
  rw [length_lowBytes] at hpage
  rw [toNat_readNumber _ _ hn, contents_writeNumber, hpage, numeral_lowBytes]

theorem writeNumber_readNumber (m : Memory) (a : Address) {n : Nat} (hn : n ≤ maxNumberSize) :
    writeNumber m a (readNumber m a n) n = m := by
  have hbytes := lowBytes_numeral (m.contents.page a.place n)
  rw [length_page] at hbytes
  apply contents_injective
  rw [contents_writeNumber, toNat_readNumber m a hn, hbytes, storeAll_page]

theorem readNumber_congr (m : Memory) {a b : Address} (h : a.place = b.place) {n : Nat}
    (hn : n ≤ maxNumberSize) : readNumber m a n = readNumber m b n := by
  apply UInt32.toNat_inj.mp
  rw [toNat_readNumber m a hn, toNat_readNumber m b hn, h]

theorem writeNumber_congr (m : Memory) {a b : Address} (h : a.place = b.place) (value : UInt32)
    (n : Nat) : writeNumber m a value n = writeNumber m b value n := by
  apply contents_injective
  rw [contents_writeNumber, contents_writeNumber, h]

theorem readNumber_add (m : Memory) (a : Address) {i j : Nat} (h : i + j ≤ maxNumberSize) :
    (readNumber m a (i + j)).toNat =
      (readNumber m a i).toNat * 256 ^ j + (readNumber m (a + UInt32.ofNat i) j).toNat := by
  rw [toNat_readNumber m a h, toNat_readNumber m a (by omega), toNat_readNumber m _ (by omega),
    page_add, numeral_append, length_page, Address.place_add, Address.place_ofNat]

theorem place_eq_of_mod {a b : Address}
    (h : a.toNat % addressSpaceSize = b.toNat % addressSpaceSize) : a.place = b.place := by
  apply BitVec.eq_of_toNat_eq
  rwa [← Address.index_eq_toNat_place, ← Address.index_eq_toNat_place, Address.index_eq,
    Address.index_eq]

/-- A number of at most four bytes that was written is read back modulo its width, and no byte of
memory but its own has changed. A number that was read can be written back without a change. All
this depends on the address modulo the size of memory alone, and a number is that of its first bytes
followed by that of the others. -/
theorem number_roundtrip (m : Memory) (a : Address) (value : UInt32) {n : Nat} (hn : n ≤ 4) :
    (∃ written back, writeNumber? m a value n = (.ok (), written) ∧
      readNumber? written a n = .ok back ∧ back.toNat = value.toNat % 256 ^ n ∧
      ∀ b : Address,
        (∀ i < n, b.toNat % addressSpaceSize ≠ (a.toNat + i) % addressSpaceSize) →
          written.read b = m.read b) ∧
    (∃ there, readNumber? m a n = .ok there ∧ writeNumber? m a there n = (.ok (), m)) ∧
    (∀ b : Address, a.toNat % addressSpaceSize = b.toNat % addressSpaceSize →
      readNumber? m a n = readNumber? m b n ∧ writeNumber? m a value n = writeNumber? m b value n) ∧
    ∀ i j, i + j = n → ∃ whole high low, readNumber? m a n = .ok whole ∧
      readNumber? m a i = .ok high ∧ readNumber? m (a + UInt32.ofNat i) j = .ok low ∧
      whole.toNat = high.toNat * 256 ^ j + low.toNat := by
  have hread (m : Memory) (a : Address) {k : Nat} (hk : k ≤ 4) :
      readNumber? m a k = .ok (readNumber m a k) := if_pos hk
  have hwrite (a : Address) (value : UInt32) :
      writeNumber? m a value n = (.ok (), writeNumber m a value n) := if_pos hn
  refine ⟨⟨_, _, hwrite a value, hread _ a hn, readNumber_writeNumber m a value hn, ?_⟩,
    ⟨_, hread m a hn, ?_⟩, ?_, ?_⟩
  · intro b hb
    exact read_writeNumber m value hb
  · rw [hwrite, writeNumber_readNumber m a hn]
  · intro b hb
    have hplace := place_eq_of_mod hb
    rw [hread m a hn, hread m b hn, hwrite, hwrite, readNumber_congr m hplace hn,
      writeNumber_congr m hplace]
    exact ⟨rfl, rfl⟩
  · rintro i j rfl
    exact ⟨_, _, _, hread m a hn, hread m a (by omega), hread m _ (by omega),
      readNumber_add m a hn⟩

theorem number_roundtrip_across_top :
    4 ≤ 4 ∧ ∃ written back, writeNumber? blank 0xFFFFFFFE 0x12345678 4 = (.ok (), written) ∧
      readNumber? written 0xFFFFFFFE 4 = .ok back ∧ back.toNat = 0x12345678 ∧
      written.read 2 = 0 ∧ written.read 0xFFFFFD = 0 := by
  obtain ⟨⟨written, back, hwrite, hread, hback, houtside⟩, -⟩ :=
    number_roundtrip blank 0xFFFFFFFE 0x12345678 (n := 4) (by decide)
  refine ⟨by decide, written, back, hwrite, hread, hback, ?_, ?_⟩
  · rw [houtside 2 (by decide), read_blank]
  · rw [houtside 0xFFFFFD (by decide), read_blank]

end Memory

end CopyJump
