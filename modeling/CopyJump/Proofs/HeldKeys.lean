import CopyJump.Key.Latch

namespace CopyJump.KeyLatch

theorem slot_lt (bit : Nat) : bit % 16 < 16 := Nat.mod_lt bit (by decide)

def slot (l : KeyLatch) (bit : Nat) : UInt8 := getElem l.remaining (bit % 16) (slot_lt bit)

def pollsLeft (l : KeyLatch) (bit : Nat) : Nat := (l.slot bit).toNat

theorem toNat_age (remaining : UInt8) : (age remaining).toNat = remaining.toNat - 1 := by
  rw [age]
  split
  case isTrue h =>
    -- A count that a poll takes from is not zero, so that the word does not go round.
    have hone : (1 : UInt8) ≤ remaining := UInt8.le_iff_toNat_le.mpr (UInt8.lt_iff_toNat_lt.mp h)
    exact UInt8.toNat_sub_of_le _ _ hone
  case isFalse h =>
    have hzero : ¬0 < remaining.toNat := fun hpos ↦ h (UInt8.lt_iff_toNat_lt.mpr hpos)
    omega

@[simp] theorem pollsLeft_press (l : KeyLatch) (pressed bit : Nat) :
    (l.press pressed).pollsLeft bit =
      if pressed % 16 = bit % 16 then hold else l.pollsLeft bit := by
  simp only [pollsLeft, slot, press, Vector.getElem_set]
  split <;> rfl

@[simp] theorem pollsLeft_poll (l : KeyLatch) (bit : Nat) :
    l.poll.2.pollsLeft bit = l.pollsLeft bit - 1 := by
  simp only [pollsLeft, slot, poll, Vector.getElem_map, toNat_age]

theorem pollsLeft_press_pos (l : KeyLatch) (pressed : Nat) {bit : Nat} (h : 0 < l.pollsLeft bit) :
    0 < (l.press pressed).pollsLeft bit := by
  rw [pollsLeft_press]
  split
  · decide
  · exact h

theorem pollsLeft_foldl_press_pos {l : KeyLatch} {bit : Nat} (pressed : List Nat)
    (h : bit ∈ pressed ∨ 0 < l.pollsLeft bit) : 0 < (pressed.foldl press l).pollsLeft bit := by
  -- A key is held from its first press on, as no press releases a key.
  induction pressed generalizing l with
  | nil => simpa using h
  | cons first pressed ih =>
    rw [List.foldl_cons]
    apply ih
    rw [List.mem_cons] at h
    rcases h with (rfl | h) | h
    · right
      rw [pollsLeft_press, if_pos rfl]
      decide
    · exact Or.inl h
    · exact Or.inr (l.pollsLeft_press_pos first h)

theorem testBit_one_shiftLeft {i : Nat} (hi : i < 16) (bit : Nat) :
    ((1 : UInt16) <<< UInt16.ofNat i).toNat.testBit bit = decide (i = bit) := by
  have hsize : i < UInt16.size := Nat.lt_trans hi (by decide)
  have hpow : 1 * 2 ^ i < 2 ^ 16 := by
    rw [Nat.one_mul]
    exact Nat.pow_lt_pow_right (by decide) hi
  have hshift : ((1 : UInt16) <<< UInt16.ofNat i).toNat = 1 * 2 ^ i := by
    rw [UInt16.toNat_shiftLeft, UInt16.toNat_ofNat_of_lt' hsize, Nat.mod_eq_of_lt hi,
      Nat.shiftLeft_eq]
    exact Nat.mod_eq_of_lt hpow
  rw [hshift, Nat.one_mul, Nat.testBit_two_pow]

theorem testBit_foldl_mask (bit : Nat) {counts : List (UInt8 × Nat)} (h : ∀ c ∈ counts, c.2 < 16)
    (mask : UInt16) :
    (counts.foldl (fun mask (_, bit) ↦ mask ||| (1 <<< UInt16.ofNat bit)) mask).toNat.testBit bit =
      (mask.toNat.testBit bit || counts.any fun c ↦ c.2 = bit) := by
  induction counts generalizing mask with
  | nil => simp
  | cons c counts ih =>
    rw [List.forall_mem_cons] at h
    rw [List.foldl_cons, ih h.2, UInt16.toNat_or, Nat.testBit_or, testBit_one_shiftLeft h.1,
      List.any_cons, Bool.or_assoc]

theorem testBit_mask (l : KeyLatch) {bit : Nat} (hbit : bit < 16) :
    l.mask.toNat.testBit bit = decide (0 < l.pollsLeft bit) := by
  have hcounts : ∀ c ∈ l.remaining.toList.zipIdx.filter (0 < ·.1), c.2 < 16 := by
    intro c hc
    have hindex := List.mem_zipIdx_iff_getElem?.mp (List.mem_filter.mp hc).1
    obtain ⟨hlt, -⟩ := List.getElem?_eq_some_iff.mp hindex
    simpa using hlt
  have hleft : l.remaining.toList[bit]? = some (l.slot bit) := by
    simp [slot, Nat.mod_eq_of_lt hbit, hbit]
  have hzero : (0 : UInt16).toNat.testBit bit = false := Nat.zero_testBit bit
  rw [mask, testBit_foldl_mask bit hcounts, hzero, Bool.false_or, Bool.eq_iff_iff,
    List.any_eq_true, decide_eq_true_iff]
  constructor
  · rintro ⟨⟨n, i⟩, hc, hi⟩
    obtain ⟨hmem, hpos⟩ := List.mem_filter.mp hc
    have hn := List.mem_zipIdx_iff_getElem?.mp hmem
    obtain rfl : i = bit := of_decide_eq_true hi
    rw [hleft, Option.some.injEq] at hn
    rw [pollsLeft, hn]
    exact UInt8.lt_iff_toNat_lt.mp (of_decide_eq_true hpos)
  · intro hpos
    refine ⟨(l.slot bit, bit), ?_, decide_eq_true rfl⟩
    rw [List.mem_filter]
    exact ⟨List.mem_zipIdx_iff_getElem?.mpr hleft,
      decide_eq_true (UInt8.lt_iff_toNat_lt.mpr hpos)⟩

end CopyJump.KeyLatch
