import CopyJump.Machine
import Mathlib.Algebra.Group.Nat.Defs

namespace CopyJump.Machine

variable {M : Type} [AddressSpace M] {m : M} {pc : Address} {n : Nat}

open AddressSpace

theorem step?_of_fits (h : pc.fits 6 = true) :
    step? m pc = (.ok (step m pc).2, (step m pc).1) := by
  rw [step?, if_pos h]

theorem step?_of_not_fits (h : ¬pc.fits 6 = true) :
    (step? m pc).1 = .error .addressOverflow := by
  rw [step?, if_neg h]
  split <;> rfl

def steps : Nat → M → Address → M × Address
  | 0, m, pc => (m, pc)
  | n + 1, m, pc => steps n (step m pc).1 (step m pc).2

/-- The additions of the next `n` instructions fit. -/
def Smooth (n : Nat) (m : M) (pc : Address) : Prop := ∀ k < n, (steps k m pc).2.fits 6 = true

theorem smooth_succ_iff :
    Smooth (n + 1) m pc ↔ pc.fits 6 = true ∧ Smooth n (step m pc).1 (step m pc).2 := by
  constructor
  · intro h
    exact ⟨h 0 (Nat.zero_lt_succ n), fun k hk ↦ h (k + 1) (Nat.succ_lt_succ hk)⟩
  · rintro ⟨hfirst, hrest⟩ k hk
    cases k with
    | zero => exact hfirst
    | succ k => exact hrest k (Nat.lt_of_succ_lt_succ hk)

theorem steps?_of_smooth (h : Smooth n m pc) : steps? n m pc = (.ok (), (steps n m pc).1) := by
  induction n generalizing m pc with
  | zero => rfl
  | succ n ih =>
    obtain ⟨hfirst, hrest⟩ := smooth_succ_iff.mp h
    rw [steps?, step?_of_fits hfirst]
    exact ih hrest

theorem snd_steps?_of_smooth (h : Smooth n m pc) : (steps? n m pc).2 = (steps n m pc).1 := by
  rw [steps?_of_smooth h]

theorem steps?_of_not_smooth (h : ¬Smooth n m pc) :
    (steps? n m pc).1 = .error .addressOverflow := by
  induction n generalizing m pc with
  | zero => exact absurd (fun k hk ↦ absurd hk (Nat.not_lt_zero k)) h
  | succ n ih =>
    rw [smooth_succ_iff, not_and] at h
    rw [steps?]
    by_cases hfirst : pc.fits 6 = true
    · rw [step?_of_fits hfirst]
      exact ih (h hfirst)
    · have herror := step?_of_not_fits (m := m) hfirst
      generalize step? m pc = stepped at herror ⊢
      obtain ⟨result, m'⟩ := stepped
      obtain rfl : result = .error .addressOverflow := herror
      rfl

def latched (m : M) (keys : UInt16) : M := writeNumber m keysAt keys.toUInt32 2

def SmoothFrame (m : M) (keys : UInt16) : Prop :=
  Smooth instructionsPerFrame (latched m keys) (start (latched m keys))

-- Between functions, so that the instructions of a frame are never run by an unfolding.
theorem advance?_eq_fun : advance? = fun (m : M) (keys : UInt16) ↦
    steps? instructionsPerFrame (latched m keys) (start (latched m keys)) :=
  rfl

theorem advance?_eq (m : M) (keys : UInt16) :
    advance? m keys = steps? instructionsPerFrame (latched m keys) (start (latched m keys)) :=
  congrFun (congrFun advance?_eq_fun m) keys

theorem advance?_of_smooth {keys : UInt16} (h : SmoothFrame m keys) :
    advance? m keys = (.ok (), advance m keys) := by
  have hok : (advance? m keys).1 = .ok () := by
    rw [advance?_eq, steps?_of_smooth h]
  rw [← hok, advance]

theorem advance_of_smooth {keys : UInt16} (h : SmoothFrame m keys) :
    advance m keys =
      (steps instructionsPerFrame (latched m keys) (start (latched m keys))).1 := by
  rw [advance, advance?_eq, snd_steps?_of_smooth h]

theorem advance?_of_not_smooth {keys : UInt16} (h : ¬SmoothFrame m keys) :
    advance? m keys = (.error .addressOverflow, advance m keys) := by
  have herror : (advance? m keys).1 = .error .addressOverflow := by
    rw [advance?_eq, steps?_of_not_smooth h]
  rw [← herror, advance]

theorem frame_of_smooth {keys : UInt16} (h : SmoothFrame m keys) (n : Nat) :
    frame ⟨m, n⟩ keys = (pages (advance m keys), ⟨advance m keys, n + 1⟩) := by
  rw [frame, advance?_of_smooth h]

theorem frame_of_not_smooth {keys : UInt16} (h : ¬SmoothFrame m keys) (n : Nat) :
    frame ⟨m, n⟩ keys = (.error .addressOverflow, ⟨advance m keys, n⟩) := by
  rw [frame, advance?_of_not_smooth h]

theorem memory_frame (vm : Machine M) (keys : UInt16) :
    (vm.frame keys).2.memory = advance vm.memory keys := by
  obtain ⟨m, n⟩ := vm
  by_cases h : SmoothFrame m keys
  · rw [frame_of_smooth h]
  · rw [frame_of_not_smooth h]

theorem steps_snd_of_numbers {P : Address → Prop}
    (hnumber : ∀ (m : M) (a : Address), P (readNumber m a 3)) (n : Nat) (m : M) (h : P pc) :
    P (steps n m pc).2 := by
  induction n generalizing m pc with
  | zero => exact h
  | succ n ih => exact ih _ (hnumber _ _)

theorem smoothFrame_of_fits (hfits : ∀ (m : M) (a : Address), Address.fits (readNumber m a 3) 6 = true)
    (m : M) (keys : UInt16) : SmoothFrame m keys :=
  fun k _ ↦ steps_snd_of_numbers (P := fun pc ↦ pc.fits 6 = true) hfits k _ (hfits _ _)

/-- Numbers of three bytes are places of memory, as they are wherever they are read byte by byte. -/
def NumbersFit (M : Type) [AddressSpace M] : Prop :=
  ∀ (m : M) (a : Address), (readNumber m a 3).toNat < addressSpaceSize

theorem toNat_shiftLeft_or_lt {acc : UInt32} {k : Nat} (hacc : acc.toNat < 2 ^ k) (b : UInt8) :
    (acc <<< 8 ||| b.toUInt32).toNat < 2 ^ (k + 8) := by
  rw [UInt32.toNat_or]
  apply Nat.or_lt_two_pow
  · have h : acc.toNat * 2 ^ 8 < 2 ^ (k + 8) := by
      rw [Nat.pow_add]
      exact Nat.mul_lt_mul_of_pos_right hacc (by decide)
    simp only [UInt32.toNat_shiftLeft, Nat.shiftLeft_eq]
    exact Nat.lt_of_le_of_lt (Nat.mod_le _ _) h
  · rw [UInt8.toNat_toUInt32]
    exact Nat.lt_of_lt_of_le b.toNat_lt (Nat.pow_le_pow_right (by decide) (Nat.le_add_left 8 k))

theorem toNat_gather_lt (read : Address → UInt8) {k n : Nat} (a : Address) {acc : UInt32}
    (hacc : acc.toNat < 2 ^ k) : (gather read n a acc).toNat < 2 ^ (k + 8 * n) := by
  induction n generalizing k a acc with
  | zero => exact hacc
  | succ n ih =>
    have h := ih (a + 1) (toNat_shiftLeft_or_lt hacc (read a))
    rw [gather, show k + 8 * (n + 1) = k + 8 + 8 * n by omega]
    exact h

theorem NumbersFit.of_gather (h : ∀ (m : M) (a : Address),
    readNumber m a 3 = gather (readByte m) 3 a 0) : NumbersFit M := by
  intro m a
  rw [h]
  exact toNat_gather_lt (k := 0) (readByte m) a (by decide)

theorem NumbersFit.smoothFrame (hfit : NumbersFit M) (m : M) (keys : UInt16) :
    SmoothFrame m keys := by
  apply smoothFrame_of_fits
  intro m a
  rw [Address.fits, decide_eq_true_iff]
  exact Nat.lt_of_lt_of_le (Nat.add_lt_add_right (hfit m a) 6) (by decide)

end CopyJump.Machine
