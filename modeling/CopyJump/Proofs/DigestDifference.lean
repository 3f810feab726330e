import CopyJump.Digest
import Mathlib.Logic.Function.Basic

namespace CopyJump

namespace Digest

def inversePrime : UInt64 := 0xce965057aff6957b

theorem prime_mul_inversePrime : prime * inversePrime = 1 := rfl

theorem mul_prime_injective : Function.Injective (· * prime) := by
  apply Function.LeftInverse.injective (g := (· * inversePrime))
  intro hash
  show hash * prime * inversePrime = hash
  rw [UInt64.mul_assoc, prime_mul_inversePrime, UInt64.mul_one]

theorem step_left_injective (b : UInt8) : Function.Injective (step · b) := by
  intro hash hash' h
  exact (UInt64.xor_left_inj _).mp (mul_prime_injective h)

theorem step_right_injective (hash : UInt64) : Function.Injective (step hash) := by
  intro b c h
  have hbytes : b.toUInt64 = c.toUInt64 := (UInt64.xor_right_inj _).mp (mul_prime_injective h)
  exact UInt8.toUInt64_inj.mp hbytes

theorem foldl_step_injective (bytes : List UInt8) : Function.Injective (bytes.foldl step) := by
  induction bytes with
  | nil => exact Function.injective_id
  | cons b bytes ih => exact ih.comp (step_left_injective b)

theorem resume_injective (suffix : ByteArray) : Function.Injective (resume suffix 0) := by
  have hfold : resume suffix 0 = suffix.data.toList.foldl step :=
    funext fun hash ↦ resume_eq_foldl suffix 0 hash
  rw [hfold]
  exact foldl_step_injective _

end Digest

open Digest

theorem digest_append (bytes suffix : ByteArray) :
    digest (bytes ++ suffix) = resume suffix 0 (digest bytes) := by
  rw [digest_eq_foldl, ByteArray.toList_data_append, List.foldl_append, ← digest_eq_foldl,
    resume_eq_foldl, List.drop_zero]

theorem getElem?_eq_toList (x : ByteArray) (i : Nat) : x[i]? = x.data.toList[i]? := by
  rw [Array.getElem?_toList]
  by_cases hi : i < x.size
  · exact (getElem?_pos x i hi).trans (getElem?_pos x.data i hi).symm
  · exact (getElem?_neg x i hi).trans (getElem?_neg x.data i hi).symm

variable {x y : ByteArray}

theorem exists_bytes_of_differ_once (hsize : x.size = y.size) (h : ∃! i : Nat, x[i]? ≠ y[i]?) :
    ∃ before b c after, x.data.toList = before ++ b :: after ∧
      y.data.toList = before ++ c :: after ∧ b ≠ c := by
  obtain ⟨i, hne, honly⟩ := h
  have helse : ∀ j, j ≠ i → x[j]? = y[j]? := by
    intro j hj
    by_contra hdiffer
    exact hj (honly j hdiffer)
  simp only [getElem?_eq_toList] at hne helse
  have hlength : x.data.toList.length = y.data.toList.length := hsize
  have hx : i < x.data.toList.length := by
    by_contra hi
    exact hne (by rw [getElem?_neg _ i hi, getElem?_neg _ i (hlength ▸ hi)])
  have hy : i < y.data.toList.length := hlength ▸ hx
  have htake : x.data.toList.take i = y.data.toList.take i := by
    apply List.ext_getElem?
    intro j
    rw [List.getElem?_take, List.getElem?_take]
    split
    · next hj => exact helse j (Nat.ne_of_lt hj)
    · rfl
  have hdrop : x.data.toList.drop (i + 1) = y.data.toList.drop (i + 1) := by
    apply List.ext_getElem?
    intro j
    rw [List.getElem?_drop, List.getElem?_drop]
    exact helse _ (by omega)
  refine ⟨x.data.toList.take i, x.data.toList[i], y.data.toList[i], x.data.toList.drop (i + 1),
    ?_, ?_, ?_⟩
  · rw [List.getElem_cons_drop, List.take_append_drop]
  · rw [htake, hdrop, List.getElem_cons_drop, List.take_append_drop]
  · intro heq
    exact hne (by rw [List.getElem?_eq_getElem hx, List.getElem?_eq_getElem hy, heq])

theorem digest_ne_of_differ_once (hsize : x.size = y.size) (h : ∃! i : Nat, x[i]? ≠ y[i]?) :
    digest x ≠ digest y := by
  obtain ⟨before, b, c, after, hx, hy, hne⟩ := exists_bytes_of_differ_once hsize h
  rw [digest_eq_foldl, digest_eq_foldl, hx, hy, List.foldl_append, List.foldl_append]
  intro heq
  exact hne (step_right_injective _ (foldl_step_injective after heq))

/-- Byte strings of one size that differ at one place have different digests. What a suffix makes of
a digest can be undone, so a suffix that two byte strings share hides no difference of digests and
makes none. -/
theorem digest_tells_apart :
    (∀ x y : ByteArray, x.size = y.size → (∃! i : Nat, x[i]? ≠ y[i]?) → digest x ≠ digest y) ∧
      ∀ suffix : ByteArray, Function.Injective (resume suffix 0) ∧
        (∀ x, digest (x ++ suffix) = resume suffix 0 (digest x)) ∧
        ∀ x y, digest (x ++ suffix) = digest (y ++ suffix) ↔ digest x = digest y := by
  refine ⟨fun x y ↦ digest_ne_of_differ_once, fun suffix ↦ ⟨resume_injective suffix, ?_, ?_⟩⟩
  · intro x
    exact digest_append x suffix
  · intro x y
    rw [digest_append, digest_append]
    exact (resume_injective suffix).eq_iff

end CopyJump
