import CopyJump.Pitch
import Mathlib.Algebra.Group.Nat.Defs
import Mathlib.Algebra.Order.Group.Int
import Mathlib.Data.List.Basic

namespace CopyJump

namespace Pitch

section Changes

variable {α β : Type} [DecidableEq α] [DecidableEq β]

def changes (l : List α) : Nat := (l.zip l.tail).countP fun p ↦ p.1 ≠ p.2

@[simp] theorem changes_nil : changes ([] : List α) = 0 := rfl

@[simp] theorem changes_singleton (a : α) : changes [a] = 0 := rfl

theorem changes_cons_cons (a b : α) (l : List α) :
    changes (a :: b :: l) = (if a = b then 0 else 1) + changes (b :: l) := by
  by_cases hab : a = b
  · simp [changes, hab]
  · simp [changes, hab, Nat.add_comm]

theorem changes_append_cons (l : List α) (a : α) (m : List α) :
    changes (l ++ a :: m) = changes (l ++ [a]) + changes (a :: m) := by
  induction l with
  | nil => rw [List.nil_append, List.nil_append, changes_singleton, Nat.zero_add]
  | cons b l ih =>
    cases l with
    | nil =>
      simp only [List.cons_append, List.nil_append, changes_cons_cons, changes_singleton,
        Nat.add_zero]
    | cons c l =>
      simp only [List.cons_append, changes_cons_cons] at ih ⊢
      rw [ih, Nat.add_assoc]

theorem changes_reverse (l : List α) : changes l.reverse = changes l := by
  induction l with
  | nil => rfl
  | cons a l ih =>
    cases l with
    | nil => rfl
    | cons b l =>
      calc changes (a :: b :: l).reverse
          = changes (l.reverse ++ b :: [a]) := by
            rw [List.reverse_cons, List.reverse_cons, List.append_assoc, List.singleton_append]
        _ = changes (b :: l).reverse + changes [b, a] := by
            rw [changes_append_cons, List.reverse_cons]
        _ = changes (a :: b :: l) := by
            rw [ih, changes_cons_cons, changes_cons_cons, changes_singleton, Nat.add_zero,
              Nat.add_comm, if_congr eq_comm rfl rfl]

theorem changes_map {f : α → β} (hf : Function.Injective f) (l : List α) :
    changes (l.map f) = changes l := by
  rw [changes, changes, ← List.map_tail, List.zip_map, List.countP_map]
  congr 1
  funext p
  simp [hf.eq_iff]

theorem changes_cons_eq_zero_iff (a : α) (l : List α) :
    changes (a :: l) = 0 ↔ ∀ b ∈ l, b = a := by
  induction l generalizing a with
  | nil => simp
  | cons b l ih =>
    rw [changes_cons_cons, Nat.add_eq_zero_iff, ih, List.forall_mem_cons]
    constructor
    · rintro ⟨hab, hl⟩
      obtain rfl : a = b := by simpa using hab
      exact ⟨rfl, hl⟩
    · rintro ⟨rfl, hl⟩
      exact ⟨if_pos rfl, hl⟩

theorem changes_eq_zero_iff (l : List α) : changes l = 0 ↔ ∀ a ∈ l, ∀ b ∈ l, a = b := by
  cases l with
  | nil => simp
  | cons c l =>
    rw [changes_cons_eq_zero_iff]
    constructor
    · intro h
      have hall : ∀ a ∈ c :: l, a = c := List.forall_mem_cons.mpr ⟨rfl, h⟩
      exact fun a ha b hb ↦ (hall a ha).trans (hall b hb).symm
    · exact fun h b hb ↦ h b (List.mem_cons_of_mem c hb) c List.mem_cons_self

theorem changes_le (l : List α) : changes l ≤ l.length - 1 := by
  have hzip : changes l ≤ (l.zip l.tail).length := List.countP_le_length
  rw [List.length_zip, List.length_tail] at hzip
  exact hzip.trans (Nat.min_le_right ..)

end Changes

/-- The changes of sign between neighbours among the samples that are not zero. -/
def signChanges (samples : List Int) : Nat := changes ((samples.filter (· ≠ 0)).map Int.sign)

theorem signs_eq (samples : List Int) :
    (samples.filter (· ≠ 0)).map Int.sign = (samples.map Int.sign).filter (· ≠ 0) := by
  rw [List.filter_map]
  congr 2
  funext s
  simp [Int.sign_eq_zero_iff_zero]

theorem crossings_eq (last : Int) (samples : List Int) :
    crossings last samples = changes ((last :: samples.map Int.sign).filter (· ≠ 0)) := by
  induction samples generalizing last with
  | nil => by_cases hlast : last = 0 <;> simp [crossings, hlast]
  | cons s samples ih =>
    rw [crossings, ih, ih, List.map_cons]
    -- A zero leaves no trace; any other sample is the first with a sign, or it keeps or turns it.
    by_cases hs : s.sign = 0
    · simp [hs, List.filter_cons]
    · by_cases hlast : last = 0
      · simp [hs, hlast]
      · by_cases heq : s.sign = last
        · simp [hlast, heq, changes_cons_cons]
        · simp [hs, hlast, heq, Ne.symm heq, changes_cons_cons, Nat.add_comm]

theorem crossings_zero (samples : List Int) : crossings 0 samples = signChanges samples := by
  rw [crossings_eq, signChanges, signs_eq]
  rfl

theorem signChanges_congr {samples samples' : List Int}
    (h : samples.map Int.sign = samples'.map Int.sign) :
    signChanges samples = signChanges samples' := by
  rw [signChanges, signChanges, signs_eq, signs_eq, h]

theorem signChanges_reverse (samples : List Int) :
    signChanges samples.reverse = signChanges samples := by
  rw [signChanges, List.filter_reverse, List.map_reverse, changes_reverse, signChanges]

theorem signChanges_neg (samples : List Int) :
    signChanges (samples.map (- ·)) = signChanges samples := by
  have hsigns : ((samples.map (- ·)).filter (· ≠ 0)).map Int.sign =
      ((samples.filter (· ≠ 0)).map Int.sign).map (- ·) := by
    rw [List.filter_map, List.map_map, List.map_map]
    congr 1
    · funext s
      exact Int.sign_neg s
    · congr 1
      funext s
      simp
  rw [signChanges, hsigns, changes_map neg_injective, signChanges]

theorem signChanges_lt_length {samples : List Int} (h : samples ≠ []) :
    signChanges samples < samples.length := by
  have hsome : 0 < samples.length := List.length_pos_iff.mpr h
  have hfilter := List.length_filter_le (· ≠ 0) samples
  have hchanges := changes_le ((samples.filter (· ≠ 0)).map Int.sign)
  rw [List.length_map] at hchanges
  rw [signChanges]
  omega

theorem signChanges_eq_zero_iff (samples : List Int) :
    signChanges samples = 0 ↔ ¬((∃ s ∈ samples, 0 < s) ∧ ∃ s ∈ samples, s < 0) := by
  have hsigns : signChanges samples = 0 ↔
      ∀ s ∈ samples, s ≠ 0 → ∀ t ∈ samples, t ≠ 0 → s.sign = t.sign := by
    simp only [signChanges, changes_eq_zero_iff, List.forall_mem_map, List.mem_filter,
      decide_eq_true_eq, and_imp]
  rw [hsigns]
  constructor
  · rintro h ⟨⟨s, hs, hpos⟩, t, ht, hneg⟩
    have hsign := h s hs hpos.ne' t ht hneg.ne
    rw [Int.sign_eq_one_of_pos hpos, Int.sign_eq_neg_one_of_neg hneg] at hsign
    contradiction
  · intro h s hs hs0 t ht ht0
    rcases Int.lt_or_gt_of_ne hs0 with hs' | hs' <;> rcases Int.lt_or_gt_of_ne ht0 with ht' | ht'
    · rw [Int.sign_eq_neg_one_of_neg hs', Int.sign_eq_neg_one_of_neg ht']
    · exact absurd ⟨⟨t, ht, ht'⟩, s, hs, hs'⟩ h
    · exact absurd ⟨⟨s, hs, hs'⟩, t, ht, ht'⟩ h
    · rw [Int.sign_eq_one_of_pos hs', Int.sign_eq_one_of_pos ht']

theorem foldl_max_lt_iff (samples : List Int) (m n : Nat) :
    samples.foldl (fun m s ↦ max m s.natAbs) m < n ↔ m < n ∧ ∀ s ∈ samples, s.natAbs < n := by
  induction samples generalizing m with
  | nil => simp
  | cons s samples ih => rw [List.foldl_cons, ih, max_lt_iff, List.forall_mem_cons, and_assoc]

theorem peak_lt_threshold_iff (samples : List Int) :
    peak samples < threshold ↔ ∀ s ∈ samples, s.natAbs < threshold := by
  rw [peak, foldl_max_lt_iff]
  exact and_iff_right (by decide)

/-- A number that has room in a word of so many bits. -/
def fits (bits n : Nat) : Option Nat := if n < 2 ^ bits then some n else none

theorem fits_of_lt {bits n : Nat} (h : n < 2 ^ bits) : fits bits n = some n := if_pos h

/-- The peak from samples of sixteen bits with a sign, where a magnitude has the other fifteen. -/
def peakInWords (samples : List Int) : Option Nat :=
  samples.foldlM (fun m s ↦ (fits 15 s.natAbs).map (max m)) 0

def crossingsInWords (last : Int) (count : Nat) : List Int → Option Nat
  | [] => some count
  | s :: samples =>
    if s.sign = 0 then crossingsInWords last count samples
    else if last ≠ 0 ∧ s.sign ≠ last then
      (fits 32 (count + 1)).bind fun count ↦ crossingsInWords s.sign count samples
    else crossingsInWords s.sign count samples

theorem peakInWords_eq {samples : List Int} (h : ∀ s ∈ samples, s.natAbs < 2 ^ 15) :
    peakInWords samples = some (peak samples) := by
  rw [peakInWords, peak]
  generalize 0 = m
  induction samples generalizing m with
  | nil => rfl
  | cons s samples ih =>
    rw [List.forall_mem_cons] at h
    rw [List.foldlM_cons, fits_of_lt h.1, List.foldl_cons, ← ih h.2]
    rfl

theorem crossingsInWords_eq {last : Int} {count : Nat} {samples : List Int}
    (h : count + samples.length < 2 ^ 32) :
    crossingsInWords last count samples = some (count + crossings last samples) := by
  induction samples generalizing last count with
  | nil => rfl
  | cons s samples ih =>
    rw [List.length_cons] at h
    rw [crossingsInWords, crossings]
    split
    · exact ih (by omega)
    · split
      · rw [fits_of_lt (by omega), Option.bind_some, ih (by omega), Nat.add_right_comm]
        rfl
      · exact ih (by omega)

end Pitch

namespace AudioFrame

open Pitch

def backwards (f : AudioFrame) : AudioFrame :=
  ⟨⟨f.bytes.data.reverse⟩, by rw [← f.size_eq]; exact Array.size_reverse⟩

def negated (f : AudioFrame) : AudioFrame :=
  ⟨⟨f.bytes.data.map (- ·)⟩, by rw [← f.size_eq]; exact Array.size_map⟩

/-- The pitch in words of the machine, and not yet brought into the range of the speaker. There is
no answer where a value has no room in its word. -/
def pitchInWords? (f : AudioFrame) : Option (Option Nat) := do
  if (← peakInWords f.samples) < threshold then return none
  let n ← crossingsInWords 0 0 f.samples
  if n = 0 then return none
  let hz := (← fits 32 (n * sampleRate)) / (← fits 32 (2 * audioSize))
  return some (← fits 16 hz)

variable (f : AudioFrame)

theorem length_samples : f.samples.length = audioSize := by
  rw [samples, List.length_map, ← f.size_eq]
  rfl

theorem natAbs_samples {s : Int} (h : s ∈ f.samples) : s.natAbs ≤ 128 := by
  obtain ⟨b, -, rfl⟩ := List.mem_map.mp h
  have hle := b.toInt8.le_toInt
  have hlt := b.toInt8.toInt_lt
  omega

theorem samples_backwards : f.backwards.samples = f.samples.reverse := by
  simp [samples, backwards]

theorem toInt_toInt8_neg {b : UInt8} (h : b.toInt8.toInt ≠ -128) :
    (-b).toInt8.toInt = -b.toInt8.toInt := by
  have hle := b.toInt8.le_toInt
  have hlt := b.toInt8.toInt_lt
  rw [UInt8.toInt8_neg, Int8.toInt_neg]
  exact Int.bmod_eq_of_le (by omega) (by omega)

theorem samples_negated (h : -128 ∉ f.samples) : f.negated.samples = f.samples.map (- ·) := by
  simp only [samples, negated, Array.toList_map, List.map_map]
  refine List.map_congr_left fun b hb ↦ toInt_toInt8_neg fun hleast ↦ ?_
  exact h (List.mem_map.mpr ⟨b, hb, hleast⟩)

theorem signChanges_samples_lt : signChanges f.samples < audioSize := by
  rw [← f.length_samples]
  exact signChanges_lt_length fun h ↦ by simpa [h, audioSize] using f.length_samples

/-- Thirty hertz a change, as the frame lasts a sixtieth of a second and a cycle has two of them. -/
theorem hertz_of_changes (n : Nat) : n * sampleRate / (2 * audioSize) = 30 * n := by
  rw [sampleRate, audioSize]
  omega

theorem hertz_in_range {n : Nat} (h₀ : n ≠ 0) (h : n < audioSize) :
    lowest ≤ 30 * n ∧ 30 * n ≤ highest := by
  simp only [lowest, highest, sampleRate, audioSize] at h ⊢
  omega

theorem pitch?_eq :
    f.pitch? = if peak f.samples < threshold ∨ signChanges f.samples = 0 then none
      else some (30 * signChanges f.samples) := by
  by_cases hpeak : peak f.samples < threshold
  · rw [pitch?, if_pos hpeak, if_pos (.inl hpeak)]
  · have hlt := f.signChanges_samples_lt
    rw [pitch?, if_neg hpeak, crossings_zero]
    cases hn : signChanges f.samples with
    | zero => exact (if_pos (.inr rfl)).symm
    | succ n =>
      rw [hn] at hlt
      obtain ⟨hlowest, hhighest⟩ := hertz_in_range n.succ_ne_zero hlt
      rw [if_neg (not_or.mpr ⟨hpeak, n.succ_ne_zero⟩)]
      exact congrArg some (by rw [hertz_of_changes, min_eq_right hhighest, max_eq_right hlowest])

theorem pitchInWords?_eq : f.pitchInWords? = some f.pitch? := by
  have hpeak : peakInWords f.samples = some (peak f.samples) :=
    peakInWords_eq fun s hs ↦ (f.natAbs_samples hs).trans_lt (by decide)
  have hcount : crossingsInWords 0 0 f.samples = some (signChanges f.samples) := by
    rw [crossingsInWords_eq (by rw [length_samples]; decide), crossings_zero, Nat.zero_add]
  have hlt := f.signChanges_samples_lt
  have hproduct : signChanges f.samples * sampleRate < 2 ^ 32 := by
    rw [audioSize] at hlt
    rw [sampleRate]
    omega
  have hhertz : 30 * signChanges f.samples < 2 ^ 16 := by
    rw [audioSize] at hlt
    omega
  have hwindow : fits 32 (2 * audioSize) = some (2 * audioSize) := fits_of_lt (by decide)
  rw [pitchInWords?, hpeak, hcount, pitch?_eq]
  by_cases hquiet : peak f.samples < threshold
  · rw [if_pos (.inl hquiet), Option.bind_eq_bind, Option.bind_some, if_pos hquiet]
    rfl
  · by_cases hzero : signChanges f.samples = 0
    · simp [hquiet, hzero]
    · simp [hquiet, hzero, fits_of_lt hproduct, hwindow, hertz_of_changes, fits_of_lt hhertz]

theorem pitch?_eq_none_iff :
    f.pitch? = none ↔ peak f.samples < threshold ∨ signChanges f.samples = 0 := by
  rw [pitch?_eq]
  split_ifs with h
  · exact iff_of_true rfl h
  · exact iff_of_false not_false h

theorem eq_of_pitch?_eq_some {hz : Nat} (h : f.pitch? = some hz) :
    hz = 30 * signChanges f.samples := by
  rw [pitch?_eq, Option.ite_none_left_eq_some] at h
  exact (Option.some.inj h.2).symm

variable {f} in
theorem pitch?_congr {g : AudioFrame}
    (hpeak : peak g.samples < threshold ↔ peak f.samples < threshold)
    (hchanges : signChanges g.samples = signChanges f.samples) : g.pitch? = f.pitch? := by
  rw [pitch?_eq, pitch?_eq, hchanges, if_congr (or_congr_left hpeak) rfl rfl]

/-- A frame has no pitch as long as its samples are quiet or of one sign; otherwise its pitch is
thirty hertz for each change of sign between samples that are not zero. Each value on the way has
room in its word, the magnitude of the least sample too, and the pitch comes out in the range of the
speaker. So a frame has the same pitch backwards, upside down, and with other samples of the same
signs that can be heard. -/
theorem pitch_from_signs :
    (f.pitch? = none ↔ (∀ s ∈ f.samples, s.natAbs < 4) ∨
      ¬((∃ s ∈ f.samples, 0 < s) ∧ ∃ s ∈ f.samples, s < 0)) ∧
    (∀ hz ∈ f.pitch?, hz = 30 * signChanges f.samples) ∧
    f.pitchInWords? = some f.pitch? ∧
    f.backwards.pitch? = f.pitch? ∧
    (-128 ∉ f.samples → f.negated.pitch? = f.pitch?) ∧
    ∀ g : AudioFrame, g.samples.map Int.sign = f.samples.map Int.sign →
      (∃ s ∈ f.samples, 4 ≤ s.natAbs) → (∃ s ∈ g.samples, 4 ≤ s.natAbs) →
      g.pitch? = f.pitch? := by
  refine ⟨?_, fun _ ↦ f.eq_of_pitch?_eq_some, f.pitchInWords?_eq, ?_, ?_, ?_⟩
  · rw [pitch?_eq_none_iff, peak_lt_threshold_iff, signChanges_eq_zero_iff]
    rfl
  · apply pitch?_congr
    · simp only [samples_backwards, peak_lt_threshold_iff, List.mem_reverse]
    · rw [samples_backwards, signChanges_reverse]
  · intro h
    apply pitch?_congr
    · simp only [f.samples_negated h, peak_lt_threshold_iff, List.forall_mem_map, Int.natAbs_neg]
    · rw [f.samples_negated h, signChanges_neg]
  · rintro g hsigns ⟨s, hs, hsloud⟩ ⟨t, ht, htloud⟩
    refine pitch?_congr ?_ (signChanges_congr hsigns)
    rw [peak_lt_threshold_iff, peak_lt_threshold_iff]
    exact iff_of_false (fun h ↦ (h t ht).not_ge htloud) fun h ↦ (h s hs).not_ge hsloud

def square (amplitude : UInt8) : AudioFrame :=
  ⟨⟨⟨(List.range audioSize).map fun i ↦ if i / 16 % 2 = 0 then amplitude else -amplitude⟩⟩,
    (List.length_map ..).trans List.length_range⟩

theorem pitch_from_signs_of_square :
    -128 ∉ (square 64).samples ∧
      (square 5).samples.map Int.sign = (square 64).samples.map Int.sign ∧
      (square 64).negated.pitch? = some 450 ∧ (square 5).pitch? = some 450 := by
  have hleast : -128 ∉ (square 64).samples := by decide +kernel
  have hsigns : (square 5).samples.map Int.sign = (square 64).samples.map Int.sign := by
    decide +kernel
  have hpitch : (square 64).pitch? = some 450 := by decide +kernel
  obtain ⟨-, -, -, -, hnegated, hsame⟩ := pitch_from_signs (square 64)
  refine ⟨hleast, hsigns, (hnegated hleast).trans hpitch, ?_⟩
  exact (hsame (square 5) hsigns (by decide +kernel) (by decide +kernel)).trans hpitch

end AudioFrame

end CopyJump
