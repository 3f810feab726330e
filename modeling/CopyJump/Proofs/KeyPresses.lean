import CopyJump.Proofs.HeldKeys

namespace CopyJump

inductive LatchUse
  | press (number : Nat)
  | poll
deriving DecidableEq

namespace LatchUse

variable {bit k : Nat} {u : LatchUse} {uses : List LatchUse}

def polls (uses : List LatchUse) : Nat := uses.count .poll

/-- A key was pressed, by any of its numbers, with fewer than so many polls since. -/
def PressedWithin (k bit : Nat) (uses : List LatchUse) : Prop :=
  ∃ earlier number since, uses = earlier ++ .press number :: since ∧ number % 16 = bit % 16 ∧
    polls since < k

/-- Whether a key was pressed before the first poll, and whether it was behind each poll up to the
next one. -/
def stretches (bit : Nat) : List LatchUse → Bool × List Bool
  | [] => (false, [])
  | .poll :: uses =>
    let (first, rest) := stretches bit uses
    (false, first :: rest)
  | .press number :: uses =>
    let (first, rest) := stretches bit uses
    (number % 16 == bit % 16 || first, rest)

theorem not_pressedWithin_nil : ¬PressedWithin k bit [] := by
  rintro ⟨earlier, number, since, h, -⟩
  simp at h

theorem pressedWithin_cons :
    PressedWithin k bit (u :: uses) ↔
      (∃ number, u = .press number ∧ number % 16 = bit % 16 ∧ polls uses < k) ∨
        PressedWithin k bit uses := by
  constructor
  · rintro ⟨earlier, number, since, h, hkey, hpolls⟩
    cases earlier with
    | nil =>
      obtain ⟨rfl, rfl⟩ := List.cons.inj h
      exact .inl ⟨number, rfl, hkey, hpolls⟩
    | cons _ earlier => exact .inr ⟨earlier, number, since, (List.cons.inj h).2, hkey, hpolls⟩
  · rintro (⟨number, rfl, hkey, hpolls⟩ | ⟨earlier, number, since, rfl, hkey, hpolls⟩)
    · exact ⟨[], number, uses, rfl, hkey, hpolls⟩
    · exact ⟨u :: earlier, number, since, rfl, hkey, hpolls⟩

end LatchUse

namespace KeyLatch

open LatchUse

variable {l : KeyLatch} {bit : Nat}

def useAll (l : KeyLatch) : List LatchUse → List UInt16 × KeyLatch
  | [] => ([], l)
  | .press number :: uses => (l.press number).useAll uses
  | .poll :: uses =>
    let (mask, l) := l.poll
    let (masks, l) := l.useAll uses
    (mask :: masks, l)

theorem useAll_append (l : KeyLatch) (uses uses' : List LatchUse) :
    l.useAll (uses ++ uses') =
      ((l.useAll uses).1 ++ ((l.useAll uses).2.useAll uses').1,
        ((l.useAll uses).2.useAll uses').2) := by
  induction uses generalizing l with
  | nil => rfl
  | cons u uses ih => cases u <;> simp [useAll, ih]

theorem length_useAll (l : KeyLatch) (uses : List LatchUse) :
    (l.useAll uses).1.length = polls uses := by
  induction uses generalizing l with
  | nil => rfl
  | cons u uses ih => cases u <;> simp [useAll, polls, ih]

@[simp] theorem pollsLeft_empty (bit : Nat) : empty.pollsLeft bit = 0 := by
  simp only [pollsLeft, slot, empty, Vector.getElem_replicate, UInt8.toNat_zero]

theorem pollsLeft_press_le (h : l.pollsLeft bit ≤ hold) (number : Nat) :
    (l.press number).pollsLeft bit ≤ hold := by
  rw [pollsLeft_press]
  split
  · exact Nat.le_refl _
  · exact h

theorem pollsLeft_poll_le (h : l.pollsLeft bit ≤ hold) : l.poll.2.pollsLeft bit ≤ hold := by
  rw [pollsLeft_poll]
  omega

theorem pollsLeft_useAll_le (h : l.pollsLeft bit ≤ hold) (uses : List LatchUse) :
    (l.useAll uses).2.pollsLeft bit ≤ hold := by
  induction uses generalizing l with
  | nil => exact h
  | cons u uses ih =>
    cases u with
    | press number => exact ih (pollsLeft_press_le h number)
    | poll => exact ih (pollsLeft_poll_le h)

theorem lt_pollsLeft_useAll_iff (h : l.pollsLeft bit ≤ hold) (uses : List LatchUse) (k : Nat) :
    k < (l.useAll uses).2.pollsLeft bit ↔
      k + polls uses < l.pollsLeft bit ∨ PressedWithin (hold - k) bit uses := by
  induction uses generalizing l with
  | nil => simp [useAll, polls, not_pressedWithin_nil]
  | cons u uses ih =>
    rw [pressedWithin_cons]
    cases u with
    | poll =>
      have hrest := ih (pollsLeft_poll_le h)
      simp only [pollsLeft_poll] at hrest
      simp only [useAll, hrest, polls, List.count_cons_self, reduceCtorEq, false_and, exists_false,
        false_or]
      apply or_congr_left
      omega
    | press number =>
      have hrest := ih (pollsLeft_press_le h number)
      simp only [pollsLeft_press] at hrest
      simp only [useAll, hrest, polls, LatchUse.press.injEq, exists_eq_left', ← or_assoc]
      apply or_congr_left
      have hcount : (LatchUse.press number :: uses).count .poll = uses.count .poll := by simp
      rw [hcount]
      -- A fresh press counts at least as many polls as any before it.
      split <;> omega

/-- The bits of a key in the masks of polls, where its count starts from `left`. -/
def shownAlong (left : Nat) (first : Bool) : List Bool → List Bool
  | [] => []
  | next :: rest =>
    let left := if first then hold else left
    decide (0 < left) :: shownAlong (left - 1) next rest

theorem shownAlong_or (left : Nat) (pressed first : Bool) (rest : List Bool) :
    shownAlong left (pressed || first) rest =
      shownAlong (if pressed then hold else left) first rest := by
  cases rest with
  | nil => rfl
  | cons next rest => cases pressed <;> cases first <;> rfl

theorem testBit_useAll (l : KeyLatch) (uses : List LatchUse) (hbit : bit < 16) :
    (l.useAll uses).1.map (·.toNat.testBit bit) =
      shownAlong (l.pollsLeft bit) (stretches bit uses).1 (stretches bit uses).2 := by
  induction uses generalizing l with
  | nil => rfl
  | cons u uses ih =>
    cases u with
    | poll =>
      have hmask : l.poll.1.toNat.testBit bit = decide (0 < l.pollsLeft bit) := testBit_mask l hbit
      simp [useAll, stretches, shownAlong, ih, hmask]
    | press number => simp [useAll, stretches, ih, shownAlong_or]

/-- A poll behind any presses and polls of a new latch reports a key if and only if the key was
pressed with fewer than eight polls since. For its bits it only matters in which stretches between
polls it was pressed. A count is at most eight, and a poll takes one from it if it reports the key
and none if not, so that no count goes below zero. -/
theorem shown_iff_pressed_lately (before after : List LatchUse) :
    ∃ mask, (empty.useAll (before ++ .poll :: after)).1[polls before]? = some mask ∧
      (∀ bit < 16, mask.toNat.testBit bit = true ↔ PressedWithin 8 bit before) ∧
      (∀ uses, ∀ bit < 16, stretches bit uses = stretches bit (before ++ .poll :: after) →
        (empty.useAll uses).1.map (·.toNat.testBit bit) =
          (empty.useAll (before ++ .poll :: after)).1.map (·.toNat.testBit bit)) ∧
      let l := (empty.useAll before).2
      l.poll.1 = mask ∧ ∀ bit < 16, l.pollsLeft bit ≤ 8 ∧
        l.poll.2.pollsLeft bit + (mask.toNat.testBit bit).toNat = l.pollsLeft bit := by
  have hempty (bit : Nat) : empty.pollsLeft bit ≤ hold := by simp
  refine ⟨(empty.useAll before).2.mask, ?_, ?_, ?_, rfl, ?_⟩
  · rw [useAll_append, ← length_useAll empty before, List.getElem?_append_right (Nat.le_refl _),
      Nat.sub_self]
    rfl
  · intro bit hbit
    rw [testBit_mask _ hbit, decide_eq_true_iff, lt_pollsLeft_useAll_iff (hempty bit)]
    simp [hold]
  · intro uses bit hbit halike
    rw [testBit_useAll _ _ hbit, testBit_useAll _ _ hbit, halike]
  · intro bit hbit
    refine ⟨pollsLeft_useAll_le (hempty bit) before, ?_⟩
    rw [testBit_mask _ hbit, pollsLeft_poll]
    by_cases hpos : 0 < (empty.useAll before).2.pollsLeft bit
    · rw [decide_eq_true hpos, Bool.toNat_true]
      omega
    · rw [decide_eq_false hpos, Bool.toNat_false]
      omega

end KeyLatch

end CopyJump
