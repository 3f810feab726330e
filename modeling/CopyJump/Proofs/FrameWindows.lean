import CopyJump.FrameRate
import Mathlib.Algebra.Order.Floor.Div
import Mathlib.Data.List.Chain
import Mathlib.Tactic.Linarith

namespace CopyJump.FrameCounter

/-- How ticks fall into windows that have closed and the one that is open. All ticks of a window
come less than a second after its start but for the one that closes it, at which the next window
starts. -/
inductive Windows : Time → List Time → List (List Time) → List Time → Prop
  | opened {start : Time} {ticks : List Time} (h : ∀ t ∈ ticks, t - start < second) :
      Windows start ticks [] ticks
  | closed {start last : Time} {early ticks rest : List Time} {windows : List (List Time)}
      (hearly : ∀ t ∈ early, t - start < second) (hlast : second ≤ last - start)
      (h : Windows last ticks windows rest) :
      Windows start (early ++ last :: ticks) ((early ++ [last]) :: windows) rest

def windowStart (start : Time) (windows : List (List Time)) : Time :=
  windows.flatten.getLast?.getD start

/-- Each tick comes so many nanoseconds after the one before it, the first one after a start. -/
def Spaced (least most : Nat) (start : Time) (ticks : List Time) : Prop :=
  (start :: ticks).IsChain fun t t' : Time ↦ least ≤ t' - t ∧ t' - t ≤ most

variable {start t : Time} {ticks early rest : List Time} {windows : List (List Time)}

namespace Windows

theorem cons_early (ht : t - start < second) (h : Windows start ticks windows rest) :
    ∃ windows rest, Windows start (t :: ticks) windows rest := by
  cases h with
  | opened h => exact ⟨[], _, .opened (List.forall_mem_cons.mpr ⟨ht, h⟩)⟩
  | closed hearly hlast h =>
    exact ⟨_, _, .closed (List.forall_mem_cons.mpr ⟨ht, hearly⟩) hlast h⟩

theorem exist (start : Time) (ticks : List Time) :
    ∃ windows rest, Windows start ticks windows rest := by
  induction ticks generalizing start with
  | nil => exact ⟨[], [], .opened nofun⟩
  | cons t ticks ih =>
    rcases Int.lt_or_le (t - start) second with ht | ht
    · obtain ⟨windows, rest, h⟩ := ih start
      exact h.cons_early ht
    · obtain ⟨windows, rest, h⟩ := ih t
      have hnone : ∀ t' ∈ ([] : List Time), t' - start < second := nofun
      exact ⟨_, _, .closed hnone ht h⟩

theorem flatten_append (h : Windows start ticks windows rest) :
    windows.flatten ++ rest = ticks := by
  induction h with
  | opened => rfl
  | closed _ _ _ ih =>
    rw [List.flatten_cons, List.append_assoc, ih, List.append_assoc, List.singleton_append]

theorem windowStart_cons (start last : Time) (early : List Time) (windows : List (List Time)) :
    windowStart start ((early ++ [last]) :: windows) = windowStart last windows := by
  rw [windowStart, windowStart, List.flatten_cons, List.getLast?_append, List.getLast?_concat]
  cases windows.flatten.getLast? <;> rfl

end Windows

section Counting

variable {frames rate : Nat}

theorem tick_of_early (h : t - start < second) :
    tick ⟨start, frames, rate⟩ t = ⟨start, frames + 1, rate⟩ := if_neg (Int.not_le.mpr h)

theorem tick_of_late (h : second ≤ t - start) :
    tick ⟨start, frames, rate⟩ t = ⟨t, 0, frames + 1⟩ := if_pos h

/-- The rates that a counter publishes when its windows close, which leaves it without frames. -/
def published (c : FrameCounter) : List Time → List Nat
  | [] => []
  | now :: ticks =>
    let c := c.tick now
    if c.frames = 0 then c.rate :: c.published ticks else c.published ticks

theorem foldl_tick_of_early (h : ∀ t ∈ early, t - start < second) :
    early.foldl tick ⟨start, frames, rate⟩ = ⟨start, frames + early.length, rate⟩ := by
  induction early generalizing frames with
  | nil => rfl
  | cons t early ih =>
    rw [List.forall_mem_cons] at h
    rw [List.foldl_cons, tick_of_early h.1, ih h.2, List.length_cons, Nat.add_right_comm,
      Nat.add_assoc]

theorem published_of_early (h : ∀ t ∈ early, t - start < second) (ticks : List Time) :
    published ⟨start, frames, rate⟩ (early ++ ticks) =
      published ⟨start, frames + early.length, rate⟩ ticks := by
  induction early generalizing frames with
  | nil => rfl
  | cons t early ih =>
    rw [List.forall_mem_cons] at h
    rw [List.cons_append, published, tick_of_early h.1, if_neg (Nat.succ_ne_zero _), ih h.2,
      List.length_cons, Nat.add_right_comm, Nat.add_assoc]

end Counting

namespace Windows

theorem foldl_tick (h : Windows start ticks windows rest) (rate : Nat) :
    ticks.foldl tick ⟨start, 0, rate⟩ =
      ⟨windowStart start windows, rest.length, (windows.getLast?.map List.length).getD rate⟩ := by
  induction h generalizing rate with
  | opened h =>
    rw [foldl_tick_of_early h]
    simp [windowStart]
  | @closed start last early ticks rest windows hearly hlast _ ih =>
    rw [List.foldl_append, foldl_tick_of_early hearly, List.foldl_cons, tick_of_late hlast, ih,
      windowStart_cons, List.getLast?_cons]
    cases windows.getLast? <;> simp

theorem published_eq (h : Windows start ticks windows rest) (rate : Nat) :
    published ⟨start, 0, rate⟩ ticks = windows.map List.length := by
  induction h generalizing rate with
  | @opened start ticks h =>
    have hopen : published ⟨start, 0, rate⟩ (ticks ++ []) =
        published ⟨start, 0 + ticks.length, rate⟩ [] := published_of_early h []
    rw [List.append_nil] at hopen
    exact hopen
  | closed hearly hlast _ ih =>
    rw [published_of_early hearly, published, tick_of_late hlast, if_pos rfl, ih]
    simp

end Windows

namespace Spaced

variable {least most : Nat} {last : Time}

theorem left (h : Spaced least most start (early ++ ticks)) : Spaced least most start early :=
  List.IsChain.left_of_append (show List.IsChain _ ((start :: early) ++ ticks) from h)

theorem right (h : Spaced least most start (early ++ last :: ticks)) :
    Spaced least most last ticks :=
  List.IsChain.right_of_append (show List.IsChain _ ((start :: early) ++ last :: ticks) from h)

theorem last_bounds (h : Spaced least most start (early ++ [last])) :
    (early.length + 1) * least ≤ last - start ∧ last - start ≤ (early.length + 1) * most := by
  induction early generalizing start with
  | nil => simpa [Spaced] using h
  | cons t early ih =>
    obtain ⟨⟨hleast, hmost⟩, hrest⟩ := List.isChain_cons_cons.mp h
    obtain ⟨hlower, hupper⟩ := ih hrest
    rw [List.length_cons, Nat.cast_succ]
    constructor <;> linarith

end Spaced

namespace Windows

variable {least most : Nat}

theorem length_early_mul_lt (h : Spaced least most start early)
    (hearly : ∀ t ∈ early, t - start < second) : least * early.length < 10 ^ 9 := by
  rcases List.eq_nil_or_concat' early with rfl | ⟨before, last, rfl⟩
  · simp
  · obtain ⟨hlower, -⟩ := h.last_bounds
    have hlast := hearly last List.mem_concat_self
    have hlt : ((before.length + 1) * least : Int) < 10 ^ 9 := Int.lt_of_le_of_lt hlower hlast
    rw [List.length_append, List.length_singleton, Nat.mul_comm]
    exact_mod_cast hlt

theorem le_length_mul {last : Time} (h : Spaced least most start (early ++ [last]))
    (hlast : second ≤ last - start) : 10 ^ 9 ≤ most * (early.length + 1) := by
  have hle : (10 ^ 9 : Int) ≤ (early.length + 1) * most := Int.le_trans hlast h.last_bounds.2
  rw [Nat.mul_comm]
  exact_mod_cast hle

theorem rate_bounds (hleast : 0 < least) (h : Windows start ticks windows rest)
    (hspaced : Spaced least most start ticks) :
    ∀ window ∈ windows, 10 ^ 9 ⌈/⌉ most ≤ window.length ∧ window.length ≤ 10 ^ 9 ⌈/⌉ least := by
  induction h with
  | opened => nofun
  | @closed start last early ticks rest windows hearly hlast _ ih =>
    rw [List.forall_mem_cons]
    refine ⟨?_, ih hspaced.right⟩
    have hwindow : Spaced least most start (early ++ [last]) := by
      have hsplit : early ++ last :: ticks = early ++ [last] ++ ticks := by simp
      rw [hsplit] at hspaced
      exact hspaced.left
    have hle := le_length_mul hwindow hlast
    have hlt := length_early_mul_lt hwindow.left hearly
    have hmost : 0 < most := by
      rw [Nat.pos_iff_ne_zero]
      rintro rfl
      omega
    rw [List.length_append, List.length_singleton]
    constructor
    · exact (ceilDiv_le_iff_le_mul hmost).mpr hle
    · rwa [Nat.succ_le_iff, ← not_le, ceilDiv_le_iff_le_mul hleast, not_le]

end Windows

/-- Ticks fall into windows, and none is lost or counted twice: the rates that are published are the
numbers of ticks in the windows that have closed, and the counter holds the number of those in the
open one. The rate changes only at a tick a second or more after the open window's start, and then
to the number of ticks since the last change of window. If the ticks are spaced by at least and at
most so many nanoseconds, every rate is within the bounds that this gives. -/
theorem ticks_accounted (start : Time) (ticks : List Time) (hcount : ticks.length < 2 ^ 32) :
    ∃ windows rest, Windows start ticks windows rest ∧ windows.flatten ++ rest = ticks ∧
      published { start } ticks = windows.map List.length ∧
      (published { start } ticks).sum + (ticks.foldl tick { start }).frames = ticks.length ∧
      (∀ before now after, ticks = before ++ now :: after → ∃ windows rest,
        Windows start before windows rest ∧
        let c := before.foldl tick { start }
        c.frames + 1 < 2 ^ 32 ∧
        ((c.tick now).rate ≠ c.rate → second ≤ now - windowStart start windows) ∧
        (second ≤ now - windowStart start windows → (c.tick now).rate = rest.length + 1)) ∧
      ∀ least most : Nat, 0 < least → Spaced least most start ticks →
        ∀ rate ∈ published { start } ticks, 10 ^ 9 ⌈/⌉ most ≤ rate ∧ rate ≤ 10 ^ 9 ⌈/⌉ least := by
  obtain ⟨windows, rest, h⟩ := Windows.exist start ticks
  have hpublished := h.published_eq 0
  refine ⟨windows, rest, h, h.flatten_append, hpublished, ?_, ?_, ?_⟩
  · rw [hpublished, h.foldl_tick 0, ← List.length_flatten, ← List.length_append, h.flatten_append]
  · rintro before now after rfl
    obtain ⟨windows, rest, h⟩ := Windows.exist start before
    refine ⟨windows, rest, h, ?_⟩
    rw [h.foldl_tick 0]
    dsimp only
    refine ⟨?_, ?_, ?_⟩
    · have hrest := congrArg List.length h.flatten_append
      simp only [List.length_append, List.length_cons] at hrest hcount
      omega
    · intro hchange
      by_contra hearly
      rw [tick_of_early (Int.not_le.mp hearly)] at hchange
      exact hchange rfl
    · intro hlate
      rw [tick_of_late hlate]
  · intro least most hleast hspaced
    rw [hpublished, List.forall_mem_map]
    exact h.rate_bounds hleast hspaced

def evenTicks : List Time := [400000000, 800000000, 1200000000, 1600000000]

theorem ticks_accounted_of_even_ticks :
    evenTicks.length < 2 ^ 32 ∧ Spaced 400000000 400000000 0 evenTicks ∧
      (published { start := 0 } evenTicks).sum + (evenTicks.foldl tick { start := 0 }).frames = 4 ∧
      ∀ rate ∈ published { start := 0 } evenTicks, rate = 3 := by
  have hcount : evenTicks.length < 2 ^ 32 := by decide
  have hspaced : Spaced 400000000 400000000 0 evenTicks := by simp [Spaced, evenTicks]
  obtain ⟨-, -, -, -, -, hsum, -, hrates⟩ := ticks_accounted 0 evenTicks hcount
  refine ⟨hcount, hspaced, hsum, fun rate hrate ↦ ?_⟩
  have hbounds := hrates _ _ (by decide) hspaced rate hrate
  have hceil : 10 ^ 9 ⌈/⌉ 400000000 = 3 := by decide
  rw [hceil] at hbounds
  exact Nat.le_antisymm hbounds.2 hbounds.1

end CopyJump.FrameCounter
