import CopyJump.Proofs.FrameCalls
import CopyJump.Proofs.WrappedMemory

namespace CopyJump

namespace Memory

def replay (m : Memory) (copies : List Copy) : Memory :=
  copies.foldl (fun m c ↦ m.write c.dst c.value) m

theorem replay_cons (m : Memory) (c : Copy) (copies : List Copy) :
    m.replay (c :: copies) = (m.write c.dst c.value).replay copies :=
  rfl

theorem read_replay (m : Memory) {copies : List Copy} {a : Address}
    (h : ∀ c ∈ copies, a.index ≠ c.dst.index) : (m.replay copies).read a = m.read a := by
  induction copies generalizing m with
  | nil => rfl
  | cons c copies ih =>
    have hc : c.dst.index ≠ a.index := (h c List.mem_cons_self).symm
    rw [replay_cons, ih _ fun c' hc' ↦ h c' (List.mem_cons_of_mem c hc'), read_write, if_neg hc]

end Memory

namespace Metered

def record (w : Metered) (c : Copy) : Metered where
  memory := w.memory.write c.dst c.value
  limit := w.limit
  writes := w.writes + 1
  copies := w.copies + 1
  trace := if w.trace.size < w.limit then w.trace.push c else w.trace

/-- What some writes, copies among them, make of the account that is kept. -/
structure Counted (w : Metered) (writes : Nat) (made : List Copy) (w' : Metered) : Prop where
  limit_eq : w'.limit = w.limit
  writes_eq : w'.writes = w.writes + writes
  copies_eq : w'.copies = w.copies + made.length
  trace_eq : w'.trace.toList = w.trace.toList ++ made.take (w.limit - w.trace.size)

namespace Counted

variable {w w' w'' : Metered} {writes writes' : Nat} {made made' : List Copy}

theorem size_trace (h : Counted w writes made w') :
    w'.trace.size = w.trace.size + min (w.limit - w.trace.size) made.length := by
  rw [← Array.length_toList, h.trace_eq, List.length_append, List.length_take, Array.length_toList]

theorem trans (h : Counted w writes made w') (h' : Counted w' writes' made' w'') :
    Counted w (writes + writes') (made ++ made') w'' where
  limit_eq := h'.limit_eq.trans h.limit_eq
  writes_eq := by rw [h'.writes_eq, h.writes_eq, Nat.add_assoc]
  copies_eq := by rw [h'.copies_eq, h.copies_eq, List.length_append, Nat.add_assoc]
  trace_eq := by
    have hroom : w'.limit - w'.trace.size = w.limit - w.trace.size - made.length := by
      rw [h.size_trace, h.limit_eq]
      omega
    rw [h'.trace_eq, h.trace_eq, hroom, List.append_assoc, ← List.take_append]

theorem record (w : Metered) (c : Copy) : Counted w 1 [c] (w.record c) where
  limit_eq := rfl
  writes_eq := rfl
  copies_eq := rfl
  trace_eq := by
    rw [Metered.record]
    dsimp only
    split
    case isTrue h =>
      have hroom : [c].length ≤ w.limit - w.trace.size := Nat.sub_pos_of_lt h
      rw [List.take_of_length_le hroom, Array.toList_push]
    case isFalse h =>
      rw [Nat.sub_eq_zero_of_le (Nat.le_of_not_lt h), List.take_zero, List.append_nil]

end Counted

theorem scatter_eq (w : Metered) (a : Address) (value : UInt32) (n : Nat) :
    scatter writeByte w a value n =
      { w with memory := scatter Memory.write w.memory a value n, writes := w.writes + n } := by
  induction n generalizing w a with
  | zero => rfl
  | succ n ih =>
    rw [scatter, ih, scatter]
    obtain ⟨memory, limit, writes, copies, trace⟩ := w
    show Metered.mk _ _ (writes + 1 + n) _ _ = Metered.mk _ _ (writes + (n + 1)) _ _
    rw [Nat.add_assoc, Nat.add_comm 1 n]
    rfl

end Metered

namespace Machine

open AddressSpace

def copyAt (m : Memory) (pc : Address) : Copy where
  src := readNumber m pc 3
  dst := readNumber m (pc + 3).wrap 3
  value := m.read (readNumber m pc 3)

theorem step_fst (m : Memory) (pc : Address) :
    (step m pc).1 = m.write (copyAt m pc).dst (copyAt m pc).value :=
  rfl

/-- The copies of the next `n` instructions from `pc` on. -/
def copiesOf : Nat → Memory → Address → List Copy
  | 0, _, _ => []
  | n + 1, m, pc => copyAt m pc :: copiesOf n (step m pc).1 (step m pc).2

theorem length_copiesOf (n : Nat) (m : Memory) (pc : Address) : (copiesOf n m pc).length = n := by
  induction n generalizing m pc with
  | zero => rfl
  | succ n ih => rw [copiesOf, List.length_cons, ih]

theorem inRange_of_mem_copiesOf {n : Nat} {m : Memory} {pc : Address} {c : Copy}
    (h : c ∈ copiesOf n m pc) :
    c.src.toNat < addressSpaceSize ∧ c.dst.toNat < addressSpaceSize := by
  induction n generalizing m pc with
  | zero => cases h
  | succ n ih =>
    rw [copiesOf, List.mem_cons] at h
    rcases h with rfl | h
    · exact ⟨Memory.numbersFit _ _, Memory.numbersFit _ _⟩
    · exact ih h

theorem replay_copiesOf (n : Nat) (m : Memory) (pc : Address) :
    m.replay (copiesOf n m pc) = (steps n m pc).1 := by
  induction n generalizing m pc with
  | zero => rfl
  | succ n ih =>
    rw [copiesOf, Memory.replay_cons, ← step_fst, ih]
    rfl

theorem value_of_copiesOf {n : Nat} {m : Memory} {pc : Address} {before after : List Copy}
    {c : Copy} (h : copiesOf n m pc = before ++ c :: after) :
    c.value = (m.replay before).read c.src := by
  induction n generalizing m pc before with
  | zero => simp [copiesOf] at h
  | succ n ih =>
    rw [copiesOf] at h
    cases before with
    | nil =>
      rw [List.nil_append] at h
      rw [← (List.cons.inj h).1]
      rfl
    | cons first before =>
      rw [List.cons_append] at h
      obtain ⟨hfirst, hrest⟩ := List.cons.inj h
      rw [ih hrest, Memory.replay_cons, ← hfirst, step_fst]

theorem steps_counted (n : Nat) (w : Metered) (pc : Address) :
    Metered.Counted w n (copiesOf n w.memory pc) (steps n w pc).1 := by
  induction n generalizing w pc with
  | zero => exact ⟨rfl, rfl, rfl, by simp [copiesOf, steps]⟩
  | succ n ih =>
    have hstep : step w pc = (w.record (copyAt w.memory pc), (step w.memory pc).2) := rfl
    have hfirst := Metered.Counted.record w (copyAt w.memory pc)
    have hrest := hfirst.trans (ih (w.record (copyAt w.memory pc)) (step w.memory pc).2)
    rw [Nat.add_comm] at hrest
    rw [steps, hstep]
    exact hrest

theorem read_latched (m : Memory) (keys : UInt16) {a : Address} (h₀ : a.index ≠ 0)
    (h₁ : a.index ≠ 1) : (latched m keys).read a = m.read a := by
  have hhigh : keysAt.index ≠ a.index := h₀.symm
  have hlow : (keysAt + 1).index ≠ a.index := h₁.symm
  show ((m.write keysAt _).write (keysAt + 1) _).read a = m.read a
  rw [Memory.read_write, if_neg hlow, Memory.read_write, if_neg hhigh]

theorem latched_counted (w : Metered) (keys : UInt16) :
    Metered.Counted w 2 [] (latched w keys) := by
  have hlatched : latched w keys = _ := Metered.scatter_eq w keysAt keys.toUInt32 2
  rw [hlatched]
  exact ⟨rfl, rfl, rfl, by simp⟩

def frameCopies (m : Memory) (keys : UInt16) : List Copy :=
  copiesOf instructionsPerFrame (latched m keys) (start (latched m keys))

theorem advance_counted (w : Metered) (keys : UInt16) :
    Metered.Counted w 65538 (frameCopies w.memory keys) (advance w keys) := by
  have hmemory : (latched w keys).memory = latched w.memory keys :=
    latched_wraps Metered.wraps w keys
  -- For every number of instructions, so that those of a frame are never run here.
  have hsteps (n : Nat) : Metered.Counted w (2 + n)
      (copiesOf n (latched w.memory keys) (start (latched w.memory keys)))
      (steps n (latched w keys) (start (latched w keys))).1 := by
    have h := (latched_counted w keys).trans
      (steps_counted n (latched w keys) (start (latched w keys)))
    rw [start_wraps Metered.wraps, hmemory] at h
    rw [start_wraps Metered.wraps, hmemory]
    exact h
  rw [advance_of_smooth (Metered.wraps.numbersFit.smoothFrame w keys), frameCopies]
  exact hsteps instructionsPerFrame

/-- The copies of a frame, from the memory before it to the one after. Made once more on the memory
with the keys written they give the same, each with the byte that is then where it comes from; so
nothing changes but the keys and where they go. -/
structure FrameTrace (m : Memory) (keys : UInt16) (copies : List Copy) (m' : Memory) : Prop where
  advance_eq : advance m keys = m'
  length_eq : copies.length = 65536
  inRange : ∀ c ∈ copies, c.src.toNat < 2 ^ 24 ∧ c.dst.toNat < 2 ^ 24
  replay_eq : (latched m keys).replay copies = m'
  value_eq : ∀ before c after, copies = before ++ c :: after →
    c.value = ((latched m keys).replay before).read c.src
  unchanged : ∀ a : Address, a.index ≠ 0 → a.index ≠ 1 → (∀ c ∈ copies, a.index ≠ c.dst.index) →
    m'.read a = m.read a

theorem frameTrace (m : Memory) (keys : UInt16) :
    FrameTrace m keys (frameCopies m keys) (advance m keys) := by
  have hreplay : (latched m keys).replay (frameCopies m keys) = advance m keys := by
    rw [frameCopies, replay_copiesOf, advance_of_smooth (Memory.numbersFit.smoothFrame m keys)]
  refine ⟨rfl, ?_, fun c hc ↦ inRange_of_mem_copiesOf hc, hreplay,
    fun before c after h ↦ value_of_copiesOf h, fun a h₀ h₁ h ↦ ?_⟩
  · rw [frameCopies, length_copiesOf, instructionsPerFrame]
  · rw [← hreplay, Memory.read_replay _ h, read_latched m keys h₀ h₁]

inductive FrameTraces : Memory → List UInt16 → List (List Copy) → Memory → Prop
  | nil (m : Memory) : FrameTraces m [] [] m
  | cons {m m' m'' keys inputs copies blocks} (first : FrameTrace m keys copies m')
      (rest : FrameTraces m' inputs blocks m'') :
    FrameTraces m (keys :: inputs) (copies :: blocks) m''

theorem FrameTraces.length_flatten {m m' : Memory} {inputs : List UInt16}
    {blocks : List (List Copy)} (h : FrameTraces m inputs blocks m') :
    blocks.flatten.length = 65536 * inputs.length := by
  induction h with
  | nil m => rfl
  | cons first _ ih =>
    rw [List.flatten_cons, List.length_append, first.length_eq, ih, List.length_cons]
    omega

theorem frameTraces_counted (w : Metered) (inputs : List UInt16) :
    ∃ blocks, FrameTraces w.memory inputs blocks (inputs.foldl advance w).memory ∧
      Metered.Counted w (65538 * inputs.length) blocks.flatten (inputs.foldl advance w) := by
  induction inputs generalizing w with
  | nil => exact ⟨[], .nil w.memory, rfl, rfl, rfl, by simp⟩
  | cons keys inputs ih =>
    have hfirst := advance_counted w keys
    have htrace := frameTrace w.memory keys
    rw [← advance_wraps Metered.wraps] at htrace
    obtain ⟨blocks, hblocks, hrest⟩ := ih (advance w keys)
    rw [List.foldl_cons]
    refine ⟨frameCopies w.memory keys :: blocks, .cons htrace hblocks, ?_⟩
    rw [List.flatten_cons, List.length_cons, Nat.mul_succ, Nat.add_comm]
    exact hfirst.trans hrest

/-- Metered memory sees 65536 copies and 65538 writes in every frame, and lists the copies in order
for as long as it has room. The copies of a frame account for all that it does. -/
theorem advanceOver_traced (w : Metered) (n : Nat) (inputs : List UInt16) :
    ∃ w' blocks, (advanceOver ⟨w, n⟩ inputs : Machine Metered).memory = w' ∧
      w'.copies = w.copies + 65536 * inputs.length ∧
      w'.writes = w.writes + 65538 * inputs.length ∧
      w'.trace.toList = w.trace.toList ++ blocks.flatten.take (w.limit - w.trace.size) ∧
      FrameTraces w.memory inputs blocks w'.memory := by
  obtain ⟨blocks, hblocks, hcounted⟩ := frameTraces_counted w inputs
  refine ⟨inputs.foldl advance w, blocks, memory_advanceOver _ _, ?_, hcounted.writes_eq,
    hcounted.trace_eq, hblocks⟩
  rw [hcounted.copies_eq, hblocks.length_flatten]

end Machine

end CopyJump
