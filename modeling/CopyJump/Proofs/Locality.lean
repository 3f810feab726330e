import CopyJump.Proofs.CopyTrace
import Mathlib.Data.Set.Function
import Mathlib.Tactic.IntervalCases

namespace CopyJump

namespace Contents

variable {m m' : Contents} {s : Set Place} {p : Place}

def span (p : Place) (n : Nat) : Set Place := {q | ∃ i < n, q = p + BitVec.ofNat 24 i}

theorem span_subset {i k n : Nat} (h : i + k ≤ n) (p : Place) :
    span (p + BitVec.ofNat 24 i) k ⊆ span p n := by
  rintro q ⟨j, hj, rfl⟩
  refine ⟨i + j, by omega, ?_⟩
  rw [BitVec.ofNat_add, BitVec.add_assoc]

theorem field_congr (h : Set.EqOn m' m (span p 3)) : m'.field p = m.field p := by
  have h₀ : m' p = m p := h ⟨0, by decide, (BitVec.add_zero p).symm⟩
  have h₁ : m' (p + 1) = m (p + 1) := h ⟨1, by decide, rfl⟩
  have h₂ : m' (p + 2) = m (p + 2) := h ⟨2, by decide, rfl⟩
  rw [field, field, h₀, h₁, h₂]

theorem eqOn_store (h : Set.EqOn m' m s) (p : Place) (value : UInt8) :
    Set.EqOn (m'.store p value) (m.store p value) (insert p s) := by
  intro q hq
  simp only [store, Function.update_apply]
  split
  case isTrue => rfl
  case isFalse hne => exact h (hq.resolve_left hne)

theorem eqOn_store_self (m : Contents) (p : Place) (value : UInt8) :
    Set.EqOn (m.store p value) m {p}ᶜ := by
  intro q hq
  exact Function.update_of_ne hq value m

end Contents

namespace Memory

open AddressSpace Contents

theorem readNumber_three_congr {m m' : Memory} {a : Address}
    (h : Set.EqOn m'.contents m.contents (span a.place 3)) :
    readNumber m' a 3 = readNumber m a 3 := by
  -- A number of three bytes is below the top, so the place that it names tells it.
  have hplace : Address.place (readNumber m' a 3) = Address.place (readNumber m a 3) := by
    rw [place_readNumber_three, place_readNumber_three, field_congr h]
  have hindex := congrArg BitVec.toNat hplace
  rw [← Address.index_eq_toNat_place, ← Address.index_eq_toNat_place, Address.index_eq,
    Address.index_eq, Nat.mod_eq_of_lt (numbersFit m' a),
    Nat.mod_eq_of_lt (numbersFit m a)] at hindex
  exact UInt32.toNat_inj.mp hindex

def targets (copies : List Copy) : Set Place := {p | ∃ c ∈ copies, p = c.dst.place}

theorem targets_cons (c : Copy) (copies : List Copy) :
    targets (c :: copies) = insert c.dst.place (targets copies) := by
  ext p
  simp [targets]

theorem eqOn_replay {m m' : Memory} {s : Set Place} (h : Set.EqOn m'.contents m.contents s)
    (copies : List Copy) :
    Set.EqOn (m'.replay copies).contents (m.replay copies).contents (targets copies ∪ s) := by
  induction copies generalizing m m' s with
  | nil => simpa [targets, replay] using h
  | cons c copies ih =>
    have hfirst : Set.EqOn (m'.write c.dst c.value).contents (m.write c.dst c.value).contents
        (insert c.dst.place s) := by
      rw [contents_write, contents_write]
      exact eqOn_store h c.dst.place c.value
    have hrest := ih hfirst
    rw [targets_cons, replay_cons, replay_cons, Set.insert_union, ← Set.union_insert]
    exact hrest

theorem eqOn_replay_self (m : Memory) (copies : List Copy) :
    Set.EqOn (m.replay copies).contents m.contents (targets copies)ᶜ := by
  induction copies generalizing m with
  | nil => exact Set.eqOn_refl _ _
  | cons c copies ih =>
    intro p hp
    rw [targets_cons, Set.mem_compl_iff, Set.mem_insert_iff, not_or] at hp
    rw [replay_cons, ih _ hp.2, contents_write]
    exact eqOn_store_self m.contents c.dst.place c.value hp.1

end Memory

structure Execution where
  pc : Address
  copy : Copy
deriving DecidableEq

/-- The places read for an instruction: its nine bytes and the byte copied. -/
def Execution.reads (e : Execution) : Set Place :=
  insert e.copy.src.place (Contents.span e.pc.place 9)

namespace Machine

open AddressSpace Contents

def executions : Nat → Memory → Address → List Execution
  | 0, _, _ => []
  | n + 1, m, pc => ⟨pc, copyAt m pc⟩ :: executions n (step m pc).1 (step m pc).2

theorem map_copy_executions (n : Nat) (m : Memory) (pc : Address) :
    (executions n m pc).map Execution.copy = copiesOf n m pc := by
  induction n generalizing m pc with
  | zero => rfl
  | succ n ih => rw [executions, copiesOf, List.map_cons, ih]

section Congr

variable {m m' : Memory} {pc : Address}

theorem readNumber_add_congr {k : Address} {i : Nat}
    (h : Set.EqOn m'.contents m.contents (span pc.place 9)) (hk : k.place = BitVec.ofNat 24 i)
    (hi : i + 3 ≤ 9) : readNumber m' (pc + k).wrap 3 = readNumber m (pc + k).wrap 3 := by
  apply Memory.readNumber_three_congr
  rw [Address.place_wrap, Address.place_add, hk]
  exact h.mono (span_subset hi pc.place)

theorem copyAt_congr (h : Set.EqOn m'.contents m.contents (Execution.reads ⟨pc, copyAt m pc⟩)) :
    copyAt m' pc = copyAt m pc := by
  have hbytes : Set.EqOn m'.contents m.contents (span pc.place 9) :=
    h.mono (Set.subset_insert _ _)
  have hsrc : readNumber m' pc 3 = readNumber m pc 3 := by
    apply Memory.readNumber_three_congr
    have hspan := span_subset (i := 0) (k := 3) (n := 9) (by decide) pc.place
    rw [BitVec.add_zero] at hspan
    exact hbytes.mono hspan
  have hdst : readNumber m' (pc + 3).wrap 3 = readNumber m (pc + 3).wrap 3 :=
    readNumber_add_congr hbytes (i := 3) rfl (by decide)
  have hvalue : m'.read (readNumber m pc 3) = m.read (readNumber m pc 3) := by
    rw [Memory.read_eq_contents, Memory.read_eq_contents]
    exact h (Set.mem_insert _ _)
  rw [copyAt, copyAt, hsrc, hdst, hvalue]

theorem step_congr {s : Set Place} (h : Set.EqOn m'.contents m.contents s)
    (hreads : Execution.reads ⟨pc, copyAt m pc⟩ ⊆ s) :
    (step m' pc).2 = (step m pc).2 ∧ Set.EqOn (step m' pc).1.contents (step m pc).1.contents s := by
  have hcopy := copyAt_congr (h.mono hreads)
  have hafter : Set.EqOn (step m' pc).1.contents (step m pc).1.contents s := by
    rw [step_fst, step_fst, hcopy, Memory.contents_write, Memory.contents_write]
    exact (eqOn_store h _ _).mono (Set.subset_insert _ _)
  -- The next address is read after the copy, which put the same byte in the same place of both.
  have hbytes : Set.EqOn (step m' pc).1.contents (step m pc).1.contents (span pc.place 9) :=
    hafter.mono ((Set.subset_insert _ _).trans hreads)
  exact ⟨readNumber_add_congr hbytes (i := 6) rfl (by decide), hafter⟩

theorem executions_congr {n : Nat} {s : Set Place} (h : Set.EqOn m'.contents m.contents s)
    (hreads : ∀ e ∈ executions n m pc, e.reads ⊆ s) :
    executions n m' pc = executions n m pc := by
  -- Each instruction keeps the two memories the same on all of `s`, where those after it read too.
  induction n generalizing m m' pc with
  | zero => rfl
  | succ n ih =>
    rw [executions, List.forall_mem_cons] at hreads
    obtain ⟨hfirst, hrest⟩ := hreads
    obtain ⟨hpc, hafter⟩ := step_congr h hfirst
    rw [executions, executions, copyAt_congr (h.mono hfirst), hpc, ih hafter hrest]

end Congr

theorem contents_latched (m : Memory) (keys : UInt16) :
    (latched m keys).contents = m.contents.latch keys :=
  m.contents_latch keys

def frameExecutions (m : Memory) (keys : UInt16) : List Execution :=
  executions instructionsPerFrame (latched m keys) (start (latched m keys))

theorem map_copy_frameExecutions (m : Memory) (keys : UInt16) :
    (frameExecutions m keys).map Execution.copy = frameCopies m keys := by
  rw [frameExecutions, map_copy_executions, frameCopies]

/-- Where a frame reads: in bytes 2 to 4, and for each of its instructions. -/
def frameReads (m : Memory) (keys : UInt16) : Set Place :=
  span 2 3 ∪ {p | ∃ e ∈ frameExecutions m keys, p ∈ e.reads}

/-- Where a frame writes: the keys, in bytes 0 and 1, and the bytes that its instructions copy. -/
def frameWrites (m : Memory) (keys : UInt16) : Set Place :=
  {0, 1} ∪ Memory.targets (frameCopies m keys)

theorem eqOn_latched {m m' : Memory} {s : Set Place} (h : Set.EqOn m'.contents m.contents s)
    (keys : UInt16) :
    Set.EqOn (latched m' keys).contents (latched m keys).contents ({0, 1} ∪ s) := by
  have hboth := eqOn_store (eqOn_store h 0 (keys >>> 8).toUInt8) 1 keys.toUInt8
  rw [contents_latched, contents_latched, Set.insert_union, Set.singleton_union, Set.insert_comm]
  exact hboth

theorem frameExecutions_congr {m m' : Memory} {keys : UInt16} {s : Set Place}
    (h : Set.EqOn (latched m' keys).contents (latched m keys).contents s)
    (hreads : frameReads m keys ⊆ s) : frameExecutions m' keys = frameExecutions m keys := by
  rw [frameReads, Set.union_subset_iff] at hreads
  obtain ⟨hfirst, hrest⟩ := hreads
  have hstart : start (latched m' keys) = start (latched m keys) :=
    Memory.readNumber_three_congr (a := startAt) (h.mono hfirst)
  rw [frameExecutions, frameExecutions, hstart]
  apply executions_congr h
  intro e he p hp
  exact hrest ⟨e, he, hp⟩

theorem eqOn_advance {m m' : Memory} {keys : UInt16} {s : Set Place}
    (h : Set.EqOn m'.contents m.contents s)
    (hcopies : frameCopies m' keys = frameCopies m keys) :
    Set.EqOn (advance m' keys).contents (advance m keys).contents (frameWrites m keys ∪ s) := by
  have hreplay := Memory.eqOn_replay (eqOn_latched h keys) (frameCopies m keys)
  rw [← (frameTrace m' keys).replay_eq, ← (frameTrace m keys).replay_eq, hcopies, frameWrites,
    Set.union_comm {0, 1}, Set.union_assoc]
  exact hreplay

theorem eqOn_advance_self (m : Memory) (keys : UInt16) :
    Set.EqOn (advance m keys).contents m.contents (frameWrites m keys)ᶜ := by
  intro p hp
  rw [frameWrites, Set.mem_compl_iff, Set.mem_union, not_or] at hp
  obtain ⟨hkeys, htargets⟩ := hp
  rw [Set.mem_insert_iff, Set.mem_singleton_iff, not_or] at hkeys
  rw [← (frameTrace m keys).replay_eq, Memory.eqOn_replay_self _ _ htargets, contents_latched,
    Contents.latch, eqOn_store_self _ _ _ hkeys.2, eqOn_store_self _ _ _ hkeys.1]

/-- Two memories that are the same wherever the frame on one of them reads, but perhaps for the
keys, go through the same instructions. Both then hold the same wherever they were written to and
wherever they held the same before, and elsewhere each of them is as it was. -/
theorem frame_local (vm vm' : Machine Memory) (keys : UInt16)
    (agree : Set.EqOn vm'.memory.contents vm.memory.contents
      (frameReads vm.memory keys \ {0, 1})) :
    frameExecutions vm'.memory keys = frameExecutions vm.memory keys ∧
      Set.EqOn (vm'.frame keys).2.memory.contents (vm.frame keys).2.memory.contents
        (frameWrites vm.memory keys ∪ {p | vm'.memory.contents p = vm.memory.contents p}) ∧
      Set.EqOn (vm.frame keys).2.memory.contents vm.memory.contents
        (frameWrites vm.memory keys)ᶜ ∧
      Set.EqOn (vm'.frame keys).2.memory.contents vm'.memory.contents
        (frameWrites vm.memory keys)ᶜ := by
  simp only [memory_frame]
  generalize vm.memory = m at agree ⊢
  generalize vm'.memory = m' at agree ⊢
  have hsame : Set.EqOn m'.contents m.contents {p | m'.contents p = m.contents p} := fun _ h ↦ h
  have hreads : frameReads m keys ⊆ {0, 1} ∪ {p | m'.contents p = m.contents p} := by
    intro p hp
    by_cases hkeys : p ∈ ({0, 1} : Set Place)
    · exact Or.inl hkeys
    · exact Or.inr (agree ⟨hp, hkeys⟩)
  have hexecutions := frameExecutions_congr (eqOn_latched hsame keys) hreads
  have hcopies : frameCopies m' keys = frameCopies m keys := by
    rw [← map_copy_frameExecutions, ← map_copy_frameExecutions, hexecutions]
  have hwrites : frameWrites m' keys = frameWrites m keys := by
    rw [frameWrites, frameWrites, hcopies]
  refine ⟨hexecutions, eqOn_advance hsame hcopies, eqOn_advance_self m keys, ?_⟩
  rw [← hwrites]
  exact eqOn_advance_self m' keys

theorem eq_of_mem_executions {n : Nat} {m : Memory} {pc : Address} {e : Execution}
    (hstill : step m pc = (m, pc)) (h : e ∈ executions n m pc) : e = ⟨pc, copyAt m pc⟩ := by
  induction n with
  | zero => cases h
  | succ n ih =>
    rw [executions, hstill, List.mem_cons] at h
    exact h.elim id ih

theorem readNumber_blank (a : Address) (n : Nat) : readNumber Memory.blank a n = 0 := by
  rw [Memory.readNumber_eq]
  induction n generalizing a with
  | zero => rfl
  | succ n ih =>
    rw [gather, Memory.read_blank]
    exact ih (a + 1)

theorem write_blank (a : Address) : Memory.blank.write a 0 = .blank := by
  apply Memory.ext_read
  intro b
  rw [Memory.read_write, Memory.read_blank, ite_self]

theorem copyAt_blank (pc : Address) : copyAt Memory.blank pc = ⟨0, 0, 0⟩ := by
  rw [copyAt, readNumber_blank, readNumber_blank, Memory.read_blank]

theorem step_blank (pc : Address) : step Memory.blank pc = (.blank, 0) := by
  have hafter : (step Memory.blank pc).1 = .blank := by
    rw [step_fst, copyAt_blank, write_blank]
  refine Prod.ext hafter ?_
  show readNumber (step Memory.blank pc).1 (pc + 6).wrap 3 = 0
  rw [hafter, readNumber_blank]

theorem latched_blank : latched Memory.blank 0 = .blank :=
  (congrArg (Memory.write · 1 0) (write_blank 0)).trans (write_blank 1)

theorem eq_of_mem_frameExecutions_blank {e : Execution}
    (h : e ∈ frameExecutions Memory.blank 0) : e = ⟨0, ⟨0, 0, 0⟩⟩ := by
  rw [frameExecutions, latched_blank, start, readNumber_blank] at h
  rw [eq_of_mem_executions (step_blank 0) h, copyAt_blank]

theorem frameReads_blank : frameReads Memory.blank 0 ⊆ span 0 9 := by
  apply Set.union_subset (span_subset (i := 2) (by decide) 0)
  rintro p ⟨e, he, hp⟩
  rw [eq_of_mem_frameExecutions_blank he] at hp
  rcases hp with rfl | hp
  · exact ⟨0, by decide, rfl⟩
  · exact hp

theorem frameWrites_blank : frameWrites Memory.blank 0 ⊆ {0, 1} := by
  apply Set.union_subset subset_rfl
  rintro p ⟨c, hc, rfl⟩
  rw [← map_copy_frameExecutions, List.mem_map] at hc
  obtain ⟨e, he, rfl⟩ := hc
  rw [eq_of_mem_frameExecutions_blank he]
  exact Or.inl rfl

theorem frame_local_of_blank :
    let vm : Machine Memory := ⟨.blank, 0⟩
    let vm' : Machine Memory := ⟨(Memory.blank.write 1 9).write 0x200 7, 0⟩
    Set.EqOn vm'.memory.contents vm.memory.contents (frameReads vm.memory 0 \ {0, 1}) ∧
      frameExecutions vm'.memory 0 = frameExecutions vm.memory 0 ∧
      (vm'.frame 0).2.memory.contents 1 = (vm.frame 0).2.memory.contents 1 ∧
      (vm.frame 0).2.memory.contents 0x200 = vm.memory.contents 0x200 ∧
      (vm'.frame 0).2.memory.contents 0x200 = vm'.memory.contents 0x200 := by
  intro vm vm'
  have hagree : Set.EqOn vm'.memory.contents vm.memory.contents
      (frameReads vm.memory 0 \ {0, 1}) := by
    rintro p ⟨hp, hkeys⟩
    obtain ⟨i, hi, rfl⟩ := frameReads_blank hp
    have hfar : (0 : Place) + BitVec.ofNat 24 i ≠ Address.place 0x200 := by
      interval_cases i <;> decide
    have hkey : (0 : Place) + BitVec.ofNat 24 i ≠ Address.place 1 := fun h ↦ hkeys (Or.inr h)
    rw [Memory.contents_write, eqOn_store_self _ _ _ hfar, Memory.contents_write,
      eqOn_store_self _ _ _ hkey]
  have hunwritten : (0x200 : Place) ∈ (frameWrites vm.memory 0)ᶜ := by
    intro h
    have hkeys := frameWrites_blank h
    revert hkeys
    decide
  obtain ⟨hexecutions, hafter, hkept, hkept'⟩ := frame_local vm vm' 0 hagree
  exact ⟨hagree, hexecutions, hafter (Or.inl (Or.inl (Or.inr rfl))), hkept hunwritten,
    hkept' hunwritten⟩

end Machine

end CopyJump
