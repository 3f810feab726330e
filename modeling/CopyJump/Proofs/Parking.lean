import CopyJump.Proofs.Locality

namespace CopyJump

namespace Memory

theorem write_write (m : Memory) (a : Address) (value : UInt8) :
    (m.write a value).write a value = m.write a value := by
  apply ext_read
  intro b
  rw [read_write]
  split
  case isTrue h => rw [read_write, if_pos h]
  case isFalse => rfl

end Memory

namespace Machine

open AddressSpace Contents

variable {m : Memory} {pc : Address}

/-- The instruction at `pc` leads to itself and does not write to any of its bytes. Where its byte
comes from does not matter: it may be one of its own, or the one written. -/
structure Parked (m : Memory) (pc : Address) : Prop where
  next_eq : readNumber m (pc + 6).wrap 3 = pc
  dst_notMem : (copyAt m pc).dst.place ∉ span pc.place 9

def afterCopy (m : Memory) (pc : Address) : Memory := m.write (copyAt m pc).dst (copyAt m pc).value

theorem read_src_afterCopy (m : Memory) (pc : Address) :
    (afterCopy m pc).read (copyAt m pc).src = m.read (copyAt m pc).src := by
  rw [afterCopy, Memory.read_write]
  -- The source may be the very place written: then what is there now is what was there.
  split
  case isTrue => rfl
  case isFalse => rfl

theorem steps_add (k n : Nat) (m : Memory) (pc : Address) :
    steps (k + n) m pc = steps n (steps k m pc).1 (steps k m pc).2 := by
  induction k generalizing m pc with
  | zero => rw [Nat.zero_add, steps]
  | succ k ih =>
    rw [Nat.succ_add, steps, steps]
    exact ih _ _

theorem steps_of_still (hstill : step m pc = (m, pc)) (n : Nat) : steps n m pc = (m, pc) := by
  induction n with
  | zero => rfl
  | succ n ih =>
    rw [steps, hstill]
    exact ih

namespace Parked

theorem eqOn_span (parked : Parked m pc) :
    Set.EqOn (afterCopy m pc).contents m.contents (span pc.place 9) := by
  intro p hp
  have hne : p ≠ (copyAt m pc).dst.place := by
    rintro rfl
    exact parked.dst_notMem hp
  rw [afterCopy, Memory.contents_write]
  exact eqOn_store_self m.contents _ _ hne

theorem copyAt_afterCopy (parked : Parked m pc) : copyAt (afterCopy m pc) pc = copyAt m pc := by
  apply copyAt_congr
  intro p hp
  rcases hp with rfl | hp
  · rw [← Memory.read_eq_contents, ← Memory.read_eq_contents, read_src_afterCopy]
  · exact parked.eqOn_span hp

theorem next_afterCopy (parked : Parked m pc) :
    readNumber (afterCopy m pc) (pc + 6).wrap 3 = pc := by
  have hnext : readNumber (afterCopy m pc) (pc + 6).wrap 3 = readNumber m (pc + 6).wrap 3 :=
    readNumber_add_congr parked.eqOn_span (i := 6) rfl (by decide)
  rw [hnext, parked.next_eq]

theorem step_eq (parked : Parked m pc) : step m pc = (afterCopy m pc, pc) :=
  Prod.ext (step_fst m pc) parked.next_afterCopy

theorem step_afterCopy (parked : Parked m pc) :
    step (afterCopy m pc) pc = (afterCopy m pc, pc) := by
  -- The second copy writes the byte that the first one wrote.
  have hsame : (afterCopy m pc).write (copyAt m pc).dst (copyAt m pc).value = afterCopy m pc :=
    m.write_write _ _
  have hmemory : (step (afterCopy m pc) pc).1 = afterCopy m pc := by
    rw [step_fst, parked.copyAt_afterCopy, hsame]
  refine Prod.ext hmemory ?_
  show readNumber (step (afterCopy m pc) pc).1 (pc + 6).wrap 3 = pc
  rw [hmemory, parked.next_afterCopy]

theorem steps_succ (parked : Parked m pc) (n : Nat) :
    steps (n + 1) m pc = (afterCopy m pc, pc) := by
  rw [steps, parked.step_eq]
  exact steps_of_still parked.step_afterCopy n

end Parked

theorem midFrame_of_parked {before : Memory} {keys : UInt16} {k j : Nat}
    (hmid : midFrame before keys k = (m, pc)) (parked : Parked m pc) (hj : k < j) :
    midFrame before keys j = (afterCopy m pc, pc) := by
  obtain ⟨n, rfl⟩ := Nat.exists_eq_add_of_lt hj
  rw [midFrame] at hmid ⊢
  rw [Nat.add_assoc, steps_add, hmid]
  exact parked.steps_succ n

/-- A machine that comes to stand on a parked instruction before its frame is over stays there. When
the frame ends, memory is as it was at that moment but for the one byte copied, and sound and
picture are pages of it. -/
theorem frame_of_parked (vm : Machine Memory) (keys : UInt16) {k : Nat} (hk : k < 65536)
    (hmid : midFrame vm.memory keys k = (m, pc)) (parked : Parked m pc) :
    ∃ audio video final, final = m.write (copyAt m pc).dst (m.read (copyAt m pc).src) ∧
      vm.frame keys = (.ok (audio, video), ⟨final, vm.framesRun + 1⟩) ∧
      audio.bytes.data.toList = final.contents.page final.contents.audioPlace 256 ∧
      video.bytes.data.toList = final.contents.page final.contents.videoPlace 65536 ∧
      ∀ j, k < j → midFrame vm.memory keys j = (final, pc) := by
  have hframe := frame_eq vm.memory vm.framesRun keys
  rw [advance_eq_midFrame, instructionsPerFrame, midFrame_of_parked hmid parked hk] at hframe
  exact ⟨(frames (afterCopy m pc)).1, (frames (afterCopy m pc)).2, afterCopy m pc, rfl, hframe,
    toList_audio _, toList_video _, fun j hj ↦ midFrame_of_parked hmid parked hj⟩

/-- Memory with an instruction across the top. The keys are the low bytes of its destination, and it
leads to where the frame starts. -/
def acrossTop : Memory :=
  (writeBytes Memory.blank 0xFFFFFC [0, 1, 0, 0, 0, 0, 0xFF, 0xFF, 0xFC]).write 0x100 0x42

theorem start_acrossTop : start (latched acrossTop 0x200) = 0xFFFFFC := by
  have hbytes : start (latched acrossTop 0x200) =
        ((0xFF : Address) <<< 8 ||| 0xFF) <<< 8 ||| 0xFC := by
    simp [start, startAt, Memory.readNumber_eq, gather, latched, keysAt, acrossTop,
      Memory.writeNumber_eq, scatter, writeBytes, AddressSpace.writeByte, Memory.read_write,
      Address.index]
  exact hbytes

theorem copyAt_acrossTop : copyAt (latched acrossTop 0x200) 0xFFFFFC = ⟨0x100, 0x200, 0x42⟩ := by
  have hbytes : copyAt (latched acrossTop 0x200) 0xFFFFFC =
        ⟨(1 : Address) <<< 8, (2 : Address) <<< 8, 0x42⟩ := by
    simp [copyAt, Memory.readNumber_eq, gather, latched, keysAt, acrossTop,
      Memory.writeNumber_eq, scatter, writeBytes, AddressSpace.writeByte, Memory.read_write,
      Address.index, Address.wrap]
  exact hbytes

theorem parked_acrossTop : Parked (latched acrossTop 0x200) 0xFFFFFC where
  next_eq := start_acrossTop
  dst_notMem := by
    rw [copyAt_acrossTop]
    rintro ⟨i, hi, h⟩
    interval_cases i <;> revert h <;> decide

theorem frame_of_parked_across_top :
    midFrame acrossTop 0x200 0 = (latched acrossTop 0x200, 0xFFFFFC) ∧
      Parked (latched acrossTop 0x200) 0xFFFFFC ∧
      (frame ⟨acrossTop, 0⟩ 0x200).2 = ⟨(latched acrossTop 0x200).write 0x200 0x42, 1⟩ ∧
      midFrame acrossTop 0x200 65535 = ((latched acrossTop 0x200).write 0x200 0x42, 0xFFFFFC) := by
  have hmid : midFrame acrossTop 0x200 0 = (latched acrossTop 0x200, 0xFFFFFC) :=
    Prod.ext rfl start_acrossTop
  obtain ⟨audio, video, final, hfinal, hframe, -, -, hstays⟩ :=
    frame_of_parked ⟨acrossTop, 0⟩ 0x200 (by decide) hmid parked_acrossTop
  have hcopied : final = afterCopy (latched acrossTop 0x200) 0xFFFFFC := hfinal
  rw [afterCopy, copyAt_acrossTop] at hcopied
  refine ⟨hmid, parked_acrossTop, ?_, ?_⟩
  · rw [hframe, hcopied]
  · rw [← hcopied]
    exact hstays 65535 (by decide)

end Machine

end CopyJump
