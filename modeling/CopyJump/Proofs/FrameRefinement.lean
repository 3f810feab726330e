import CopyJump.Proofs.CheckedSteps
import CopyJump.Proofs.Contents

namespace CopyJump

theorem setWidth_shiftLeft_or {w k : Nat} (h : w + k ≤ 32) (x : BitVec 32) (y : BitVec k) :
    (x <<< k ||| y.setWidth 32).setWidth (w + k) = x.setWidth w ++ y := by
  ext i hi
  simp only [BitVec.getElem_setWidth, BitVec.getLsbD_or, BitVec.getLsbD_shiftLeft,
    BitVec.getLsbD_setWidth, BitVec.getElem_append]
  have hi32 : i < 32 := by omega
  by_cases hk : i < k
  · simp [hk, hi32, BitVec.getLsbD_eq_getElem]
  · have hy : y.getLsbD i = false := BitVec.getLsbD_of_ge y i (by omega)
    simp [hk, hi32, hy]

theorem setWidth_shiftLeft {w k : Nat} (h : w + k ≤ 32) (x : BitVec 32) :
    (x <<< k).setWidth (w + k) = x.setWidth w ++ 0#k := by
  simpa using setWidth_shiftLeft_or h x 0#k

namespace Memory

open AddressSpace

theorem readNumber_eq (m : Memory) (a : Address) (n : Nat) :
    readNumber m a n = gather m.read n a 0 :=
  rfl

theorem writeNumber_eq (m : Memory) (a : Address) (value : UInt32) (n : Nat) :
    writeNumber m a value n = scatter write m a value n :=
  rfl

theorem numbersFit : Machine.NumbersFit Memory := .of_gather fun _ _ ↦ rfl

theorem setWidth_readNumber_one (m : Memory) (a : Address) :
    (readNumber m a 1).toBitVec.setWidth 8 = (m.contents a.place).toBitVec := by
  simp only [readNumber_eq, gather, ← read_eq_contents]
  simp

theorem setWidth_readNumber_two (m : Memory) (a : Address) :
    (readNumber m a 2).toBitVec.setWidth 16 =
      (m.contents a.place).toBitVec ++ (m.contents (a.place + 1)).toBitVec := by
  have hb : m.read (a + 1) = m.contents (a.place + 1) := by
    rw [read_eq_contents, Address.place_add]
    rfl
  have h := setWidth_shiftLeft_or (w := 8) (by decide) (readNumber m a 1).toBitVec
    (m.read (a + 1)).toBitVec
  rw [setWidth_readNumber_one, hb] at h
  rw [← h, ← hb]
  rfl

theorem place_readNumber_three (m : Memory) (a : Address) :
    Address.place (readNumber m a 3) = m.contents.field a.place := by
  have hb : m.read (a + 1 + 1) = m.contents (a.place + 2) := by
    rw [read_eq_contents, Address.place_add, Address.place_add, BitVec.add_assoc]
    rfl
  have h := setWidth_shiftLeft_or (w := 16) (by decide) (readNumber m a 2).toBitVec
    (m.read (a + 1 + 1)).toBitVec
  rw [setWidth_readNumber_two, hb] at h
  rw [Contents.field, ← h, ← hb]
  rfl

theorem place_audioPage (m : Memory) :
    Address.place (Machine.audioPage m) = m.contents.audioPlace := by
  have h := setWidth_shiftLeft (w := 16) (k := 8) (by decide)
    (readNumber m Machine.audioPageAt 2).toBitVec
  rw [setWidth_readNumber_two] at h
  exact h

theorem place_videoPage (m : Memory) :
    Address.place (Machine.videoPage m) = m.contents.videoPlace := by
  have h := setWidth_shiftLeft (w := 8) (k := 16) (by decide)
    (readNumber m Machine.videoPageAt 1).toBitVec
  rw [setWidth_readNumber_one] at h
  exact h

theorem contents_latch (m : Memory) (keys : UInt16) :
    (writeNumber m Machine.keysAt keys.toUInt32 2).contents = m.contents.latch keys := by
  have hhi : (keys.toUInt32.toNat >>> 8).toUInt8 = (keys >>> 8).toUInt8 := by
    apply UInt8.toNat_inj.mp
    simp
  have hlo : (keys.toUInt32.toNat >>> 0).toUInt8 = keys.toUInt8 := by
    apply UInt8.toNat_inj.mp
    simp
  show ((m.write 0 (keys.toUInt32.toNat >>> 8).toUInt8).write (0 + 1)
    (keys.toUInt32.toNat >>> 0).toUInt8).contents = _
  rw [contents_write, contents_write, hhi, hlo]
  rfl

end Memory

namespace Machine

open AddressSpace

def state (s : Memory × Address) : Contents.State := ⟨s.1.contents, s.2.place⟩

theorem contents_copyByte (m : Memory) (src dst : Address) :
    (copyByte m src dst).contents = m.contents.store dst.place (m.contents src.place) := by
  rw [← Memory.read_eq_contents]
  exact m.contents_write dst (m.read src)

theorem state_step (m : Memory) (pc : Address) :
    state (step m pc) = Contents.step (state (m, pc)) := by
  simp only [step, state, Contents.step, Memory.place_readNumber_three, Address.place_wrap,
    Address.place_add, contents_copyByte]
  rfl

theorem state_steps (n : Nat) (m : Memory) (pc : Address) :
    state (steps n m pc) = Contents.step^[n] (state (m, pc)) := by
  induction n generalizing m pc with
  | zero => rfl
  | succ n ih =>
    rw [Function.iterate_succ_apply, ← state_step]
    exact ih _ _

theorem place_start (m : Memory) : Address.place (start m) = m.contents.field 2 :=
  m.place_readNumber_three startAt

def midFrame (m : Memory) (keys : UInt16) (k : Nat) : Memory × Address :=
  steps k (latched m keys) (start (latched m keys))

theorem state_midFrame (m : Memory) (keys : UInt16) (k : Nat) :
    state (midFrame m keys k) = Contents.step^[k] (m.contents.frameStart keys) := by
  rw [midFrame, state_steps, state, place_start, latched, Memory.contents_latch,
    Contents.frameStart]

theorem advance_eq_midFrame (m : Memory) (keys : UInt16) :
    advance m keys = (midFrame m keys instructionsPerFrame).1 := by
  rw [advance_of_smooth (Memory.numbersFit.smoothFrame m keys), midFrame]

theorem contents_advance (m : Memory) (keys : UInt16) :
    (advance m keys).contents = m.contents.frame keys := by
  have h (n : Nat) : (midFrame m keys n).1.contents =
      (Contents.step^[n] (m.contents.frameStart keys)).contents :=
    congrArg Contents.State.contents (state_midFrame m keys n)
  rw [advance_eq_midFrame, h, Contents.frame_eq_fun, instructionsPerFrame]

theorem size_slice (m : Memory) (a : Address) (n : Nat) : (m.slice a n).size = n := by
  have h := congrArg List.length (m.toList_slice a n)
  rwa [Contents.length_page] at h

def frames (m : Memory) : AudioFrame × VideoFrame :=
  (⟨m.slice (audioPage m) audioSize, size_slice _ _ _⟩,
    ⟨m.slice (videoPage m) videoSize, size_slice _ _ _⟩)

theorem pages_eq_frames (m : Memory) : pages m = .ok (frames m) := by
  have haudio : AudioFrame.ofPage (readRange m (audioPage m) audioSize) = .ok (frames m).1 :=
    dif_pos (size_slice _ _ _)
  have hvideo : VideoFrame.ofPage (readRange m (videoPage m) videoSize) = .ok (frames m).2 :=
    dif_pos (size_slice _ _ _)
  simp only [pages, haudio, hvideo]
  rfl

theorem frame_eq (m : Memory) (n : Nat) (keys : UInt16) :
    frame ⟨m, n⟩ keys = (.ok (frames (advance m keys)), ⟨advance m keys, n + 1⟩) := by
  rw [frame_of_smooth (Memory.numbersFit.smoothFrame m keys), pages_eq_frames]

theorem toList_audio (m : Memory) :
    (frames m).1.bytes.data.toList = m.contents.page m.contents.audioPlace 256 := by
  rw [← Memory.place_audioPage, show 256 = audioSize from rfl, frames, Memory.toList_slice]

theorem toList_video (m : Memory) :
    (frames m).2.bytes.data.toList = m.contents.page m.contents.videoPlace 65536 := by
  rw [← Memory.place_videoPage, show 65536 = videoSize from rfl, frames, Memory.toList_slice]

/-- An instruction at `pc` leaves no range: its fields are named without overflow, and every
address that it may name is inside memory. -/
structure InRange (m : Memory) (pc : Address) : Prop where
  pc_lt : pc.toNat < addressSpaceSize
  toNat_dst : (pc + 3).toNat = pc.toNat + 3
  toNat_next : (pc + 6).toNat = pc.toNat + 6
  index_lt : ∀ a : Address, a.index < m.bytes.size

theorem inRange_of_lt (m : Memory) {pc : Address} (h : pc.toNat < addressSpaceSize) :
    InRange m pc := by
  have hadd (k : Address) (hk : k.toNat ≤ 6) : (pc + k).toNat = pc.toNat + k.toNat := by
    rw [UInt32.toNat_add]
    exact Nat.mod_eq_of_lt (by simp only [addressSpaceSize] at h; omega)
  exact ⟨h, hadd 3 (by decide), hadd 6 (by decide), m.index_lt_size⟩

theorem inRange_midFrame (m : Memory) (keys : UInt16) (k : Nat) :
    InRange (midFrame m keys k).1 (midFrame m keys k).2 :=
  inRange_of_lt _ (steps_snd_of_numbers (P := fun pc ↦ pc.toNat < addressSpaceSize)
    Memory.numbersFit k _ (Memory.numbersFit _ _))

/-- A frame runs 65536 specified instructions on the memory with the keys stored, from the place
that bytes 2 to 4 then name, and gives the pages that the memory at its end selects. The next frame
starts from bytes 2 to 4 again. -/
theorem frame_refines (m : Memory) (n : Nat) (keys : UInt16) :
    ∃ audio video final,
      frame ⟨m, n⟩ keys = (.ok (audio, video), ⟨final, n + 1⟩) ∧
      final.contents = m.contents.frame keys ∧
      audio.bytes.data.toList = final.contents.page final.contents.audioPlace 256 ∧
      video.bytes.data.toList = final.contents.page final.contents.videoPlace 65536 ∧
      (∀ k, state (midFrame m keys k) = Contents.step^[k] (m.contents.frameStart keys) ∧
        InRange (midFrame m keys k).1 (midFrame m keys k).2) ∧
      final = (midFrame m keys 65536).1 ∧
      ∀ next, (frame ⟨final, n + 1⟩ next).2.memory.contents =
        (m.contents.frame keys).frame next := by
  refine ⟨(frames (advance m keys)).1, (frames (advance m keys)).2, advance m keys,
    frame_eq m n keys, contents_advance m keys, toList_audio _, toList_video _,
    fun k ↦ ⟨state_midFrame m keys k, inRange_midFrame m keys k⟩, advance_eq_midFrame m keys, ?_⟩
  intro next
  simp only [frame_eq, contents_advance]

end Machine
end CopyJump
