import CopyJump.Proofs.Locality
import Mathlib.Data.Set.Card

namespace CopyJump

def keyBytes (keys : UInt16) : Set UInt8 := {(keys >>> 8).toUInt8, keys.toUInt8}

def inputBytes (inputs : List UInt16) : Set UInt8 := {b | ∃ keys ∈ inputs, b ∈ keyBytes keys}

theorem inputBytes_cons (keys : UInt16) (inputs : List UInt16) :
    inputBytes (keys :: inputs) = keyBytes keys ∪ inputBytes inputs := by
  ext b
  simp [inputBytes]

/-- The bytes of a ROM, and zero if it leaves room in memory. -/
def romBytes (rom : ByteArray) : Set UInt8 :=
  {b | b ∈ rom.data.toList ∨ rom.size < addressSpaceSize ∧ b = 0}

namespace Contents

theorem range_store_subset (m : Contents) (p : Place) (value : UInt8) :
    Set.range (m.store p value) ⊆ insert value (Set.range m) := by
  rintro b ⟨q, rfl⟩
  rw [store, Function.update_apply]
  split
  case isTrue => exact Set.mem_insert _ _
  case isFalse => exact Set.mem_insert_of_mem _ ⟨q, rfl⟩

theorem range_latch_subset (m : Contents) (keys : UInt16) :
    Set.range (m.latch keys) ⊆ Set.range m ∪ keyBytes keys := by
  intro b hb
  have hlow := range_store_subset _ _ _ hb
  rcases hlow with rfl | hb
  · exact Or.inr (Or.inr rfl)
  have hhigh := range_store_subset _ _ _ hb
  rcases hhigh with rfl | hb
  · exact Or.inr (Or.inl rfl)
  · exact Or.inl hb

theorem range_step_subset (s : State) : Set.range (step s).contents ⊆ Set.range s.contents := by
  intro b hb
  have hstore := range_store_subset _ _ _ hb
  rcases hstore with rfl | hb
  · -- the byte copied: it is in memory, where it is copied from
    exact ⟨_, rfl⟩
  · exact hb

theorem range_steps_subset (n : Nat) (s : State) :
    Set.range (step^[n] s).contents ⊆ Set.range s.contents := by
  induction n with
  | zero => exact subset_rfl
  | succ n ih =>
    rw [Function.iterate_succ_apply']
    exact (range_step_subset _).trans ih

theorem range_frame_subset (m : Contents) (keys : UInt16) :
    Set.range (m.frame keys) ⊆ Set.range m ∪ keyBytes keys := by
  have hsteps := range_steps_subset 65536 (m.frameStart keys)
  rw [frame_eq_fun]
  exact hsteps.trans (m.range_latch_subset keys)

theorem mem_range_of_mem_page {m : Contents} {p : Place} {n : Nat} {b : UInt8}
    (h : b ∈ m.page p n) : b ∈ Set.range m := by
  rw [page, List.mem_map] at h
  obtain ⟨i, -, rfl⟩ := h
  exact ⟨_, rfl⟩

end Contents

namespace Memory

theorem range_ofRom_subset {rom : ByteArray} {m : Memory} (h : ofRom rom = .ok m) :
    Set.range m.contents ⊆ romBytes rom := by
  rintro b ⟨p, rfl⟩
  have hread := read_ofRom h (.ofPlace p)
  rw [read_eq_contents, Address.index_eq_toNat_place, Address.place_ofPlace] at hread
  rw [hread]
  split
  case isTrue hlt => exact Or.inl (Array.getElem_mem_toList hlt)
  case isFalse hge =>
    have hp := p.isLt
    exact Or.inr ⟨Nat.lt_of_le_of_lt (Nat.le_of_not_lt hge) hp, rfl⟩

theorem encard_targets_le (copies : List Copy) : (targets copies).encard ≤ copies.length := by
  induction copies with
  | nil => simp [targets]
  | cons c copies ih =>
    rw [targets_cons, List.length_cons, Nat.cast_succ]
    exact (Set.encard_insert_le _ _).trans (add_le_add_left ih 1)

end Memory

namespace Machine

open Contents

theorem encard_frameWrites_le (m : Memory) (keys : UInt16) :
    (frameWrites m keys).encard ≤ 65538 := by
  have hkeys : ({0, 1} : Set Place).encard ≤ 2 := le_of_eq (Set.encard_pair (by decide))
  have hcopies := Memory.encard_targets_le (frameCopies m keys)
  rw [(frameTrace m keys).length_eq] at hcopies
  rw [frameWrites]
  exact (Set.encard_union_le _ _).trans (add_le_add hkeys hcopies)

theorem encard_changed_le (m : Memory) (keys : UInt16) :
    {p | (advance m keys).contents p ≠ m.contents p}.encard ≤ 65538 := by
  have hwrites : {p | (advance m keys).contents p ≠ m.contents p} ⊆ frameWrites m keys := by
    intro p hp
    by_contra hunwritten
    exact hp (eqOn_advance_self m keys hunwritten)
  exact (Set.encard_le_encard hwrites).trans (encard_frameWrites_le m keys)

theorem range_foldl_advance_subset (m : Memory) (inputs : List UInt16) :
    Set.range (inputs.foldl advance m).contents ⊆ Set.range m.contents ∪ inputBytes inputs := by
  induction inputs generalizing m with
  | nil => exact Set.subset_union_left
  | cons keys inputs ih =>
    have hfirst := m.contents.range_frame_subset keys
    rw [← contents_advance] at hfirst
    rw [List.foldl_cons, inputBytes_cons, ← Set.union_assoc]
    exact (ih _).trans (Set.union_subset_union_left _ hfirst)

theorem frame_shows (vm : Machine Memory) (keys : UInt16) :
    ∃ audio video vm', vm.frame keys = (.ok (audio, video), vm') ∧ vm' = vm.advanceOver [keys] ∧
      {b | b ∈ audio.bytes.data.toList} ⊆ Set.range vm'.memory.contents ∧
      {b | b ∈ video.bytes.data.toList} ⊆ Set.range vm'.memory.contents ∧
      {p | vm'.memory.contents p ≠ vm.memory.contents p}.encard ≤ 65538 := by
  obtain ⟨m, n⟩ := vm
  have hframe := frame_eq m n keys
  have hchanged := encard_changed_le m keys
  have hahead : advanceOver ⟨m, n⟩ [keys] = ⟨advance m keys, n + 1⟩ := by
    rw [advanceOver_singleton, hframe]
  generalize advance m keys = final at hframe hchanged hahead
  refine ⟨(frames final).1, (frames final).2, ⟨final, n + 1⟩, hframe, hahead.symm, ?_, ?_, hchanged⟩
  · intro b hb
    rw [Set.mem_ofPred_eq, toList_audio] at hb
    exact mem_range_of_mem_page hb
  · intro b hb
    rw [Set.mem_ofPred_eq, toList_video] at hb
    exact mem_range_of_mem_page hb

theorem load_eq_ok (vm : Machine Memory) {rom : ByteArray} (fits : rom.size ≤ addressSpaceSize) :
    ∃ m, Memory.ofRom rom = .ok m ∧ vm.load rom = (.ok (), { vm with memory := m }) := by
  have hrom : Memory.ofRom rom = .ok ⟨Memory.image rom, Memory.size_image fits⟩ := dif_pos fits
  refine ⟨_, hrom, ?_⟩
  have hload : AddressSpace.load vm.memory rom = vm.memory.load rom := rfl
  rw [load, hload, Memory.load_of_ofRom hrom]

/-- Whatever a ROM does with whatever keys, the bytes in memory and those of each frame's sound and
picture are bytes of the ROM, zero if it leaves room in memory, or bytes of the keys so far. No
frame changes more of memory than its keys and its copies account for. -/
theorem bytes_supplied (vm : Machine Memory) (rom : ByteArray)
    (fits : rom.size ≤ addressSpaceSize) :
    ∃ loaded, vm.load rom = (.ok (), loaded) ∧
      ∀ inputs, Set.range (loaded.advanceOver inputs).memory.contents ⊆
          romBytes rom ∪ inputBytes inputs ∧
        ∀ keys, ∃ audio video vm',
          (loaded.advanceOver inputs).frame keys = (.ok (audio, video), vm') ∧
          vm' = loaded.advanceOver (inputs ++ [keys]) ∧
          {b | b ∈ audio.bytes.data.toList} ⊆ romBytes rom ∪ inputBytes (inputs ++ [keys]) ∧
          {b | b ∈ video.bytes.data.toList} ⊆ romBytes rom ∪ inputBytes (inputs ++ [keys]) ∧
          {p | vm'.memory.contents p ≠
            (loaded.advanceOver inputs).memory.contents p}.encard ≤ 65538 := by
  obtain ⟨m, hrom, hload⟩ := vm.load_eq_ok fits
  refine ⟨_, hload, fun inputs ↦ ?_⟩
  have hmemory (inputs : List UInt16) :
      Set.range (advanceOver { vm with memory := m } inputs).memory.contents ⊆
        romBytes rom ∪ inputBytes inputs := by
    rw [memory_advanceOver]
    exact (range_foldl_advance_subset m inputs).trans
      (Set.union_subset_union_left _ (Memory.range_ofRom_subset hrom))
  refine ⟨hmemory inputs, fun keys ↦ ?_⟩
  obtain ⟨audio, video, vm', hframe, hahead, haudio, hvideo, hchanged⟩ :=
    frame_shows (advanceOver { vm with memory := m } inputs) keys
  rw [← advanceOver_append] at hahead
  have hafter := hmemory (inputs ++ [keys])
  rw [← hahead] at hafter
  exact ⟨audio, video, vm', hframe, hahead, haudio.trans hafter, hvideo.trans hafter, hchanged⟩

theorem bytes_supplied_of_short_rom :
    let vm : Machine Memory := ⟨.blank, 3⟩
    let rom : ByteArray := ⟨#[0, 0, 0, 0, 5, 0, 1, 0, 2]⟩
    rom.size ≤ addressSpaceSize ∧
      ∃ loaded, vm.load rom = (.ok (), loaded) ∧
        ∀ p, (loaded.advanceOver [0x1234, 0x00FF]).memory.contents p ≠ 7 := by
  intro vm rom
  have fits : rom.size ≤ addressSpaceSize := by decide
  obtain ⟨loaded, hload, hbytes⟩ := bytes_supplied vm rom fits
  refine ⟨fits, loaded, hload, ?_⟩
  intro p hseven
  have hp : (7 : UInt8) ∈ romBytes rom ∪ inputBytes [0x1234, 0x00FF] :=
    (hbytes [0x1234, 0x00FF]).1 ⟨p, hseven⟩
  rcases hp with (hrom | ⟨-, hzero⟩) | ⟨keys, hkeys, hbyte⟩
  · exact absurd hrom (by decide)
  · exact absurd hzero (by decide)
  · rw [List.mem_pair] at hkeys
    rcases hkeys with rfl | rfl
    · rcases hbyte with h | h <;> exact absurd h (by decide)
    · rcases hbyte with h | h <;> exact absurd h (by decide)

end Machine

end CopyJump
