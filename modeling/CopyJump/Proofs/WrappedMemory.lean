import CopyJump.Memory.Metered
import CopyJump.Proofs.FrameRefinement
import CopyJump.Source

namespace CopyJump

theorem toList_collect (read : Address → UInt8) (a : Address) (n : Nat) (acc : ByteArray) :
    (collect read a n acc).data.toList =
      acc.data.toList ++ (List.range n).map fun i ↦ read (a + UInt32.ofNat i) := by
  induction n generalizing a acc with
  | zero => simp [collect]
  | succ n ih =>
    have hpush : (acc.push (read a)).data.toList = acc.data.toList ++ [read a] :=
      Array.toList_push
    have hfirst : read (a + UInt32.ofNat 0) = read a := congrArg read (UInt32.add_zero a)
    have hrest (i : Nat) : read (a + UInt32.ofNat (i + 1)) = read (a + 1 + UInt32.ofNat i) := by
      rw [Nat.add_comm, UInt32.ofNat_add, ← UInt32.add_assoc]
      rfl
    rw [collect, ih, hpush, List.range_succ_eq_map, List.map_cons, List.map_map, hfirst,
      List.append_assoc, List.singleton_append]
    congr 2
    apply List.map_congr_left
    intro i _
    exact (hrest i).symm

theorem Address.place_ofNat (i : Nat) : Address.place (UInt32.ofNat i) = BitVec.ofNat 24 i := by
  apply BitVec.eq_of_toNat_eq
  rw [place, BitVec.toNat_setWidth, BitVec.toNat_ofNat]
  show i % 2 ^ 32 % 2 ^ 24 = i % 2 ^ 24
  exact Nat.mod_mod_of_dvd i (by decide)

namespace Memory

/-- A range byte by byte and in pieces. Both go round the top of memory: the one because addresses
wrap, the other because it starts again at address 0. -/
theorem collect_eq_slice (m : Memory) (a : Address) (n : Nat) :
    collect m.read a n .empty = m.slice a n := by
  apply ByteArray.ext
  apply Array.toList_inj.mp
  rw [toList_collect, toList_slice, Contents.page]
  simp only [read_eq_contents, Address.place_add, Address.place_ofNat]
  rfl

theorem readEach_eq_slice (m : Memory) (a : Address) {n : Nat} (h : n < 2 ^ 32) :
    readEach m.read a n = m.slice a n := by
  have hn : n.toUInt32.toNat = n := UInt32.toNat_ofNat_of_lt' h
  rw [readEach, hn, collect_eq_slice]

end Memory

open AddressSpace

variable {M : Type} [AddressSpace M] {inner : M → Memory}

/-- Memory that hands bytes and loads on to a plain memory inside, and reads and writes numbers and
ranges byte by byte. What it keeps beside that memory is its own matter. -/
structure Wraps (inner : M → Memory) : Prop where
  readByte (m : M) (a : Address) : readByte m a = (inner m).read a
  writeByte (m : M) (a : Address) (value : UInt8) :
    inner (writeByte m a value) = (inner m).write a value
  copyByte (m : M) (src dst : Address) :
    inner (copyByte m src dst) = (inner m).write dst ((inner m).read src)
  load (m : M) (rom : ByteArray) : (load m rom).map id inner = (inner m).load rom
  readNumber (m : M) (a : Address) (n : Nat) :
    readNumber m a n = gather (AddressSpace.readByte m) n a 0
  writeNumber (m : M) (a : Address) (value : UInt32) (n : Nat) :
    writeNumber m a value n = scatter AddressSpace.writeByte m a value n
  readRange (m : M) (a : Address) (n : Nat) : readRange m a n = readEach (AddressSpace.readByte m) a n

namespace Wraps

theorem readByte_eq (wraps : Wraps inner) (m : M) :
    AddressSpace.readByte m = (inner m).read :=
  funext fun a ↦ wraps.readByte m a

theorem readNumber_eq (wraps : Wraps inner) (m : M) (a : Address) (n : Nat) :
    AddressSpace.readNumber m a n = AddressSpace.readNumber (inner m) a n := by
  rw [wraps.readNumber, wraps.readByte_eq, Memory.readNumber_eq]

theorem scatter_eq (wraps : Wraps inner) (m : M) (a : Address) (value : UInt32) (n : Nat) :
    inner (scatter AddressSpace.writeByte m a value n) =
      scatter Memory.write (inner m) a value n := by
  induction n generalizing m a with
  | zero => rfl
  | succ n ih => rw [scatter, scatter, ih, wraps.writeByte]

theorem writeNumber_eq (wraps : Wraps inner) (m : M) (a : Address) (value : UInt32) (n : Nat) :
    inner (AddressSpace.writeNumber m a value n) =
      AddressSpace.writeNumber (inner m) a value n := by
  rw [wraps.writeNumber, wraps.scatter_eq, Memory.writeNumber_eq]

theorem numbersFit (wraps : Wraps inner) : Machine.NumbersFit M :=
  .of_gather fun m a ↦ wraps.readNumber m a 3

theorem readRange_eq_slice (wraps : Wraps inner) (m : M) (a : Address) {n : Nat}
    (h : n < 2 ^ 32) : AddressSpace.readRange m a n = (inner m).slice a n := by
  rw [wraps.readRange, wraps.readByte_eq, Memory.readEach_eq_slice _ _ h]

theorem loadFrom {S : Type} [Source S] (wraps : Wraps inner) (m : M) (source : S) :
    (loadFrom m source).map id inner = AddressSpace.loadFrom (inner m) source := by
  rw [AddressSpace.loadFrom, AddressSpace.loadFrom]
  cases fetch fetchLimit source .empty with
  | error fault => rfl
  | ok program => exact wraps.load m program

end Wraps

theorem Metered.wraps : Wraps Metered.memory where
  readByte _ _ := rfl
  writeByte _ _ _ := rfl
  copyByte _ _ _ := rfl
  load _ _ := rfl
  readNumber _ _ _ := rfl
  writeNumber _ _ _ _ := rfl
  readRange _ _ _ := rfl

namespace Machine

theorem step_wraps (wraps : Wraps inner) (m : M) (pc : Address) :
    (inner (step m pc).1, (step m pc).2) = step (inner m) pc := by
  simp only [step, wraps.readNumber_eq, wraps.copyByte]
  rfl

theorem steps_wraps (wraps : Wraps inner) (n : Nat) (m : M) (pc : Address) :
    (inner (steps n m pc).1, (steps n m pc).2) = steps n (inner m) pc := by
  induction n generalizing m pc with
  | zero => rfl
  | succ n ih =>
    rw [steps, steps, ← step_wraps wraps]
    exact ih _ _

theorem start_wraps (wraps : Wraps inner) (m : M) : start m = start (inner m) :=
  wraps.readNumber_eq m startAt 3

theorem latched_wraps (wraps : Wraps inner) (m : M) (keys : UInt16) :
    inner (latched m keys) = latched (inner m) keys :=
  wraps.writeNumber_eq m keysAt keys.toUInt32 2

theorem advance_wraps (wraps : Wraps inner) (m : M) (keys : UInt16) :
    inner (advance m keys) = advance (inner m) keys := by
  -- For every number of instructions, so that those of a frame are never run here.
  have hsteps (n : Nat) (m : M) : inner (steps n m (start m)).1 =
      (steps n (inner m) (start (inner m))).1 := by
    rw [start_wraps wraps, ← steps_wraps wraps]
  rw [advance_of_smooth (wraps.numbersFit.smoothFrame m keys),
    advance_of_smooth (Memory.numbersFit.smoothFrame (inner m) keys), hsteps, latched_wraps wraps]

theorem pages_wraps (wraps : Wraps inner) (m : M) : pages m = pages (inner m) := by
  -- The sizes of the pages are far below 2^32, so that reading byte by byte loses nothing.
  have haudio : readRange m (audioPage m) audioSize =
      readRange (inner m) (audioPage (inner m)) audioSize := by
    rw [wraps.readRange_eq_slice _ _ (by decide), audioPage, wraps.readNumber_eq]
    rfl
  have hvideo : readRange m (videoPage m) videoSize =
      readRange (inner m) (videoPage (inner m)) videoSize := by
    rw [wraps.readRange_eq_slice _ _ (by decide), videoPage, wraps.readNumber_eq]
    rfl
  rw [pages, pages, haudio, hvideo]

def inside (inner : M → Memory) (vm : Machine M) : Machine Memory := ⟨inner vm.memory, vm.framesRun⟩

theorem frame_wraps (wraps : Wraps inner) (vm : Machine M) (keys : UInt16) :
    (vm.frame keys).1 = ((vm.inside inner).frame keys).1 ∧
      (vm.frame keys).2.inside inner = ((vm.inside inner).frame keys).2 := by
  obtain ⟨m, n⟩ := vm
  rw [frame_of_smooth (wraps.numbersFit.smoothFrame m keys), inside,
    frame_of_smooth (Memory.numbersFit.smoothFrame (inner m) keys), ← advance_wraps wraps,
    ← pages_wraps wraps, inside]
  exact ⟨rfl, rfl⟩

/-- What can be asked of a machine. Lengths of ranges are words, as addresses are. -/
inductive Access (S : Type)
  | load (rom : ByteArray)
  | loadFrom (source : S)
  | read (a : Address)
  | write (a : Address) (value : UInt8)
  | copy (src dst : Address)
  | readNumber (a : Address) (size : Nat)
  | writeNumber (a : Address) (value : UInt32) (size : Nat)
  | readRange (a : Address) (length : UInt32)
  | frame (keys : UInt16)

inductive Answer
  | done
  | byte (value : UInt8)
  | number (value : UInt32)
  | range (bytes : ByteArray)
  | shown (audio : AudioFrame) (video : VideoFrame)

variable {S : Type} [Source S]

def store (vm : Machine M) : Except Error Unit × M → Except Error Answer × Machine M
  | (result, memory) => (result.map fun () ↦ .done, { vm with memory })

def access (vm : Machine M) : Access S → Except Error Answer × Machine M
  | .load rom =>
    let (result, vm) := vm.load rom
    (result.map fun () ↦ .done, vm)
  | .loadFrom source => vm.store (loadFrom vm.memory source)
  | .read a => (.ok (.byte (readByte vm.memory a)), vm)
  | .write a value => vm.store (.ok (), writeByte vm.memory a value)
  | .copy src dst => vm.store (.ok (), copyByte vm.memory src dst)
  | .readNumber a size => ((readNumber? vm.memory a size).map .number, vm)
  | .writeNumber a value size => vm.store (writeNumber? vm.memory a value size)
  | .readRange a length => (.ok (.range (readRange vm.memory a length.toNat)), vm)
  | .frame keys =>
    let (result, vm) := vm.frame keys
    (result.map fun (audio, video) ↦ .shown audio video, vm)

def accessAll (vm : Machine M) : List (Access S) → List (Except Error Answer) × Machine M
  | [] => ([], vm)
  | a :: rest =>
    let (answer, vm) := vm.access a
    let (answers, vm) := vm.accessAll rest
    (answer :: answers, vm)

def Agree {A : Type} (inner : M → Memory) (wrapped : A × Machine M) (plain : A × Machine Memory) :
    Prop :=
  wrapped.1 = plain.1 ∧ wrapped.2.inside inner = plain.2

omit [AddressSpace M] in
theorem agree_store {stored : Except Error Unit × M} {stored' : Except Error Unit × Memory}
    (h : stored.map id inner = stored') (vm : Machine M) :
    Agree inner (vm.store stored) ((vm.inside inner).store stored') := by
  subst h
  exact ⟨rfl, rfl⟩

theorem access_wraps (wraps : Wraps inner) (vm : Machine M) (a : Access S) :
    Agree inner (vm.access a) ((vm.inside inner).access a) := by
  cases a with
  | load rom => exact agree_store (wraps.load vm.memory rom) vm
  | loadFrom source => exact agree_store (wraps.loadFrom vm.memory source) vm
  | read a => exact ⟨congrArg (Except.ok ∘ Answer.byte) (wraps.readByte vm.memory a), rfl⟩
  | write a value => exact agree_store (congrArg (Prod.mk _) (wraps.writeByte vm.memory a value)) vm
  | copy src dst => exact agree_store (congrArg (Prod.mk _) (wraps.copyByte vm.memory src dst)) vm
  | readNumber a size =>
    refine ⟨?_, rfl⟩
    simp only [access, readNumber?, wraps.readNumber_eq]
    rfl
  | writeNumber a value size =>
    have hnumber := wraps.writeNumber_eq vm.memory a value size
    have hstored : (writeNumber? vm.memory a value size).map id inner =
        writeNumber? (inner vm.memory) a value size := by
      unfold writeNumber?
      split
      · exact congrArg (Prod.mk _) hnumber
      · rfl
    exact agree_store hstored vm
  | readRange a length =>
    refine ⟨?_, rfl⟩
    simp only [access, wraps.readRange_eq_slice vm.memory a length.toNat_lt]
    rfl
  | frame keys =>
    obtain ⟨hshown, hvm⟩ := frame_wraps wraps vm keys
    simp only [access, hshown, ← hvm]
    exact ⟨rfl, rfl⟩

/-- Around a memory and in it, the same accesses get the same answers and leave the same bytes. A
range in pieces, as plain memory reads it, is the range byte by byte. -/
theorem accessAll_wraps (wraps : Wraps inner) (vm : Machine M) (accesses : List (Access S)) :
    (vm.accessAll accesses).1 = ((vm.inside inner).accessAll accesses).1 ∧
      inner (vm.accessAll accesses).2.memory =
        ((vm.inside inner).accessAll accesses).2.memory ∧
      (vm.accessAll accesses).2.framesRun =
        ((vm.inside inner).accessAll accesses).2.framesRun ∧
      ∀ (m : Memory) (a : Address) (length : UInt32),
        readRange m a length.toNat = readEach (readByte m) a length.toNat := by
  have hrange (m : Memory) (a : Address) (length : UInt32) :
      readRange m a length.toNat = readEach (readByte m) a length.toNat :=
    (m.readEach_eq_slice a length.toNat_lt).symm
  have hagree : Agree inner (vm.accessAll accesses) ((vm.inside inner).accessAll accesses) := by
    induction accesses generalizing vm with
    | nil => exact ⟨rfl, rfl⟩
    | cons a rest ih =>
      obtain ⟨hanswer, hvm⟩ := access_wraps wraps vm a
      have hrest := ih (vm.access a).2
      rw [hvm] at hrest
      exact ⟨congrArg₂ List.cons hanswer hrest.1, hrest.2⟩
  obtain ⟨hanswers, hvm⟩ := hagree
  exact ⟨hanswers, congrArg Machine.memory hvm, congrArg Machine.framesRun hvm, hrange⟩

theorem accessAll_wraps_of_metered :
    let accesses : List (Access Trickle) :=
      [.write 0xFFFFFF 7, .copy 0x1FFFFFF 0, .readRange 0xFFFFFF 0x1000002, .frame 1]
    let counting : Machine Metered := ⟨⟨.blank, 1, 0, 0, #[]⟩, 0⟩
    let plain : Machine Memory := ⟨.blank, 0⟩
    Wraps Metered.memory ∧
      (counting.accessAll accesses).1 = (plain.accessAll accesses).1 ∧
      (counting.accessAll accesses).2.memory.memory = (plain.accessAll accesses).2.memory := by
  intro accesses counting plain
  have hagree := accessAll_wraps Metered.wraps counting accesses
  exact ⟨Metered.wraps, hagree.1, hagree.2.1⟩

end Machine

end CopyJump
