import CopyJump.Memory.Metered
import CopyJump.Proofs.ColourGroups
import CopyJump.Proofs.FrameCalls

namespace CopyJump

inductive SizeChecked {α : Type} (bytesOf : α → ByteArray) (size : Nat) (refusal : Nat → Error)
    (bytes : ByteArray) : Except Error α → Prop
  | taken (frame : α) (size_eq : bytes.size = size) (bytes_eq : bytesOf frame = bytes) :
    SizeChecked bytesOf size refusal bytes (.ok frame)
  | refused (size_ne : bytes.size ≠ size) :
    SizeChecked bytesOf size refusal bytes (.error (refusal bytes.size))

theorem SizeChecked.of_check {α : Type} {bytesOf : α → ByteArray} {size : Nat}
    {refusal : Nat → Error} {bytes : ByteArray} {frame : bytes.size = size → α}
    (hframe : ∀ h, bytesOf (frame h) = bytes) :
    SizeChecked bytesOf size refusal bytes
      (if h : bytes.size = size then .ok (frame h) else .error (refusal bytes.size)) := by
  split
  · next h => exact .taken _ h (hframe h)
  · next h => exact .refused h

theorem AudioFrame.sizeChecked_ofBytes? (bytes : ByteArray) :
    SizeChecked AudioFrame.bytes 256 (.frameSize 256) bytes (AudioFrame.ofBytes? bytes) :=
  .of_check fun _ ↦ rfl

theorem AudioFrame.sizeChecked_ofPage (page : ByteArray) :
    SizeChecked AudioFrame.bytes 256 .audioPage page (AudioFrame.ofPage page) :=
  .of_check fun _ ↦ rfl

theorem VideoFrame.sizeChecked_ofBytes? (bytes : ByteArray) :
    SizeChecked VideoFrame.bytes 65536 (.frameSize 65536) bytes (VideoFrame.ofBytes? bytes) :=
  .of_check fun _ ↦ rfl

theorem VideoFrame.sizeChecked_ofPage (page : ByteArray) :
    SizeChecked VideoFrame.bytes 65536 .videoPage page (VideoFrame.ofPage page) :=
  .of_check fun _ ↦ rfl

theorem flatMap_windows {α : Type} (l : List α) (k n : Nat) :
    (List.range n).flatMap (fun i ↦ (l.drop (i * k)).take k) = l.take (n * k) := by
  induction n with
  | zero => simp
  | succ n ih =>
    rw [List.range_succ, List.flatMap_append, ih, List.flatMap_singleton, Nat.succ_mul,
      List.take_add]

namespace VideoFrame

structure Tiled (f : VideoFrame) : Prop where
  length_rows : f.rows.length = 256
  size_row : ∀ row ∈ f.rows, row.size = 256
  flatten_rows : f.rows.flatMap (·.data.toList) = f.bytes.data.toList
  pixel_in_bytes : ∀ x y : UInt8, f.bytes[y.toNat * 256 + x.toNat]? = some (f.pixel x y)
  pixel_in_row : ∀ x y : UInt8,
    ∃ row, f.rows[y.toNat]? = some row ∧ row[x.toNat]? = some (f.pixel x y)

theorem toList_row_eq_window (f : VideoFrame) (y : Nat) :
    (f.row y).data.toList = (f.bytes.data.toList.drop (y * 256)).take 256 := by
  rw [row, screenWidth, ByteArray.data_extract, Array.toList_extract]
  simp [List.extract_eq_take_drop]

theorem size_row (f : VideoFrame) {y : Nat} (hy : y < 256) : (f.row y).size = 256 := by
  have hlength := congrArg List.length (f.toList_row hy)
  rw [List.length_map, List.length_range] at hlength
  exact hlength

theorem tiled (f : VideoFrame) : f.Tiled where
  length_rows := by rw [rows, List.length_map, List.length_range, screenHeight]
  size_row := by
    intro row hrow
    obtain ⟨y, hy, rfl⟩ := List.mem_map.mp hrow
    exact f.size_row (List.mem_range.mp hy)
  flatten_rows := by
    have hsize : f.bytes.data.toList.length = 256 * 256 := f.size_eq
    simp only [rows, List.flatMap_map, toList_row_eq_window]
    rw [flatMap_windows, screenHeight, ← hsize, List.take_length]
  pixel_in_bytes := fun x y ↦ getElem?_pos f.bytes _ (f.offset_lt x y)
  pixel_in_row := by
    intro x y
    have hx : x.toNat < (f.row y.toNat).size := by
      rw [f.size_row y.toNat_lt]
      exact x.toNat_lt
    refine ⟨f.row y.toNat, ?_, ?_⟩
    · simp [rows, screenHeight, y.toNat_lt]
    · rw [getElem?_pos (f.row y.toNat) x.toNat hx]
      exact congrArg some (ByteArray.getElem_extract hx)

end VideoFrame

inductive Paged (audio video : ByteArray) : Except Error (AudioFrame × VideoFrame) → Prop
  | noSound (h : audio.size ≠ 256) : Paged audio video (.error (.audioPage audio.size))
  | noPicture (haudio : audio.size = 256) (hvideo : video.size ≠ 65536) :
    Paged audio video (.error (.videoPage video.size))
  | whole (sound : AudioFrame) (picture : VideoFrame)
      (haudio : audio.size = 256) (hvideo : video.size = 65536)
      (hsound : sound.bytes = audio) (hpicture : picture.bytes = video) :
    Paged audio video (.ok (sound, picture))

theorem Paged.sizes {audio video : ByteArray} {frame : AudioFrame × VideoFrame}
    (h : Paged audio video (.ok frame)) : audio.size = 256 ∧ video.size = 65536 := by
  cases h with
  | whole _ _ haudio hvideo => exact ⟨haudio, hvideo⟩

namespace Machine

def ofPages (audio video : ByteArray) : Except Error (AudioFrame × VideoFrame) := do
  let audio ← AudioFrame.ofPage audio
  let video ← VideoFrame.ofPage video
  return (audio, video)

theorem paged_ofPages (audio video : ByteArray) : Paged audio video (ofPages audio video) := by
  have haudio := AudioFrame.sizeChecked_ofPage audio
  have hvideo := VideoFrame.sizeChecked_ofPage video
  unfold ofPages
  generalize AudioFrame.ofPage audio = sound at haudio ⊢
  generalize VideoFrame.ofPage video = picture at hvideo ⊢
  cases haudio with
  | refused haudio => exact .noSound haudio
  | taken sound haudio hsound =>
    cases hvideo with
    | refused hvideo => exact .noPicture haudio hvideo
    | taken picture hvideo hpicture => exact .whole sound picture haudio hvideo hsound hpicture

variable {M F : Type} [AddressSpace M] [FrontEnd F]

open AddressSpace

def audioBytes (m : M) : ByteArray := readRange m (audioPage m) audioSize
def videoBytes (m : M) : ByteArray := readRange m (videoPage m) videoSize

theorem pages_eq_ofPages (m : M) : pages m = ofPages (audioBytes m) (videoBytes m) :=
  rfl

theorem paged_pages (m : M) : Paged (audioBytes m) (videoBytes m) (pages m) := by
  rw [pages_eq_ofPages]
  exact paged_ofPages _ _

/-- What a frame comes to: its two pages, or an overflow before they are looked at. -/
inductive Outcome (vm : Machine M) (keys : UInt16) :
    Except Error (AudioFrame × VideoFrame) → Machine M → Prop
  | overflow (hover : ¬SmoothFrame vm.memory keys) :
    Outcome vm keys (.error .addressOverflow) ⟨advance vm.memory keys, vm.framesRun⟩
  | finished {frame} (hsmooth : SmoothFrame vm.memory keys)
      (hpages : Paged (audioBytes (advance vm.memory keys)) (videoBytes (advance vm.memory keys))
        frame) :
    Outcome vm keys frame ⟨advance vm.memory keys, vm.framesRun + 1⟩

theorem frame_outcome (vm : Machine M) (keys : UInt16) :
    Outcome vm keys (vm.frame keys).1 (vm.frame keys).2 := by
  obtain ⟨m, n⟩ := vm
  by_cases h : SmoothFrame m keys
  · rw [frame_of_smooth h]
    exact .finished h (paged_pages _)
  · rw [frame_of_not_smooth h]
    exact .overflow h

theorem number_of_overflow {m : M} {keys : UInt16} (h : ¬SmoothFrame m keys) :
    ∃ (m' : M) (a : Address), 2 ^ 32 - 6 ≤ (readNumber m' a 3).toNat := by
  by_contra hlow
  refine h (smoothFrame_of_fits (fun m' a ↦ ?_) m keys)
  rw [Address.fits, decide_eq_true_iff]
  have hroom : ¬2 ^ 32 - 6 ≤ (readNumber m' a 3).toNat := fun hhigh ↦ hlow ⟨m', a, hhigh⟩
  have hsize : UInt32.size = 2 ^ 32 := rfl
  omega

def handOver (frame : Except Error (AudioFrame × VideoFrame)) (f : F) : Except Error Unit × F :=
  match frame with
  | .error e => (.error e, f)
  | .ok (audio, video) =>
    match FrontEnd.takeAudio f audio with
    | (.error e, f) => (.error e, f)
    | (.ok (), f) => FrontEnd.takeVideo f video

theorem run_eq_handOver (vm : Machine M) (keys : UInt16) (f : F) :
    vm.run keys f =
      ((handOver (vm.frame keys).1 f).1, (vm.frame keys).2, (handOver (vm.frame keys).1 f).2) := by
  unfold run handOver
  rcases vm.frame keys with ⟨e | ⟨audio, video⟩, vm'⟩
  · rfl
  dsimp only
  rcases FrontEnd.takeAudio f audio with ⟨e | _, f'⟩ <;> rfl

inductive HandedOver (frame : Except Error (AudioFrame × VideoFrame)) (f : F) :
    List PortCall → Except Error Unit → F → Prop
  | nothing {e} (hframe : frame = .error e) : HandedOver frame f [] (.error e) f
  | sound {sound picture e f'} (hframe : frame = .ok (sound, picture))
      (haudio : FrontEnd.takeAudio f sound = (.error e, f')) :
    HandedOver frame f [.audio sound (.error e)] (.error e) f'
  | both {sound picture result f' f''} (hframe : frame = .ok (sound, picture))
      (haudio : FrontEnd.takeAudio f sound = (.ok (), f'))
      (hvideo : FrontEnd.takeVideo f' picture = (result, f'')) :
    HandedOver frame f [.audio sound (.ok ()), .video picture result] result f''

theorem handOver_calls (frame : Except Error (AudioFrame × VideoFrame)) (o : Overheard F) :
    ∃ calls result f, handOver frame o = (result, ⟨f, o.calls ++ calls⟩) ∧
      handOver frame o.inner = (result, f) ∧ HandedOver frame o.inner calls result f := by
  unfold handOver
  rcases frame with e | ⟨sound, picture⟩
  · exact ⟨[], _, o.inner, by rw [List.append_nil], rfl, .nothing rfl⟩
  dsimp only
  rcases haudio : FrontEnd.takeAudio o.inner sound with ⟨e | _, f'⟩
  · rw [Overheard.takeAudio_eq haudio]
    exact ⟨_, _, f', rfl, rfl, .sound rfl haudio⟩
  rcases hvideo : FrontEnd.takeVideo f' picture with ⟨result, f''⟩
  have hvideo' := Overheard.takeVideo_eq (o := ⟨f', o.calls ++ [.audio sound (.ok ())]⟩) hvideo
  rw [List.append_assoc] at hvideo'
  rw [Overheard.takeAudio_eq haudio]
  exact ⟨_, _, f'', hvideo', hvideo, .both rfl haudio hvideo⟩

theorem run_calls (vm : Machine M) (keys : UInt16) (o : Overheard F) :
    ∃ calls result f, vm.run keys o = (result, (vm.frame keys).2, ⟨f, o.calls ++ calls⟩) ∧
      vm.run keys o.inner = (result, (vm.frame keys).2, f) ∧
      HandedOver (vm.frame keys).1 o.inner calls result f := by
  obtain ⟨calls, result, f, hheard, hrun, hcalls⟩ := handOver_calls (vm.frame keys).1 o
  refine ⟨calls, result, f, ?_, ?_, hcalls⟩
  · rw [run_eq_handOver, hheard]
  · rw [run_eq_handOver, hrun]

inductive Asked (vm : Machine M) (f : F) :
    List PortCall → Except Error Unit → Machine M → F → Prop
  | noKeys {e f'} (hpoll : FrontEnd.poll f = (.error e, f')) :
    Asked vm f [.poll (.error e)] (.error e) vm f'
  | keys (keys : UInt16) {f' calls result f''} (hpoll : FrontEnd.poll f = (.ok keys, f'))
      (hcalls : HandedOver (vm.frame keys).1 f' calls result f'') :
    Asked vm f (.poll (.ok keys) :: calls) result (vm.frame keys).2 f''

theorem runFrame_asked (vm : Machine M) (o : Overheard F) :
    ∃ calls result vm' f, vm.runFrame o = (result, vm', ⟨f, o.calls ++ calls⟩) ∧
      vm.runFrame o.inner = (result, vm', f) ∧ Asked vm o.inner calls result vm' f := by
  rcases hpoll : FrontEnd.poll o.inner with ⟨e | keys, f'⟩
  · exact ⟨_, _, vm, f', runFrame_of_no_keys (Overheard.poll_eq hpoll), runFrame_of_no_keys hpoll,
      .noKeys hpoll⟩
  obtain ⟨calls, result, f'', hheard, hrun, hcalls⟩ :=
    vm.run_calls keys (⟨f', o.calls ++ [.poll (.ok keys)]⟩ : Overheard F)
  rw [List.append_assoc] at hheard
  refine ⟨_, result, (vm.frame keys).2, f'', ?_, ?_, .keys keys hpoll hcalls⟩
  · rw [runFrame, Overheard.poll_eq hpoll]
    exact hheard
  · rw [runFrame, hpoll]
    exact hrun

inductive AskedEach : Machine M → F → List (List PortCall) → List (Except Error Unit) →
    Machine M → F → Prop
  | nil (vm : Machine M) (f : F) : AskedEach vm f [] [] vm f
  | cons {vm f calls result vm' f' groups results vm'' f''} (first : Asked vm f calls result vm' f')
      (rest : AskedEach vm' f' groups results vm'' f'') :
    AskedEach vm f (calls :: groups) (result :: results) vm'' f''

theorem runEach_asked (vm : Machine M) (n : Nat) (o : Overheard F) :
    ∃ groups results vm' f,
      vm.runEach n o = (results, vm', ⟨f, o.calls ++ groups.flatten⟩) ∧
      vm.runEach n o.inner = (results, vm', f) ∧ results.length = n ∧
      AskedEach vm o.inner groups results vm' f := by
  induction n generalizing vm o with
  | zero =>
    refine ⟨[], [], vm, o.inner, ?_, rfl, rfl, .nil vm o.inner⟩
    rw [List.flatten_nil, List.append_nil, runEach]
  | succ n ih =>
    obtain ⟨calls, result, vm', f', hheard, hframe, hcalls⟩ := vm.runFrame_asked o
    obtain ⟨groups, results, vm'', f'', hrest', hrest, hlength, hgroups⟩ :=
      ih vm' ⟨f', o.calls ++ calls⟩
    dsimp only at hrest' hrest
    rw [List.append_assoc, ← List.flatten_cons] at hrest'
    exact ⟨_, _, vm'', f'', runEach_succ hheard hrest', runEach_succ hframe hrest,
      congrArg Nat.succ hlength, .cons hcalls hgroups⟩

def PagesWhole (m : M) : Prop := (audioBytes m).size = 256 ∧ (videoBytes m).size = 65536

theorem frame_refused {vm : Machine M} {keys : UInt16}
    (hwrong : ¬PagesWhole (advance vm.memory keys)) : ∃ e, (vm.frame keys).1 = .error e := by
  have houtcome := vm.frame_outcome keys
  generalize vm.frame keys = ran at houtcome ⊢
  obtain ⟨e | frame, vm'⟩ := ran
  · exact ⟨e, rfl⟩
  · cases houtcome with
    | finished hsmooth hpages => exact absurd hpages.sizes hwrong

theorem HandedOver.calls_eq_nil {frame : Except Error (AudioFrame × VideoFrame)} {f f' : F}
    {calls : List PortCall} {result : Except Error Unit}
    (h : HandedOver frame f calls result f') {e : Error} (herror : frame = .error e) :
    calls = [] := by
  subst herror
  cases h with
  | nothing => rfl
  | sound hframe => cases hframe
  | both hframe => cases hframe

theorem AskedEach.polls {wrong : M → Prop} (hnext : ∀ m keys, wrong m → wrong (advance m keys))
    (hwrong : ∀ m, wrong m → ¬PagesWhole m) {vm vm' : Machine M} {f f' : F}
    {groups : List (List PortCall)} {results : List (Except Error Unit)}
    (h : AskedEach vm f groups results vm' f') (hm : wrong vm.memory) :
    ∀ call ∈ groups.flatten, ∃ result, call = .poll result := by
  induction h with
  | nil => simp
  | cons first _ ih =>
    rw [List.flatten_cons]
    cases first with
    | noKeys hpoll => simpa using ih hm
    | keys keys hpoll hcalls =>
      have hm' := hnext _ keys hm
      obtain ⟨e, herror⟩ := frame_refused (hwrong _ hm')
      rw [hcalls.calls_eq_nil herror]
      rw [← memory_frame] at hm'
      simpa using ih hm'

section Induction

variable {P : M → Prop}

theorem scatter_induction (hwrite : ∀ m a value, P m → P (writeByte m a value)) (n : Nat) {m : M}
    (hm : P m) (a : Address) (value : UInt32) : P (scatter writeByte m a value n) := by
  induction n generalizing m a with
  | zero => exact hm
  | succ n ih => exact ih (hwrite _ _ _ hm) _

variable (hcopy : ∀ m src dst, P m → P (copyByte m src dst))
include hcopy

theorem step?_induction {m : M} (hm : P m) (pc : Address) : P (step? m pc).2 := by
  rw [step?]
  split_ifs
  · exact hcopy _ _ _ hm
  · exact hcopy _ _ _ hm
  · exact hm

theorem steps?_induction (n : Nat) {m : M} (hm : P m) (pc : Address) : P (steps? n m pc).2 := by
  induction n generalizing m pc with
  | zero => exact hm
  | succ n ih =>
    have hstep := step?_induction hcopy hm pc
    rw [steps?]
    generalize step? m pc = stepped at hstep ⊢
    rcases stepped with ⟨e | next, m'⟩
    · exact hstep
    · exact ih hstep next

theorem advance_induction (hwrite : ∀ m a value n, P m → P (writeNumber m a value n)) (m : M)
    (keys : UInt16) (hm : P m) : P (advance m keys) := by
  rw [advance, advance?_eq]
  exact steps?_induction hcopy _ (hwrite _ _ _ _ hm) _

end Induction

end Machine

namespace Clipped

open AddressSpace Machine

def Lossy (c : Clipped) : Prop := c.audioLoss ≠ 0 ∨ c.videoLoss ≠ 0

theorem size_readRange (c : Clipped) (a : Address) (n : Nat) :
    (c.readRange a n).size = n - c.loss n := by
  rw [readRange, ByteArray.size_extract, size_slice]
  omega

theorem Lossy.not_pagesWhole {c : Clipped} (h : c.Lossy) : ¬PagesWhole c := by
  rintro ⟨haudio, hvideo⟩
  have haudio' : 256 - c.audioLoss = 256 := (c.size_readRange _ audioSize).symm.trans haudio
  have hvideo' : 65536 - c.videoLoss = 65536 := (c.size_readRange _ videoSize).symm.trans hvideo
  unfold Lossy at h
  omega

theorem Lossy.advance {c : Clipped} (h : c.Lossy) (keys : UInt16) : (advance c keys).Lossy :=
  advance_induction (fun _ _ _ h ↦ h)
    (fun _ a value n h ↦ scatter_induction (fun _ _ _ h ↦ h) n h a value) c keys h

/-- A memory that cuts a page short never gets as far as showing anything. -/
theorem runEach_polls {F : Type} [FrontEnd F] {vm : Machine Clipped} (hlossy : vm.memory.Lossy)
    (n : Nat) (f : F) : ∃ calls results vm' f',
      vm.runEach n (⟨f, []⟩ : Overheard F) = (results, vm', ⟨f', calls⟩) ∧
      ∀ call ∈ calls, ∃ result, call = .poll result := by
  obtain ⟨groups, results, vm', f', hheard, -, -, hgroups⟩ :=
    vm.runEach_asked n (⟨f, []⟩ : Overheard F)
  exact ⟨groups.flatten, results, vm', f', hheard,
    hgroups.polls (fun _ keys h ↦ h.advance keys) (fun _ h ↦ h.not_pagesWhole) hlossy⟩

end Clipped

namespace Machine

variable {M F : Type} [AddressSpace M] [FrontEnd F]

/-- Whatever numbers and pages a memory hands back, and whatever the front end refuses: a frame
stops at an address that has no room for the fields behind it, which takes a number of three bytes
of 2^32 - 6 or more, or it fails with the error about the first page that has not 256 or 65536
bytes, or its sound and its picture are these very bytes. The front end is given nothing in the
first two cases, and else the sound first. So it is for a frame on its own, for one that is handed
over, for one that is asked for unless no keys are to be had, and for any number of them. A sound or
a picture made of other bytes has its size or is refused, and no picture has a pixel outside its 256
rows. -/
theorem frames_whole_or_refused :
    (∀ audio video : ByteArray, Paged audio video (ofPages audio video)) ∧
    (∀ (frame : Except Error (AudioFrame × VideoFrame)) (f : F), ∃ calls result f',
      handOver frame (⟨f, []⟩ : Overheard F) = (result, ⟨f', calls⟩) ∧
      handOver frame f = (result, f') ∧ HandedOver frame f calls result f') ∧
    (∀ (vm : Machine M) (keys : UInt16), Outcome vm keys (vm.frame keys).1 (vm.frame keys).2) ∧
    (∀ (m : M) (keys : UInt16), ¬SmoothFrame m keys →
      ∃ (m' : M) (a : Address), 2 ^ 32 - 6 ≤ (AddressSpace.readNumber m' a 3).toNat) ∧
    ((∀ (m : M) (a : Address),
        AddressSpace.readNumber m a 3 = gather (AddressSpace.readByte m) 3 a 0) →
      NumbersFit M ∧ ∀ (m : M) (keys : UInt16), SmoothFrame m keys) ∧
    (∀ (vm : Machine M) (keys : UInt16) (f : F), ∃ calls result f',
      vm.run keys (⟨f, []⟩ : Overheard F) = (result, (vm.frame keys).2, ⟨f', calls⟩) ∧
      vm.run keys f = (result, (vm.frame keys).2, f') ∧
      HandedOver (vm.frame keys).1 f calls result f') ∧
    (∀ (vm : Machine M) (f : F), ∃ calls result vm' f',
      vm.runFrame (⟨f, []⟩ : Overheard F) = (result, vm', ⟨f', calls⟩) ∧
      vm.runFrame f = (result, vm', f') ∧ Asked vm f calls result vm' f') ∧
    (∀ (vm : Machine M) (n : Nat) (f : F), ∃ groups results vm' f',
      vm.runEach n (⟨f, []⟩ : Overheard F) = (results, vm', ⟨f', groups.flatten⟩) ∧
      vm.runEach n f = (results, vm', f') ∧ results.length = n ∧
      AskedEach vm f groups results vm' f') ∧
    (∀ bytes : ByteArray,
      SizeChecked AudioFrame.bytes 256 (.frameSize 256) bytes (AudioFrame.ofBytes? bytes) ∧
      SizeChecked VideoFrame.bytes 65536 (.frameSize 65536) bytes (VideoFrame.ofBytes? bytes)) ∧
    (∀ f : AudioFrame, f.bytes.size = 256) ∧
    ∀ f : VideoFrame, f.bytes.size = 65536 ∧ f.Tiled := by
  refine ⟨paged_ofPages, fun frame f ↦ ?_, frame_outcome, fun m keys ↦ number_of_overflow,
    fun hgather ↦ ⟨.of_gather hgather, (NumbersFit.of_gather hgather).smoothFrame⟩,
    fun vm keys f ↦ ?_, fun vm f ↦ ?_, fun vm n f ↦ ?_, fun bytes ↦ ?_, AudioFrame.size_eq,
    fun f ↦ ⟨f.size_eq, f.tiled⟩⟩
  · exact handOver_calls frame (⟨f, []⟩ : Overheard F)
  · exact vm.run_calls keys (⟨f, []⟩ : Overheard F)
  · exact vm.runFrame_asked (⟨f, []⟩ : Overheard F)
  · exact vm.runEach_asked n (⟨f, []⟩ : Overheard F)
  · exact ⟨AudioFrame.sizeChecked_ofBytes? bytes, VideoFrame.sizeChecked_ofBytes? bytes⟩

end Machine

/-- Plain memory in which every number is the highest there is. -/
structure Saturated where
  memory : Memory

namespace Saturated

open Machine

instance : AddressSpace Saturated where
  readByte s := s.memory.read
  writeByte s a value := ⟨s.memory.write a value⟩
  load s rom := (s.memory.load rom).map id Saturated.mk
  readNumber _ _ _ := 0xFFFFFFFF

theorem not_smoothFrame (s : Saturated) (keys : UInt16) : ¬SmoothFrame s keys := fun h ↦
  absurd (h 0 (by decide)) (by decide : ¬Address.fits 0xFFFFFFFF 6 = true)

/-- Numbers too high make a frame overflow at its first instruction, and no frame is run if there
are no keys. -/
theorem frame_neither_whole_nor_refused :
    let vm : Machine Saturated := ⟨⟨.blank⟩, 0⟩
    let keyless : Refusing Recorder := ⟨⟨0, #[], 0, none, none⟩, some .poll⟩
    ¬((∃ n, (vm.frame 0).1 = .error (.audioPage n)) ∨
        (∃ n, (vm.frame 0).1 = .error (.videoPage n)) ∨ ∃ frame, (vm.frame 0).1 = .ok frame) ∧
      (vm.frame 0).1 = .error .addressOverflow ∧
      runFrame (⟨.blank, 0⟩ : Machine Memory) keyless =
        (.error (.unavailable (.refused "poll refused")), ⟨.blank, 0⟩, keyless) := by
  intro vm keyless
  have hframe : (vm.frame 0).1 = .error .addressOverflow := by
    rw [frame_of_not_smooth (not_smoothFrame _ _)]
  refine ⟨?_, hframe, runFrame_of_no_keys rfl⟩
  rw [hframe]
  rintro (⟨n, h⟩ | ⟨n, h⟩ | ⟨frame, h⟩) <;> cases h

end Saturated

end CopyJump
