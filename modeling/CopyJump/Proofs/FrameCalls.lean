import CopyJump.Proofs.HeadlessAgreement

namespace CopyJump

inductive PortCall
  | poll (result : Except Error UInt16)
  | audio (frame : AudioFrame) (result : Except Error Unit)
  | video (frame : VideoFrame) (result : Except Error Unit)

def PortCall.keys? : PortCall → Option UInt16
  | .poll (.ok keys) => some keys
  | _ => none

structure Overheard (F : Type) where
  inner : F
  calls : List PortCall := []

namespace Overheard

variable {F : Type}

def hear {α : Type} (o : Overheard F) (call : Except Error α → PortCall)
    (answer : Except Error α × F) : Except Error α × Overheard F :=
  (answer.1, ⟨answer.2, o.calls ++ [call answer.1]⟩)

variable [FrontEnd F]

instance : FrontEnd (Overheard F) where
  poll o := o.hear .poll (FrontEnd.poll o.inner)
  takeAudio o frame := o.hear (.audio frame) (FrontEnd.takeAudio o.inner frame)
  takeVideo o frame := o.hear (.video frame) (FrontEnd.takeVideo o.inner frame)

variable {o : Overheard F} {f : F}

theorem poll_eq {result : Except Error UInt16} (h : FrontEnd.poll o.inner = (result, f)) :
    FrontEnd.poll o = (result, ⟨f, o.calls ++ [.poll result]⟩) := by
  show o.hear .poll (FrontEnd.poll o.inner) = _
  rw [h, hear]

theorem takeAudio_eq {frame : AudioFrame} {result : Except Error Unit}
    (h : FrontEnd.takeAudio o.inner frame = (result, f)) :
    FrontEnd.takeAudio o frame = (result, ⟨f, o.calls ++ [.audio frame result]⟩) := by
  show o.hear (.audio frame) (FrontEnd.takeAudio o.inner frame) = _
  rw [h, hear]

theorem takeVideo_eq {frame : VideoFrame} {result : Except Error Unit}
    (h : FrontEnd.takeVideo o.inner frame = (result, f)) :
    FrontEnd.takeVideo o frame = (result, ⟨f, o.calls ++ [.video frame result]⟩) := by
  show o.hear (.video frame) (FrontEnd.takeVideo o.inner frame) = _
  rw [h, hear]

end Overheard

namespace Machine

section Branches

variable {M F : Type} [AddressSpace M] [FrontEnd F] {vm vm' : Machine M} {f f₁ f₂ f₃ : F}
  {keys : UInt16} {audio : AudioFrame} {video : VideoFrame} {e : Error}
  {result : Except Error Unit}

theorem runFrame_of_no_keys (hpoll : FrontEnd.poll f = (.error e, f₁)) :
    vm.runFrame f = (.error e, vm, f₁) := by
  rw [runFrame, hpoll]

theorem runFrame_of_no_audio (hpoll : FrontEnd.poll f = (.ok keys, f₁))
    (hframe : vm.frame keys = (.ok (audio, video), vm'))
    (haudio : FrontEnd.takeAudio f₁ audio = (.error e, f₂)) :
    vm.runFrame f = (.error e, vm', f₂) := by
  rw [runFrame, hpoll]
  dsimp only
  rw [run, hframe]
  dsimp only
  rw [haudio]

theorem runFrame_of_audio (hpoll : FrontEnd.poll f = (.ok keys, f₁))
    (hframe : vm.frame keys = (.ok (audio, video), vm'))
    (haudio : FrontEnd.takeAudio f₁ audio = (.ok (), f₂))
    (hvideo : FrontEnd.takeVideo f₂ video = (result, f₃)) :
    vm.runFrame f = (result, vm', f₃) := by
  rw [runFrame, hpoll]
  dsimp only
  rw [run, hframe]
  dsimp only
  rw [haudio]
  dsimp only
  rw [hvideo]

def runEach (vm : Machine M) : Nat → F → List (Except Error Unit) × Machine M × F
  | 0, f => ([], vm, f)
  | n + 1, f =>
    let (result, vm, f) := vm.runFrame f
    let (results, vm, f) := vm.runEach n f
    (result :: results, vm, f)

theorem runEach_succ {vm'' : Machine M} {results : List (Except Error Unit)} {n : Nat}
    (hframe : vm.runFrame f = (result, vm', f₁))
    (hrest : vm'.runEach n f₁ = (results, vm'', f₂)) :
    vm.runEach (n + 1) f = (result :: results, vm'', f₂) := by
  rw [runEach, hframe]
  dsimp only
  rw [hrest]

/-- The machine after a frame for each mask. -/
def advanceOver (vm : Machine M) (masks : List UInt16) : Machine M :=
  masks.foldl (fun vm keys ↦ (vm.frame keys).2) vm

theorem advanceOver_append (vm : Machine M) (masks masks' : List UInt16) :
    vm.advanceOver (masks ++ masks') = (vm.advanceOver masks).advanceOver masks' :=
  List.foldl_append

theorem advanceOver_singleton (vm : Machine M) (keys : UInt16) :
    vm.advanceOver [keys] = (vm.frame keys).2 := by
  rw [advanceOver, List.foldl_cons, List.foldl_nil]

theorem memory_advanceOver (vm : Machine M) (masks : List UInt16) :
    (vm.advanceOver masks).memory = masks.foldl advance vm.memory := by
  induction masks generalizing vm with
  | nil => rfl
  | cons keys masks ih =>
    rw [← List.singleton_append, advanceOver_append, ih, advanceOver_singleton, memory_frame,
      List.singleton_append, List.foldl_cons]

end Branches

/-- A frame with its sound and its picture, both of them pages of the memory at its end. -/
structure Ran (vm : Machine Memory) (keys : UInt16) (audio : AudioFrame) (video : VideoFrame)
    (vm' : Machine Memory) : Prop where
  frame_eq : vm.frame keys = (.ok (audio, video), vm')
  pages_eq : pages vm'.memory = .ok (audio, video)

theorem exists_ran (vm : Machine Memory) (keys : UInt16) :
    ∃ audio video vm', Ran vm keys audio video vm' := by
  obtain ⟨m, n⟩ := vm
  have hframe := frame_eq m n keys
  generalize advance m keys = final at hframe
  exact ⟨(frames final).1, (frames final).2, ⟨final, n + 1⟩, hframe, pages_eq_frames final⟩

namespace Ran

variable {vm vm' : Machine Memory} {keys : UInt16} {audio : AudioFrame} {video : VideoFrame}

theorem eq_advanceOver (h : Ran vm keys audio video vm') : vm' = vm.advanceOver [keys] := by
  rw [advanceOver_singleton, h.frame_eq]

theorem framesRun_eq (h : Ran vm keys audio video vm') : vm'.framesRun = vm.framesRun + 1 := by
  obtain ⟨m, n⟩ := vm
  have hframe := h.frame_eq
  rw [Machine.frame_eq] at hframe
  rw [← (Prod.mk.inj hframe).2]

end Ran

theorem framesRun_advanceOver (vm : Machine Memory) (masks : List UInt16) :
    (vm.advanceOver masks).framesRun = vm.framesRun + masks.length := by
  induction masks generalizing vm with
  | nil => rfl
  | cons keys masks ih =>
    obtain ⟨_, _, vm', hran⟩ := vm.exists_ran keys
    rw [← List.singleton_append, advanceOver_append, ← hran.eq_advanceOver, ih, hran.framesRun_eq,
      List.length_append, List.length_singleton, Nat.add_assoc]

/-- A word of 64 bits counts the frames as well, as long as they are fewer than 2^64. -/
theorem toNat_wordCount (vm : Machine Memory) (masks : List UInt16) {count : UInt64}
    (hcount : count.toNat = vm.framesRun) (h : vm.framesRun + masks.length < 2 ^ 64) :
    (masks.foldl (fun count _ ↦ count + 1) count).toNat = (vm.advanceOver masks).framesRun := by
  induction masks generalizing vm count with
  | nil => exact hcount
  | cons keys masks ih =>
    obtain ⟨_, _, vm', hran⟩ := vm.exists_ran keys
    rw [List.length_cons] at h
    have hnext := hran.framesRun_eq
    have hword : (count + 1).toNat = vm'.framesRun := by
      rw [UInt64.toNat_add, hcount, hnext]
      exact Nat.mod_eq_of_lt (by show vm.framesRun + 1 < 2 ^ 64; omega)
    rw [List.foldl_cons, ih vm' hword (by omega), hran.eq_advanceOver, ← advanceOver_append,
      List.singleton_append]

/-- The calls of one frame and what it comes to, from the machine before it to the one after. -/
inductive FrameCalls (vm : Machine Memory) :
    List PortCall → Except Error Unit → Machine Memory → Prop
  | noKeys (e : Error) : FrameCalls vm [.poll (.error e)] (.error e) vm
  | noAudio {keys audio video vm'} (ran : Ran vm keys audio video vm') (e : Error) :
    FrameCalls vm [.poll (.ok keys), .audio audio (.error e)] (.error e) vm'
  | shown {keys audio video vm'} (ran : Ran vm keys audio video vm')
      (result : Except Error Unit) :
    FrameCalls vm [.poll (.ok keys), .audio audio (.ok ()), .video video result] result vm'

theorem FrameCalls.eq_advanceOver {vm vm' : Machine Memory} {calls : List PortCall}
    {result : Except Error Unit} (h : FrameCalls vm calls result vm') :
    vm' = vm.advanceOver (calls.filterMap PortCall.keys?) := by
  cases h with
  | noKeys e => rfl
  | noAudio ran e => exact ran.eq_advanceOver
  | shown ran result => exact ran.eq_advanceOver

inductive RunCalls : Machine Memory → List (List PortCall) → List (Except Error Unit) →
    Machine Memory → Prop
  | nil (vm : Machine Memory) : RunCalls vm [] [] vm
  | cons {vm vm' vm'' calls result groups results} (first : FrameCalls vm calls result vm')
      (rest : RunCalls vm' groups results vm'') :
    RunCalls vm (calls :: groups) (result :: results) vm''

theorem RunCalls.eq_advanceOver {vm vm' : Machine Memory} {groups : List (List PortCall)}
    {results : List (Except Error Unit)} (h : RunCalls vm groups results vm') :
    vm' = vm.advanceOver (groups.flatten.filterMap PortCall.keys?) := by
  induction h with
  | nil vm => rfl
  | cons first _ ih =>
    rw [List.flatten_cons, List.filterMap_append, advanceOver_append, ← first.eq_advanceOver]
    exact ih

variable {F : Type} [FrontEnd F]

theorem runFrame_calls (vm : Machine Memory) (o : Overheard F) :
    ∃ calls result vm' f, vm.runFrame o = (result, vm', ⟨f, o.calls ++ calls⟩) ∧
      vm.runFrame o.inner = (result, vm', f) ∧ FrameCalls vm calls result vm' := by
  rcases hpoll : FrontEnd.poll o.inner with ⟨e | keys, f₁⟩
  · refine ⟨_, _, vm, f₁, ?_, runFrame_of_no_keys hpoll, .noKeys e⟩
    exact runFrame_of_no_keys (Overheard.poll_eq hpoll)
  have hpoll' := Overheard.poll_eq hpoll
  obtain ⟨audio, video, vm', hran⟩ := vm.exists_ran keys
  rcases haudio : FrontEnd.takeAudio f₁ audio with ⟨heard, f₂⟩
  have haudio' := Overheard.takeAudio_eq (o := ⟨f₁, o.calls ++ [.poll (.ok keys)]⟩) haudio
  rw [List.append_assoc] at haudio'
  cases heard with
  | error e =>
    exact ⟨_, _, vm', f₂, runFrame_of_no_audio hpoll' hran.frame_eq haudio',
      runFrame_of_no_audio hpoll hran.frame_eq haudio, .noAudio hran e⟩
  | ok _ =>
    rcases hvideo : FrontEnd.takeVideo f₂ video with ⟨result, f₃⟩
    have hvideo' := Overheard.takeVideo_eq
      (o := ⟨f₂, o.calls ++ ([.poll (.ok keys)] ++ [.audio audio (.ok ())])⟩) hvideo
    rw [List.append_assoc] at hvideo'
    exact ⟨_, _, vm', f₃, runFrame_of_audio hpoll' hran.frame_eq haudio' hvideo',
      runFrame_of_audio hpoll hran.frame_eq haudio hvideo, .shown hran result⟩

theorem runEach_calls (vm : Machine Memory) (n : Nat) (o : Overheard F) :
    ∃ groups results vm' f,
      vm.runEach n o = (results, vm', ⟨f, o.calls ++ groups.flatten⟩) ∧
      vm.runEach n o.inner = (results, vm', f) ∧ results.length = n ∧
      RunCalls vm groups results vm' := by
  induction n generalizing vm o with
  | zero =>
    refine ⟨[], [], vm, o.inner, ?_, rfl, rfl, .nil vm⟩
    rw [List.flatten_nil, List.append_nil, runEach]
  | succ n ih =>
    obtain ⟨calls, result, vm', f₁, hheard, hframe, hcalls⟩ := vm.runFrame_calls o
    obtain ⟨groups, results, vm'', f₂, hrest', hrest, hlength, hgroups⟩ :=
      ih vm' ⟨f₁, o.calls ++ calls⟩
    dsimp only at hrest' hrest
    rw [List.append_assoc, ← List.flatten_cons] at hrest'
    exact ⟨_, _, vm'', f₂, runEach_succ hheard hrest', runEach_succ hframe hrest,
      congrArg Nat.succ hlength, .cons hcalls hgroups⟩

theorem Ran.runFrame_recorder {vm vm' : Machine Memory} {r : Recorder} {audio : AudioFrame}
    {video : VideoFrame} (h : Ran vm r.mask audio video vm') :
    ∃ r', vm.runFrame r = (.ok (), vm', r') ∧ r'.mask = r.mask ∧ r'.frames = r.frames + 1 ∧
      r'.exchanges.toList = r.exchanges.toList ++ [.poll, .audio, .video] ∧
      r'.lastAudio = some audio ∧ r'.lastVideo = some video := by
  refine ⟨_, Recorder.runFrame_eq h.frame_eq, rfl, rfl, ?_, rfl, rfl⟩
  simp only [Array.toList_push, List.append_assoc]
  rfl

theorem runEach_recorder (vm : Machine Memory) (n : Nat) (r : Recorder) :
    ∃ r', vm.runEach n r =
        (List.replicate n (.ok ()), vm.advanceOver (List.replicate n r.mask), r') ∧
      r'.frames = r.frames + n ∧
      r'.exchanges.toList =
        r.exchanges.toList ++ (List.replicate n [.poll, .audio, .video]).flatten ∧
      match n with
      | 0 => r' = r
      | k + 1 => ∃ audio video,
        Ran (vm.advanceOver (List.replicate k r.mask)) r.mask audio video
          (vm.advanceOver (List.replicate (k + 1) r.mask)) ∧
        r'.lastAudio = some audio ∧ r'.lastVideo = some video := by
  induction n generalizing vm r with
  | zero => exact ⟨r, rfl, rfl, (List.append_nil _).symm, rfl⟩
  | succ n ih =>
    obtain ⟨audio, video, vm', hran⟩ := vm.exists_ran r.mask
    obtain ⟨r₁, hframe, hmask, hframes, hexchanges, haudio, hvideo⟩ := hran.runFrame_recorder
    obtain ⟨r', hrest, hframes', hexchanges', hlast⟩ := ih vm' r₁
    have hahead (k : Nat) : vm'.advanceOver (List.replicate k r.mask) =
        vm.advanceOver (List.replicate (k + 1) r.mask) := by
      rw [List.replicate_succ, ← List.singleton_append, advanceOver_append, ← hran.eq_advanceOver]
    rw [hmask, hahead] at hrest
    -- The last frame of all is that of the rest, unless there is no rest.
    refine ⟨r', runEach_succ hframe hrest, by omega, ?_, ?_⟩
    · rw [hexchanges', hexchanges, List.append_assoc, List.replicate_succ, List.flatten_cons]
    · cases n with
      | zero =>
        refine ⟨audio, video, ?_, ?_, ?_⟩
        · have hone := hahead 0
          rw [← hone]
          exact hran
        · rw [hlast, haudio]
        · rw [hlast, hvideo]
      | succ k =>
        obtain ⟨audio, video, hran', haudio', hvideo'⟩ := hlast
        rw [hmask, hahead, hahead] at hran'
        exact ⟨audio, video, hran', haudio', hvideo'⟩

/-- However often a machine is asked for a frame, and whatever its front end refuses, the calls are
one group for each frame, cut at the refusal that the frame reports; listening changes nothing. The
machine has run one frame for each poll that gave keys. -/
theorem runEach_grouped (vm : Machine Memory) (n : Nat) :
    (∀ f : F, ∃ groups results vm' f',
      vm.runEach n (⟨f, []⟩ : Overheard F) = (results, vm', ⟨f', groups.flatten⟩) ∧
      vm.runEach n f = (results, vm', f') ∧ results.length = n ∧
      RunCalls vm groups results vm' ∧
      vm' = vm.advanceOver (groups.flatten.filterMap PortCall.keys?) ∧
      vm'.framesRun = vm.framesRun + (groups.flatten.filterMap PortCall.keys?).length) ∧
    ∀ keys : UInt16, ∃ r, vm.runEach n ({ mask := keys } : Recorder) =
        (List.replicate n (.ok ()), vm.advanceOver (List.replicate n keys), r) ∧
      r.frames = n ∧
      r.exchanges.toList = (List.replicate n [.poll, .audio, .video]).flatten ∧
      (n = 0 → r.lastAudio = none ∧ r.lastVideo = none) ∧
      ∀ k, n = k + 1 → ∃ audio video,
        Ran (vm.advanceOver (List.replicate k keys)) keys audio video
          (vm.advanceOver (List.replicate n keys)) ∧
        r.lastAudio = some audio ∧ r.lastVideo = some video := by
  refine ⟨fun f ↦ ?_, fun keys ↦ ?_⟩
  · obtain ⟨groups, results, vm', f', hheard, hrun, hlength, hgroups⟩ :=
      vm.runEach_calls n (⟨f, []⟩ : Overheard F)
    have hahead := hgroups.eq_advanceOver
    refine ⟨groups, results, vm', f', hheard, hrun, hlength, hgroups, hahead, ?_⟩
    rw [← framesRun_advanceOver, ← hahead]
  · obtain ⟨r, hrun, hframes, hexchanges, hlast⟩ := vm.runEach_recorder n { mask := keys }
    refine ⟨r, hrun, hframes.trans (Nat.zero_add n), hexchanges, ?_, ?_⟩
    · rintro rfl
      rw [hlast]
      exact ⟨rfl, rfl⟩
    · rintro k rfl
      exact hlast

end Machine

end CopyJump
