import CopyJump.Proofs.FrameRefinement
import CopyJump.Proofs.HostRun

namespace CopyJump

theorem Library.read_eq_ok_iff {l : Library} {files : FileTree} {dir path : Path}
    {rom : ByteArray} :
    l.read files dir = .ok (path, rom) ↔ l.current? = some path ∧ files.read path = .ok rom := by
  unfold Library.read
  cases l.current? with
  | none => simp
  | some p =>
    cases hr : files.read p with
    | ok data =>
      simp only [hr, Except.ok.injEq, Prod.mk.injEq, Option.some.injEq]
      constructor
      · rintro ⟨rfl, rfl⟩
        exact ⟨rfl, hr⟩
      · rintro ⟨rfl, hr'⟩
        exact ⟨rfl, Except.ok.inj (hr.symm.trans hr')⟩
    | error fault =>
      simp only [hr, reduceCtorEq, Option.some.injEq, false_iff]
      rintro ⟨rfl, hr'⟩
      cases hr.symm.trans hr'

theorem Library.not_isEmpty_of_current? {l : Library} {path : Path} (h : l.current? = some path) :
    l.isEmpty ≠ true := by
  intro hempty
  have hnil : l.paths = [] := List.isEmpty_iff.mp hempty
  rw [current?, hnil] at h
  cases h

theorem Library.paths_of_move {f : Library → Library} (hf : f = next ∨ f = previous)
    (l : Library) : (f l).paths = l.paths := by
  rcases hf with rfl | rfl
  · unfold next
    split <;> rfl
  · rfl

namespace Stage

variable {C : Type} [Console C]

theorem takeAudio_fst (s : Stage C) (frame : AudioFrame) : (s.takeAudio frame).1 = .ok () := by
  unfold takeAudio
  split
  · split <;> rfl
  · rfl

def present (s : Stage C) (frames : AudioFrame × VideoFrame) : Except Error Unit × Stage C :=
  (s.takeAudio frames.1).2.takeVideo frames.2

end Stage

namespace Host

variable {C : Type}

theorem outcome_onStage {α : Type} (f : Stage C → Except Error α × Stage C) (h : Host C) :
    outcome (onStage f) h = (f h.stage).1 := by
  obtain ⟨machine, stage, desk⟩ := h
  simp only [outcome, onStage]
  rcases f stage with ⟨_ | _, _⟩ <;> rfl

theorem after_onStage {α : Type} (f : Stage C → Except Error α × Stage C) (h : Host C) :
    after (onStage f) h = { h with stage := (f h.stage).2 } := by
  obtain ⟨machine, stage, desk⟩ := h
  simp only [after, onStage]
  rcases f stage with ⟨_ | _, _⟩ <;> rfl

theorem getDesk_apply (h : Host C) : getDesk h = .ok h.desk h := rfl

theorem ofExcept_apply {α : Type} (a : α) (h : Host C) :
    (MonadExcept.ofExcept (.ok a : Except Error α) : HostM C α) h = .ok a h := rfl

variable [Console C]

def noted (m : Message) (h : Host C) : Host C :=
  { h with stage := h.stage.report m, desk := { h.desk with status := some m.text } }

def inserted (path : Path) (rom : ByteArray) (memory : Memory) (h : Host C) : Host C :=
  let h := noted (.loaded path.fileName rom) { h with machine := { h.machine with memory } }
  { h with desk := { h.desk with rom := some path.fileName } }

def skipped (path : Path) (e : Error) (h : Host C) : Host C :=
  let status := s!"skipped {path.fileName} (too large), still running {h.desk.romShown}"
  { h with
    stage := h.stage.report (.skipped path e), desk := { h.desk with status := some status } }

theorem load_eq (vm : Machine Memory) (rom : ByteArray) :
    vm.load rom =
      match Memory.ofRom rom with
      | .ok memory => (.ok (), { vm with memory })
      | .error e => (.error e, vm) := by
  have h : AddressSpace.load vm.memory rom = vm.memory.load rom := rfl
  rw [Machine.load, h, Memory.load]
  cases Memory.ofRom rom <;> rfl

/-- A load leaves the host as it was, inserts a ROM that was read and fits, or skips one that was
read and does not fit. -/
theorem loadCurrent_cases (files : FileTree) (h : Host C) :
    (∃ e, h.desk.library.read files h.desk.romDir = .error e ∧ loadCurrent files h = .error e h) ∨
    (∃ path rom memory, h.desk.library.read files h.desk.romDir = .ok (path, rom) ∧
      Memory.ofRom rom = .ok memory ∧ loadCurrent files h = .ok () (h.inserted path rom memory)) ∨
    (∃ path rom e, h.desk.library.read files h.desk.romDir = .ok (path, rom) ∧
      Memory.ofRom rom = .error e ∧ loadCurrent files h = .ok () (h.skipped path e)) := by
  cases hr : h.desk.library.read files h.desk.romDir with
  | error e =>
    refine .inl ⟨e, rfl, ?_⟩
    rw [loadCurrent, bind_eq_of_ok (getDesk_apply h), hr]
    exact bind_eq_of_error rfl _
  | ok pair =>
    obtain ⟨path, rom⟩ := pair
    cases hm : Memory.ofRom rom with
    | ok memory =>
      refine .inr (.inl ⟨path, rom, memory, rfl, hm, ?_⟩)
      have hinsert : insertRom rom h =
          .ok (.ok ()) { h with machine := { h.machine with memory } } := by
        simp only [insertRom, load_eq, hm]
      rw [loadCurrent, bind_eq_of_ok (getDesk_apply h), hr, bind_eq_of_ok (ofExcept_apply _ h)]
      exact bind_eq_of_ok hinsert _
    | error e =>
      refine .inr (.inr ⟨path, rom, e, rfl, hm, ?_⟩)
      have hinsert : insertRom rom h = .ok (.error e) h := by
        simp only [insertRom, load_eq, hm]
      rw [loadCurrent, bind_eq_of_ok (getDesk_apply h), hr, bind_eq_of_ok (ofExcept_apply _ h)]
      exact bind_eq_of_ok hinsert _

theorem loadCurrent_eq {files : FileTree} {h : Host C} {path : Path} {rom : ByteArray}
    {memory : Memory} (hr : h.desk.library.read files h.desk.romDir = .ok (path, rom))
    (hm : Memory.ofRom rom = .ok memory) :
    loadCurrent files h = .ok () (h.inserted path rom memory) := by
  rcases loadCurrent_cases files h with ⟨e, hr', _⟩ | ⟨path', rom', memory', hr', hm', hl⟩ |
    ⟨path', rom', e, hr', hm', _⟩
  · cases hr.symm.trans hr'
  · cases hr.symm.trans hr'
    cases hm.symm.trans hm'
    exact hl
  · cases hr.symm.trans hr'
    cases hm.symm.trans hm'

theorem reload_cases (files : FileTree) (h : Host C) :
    (∃ e, h.desk.library.read files h.desk.romDir = .error e ∧
      reload files h = .ok () (h.noted (.notLoaded e))) ∨
    (∃ path rom memory, h.desk.library.read files h.desk.romDir = .ok (path, rom) ∧
      Memory.ofRom rom = .ok memory ∧ reload files h = .ok () (h.inserted path rom memory)) ∨
    (∃ path rom e, h.desk.library.read files h.desk.romDir = .ok (path, rom) ∧
      Memory.ofRom rom = .error e ∧ reload files h = .ok () (h.skipped path e)) := by
  rcases loadCurrent_cases files h with ⟨e, hr, hl⟩ | ⟨path, rom, memory, hr, hm, hl⟩ |
    ⟨path, rom, e, hr, hm, hl⟩
  · exact .inl ⟨e, hr, tryCatch_eq_of_error hl _⟩
  · exact .inr (.inl ⟨path, rom, memory, hr, hm, tryCatch_eq_of_ok hl _⟩)
  · exact .inr (.inr ⟨path, rom, e, hr, hm, tryCatch_eq_of_ok hl _⟩)

def paced (rate : Nat) (h : Host C) : Host C :=
  let h := h.noted (.frameRate h.desk.frameRate rate)
  { h with desk := { h.desk with frameRate := rate } }

theorem setFrameRate_eq (rate : Nat) (h : Host C) :
    setFrameRate rate h =
      if FrameRate.clamp rate = h.desk.frameRate then .ok () h
      else .ok () (h.paced (FrameRate.clamp rate)) := by
  have h' : setFrameRate rate h =
      (if FrameRate.clamp rate = h.desk.frameRate then pure PUnit.unit
        else do
          notify (.frameRate h.desk.frameRate (FrameRate.clamp rate))
          modifyDesk ({ · with frameRate := FrameRate.clamp rate }) : HostM C Unit) h := rfl
  rw [h']
  split <;> rfl

theorem setFrameRate_cases (rate : Nat) (h : Host C) :
    setFrameRate rate h = .ok () h ∨
      setFrameRate rate h = .ok () (h.paced (FrameRate.clamp rate)) := by
  rw [setFrameRate_eq]
  split
  · exact .inl rfl
  · exact .inr rfl

def toggled (h : Host C) : Host C :=
  noted (if !h.desk.paused then .paused else .resumed)
    { h with desk := { h.desk with paused := !h.desk.paused } }

theorem togglePause_eq (h : Host C) :
    togglePause h =
      if h.desk.paused then .ok () h.toggled else onStage Stage.stopSound h.toggled := by
  have h' : togglePause h =
      (if !h.desk.paused then onStage Stage.stopSound else pure PUnit.unit : HostM C Unit)
        h.toggled := rfl
  rw [h']
  cases h.desk.paused <;> rfl

theorem togglePause_cases (h : Host C) :
    togglePause h = .ok () h.toggled ∨ togglePause h = onStage Stage.stopSound h.toggled := by
  rw [togglePause_eq]
  split
  · exact .inl rfl
  · exact .inr rfl

theorem machine_runFrame_eq {vm vm' : Machine Memory} {s s' : Stage C} {keys : UInt16}
    {frames : AudioFrame × VideoFrame} (hp : s.poll = (.ok keys, s'))
    (hf : vm.frame keys = (.ok frames, vm')) :
    vm.runFrame s = ((s'.present frames).1, vm', (s'.present frames).2) := by
  obtain ⟨audio, video⟩ := frames
  have hpoll : FrontEnd.poll s = (.ok keys, s') := hp
  have haudio : FrontEnd.takeAudio s' audio = (.ok (), (s'.takeAudio audio).2) :=
    Prod.ext (s'.takeAudio_fst audio) rfl
  rw [Machine.runFrame, hpoll]
  show vm.run keys s' = _
  rw [Machine.run, hf]
  dsimp only
  rw [haudio]
  rfl

def advanceMachine (keys : UInt16) : HostM C (AudioFrame × VideoFrame) := fun h ↦
  let memory := Machine.advance h.machine.memory keys
  .ok (Machine.frames memory) { h with machine := ⟨memory, h.machine.framesRun + 1⟩ }

theorem runFrame_eq : (runFrame : HostM C Unit) =
    onStage Stage.poll >>= fun keys ↦ advanceMachine keys >>= fun frames ↦
      onStage (·.present frames) := by
  funext h
  obtain ⟨⟨m, n⟩, stage, desk⟩ := h
  have hpoll : FrontEnd.poll stage = stage.poll := rfl
  simp only [bind, EStateM.bind, onStage]
  rcases hp : stage.poll with ⟨e | keys, s⟩
  · simp only [runFrame, Machine.runFrame, hpoll, hp]
  · have hf := Machine.frame_eq m n keys
    dsimp only [advanceMachine]
    generalize Machine.advance m keys = memory at hf ⊢
    simp only [runFrame, machine_runFrame_eq hp hf]
    rcases s.present (Machine.frames memory) with ⟨_ | _, _⟩ <;> rfl

/-- A frame leaves the host as it was but for the poll if that fails, and else runs the machine and
hands over what it made. -/
theorem runFrame_cases (h : Host C) :
    (∃ e s, h.stage.poll = (.error e, s) ∧ runFrame h = .error e { h with stage := s }) ∨
    (∃ keys s memory, h.stage.poll = (.ok keys, s) ∧
      memory = Machine.advance h.machine.memory keys ∧
      outcome runFrame h = (s.present (Machine.frames memory)).1 ∧
      after runFrame h =
        ⟨⟨memory, h.machine.framesRun + 1⟩, (s.present (Machine.frames memory)).2, h.desk⟩) := by
  obtain ⟨machine, stage, desk⟩ := h
  rcases hp : stage.poll with ⟨e | keys, s⟩
  · refine .inl ⟨e, s, rfl, ?_⟩
    rw [runFrame_eq]
    simp only [bind, EStateM.bind, onStage, hp]
  · refine .inr ⟨keys, s, _, rfl, rfl, ?_⟩
    have hrun : runFrame ⟨machine, stage, desk⟩ =
        onStage (·.present (Machine.frames (Machine.advance machine.memory keys)))
          ⟨⟨Machine.advance machine.memory keys, machine.framesRun + 1⟩, s, desk⟩ := by
      rw [runFrame_eq]
      simp only [bind, EStateM.bind, onStage, hp, advanceMachine]
    generalize Machine.advance machine.memory keys = memory at hrun ⊢
    simp only [outcome, after, hrun]
    exact ⟨outcome_onStage _ _, after_onStage _ _⟩

def overlaid (h : Host C) : Host C := { h with stage := h.stage.setOverlay h.desk.overlay }

theorem refresh_of_quit {h : Host C} (hquit : h.desk.quit = true) (now : Time) :
    refresh now h = .ok () h := by
  rw [refresh, bind_eq_of_ok (getDesk_apply h), if_pos hquit]
  rfl

theorem refresh_of_paused {h : Host C} (hquit : h.desk.quit = false)
    (hpaused : h.desk.paused = true) (now : Time) :
    refresh now h = onStage Stage.redraw h.overlaid := by
  obtain ⟨machine, stage, desk⟩ := h
  cases desk
  cases hquit
  cases hpaused
  rfl

theorem refresh_of_running {h : Host C} (hquit : h.desk.quit = false)
    (hpaused : h.desk.paused = false) (now : Time) :
    refresh now h = (runFrame >>= fun _ ↦
      modifyDesk fun d ↦ { d with counter := d.counter.tick now } : HostM C Unit) h.overlaid := by
  obtain ⟨machine, stage, desk⟩ := h
  cases desk
  cases hquit
  cases hpaused
  rfl

theorem refresh_eq_ok {h h' : Host C} (hq : h.desk.quit = false) (hp : h.desk.paused = false)
    (hrun : runFrame h.overlaid = .ok () h') (now : Time) :
    refresh now h =
      .ok () { h' with desk := { h'.desk with counter := h'.desk.counter.tick now } } := by
  rw [refresh_of_running hq hp, bind_eq_of_ok hrun]
  rfl

theorem tick_eq_refresh {h h' : Host C} (htake : onStage Stage.takeCommands h = .ok [] h')
    (m : Moment) : tick m h = refresh m.now h' := by
  rw [tick_eq, bind_eq_of_ok htake]
  exact bind_eq_of_ok rfl _

theorem start_eq (config : Config) (console : C) (m : Moment) :
    start config console m =
      let h := initial config console m
      if h.desk.library.isEmpty then
        .ok (overlaid { h with stage := h.stage.report (.noRoms h.desk.romDir) })
      else
        (outcome (loadCurrent m.files) h).map fun _ ↦
          (after (loadCurrent m.files) h).overlaid := by
  unfold start
  generalize initial config console m = h
  dsimp only
  by_cases he : h.desk.library.isEmpty = true
  · have hs : setUp m.files h =
        .ok () (overlaid { h with stage := h.stage.report (.noRoms h.desk.romDir) }) := by
      rw [setUp, bind_eq_of_ok (getDesk_apply h), if_pos he]
      rfl
    rw [hs, if_pos he]
  · have hs : setUp m.files h = (loadCurrent m.files >>= fun _ ↦ updateOverlay) h := by
      rw [setUp, bind_eq_of_ok (getDesk_apply h), if_neg he]
    rw [if_neg he, hs]
    cases hl : loadCurrent m.files h with
    | ok _ h' =>
      rw [bind_eq_of_ok hl]
      simp only [outcome, after, hl]
      rfl
    | error e h' =>
      rw [bind_eq_of_error hl]
      simp only [outcome, hl]
      rfl

theorem start_eq_empty {config : Config} {m : Moment}
    (he : (library config m.files).isEmpty = true) (console : C) :
    start config console m =
      .ok (overlaid { initial config console m with
        stage := (initial config console m).stage.report (.noRoms config.romDir) }) := by
  rw [start_eq]
  exact if_pos he

theorem start_cases {config : Config} {console : C} {m : Moment} {h : Host C}
    (hs : start config console m = .ok h) :
    ∃ h₀ h₁, h₀ = initial config console m ∧ h = h₁.overlaid ∧
      (h₁ = { h₀ with stage := h₀.stage.report (.noRoms h₀.desk.romDir) } ∨
        (∃ path rom memory, h₀.desk.library.read m.files h₀.desk.romDir = .ok (path, rom) ∧
          Memory.ofRom rom = .ok memory ∧ h₁ = h₀.inserted path rom memory) ∨
        ∃ path e, h₁ = h₀.skipped path e) := by
  rw [start_eq] at hs
  generalize initial config console m = h₀ at hs ⊢
  dsimp only at hs
  by_cases he : h₀.desk.library.isEmpty = true
  · rw [if_pos he] at hs
    cases hs
    exact ⟨h₀, _, rfl, rfl, .inl rfl⟩
  · rw [if_neg he] at hs
    rcases loadCurrent_cases m.files h₀ with ⟨e, -, hl⟩ | ⟨path, rom, memory, hr, hm, hl⟩ |
      ⟨path, rom, e, -, -, hl⟩ <;> simp only [outcome, after, hl] at hs <;> cases hs
    · exact ⟨h₀, _, rfl, rfl, .inr (.inl ⟨path, rom, memory, hr, hm, rfl⟩)⟩
    · exact ⟨h₀, _, rfl, rfl, .inr (.inr ⟨path, e, rfl⟩)⟩

theorem start_eq_inserted {config : Config} {m : Moment} {path : Path} {rom : ByteArray}
    {memory : Memory} (hc : (library config m.files).current? = some path)
    (hr : m.files.read path = .ok rom) (hm : Memory.ofRom rom = .ok memory) (console : C) :
    start config console m =
      .ok ((initial config console m).inserted path rom memory).overlaid := by
  have hempty : (initial config console m).desk.library.isEmpty ≠ true :=
    Library.not_isEmpty_of_current? hc
  have hread : (initial config console m).desk.library.read m.files
      (initial config console m).desk.romDir = .ok (path, rom) :=
    Library.read_eq_ok_iff.mpr ⟨hc, hr⟩
  rw [start_eq]
  dsimp only
  rw [if_neg hempty]
  simp only [outcome, after, loadCurrent_eq hread hm]
  rfl

end Host

end CopyJump
