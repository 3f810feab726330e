import CopyJump.Device.Scripted
import CopyJump.Proofs.StageCalls

namespace CopyJump

/-- What the calls of a console tell about the machine. -/
structure History where
  rom : Option (String × ByteArray) := none
  /-- The masks handed out since then. -/
  masks : List UInt16 := []
  polls : Nat := 0

namespace History

def add (t : History) : Call → History
  | .poll (.ok keys) => { t with masks := t.masks ++ [keys], polls := t.polls + 1 }
  | .report (.loaded name rom) => { t with rom := some (name, rom), masks := [] }
  | _ => t

def ofCalls (calls : List Call) : History := calls.foldl add {}

theorem ofCalls_append (calls : List Call) (call : Call) :
    ofCalls (calls ++ [call]) = (ofCalls calls).add call :=
  List.foldl_concat add {} call calls

def program (t : History) : ByteArray := (t.rom.map Prod.snd).getD .empty

def replay (t : History) (image : Memory) : Memory :=
  (t.masks.foldl (fun vm keys ↦ (vm.frame keys).2) (⟨image, 0⟩ : Machine Memory)).memory

end History

namespace Machine

theorem ext_of_memory {M : Type} {a b : Machine M} (hm : a.memory = b.memory)
    (hn : a.framesRun = b.framesRun) : a = b := by
  obtain ⟨m, n⟩ := a
  cases hm
  cases hn
  rfl

end Machine

theorem History.replay_poll (t : History) (keys : UInt16) (image : Memory) :
    (t.add (.poll (.ok keys))).replay image = Machine.advance (t.replay image) keys := by
  simp only [replay, add, List.foldl_append, List.foldl_cons, List.foldl_nil, Machine.memory_frame]

namespace Stage

variable {C : Type}

def history (s : Stage (Traced C)) : History := .ofCalls s.calls

variable [Console C]

@[simp] theorem history_takeCommands (s : Stage (Traced C)) :
    s.takeCommands.2.history = s.history := by
  rw [history, calls_takeCommands, History.ofCalls_append]
  rfl

theorem history_poll_error {s s' : Stage (Traced C)} {e : Error} (h : s.poll = (.error e, s')) :
    s'.history = s.history := by
  have hfst := s.poll_fst
  have hcalls := s.calls_poll
  rw [h] at hfst hcalls
  rw [history, hcalls, History.ofCalls_append]
  cases hr : (Console.poll s.console.inner).1 with
  | ok keys =>
    rw [hr] at hfst
    cases hfst
  | error fault => rfl

theorem history_poll_ok {s s' : Stage (Traced C)} {keys : UInt16} (h : s.poll = (.ok keys, s')) :
    s'.history = s.history.add (.poll (.ok keys)) := by
  have hfst := s.poll_fst
  have hcalls := s.calls_poll
  rw [h] at hfst hcalls
  rw [history, hcalls, History.ofCalls_append]
  cases hr : (Console.poll s.console.inner).1 with
  | ok keys' =>
    rw [hr] at hfst
    cases hfst
    rfl
  | error fault =>
    rw [hr] at hfst
    cases hfst

@[simp] theorem history_report (s : Stage (Traced C)) (m : Message) :
    (s.report m).history = s.history.add (.report m) := by
  rw [history, calls_report, History.ofCalls_append]
  rfl

theorem ofCalls_soundCalls (s : Stage (Traced C)) (frame : AudioFrame) :
    History.ofCalls (s.calls ++ s.soundCalls frame) = s.history := by
  rw [History.ofCalls, List.foldl_append]
  unfold soundCalls
  split
  · split <;> rfl
  · rfl

@[simp] theorem history_present (s : Stage (Traced C)) (frames : AudioFrame × VideoFrame) :
    (s.present frames).2.history = s.history := by
  rw [history, calls_present, History.ofCalls_append, ofCalls_soundCalls]
  rfl

@[simp] theorem history_redraw (s : Stage (Traced C)) : s.redraw.2.history = s.history := by
  rw [history, calls_redraw, History.ofCalls_append]
  rfl

@[simp] theorem history_stopSound (s : Stage (Traced C)) : s.stopSound.2.history = s.history := by
  rw [history, calls_stopSound, History.ofCalls_append]
  rfl

@[simp] theorem history_setOverlay (s : Stage (Traced C)) (lines : List String) :
    (s.setOverlay lines).history = s.history := by
  rw [history, calls_setOverlay, History.ofCalls_append]
  rfl

end Stage

namespace Host

variable {C : Type} {seen : FileTree → Prop} {h h' : Host (Traced C)}

/-- The machine of a host is as the calls of its console tell, with a ROM that was read from a path
of the library. -/
structure Follows (seen : FileTree → Prop) (h : Host (Traced C)) : Prop where
  memory : ∃ image : Memory,
    (∀ a : Address, image.read a =
      if h' : a.index < h.stage.history.program.size then h.stage.history.program[a.index]
      else 0) ∧
    h.machine.memory = h.stage.history.replay image
  name : h.desk.rom = h.stage.history.rom.map Prod.fst
  framesRun : h.machine.framesRun = h.stage.history.polls
  source : ∀ name rom, h.stage.history.rom = some (name, rom) → rom.size ≤ addressSpaceSize ∧
    ∃ path ∈ h.desk.library.paths, ∃ files, seen files ∧
      files.read path = .ok rom ∧ name = path.fileName

namespace Follows

theorem congr (hf : Follows seen h) (hm : h'.machine = h.machine)
    (hs : h'.stage.history = h.stage.history) (hr : h'.desk.rom = h.desk.rom)
    (hp : h'.desk.library.paths = h.desk.library.paths) : Follows seen h' := by
  obtain ⟨hmemory, hname, hframes, hsource⟩ := hf
  rw [← hm, ← hs] at hmemory
  rw [← hr, ← hs] at hname
  rw [← hm, ← hs] at hframes
  rw [← hs, ← hp] at hsource
  exact ⟨hmemory, hname, hframes, hsource⟩

theorem machine_eq {seen' : FileTree → Prop} (hf : Follows seen h) (hf' : Follows seen' h')
    (hs : h'.stage.history = h.stage.history) : h'.machine = h.machine := by
  obtain ⟨image, hread, hmemory⟩ := hf.memory
  obtain ⟨image', hread', hmemory'⟩ := hf'.memory
  have himage : image' = image := by
    apply Memory.ext_read
    intro a
    rw [hread', hread, hs]
  refine Machine.ext_of_memory ?_ ?_
  · rw [hmemory', hmemory, hs, himage]
  · rw [hf'.framesRun, hf.framesRun, hs]

variable [Console C]

theorem noted (hf : Follows seen h) {m : Message} (hm : ∀ t : History, t.add (.report m) = t) :
    Follows seen (h.noted m) :=
  hf.congr rfl ((Stage.history_report _ _).trans (hm _)) rfl rfl

theorem overlaid (hf : Follows seen h) : Follows seen h.overlaid :=
  hf.congr rfl (Stage.history_setOverlay _ _) rfl rfl

theorem skipped (hf : Follows seen h) (path : Path) (e : Error) : Follows seen (h.skipped path e) :=
  hf.congr rfl (Stage.history_report _ _) rfl rfl

theorem inserted (hf : Follows seen h) {files : FileTree} (hs : seen files) {path : Path}
    {rom : ByteArray} {memory : Memory}
    (hr : h.desk.library.read files h.desk.romDir = .ok (path, rom))
    (hm : Memory.ofRom rom = .ok memory) : Follows seen (h.inserted path rom memory) := by
  have hhistory : (h.inserted path rom memory).stage.history =
      { h.stage.history with rom := some (path.fileName, rom), masks := [] } :=
    Stage.history_report _ _
  obtain ⟨hcurrent, hread⟩ := Library.read_eq_ok_iff.mp hr
  refine ⟨⟨memory, ?_, ?_⟩, ?_, ?_, ?_⟩
  · rw [hhistory]
    exact Memory.read_ofRom hm
  · rw [hhistory]
    rfl
  · rw [hhistory]
    rfl
  · rw [hhistory]
    exact hf.framesRun
  · rw [hhistory]
    rintro _ _ ⟨⟩
    exact ⟨Memory.size_le_of_ofRom hm, path, List.mem_of_getElem? hcurrent, files, hs, hread, rfl⟩

theorem frame (hf : Follows seen h) : Follows seen (after runFrame h) := by
  rcases runFrame_cases h with ⟨e, s, hp, hrun⟩ | ⟨keys, s, memory, hp, hmemory, -, hafter⟩
  · simp only [after, hrun]
    exact hf.congr rfl (Stage.history_poll_error hp) rfl rfl
  · have hhistory : (after runFrame h).stage.history = h.stage.history.add (.poll (.ok keys)) := by
      rw [hafter, Stage.history_present]
      exact Stage.history_poll_ok hp
    obtain ⟨image, hread, hreplay⟩ := hf.memory
    refine ⟨⟨image, ?_, ?_⟩, ?_, ?_, ?_⟩
    · rw [hhistory]
      exact hread
    · rw [hhistory, hafter, History.replay_poll, ← hreplay, hmemory]
    · rw [hhistory, hafter]
      exact hf.name
    · rw [hhistory, hafter]
      exact congrArg (· + 1) hf.framesRun
    · rw [hhistory, hafter]
      exact hf.source

end Follows

theorem follows_initial (config : Config) (console : C) (m : Moment) :
    Follows seen (initial config (⟨console, #[]⟩ : Traced C) m) := by
  refine ⟨⟨.blank, fun a ↦ ?_, rfl⟩, rfl, rfl, ?_⟩
  · have hempty : (initial config (⟨console, #[]⟩ : Traced C) m).stage.history.program.size = 0 :=
      rfl
    rw [Memory.read_blank, dif_neg (by omega)]
  · rintro _ _ ⟨⟩

variable [Console C]

theorem follows_law :
    Law seen fun (h : Host (Traced C)) _ h' ↦ Follows seen h → Follows seen h' where
  refl _ hf := hf
  trans hx hy hf := hy (hx hf)
  take h hf := by
    rw [after_onStage]
    exact hf.congr rfl (Stage.history_takeCommands _) rfl rfl
  move h f hm hf := hf.congr rfl rfl rfl (Library.paths_of_move hm _)
  reload h files hs hf := by
    rcases reload_cases files h with ⟨e, -, hl⟩ | ⟨path, rom, memory, hr, hm, hl⟩ |
      ⟨path, rom, e, -, -, hl⟩ <;> simp only [after, hl]
    · exact hf.noted fun _ ↦ rfl
    · exact hf.inserted hs hr hm
    · exact hf.skipped path e
  frameRate h rate hf := by
    rcases setFrameRate_cases rate h with hrate | hrate <;> simp only [after, hrate]
    · exact hf
    · exact (hf.noted fun _ ↦ rfl).congr rfl rfl rfl rfl
  pause h hf := by
    have hf' : Follows seen { h with desk := { h.desk with paused := !h.desk.paused } } :=
      hf.congr rfl rfl rfl rfl
    have htoggled : Follows seen h.toggled := hf'.noted fun _ ↦ by split <;> rfl
    rcases togglePause_cases h with hpause | hpause
    · simpa only [after, hpause] using htoggled
    · have hafter : after togglePause h = after (onStage Stage.stopSound) h.toggled := by
        simp only [after, hpause]
      rw [hafter, after_onStage]
      exact htoggled.congr rfl (Stage.history_stopSound _) rfl rfl
  help _ hf := hf.congr rfl rfl rfl rfl
  info _ hf := hf.congr rfl rfl rfl rfl
  quit _ hf := hf.congr rfl rfl rfl rfl
  overlay _ _ hf := hf.overlaid
  redraw h _ _ hf := by
    rw [after_onStage]
    exact hf.congr rfl (Stage.history_redraw _) rfl rfl
  frame _ _ _ hf := hf.frame
  count _ _ hf := hf.congr rfl rfl rfl rfl
  stop h _ hf := by
    rw [after_onStage]
    exact hf.congr rfl (Stage.history_stopSound _) rfl rfl

theorem follows_start {config : Config} {console : C} {m : Moment} (hm : seen m.files)
    (hs : start config (⟨console, #[]⟩ : Traced C) m = .ok h) : Follows seen h := by
  obtain ⟨h₀, h₁, hinitial, rfl, hcases⟩ := start_cases hs
  have hf : Follows seen h₀ := by
    rw [hinitial]
    exact follows_initial config console m
  refine Follows.overlaid ?_
  rcases hcases with rfl | ⟨path, rom, memory, hr, hfits, rfl⟩ | ⟨path, e, rfl⟩
  · exact hf.congr rfl (Stage.history_report _ _) rfl rfl
  · exact hf.inserted hm hr hfits
  · exact hf.skipped path e

/-- A host that has started keeps its machine as the calls of its console tell, whatever requests it
serves and whatever comes of them. A request in which no mask is handed out and no ROM is loaded
leaves the machine alone. -/
theorem machine_follows_calls {config : Config} {console : C} {m : Moment}
    (hs : start config (⟨console, #[]⟩ : Traced C) m = .ok h) (requests : List Request) :
    Follows (fun files ↦ files = m.files ∨ ∃ r ∈ requests, files ∈ r.files)
        (afterAll requests h) ∧
      ∀ r, (afterAll (requests ++ [r]) h).stage.history = (afterAll requests h).stage.history →
        (afterAll (requests ++ [r]) h).machine = (afterAll requests h).machine := by
  have hfollows (requests : List Request) :
      Follows (fun files ↦ files = m.files ∨ ∃ r ∈ requests, files ∈ r.files)
        (afterAll requests h) :=
    afterAll_of_law follows_law requests (fun r hr _ hfiles ↦ .inr ⟨r, hr, hfiles⟩)
      (follows_start (.inl rfl) hs)
  exact ⟨hfollows requests, fun r hr ↦ (hfollows requests).machine_eq (hfollows _) hr⟩

theorem machine_follows_calls_of_rom :
    let rom : Path := .ofString "a.bp"
    let m : Moment := ⟨0, [], [([rom.bytes], .file ⟨#[1, 2, 3]⟩)]⟩
    let requests : List Request := [.tick m, .handle ⟨[], []⟩ .nextRom, .tick m]
    let console : Traced (Devices ScriptedKeypad ScriptedSpeaker ScriptedScreen) :=
      ⟨{ keypad := { masks := [some 5, none] }, speaker := { failPlay := [1] }, screen := {} }, #[]⟩
    ∃ h, start { rom := some rom } console m = .ok h ∧
      Follows (fun files ↦ files = m.files ∨ ∃ r ∈ requests, files ∈ r.files)
        (afterAll requests h) ∧
      ∀ r, (afterAll (requests ++ [r]) h).stage.history = (afterAll requests h).stage.history →
        (afterAll (requests ++ [r]) h).machine = (afterAll requests h).machine := by
  intro rom m requests console
  have hcurrent : (library { rom := some rom } m.files).current? = some rom := by decide +kernel
  have hread : m.files.read rom = .ok ⟨#[1, 2, 3]⟩ := rfl
  have hs := start_eq_inserted hcurrent hread (dif_pos (by decide)) console
  exact ⟨_, hs, machine_follows_calls hs requests⟩

end Host

end CopyJump
