import CopyJump.Device.Quiet
import CopyJump.Headless
import CopyJump.Proofs.Delivery
import CopyJump.Proofs.PathLookup
import CopyJump.Proofs.SteadyHost

namespace CopyJump

namespace Recorder

def Holds (r : Recorder) (m : Memory) : Prop :=
  r.lastVideo = some (Machine.frames m).2 ∧ r.lastAudio = some (Machine.frames m).1

theorem runFrame_eq {vm vm' : Machine Memory} {r : Recorder} {frames : AudioFrame × VideoFrame}
    (hf : vm.frame r.mask = (.ok frames, vm')) :
    vm.runFrame r = (.ok (), vm', { r with
      exchanges := ((r.exchanges.push .poll).push .audio).push .video
      frames := r.frames + 1
      lastAudio := some frames.1
      lastVideo := some frames.2 }) := by
  obtain ⟨audio, video⟩ := frames
  have hpoll : FrontEnd.poll r =
      (.ok r.mask, { r with exchanges := r.exchanges.push .poll }) := rfl
  rw [Machine.runFrame, hpoll]
  dsimp only
  rw [Machine.run, hf]
  rfl

theorem runFrames_eq (n : Nat) (vm : Machine Memory) (r : Recorder) :
    ∃ r', vm.runFrames n r =
        (.ok (), ⟨Machine.advanceBy r.mask n vm.memory, vm.framesRun + n⟩, r') ∧
      r'.frames = r.frames + n ∧ (n = 0 → r' = r) ∧
      (n ≠ 0 ∨ r.Holds vm.memory → r'.Holds (Machine.advanceBy r.mask n vm.memory)) := by
  induction n generalizing vm r with
  | zero => exact ⟨r, rfl, rfl, fun _ ↦ rfl, fun h ↦ h.resolve_left fun hn ↦ hn rfl⟩
  | succ n ih =>
    obtain ⟨m, k⟩ := vm
    obtain ⟨memory, hmemory, hf⟩ : ∃ memory, memory = Machine.advance m r.mask ∧
        Machine.frame ⟨m, k⟩ r.mask = (.ok (Machine.frames memory), ⟨memory, k + 1⟩) :=
      ⟨_, rfl, Machine.frame_eq m k r.mask⟩
    have hrun := runFrame_eq hf
    generalize hr₁ : ({ r with
      exchanges := ((r.exchanges.push .poll).push .audio).push .video
      frames := r.frames + 1
      lastAudio := some (Machine.frames memory).1
      lastVideo := some (Machine.frames memory).2 } : Recorder) = r₁ at hrun
    have hmask : r₁.mask = r.mask := by rw [← hr₁]
    have hholds : r₁.Holds memory := by
      rw [← hr₁]
      exact ⟨rfl, rfl⟩
    have hframes : r₁.frames = r.frames + 1 := by rw [← hr₁]
    obtain ⟨r', hrest, hframes', -, hlast⟩ := ih ⟨memory, k + 1⟩ r₁
    dsimp only at hrest hlast
    rw [hmask] at hrest hlast
    have hcount : k + 1 + n = k + (n + 1) := by omega
    have hsucc : Machine.advanceBy r.mask (n + 1) m = Machine.advanceBy r.mask n memory := by
      rw [Machine.advanceBy_succ, hmemory]
    refine ⟨r', ?_, by omega, fun hn ↦ by omega, fun _ ↦ ?_⟩
    · rw [Machine.runFrames, hrun]
      dsimp only
      rw [hrest, hsucc, hcount]
    · dsimp only
      rw [hsucc]
      exact hlast (.inr hholds)

end Recorder

namespace Headless

theorem boot_eq_ok {files : FileTree} {path : Path} {vm : Machine Memory}
    (h : boot files path = .ok vm) :
    ∃ data memory, files.read path = .ok data ∧ Memory.ofRom data = .ok memory ∧
      vm = ⟨memory, 0⟩ := by
  simp only [boot, bind, Except.bind] at h
  cases hr : files.read path with
  | error fault =>
    rw [hr] at h
    cases h
  | ok data =>
    rw [hr] at h
    dsimp only [Except.mapError] at h
    rcases hl : AddressSpace.loadFrom Memory.blank (Trickle.ofFile data) with ⟨e | _, memory⟩
    · rw [hl] at h
      cases h
    · rw [hl] at h
      cases h
      exact ⟨data, memory, rfl, loadFrom_ofFile_eq_ok.mp hl, rfl⟩

theorem run_eq_ok {config : Config} {files : FileTree} {log log' : Log} {summary : Summary}
    (h : run config files log = (.ok summary, log')) :
    ∃ path data memory, (library config files).current? = some path ∧
      files.read path = .ok data ∧ Memory.ofRom data = .ok memory ∧
      perform config path ⟨memory, 0⟩ = .ok summary := by
  unfold run at h
  cases hc : (library config files).current? with
  | none =>
    rw [hc] at h
    cases h
  | some path =>
    rw [hc] at h
    dsimp only at h
    cases hb : boot files path with
    | error e =>
      rw [hb] at h
      cases h
    | ok vm =>
      rw [hb] at h
      obtain ⟨data, memory, hr, hm, rfl⟩ := boot_eq_ok hb
      exact ⟨path, data, memory, rfl, hr, hm, (Prod.mk.inj h).1⟩

theorem run_succeeds {config : Config} {files : FileTree} {path : Path} {data : ByteArray}
    {memory : Memory} (hc : (library config files).current? = some path)
    (hr : files.read path = .ok data) (hm : Memory.ofRom data = .ok memory) (log : Log) :
    ∃ summary log', run config files log = (.ok summary, log') := by
  have hboot : boot files path = .ok ⟨memory, 0⟩ := by
    simp only [boot, hr, Except.mapError, bind, Except.bind, loadFrom_ofFile_eq_ok.mpr hm]
    rfl
  obtain ⟨r, hrun, -⟩ := Recorder.runFrames_eq config.frames ⟨memory, 0⟩ { mask := config.keys }
  obtain ⟨summary, hperform⟩ : ∃ summary, perform config path ⟨memory, 0⟩ = .ok summary := by
    rw [perform, hrun]
    exact ⟨_, rfl⟩
  refine ⟨summary, log.write .info s!"loaded {path.display}", ?_⟩
  unfold run
  rw [hc]
  dsimp only
  rw [hboot]
  dsimp only
  rw [hperform]

theorem perform_eq_ok {config : Config} {path : Path} {memory : Memory} {summary : Summary}
    (h : perform config path ⟨memory, 0⟩ = .ok summary) :
    summary.rom = some path.fileName ∧ summary.frames = config.frames ∧
      summary.instructions = 65536 * config.frames ∧
      summary.programCounter =
        Machine.start (Machine.advanceBy config.keys config.frames memory) ∧
      (config.frames = 0 → summary.video = 0 ∧ summary.audio = 0) ∧
      (config.frames ≠ 0 →
        let shown := Machine.frames (Machine.advanceBy config.keys config.frames memory)
        summary.video = digest shown.2.bytes ∧ summary.audio = digest shown.1.bytes) := by
  obtain ⟨r, hrun, hframes, hnone, hlast⟩ :=
    Recorder.runFrames_eq config.frames ⟨memory, 0⟩ { mask := config.keys }
  dsimp only at hrun hframes hlast
  rw [Nat.zero_add] at hframes
  generalize Machine.advanceBy config.keys config.frames memory = final at hrun hlast ⊢
  rw [perform, hrun] at h
  dsimp only at h
  cases h
  refine ⟨rfl, hframes, ?_, rfl, ?_, ?_⟩
  · rw [hframes, Nat.mul_comm, Machine.instructionsPerFrame]
  · intro hn
    rw [hnone hn]
    exact ⟨rfl, rfl⟩
  · intro hn
    obtain ⟨hvideo, haudio⟩ := hlast (.inl hn)
    have hv : (r.lastVideo.map (digest ·.bytes)).getD 0 =
        digest (Machine.frames final).2.bytes := by
      rw [hvideo, Option.map_some, Option.getD_some]
    have ha : (r.lastAudio.map (digest ·.bytes)).getD 0 =
        digest (Machine.frames final).1.bytes := by
      rw [haudio, Option.map_some, Option.getD_some]
    exact ⟨hv, ha⟩

theorem current?_library {config : Config} {files : FileTree} {path : Path} {data : ByteArray}
    (hc : (library config files).current? = some path) (hr : files.read path = .ok data) :
    ∃ path', (Host.library config files).current? = some path' ∧
      path'.fileName = path.fileName ∧ files.read path' = .ok data := by
  unfold library at hc
  unfold Host.library
  cases hrom : config.rom with
  | none =>
    rw [hrom] at hc
    exact ⟨path, hc, rfl, hr⟩
  | some rom =>
    rw [hrom] at hc
    have hpath : path = rom := by
      simp only [Library.current?, Library.ofPaths, List.mergeSort_singleton] at hc
      exact (Option.some.inj hc).symm
    obtain ⟨path', hc', hsame, hr'⟩ :=
      Library.current?_startingAt (hpath ▸ hr) (Host.dirFor config rom)
    refine ⟨path', hc', ?_, hr'⟩
    rw [hpath]
    exact FileTree.fileName_eq_of_same hsame hr'

end Headless

namespace Host

variable {C : Type} [Console C] {I : C → Prop}

theorem running_start {keys : UInt16} (steady : Steady keys I) {console : C} (hi : I console)
    {config : Config} {m : Moment} {path : Path} {rom : ByteArray} {memory : Memory}
    (hc : (library config m.files).current? = some path) (hr : m.files.read path = .ok rom)
    (hm : Memory.ofRom rom = .ok memory) :
    ∃ host, start config (⟨console, #[]⟩ : Traced C) m = .ok host ∧ Running I host ∧
      host.desk.rom = some path.fileName ∧ host.machine = ⟨memory, 0⟩ ∧
      lastDrawn host.stage.calls = none ∧ lastPlayed host.stage.calls = none := by
  refine ⟨_, start_eq_inserted hc hr hm _, ?_, rfl, rfl, rfl, rfl⟩
  refine Running.overlaid steady ⟨?_, rfl, rfl, rfl⟩
  exact steady.report _ _ hi

/-- If a headless session succeeds, then so does a host with the same configuration, on a console
that has the same keys, no commands and never fails. After as many ticks as the session had frames
it has the same ROM, frames and program counter, and what it has drawn and played last has the
digests of the session's summary. -/
theorem headless_agrees {config : Config} {files : FileTree} {log log' : Log}
    {summary : Headless.Summary} (hrun : Headless.run config files log = (.ok summary, log'))
    (steady : Steady config.keys I) {console : C} (hi : I console) (now : Time)
    {moments : List Moment} (hn : moments.length = config.frames) :
    ∃ host, start config (⟨console, #[]⟩ : Traced C) ⟨now, files⟩ = .ok host ∧
      outcomes (moments.map .tick) host = List.replicate config.frames (.ok false) ∧
      let final := afterAll (moments.map .tick) host
      final.desk.rom = summary.rom ∧
      final.machine.framesRun = config.frames ∧ summary.frames = config.frames ∧
      summary.instructions = 65536 * config.frames ∧
      Machine.start final.machine.memory = summary.programCounter ∧
      (config.frames = 0 →
        lastDrawn final.stage.calls = none ∧ summary.video = 0 ∧
        lastPlayed final.stage.calls = none ∧ summary.audio = 0) ∧
      (config.frames ≠ 0 → ∃ video audio,
        lastDrawn final.stage.calls = some video ∧ summary.video = digest video.bytes ∧
        lastPlayed final.stage.calls = some audio ∧ summary.audio = digest audio.bytes) := by
  obtain ⟨path, data, memory, hc, hr, hm, hperform⟩ := Headless.run_eq_ok hrun
  obtain ⟨hrom, hframes, hinstructions, hpc, hnone, hlast⟩ := Headless.perform_eq_ok hperform
  obtain ⟨path', hc', hname, hr'⟩ := Headless.current?_library hc hr
  obtain ⟨host, hstart, hrunning, hrom', hmachine, hdrawn, hplayed⟩ :=
    running_start (m := ⟨now, files⟩) steady hi hc' hr' hm
  obtain ⟨hout, hshows, hsame, hmachine'⟩ := ticks_running steady moments hrunning
  rw [hmachine, hn, Nat.zero_add] at hmachine'
  have hidle : config.frames = 0 → afterAll (moments.map .tick) host = host := by
    intro hframes
    rw [List.eq_nil_of_length_eq_zero (hn.trans hframes)]
    rfl
  refine ⟨host, hstart, hn ▸ hout, ?_⟩
  generalize afterAll (moments.map .tick) host = final at hshows hsame hmachine' hidle ⊢
  dsimp only at hlast hmachine' ⊢
  refine ⟨?_, by rw [hmachine'], hframes, hinstructions, by rw [hmachine', hpc], ?_, ?_⟩
  · rw [hsame, hrom', hrom, hname]
  · intro hframes
    obtain ⟨hvideo, haudio⟩ := hnone hframes
    rw [hidle hframes]
    exact ⟨hdrawn, hvideo, hplayed, haudio⟩
  · intro hframes
    have hmoments : moments ≠ [] := by
      rintro rfl
      exact hframes hn.symm
    obtain ⟨hdrawn, hplayed⟩ := hshows (.inl hmoments)
    obtain ⟨hvideo, haudio⟩ := hlast hframes
    rw [hmachine'] at hdrawn hplayed
    exact ⟨_, _, hdrawn, hvideo, hplayed, haudio⟩

theorem steady_fixed (keys : UInt16) :
    Steady keys fun c : Devices FixedKeypad Mute CountingScreen ↦ c.keypad = ⟨keys, []⟩ where
  take c hi := by
    obtain ⟨keypad, speaker, screen, log⟩ := c
    cases hi
    exact ⟨_, rfl, rfl⟩
  poll c hi := by
    obtain ⟨keypad, speaker, screen, log⟩ := c
    cases hi
    exact ⟨_, rfl, rfl⟩
  play c frame hi := ⟨c, rfl, hi⟩
  draw c frame hi := ⟨_, rfl, hi⟩
  overlay c lines hi := hi
  report c m hi := hi

theorem headless_agrees_on_two_frames :
    let rom : Path := .ofString "a.bp"
    let files : FileTree := ⟨[], [([rom.bytes], .file ⟨#[1, 2, 3]⟩)]⟩
    let config : Config := { rom := some rom, frames := 2, keys := 5 }
    let console : Devices FixedKeypad Mute CountingScreen := ⟨⟨5, []⟩, ⟨⟩, {}, {}⟩
    let moments : List Moment := [⟨1, files⟩, ⟨2, files⟩]
    ∃ summary log' host, Headless.run config files {} = (.ok summary, log') ∧
      start config (⟨console, #[]⟩ : Traced _) ⟨0, files⟩ = .ok host ∧
      outcomes (moments.map .tick) host = [.ok false, .ok false] ∧
      (afterAll (moments.map .tick) host).desk.rom = summary.rom := by
  intro rom files config console moments
  have hcurrent : (Headless.library config files).current? = some rom := by decide +kernel
  have hread : files.read rom = .ok ⟨#[1, 2, 3]⟩ := rfl
  obtain ⟨summary, log', hrun⟩ :=
    Headless.run_succeeds hcurrent hread (dif_pos (by decide)) {}
  have hkeypad : console.keypad = ⟨5, []⟩ := rfl
  have hmoments : moments.length = config.frames := rfl
  obtain ⟨host, hstart, hout, hrom, -⟩ :=
    headless_agrees hrun (steady_fixed 5) hkeypad 0 hmoments
  exact ⟨summary, log', host, hrun, hstart, hout, hrom⟩

end Host

end CopyJump
