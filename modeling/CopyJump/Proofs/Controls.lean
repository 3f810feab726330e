import CopyJump.Proofs.LoopCalls

namespace CopyJump

structure Controls where
  frameRate : Nat
  paused : Bool
  showHelp : Bool
  showInfo : Bool
  quit : Bool
  cursor : Nat
deriving DecidableEq

namespace Controls

def paced (c : Controls) (rate : Nat) : Controls := { c with frameRate := max 1 (min 60 rate) }

def steer (roms : Nat) (c : Controls) : HostCommand → Controls
  | .nextRom => { c with cursor := min (c.cursor + 1) (roms - 1) }
  | .previousRom => { c with cursor := c.cursor - 1 }
  | .togglePause => { c with paused := !c.paused }
  | .fasterFrameRate => c.paced (c.frameRate + 1)
  | .slowerFrameRate => c.paced (c.frameRate - 1)
  | .resetFrameRate => c.paced 60
  | .toggleHelp => { c with showHelp := !c.showHelp }
  | .toggleInfo => { c with showInfo := !c.showInfo }
  | .quit => { c with quit := true }

def initial (config : Config) (cursor : Nat) : Controls where
  frameRate := max 1 (min 60 config.frameRate)
  paused := false
  showHelp := config.showHelp
  showInfo := config.showInfo
  quit := false
  cursor := cursor

structure InBounds (roms : Nat) (c : Controls) : Prop where
  slowest_le : 1 ≤ c.frameRate
  le_fastest : c.frameRate ≤ 60
  cursor_le : c.cursor ≤ roms - 1

theorem InBounds.steer {roms : Nat} {c : Controls} (hc : InBounds roms c) (command : HostCommand) :
    InBounds roms (c.steer roms command) := by
  obtain ⟨hslowest, hfastest, hcursor⟩ := hc
  cases command with
  | nextRom => exact ⟨hslowest, hfastest, Nat.min_le_right _ _⟩
  | previousRom => exact ⟨hslowest, hfastest, (Nat.sub_le _ _).trans hcursor⟩
  | fasterFrameRate | slowerFrameRate | resetFrameRate =>
    refine ⟨?_, ?_, hcursor⟩ <;> simp only [Controls.steer, paced] <;> omega
  | togglePause | toggleHelp | toggleInfo | quit => exact ⟨hslowest, hfastest, hcursor⟩

theorem InBounds.foldl {roms : Nat} {c : Controls} (hc : InBounds roms c)
    (commands : List HostCommand) : InBounds roms (commands.foldl (Controls.steer roms) c) := by
  induction commands generalizing c with
  | nil => exact hc
  | cons command commands ih => exact ih (hc.steer command)

theorem inBounds_initial {config : Config} {roms cursor : Nat} (h : cursor ≤ roms - 1) :
    InBounds roms (initial config cursor) := by
  refine ⟨?_, ?_, h⟩ <;> simp only [initial] <;> omega

end Controls

def Desk.controls (d : Desk) : Controls :=
  ⟨d.frameRate, d.paused, d.showHelp, d.showInfo, d.quit, d.library.cursor⟩

namespace Library

theorem cursor_next {l : Library} (h : l.cursor ≤ l.size - 1) :
    l.next.cursor = min (l.cursor + 1) (l.size - 1) := by
  unfold next
  split
  · show l.cursor + 1 = _
    omega
  · omega

theorem cursor_startingAt_le (files : FileTree) (dir rom : Path) :
    (startingAt files dir rom).cursor ≤ (startingAt files dir rom).size - 1 := by
  unfold startingAt
  dsimp only [size]
  generalize (if (scan files dir).paths.any (·.same rom) then (scan files dir).paths
    else ((scan files dir).paths ++ [rom]).mergeSort Path.le) = paths
  cases hfound : paths.findIdx? (·.same rom) with
  | none => exact Nat.zero_le _
  | some i =>
    have hlt : i < paths.length := (List.findIdx?_eq_some_iff_findIdx_eq.mp hfound).1
    show i ≤ paths.length - 1
    omega

end Library

def Call.commands : Call → List HostCommand
  | .take (.ok commands) => commands
  | _ => []

def commandsTaken (calls : List Call) : List HostCommand := calls.flatMap Call.commands

theorem commandsTaken_append (calls calls' : List Call) :
    commandsTaken (calls ++ calls') = commandsTaken calls ++ commandsTaken calls' :=
  List.flatMap_append

theorem commandsTaken_eq_nil {calls : List Call} (h : ∀ c ∈ calls, c.commands = []) :
    commandsTaken calls = [] :=
  List.flatMap_eq_nil_iff.mpr h

theorem commandsTaken_filter_isDevice (calls : List Call) :
    commandsTaken (calls.filter Call.isDevice) = commandsTaken calls := by
  induction calls with
  | nil => rfl
  | cons c calls ih =>
    cases c with
    | report m => exact ih
    | _ => exact congrArg (_ ++ ·) ih

def Request.commands : Request → List HostCommand
  | .handle _ command => [command]
  | _ => []

namespace Host

theorem cursor_library_le (config : Config) (files : FileTree) :
    (library config files).cursor ≤ (library config files).size - 1 := by
  unfold library
  cases config.rom with
  | some rom => exact Library.cursor_startingAt_le files (dirFor config rom) rom
  | none => exact Nat.zero_le _

variable {C : Type}

theorem failedStops_le {h h' : Host (Traced C)} {added : List Call}
    (hcalls : h'.stage.calls = h.stage.calls ++ added) : h.failedStops ≤ h'.failedStops := by
  rw [failedStops, failedStops, hcalls, List.countP_append]
  exact Nat.le_add_right _ _

/-- Commands were to be handled between two hosts. Those that were have steered the desk, and all of
them were if no stop has failed. -/
structure Steered (commands : List HostCommand) (h h' : Host (Traced C)) : Prop where
  failedStops_le : h.failedStops ≤ h'.failedStops
  controls : h.desk.controls.InBounds h.desk.library.size →
    h'.desk.library.paths = h.desk.library.paths ∧ ∃ handled : List HostCommand,
      (h'.failedStops = 0 → handled = commands) ∧
        h'.desk.controls = handled.foldl (Controls.steer h.desk.library.size) h.desk.controls

namespace Steered

variable {commands commands' : List HostCommand} {h h' h'' : Host (Traced C)}

theorem of_same (hcalls : ∃ added, h'.stage.calls = h.stage.calls ++ added)
    (hlibrary : h'.desk.library = h.desk.library)
    (hcontrols : h'.desk.controls = h.desk.controls) : Steered [] h h' := by
  obtain ⟨added, hcalls⟩ := hcalls
  refine ⟨Host.failedStops_le hcalls, ?_⟩
  intro _
  exact ⟨congrArg Library.paths hlibrary, [], fun _ ↦ rfl, hcontrols⟩

theorem trans (hs : Steered commands h h') (hs' : Steered commands' h' h'') :
    Steered (commands ++ commands') h h'' := by
  refine ⟨hs.failedStops_le.trans hs'.failedStops_le, ?_⟩
  intro hbounds
  obtain ⟨hpaths, handled, hall, hcontrols⟩ := hs.controls hbounds
  have hsize : h'.desk.library.size = h.desk.library.size := congrArg List.length hpaths
  have hbounds' : h'.desk.controls.InBounds h'.desk.library.size := by
    rw [hcontrols, hsize]
    exact hbounds.foldl handled
  obtain ⟨hpaths', handled', hall', hcontrols'⟩ := hs'.controls hbounds'
  refine ⟨hpaths'.trans hpaths, handled ++ handled', ?_, ?_⟩
  · intro hnone
    rw [hall (Nat.le_zero.mp (hnone ▸ hs'.failedStops_le)), hall' hnone]
  · rw [List.foldl_append, hcontrols', hcontrols, hsize]

theorem of_failed (hs : Steered commands h h') (hfailed : h'.failedStops ≠ 0)
    (more : List HostCommand) : Steered (commands ++ more) h h' := by
  refine ⟨hs.failedStops_le, ?_⟩
  intro hbounds
  obtain ⟨hpaths, handled, -, hcontrols⟩ := hs.controls hbounds
  exact ⟨hpaths, handled, fun hnone ↦ absurd hnone hfailed, hcontrols⟩

end Steered

theorem BatchCalls.commandsTaken_eq_nil {commands : List HostCommand} {h h' : Host C}
    {calls : List Call} {fault : Option Error} (hb : BatchCalls commands h h' calls fault) :
    commandsTaken calls = [] := by
  apply CopyJump.commandsTaken_eq_nil
  cases hb with
  | done =>
    intro c hc
    rw [List.eq_of_mem_replicate hc]
    rfl
  | stuck stops hstops reason =>
    intro c hc
    rcases List.mem_append.mp hc with hc | hc
    · rw [List.eq_of_mem_replicate hc]
      rfl
    · rw [List.mem_singleton.mp hc]
      rfl

theorem PictureCalls.spec {mute : Bool} {now : Time} {h h' : Host C} {calls : List Call}
    {fault : Option Error} (hp : PictureCalls mute now h h' calls fault) :
    commandsTaken calls = [] ∧ h'.desk.library = h.desk.library ∧
      h'.desk.controls = h.desk.controls := by
  cases hp with
  | quit hquit hh =>
    rw [hh]
    exact ⟨rfl, rfl, rfl⟩
  | paused hquit hpaused result hmachine hdesk =>
    rw [hdesk]
    exact ⟨rfl, rfl, rfl⟩
  | keyless hquit hpaused fault hmachine hdesk =>
    rw [hdesk]
    exact ⟨rfl, rfl, rfl⟩
  | ran hquit hpaused keys frames sound result hframe hsound hdesk =>
    refine ⟨?_, ?_, ?_⟩
    · cases mute with
      | true =>
        rw [if_pos rfl] at hsound
        rw [hsound]
        rfl
      | false =>
        obtain ⟨played, rfl⟩ := hsound
        rfl
    · rw [hdesk]
      cases result <;> rfl
    · rw [hdesk]
      cases result <;> rfl

theorem failedStops_ne_zero {h h' : Host (Traced C)} {e : Error}
    (hfailed : h'.failedStops = h.failedStops + soundErrors (some e)) (he : e.isSound = true) :
    h'.failedStops ≠ 0 := by
  rw [hfailed, soundErrors, Option.any_some, he]
  exact Nat.succ_ne_zero _

theorem BatchCalls.isSound {commands : List HostCommand} {h h' : Host C} {calls : List Call}
    {e : Error} (hb : BatchCalls commands h h' calls (some e)) : e.isSound = true := by
  cases hb
  rfl

variable [Console C]

theorem library_reload (files : FileTree) (h : Host C) :
    (after (reload files) h).desk.library = h.desk.library ∧
      (after (reload files) h).desk.controls = h.desk.controls := by
  rcases reload_cases files h with ⟨e, -, hl⟩ | ⟨path, rom, memory, -, -, hl⟩ |
    ⟨path, rom, e, -, -, hl⟩ <;> rw [after, hl] <;> exact ⟨rfl, rfl⟩

theorem browse_of_isEmpty {h : Host C} (he : h.desk.library.isEmpty = true) (files : FileTree)
    (f : Library → Library) : browse files f h = .ok () h := by
  rw [browse, bind_eq_of_ok (getDesk_apply h), if_pos he]
  rfl

theorem browse_of_not_isEmpty {h : Host C} (he : ¬h.desk.library.isEmpty = true)
    (files : FileTree) (f : Library → Library) :
    browse files f h =
      reload files { h with desk := { h.desk with library := f h.desk.library } } := by
  rw [browse, bind_eq_of_ok (getDesk_apply h), if_neg he]
  rfl

theorem browse_controls (files : FileTree) {f : Library → Library}
    (hf : f = Library.next ∨ f = Library.previous) {h : Host C}
    (hcursor : h.desk.library.cursor ≤ h.desk.library.size - 1) :
    let h' := after (browse files f) h
    h'.desk.library.paths = h.desk.library.paths ∧
      h'.desk.controls = { h.desk.controls with cursor := (f h.desk.library).cursor } := by
  by_cases he : h.desk.library.isEmpty = true
  · rw [after, browse_of_isEmpty he]
    have hsize : h.desk.library.size = 0 := List.length_eq_zero_iff.mpr (List.isEmpty_iff.mp he)
    have hsame : (f h.desk.library).cursor = h.desk.library.cursor := by
      rcases hf with rfl | rfl
      · rw [Library.cursor_next hcursor]
        omega
      · show h.desk.library.cursor - 1 = h.desk.library.cursor
        omega
    rw [hsame]
    exact ⟨rfl, rfl⟩
  -- The cursor moves first; nothing that the reload does puts it back.
  · rw [after, browse_of_not_isEmpty he, ← after]
    obtain ⟨hlibrary, hcontrols⟩ := library_reload files
      { h with desk := { h.desk with library := f h.desk.library } }
    exact ⟨hlibrary ▸ Library.paths_of_move hf _, hcontrols⟩

theorem setFrameRate_controls (rate : Nat) (h : Host C) :
    let h' := after (setFrameRate rate) h
    h'.desk.library = h.desk.library ∧ h'.desk.controls = h.desk.controls.paced rate := by
  by_cases hsame : FrameRate.clamp rate = h.desk.frameRate
  · rw [after, setFrameRate_eq, if_pos hsame]
    refine ⟨rfl, ?_⟩
    rw [Controls.paced, show max 1 (min 60 rate) = h.desk.frameRate from hsame]
    rfl
  · rw [after, setFrameRate_eq, if_neg hsame]
    exact ⟨rfl, rfl⟩

theorem togglePause_controls (h : Host C) :
    let h' := after togglePause h
    h'.desk.library = h.desk.library ∧
      h'.desk.controls = { h.desk.controls with paused := !h.desk.controls.paused } := by
  cases hp : h.desk.paused with
  | true =>
    rw [after, togglePause_of_paused hp]
    exact ⟨rfl, rfl⟩
  | false =>
    rw [after_togglePause_of_running hp]
    exact ⟨rfl, rfl⟩

theorem handle_controls (files : FileTree) (command : HostCommand) {h : Host C}
    (hcursor : h.desk.library.cursor ≤ h.desk.library.size - 1) :
    let h' := after (handle files command) h
    h'.desk.library.paths = h.desk.library.paths ∧
      h'.desk.controls = h.desk.controls.steer h.desk.library.size command := by
  have of_library {h' : Host C} {c : Controls}
      (hh' : h'.desk.library = h.desk.library ∧ h'.desk.controls = c) :
      h'.desk.library.paths = h.desk.library.paths ∧ h'.desk.controls = c :=
    ⟨congrArg Library.paths hh'.1, hh'.2⟩
  cases command with
  | nextRom =>
    have hbrowse := browse_controls files (.inl rfl) hcursor
    rwa [Library.cursor_next hcursor] at hbrowse
  | previousRom => exact browse_controls files (.inr rfl) hcursor
  | togglePause => exact of_library (togglePause_controls h)
  | fasterFrameRate => exact of_library (setFrameRate_controls _ h)
  | slowerFrameRate => exact of_library (setFrameRate_controls _ h)
  | resetFrameRate => exact of_library (setFrameRate_controls 60 h)
  | toggleHelp => exact ⟨rfl, rfl⟩
  | toggleInfo => exact ⟨rfl, rfl⟩
  | quit => exact ⟨rfl, rfl⟩

theorem steered_handle (files : FileTree) (command : HostCommand) (h : Host (Traced C)) :
    Steered [command] h (after (handle files command) h) := by
  obtain ⟨-, said, hcalls, -⟩ := handle_batch files command h
  refine ⟨failedStops_le hcalls, ?_⟩
  intro hbounds
  obtain ⟨hpaths, hcontrols⟩ := handle_controls files command hbounds.cursor_le
  exact ⟨hpaths, [command], fun _ ↦ rfl, hcontrols⟩

theorem failedStops_of_error {files : FileTree} {command : HostCommand} {h : Host (Traced C)}
    {e : Error} (he : outcome (handle files command) h = .error e) :
    (after (handle files command) h).failedStops ≠ 0 := by
  obtain ⟨-, said, -, -, hbatch⟩ := handle_batch files command h
  have hfailed : (after (handle files command) h).failedStops =
      h.failedStops + soundErrors (fault? (handle files command) h) :=
    failedStops_law.handle trivial command h
  rw [fault?, he] at hbatch hfailed
  exact failedStops_ne_zero hfailed hbatch.isSound

theorem steered_handleAll (files : FileTree) (commands : List HostCommand)
    (h : Host (Traced C)) : Steered commands h (after (handleAll files commands) h) := by
  induction commands generalizing h with
  | nil => exact .of_same ⟨[], (List.append_nil _).symm⟩ rfl rfl
  | cons command commands ih =>
    have hcons : handleAll (C := Traced C) files (command :: commands) =
        handle files command >>= fun _ ↦ handleAll files commands := rfl
    have hfirst := steered_handle files command h
    rw [hcons, after_bind]
    -- An error leaves out the rest of the batch; only a failed stop gives one.
    cases hout : outcome (handle files command) h with
    | error e => exact hfirst.of_failed (failedStops_of_error hout) commands
    | ok _ => exact hfirst.trans (ih _)

theorem handleAll_takes_none (files : FileTree) (commands : List HostCommand)
    (h : Host (Traced C)) :
    ∃ said, (after (handleAll files commands) h).stage.calls = h.stage.calls ++ said ∧
      commandsTaken said = [] := by
  obtain ⟨-, said, hcalls, -, hbatch⟩ := handleAll_batch files commands h
  refine ⟨said, hcalls, ?_⟩
  rw [← commandsTaken_filter_isDevice]
  exact hbatch.commandsTaken_eq_nil

theorem steered_refresh (now : Time) (h : Host (Traced C)) :
    let h' := after (refresh now) h
    Steered [] h h' ∧ ∃ shown, h'.stage.calls = h.stage.calls ++ shown ∧
      commandsTaken shown = [] := by
  obtain ⟨shown, hcalls, -, hpicture⟩ := refresh_calls now h
  obtain ⟨hnone, hlibrary, hcontrols⟩ := hpicture.spec
  rw [commandsTaken_filter_isDevice] at hnone
  exact ⟨.of_same ⟨shown, hcalls⟩ hlibrary hcontrols, shown, hcalls, hnone⟩

theorem steered_tick (m : Moment) (h : Host (Traced C)) :
    let h' := after (tick m) h
    ∃ added, h'.stage.calls = h.stage.calls ++ added ∧ Steered (commandsTaken added) h h' := by
  intro h'
  have hh' : h' = after (tick m) h := rfl
  obtain ⟨result, hresult, htaken, hmachine, hdesk, -, -⟩ := h.takeCommands_calls
  have htake : Steered [] h (after (onStage Stage.takeCommands) h) :=
    .of_same ⟨_, htaken⟩ (congrArg Desk.library hdesk) (congrArg Desk.controls hdesk)
  rw [hh', tick_eq, after_bind, hresult]
  cases result with
  | error fault => exact ⟨_, htaken, htake⟩
  | ok commands =>
    dsimp only [Except.mapError]
    obtain ⟨said, hsaid, hnone⟩ :=
      handleAll_takes_none m.files commands (after (onStage Stage.takeCommands) h)
    have hhandled := htake.trans
      (steered_handleAll m.files commands (after (onStage Stage.takeCommands) h))
    have hbatch : commandsTaken [.take (.ok commands)] = commands := List.append_nil commands
    rw [List.nil_append] at hhandled
    rw [htaken, List.append_assoc] at hsaid
    rw [after_bind]
    cases outcome (handleAll m.files commands) (after (onStage Stage.takeCommands) h) with
    | error e =>
      refine ⟨_, hsaid, ?_⟩
      rw [commandsTaken_append, hbatch, hnone, List.append_nil]
      exact hhandled
    | ok _ =>
      obtain ⟨hrefresh, shown, hshown, hnone'⟩ := steered_refresh m.now
        (after (handleAll m.files commands) (after (onStage Stage.takeCommands) h))
      rw [hsaid, List.append_assoc] at hshown
      refine ⟨_, hshown, ?_⟩
      rw [commandsTaken_append, commandsTaken_append, hbatch, hnone, hnone', List.append_nil]
      exact hhandled.trans hrefresh

theorem steered_closing {h : Host (Traced C)} (hquit : h.desk.quit = true) :
    let h' := after closing h
    ∃ added, h'.stage.calls = h.stage.calls ++ added ∧ Steered (commandsTaken added) h h' := by
  have hafter : after closing h = { h with stage := h.stage.stopSound.2 } := by
    have hstop := after_onStage Stage.stopSound h
    rw [after, closing_of_quit hquit, ← after, after_bind]
    cases outcome (onStage Stage.stopSound) h <;> exact hstop
  rw [hafter]
  exact ⟨_, h.stage.calls_stopSound, .of_same ⟨_, h.stage.calls_stopSound⟩ rfl rfl⟩

theorem steered_mainLoop (moments : List Moment) (h : Host (Traced C)) :
    let h' := after (mainLoop moments) h
    ∃ added, h'.stage.calls = h.stage.calls ++ added ∧ Steered (commandsTaken added) h h' := by
  induction moments generalizing h with
  | nil =>
    cases hquit : h.desk.quit with
    | true => exact steered_closing hquit
    | false =>
      have hloop : mainLoop [] h = .ok false h := closing_of_not_quit hquit
      rw [after, hloop]
      have hnil : h.stage.calls = h.stage.calls ++ [] := (List.append_nil _).symm
      exact ⟨[], hnil, .of_same ⟨[], hnil⟩ rfl rfl⟩
  | cons m moments ih =>
    cases hquit : h.desk.quit with
    | true =>
      rw [after, mainLoop_of_quit hquit, ← after]
      exact steered_closing hquit
    | false =>
      obtain ⟨added, hcalls, hticked⟩ := steered_tick m h
      rw [after, mainLoop_of_not_quit hquit, ← after, after_bind]
      cases outcome (tick m) h with
      | error e => exact ⟨added, hcalls, hticked⟩
      | ok _ =>
        obtain ⟨added', hcalls', hrest⟩ := ih (after (tick m) h)
        rw [hcalls, List.append_assoc] at hcalls'
        refine ⟨added ++ added', hcalls', ?_⟩
        rw [commandsTaken_append]
        exact hticked.trans hrest

def commandsOf (r : Request) (h : Host (Traced C)) : List HostCommand :=
  r.commands ++
    commandsTaken ((after (serve r) h).stage.calls.drop h.stage.calls.length)

/-- The commands that requests deliver, one request after the other. -/
def delivered : List Request → Host (Traced C) → List HostCommand
  | [], _ => []
  | r :: rs, h => commandsOf r h ++ delivered rs (after (serve r) h)

theorem commandsOf_eq {r : Request} {h : Host (Traced C)} {added : List Call}
    (hcalls : (after (serve r) h).stage.calls = h.stage.calls ++ added) :
    commandsOf r h = r.commands ++ commandsTaken added := by
  rw [commandsOf, hcalls, List.drop_left]

theorem steered_serve (r : Request) (h : Host (Traced C)) :
    Steered (commandsOf r h) h (after (serve r) h) := by
  cases r with
  | tick m =>
    obtain ⟨added, hcalls, hsteered⟩ := steered_tick m h
    rw [← after_serve_tick] at hcalls hsteered
    rw [commandsOf_eq hcalls]
    exact hsteered
  | handle files command =>
    obtain ⟨-, said, hcalls, -, hbatch⟩ := handle_batch files command h
    have hsteered := steered_handle files command h
    rw [← after_serve_handle] at hcalls hsteered
    rw [commandsOf_eq hcalls, ← commandsTaken_filter_isDevice, hbatch.commandsTaken_eq_nil]
    exact hsteered
  | mainLoop moments =>
    obtain ⟨added, hcalls, hsteered⟩ := steered_mainLoop moments h
    have hserve : after (serve (.mainLoop moments)) h = after (mainLoop moments) h := rfl
    rw [← hserve] at hcalls hsteered
    rw [commandsOf_eq hcalls]
    exact hsteered

theorem steered_afterAll (requests : List Request) (h : Host (Traced C)) :
    Steered (delivered requests h) h (afterAll requests h) := by
  induction requests generalizing h with
  | nil => exact .of_same ⟨[], (List.append_nil _).symm⟩ rfl rfl
  | cons r rs ih =>
    rw [afterAll_cons]
    exact (steered_serve r h).trans (ih _)

theorem start_controls {config : Config} {console : C} {m : Moment} {h : Host C}
    (hs : start config console m = .ok h) :
    h.desk.library = library config m.files ∧
      h.desk.controls = .initial config (library config m.files).cursor := by
  obtain ⟨h₀, h₁, rfl, rfl, hcases⟩ := start_cases hs
  rcases hcases with rfl | ⟨path, rom, memory, -, -, rfl⟩ | ⟨path, e, rfl⟩ <;> exact ⟨rfl, rfl⟩

theorem outcome_browse (files : FileTree) (f : Library → Library) (h : Host (Traced C)) :
    outcome (browse files f) h = .ok () :=
  (quiet_browse files h).1

/-- As long as no stop has failed, the controls of a host that has started are a fold of the commands
delivered to it, over those of its configuration. The rate is in bounds whatever has failed, and
browsing never ends with an error. -/
theorem controls_fold_delivered {config : Config} {console : C} {m : Moment} {h : Host (Traced C)}
    (hs : start config (⟨console, #[]⟩ : Traced C) m = .ok h) (requests : List Request) :
    let roms := library config m.files
    let h' := afterAll requests h
    (h'.failedStops = 0 → h'.desk.controls =
        (delivered requests h).foldl (Controls.steer roms.size) (.initial config roms.cursor)) ∧
      h'.desk.library.paths = roms.paths ∧
      1 ≤ h'.desk.frameRate ∧ h'.desk.frameRate ≤ 60 ∧ h'.desk.frameRate + 1 < 2 ^ 32 ∧
      ∀ files, outcome (handle files .nextRom) h' = .ok () ∧
        outcome (handle files .previousRom) h' = .ok () := by
  intro roms h'
  obtain ⟨hlibrary, hcontrols⟩ := start_controls hs
  have hbounds : h.desk.controls.InBounds h.desk.library.size := by
    rw [hcontrols, hlibrary]
    exact Controls.inBounds_initial (cursor_library_le config m.files)
  obtain ⟨hpaths, handled, hall, hfold⟩ := (steered_afterAll requests h).controls hbounds
  have hbounds' := hbounds.foldl handled
  rw [← hfold] at hbounds'
  rw [hlibrary] at hpaths
  rw [hlibrary, hcontrols] at hfold
  refine ⟨?_, hpaths, hbounds'.slowest_le, hbounds'.le_fastest, ?_, ?_⟩
  · intro hnone
    rw [← hall hnone]
    exact hfold
  · have hfastest : h'.desk.frameRate ≤ 60 := hbounds'.le_fastest
    omega
  · intro files
    exact ⟨outcome_browse files _ h', outcome_browse files _ h'⟩

theorem controls_fold_delivered_of_missing_rom :
    let dir : Path := .ofString "roms"
    let first : Path := .ofString "a.bp"
    let second : Path := .ofString "b.bp"
    let files : FileTree := ⟨[], [([first.bytes, dir.bytes], .file ⟨#[1, 2, 3]⟩),
      ([second.bytes, dir.bytes], .file ⟨#[4]⟩), ([dir.bytes], .dir)]⟩
    let config : Config := { romDir := dir, frameRate := 75 }
    let batch : List HostCommand := [.togglePause, .nextRom, .slowerFrameRate, .nextRom]
    let console : Traced (Devices ScriptedKeypad ScriptedSpeaker ScriptedScreen) :=
      ⟨{ keypad := { batches := [some batch] }, speaker := {}, screen := { failDraw := [1] } }, #[]⟩
    let requests : List Request := [.tick ⟨1, ⟨[], []⟩⟩, .handle files .toggleHelp]
    ∃ h, start config console ⟨0, files⟩ = .ok h ∧ (afterAll requests h).failedStops = 0 ∧
      (afterAll requests h).desk.controls =
        (delivered requests h).foldl (Controls.steer 2) (.initial config 0) ∧
      (afterAll requests h).desk.controls = ⟨59, true, true, true, false, 1⟩ := by
  intro dir first second files config batch console requests
  have hlibrary : library config files =
      ⟨[dir.child first.bytes, dir.child second.bytes], 0⟩ := by
    have hfound : ((files.list dir).map dir.child).filter
        (fun p ↦ files.isFile p && p.isRom) = [dir.child first.bytes, dir.child second.bytes] := by
      decide +kernel
    show Library.scan files dir = _
    rw [Library.scan, hfound, Library.ofPaths, List.mergeSort_of_pairwise (by decide +kernel)]
  have hcurrent : (library config files).current? = some (dir.child first.bytes) := by
    rw [hlibrary]
    rfl
  have hread : files.read (dir.child first.bytes) = .ok ⟨#[1, 2, 3]⟩ := rfl
  have hs := start_eq_inserted (m := ⟨0, files⟩) hcurrent hread (dif_pos (by decide)) console
  obtain ⟨hfold, -⟩ := controls_fold_delivered hs requests
  -- With the library in place of its scan, the run can be evaluated.
  rw [initial, hlibrary] at hs hfold
  refine ⟨_, hs, ?hnone, ?_, ?_⟩
  · decide +kernel
  · exact hfold ?hnone
  · decide +kernel

end Host

end CopyJump
