import CopyJump.Config
import CopyJump.Desk
import CopyJump.Memory
import CopyJump.Stage

namespace CopyJump

structure Host (C : Type) where
  machine : Machine Memory
  stage : Stage C
  desk : Desk

/-- The clock and the files, as they are when the host looks. -/
structure Moment where
  now : Time
  files : FileTree

/-- What a host does: a result or an error, and the host after it. What it did before an error stays
done. -/
abbrev HostM (C : Type) := EStateM Error (Host C)

namespace Host

variable {C : Type}

def onStage {α : Type} (f : Stage C → Except Error α × Stage C) : HostM C α
  | ⟨machine, stage, desk⟩ =>
    match f stage with
    | (.ok a, stage) => .ok a ⟨machine, stage, desk⟩
    | (.error e, stage) => .error e ⟨machine, stage, desk⟩

def getDesk : HostM C Desk := return (← get).desk

def modifyDesk (f : Desk → Desk) : HostM C Unit := modify fun h ↦ { h with desk := f h.desk }

variable [Console C]

def report (m : Message) : HostM C Unit := modify fun h ↦ { h with stage := h.stage.report m }

def notify (m : Message) : HostM C Unit := do
  report m
  modifyDesk ({ · with status := some m.text })

def insertRom (rom : ByteArray) : HostM C (Except Error Unit)
  | ⟨machine, stage, desk⟩ =>
    match machine.load rom with
    | (result, machine) => .ok result ⟨machine, stage, desk⟩

/-- Loads the ROM at the cursor. One that does not fit is reported, and the machine goes on with
what it had. -/
def loadCurrent (files : FileTree) : HostM C Unit := do
  let desk ← getDesk
  let (path, rom) ← MonadExcept.ofExcept (desk.library.read files desk.romDir)
  match ← insertRom rom with
  | .ok () =>
    notify (.loaded path.fileName rom)
    modifyDesk ({ · with rom := some path.fileName })
  | .error e =>
    report (.skipped path e)
    let status := s!"skipped {path.fileName} (too large), still running {desk.romShown}"
    modifyDesk ({ · with status := some status })

def browse (files : FileTree) (move : Library → Library) : HostM C Unit := do
  unless (← getDesk).library.isEmpty do
    modifyDesk fun d ↦ { d with library := move d.library }
    try loadCurrent files
    catch e => notify (.notLoaded e)

def setFrameRate (rate : Nat) : HostM C Unit := do
  let old := (← getDesk).frameRate
  let new := FrameRate.clamp rate
  unless new = old do
    notify (.frameRate old new)
    modifyDesk ({ · with frameRate := new })

def togglePause : HostM C Unit := do
  let paused := !(← getDesk).paused
  modifyDesk ({ · with paused })
  notify (if paused then .paused else .resumed)
  if paused then onStage Stage.stopSound

def handle (files : FileTree) : HostCommand → HostM C Unit
  | .nextRom => browse files Library.next
  | .previousRom => browse files Library.previous
  | .togglePause => togglePause
  | .fasterFrameRate => do setFrameRate ((← getDesk).frameRate + 1)
  | .slowerFrameRate => do setFrameRate ((← getDesk).frameRate - 1)
  | .resetFrameRate => setFrameRate FrameRate.standard
  | .toggleHelp => modifyDesk fun d ↦ { d with showHelp := !d.showHelp }
  | .toggleInfo => modifyDesk fun d ↦ { d with showInfo := !d.showInfo }
  | .quit => modifyDesk ({ · with quit := true })

def handleAll (files : FileTree) (commands : List HostCommand) : HostM C Unit :=
  commands.forM (handle files)

def updateOverlay : HostM C Unit :=
  modify fun h ↦ { h with stage := h.stage.setOverlay h.desk.overlay }

def runFrame : HostM C Unit
  | ⟨machine, stage, desk⟩ =>
    match machine.runFrame stage with
    | (.ok (), machine, stage) => .ok () ⟨machine, stage, desk⟩
    | (.error e, machine, stage) => .error e ⟨machine, stage, desk⟩

/-- Handles the commands that wait, then runs a frame, or draws the last one again while paused. -/
def tick (m : Moment) : HostM C Unit := do
  handleAll m.files (← onStage Stage.takeCommands)
  unless (← getDesk).quit do
    updateOverlay
    if (← getDesk).paused then onStage Stage.redraw
    else
      runFrame
      modifyDesk fun d ↦ { d with counter := d.counter.tick m.now }

def closing : HostM C Bool := do
  if (← getDesk).quit then
    onStage Stage.stopSound
    return true
  return false

/-- Ticks at one moment after the other until told to quit. Tells if that came before the moments
ran out. -/
def mainLoop : List Moment → HostM C Bool
  | [] => closing
  | m :: moments => do
    if ← closing then return true
    tick m
    mainLoop moments

/-- The directory whose ROMs go with a named one: its own, unless it is named without any. -/
def dirFor (config : Config) (rom : Path) : Path :=
  match rom.parent? with
  | some dir => if dir.bytes.isEmpty then config.romDir else dir
  | none => config.romDir

def library (config : Config) (files : FileTree) : Library :=
  match config.rom with
  | some rom => .startingAt files (dirFor config rom) rom
  | none => .scan files config.romDir

def initial (config : Config) (console : C) (m : Moment) : Host C where
  machine := ⟨.blank, 0⟩
  stage := ⟨console, true, none⟩
  desk :=
    { library := library config m.files
      romDir := config.romDir
      frameRate := FrameRate.clamp config.frameRate
      showHelp := config.showHelp
      showInfo := config.showInfo
      counter := ⟨m.now, 0, 0⟩ }

def setUp (files : FileTree) : HostM C Unit := do
  let desk ← getDesk
  if desk.library.isEmpty then report (.noRoms desk.romDir)
  else loadCurrent files
  updateOverlay

def start (config : Config) (console : C) (m : Moment) : Except Error (Host C) :=
  match setUp m.files (initial config console m) with
  | .ok () h => .ok h
  | .error e _ => .error e

end Host

end CopyJump
