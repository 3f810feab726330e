import CopyJump.Config
import CopyJump.Digest
import CopyJump.Library
import CopyJump.Machine
import CopyJump.Memory
import CopyJump.Source

namespace CopyJump.Headless

structure Summary where
  rom : Option String
  frames : Nat
  instructions : Nat
  programCounter : Address
  video : UInt64
  audio : UInt64
deriving DecidableEq

def hex (width n : Nat) : String := String.ofList (Text.Number.padded 16 width n)

def Summary.text (s : Summary) : String :=
  let rom := s.rom.getD "(none)"
  let pc := hex 6 s.programCounter.toNat
  let video := hex 16 s.video.toNat
  let audio := hex 16 s.audio.toNat
  s!"rom={rom} frames={s.frames} instructions={s.instructions} pc={pc} video={video} audio={audio}"

def library (config : Config) (files : FileTree) : Library :=
  match config.rom with
  | some rom => .ofPaths [rom]
  | none => .scan files config.romDir

def boot (files : FileTree) (path : Path) : Except Error (Machine Memory) := do
  let data ← (files.read path).mapError .unavailable
  match AddressSpace.loadFrom Memory.blank (Trickle.ofFile data) with
  | (.ok (), memory) => return ⟨memory, 0⟩
  | (.error e, _) => throw e

def perform (config : Config) (path : Path) (vm : Machine Memory) : Except Error Summary :=
  match vm.runFrames config.frames ({ mask := config.keys } : Recorder) with
  | (.error e, _) => .error e
  | (.ok (), vm, recorder) =>
    .ok
      { rom := some path.fileName
        frames := recorder.frames
        instructions := recorder.frames * Machine.instructionsPerFrame
        programCounter := Machine.start vm.memory
        video := (recorder.lastVideo.map (digest ·.bytes)).getD 0
        audio := (recorder.lastAudio.map (digest ·.bytes)).getD 0 }

def run (config : Config) (files : FileTree) (log : Log) : Except Error Summary × Log :=
  match (library config files).current? with
  | none => (.error (.noRom config.romDir), log)
  | some path =>
    match boot files path with
    | .error e => (.error e, log)
    | .ok vm => (perform config path vm, log.write .info s!"loaded {path.display}")

end CopyJump.Headless
