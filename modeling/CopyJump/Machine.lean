import CopyJump.AddressSpace
import CopyJump.FrontEnd

namespace CopyJump

/-- The machine. It has one instruction and no registers; all it knows is in memory:

* 0 and 1: the keys held, written before every frame,
* 2 to 4: where a frame starts,
* 5: the video page, from `value * 2^16` on,
* 6 and 7: the audio page, from `value * 2^8` on.

An instruction is nine bytes: the address of a byte, the address it is copied to, and the address of
the next instruction. -/
structure Machine (M : Type) where
  memory : M
  /-- A word of 64 bits has room for it until 2^64 frames are run. -/
  framesRun : Nat := 0

namespace Machine

def keysAt : Address := 0
def startAt : Address := 2
def videoPageAt : Address := 5
def audioPageAt : Address := 6

def instructionsPerFrame : Nat := 0x10000

variable {M : Type} [AddressSpace M]

open AddressSpace

def start (m : M) : Address := readNumber m startAt 3

/-- One instruction: the memory after it, and where to go on. The next address is read after the
copy. -/
@[inline] def step (m : M) (pc : Address) : M × Address :=
  let src := readNumber m pc 3
  let dst := readNumber m (pc + 3).wrap 3
  let m := copyByte m src dst
  (m, readNumber m (pc + 6).wrap 3)

/-- One instruction with its additions checked. Only a memory with numbers of its own has places so
high that the fields behind them have no address; the copy is made before the last of them is
looked for. -/
@[inline] def step? (m : M) (pc : Address) : Except Error Address × M :=
  if pc.fits 6 then
    let (m, next) := step m pc
    (.ok next, m)
  else if pc.fits 3 then (.error .addressOverflow, (step m pc).1)
  else (.error .addressOverflow, m)

@[specialize] def steps? : Nat → M → Address → Except Error Unit × M
  | 0, m, _ => (.ok (), m)
  | n + 1, m, pc =>
    match step? m pc with
    | (.ok pc, m) => steps? n m pc
    | (.error e, m) => (.error e, m)

@[specialize] def advance? (m : M) (keys : UInt16) : Except Error Unit × M :=
  let m := writeNumber m keysAt keys.toUInt32 2
  steps? instructionsPerFrame m (start m)

def advance (m : M) (keys : UInt16) : M := (advance? m keys).2

def audioPage (m : M) : Address := readNumber m audioPageAt 2 <<< 8
def videoPage (m : M) : Address := readNumber m videoPageAt 1 <<< 16

def pages (m : M) : Except Error (AudioFrame × VideoFrame) := do
  let audio ← AudioFrame.ofPage (readRange m (audioPage m) audioSize)
  let video ← VideoFrame.ofPage (readRange m (videoPage m) videoSize)
  return (audio, video)

@[specialize] def frame (vm : Machine M) (keys : UInt16) :
    Except Error (AudioFrame × VideoFrame) × Machine M :=
  match vm with
  | ⟨m, n⟩ =>
    match advance? m keys with
    | (.ok (), m) => (pages m, ⟨m, n + 1⟩)
    | (.error e, m) => (.error e, ⟨m, n⟩)

variable {F : Type} [FrontEnd F]

@[specialize] def run (vm : Machine M) (keys : UInt16) (f : F) :
    Except Error Unit × Machine M × F :=
  match vm.frame keys with
  | (.error e, vm) => (.error e, vm, f)
  | (.ok (audio, video), vm) =>
    match FrontEnd.takeAudio f audio with
    | (.error e, f) => (.error e, vm, f)
    | (.ok (), f) =>
      let (result, f) := FrontEnd.takeVideo f video
      (result, vm, f)

@[specialize] def runFrame (vm : Machine M) (f : F) : Except Error Unit × Machine M × F :=
  match FrontEnd.poll f with
  | (.error e, f) => (.error e, vm, f)
  | (.ok keys, f) => vm.run keys f

@[specialize] def runFrames (vm : Machine M) : Nat → F → Except Error Unit × Machine M × F
  | 0, f => (.ok (), vm, f)
  | n + 1, f =>
    match vm.runFrame f with
    | (.error e, vm, f) => (.error e, vm, f)
    | (.ok (), vm, f) => vm.runFrames n f

/-- Puts a ROM into memory; nothing changes if it does not fit. -/
def load (vm : Machine M) (rom : ByteArray) : Except Error Unit × Machine M :=
  let (result, memory) := AddressSpace.load vm.memory rom
  (result, { vm with memory })

end Machine

end CopyJump
