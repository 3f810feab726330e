namespace CopyJump

/-- Nanoseconds on a clock. -/
abbrev Time := Int

def second : Time := 1000000000

namespace FrameRate

def standard : Nat := 60
def slowest : Nat := 1
def fastest : Nat := 60

def clamp (rate : Nat) : Nat := max slowest (min fastest rate)

def period (rate : Nat) : Nat :=
  let rate := clamp rate
  (2 * second.toNat + rate) / (2 * rate)

end FrameRate

/-- Counts frames in windows that close at the first frame a second or more after their start. -/
structure FrameCounter where
  start : Time
  frames : Nat := 0
  rate : Nat := 0

namespace FrameCounter

def tick (c : FrameCounter) (now : Time) : FrameCounter :=
  let frames := c.frames + 1
  if second ≤ now - c.start then ⟨now, 0, frames⟩ else { c with frames }

end FrameCounter

end CopyJump
