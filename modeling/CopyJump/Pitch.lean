import CopyJump.Frame

namespace CopyJump

namespace Pitch

def sampleRate : Nat := 15360

def threshold : Nat := 4

def lowest : Nat := 20
def highest : Nat := sampleRate / 2

def peak (samples : List Int) : Nat := samples.foldl (fun m s ↦ max m s.natAbs) 0

/-- How often the sign changes after a sample of sign `last`; zero samples have no sign. -/
def crossings (last : Int) : List Int → Nat
  | [] => 0
  | s :: samples =>
    if s.sign = 0 then crossings last samples
    else if last ≠ 0 ∧ s.sign ≠ last then crossings s.sign samples + 1
    else crossings s.sign samples

end Pitch

/-- The pitch in hertz; none for silence and for samples of one sign. -/
def AudioFrame.pitch? (f : AudioFrame) : Option Nat :=
  if Pitch.peak f.samples < Pitch.threshold then none
  else
    match Pitch.crossings 0 f.samples with
    | 0 => none
    | n => some (max Pitch.lowest (min Pitch.highest (n * Pitch.sampleRate / (2 * audioSize))))

end CopyJump
