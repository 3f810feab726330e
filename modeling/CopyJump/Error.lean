import CopyJump.Path
import CopyJump.Text.Quoted

namespace CopyJump

inductive Fault
  | notFound
  | notADirectory
  | isADirectory
  | refused (reason : String)
deriving DecidableEq

namespace Fault

def reason : Fault → String
  | notFound => "No such file or directory"
  | notADirectory => "Not a directory"
  | isADirectory => "Is a directory"
  | refused reason => reason

def code? : Fault → Option (Nat × String)
  | notFound => some (2, "NotFound")
  | notADirectory => some (20, "NotADirectory")
  | isADirectory => some (21, "IsADirectory")
  | refused _ => none

def message (f : Fault) : String :=
  match f.code? with
  | some (code, _) => s!"{f.reason} (os error {code})"
  | none => f.reason

def detail (f : Fault) : String :=
  match f.code? with
  | some (code, kind) =>
    s!"Os \x7b code: {code}, kind: {kind}, message: {Text.Quoted.text f.reason} \x7d"
  | none => Text.Quoted.text f.reason

end Fault

def addressSpaceSize : Nat := 0x1000000

inductive Error
  | romTooLarge (size : Nat)
  | frameSize (expected actual : Nat)
  | unavailable (fault : Fault)
  | sound (reason : String)
  | noRom (dir : Path)
  | wideRead
  | wideWrite
  /-- Memory handed back a page of the wrong size. -/
  | audioPage (actual : Nat)
  | videoPage (actual : Nat)
  /-- A number was added to an address that has no room for it. -/
  | addressOverflow
deriving DecidableEq

def Error.message : Error → String
  | romTooLarge size => s!"rom is {size} bytes but the address space only holds {addressSpaceSize}"
  | frameSize expected actual => s!"frame must be {expected} bytes, got {actual}"
  | unavailable fault => s!"i/o unavailable: {fault.message}"
  | sound reason => s!"sound device: {reason}"
  | noRom dir => s!"no rom found in {dir.display}"
  | wideRead => "read_be is limited to 4 bytes"
  | wideWrite => "write_be is limited to 4 bytes"
  | audioPage actual => s!"audio page copy is {actual} bytes"
  | videoPage actual => s!"video page copy is {actual} bytes"
  | addressOverflow => "attempt to add with overflow"

def Error.detail : Error → String
  | romTooLarge size => s!"RomTooLarge \x7b len: {size}, max: {addressSpaceSize} \x7d"
  | frameSize expected actual => s!"FrameSize \x7b expected: {expected}, actual: {actual} \x7d"
  | unavailable fault => s!"IoUnavailable({fault.detail})"
  | sound reason => s!"Sound({Text.Quoted.text reason})"
  | noRom dir => s!"NoRom({Text.Quoted.bytes dir.bytes})"
  | e => e.message

end CopyJump
