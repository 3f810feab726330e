import CopyJump.Config
import CopyJump.KeyMask

namespace CopyJump.Arguments

inductive Problem
  | unknownArgument
  | invalidValue
  | valueValidation
  | argumentConflict
  | tooManyValues
  | displayHelp
  | displayVersion
deriving DecidableEq

inductive Setting
  | rom
  | romDir
  | frameRate
  | frames
  | keys
  | level
deriving DecidableEq

inductive Switch
  | headless
  | mute
  | helpOverlay
  | noInfo
deriving DecidableEq

inductive Argument
  | setting (s : Setting)
  | switch (s : Switch)
  | help
  | version

def Argument.ofName? : String → Option Argument
  | "rom-dir" => some (.setting .romDir)
  | "fps" => some (.setting .frameRate)
  | "frames" => some (.setting .frames)
  | "input" => some (.setting .keys)
  | "log-level" => some (.setting .level)
  | "headless" => some (.switch .headless)
  | "mute" => some (.switch .mute)
  | "help-overlay" => some (.switch .helpOverlay)
  | "no-info" => some (.switch .noInfo)
  | "help" => some .help
  | "version" => some .version
  | _ => none

def Argument.ofLetter? : Char → Option Argument
  | 'h' => some .help
  | 'V' => some .version
  | _ => none

inductive Shape
  | escape
  | long (name : String) (value : Option String)
  /-- Letters behind one hyphen, of which the first counts. -/
  | short (letter : Char)
  | plain

def Shape.of (s : String) : Shape :=
  match s.toList with
  | ['-', '-'] => .escape
  | '-' :: '-' :: cs =>
    let name := String.ofList (cs.takeWhile (· ≠ '='))
    match cs.dropWhile (· ≠ '=') with
    | [] => .long name none
    | _ :: value => .long name (some (String.ofList value))
  | '-' :: letter :: _ => .short letter
  | _ => .plain

/-- A count of 32 bits. A minus sign leaves only zero. -/
def count? (s : String) : Option Nat :=
  match s.toList with
  | '-' :: cs =>
    match cs with
    | '+' :: _ => none
    | cs => (Text.Number.read 10 0 cs).toOption
  | cs => (Text.Number.read 10 0xFFFFFFFF cs).toOption

def level? : String → Option Level
  | "info" => some .info
  | "warn" => some .warn
  | "error" => some .error
  | _ => none

def path? (s : String) : Except Problem Path :=
  if s.isEmpty then .error .invalidValue else .ok (.ofString s)

def number? (s : String) : Except Problem Nat :=
  match count? s with
  | some n => .ok n
  | none => .error .valueValidation

def Setting.put (c : Config) (v : String) : Setting → Except Problem Config
  | rom => (path? v).map fun rom ↦ { c with rom := some rom }
  | romDir => (path? v).map fun romDir ↦ { c with romDir }
  | frameRate => (number? v).map fun n ↦ { c with frameRate := FrameRate.clamp n }
  | frames => (number? v).map fun frames ↦ { c with frames }
  | keys =>
    match KeyMask.parse v with
    | .ok mask => .ok { c with keys := mask }
    | .error _ => .error .valueValidation
  | level =>
    match level? v with
    | some least => .ok { c with level := least }
    | none => .error .invalidValue

def Switch.put (c : Config) : Switch → Config
  | headless => { c with headless := true }
  | mute => { c with mute := true }
  | helpOverlay => { c with showHelp := true }
  | noInfo => { c with showInfo := false }

structure Progress where
  config : Config := {}
  given : List Setting := []
  switched : List Switch := []
  /-- What is wrong with the last value. It is judged once the next argument is known for what it
  is. -/
  held : Option Problem := none

namespace Progress

def settle (p : Progress) : Except Problem Progress :=
  match p.held with
  | some problem => .error problem
  | none => .ok p

def give (p : Progress) (s : Setting) (v : String) : Progress :=
  if p.given.contains s then { p with held := some .argumentConflict }
  else
    match s.put p.config v with
    | .ok config => { p with config, given := s :: p.given }
    | .error problem => { p with given := s :: p.given, held := some problem }

def turnOn (p : Progress) (s : Switch) : Except Problem Progress :=
  if p.switched.contains s then .error .argumentConflict
  else .ok { p with config := s.put p.config, switched := s :: p.switched }

def awaitValue (p : Progress) : Progress := { p with held := some .invalidValue }

def giveRom (p : Progress) (v : String) : Except Problem Progress :=
  if p.given.contains .rom then .error .unknownArgument
  else p.settle.map (·.give .rom v)

def plain (p : Progress) : List String → Except Problem Progress
  | [] => p.settle
  | v :: rest => do (← p.giveRom v).plain rest

end Progress

def act (p : Progress) : Argument → Except Problem Progress
  | .help => p.settle.bind fun _ ↦ .error .displayHelp
  | .version => p.settle.bind fun _ ↦ .error .displayVersion
  | .switch s => p.settle.bind (·.turnOn s)
  | .setting _ => p.settle.bind fun _ ↦ .error .invalidValue

def take (p : Progress) : List String → Except Problem Progress
  | [] => p.settle
  | arg :: rest =>
    match Shape.of arg with
    | .escape => p.plain rest
    | .plain => do take (← p.giveRom arg) rest
    | .short letter =>
      match Argument.ofLetter? letter with
      | none => .error .unknownArgument
      | some a => do take (← act p a) rest
    | .long name value =>
      match Argument.ofName? name, value with
      | none, _ => .error .unknownArgument
      | some (.setting s), some v => do take (← ((← p.settle).give s v).settle) rest
      | some (.setting s), none => do
        let p ← p.settle
        match rest with
        | [] => p.awaitValue.settle
        | v :: rest' =>
          match Shape.of v with
          | .plain => take (p.give s v) rest'
          | _ => take p.awaitValue (v :: rest')
      | some _, some _ => .error .tooManyValues
      | some a, none => do take (← act p a) rest

def parse (args : List String) : Except Problem Config := (take {} args).map (·.config)

end CopyJump.Arguments
