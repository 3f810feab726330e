namespace CopyJump

inductive Key
  | char (c : Char)
  | function (n : Nat)
  | backspace
  | enter
  | left
  | right
  | up
  | down
  | home
  | finish
  | pageUp
  | pageDown
  | tab
  | backTab
  | delete
  | insert
  | null
  | escape
deriving DecidableEq

structure Stroke where
  key : Key
  shift : Bool := false
  control : Bool := false
  alt : Bool := false
deriving DecidableEq

inductive HostCommand
  | nextRom
  | previousRom
  | togglePause
  | fasterFrameRate
  | slowerFrameRate
  | resetFrameRate
  | toggleHelp
  | toggleInfo
  | quit
deriving DecidableEq

inductive KeyAction
  /-- A key of the machine, by its bit in the mask. -/
  | machine (bit : Nat)
  | host (command : HostCommand)
  | none
deriving DecidableEq

/-- Digits and letters up to F are keys of the machine. Case does not matter. -/
def Key.charAction (c : Char) : KeyAction :=
  if '0' ≤ c ∧ c ≤ '9' then .machine (c.toNat - '0'.toNat)
  else if 'a' ≤ c ∧ c ≤ 'f' then .machine (c.toNat - 'a'.toNat + 10)
  else
    match c with
    | 'p' => .host .togglePause
    | 'r' => .host .resetFrameRate
    | 'h' => .host .toggleHelp
    | 'i' => .host .toggleInfo
    | 'q' => .host .quit
    | _ => .none

def Key.action : Key → KeyAction
  | char c => charAction c.toLower
  | right => .host .nextRom
  | left => .host .previousRom
  | pageUp => .host .fasterFrameRate
  | pageDown => .host .slowerFrameRate
  | escape => .host .quit
  | _ => .none

def Stroke.action (s : Stroke) : KeyAction :=
  if s.key = .char 'c' ∧ s.control then .host .quit else s.key.action

end CopyJump
