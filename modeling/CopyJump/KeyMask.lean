import CopyJump.Text.Blank
import CopyJump.Text.Number
import CopyJump.Text.Quoted

namespace CopyJump.KeyMask

open Text

def limit : Nat := 0xFFFF

def read : List Char → Except Number.Problem Nat
  | '0' :: 'x' :: cs | '0' :: 'X' :: cs => Number.read 16 limit cs
  | cs => Number.read 10 limit cs

structure Invalid where
  text : List Char
  problem : Number.Problem

def Invalid.message (e : Invalid) : String :=
  s!"invalid key mask {Quoted.text (String.ofList e.text)}: {e.problem.message}"

def parse (s : String) : Except Invalid UInt16 :=
  let text := trim s.toList
  match read text with
  | .ok n => .ok (UInt16.ofNat n)
  | .error problem => .error ⟨text, problem⟩

end CopyJump.KeyMask
